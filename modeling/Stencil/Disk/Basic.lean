import Stencil.Disk.Entry
import Stencil.Path
import Stencil.Table

/-!
# Disk/Basic — files and directories

A disk holds files and directories at **places**, the names that lead to them from the root, and has
a working directory and a time zone.  A path is followed from the working directory or from the
root, one segment at a time; every segment but an empty one is looked up in a directory, which has
to allow it.

`locate` follows a path as it is written.  `canonical` takes the detours out of a path: it looks up
the names that remain one by one, each from the root, so a path of any length can lead somewhere.
-/

namespace Stencil

/-- The names that lead from the root to a file or a directory. -/
abbrev Place := List Text

/-- Files and directories, the working directory, the time that changes get, and the zone whose
clocks tell the time of a file. -/
structure Disk where
  entries : Table Place Entry
  here : Place
  now : Instant
  zone : Zone := .utc

namespace Disk

/-- The entry at a place. -/
def at? (d : Disk) (place : Place) : Option Entry := d.entries.get? place

/-- The disk with an entry at a place. -/
def put (d : Disk) (place : Place) (entry : Entry) : Disk :=
  { d with entries := d.entries.insert place entry }

/-- **Putting an entry changes its own place only.** -/
theorem at?_put (d : Disk) (place other : Place) (entry : Entry) :
    (d.put place entry).at? other = if place = other then some entry else d.at? other :=
  Table.get?_insert ..

/-! ## Following paths -/

/-- The largest size of a name, in bytes. -/
def maxName : Nat := 255

/-- The size from which on a path is too long, in bytes. -/
def pathLimit : Nat := 4096

/-- The place that segments lead to from the place `start`. -/
def follow (d : Disk) (start : Place) : List Text → Except FileError Place
  | [] => .ok start
  | s :: rest =>
    match d.at? start with
    | none => .error .notFound
    | some (.file ..) => .error .notDirectory
    | some dir =>
      if s.isEmpty then d.follow start rest
      else if !dir.allows .search then .error .denied
      else if s = ['.'] then d.follow start rest
      else if s = ['.', '.'] then d.follow start.dropLast rest
      else if maxName < s.size then .error .nameTooLong
      else
        match d.at? (start ++ [s]) with
        | none => .error .notFound
        | some _ => d.follow (start ++ [s]) rest

/-- Where a path starts, and the segments to follow from there. -/
def origin (d : Disk) (p : Text) : Place × List Text :=
  match p with
  | '/' :: rest => ([], Path.segments rest)
  | _ => (d.here, Path.segments p)

/-- Refuses what no path can be, of any length. -/
def checkForm (p : Text) : Except FileError Unit :=
  if p.contains '\x00' then .error .notPath
  else if p.isEmpty then .error .notFound
  else .ok ()

/-- Refuses what no path can be. -/
def checkPath (p : Text) : Except FileError Unit :=
  match checkForm p with
  | .error e => .error e
  | .ok () => if pathLimit ≤ p.size then .error .nameTooLong else .ok ()

/-- The place of a path. -/
def locate (d : Disk) (p : Text) : Except FileError Place :=
  match checkPath p with
  | .error e => .error e
  | .ok () => d.follow (d.origin p).1 (d.origin p).2

/-- The entry of a path. -/
def entry (d : Disk) (p : Text) : Except FileError Entry :=
  match d.locate p with
  | .error e => .error e
  | .ok place =>
    match d.at? place with
    | some entry => .ok entry
    | none => .error .notFound

/-- Whether a path leads to a directory. -/
def isDir (d : Disk) (p : Text) : Bool :=
  match d.entry p with
  | .ok (.dir ..) => true
  | _ => false

/-- Whether a path leads to a file. -/
def isFile (d : Disk) (p : Text) : Bool :=
  match d.entry p with
  | .ok (.file ..) => true
  | _ => false

/-! ## Taking detours out -/

/-- The text of a place. -/
def placeText (place : Place) : Text := '/' :: Path.joinSegments place

/-- Whether the segments behind a name ask for a directory there without looking a name up in it:
they end, or lead back. -/
def asksDirectory (rest : List Text) : Bool :=
  !rest.isEmpty && match rest.dropWhile Path.isSilent with
    | [] => true
    | s :: _ => s == ['.', '.']

/-- The place that segments lead to from the place `start`, with every name looked up from the
root. -/
def resolve (d : Disk) (start : Place) : List Text → Except FileError Place
  | [] => .ok start
  | s :: rest =>
    if Path.isSilent s then d.resolve start rest
    else if s = ['.', '.'] then d.resolve start.dropLast rest
    else
      match d.locate (placeText (start ++ [s]) ++ if asksDirectory rest then ['/'] else []) with
      | .error e => .error e
      | .ok place => d.resolve place rest

/-- **The path without detours.** -/
def canonical (d : Disk) (p : Text) : Except FileError Text :=
  match checkForm p with
  | .error e => .error e
  | .ok () => (d.resolve (d.origin p).1 (d.origin p).2).map placeText

/-! ## Reading -/

/-- The bytes of a file. -/
def readBytes (d : Disk) (p : Text) : Except FileError Bytes :=
  match d.entry p with
  | .error e => .error e
  | .ok entry =>
    if !entry.allows .read then .error .denied
    else
      match entry with
      | .dir .. => .error .isDirectory
      | .file content .. => .ok content

/-- The text of a file. -/
def readText (d : Disk) (p : Text) : Except FileError Text :=
  match d.readBytes p with
  | .error e => .error e
  | .ok content =>
    match Text.ofUtf8? content with
    | some t => .ok t
    | none => .error .notText

/-- Whether a path leads to a directory whose names may be read. -/
def isListed (d : Disk) (p : Text) : Bool :=
  match d.entry p with
  | .ok entry => entry.isDir && entry.allows .read
  | .error _ => false

end Disk

end Stencil
