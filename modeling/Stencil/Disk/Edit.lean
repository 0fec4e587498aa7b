import Stencil.Disk.Change
import Stencil.Disk.Discovery

/-!
# Disk/Edit — changes from outside

What people do to the files of a project between two runs of the compiler: write a template, set its
time, move it, take it away.  A change of a file's bytes sets its time to that of the disk, unless
the change names another, and takes away the bits that lend its owner and group to who runs it.
-/

namespace Stencil

namespace Disk

/-- The permission bits of a new directory. -/
def dirMode : Nat := 0o755

/-- The bit that lends the owner of a file. -/
def lendsOwner : Nat := 0o4000

/-- The bit that lends the group of a file; a new directory takes it over from the one around it. -/
def lendsGroup : Nat := 0o2000

/-- The permission bits of a new directory in one with the permission bits `outer`. -/
def innerMode (outer : Nat) : Nat := dirMode ||| (outer &&& lendsGroup)

/-- The permission bits of a file after a change.  The group is lent only where it may run the
file. -/
def changedMode (mode : Nat) : Nat :=
  let mode := if mode &&& lendsOwner = 0 then mode else mode - lendsOwner
  if mode &&& lendsGroup = 0 ∨ mode &&& 0o010 = 0 then mode else mode - lendsGroup

/-- The permission bits of a new file. -/
def fileMode : Nat := 0o644

/-- Makes the missing directories on the way from `dir`. -/
def makeWay (d : Disk) (dir : Text) : List Path.Component → Except FileError Disk
  | [] => .ok d
  | step :: steps =>
    let dir := Path.join dir step.text
    if d.isDir dir then d.makeWay dir steps
    else
      match d.makeDir dir innerMode with
      | .ok d => d.makeWay dir steps
      | .error e => .error e

/-- Makes a directory and those that lead to it. -/
def makeTree (d : Disk) (p : Text) : Except FileError Disk := d.makeWay [] (Path.components p)

/-- Writes a file, and makes the directories that lead to it.  A file that is there keeps its
permission bits. -/
def write (d : Disk) (p : Text) (content : Bytes) (time : Instant) : Except FileError Disk := do
  let d ← d.makeWay [] (Path.components p).dropLast
  let place ← d.locateNew p
  match d.at? place with
  | none => return d.put place (.file content time fileMode)
  | some (.file _ _ mode) => return d.put place (.file content time (changedMode mode))
  | some (.dir ..) => throw .isDirectory

/-- Changes what is at a path. -/
def modify (d : Disk) (p : Text) (change : Entry → Except FileError Entry) :
    Except FileError Disk := do
  let place ← d.locate p
  let entry ← d.entry p
  return d.put place (← change entry)

/-- Sets the time of a file or a directory. -/
def touch (d : Disk) (p : Text) (time : Instant) : Except FileError Disk :=
  d.modify p fun entry => .ok (entry.withTime time)

/-- Sets the permission bits of a file or a directory. -/
def setMode (d : Disk) (p : Text) (mode : Nat) : Except FileError Disk :=
  d.modify p fun entry => .ok (entry.withMode mode)

/-- Changes the bytes of a file. -/
def edit (d : Disk) (p : Text) (change : Bytes → Bytes) : Except FileError Disk :=
  d.modify p fun
    | .file content _ mode => .ok (.file (change content) d.now (changedMode mode))
    | .dir .. => .error .isDirectory

/-- Writes bytes behind those of a file; none are no change. -/
def append (d : Disk) (p : Text) (more : Bytes) : Except FileError Disk :=
  if more.isEmpty then .ok d else d.edit p (· ++ more)

/-- Cuts bytes off the end of a file. -/
def chop (d : Disk) (p : Text) (n : Nat) : Except FileError Disk :=
  d.edit p fun content => content.take (content.length - n)

/-- Copies a file, with its permission bits as far as the writing of the copy leaves them. -/
def copy (d : Disk) (p goal : Text) : Except FileError Disk := do
  match ← d.entry p with
  | .dir .. => throw .isDirectory
  | .file content _ mode =>
    let mode := if content.isEmpty then mode else changedMode mode
    return d.put (← d.locateNew goal) (.file content d.now mode)

/-- The disk without a place and all below it. -/
def removeAt (d : Disk) (place : Place) : Disk :=
  { d with entries := d.entries.filter fun e => (below? place e.1).isNone }

/-- The place of the file that a path removes.  A path that ends in a slash or in dots names no
file, and a directory is not removed. -/
def removeTarget (d : Disk) (p : Text) : Except FileError Place :=
  match checkPath p with
  | .error e => .error e
  | .ok () =>
    let segments := (d.origin p).2
    let named := (segments.reverse.dropWhile List.isEmpty).reverse
    match named.getLast? with
    | none => .error .isDirectory
    | some name =>
      match d.placeIn (d.origin p).1 named.dropLast name with
      | .error e => .error e
      | .ok place =>
        if name = ['.'] ∨ name = ['.', '.'] then .error .isDirectory
        else
          match d.at? place with
          | none => .error .notFound
          | some entry =>
            if named.length < segments.length then
              .error (if entry.isDir then .isDirectory else .notDirectory)
            else
              match d.openOuter place with
              | .error e => .error e
              | .ok _ => if entry.isDir then .error .isDirectory else .ok place

/-- Removes a file. -/
def remove (d : Disk) (p : Text) : Except FileError Disk := do
  return d.removeAt (← d.removeTarget p)

/-- Removes a directory with all below it, or a file. -/
def removeTree (d : Disk) (p : Text) : Except FileError Disk := do
  return d.removeAt (← d.locate p)

/-- Moves a file, or a directory with all below it. -/
def rename (d : Disk) (p goal : Text) : Except FileError Disk := do
  let source ← d.locate p
  let target ← d.locateNew goal
  let moved := d.entries.filterMap fun (place, entry) =>
    (below? source place).map fun names => (target ++ names, entry)
  let others := (d.removeAt source).removeAt target
  return moved.foldl (fun d (place, entry) => d.put place entry) others

/-- What can be found below the working directory: its path from there, and whether it is seen to be
a directory. -/
def listing (d : Disk) : List (Text × Bool) :=
  ((d.namesBelow d.here).filter (d.isReached ".")).map fun names =>
    (Path.joinSegments names, d.isDir (pathBelow "." names))

/-- The disk that holds nothing but an empty working directory and those that lead to it. -/
def blank (here : Place) (now : Instant) : Disk :=
  let places := (List.range (here.length + 1)).map here.take
  places.foldl (fun d place => d.put place (.dir now dirMode)) ⟨[], here, now, .utc⟩

end Disk

end Stencil
