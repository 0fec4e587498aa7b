import Stencil.Disk.Basic

/-!
# Disk/Change — where a change takes place

To make or to move something is to change a directory: the path up to the last segment leads to it,
and it has to allow the change.  `makeDir` makes a directory; `moveTarget` is the place that a file
gets when it is moved.
-/

namespace Stencil

namespace Disk

/-- The place of the last segment of a path, looked up in the directory that the others lead to. -/
def placeIn (d : Disk) (start : Place) (outer : List Text) (name : Text) :
    Except FileError Place :=
  match d.follow start outer with
  | .error e => .error e
  | .ok place =>
    match d.at? place with
    | none => .error .notFound
    | some (.file ..) => .error .notDirectory
    | some dir =>
      if !dir.allows .search then .error .denied
      else if maxName < name.size then .error .nameTooLong
      else .ok (place ++ [name])

/-- The directory around a place and its permission bits, if it allows to be changed. -/
def openOuter (d : Disk) (place : Place) : Except FileError (Place × Nat) :=
  match d.at? place.dropLast with
  | none => .error .notFound
  | some dir => if dir.allows .write then .ok (place.dropLast, dir.mode) else .error .denied

/-- The place at which a path makes something new.  A path that ends at a directory by its form
makes nothing. -/
def locateNew (d : Disk) (p : Text) : Except FileError Place :=
  match checkPath p with
  | .error e => .error e
  | .ok () =>
    let segments := Path.trimSegmentsEnd (d.origin p).2
    match segments.getLast? with
    | none => .error .alreadyExists
    | some name =>
      match d.placeIn (d.origin p).1 segments.dropLast name with
      | .error e => .error e
      | .ok place => if name = ['.', '.'] then .error .alreadyExists else .ok place

/-- Makes a directory, with permission bits that may depend on those of the one around it. -/
def makeDir (d : Disk) (p : Text) (mode : Nat → Nat) : Except FileError Disk :=
  match d.locateNew p with
  | .error e => .error e
  | .ok place =>
    if (d.at? place).isSome then .error .alreadyExists
    else
      match d.openOuter place with
      | .error e => .error e
      | .ok (_, outer) => .ok (d.put place (.dir d.now (mode outer)))

/-- The place of a file that is moved to a path, out of the directory `source`.  A path that ends in
a slash or in dots names no file; a directory in the way is not replaced, least of all one that the
file lies in. -/
def moveTarget (d : Disk) (source : Place) (p : Text) : Except FileError Place :=
  match checkPath p with
  | .error e => .error e
  | .ok () =>
    let segments := (d.origin p).2
    let named := (segments.reverse.dropWhile List.isEmpty).reverse
    match named.getLast? with
    | none => .error .busy
    | some name =>
      match d.placeIn (d.origin p).1 named.dropLast name with
      | .error e => .error e
      | .ok target =>
        if name = ['.'] ∨ name = ['.', '.'] then .error .busy
        else if named.length < segments.length then .error .notDirectory
        else if target.isPrefixOf source then .error .notEmpty
        else
          match d.openOuter target with
          | .error e => .error e
          | .ok _ => if (d.at? target).any Entry.isDir then .error .isDirectory else .ok target

end Disk

end Stencil
