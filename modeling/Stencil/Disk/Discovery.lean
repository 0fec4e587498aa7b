import Stencil.Disk.Basic

/-!
# Disk/Discovery — the files below a directory

The files below a directory come by the names that lead to them.  A name that starts with a dot is
hidden, and so is everything below it; the directory itself may have such a name.  The way to a file
goes through directories whose names may be read, and whatever is not seen to be a directory counts
as a file: so does a directory that may not be looked up.
-/

namespace Stencil

namespace Disk

/-- Whether a name is hidden. -/
def isHidden (name : Text) : Bool := name.head? == some '.'

/-- The names behind a place, if they lead on from it. -/
def below? : Place → Place → Option (List Text)
  | [], other => some other
  | _ :: _, [] => none
  | n :: place, m :: other => if n = m then below? place other else none

/-- The path that names lead to from a directory. -/
def pathBelow (p : Text) (names : List Text) : Text := names.foldl Path.join p

/-- Whether names lead from a directory only through directories whose names may be read. -/
def isReached (d : Disk) (p : Text) (names : List Text) : Bool :=
  (List.range names.length).all fun n => d.isListed (pathBelow p (names.take n))

/-- Whether names lead from a directory to something that is found as a file. -/
def isFound (d : Disk) (p : Text) (names : List Text) : Bool :=
  !names.any isHidden && d.isReached p names && !d.isDir (pathBelow p names)

/-- The names that lead from a place to what lies below it. -/
def namesBelow (d : Disk) (place : Place) : List (List Text) :=
  d.entries.filterMap fun (other, _) => (below? place other).filter fun names => !names.isEmpty

/-- **The files below a directory** that are not hidden, by the names that lead to them. -/
def filesBelow (d : Disk) (p : Text) : List (List Text) :=
  match d.locate p with
  | .error _ => []
  | .ok root => ((d.namesBelow root).filter (d.isFound p)).mergeSort fun a b => !decide (b < a)

end Disk

end Stencil
