import Stencil.Text.Basic

/-!
# Path — paths as they are written

A path is a text.  Its **segments** lie between its slashes; empty segments and `.` say nothing,
except that a `.` at the start of a relative path counts.  What a path says are its `components`.
Taking a leading path off another one compares components and keeps the text of what remains,
without the silent segments at its two ends.
-/

namespace Stencil

namespace Path

/-- One step of a path. -/
inductive Component
  /-- The root of all paths. -/
  | root
  /-- A leading `.`. -/
  | here
  /-- One directory up. -/
  | up
  | name (text : Text)
  deriving DecidableEq, Repr

/-! ## Segments -/

/-- The texts between the slashes. -/
def segments : Text → List Text
  | [] => [[]]
  | c :: t =>
    if c = '/' then [] :: segments t
    else
      match segments t with
      | [] => [[c]]
      | s :: rest => (c :: s) :: rest

/-- Segments with slashes between them. -/
def joinSegments (segments : List Text) : Text := List.intercalate ['/'] segments

/-- A segment that says nothing. -/
def isSilent (segment : Text) : Bool := segment.isEmpty || segment == ['.']

/-- The component of a segment that says something. -/
def component (segment : Text) : Component :=
  if segment = ['.', '.'] then .up else .name segment

/-- The component that a path starts with on its own, and the segments after it. -/
def lead (p : Text) : Option Component × List Text :=
  match p with
  | '/' :: rest => (some .root, segments rest)
  | _ =>
    match segments p with
    | ['.'] :: rest => (some .here, rest)
    | all => (none, all)

/-- The components of segments behind the start of a path. -/
def bodyComponents (segments : List Text) : List Component :=
  (segments.filter fun s => !isSilent s).map component

/-- **What a path says.** -/
def components (p : Text) : List Component :=
  (lead p).1.toList ++ bodyComponents (lead p).2

/-- The text of a component. -/
def Component.text : Component → Text
  | root => "/"
  | here => "."
  | up => ".."
  | name text => text

/-! ## Joining and taking apart -/

/-- Whether a path starts at the root. -/
def isAbsolute (p : Text) : Bool := p.head? == some '/'

/-- A path behind a directory; an absolute path stands for itself. -/
def join (dir p : Text) : Text :=
  if isAbsolute p then p
  else if dir.isEmpty ∨ dir.getLast? = some '/' then dir ++ p
  else dir ++ '/' :: p

/-- The segments without the silent ones at the end. -/
def trimSegmentsEnd (segments : List Text) : List Text :=
  (segments.reverse.dropWhile isSilent).reverse

/-- The segments behind components. -/
def dropComponents : List Component → List Text → Option (List Text)
  | [], segments => some segments
  | c :: others, segments =>
    match segments.dropWhile isSilent with
    | [] => none
    | s :: rest => if component s = c then dropComponents others rest else none

/-- A path without the silent segments at its end. -/
def trimEnd (p : Text) : Text :=
  let body := trimSegmentsEnd (lead p).2
  match (lead p).1 with
  | some .root => '/' :: joinSegments body
  | some _ => if body.isEmpty then ['.'] else '.' :: '/' :: joinSegments body
  | none => joinSegments body

/-- **A path without a leading path**, if its components start with those of `base`. -/
def relativeTo? (base p : Text) : Option Text :=
  if (components base).isEmpty then some (trimEnd p)
  else if (lead base).1 = (lead p).1 then
    (dropComponents (bodyComponents (lead base).2) (lead p).2).map fun rest =>
      joinSegments (trimSegmentsEnd (rest.dropWhile isSilent))
  else none

end Path

end Stencil
