import Stencil.Diagnostic.Fault
import Stencil.Text.Blank

/-!
# Template/HostTag — host script in a template

A template may hold no host script.  What opens host script depends on the host: always `<?=` and
`<?php` before a blank, and every `<?` if the host takes short tags.
-/

namespace Stencil

namespace HostTag

/-- The host tag that starts a text, if one does. -/
def at? (short : Bool) : Text → Option Text
  | '<' :: '?' :: t =>
    if short then some "<?"
    else
      match t with
      | '=' :: _ => some "<?="
      | a :: b :: c :: d :: _ =>
        if [a, b, c].map Char.toLower = "php" ∧ Text.isBlank d then some "<?php" else none
      | _ => none
  | _ => none

/-- The first host tag of a text that starts on `line`, and its own line. -/
def find? (short : Bool) (line : Nat) : Text → Option (Text × Nat)
  | [] => none
  | c :: t =>
    match at? short (c :: t) with
    | some tag => some (tag, line)
    | none => find? short (if c = '\n' then line + 1 else line) t

/-- A template without host script, or the report of the first tag. -/
def reject (short : Bool) (t : Text) : Except Diagnostic Unit :=
  match find? short 1 t with
  | some (tag, line) => .error ((Fault.hostTag tag).diagnostic.withLine line)
  | none => .ok ()

end HostTag

end Stencil
