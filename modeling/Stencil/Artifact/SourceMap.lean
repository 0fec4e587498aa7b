import Stencil.Artifact.Header
import Stencil.Template.Mark

/-!
# Artifact/SourceMap — from a line of an artifact to its tag

The header of an artifact names the template, and each statement carries the mark of its tag: so a
line of the artifact leads to the first tag on it.
-/

namespace Stencil

/-- A tag of a template. -/
structure Origin where
  template : Text
  line : Nat
  code : Text
  deriving DecidableEq, Repr

/-- **The first tag on a line of an artifact**, the lines counted from one.  The header is a line
of its own and has no tag. -/
def Origin.find? (artifact : Text) (line : Nat) : Option Origin :=
  match Text.lines artifact with
  | [] => none
  | first :: others => do
    let header ← HeaderInfo.parse? first
    if line < 2 then none
    else
      let text ← others[line - 2]?
      let mark ← Mark.find? text
      return ⟨header.source, mark.line, mark.code⟩

end Stencil
