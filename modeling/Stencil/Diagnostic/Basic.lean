import Stencil.Diagnostic.Code

/-!
# Diagnostic/Basic — one reported problem

A diagnostic is a code and a message, and where they are known the line, the tag and the file.  A
place that is already known is never overwritten (`withLine_of_some` and its companions): the
innermost report of a place is the most precise one.  A line is a number without bound; those of a
text with fewer than `2 ^ 32 - 1` line feeds have no more than 32 bits.
-/

namespace Stencil

/-- One reported problem. -/
structure Diagnostic where
  code : Code
  message : Text
  line : Option Nat := none
  tag : Option Text := none
  file : Option Text := none
  deriving DecidableEq, Repr

namespace Diagnostic

/-- Something stands where it is not allowed. -/
def unexpected (found : Text) : Diagnostic :=
  ⟨.unexpected, "Unexpected `" ++ found ++ "`", none, none, none⟩

/-- Sets the line unless one is known. -/
def withLine (d : Diagnostic) (line : Nat) : Diagnostic := { d with line := d.line.or (some line) }

/-- Sets the tag unless one is known. -/
def withTag (d : Diagnostic) (tag : Text) : Diagnostic := { d with tag := d.tag.or (some tag) }

/-- Sets the file unless one is known. -/
def withFile (d : Diagnostic) (file : Text) : Diagnostic := { d with file := d.file.or (some file) }

/-- A known line stays. -/
theorem withLine_of_some {d : Diagnostic} {n : Nat} (h : d.line = some n) (m : Nat) :
    d.withLine m = d := by
  cases d; simp_all [withLine]

/-- A known tag stays. -/
theorem withTag_of_some {d : Diagnostic} {t : Text} (h : d.tag = some t) (u : Text) :
    d.withTag u = d := by
  cases d; simp_all [withTag]

/-- A known file stays. -/
theorem withFile_of_some {d : Diagnostic} {f : Text} (h : d.file = some f) (g : Text) :
    d.withFile g = d := by
  cases d; simp_all [withFile]

/-- The family of the code. -/
def family (d : Diagnostic) : Code.Family := d.code.family

/-- The code in brackets and the message. -/
def display (d : Diagnostic) : Text := "[" ++ d.code.label ++ "] " ++ d.message

end Diagnostic

end Stencil
