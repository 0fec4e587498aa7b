import Stencil.Text.Visible

/-!
# Text/Escaped — a text between quotes, fit to be read

A text in a message stands between double quotes.  Double quotes and backslashes get a backslash,
the common control characters their letters, and what does not show on its own is given by its
number.
-/

namespace Stencil

namespace Text

/-- The form of a character between quotes. -/
def escapeVisible (c : Char) : Text :=
  if c = '\x00' then "\\0"
  else if c = '\t' then "\\t"
  else if c = '\r' then "\\r"
  else if c = '\n' then "\\n"
  else if c = '"' ∨ c = '\\' then ['\\', c]
  else if isVisible c then [c]
  else "\\u\x7b" ++ Nat.toDigits 16 c.toNat ++ "\x7d"

/-- A text between quotes. -/
def escaped (t : Text) : Text := "\"" ++ t.flatMap escapeVisible ++ "\""

end Text

end Stencil
