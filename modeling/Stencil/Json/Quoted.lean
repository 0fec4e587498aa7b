import Stencil.Text.Basic

/-!
# Json/Quoted — texts as JSON strings

A text between quotes, with the quote, the backslash and the control characters escaped: five
control characters by a letter, the others by their code in four hexadecimal digits.
-/

namespace Stencil

namespace Json

/-- A hexadecimal digit, in lower case. -/
def hexDigit (n : Nat) : Char := if n < 10 then Char.ofNat (48 + n) else Char.ofNat (87 + n)

/-- The form of a character in a JSON string. -/
def escapeChar (c : Char) : Text :=
  if c = '"' then ['\\', '"']
  else if c = '\\' then ['\\', '\\']
  else if c = '\x08' then ['\\', 'b']
  else if c = '\t' then ['\\', 't']
  else if c = '\n' then ['\\', 'n']
  else if c = '\x0c' then ['\\', 'f']
  else if c = '\r' then ['\\', 'r']
  else if c.toNat < 32 then
    ['\\', 'u', '0', '0', hexDigit (c.toNat / 16), hexDigit (c.toNat % 16)]
  else [c]

/-- The JSON string of a text. -/
def quote (t : Text) : Text := ['"'] ++ t.flatMap escapeChar ++ ['"']

end Json

end Stencil
