import Stencil.Token.Lexer

/-!
# Cursor — a place in a text

A cursor walks a text forwards.  It knows the text ahead, how many bytes lie behind it and which
line it stands on; every move goes through `move`, so the three always agree.  Lines are counted
without bound here and wherever a line is kept; they have no more than 32 bits as long as the text
has fewer than `2 ^ 32 - 1` line feeds.
-/

namespace Stencil

/-- A place in a text. -/
structure Cursor where
  /-- The whole text. -/
  text : Text
  /-- The text ahead. -/
  rest : Text
  /-- The number of bytes behind. -/
  offset : Nat
  /-- The line, counted from one. -/
  line : Nat
  deriving DecidableEq, Repr

namespace Cursor

/-- The cursor at the start of a text. -/
def start (text : Text) : Cursor := ⟨text, text, 0, 1⟩

/-- Whether nothing lies ahead. -/
def atEnd (c : Cursor) : Bool := c.rest.isEmpty

/-- The cursor behind `passed`, with `rest` ahead. -/
def move (c : Cursor) (passed rest : Text) : Cursor :=
  { c with rest := rest, offset := c.offset + passed.size, line := c.line + passed.newlines }

/-- Moves over `n` bytes, or to the end, and gives the text in between. -/
def advance (c : Cursor) (n : Nat) : Text × Cursor :=
  let (passed, rest) := Text.splitBytes n c.rest
  (passed, c.move passed rest)

/-- Moves over leading blanks. -/
def skipBlanks (c : Cursor) : Cursor :=
  c.move (c.rest.takeWhile Text.isBlank) (c.rest.dropWhile Text.isBlank)

/-- The first character ahead that is no blank. -/
def peek (c : Cursor) : Option Char := (Text.trimStart c.rest).head?

/-- The text between two offsets. -/
def slice (c : Cursor) (first last : Nat) : Text :=
  (Text.splitBytes (last - first) (Text.splitBytes first c.text).2).1

/-- Reads a token and moves over it. -/
def nextToken (c : Cursor) : Except Stuck (Token × Cursor) :=
  match Token.next c.rest with
  | .ok (token, rest) => .ok (token, c.move token.text rest)
  | .error stuck => .error stuck

end Cursor

end Stencil
