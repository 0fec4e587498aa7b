import Stencil.Diagnostic.Fault
import Stencil.Token.Basic

/-!
# Expr/Context — where an expression stands

An expression is read in a context, which decides the characters that end it.  Of the characters
that can end an expression at all (`isStop`), each context takes some (`ends`); the others are
misplaced there.  A group goes on after a delimiter in the context that `after?` gives.
-/

namespace Stencil

/-- The place of an item in a literal. -/
inductive Slot
  /-- The first item, or its key. -/
  | first
  /-- An item, or its key, after a comma. -/
  | later
  /-- The value after a colon. -/
  | value
  deriving DecidableEq, Repr

/-- Where an expression stands. -/
inductive Context
  /-- A whole tag. -/
  | tag
  /-- An argument of a call, the first one or a later one. -/
  | argument (first : Bool)
  /-- Between parentheses that call nothing. -/
  | paren
  /-- An index of a value. -/
  | index (bracket : Bracket)
  /-- An item of a literal. -/
  | item (bracket : Bracket) (slot : Slot)
  /-- Between `?` and `:`. -/
  | yes
  /-- After the `:` of a ternary. -/
  | no
  deriving DecidableEq, Repr

/-- The characters at which an expression can end. -/
def isStop (c : Char) : Bool := c == ')' || c == '}' || c == ']' || c == ':' || c == ','

/-- A closing bracket of any family. -/
def isCloser (c : Char) : Bool := c == ')' || c == '}' || c == ']'

namespace Context

/-- The brackets around the group that the expression belongs to. -/
def bracket? : Context → Option Bracket
  | tag | yes | no => none
  | argument _ | paren => some .paren
  | index bracket | item bracket _ => some bracket

/-- Whether a character ends the expression. -/
def ends : Context → Char → Bool
  | tag, c => c == ']'
  | argument _, c => c == ')' || c == ','
  | paren, c => c == ')'
  | index bracket, c => c == bracket.closer
  | item bracket .value, c => c == bracket.closer || c == ','
  | item bracket _, c => c == bracket.closer || c == ',' || c == ':'
  | yes, c => c == ':'
  | no, c => isStop c

/-- The context after a delimiter, if the group takes it. -/
def after? : Context → Char → Option Context
  | argument _, c => if c = ',' then some (argument false) else none
  | item bracket .value, c => if c = ',' then some (item bracket .later) else none
  | item bracket _, c =>
    if c = ',' then some (item bracket .later)
    else if c = ':' then some (item bracket .value)
    else none
  | yes, c => if c = ':' then some no else none
  | _, _ => none

/-- Whether the expression is a branch of a ternary. -/
def isBranch : Context → Bool
  | yes | no => true
  | _ => false

/-- Why a stop character that does not end the expression is wrong. -/
def misplaced (ctx : Context) (c : Char) : Fault :=
  match ctx, ctx.bracket? with
  | yes, _ => .halfTernary c
  | _, some bracket => if isCloser c then .wrongCloser c bracket.opener else .unexpected [c]
  | _, none => .unexpected [c]

end Context

end Stencil
