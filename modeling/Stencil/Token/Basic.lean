import Stencil.Text.Basic

/-!
# Token/Basic — the tokens of a tag's expression

A token is a kind and the text it was read from.  Kinds fall into groups, which decide what may
stand next to what; the group of `+` and `-` depends on what stands before them.
-/

namespace Stencil

/-- The three families of brackets. -/
inductive Bracket
  | paren
  | brace
  | square
  deriving DecidableEq, Repr

namespace Bracket

/-- The opening bracket. -/
def opener : Bracket → Char
  | paren => '('
  | brace => '{'
  | square => '['

/-- The closing bracket. -/
def closer : Bracket → Char
  | paren => ')'
  | brace => '}'
  | square => ']'

end Bracket

/-- What a token is. -/
inductive Token.Kind
  | space
  /-- A run of dots. -/
  | dots
  | name
  | number
  | quoted
  /-- `++` or `--`. -/
  | crement
  | comparison
  | logic
  | elvis
  | arithmetic
  | question
  | colon
  | comma
  | opening (bracket : Bracket)
  | closing (bracket : Bracket)
  | unary
  | plus
  | minus
  deriving DecidableEq, Repr

/-- The role of a token among its neighbours. -/
inductive Token.Group
  | space
  | dot
  | operand
  | operator
  | delimiter
  | opening
  | closing
  | unary
  deriving DecidableEq, Repr

/-- A token: its kind, and the text it was read from. -/
structure Token where
  kind : Token.Kind
  text : Text
  deriving DecidableEq, Repr

namespace Token

namespace Group

/-- Groups after which a value is complete. -/
def endsValue : Group → Bool
  | operand | closing => true
  | _ => false

/-- Groups that start the span a wrapper method applies to. -/
def startsSpan : Group → Bool
  | opening | dot | operand => true
  | _ => false

/-- Groups that lead into an inner expression. -/
def entersInner : Group → Bool
  | opening | delimiter => true
  | _ => false

end Group

/-- The group of a token that stands after a token of group `prev`, if there is one: a sign is an
operator after a complete value and a unary operator elsewhere. -/
def group (prev : Option Group) (t : Token) : Group :=
  match t.kind with
  | .space => .space
  | .dots => .dot
  | .name | .number | .quoted => .operand
  | .crement | .comparison | .logic | .elvis | .arithmetic => .operator
  | .question | .colon | .comma => .delimiter
  | .opening _ => .opening
  | .closing _ => .closing
  | .unary => .unary
  | .plus | .minus => if prev.any Group.endsValue then .operator else .unary

end Token

end Stencil
