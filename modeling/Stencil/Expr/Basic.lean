import Stencil.Expr.Reference
import Stencil.Token.Basic

/-!
# Expr/Basic — expressions and the code they stand for

The tree of an expression, from the inside out: a **value** is a literal, a resolved chain or a
bracketed group, with any number of indices and wrapper methods behind it; **terms** are values,
each with at most one sign, joined by binary operators; an **expression** is terms, or a choice
between two expressions; **items** are the parts of a group.  `Expr.code` writes the tree as host
code.  A wrapper method encloses the whole value before it, and `+` next to a quoted text joins
texts instead of adding numbers.
-/

namespace Stencil

/-! ## Trees -/

mutual

/-- One operand without its sign. -/
inductive Value
  | number (text : Text)
  | quoted (text : Text)
  /-- A chain that is not called. -/
  | name (chain : Chain) (target : Reference)
  /-- A called chain. -/
  | call (chain : Chain) (target : Reference) (args : Items)
  | paren (inner : Expr)
  /-- An array literal, in braces or square brackets. -/
  | literal (bracket : Bracket) (items : Items)
  /-- An element of a value, in braces or square brackets. -/
  | index (value : Value) (bracket : Bracket) (key : Expr)
  /-- A wrapper method on a value. -/
  | method (value : Value) (name : Text) (args : Items)

/-- Operands joined by binary operators. -/
inductive Terms
  | one (sign : Option Text) (value : Value)
  | more (left : Terms) (op : Token) (sign : Option Text) (value : Value)

/-- A whole expression. -/
inductive Expr
  | plain (terms : Terms)
  | ternary (test : Terms) (yes no : Expr)

/-- The parts of a group, in order.  Only literals hold pairs. -/
inductive Items
  | empty
  | item (before : Items) (value : Expr)
  | pair (before : Items) (key value : Expr)

end

/-! ## Quoted texts -/

/-- Puts a backslash before each `$` that has none, so that the host reads it as itself. -/
def guardDollars : Text → Text
  | [] => []
  | '\\' :: c :: t => '\\' :: c :: guardDollars t
  | c :: t => if c = '$' then '\\' :: '$' :: guardDollars t else c :: guardDollars t

/-- The host form of a quoted text: only double quotes let the host look inside. -/
def quotedCode (t : Text) : Text :=
  match t with
  | '"' :: _ => guardDollars t
  | _ => t

/-! ## Neighbours -/

/-- The text of the last token of a value. -/
def Value.lastText : Value → Text
  | number text => text
  | quoted text => text
  | name chain _ => chain.names.getLast?.getD []
  | call .. => ")"
  | paren _ => ")"
  | literal bracket _ => [bracket.closer]
  | index _ bracket _ => [bracket.closer]
  | method .. => ")"

/-- Whether the first token of a value is a quoted text. -/
def Value.startsQuoted : Value → Bool
  | quoted _ => true
  | index value _ _ => value.startsQuoted
  | method value _ _ => value.startsQuoted
  | _ => false

/-- Whether the last token of terms is a quoted text. -/
def Terms.endsQuoted : Terms → Bool
  | one _ (.quoted _) => true
  | more _ _ _ (.quoted _) => true
  | _ => false

/-- The code between two operands. -/
def jointCode (left : Terms) (op : Token) (sign : Option Text) (right : Value) : Text :=
  if op.kind = .plus ∧ (left.endsQuoted || sign.isNone && right.startsQuoted) then " . "
  else " " ++ op.text ++ " "

/-! ## Code -/

mutual

/-- The code of a value. -/
def Value.code (r : Registry) : Value → Text
  | .number text => text
  | .quoted text => quotedCode text
  | .name _ target => target.code r
  | .call _ target args => target.code r ++ "(" ++ args.code r ++ ")"
  | .paren inner => "(" ++ inner.code r ++ ")"
  | .literal _ items => "[" ++ items.code r ++ "]"
  | .index value _ key => value.code r ++ "[" ++ key.code r ++ "]"
  | .method value name args =>
    r.wrapper.opening ++ value.code r ++ ")->" ++ name ++ "(" ++ args.code r ++ ")"

/-- The code of terms. -/
def Terms.code (r : Registry) : Terms → Text
  | .one sign value => sign.getD [] ++ value.code r
  | .more left op sign value =>
    left.code r ++ jointCode left op sign value ++ sign.getD [] ++ value.code r

/-- **The code of an expression.** -/
def Expr.code (r : Registry) : Expr → Text
  | .plain terms => terms.code r
  | .ternary test yes no =>
    test.code r ++ " ? " ++ yes.code r ++ " : (" ++ no.code r ++ ")"

/-- The code of the parts of a group. -/
def Items.code (r : Registry) : Items → Text
  | .empty => []
  | .item .empty value => value.code r
  | .item before value => before.code r ++ ", " ++ value.code r
  | .pair .empty key value => key.code r ++ " => " ++ value.code r
  | .pair before key value => before.code r ++ ", " ++ key.code r ++ " => " ++ value.code r

end

/-- The parts with a value for the last one, which becomes its key. -/
def Items.withValue (items : Items) (value : Expr) : Items :=
  match items with
  | .item before key => .pair before key value
  | other => .item other value

end Stencil
