import Stencil.Expr.Reader
import Stencil.Proofs.Token.Stream

/-!
# Proofs/Expr/Grammar — which trees are expressions, and what they are written as

    expression ::= terms | terms `?` terms `:` terms
    terms      ::= operand (operator operand)*        operand ::= sign? value
    value      ::= number | quoted | chain | chain `(` items `)` | `(` expression `)`
                 | `{` items `}` | `[` items `]`
                 | value `[` expression `]` | value `{` expression `}`
                 | value `.` name `(` items `)`
    items      ::= empty | item (`,` item)*
    item       ::= expression | expression `:` expression

`Expr.tokens` is the yield of a tree, without blanks.  `Expr.WellFormed` holds of the trees that the
grammar gives and whose chains and methods are known in a scope, and `Expr.depth` counts how deep
its groups and ternary branches are nested.  None of the three mentions a reader.
-/

namespace Stencil

/-! ## Chains -/

namespace Chain

/-- The names of a chain behind its first one, each with its dot. -/
def laterTokens (names : List Text) : List Token :=
  names.flatMap fun name => [Token.dot, Token.named name]

/-- The tokens of a chain: its leading dots as one token, and its names with a dot between each
two. -/
def tokens (c : Chain) : List Token :=
  (if c.depth = 0 then [] else [⟨.dots, List.replicate c.depth '.'⟩]) ++
    match c.names with
    | [] => []
    | first :: later => Token.named first :: laterTokens later

/-- No name of the chain is a reserved word; only `this` may start it. -/
def AvoidsReserved (c : Chain) : Prop :=
  match c.names with
  | [] => True
  | first :: later =>
    (first ∈ reservedWords → c.depth = 0 ∧ first = "this") ∧ ∀ name ∈ later, name ∉ reservedWords

/-- **What a chain stands for**: a word of the host stands for itself when it stands alone, and all
else is resolved. -/
def Denotes (s : Scope) (c : Chain) (called : Bool) (target : Reference) : Prop :=
  (∃ word ∈ reservedWords, word ≠ "this" ∧ c = ⟨0, [word]⟩ ∧ called = false ∧ target = .word word) ∨
    c.names ≠ [] ∧ c.AvoidsReserved ∧ c.resolve s called = .ok target

end Chain

/-! ## Yields -/

/-- The token of a sign. -/
def signToken (sign : Text) : Token :=
  if sign = ['+'] then ⟨.plus, sign⟩ else if sign = ['-'] then ⟨.minus, sign⟩ else ⟨.unary, sign⟩

/-- The token of a sign, if there is one. -/
def signTokens (sign : Option Text) : List Token := sign.toList.map signToken

/-- The comma in front of an item, unless it is the first one. -/
def Items.separator : Items → List Token
  | .empty => []
  | _ => [Token.comma]

mutual

/-- The tokens of a value. -/
def Value.tokens : Value → List Token
  | .number text => [⟨.number, text⟩]
  | .quoted text => [⟨.quoted, text⟩]
  | .name chain _ => chain.tokens
  | .call chain _ args =>
    chain.tokens ++ Token.opens .paren :: (args.tokens ++ [Token.closes .paren])
  | .paren inner => Token.opens .paren :: (inner.tokens ++ [Token.closes .paren])
  | .literal bracket items => Token.opens bracket :: (items.tokens ++ [Token.closes bracket])
  | .index value bracket key =>
    value.tokens ++ Token.opens bracket :: (key.tokens ++ [Token.closes bracket])
  | .method value name args =>
    value.tokens ++ Token.dot :: Token.named name :: Token.opens .paren ::
      (args.tokens ++ [Token.closes .paren])

/-- The tokens of terms. -/
def Terms.tokens : Terms → List Token
  | .one sign value => signTokens sign ++ value.tokens
  | .more left op sign value => left.tokens ++ op :: (signTokens sign ++ value.tokens)

/-- **The tokens of an expression.** -/
def Expr.tokens : Expr → List Token
  | .plain terms => terms.tokens
  | .ternary test yes no =>
    test.tokens ++ Token.question :: (yes.tokens ++ Token.colon :: no.tokens)

/-- The tokens of the parts of a group, without its brackets. -/
def Items.tokens : Items → List Token
  | .empty => []
  | .item before value => before.tokens ++ (before.separator ++ value.tokens)
  | .pair before key value =>
    before.tokens ++ (before.separator ++ (key.tokens ++ Token.colon :: value.tokens))

end

/-! ## Well-formed trees -/

/-- A chain that is not called; a method behind it would belong to it. -/
def Value.isName : Value → Bool
  | .name .. => true
  | _ => false

/-- An expression without a ternary of its own. -/
def Expr.isPlain : Expr → Bool
  | .plain _ => true
  | .ternary .. => false

/-- The parts of a call are single values. -/
def Items.isSingles : Items → Bool
  | .empty => true
  | .item before _ => before.isSingles
  | .pair .. => false

/-- A sign is one of four, and never stands before a quoted text. -/
def SignFits (sign : Option Text) (value : Value) : Prop :=
  ∀ text, sign = some text →
    text ∈ [['!'], ['~'], ['+'], ['-']] ∧ value.startsQuoted = false

mutual

/-- The values of the grammar whose chains and methods are known. -/
def Value.WellFormed (s : Scope) : Value → Prop
  | .number _ => True
  | .quoted _ => True
  | .name chain target => chain.Denotes s false target
  | .call chain target args =>
    chain.Denotes s true target ∧ args.isSingles = true ∧ args.WellFormed s
  | .paren inner => inner.WellFormed s
  | .literal bracket items => bracket ≠ .paren ∧ items.WellFormed s
  | .index value bracket key => value.WellFormed s ∧ bracket ≠ .paren ∧ key.WellFormed s
  | .method value name args =>
    value.WellFormed s ∧ value.isName = false ∧ s.registry.wrapper.contains name = true ∧
      args.isSingles = true ∧ args.WellFormed s

/-- The terms of the grammar. -/
def Terms.WellFormed (s : Scope) : Terms → Prop
  | .one sign value => SignFits sign value ∧ value.WellFormed s
  | .more left op sign value =>
    left.WellFormed s ∧ op.isBinary = true ∧ SignFits sign value ∧ value.WellFormed s

/-- **The expressions of the grammar**: a branch of a ternary holds no ternary outside brackets. -/
def Expr.WellFormed (s : Scope) : Expr → Prop
  | .plain terms => terms.WellFormed s
  | .ternary test yes no =>
    test.WellFormed s ∧ (yes.isPlain = true ∧ yes.WellFormed s) ∧
      (no.isPlain = true ∧ no.WellFormed s)

/-- The parts of a group. -/
def Items.WellFormed (s : Scope) : Items → Prop
  | .empty => True
  | .item before value => before.WellFormed s ∧ value.WellFormed s
  | .pair before key value => before.WellFormed s ∧ key.WellFormed s ∧ value.WellFormed s

end

/-! ## Nesting -/

mutual

/-- How deep the groups of a value are nested. -/
def Value.depth : Value → Nat
  | .number _ => 0
  | .quoted _ => 0
  | .name .. => 0
  | .call _ _ args => args.depth + 1
  | .paren inner => inner.depth + 1
  | .literal _ items => items.depth + 1
  | .index value _ key => max value.depth (key.depth + 1)
  | .method value _ args => max value.depth (args.depth + 1)

/-- How deep the groups of terms are nested. -/
def Terms.depth : Terms → Nat
  | .one _ value => value.depth
  | .more left _ _ value => max left.depth value.depth

/-- **How deep groups and ternary branches are nested.** -/
def Expr.depth : Expr → Nat
  | .plain terms => terms.depth
  | .ternary test yes no => max test.depth (max yes.depth no.depth + 1)

/-- How deep the parts of a group are nested below it. -/
def Items.depth : Items → Nat
  | .empty => 0
  | .item before value => max before.depth value.depth
  | .pair before key value => max before.depth (max key.depth value.depth)

end

end Stencil
