import Stencil.Diagnostic.Basic

/-!
# Diagnostic/Fault — why a template does not compile

Each way in which a template can fail is a constructor that holds what its message names.  `code`
and `message` are the only places where a fault turns into words.
-/

namespace Stencil

/-- Why a template does not compile. -/
inductive Fault
  /-- A host script tag in the template. -/
  | hostTag (opener : Text)
  /-- A tag goes on after its expression. -/
  | unclosedTag (found : Char)
  /-- The template ends inside a tag. -/
  | endInsideTag
  /-- No token starts here. -/
  | noToken (preview : Text)
  /-- Something stands where it is not allowed. -/
  | unexpected (found : Text)
  /-- A ternary directly inside a ternary branch. -/
  | nestedTernary
  /-- A delimiter or closer with nothing before it. -/
  | missingExpression (found : Char)
  /-- `++` or `--`. -/
  | increment
  /-- A delimiter that the group does not take. -/
  | strayDelimiter (found : Char)
  /-- A closer that does not match the open group. -/
  | wrongCloser (found opener : Char)
  /-- A ternary without its `:`. -/
  | halfTernary (found : Char)
  /-- Two unary operators in a row. -/
  | chainedUnary (first second : Text)
  /-- More nested groups than allowed. -/
  | tooDeep (limit : Nat)
  /-- The expression ends after an operator or a dot. -/
  | danglingEnd (last : Text)
  /-- A reserved word inside a chain, or called. -/
  | reservedWord (word : Text)
  /-- `this` used as anything but itself or the receiver of one method. -/
  | selfUse (chain : Text)
  /-- A superglobal with the wrong number of keys. -/
  | superglobalUse (chain : Text)
  /-- More leading dots than open loops. -/
  | loopDepth (chain : Text) (loops : Nat)
  /-- A loop member used as what it is not. -/
  | loopMember (chain : Text)
  /-- Two constants in one chain. -/
  | constantChain (chain : Text)
  /-- A method after a value that is not called. -/
  | uncalledMethod (name : Text)
  /-- An else part after the else part, whose marker is `symbol`. -/
  | secondElse (symbol : Text)
  /-- A block that is never closed. -/
  | unclosedBlock (symbol : Text)
  | noFunction (name : Text)
  | noClass (path : Text)
  | noStaticMethod (path method : Text)
  | noConstant (chain : Text)
  | noWrapperMethod (method owner near : Text)
  | noHelperMethod (method owner : Text)
  /-- A token that no code stands for; no template leads here. -/
  | strayToken (text : Text)
  /-- A wrapper method without a value before it; no template leads here. -/
  | noSpan
  deriving DecidableEq, Repr

namespace Fault

/-- The code of a fault. -/
def code : Fault → Code
  | hostTag _ => .hostTag
  | unclosedTag _ => .unclosedTag
  | endInsideTag => .endInsideTag
  | noToken _ => .noToken
  | unexpected _ => .unexpected
  | nestedTernary => .unexpected
  | missingExpression _ => .missingExpression
  | increment => .increment
  | strayDelimiter _ => .strayDelimiter
  | wrongCloser .. => .wrongCloser
  | halfTernary _ => .halfTernary
  | chainedUnary .. => .chainedUnary
  | tooDeep _ => .tooDeep
  | danglingEnd _ => .danglingEnd
  | reservedWord _ => .reservedWord
  | selfUse _ => .selfUse
  | superglobalUse _ => .superglobalUse
  | loopDepth .. => .loopDepth
  | loopMember _ => .loopMember
  | constantChain _ => .constantChain
  | uncalledMethod _ => .uncalledMethod
  | secondElse _ => .secondElse
  | unclosedBlock _ => .unclosedBlock
  | noFunction _ => .noFunction
  | noClass _ => .noClass
  | noStaticMethod .. => .noStaticMethod
  | noConstant _ => .noConstant
  | noWrapperMethod .. => .noWrapperMethod
  | noHelperMethod .. => .noHelperMethod
  | strayToken _ => .broken
  | noSpan => .broken

/-- The message of a fault. -/
def message : Fault → Text
  | hostTag opener => "Host script tag `" ++ opener ++ "` is not allowed in templates"
  | unclosedTag c => "Unexpected `" ++ [c] ++ "`: tag is not closed by `]`"
  | endInsideTag => "Template ends without closing tag `]`"
  | noToken preview => "Invalid expression: " ++ preview ++ " ..."
  | unexpected found => "Unexpected `" ++ found ++ "`"
  | nestedTernary => "Unexpected `?`: nested ternary needs parentheses"
  | missingExpression c => "Unexpected `" ++ [c] ++ "`: missing expression before `" ++ [c] ++ "`"
  | increment => "Increment `++` and decrement `--` operators are not allowed"
  | strayDelimiter c => "`" ++ [c] ++ "` is not allowed here"
  | wrongCloser c opener => "`" ++ [c] ++ "` does not close `" ++ [opener] ++ "`"
  | halfTernary c => "Unexpected `" ++ [c] ++ "`: missing `:` in ternary operator"
  | chainedUnary first second =>
    "Unexpected `" ++ first ++ second ++ "`: unary operator chaining is not allowed"
  | tooDeep limit => "Expression nesting deeper than " ++ Text.decimal limit ++ " levels"
  | danglingEnd last => "Expression ends with `" ++ last ++ "`"
  | reservedWord word => "`" ++ word ++ "` is a reserved word"
  | selfUse chain => "`" ++ chain ++ "`: only `this` or `this.method()` is allowed"
  | superglobalUse chain => "Unexpected auto-global usage `" ++ chain ++ "`"
  | loopDepth chain loops =>
    "Loop depth of `" ++ chain ++ "` is not correct: " ++ Text.decimal loops ++ " loop(s) open"
  | loopMember chain => "Unexpected loop member usage `" ++ chain ++ "`"
  | constantChain chain => "Unexpected constant usage `" ++ chain ++ "`"
  | uncalledMethod name => "Unexpected `" ++ name ++ "`: a method after a value must be called"
  | secondElse symbol => "Unexpected `:` command after `[" ++ symbol ++ "]`"
  | unclosedBlock symbol => "[" ++ symbol ++ "...] is not closed by [/]"
  | noFunction name => "Function `\\" ++ name ++ "()` is not defined"
  | noClass path => "Class `\\" ++ path ++ "` not found"
  | noStaticMethod path method => "Static method `\\" ++ path ++ "::" ++ method ++ "()` not found"
  | noConstant chain => "Constant `" ++ chain ++ "` not found"
  | noWrapperMethod method owner near =>
    "Wrapper method `" ++ method ++ "()` not found in `" ++ owner ++ "` for `" ++ near ++ "`"
  | noHelperMethod method owner =>
    "Loop helper method `" ++ method ++ "()` is not defined in `" ++ owner ++ "`"
  | strayToken text => "Internal error: token `" ++ text ++ "` reached emission"
  | noSpan => "Internal error: no value to attach a wrapper method to"

/-- The diagnostic of a fault, before its place is known. -/
def diagnostic (f : Fault) : Diagnostic := ⟨f.code, f.message, none, none, none⟩

end Fault

/-- A reader that cannot go on: why, and the text that was ahead of it. -/
structure Stuck where
  fault : Fault
  rest : Text
  deriving DecidableEq, Repr

end Stencil
