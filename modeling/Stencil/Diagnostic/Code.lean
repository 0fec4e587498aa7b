import Stencil.Text.Blank

/-!
# Diagnostic/Code — the codes that name what went wrong

Every diagnostic carries one of these codes.  A code is written `E` and four digits; its first digit
tells the phase: tags, expressions, names, blocks, the environment, and the compiler itself.  The
last two are not the template author's to mend and make the diagnostic fatal.
-/

namespace Stencil

/-- What went wrong. -/
inductive Code
  | hostTag
  | unclosedTag
  | endInsideTag
  | noToken
  | unexpected
  | missingExpression
  | increment
  | strayDelimiter
  | wrongCloser
  | halfTernary
  | chainedUnary
  | tooDeep
  | danglingEnd
  | reservedWord
  | selfUse
  | superglobalUse
  | loopDepth
  | loopMember
  | constantChain
  | uncalledMethod
  | secondElse
  | unclosedBlock
  | noFunction
  | noClass
  | noStaticMethod
  | noConstant
  | noWrapperMethod
  | noHelperMethod
  | artifactRoot
  | fileAccess
  | noTemplate
  | broken
  deriving DecidableEq, Repr

/-- Whose mistake a code names: the template author's, or the environment's. -/
inductive Code.Family
  | authoring
  | environment
  deriving DecidableEq, Repr

namespace Code

/-- The name of a family in answers. -/
def Family.name : Family → Text
  | authoring => "Syntax"
  | environment => "Fatal"

/-- The title under which the operator sees a family. -/
def Family.title : Family → Text
  | authoring => "Tplus Syntax Error"
  | environment => "Tplus Scripter Fatal Error"

/-- Every code, in the order of its label. -/
def all : List Code :=
  [hostTag, unclosedTag, endInsideTag, noToken, unexpected, missingExpression, increment,
   strayDelimiter, wrongCloser, halfTernary, chainedUnary, tooDeep, danglingEnd, reservedWord,
   selfUse, superglobalUse, loopDepth, loopMember, constantChain, uncalledMethod, secondElse,
   unclosedBlock, noFunction, noClass, noStaticMethod, noConstant, noWrapperMethod, noHelperMethod,
   artifactRoot, fileAccess, noTemplate, broken]

/-- The written form of a code. -/
def label : Code → Text
  | hostTag => "E0001"
  | unclosedTag => "E0002"
  | endInsideTag => "E0003"
  | noToken => "E1001"
  | unexpected => "E1002"
  | missingExpression => "E1003"
  | increment => "E1004"
  | strayDelimiter => "E1005"
  | wrongCloser => "E1006"
  | halfTernary => "E1007"
  | chainedUnary => "E1008"
  | tooDeep => "E1009"
  | danglingEnd => "E1010"
  | reservedWord => "E2001"
  | selfUse => "E2002"
  | superglobalUse => "E2003"
  | loopDepth => "E2004"
  | loopMember => "E2005"
  | constantChain => "E2006"
  | uncalledMethod => "E2007"
  | secondElse => "E3001"
  | unclosedBlock => "E3002"
  | noFunction => "E5001"
  | noClass => "E5002"
  | noStaticMethod => "E5003"
  | noConstant => "E5004"
  | noWrapperMethod => "E5005"
  | noHelperMethod => "E5006"
  | artifactRoot => "E5007"
  | fileAccess => "E5008"
  | noTemplate => "E5009"
  | broken => "E9001"

/-- The family of a code. -/
def family : Code → Family
  | noFunction | noClass | noStaticMethod | noConstant | noWrapperMethod | noHelperMethod
  | artifactRoot | fileAccess | noTemplate | broken => .environment
  | _ => .authoring

/-- One paragraph for the operator. -/
def description : Code → Text
  | hostTag =>
    "Templates may not embed host script. Remove `<?php`, `<?=` (and `<?` when short open tags " ++
      "are enabled) from the template."
  | unclosedTag => "A tag must end with `]`, optionally followed by `-->`."
  | endInsideTag => "The template ended before the open tag was closed by `]`."
  | noToken =>
    "The expression contains a character sequence that is not a name, number, quoted string, " ++
      "operator or bracket."
  | unexpected =>
    "Two tokens appear in an order the expression grammar does not allow, e.g. two operands in a " ++
      "row or an operator right after `(`."
  | missingExpression =>
    "An expression is required before this delimiter, e.g. `f(a,)` or `(`)`."
  | increment => "`++` and `--` are not supported in template expressions."
  | strayDelimiter =>
    "`,` is only valid inside call arguments and literals; `:` only inside literals and after a " ++
      "ternary `?`."
  | wrongCloser => "The closing bracket does not match the bracket it closes."
  | halfTernary => "A ternary `?` must be followed by `:`."
  | chainedUnary => "Unary operators cannot be chained, e.g. `!!a` or `-!a`."
  | tooDeep => "The expression is nested deeper than the compiler allows."
  | danglingEnd => "The expression ends right after an operator, unary or `.`."
  | reservedWord =>
    "`true`, `false`, `null` and `this` are reserved and cannot appear inside a dotted chain or " ++
      "be called."
  | selfUse => "`this` may only be used bare or as `this.method()`."
  | superglobalUse =>
    "`GET`, `SERVER`, `COOKIE` and `SESSION` take exactly one key; `GLOBALS` takes at least one."
  | loopDepth => "A loop reference uses more leading dots than there are open loops."
  | loopMember =>
    "Loop members `i`, `s` and `k` are scalars and `h` needs a helper method call."
  | constantChain => "A constant chain may contain only one ALL-CAPS segment."
  | uncalledMethod => "A method after a literal or closing bracket must be called."
  | secondElse => "`[:]` cannot follow another `[:]` in the same block."
  | unclosedBlock => "A `[@ ]` or `[? ]` block is not closed by `[/]`."
  | noFunction => "The function is not defined in the host symbol table."
  | noClass => "The class is not defined in the host symbol table."
  | noStaticMethod => "The class exists but does not define this static method."
  | noConstant => "The constant is not defined in the host symbol table."
  | noWrapperMethod => "The method is not registered on the value wrapper."
  | noHelperMethod => "The method is not registered on the loop helper."
  | artifactRoot => "The artifact root must exist, be readable and (on POSIX) writable."
  | fileAccess => "Reading the template or writing the artifact failed."
  | noTemplate => "The template file does not exist under the template root."
  | broken => "Internal compiler error; please report it."

/-- The code that a text names, in any case and between blanks. -/
def ofText? (t : Text) : Option Code :=
  let wanted := (Text.trim t).map Char.toUpper
  all.find? fun code => code.label = wanted

/-- **No code is missing from the list.** -/
theorem mem_all (code : Code) : code ∈ all := by cases code <;> decide

/-- **The label names its code.** -/
theorem ofText?_label (code : Code) : ofText? code.label = some code := by
  cases code <;> decide

end Code

end Stencil
