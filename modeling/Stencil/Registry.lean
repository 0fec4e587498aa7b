import Stencil.Text.LowerCase

/-!
# Registry — the symbols a template may name

Nothing is looked up on the host while a template is compiled: every function, class, constant and
adapter method that a template may name is registered here before.  Functions, classes and methods
are compared in lower case, constants as they are written, and leading separators never count.
-/

namespace Stencil

/-- A name without its leading namespace separators. -/
def stripRoot (name : Text) : Text := name.dropWhile (· == '\\')

/-- The form under which functions and classes are compared. -/
def foldName (name : Text) : Text := Text.lower (stripRoot name)

/-! ## Adapters -/

/-- A class whose methods generated code may call on a value. -/
structure Adapter where
  owner : Text
  /-- The methods, in lower case. -/
  methods : List Text
  deriving DecidableEq, Repr

namespace Adapter

/-- The adapter of a class, from its methods as they are written. -/
def ofMethods (owner : Text) (methods : List Text) : Adapter :=
  ⟨stripRoot owner, methods.map Text.lower⟩

/-- Whether a method is registered, in any case. -/
def contains (a : Adapter) (method : Text) : Bool := a.methods.contains (Text.lower method)

/-- The call that wraps a value, up to and with its bracket. -/
def opening (a : Adapter) : Text := "\\" ++ a.owner ++ "::o("

/-- The class that wraps values unless configured otherwise. -/
def defaultWrapperOwner : Text := "TplValWrapper"

/-- The methods of the default wrapper. -/
def defaultWrapperMethods : List Text :=
  ["esc", "nl2br", "toUpper", "toLower", "ucfirst", "substr", "concat"]

/-- The class that helps loops unless configured otherwise. -/
def defaultHelperOwner : Text := "TplLoopHelper"

/-- The methods of the default loop helper. -/
def defaultHelperMethods : List Text := ["isEven", "isLast"]

/-- The default wrapper of values. -/
def valueWrapper : Adapter := ofMethods defaultWrapperOwner defaultWrapperMethods

/-- The default helper of loops. -/
def loopHelper : Adapter := ofMethods defaultHelperOwner defaultHelperMethods

end Adapter

/-! ## Host symbols -/

/-- The static methods, in lower case, and the constants of a class. -/
structure HostClass where
  methods : List Text
  constants : List Text
  deriving DecidableEq, Repr

namespace HostClass

/-- A class from its members as they are written. -/
def ofMembers (methods constants : List Text) : HostClass := ⟨methods.map Text.lower, constants⟩

/-- Whether a static method exists, in any case. -/
def hasMethod (c : HostClass) (name : Text) : Bool := c.methods.contains (Text.lower name)

/-- Whether a constant exists. -/
def hasConstant (c : HostClass) (name : Text) : Bool := c.constants.contains name

end HostClass

/-- The functions, classes and constants of the host.  The newest definition of a class comes first
and hides the older ones. -/
structure Symbols where
  functions : List Text
  classes : List (Text × HostClass)
  constants : List Text
  deriving DecidableEq, Repr

namespace Symbols

/-- No symbols at all. -/
def empty : Symbols := ⟨[], [], []⟩

/-- Adds a function. -/
def defineFunction (s : Symbols) (path : Text) : Symbols :=
  { s with functions := foldName path :: s.functions }

/-- Adds a constant. -/
def defineConstant (s : Symbols) (path : Text) : Symbols :=
  { s with constants := stripRoot path :: s.constants }

/-- Adds a class, or replaces it. -/
def defineClass (s : Symbols) (path : Text) (c : HostClass) : Symbols :=
  { s with classes := (foldName path, c) :: s.classes }

/-- Whether a function exists. -/
def hasFunction (s : Symbols) (path : Text) : Bool := s.functions.contains (foldName path)

/-- Whether a constant exists. -/
def hasConstant (s : Symbols) (path : Text) : Bool := s.constants.contains (stripRoot path)

/-- The class of a name. -/
def findClass? (s : Symbols) (path : Text) : Option HostClass := s.classes.lookup (foldName path)

/-- The host functions that are always known. -/
def builtinFunctions : List Text :=
  ["abs", "array_keys", "array_values", "ceil", "count", "date", "explode", "floor",
   "htmlspecialchars", "implode", "in_array", "is_array", "is_numeric", "json_encode", "max", "min",
   "nl2br", "number_format", "round", "sprintf", "str_repeat", "str_replace", "strlen",
   "strtolower", "strtoupper", "substr", "time", "trim", "ucfirst", "urlencode"]

/-- The host constants that are always known. -/
def builtinConstants : List Text :=
  ["DIRECTORY_SEPARATOR", "E_ALL", "M_PI", "PHP_EOL", "PHP_INT_MAX", "PHP_VERSION"]

/-- The symbols that are always known. -/
def builtin : Symbols :=
  let functions := builtinFunctions.foldl defineFunction empty
  let constants := builtinConstants.foldl defineConstant functions
  constants.defineClass "DateTime" (.ofMembers ["createFromFormat"] ["ATOM", "COOKIE", "RFC2822"])

/-- The constructs that look like calls and are no functions. -/
def constructs : List Text := ["isset", "empty"]

/-- Whether a name is a construct; only ASCII letters are compared in any case. -/
def isConstruct (name : Text) : Bool := constructs.contains (name.map Char.toLower)

end Symbols

/-- Everything that names are resolved against. -/
structure Registry where
  wrapper : Adapter
  helper : Adapter
  symbols : Symbols
  deriving DecidableEq, Repr

namespace Registry

/-- The default adapters and the builtin symbols. -/
def standard : Registry := ⟨.valueWrapper, .loopHelper, .builtin⟩

end Registry

end Stencil
