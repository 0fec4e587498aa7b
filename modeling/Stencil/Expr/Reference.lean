import Stencil.Diagnostic.Fault
import Stencil.Registry

/-!
# Expr/Reference — what a chain of names stands for

A chain is a run of leading dots and names with a dot between each two.  `Chain.resolve` finds what
it stands for, and the first rule that applies decides:

* leading dots address a loop around the tag, counted from the outermost;
* `this` is the host object;
* the superglobal names address the host's request data;
* a name in capitals is a constant, with the names before it as namespace or class;
* a called chain is a construct, a function, a static method or a namespaced function;
* all else indexes the template's data.

A method called on data goes through the wrapper adapter, and only if it is registered there.
-/

namespace Stencil

/-! ## Chains -/

/-- A chain of names: the length of its leading run of dots, and its names. -/
structure Chain where
  depth : Nat
  names : List Text
  deriving DecidableEq, Repr

namespace Chain

/-- Whether nothing was read yet. -/
def isEmpty (c : Chain) : Bool := c.depth == 0 && c.names.isEmpty

/-- The chain with one more name. -/
def push (c : Chain) (name : Text) : Chain := { c with names := c.names ++ [name] }

/-- The chain as it is written, without blanks. -/
def raw (c : Chain) : Text := List.replicate c.depth '.' ++ List.intercalate ['.'] c.names

end Chain

/-! ## References -/

/-- A variable of a loop frame. -/
inductive FrameVar
  | array
  | index
  | size
  | key
  | value
  deriving DecidableEq, Repr

namespace FrameVar

/-- The letter of a variable in generated code. -/
def suffix : FrameVar → Text
  | array => ""
  | index => "i"
  | size => "s"
  | key => "k"
  | value => "v"

/-- The variable of the frame at a depth. -/
def code (v : FrameVar) (depth : Nat) : Text := "$L" ++ Text.decimal depth ++ v.suffix

/-- The scalar variable that a loop member names. -/
def scalar? (member : Text) : Option FrameVar :=
  if member = "i" then some index
  else if member = "s" then some size
  else if member = "k" then some key
  else none

end FrameVar

/-- Where a value is found. -/
inductive Root
  /-- The template's data. -/
  | data
  | superglobal (name : Text)
  | frame (depth : Nat) (var : FrameVar)
  | constant (path : Text)
  | classConstant (owner name : Text)
  deriving DecidableEq, Repr

/-- The code of an array index. -/
def indexCode (keys : List Text) : Text := keys.flatMap fun key => "[\"" ++ key ++ "\"]"

/-- The code of a root. -/
def Root.code : Root → Text
  | data => "$V"
  | superglobal name => if name = "GLOBALS" then "$GLOBALS" else "$_" ++ name
  | frame depth var => var.code depth
  | constant path => "\\" ++ path
  | classConstant owner name => "\\" ++ owner ++ "::" ++ name

/-- What a chain stands for. -/
inductive Reference
  /-- A literal word of the host. -/
  | word (text : Text)
  /-- The host object. -/
  | self
  /-- A method of the host object. -/
  | selfMethod (method : Text)
  /-- A value and the keys that index it. -/
  | value (root : Root) (keys : List Text)
  /-- A registered wrapper method on a value. -/
  | wrapped (root : Root) (keys : List Text) (method : Text)
  /-- A method of the object in a loop. -/
  | objectMethod (root : Root) (keys : List Text) (method : Text)
  /-- A method of the loop helper on a frame. -/
  | helper (depth : Nat) (method : Text)
  | construct (name : Text)
  | function (path : Text)
  | staticMethod (owner method : Text)
  deriving DecidableEq, Repr

/-- The code of a reference. -/
def Reference.code (r : Registry) : Reference → Text
  | word text => text
  | self => "$this"
  | selfMethod method => "$this->" ++ method
  | value root keys => root.code ++ indexCode keys
  | wrapped root keys method =>
    r.wrapper.opening ++ root.code ++ indexCode keys ++ ")->" ++ method
  | objectMethod root keys method => root.code ++ indexCode keys ++ "->" ++ method
  | helper depth method =>
    r.helper.opening ++ FrameVar.index.code depth ++ "," ++ FrameVar.size.code depth ++ ","
      ++ FrameVar.key.code depth ++ "," ++ FrameVar.value.code depth ++ ")->" ++ method
  | construct name => name
  | function path => "\\" ++ path
  | staticMethod owner method => "\\" ++ owner ++ "::" ++ method

/-! ## Resolution -/

/-- The words that are no names. -/
def reservedWords : List Text := ["true", "false", "null", "this"]

/-- The superglobals that take exactly one key. -/
def singleKeyGlobals : List Text := ["GET", "SERVER", "COOKIE", "SESSION"]

/-- A capital ASCII letter, then capital letters, digits and underscores. -/
def isConstantName : Text → Bool
  | [] => false
  | c :: t => c.isUpper && t.all fun c => c.isUpper || Text.isDigit c || c == '_'

/-- A capital ASCII letter first and a small one somewhere. -/
def isClassName : Text → Bool
  | [] => false
  | c :: t => c.isUpper && t.any Char.isLower

/-- Names joined into a path. -/
def joinPath (names : List Text) : Text := List.intercalate ['\\'] names

/-- Where a chain is resolved: the registry, and the number of loops around the tag. -/
structure Scope where
  registry : Registry
  loops : Nat
  deriving DecidableEq, Repr

namespace Chain

/-- A wrapper method on a value, if it is registered. -/
def wrapperCall (s : Scope) (c : Chain) (root : Root) (keys : List Text) (method : Text) :
    Except Fault Reference :=
  if s.registry.wrapper.contains method then .ok (.wrapped root keys method)
  else .error (.noWrapperMethod method s.registry.wrapper.owner c.raw)

/-- A chain after leading dots. -/
def resolveLoop (s : Scope) (c : Chain) (called : Bool) : Except Fault Reference :=
  if s.loops < c.depth then .error (.loopDepth c.raw s.loops)
  else
    match c.names with
    | [] => .error (.loopMember c.raw)
    | first :: rest =>
      match FrameVar.scalar? first with
      | some var =>
        match rest, called with
        | [], false => .ok (.value (.frame c.depth var) [])
        | [method], true => c.wrapperCall s (.frame c.depth var) [] method
        | _, _ => .error (.loopMember c.raw)
      | none =>
        if first = "h" then
          match rest, called with
          | [method], true =>
            if s.registry.helper.contains method then .ok (.helper c.depth method)
            else .error (.noHelperMethod method s.registry.helper.owner)
          | _, _ => .error (.loopMember c.raw)
        else
          let keys := if first = "v" then rest else first :: rest
          if called then
            match keys.getLast? with
            | none => .error (.loopMember c.raw)
            | some method =>
              if s.registry.wrapper.contains method then
                .ok (.wrapped (.frame c.depth .value) keys.dropLast method)
              else .ok (.objectMethod (.frame c.depth .value) keys.dropLast method)
          else .ok (.value (.frame c.depth .value) keys)

/-- A chain that starts with `this`. -/
def resolveSelf (c : Chain) (called : Bool) : Except Fault Reference :=
  match c.names, called with
  | [_], false => .ok .self
  | [_, method], true => .ok (.selfMethod method)
  | _, _ => .error (.selfUse c.raw)

/-- A chain that starts with the superglobal `name`, before `rest`. -/
def resolveGlobal (s : Scope) (c : Chain) (name : Text) (rest : List Text) (called : Bool) :
    Except Fault Reference :=
  let keys := if called then rest.dropLast else rest
  let fits := if name = "GLOBALS" then !keys.isEmpty else keys.length == 1
  if !fits then .error (.superglobalUse c.raw)
  else if called then
    match rest.getLast? with
    | some method => c.wrapperCall s (.superglobal name) keys method
    | none => .error (.superglobalUse c.raw)
  else .ok (.value (.superglobal name) keys)

/-- The constant that the names address and the keys after it, if one of them is in capitals. -/
def findConstant (s : Symbols) (c : Chain) (names : List Text) :
    Except Fault (Option (Root × List Text)) :=
  let owner := names.takeWhile fun name => !isConstantName name
  match names.dropWhile fun name => !isConstantName name with
  | [] => .ok none
  | name :: keys =>
    if keys.any isConstantName then .error (.constantChain c.raw)
    else if owner.isEmpty then
      if s.hasConstant name then .ok (some (.constant name, keys))
      else .error (.noConstant c.raw)
    else if s.hasConstant (joinPath (owner ++ [name])) then
      .ok (some (.constant (joinPath (owner ++ [name])), keys))
    else if (s.findClass? (joinPath owner)).any fun found => found.hasConstant name then
      .ok (some (.classConstant (joinPath owner) name, keys))
    else .error (.noConstant c.raw)

/-- A called chain of one name. -/
def resolveFunction (s : Scope) (name : Text) : Except Fault Reference :=
  if Symbols.isConstruct name then .ok (.construct name)
  else if s.registry.symbols.hasFunction name then .ok (.function name)
  else .error (.noFunction name)

/-- A called chain of several names: `owner` before the called `method`. -/
def resolveMethod (s : Scope) (c : Chain) (owner : List Text) (method : Text) :
    Except Fault Reference :=
  match c.findConstant s.registry.symbols owner with
  | .error fault => .error fault
  | .ok (some (root, keys)) => c.wrapperCall s root keys method
  | .ok none =>
    let path := joinPath owner
    match s.registry.symbols.findClass? path with
    | some found =>
      if found.hasMethod method then .ok (.staticMethod path method)
      else .error (.noStaticMethod path method)
    | none =>
      if s.registry.symbols.hasFunction (joinPath (owner ++ [method])) then
        .ok (.function (joinPath (owner ++ [method])))
      else if owner.getLast?.any isClassName then .error (.noClass path)
      else c.wrapperCall s .data owner method

/-- A chain without leading dots that starts with no special name. -/
def resolveStatic (s : Scope) (c : Chain) (called : Bool) : Except Fault Reference :=
  if called then
    match c.names with
    | [name] => resolveFunction s name
    | names =>
      match names.getLast? with
      | some method => c.resolveMethod s names.dropLast method
      | none => .error (.unexpected c.raw)
  else
    match c.findConstant s.registry.symbols c.names with
    | .error fault => .error fault
    | .ok (some (root, keys)) => .ok (.value root keys)
    | .ok none => .ok (.value .data c.names)

/-- **What a chain stands for**, or why it stands for nothing. -/
def resolve (s : Scope) (c : Chain) (called : Bool) : Except Fault Reference :=
  if 0 < c.depth then c.resolveLoop s called
  else
    match c.names with
    | [] => .error (.unexpected c.raw)
    | first :: rest =>
      if first = "this" then c.resolveSelf called
      else if first = "GLOBALS" ∨ first ∈ singleKeyGlobals then
        c.resolveGlobal s first rest called
      else c.resolveStatic s called

end Chain

end Stencil
