import Stencil.Json.Document
import Stencil.Registry
import Stencil.Table

/-!
# Config/Basic — the settings of a project

A configuration is a JSON record in which every field may be left out.  Fields come as the members
of an object, or in their declared order as the items of a list; a field that is unknown or comes
twice is refused.  `Config.registry` is what its symbols amount to.
-/

namespace Stencil

/-- The configured members of a class. -/
structure ClassConfig where
  methods : List Text
  constants : List Text
  deriving DecidableEq, Repr

/-- The settings of a project. -/
structure Config where
  /-- The directory of the templates. -/
  templateRoot : Text
  /-- The directory of the compiled artifacts. -/
  artifactRoot : Text
  wrapperClass : Text
  wrapperMethods : List Text
  helperClass : Text
  helperMethods : List Text
  /-- Whether artifacts are compared with their templates at all. -/
  checkScripts : Bool
  /-- Whether the host takes every `<?` for script. -/
  shortTags : Bool
  functions : List Text
  constants : List Text
  classes : Table Text ClassConfig
  deriving DecidableEq, Repr

namespace ClassConfig

/-- The fields of a class, in order. -/
def fields : List Text := ["methods", "constants"]

/-- Sets a field of a class. -/
def set (c : ClassConfig) (field : Text) (value : Json.Doc) : Except Json.Problem ClassConfig :=
  if field = "methods" then value.asTexts.map fun l => { c with methods := l }
  else if field = "constants" then value.asTexts.map fun l => { c with constants := l }
  else .error .mistyped

/-- The class that a document describes. -/
def ofDoc : Json.Doc → Except Json.Problem ClassConfig := Json.Doc.asRecord set fields ⟨[], []⟩

end ClassConfig

namespace Config

/-- The settings that hold where none are given. -/
def standard : Config where
  templateRoot := "templates"
  artifactRoot := "artifacts"
  wrapperClass := Adapter.defaultWrapperOwner
  wrapperMethods := Adapter.defaultWrapperMethods
  helperClass := Adapter.defaultHelperOwner
  helperMethods := Adapter.defaultHelperMethods
  checkScripts := true
  shortTags := false
  functions := []
  constants := []
  classes := []

/-- The fields of a configuration, in order. -/
def fields : List Text :=
  ["template_root", "artifact_root", "wrapper_class", "wrapper_methods", "loop_helper_class",
   "loop_helper_methods", "script_check", "short_open_tag", "functions", "constants", "classes"]

/-- The classes that the members of an object describe; of two with one name the last counts. -/
def readClasses : Table Text ClassConfig → List (Option Text × Json.Doc) →
    Except Json.Problem (Table Text ClassConfig)
  | found, [] => .ok found
  | _, (none, _) :: _ => .error .malformed
  | found, (some name, value) :: members =>
    match ClassConfig.ofDoc value with
    | .error p => .error p
    | .ok c => readClasses (found.insert name c) members

/-- The classes that a document describes. -/
def asClasses : Json.Doc → Except Json.Problem (Table Text ClassConfig)
  | .object members flaw => do
    let found ← readClasses [] members
    Json.Doc.checkFlaw flaw
    return found
  | d => .error d.misfit

/-- Sets a field of a configuration. -/
def set (c : Config) (field : Text) (value : Json.Doc) : Except Json.Problem Config :=
  if field = "template_root" then value.asText.map fun t => { c with templateRoot := t }
  else if field = "artifact_root" then value.asText.map fun t => { c with artifactRoot := t }
  else if field = "wrapper_class" then value.asText.map fun t => { c with wrapperClass := t }
  else if field = "wrapper_methods" then value.asTexts.map fun l => { c with wrapperMethods := l }
  else if field = "loop_helper_class" then value.asText.map fun t => { c with helperClass := t }
  else if field = "loop_helper_methods" then
    value.asTexts.map fun l => { c with helperMethods := l }
  else if field = "script_check" then value.asBool.map fun b => { c with checkScripts := b }
  else if field = "short_open_tag" then value.asBool.map fun b => { c with shortTags := b }
  else if field = "functions" then value.asTexts.map fun l => { c with functions := l }
  else if field = "constants" then value.asTexts.map fun l => { c with constants := l }
  else if field = "classes" then (asClasses value).map fun l => { c with classes := l }
  else .error .mistyped

/-- **The configuration that a text holds.** -/
def ofText (t : Text) : Except Json.Problem Config :=
  Json.Doc.decode (Json.Doc.asRecord set fields standard) t

/-- **The registry of a configuration**: the builtin symbols and its own. -/
def registry (c : Config) : Registry where
  wrapper := .ofMethods c.wrapperClass c.wrapperMethods
  helper := .ofMethods c.helperClass c.helperMethods
  symbols :=
    let functions := c.functions.foldl Symbols.defineFunction .builtin
    let constants := c.constants.foldl Symbols.defineConstant functions
    c.classes.foldl
      (fun s (name, found) => s.defineClass name (.ofMembers found.methods found.constants))
      constants

end Config

end Stencil
