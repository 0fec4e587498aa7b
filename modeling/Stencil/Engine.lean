import Stencil.Artifact.Store
import Stencil.Config.Load
import Stencil.Disk.Discovery
import Stencil.Template.Basic

/-!
# Engine — a project's templates and their artifacts

An engine is a configuration at work: it compiles with the configured registry, finds templates
below the template root and keeps their artifacts in the store.  `Engine.ensure` is what a renderer
calls before it runs an artifact; `Engine.buildAll` does the same for every template.
-/

namespace Stencil

/-- A configuration at work. -/
structure Engine where
  config : Config
  deriving DecidableEq, Repr

/-- What was done to have an artifact. -/
inductive Outcome
  /-- Nothing: it was up to date, or nobody asked whether it was. -/
  | fresh
  | compiled
  deriving DecidableEq, Repr

/-- The word for an outcome. -/
def Outcome.name : Outcome → Text
  | fresh => "fresh"
  | compiled => "compiled"

namespace Engine

/-- The compiler of an engine. -/
def compiler (e : Engine) : Compiler := ⟨e.config.registry, e.config.shortTags⟩

/-- The store of an engine. -/
def store (e : Engine) : Store := ⟨e.config.artifactRoot⟩

/-- A template below the template root, whether or not it is given with the root. -/
def relative (e : Engine) (template : Text) : Text :=
  (Path.relativeTo? e.config.templateRoot template).getD template

/-- The path of a template. -/
def templatePath (e : Engine) (template : Text) : Text := Path.join e.config.templateRoot template

/-- The path of a template's artifact. -/
def artifactPath (e : Engine) (template : Text) : Text := e.store.artifactPath template

/-- Names the template in a diagnostic. -/
def report (d : Disk) (source : Text) (problem : Diagnostic) : Diagnostic :=
  problem.withFile (match d.canonical source with
    | .ok file => file
    | .error _ => source)

/-- **Compiles a template** and stores nothing. -/
def check (e : Engine) (d : Disk) (template : Text) : Except Diagnostic Unit :=
  let source := e.templatePath template
  match d.readText source with
  | .error cause => .error (report d source (Failure.lockedTemplate source cause).diagnostic)
  | .ok text =>
    match e.compiler.compile text with
    | .error problem => .error (report d source problem)
    | .ok _ => .ok ()

/-- **Sees to it that a template's artifact is there and current.** -/
def ensure (e : Engine) (d : Disk) (template : Text) : Except Diagnostic Outcome × Disk :=
  let source := e.templatePath template
  let artifact := e.artifactPath template
  if e.config.checkScripts then
    match e.store.refresh d e.compiler.compile source artifact with
    | (.error problem, d) => (.error (report d source problem), d)
    | (.ok true, d) => (.ok .compiled, d)
    | (.ok false, d) => (.ok .fresh, d)
  else if d.isFile artifact then (.ok .fresh, d)
  else (.error (report d source (Failure.noArtifact artifact).diagnostic), d)

/-- The templates below the template root. -/
def templates (e : Engine) (d : Disk) : List Text :=
  (d.filesBelow e.config.templateRoot).map Path.joinSegments

/-- Ensures templates one after the other. -/
def ensureAll (e : Engine) : Disk → List Text → List (Text × Except Diagnostic Outcome) × Disk
  | d, [] => ([], d)
  | d, template :: others =>
    let (outcome, d) := e.ensure d template
    let (outcomes, d) := e.ensureAll d others
    ((template, outcome) :: outcomes, d)

/-- **Ensures every template.** -/
def buildAll (e : Engine) (d : Disk) : List (Text × Except Diagnostic Outcome) × Disk :=
  e.ensureAll d (e.templates d)

end Engine

end Stencil
