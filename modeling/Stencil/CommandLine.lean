import Stencil.Artifact.SourceMap
import Stencil.Diagnostic.Report
import Stencil.Engine

/-!
# CommandLine — the compiler as a command

The words behind the name of the command are a request: options come out first, wherever they stand,
then the first word names the command and the next ones its operands.  A run tells what is printed
and with which status it ends, and leaves the disk as the command made it.
-/

namespace Stencil

namespace CommandLine

/-- What a run prints, and its status. -/
structure Output where
  status : Nat
  out : Text := []
  err : Text := []
  deriving DecidableEq, Repr

namespace Output

/-- A run that ends well. -/
def success (out : Text) : Output := ⟨0, out, []⟩

/-- A run that ends with an error. -/
def failure (err : Text) : Output := ⟨1, [], err⟩

end Output

/-- A text as a line. -/
def line (t : Text) : Text := t ++ ['\n']

/-- The lines that explain the command. -/
def usageLines : List Text :=
  ["Tplus template compiler",
   "",
   "Usage: tplus <command> [options]",
   "",
   "Commands:",
   "  compile <template>       Compile a template if its artifact is stale",
   "  check <template>         Compile a template without writing the artifact",
   "  build                    Compile every stale template (in parallel)",
   "  locate <artifact> <n>    Map an artifact line back to its template tag",
   "  explain <code>           Explain an error code (e.g., E1002)",
   "  help                     Show this help message",
   "  version                  Show version information",
   "",
   "Options:",
   "  --config <file.json>     Configuration file (default: built-in defaults)",
   "  --html                   Print errors as an inline HTML report",
   "",
   "Template paths are relative to the template root.",
   "Set RUST_LOG (e.g. RUST_LOG=tplus_cache=debug) for tracing output.",
   "",
   "Examples:",
   "  tplus compile index.html --config tplus.json",
   "  tplus build --config tplus.json",
   "  tplus locate artifacts/index.html.php 12",
   "  tplus explain E5005"]

/-- The text that explains the command. -/
def usage : Text := usageLines.flatMap line

/-! ## Requests -/

/-- What is asked for. -/
inductive Command
  | compile (template : Text)
  | check (template : Text)
  | build
  | locate (artifact line : Text)
  | explain (code : Text)
  | help
  | version
  /-- A command without an operand that it needs; `usage` says how it is called. -/
  | incomplete (usage : Text)
  | unknown (word : Text)
  deriving DecidableEq, Repr

/-- A command with its options. -/
structure Request where
  config : Option Text
  html : Bool
  command : Command
  deriving DecidableEq, Repr

/-- Takes the first `name` and the word behind it out of a list of words; nothing if no word is
behind it. -/
def takeOption (name : Text) : List Text → Option (Option Text × List Text)
  | [] => some (none, [])
  | word :: words =>
    if word = name then
      match words with
      | [] => none
      | value :: words => some (some value, words)
    else (takeOption name words).map fun (value, words) => (value, word :: words)

/-- Takes the first `name` out of a list of words. -/
def takeFlag (name : Text) (words : List Text) : Bool × List Text :=
  (words.contains name, words.erase name)

/-- The command that words ask for. -/
def readCommand : List Text → Command
  | [] => .help
  | word :: operands =>
    if word = "compile" then
      match operands with
      | template :: _ => .compile template
      | [] => .incomplete (line "Usage: tplus compile <template> [--config <file>] [--html]")
    else if word = "check" then
      match operands with
      | template :: _ => .check template
      | [] => .incomplete (line "Usage: tplus check <template> [--config <file>] [--html]")
    else if word = "build" then .build
    else if word = "locate" then
      match operands with
      | artifact :: number :: _ => .locate artifact number
      | _ => .incomplete (line "Usage: tplus locate <artifact> <line>"
          ++ line "Example: tplus locate artifacts/index.html.php 12")
    else if word = "explain" ∨ word = "--explain" then
      match operands with
      | code :: _ => .explain code
      | [] => .incomplete (line "Usage: tplus explain <ERROR_CODE>"
          ++ line "Example: tplus explain E1002")
    else if word = "help" ∨ word = "--help" ∨ word = "-h" then .help
    else if word = "version" ∨ word = "--version" ∨ word = "-v" then .version
    else .unknown word

/-- The request that words make, unless an option lacks its value. -/
def Request.read (words : List Text) : Option Request :=
  match takeOption "--config" words with
  | none => none
  | some (config, words) =>
    let (html, words) := takeFlag "--html" words
    some ⟨config, html, readCommand words⟩

/-- The paths that a request looks at, once its configuration is known. -/
def Request.paths (r : Request) (c : Config) : List Text :=
  let e : Engine := ⟨c⟩
  match r.command with
  | .compile template =>
    [c.templateRoot, c.artifactRoot, e.templatePath (e.relative template),
     e.artifactPath (e.relative template)]
  | .check template => [c.templateRoot, c.artifactRoot, e.templatePath (e.relative template)]
  | .build => [c.templateRoot, c.artifactRoot]
  | .locate artifact _ => [artifact]
  | _ => []

/-! ## Answers -/

/-- The output of a diagnostic: a log line, or a report for a page. -/
def showDiagnostic (html : Bool) (problem : Diagnostic) : Output :=
  if html then ⟨1, line problem.html, []⟩ else .failure (line problem.logLine)

/-- The engine that a request works with. -/
def loadEngine (d : Disk) (config : Option Text) : Except ConfigError Engine := do
  let config ← match config with
    | some path => Config.load d path
    | none => .ok .standard
  config.validate d
  return ⟨config⟩

/-- Brings one artifact up to date. -/
def compile (e : Engine) (d : Disk) (html : Bool) (template : Text) : Output × Disk :=
  let template := e.relative template
  match e.ensure d template with
  | (.ok outcome, d) => (.success (line (outcome.name ++ " " ++ e.artifactPath template)), d)
  | (.error problem, d) => (showDiagnostic html problem, d)

/-- Compiles one template and stores nothing. -/
def check (e : Engine) (d : Disk) (html : Bool) (template : Text) : Output :=
  let template := e.relative template
  match e.check d template with
  | .ok () => .success (line ("ok " ++ template))
  | .error problem => showDiagnostic html problem

/-- The line of a compiled template. -/
def compiledLine : Text × Except Diagnostic Outcome → Text
  | (template, .ok .compiled) => line ("compiled " ++ template)
  | _ => []

/-- The line of a failed template. -/
def failedLine : Text × Except Diagnostic Outcome → Text
  | (_, .error problem) => line problem.logLine
  | _ => []

/-- How many templates had an outcome; none for those that failed. -/
def countOutcome (outcome : Option Outcome) (results : List (Text × Except Diagnostic Outcome)) :
    Nat :=
  results.countP fun (_, result) => result.toOption == outcome

/-- The report on a build. -/
def buildReport (results : List (Text × Except Diagnostic Outcome)) : Output :=
  let failed := countOutcome none results
  { status := if 0 < failed then 1 else 0
    out := results.flatMap compiledLine ++ line []
      ++ line (Text.decimal (countOutcome (some .compiled) results) ++ " compiled, "
        ++ Text.decimal (countOutcome (some .fresh) results) ++ " fresh, "
        ++ Text.decimal failed ++ " failed")
    err := results.flatMap failedLine }

/-- Brings every artifact up to date. -/
def build (e : Engine) (d : Disk) : Output × Disk :=
  let (results, d) := e.buildAll d
  (buildReport results, d)

/-- Leads from a line of an artifact to its tag. -/
def locate (d : Disk) (artifact number : Text) : Output :=
  match Text.number64? number with
  | none => .failure (line ("error: `" ++ number ++ "` is not a line number"))
  | some n =>
    match d.readText artifact with
    | .error cause =>
      .failure (line ("error: cannot read `" ++ artifact ++ "`: " ++ cause.message))
    | .ok text =>
      match Origin.find? text n with
      | some o => .success (line (o.template ++ ":" ++ Text.decimal o.line ++ " " ++ o.code))
      | none =>
        .failure (line (artifact ++ ":" ++ Text.decimal n ++ " has no template location"))

/-- Explains a code. -/
def explain (code : Text) : Output :=
  match Code.ofText? code with
  | some c => .success (line (c.label ++ " (" ++ c.family.title ++ "): " ++ c.description))
  | none =>
    .failure (line ("Unknown error code: " ++ code) ++ line []
      ++ line "Codes have the format EXXXX where X is a digit."
      ++ line "Examples: E0001, E1002, E5005")

/-- Runs a command that needs an engine. -/
def withEngine (d : Disk) (config : Option Text) (command : Engine → Output × Disk) :
    Output × Disk :=
  match loadEngine d config with
  | .error problem => (.failure (line ("error: " ++ problem.message)), d)
  | .ok e => command e

/-- Runs a request. -/
def Request.run (r : Request) (d : Disk) : Output × Disk :=
  match r.command with
  | .compile template => withEngine d r.config fun e => CommandLine.compile e d r.html template
  | .check template => withEngine d r.config fun e => (CommandLine.check e d r.html template, d)
  | .build => withEngine d r.config fun e => CommandLine.build e d
  | .locate artifact number => (CommandLine.locate d artifact number, d)
  | .explain code => (CommandLine.explain code, d)
  | .help => (.success usage, d)
  | .version => (.success (line ("Tplus " ++ Header.version)), d)
  | .incomplete usage => (.failure usage, d)
  | .unknown word => (⟨1, usage, line ("Unknown command: " ++ word) ++ line []⟩, d)

/-- **Runs the command** with the words behind its name. -/
def run (words : List Text) (d : Disk) : Output × Disk :=
  match Request.read words with
  | none => (.failure (line "error: --config needs a value"), d)
  | some request => request.run d

end CommandLine

end Stencil
