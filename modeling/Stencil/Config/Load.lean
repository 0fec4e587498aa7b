import Stencil.Config.Basic
import Stencil.Disk.Basic

/-!
# Config/Load — a configuration from a file

A configuration is read from a file and then checked: both of its roots have to be directories.
-/

namespace Stencil

/-- Why a configuration is of no use. -/
inductive ConfigError
  /-- The file is not read. -/
  | notRead (path : Text) (cause : FileError)
  /-- The file holds no configuration. -/
  | invalid (path : Text) (problem : Json.Problem)
  /-- The root in `field` is no directory. -/
  | noDirectory (field path : Text)
  deriving DecidableEq, Repr

/-- What is wrong with the text of a configuration. -/
def Json.Problem.message : Json.Problem → Text
  | malformed => "it is not JSON"
  | truncated => "it ends too early"
  | mistyped => "a field is unknown, comes twice or has the wrong type"

/-- The words for it. -/
def ConfigError.message : ConfigError → Text
  | notRead path cause => "cannot read config `" ++ path ++ "`: " ++ cause.message
  | invalid path problem => "invalid config `" ++ path ++ "`: " ++ problem.message
  | noDirectory field path => field ++ " `" ++ path ++ "` is not a directory"

namespace Config

/-- The configuration in a file. -/
def load (d : Disk) (path : Text) : Except ConfigError Config :=
  match d.readText path with
  | .error cause => .error (.notRead path cause)
  | .ok text =>
    match ofText text with
    | .error problem => .error (.invalid path problem)
    | .ok config => .ok config

/-- Checks that both roots are directories. -/
def validate (c : Config) (d : Disk) : Except ConfigError Unit :=
  if !d.isDir c.templateRoot then .error (.noDirectory "template_root" c.templateRoot)
  else if !d.isDir c.artifactRoot then .error (.noDirectory "artifact_root" c.artifactRoot)
  else .ok ()

end Config

end Stencil
