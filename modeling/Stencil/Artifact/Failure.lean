import Stencil.Diagnostic.Basic
import Stencil.Disk.Basic
import Stencil.Text.Escaped

/-!
# Artifact/Failure — why an artifact cannot be had

Not every failure is in the template: it may be missing or unreadable, or the artifact cannot be
stored.  Each way is a constructor that holds what its message names; `code` and `message` are the
only places where it turns into words.
-/

namespace Stencil

/-- Why an artifact cannot be had. -/
inductive Failure
  /-- There is no template. -/
  | noTemplate (source : Text) (cause : FileError)
  /-- The template is not read. -/
  | lockedTemplate (source : Text) (cause : FileError)
  /-- Nothing may be compiled, and there is no artifact. -/
  | noArtifact (artifact : Text)
  | noRoot (root : Text)
  /-- The root is a file. -/
  | flatRoot (root : Text)
  /-- The names in the root may not be read. -/
  | closedRoot (root : Text)
  /-- Nobody may write to the root. -/
  | frozenRoot (root : Text)
  /-- The artifact lies outside the root. -/
  | outside (root artifact : Text)
  | notRead (path : Text) (cause : FileError)
  /-- A directory for the artifact is not made. -/
  | notMade (dir : Text) (cause : FileError)
  /-- The new artifact is not begun, at the place `draft` in a directory. -/
  | notBegun (dir draft : Text) (cause : FileError)
  | notWritten (path : Text) (cause : FileError)
  /-- The permission bits are not set. -/
  | notGranted (path : Text) (cause : FileError)
  /-- The artifact has more bytes than it can declare. -/
  | tooLarge (size : Nat)
  deriving DecidableEq, Repr

namespace Failure

/-- The code of a failure. -/
def code : Failure → Code
  | noTemplate .. => .noTemplate
  | lockedTemplate .. => .noTemplate
  | noArtifact _ => .noTemplate
  | noRoot _ => .artifactRoot
  | flatRoot _ => .artifactRoot
  | closedRoot _ => .artifactRoot
  | frozenRoot _ => .artifactRoot
  | outside .. => .artifactRoot
  | notRead .. => .fileAccess
  | notMade .. => .fileAccess
  | notBegun .. => .fileAccess
  | notWritten .. => .fileAccess
  | notGranted .. => .fileAccess
  | tooLarge _ => .fileAccess

/-- The message of a failure. -/
def message : Failure → Text
  | noTemplate source cause => "cannot find template `" ++ source ++ "`: " ++ cause.message
  | lockedTemplate source cause => "cannot read template `" ++ source ++ "`: " ++ cause.message
  | noArtifact artifact =>
    "script checks are off but artifact `" ++ artifact ++ "` does not exist"
  | noRoot root => "artifact root `" ++ root ++ "` does not exist"
  | flatRoot root => "artifact root `" ++ root ++ "` is not a directory"
  | closedRoot root =>
    "artifact root `" ++ root ++ "` is not readable; check the read permission of the server"
  | frozenRoot root =>
    "artifact root `" ++ root ++ "` is not writable; check the write permission of the server"
  | outside root artifact =>
    "artifact root `" ++ root ++ "` does not contain artifact `" ++ artifact ++ "`"
  | notRead path cause => "failed to read `" ++ path ++ "`: " ++ cause.message
  | notMade dir cause => "failed to create directory `" ++ dir ++ "`: " ++ cause.message
  | notBegun dir draft cause =>
    "failed to create `" ++ dir ++ "`: " ++ cause.message ++ " at path " ++ Text.escaped draft
  | notWritten path cause => "failed to write `" ++ path ++ "`: " ++ cause.message
  | notGranted path cause => "failed to set permissions of `" ++ path ++ "`: " ++ cause.message
  | tooLarge size =>
    "compiled artifact of " ++ Text.decimal size ++ " bytes does not fit the size field"

/-- The file that a failure is about on its own. -/
def file : Failure → Option Text
  | noTemplate source _ => some source
  | _ => none

/-- The diagnostic of a failure. -/
def diagnostic (f : Failure) : Diagnostic := ⟨f.code, f.message, none, none, f.file⟩

end Failure

end Stencil
