import Stencil.Artifact.Header
import Stencil.Disk.Change

/-!
# Artifact/Store — artifacts under a root directory

A store keeps artifacts in a tree of directories like that of their templates.  An artifact is first
written aside and then moved to its place, so that what stands there is always a whole artifact: on
the disk this shows as one change, `Disk.put`, after all that can fail.  Directories made on the way
stay when a later step fails.  What fails here is what paths and permission bits forbid; the steps
that a system may refuse besides, as a full disk does, are told one by one in
`Proofs/Artifact/Draft`.

An operation that changes the disk gives its result together with the disk after it.
-/

namespace Stencil

/-- Artifacts under a root directory. -/
structure Store where
  root : Text
  deriving DecidableEq, Repr

namespace Store

/-- What is put behind the name of a template. -/
def extension : Text := ".php"

/-- The artifact of a template, given by its path below the template root. -/
def artifactPath (s : Store) (template : Text) : Text := Path.join s.root (template ++ extension)

/-- **Whether an artifact is that of a template** as both are on the disk. -/
def isFresh (d : Disk) (source artifact : Text) : Except Failure Bool :=
  match Header.ofTemplate d source with
  | .error f => .error f
  | .ok header =>
    match d.readBytes artifact with
    | .error .notFound => .ok false
    | .error cause => .error (.notRead artifact cause)
    | .ok content => .ok (header.accepts (content.take header.checkLength) content.length)

/-! ## Writing -/

/-- The permission bits of the root, if artifacts can be stored there. -/
def rootMode (s : Store) (d : Disk) : Except Failure Nat :=
  match d.entry s.root with
  | .error _ => .error (.noRoot s.root)
  | .ok (.file ..) => .error (.flatRoot s.root)
  | .ok dir =>
    if !dir.allows .read then .error (.closedRoot s.root)
    else if dir.mode &&& 0o222 = 0 then .error (.frozenRoot s.root)
    else .ok dir.mode

/-- The steps from the root to the directory of an artifact. -/
def outerSteps (s : Store) (artifact : Text) : Except Failure (List Path.Component) :=
  match Path.relativeTo? s.root artifact with
  | none => .error (.outside s.root artifact)
  | some relative => .ok (Path.components relative).dropLast

/-- Makes the missing directories on the way from `dir`, and gives the last one. -/
def makeDirs (mode : Nat) (d : Disk) (dir : Text) :
    List Path.Component → Except Failure Text × Disk
  | [] => (.ok dir, d)
  | step :: steps =>
    let dir := Path.join dir step.text
    if d.isDir dir then makeDirs mode d dir steps
    else
      match d.makeDir dir fun _ => mode with
      | .ok d => makeDirs mode d dir steps
      | .error .alreadyExists => makeDirs mode d dir steps
      | .error cause => (.error (.notMade dir cause), d)

/-- The path under which a new artifact is written aside in a directory, with stars for what its
name leaves to chance. -/
def draftPath (d : Disk) (dir : Text) (stars : Nat) : Text :=
  Path.join (Path.join (Disk.placeText d.here) dir) (".tmp" ++ List.replicate stars '*')

/-- The place of the directory in which an artifact is written aside.  The name of a draft leaves
six characters to chance, until no file has it; a message shows one star. -/
def draftPlace (d : Disk) (dir : Text) : Except Failure Place :=
  match (d.locateNew (draftPath d dir 6)).bind d.openOuter with
  | .error cause => .error (.notBegun dir (draftPath d dir 1) cause)
  | .ok outer => .ok outer.1

/-- The disk with an artifact, which is written aside in `dir` first. -/
def place (d : Disk) (dir artifact : Text) (text : Text) (mode : Nat) : Except Failure Disk :=
  match draftPlace d dir with
  | .error f => .error f
  | .ok aside =>
    match d.moveTarget aside artifact with
    | .error cause => .error (.notWritten artifact cause)
    | .ok target => .ok (d.put target (.file (Text.utf8 text) d.now mode))

/-- **Stores a body under a header.** -/
def write (s : Store) (d : Disk) (artifact : Text) (header : Header) (body : Text) :
    Except Failure Unit × Disk :=
  match s.rootMode d, s.outerSteps artifact with
  | .error f, _ => (.error f, d)
  | _, .error f => (.error f, d)
  | .ok mode, .ok steps =>
    match makeDirs mode d s.root steps with
    | (.error f, d) => (.error f, d)
    | (.ok dir, d) =>
      match header.stamp body with
      | .error f => (.error f, d)
      | .ok text =>
        match place d dir artifact text mode with
        | .error f => (.error f, d)
        | .ok d => (.ok (), d)

/-- **Compiles a template anew unless its artifact is fresh**, and tells whether it did. -/
def refresh (s : Store) (d : Disk) (compile : Text → Except Diagnostic Text)
    (source artifact : Text) : Except Diagnostic Bool × Disk :=
  match isFresh d source artifact, Header.ofTemplate d source with
  | .error f, _ => (.error f.diagnostic, d)
  | .ok true, _ => (.ok false, d)
  | .ok false, .error f => (.error f.diagnostic, d)
  | .ok false, .ok header =>
    match d.readText source with
    | .error cause => (.error (Failure.notRead source cause).diagnostic, d)
    | .ok text =>
      match compile text with
      | .error e => (.error e, d)
      | .ok body =>
        match s.write d artifact header body with
        | (.error f, d) => (.error f.diagnostic, d)
        | (.ok (), d) => (.ok true, d)

end Store

end Stencil
