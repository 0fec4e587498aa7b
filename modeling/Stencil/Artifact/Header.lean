import Stencil.Artifact.Failure

/-!
# Artifact/Header — the first line of an artifact

An artifact starts with a host comment that names the compiler's version, the local time and path of
its template, and the size of the whole artifact in bytes.  Everything before the size is the
**stem**: it is known before the artifact is, and an artifact is fresh when it starts with the stem
and has the size that it declares.  A torn artifact has another size, so it is never fresh.
-/

namespace Stencil

/-- The header of an artifact, up to its size. -/
structure Header where
  stem : Text
  deriving DecidableEq, Repr

namespace Header

/-- The version of this compiler. -/
def version : Text := "1.1.2"

/-- The width of the size. -/
def sizeWidth : Nat := 9

/-- The largest size that can be declared. -/
def maxSize : Nat := 999999999

/-- How every header starts. -/
def opening : Text := "<?php /* Tplus "

/-- How every header ends, before its line feed. -/
def closing : Text := " */ ?>"

/-- The header for a template: version, time of change by the clocks of a zone, and path. -/
def make (version : Text) (time : Instant) (path : Text) (zone : Zone := .utc) : Header :=
  ⟨opening ++ version ++ " " ++ zone.text time ++ " " ++ path ++ " "⟩

/-- The header for a template as it is on the disk. -/
def ofTemplate (d : Disk) (source : Text) : Except Failure Header :=
  match d.canonical source with
  | .error cause => .error (.noTemplate source cause)
  | .ok path =>
    match d.entry path with
    | .error cause => .error (.noTemplate source cause)
    | .ok entry => .ok (make version entry.time path d.zone)

/-- How many bytes decide whether an artifact is fresh. -/
def checkLength (h : Header) : Nat := h.stem.size + sizeWidth

/-- The size of the artifact with a body. -/
def totalSize (h : Header) (body : Text) : Nat :=
  h.checkLength + (closing.size + 1) + body.size

/-- **The artifact with a body**, unless it is too large to declare its size. -/
def stamp (h : Header) (body : Text) : Except Failure Text :=
  let total := h.totalSize body
  if maxSize < total then .error (.tooLarge total)
  else
    .ok (h.stem ++ Text.padZeros sizeWidth (Text.decimal total) ++ closing ++ ['\n'] ++ body)

/-- **Whether an artifact is fresh**, from its first bytes and its size. -/
def accepts (h : Header) (head : Bytes) (size : Nat) : Bool :=
  head.length == h.checkLength
    && head.take h.stem.size == Text.utf8 h.stem
    && ((Text.ofUtf8? (head.drop h.stem.size)).bind Text.number64?) == some size

end Header

/-! ## Reading a header -/

/-- What a header says. -/
structure HeaderInfo where
  version : Text
  time : Text
  source : Text
  size : Nat
  deriving DecidableEq, Repr

namespace HeaderInfo

/-- The text before the last blank and the text after it. -/
def splitLast? (t : Text) : Option (Text × Text) :=
  match t.reverse.dropWhile (· != ' ') with
  | [] => none
  | _ :: front => some (front.reverse, (t.reverse.takeWhile (· != ' ')).reverse)

/-- The fields of a header, from its first line. -/
def parse? (line : Text) : Option HeaderInfo := do
  let rest ← Text.dropPrefix? Header.opening line
  let rest ← Text.dropSuffix? Header.closing rest
  let (version, rest) ← Text.breakOn? " " rest
  let (date, rest) ← Text.breakOn? " " rest
  let (time, rest) ← Text.breakOn? " " rest
  let (source, size) ← splitLast? rest
  if size.size = Header.sizeWidth then
    let size ← Text.number64? size
    return ⟨version, date ++ " " ++ time, source, size⟩
  else none

end HeaderInfo

end Stencil
