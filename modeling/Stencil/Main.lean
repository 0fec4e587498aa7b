import Stencil.CommandLine
import Stencil.Disk.Edit

/-!
# Main — the command on a real disk

The command runs on a picture of the disk: what it looks at is read before the run, and what the run
changed is written after it.  The system tells no permission bits, so everything counts as having
those of new files and directories, without the right to read where reading fails.  It tells no time
zone either, so headers show the time by clocks that are never ahead.
-/

namespace Stencil

namespace Main

/-- The place that a path names by its form. -/
def placeOf (d : Disk) (p : Text) : Place :=
  let (start, segments) := d.origin p
  segments.foldl
    (fun place s =>
      if Path.isSilent s then place else if s = ['.', '.'] then place.dropLast else place ++ [s])
    start

/-- Permission bits without the right to read. -/
def unread (mode : Nat) : Nat := mode - Right.read.bit

/-- Reads what is at a place, and all below it if `deep`. -/
partial def readAt (deep : Bool) (d : Disk) (place : Place) : IO Disk := do
  let file := (← IO.currentDir) / String.ofList (Disk.placeText place)
  try
    let info ← file.metadata
    let time := Instant.ofSecond info.modified.sec + info.modified.nsec.toNat
    if info.type == .dir then
      let d := d.put place (.dir time Disk.dirMode)
      if deep then
        match ← file.readDir.toBaseIO with
        | .ok inner => inner.foldlM (fun d e => readAt deep d (place ++ [e.fileName.toList])) d
        | .error _ => return d.put place (.dir time (unread Disk.dirMode))
      else
        return d
    else
      match ← (IO.FS.readBinFile file).toBaseIO with
      | .ok content => return d.put place (.file content.toList time Disk.fileMode)
      | .error _ => return d.put place (.file [] time (unread Disk.fileMode))
  catch _ => return d

/-- Reads what a path names, and the directories that lead there. -/
def readPath (d : Disk) (p : Text) : IO Disk := do
  let place := placeOf d p
  let outer := (List.range place.length).map place.take
  let d ← outer.foldlM (readAt false) d
  readAt true d place

/-- The rights that three permission bits give. -/
def rights (bits : Nat) : IO.AccessRight where
  read := bits &&& 4 != 0
  write := bits &&& 2 != 0
  execution := bits &&& 1 != 0

/-- Writes an entry to the real disk, a file by way of a draft beside it. -/
def writeEntry (place : Place) (entry : Entry) : IO Unit := do
  let path := String.ofList (Disk.placeText place)
  match entry with
  | .dir .. => IO.FS.createDir path
  | .file content .. =>
    let draft := path ++ ".draft"
    IO.FS.writeBinFile draft ⟨content.toArray⟩
    IO.FS.rename draft path
  let mode := entry.mode
  IO.setAccessRights path ⟨rights (mode / 64), rights (mode / 8), rights mode⟩

/-- Writes what a run changed. -/
def writeChanges (before after : Disk) : IO Unit :=
  after.entries.forM fun (place, entry) =>
    if before.at? place == some entry then pure () else writeEntry place entry

/-- The picture of the disk that a request needs. -/
def picture (request : CommandLine.Request) : IO Disk := do
  let here := placeOf (.blank [] 0) (← IO.currentDir).toString.toList
  let d : Disk := .blank here 0
  match request.config with
  | none => (request.paths .standard).foldlM readPath d
  | some path =>
    let d ← readPath d path
    let config := (Config.load d path).toOption.getD .standard
    (request.paths config).foldlM readPath d

end Main

end Stencil

/-- Runs the command with the words behind its name. -/
def main (words : List String) : IO UInt32 := do
  let words := words.map String.toList
  let before ← match Stencil.CommandLine.Request.read words with
    | some request => Stencil.Main.picture request
    | none => pure (.blank [] 0)
  let (output, after) := Stencil.CommandLine.run words before
  Stencil.Main.writeChanges before after
  IO.print (String.ofList output.out)
  IO.eprint (String.ofList output.err)
  return UInt32.ofNat output.status
