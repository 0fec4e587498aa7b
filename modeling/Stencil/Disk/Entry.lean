import Stencil.Artifact.Calendar

/-!
# Disk/Entry — a file or a directory

What stands at one place of a disk: a file with its bytes or a directory, with the time of its last
change and its permission bits.  Everything belongs to the one user there is, so of the permission
bits those of the owner decide what may be done.  What can go wrong is a `FileError`, with the
system's words for it.
-/

namespace Stencil

/-- Why a file operation fails. -/
inductive FileError
  | notFound
  | denied
  | busy
  | alreadyExists
  | notDirectory
  | isDirectory
  | nameTooLong
  | notEmpty
  /-- The disk is full. -/
  | noSpace
  /-- The disk does not work. -/
  | broken
  /-- The path holds a NUL character. -/
  | notPath
  /-- The file holds no text. -/
  | notText
  deriving DecidableEq, Repr

/-- The system's words. -/
def FileError.message : FileError → Text
  | notFound => "No such file or directory (os error 2)"
  | denied => "Permission denied (os error 13)"
  | busy => "Device or resource busy (os error 16)"
  | alreadyExists => "File exists (os error 17)"
  | notDirectory => "Not a directory (os error 20)"
  | isDirectory => "Is a directory (os error 21)"
  | nameTooLong => "File name too long (os error 36)"
  | notEmpty => "Directory not empty (os error 39)"
  | noSpace => "No space left on device (os error 28)"
  | broken => "Input/output error (os error 5)"
  | notPath => "file name contained an unexpected NUL byte"
  | notText => "stream did not contain valid UTF-8"

/-- What permission bits can allow. -/
inductive Right
  /-- To read a file, or the names in a directory. -/
  | read
  /-- To make, move or remove something in a directory. -/
  | write
  /-- To look a name up in a directory. -/
  | search
  deriving DecidableEq, Repr

/-- The permission bit that gives a right to the owner. -/
def Right.bit : Right → Nat
  | read => 0o400
  | write => 0o200
  | search => 0o100

/-- A file or a directory, with the time of its last change and its permission bits. -/
inductive Entry
  | file (content : Bytes) (time : Instant) (mode : Nat)
  | dir (time : Instant) (mode : Nat)
  deriving DecidableEq, Repr

namespace Entry

/-- Whether the entry is a directory. -/
def isDir : Entry → Bool
  | dir .. => true
  | file .. => false

/-- The permission bits. -/
def mode : Entry → Nat
  | dir _ mode => mode
  | file _ _ mode => mode

/-- Whether the permission bits give a right. -/
def allows (e : Entry) (r : Right) : Bool := e.mode &&& r.bit != 0

/-- The time of the last change. -/
def time : Entry → Instant
  | dir time _ => time
  | file _ time _ => time

/-- The entry with other permission bits. -/
def withMode (mode : Nat) : Entry → Entry
  | dir time _ => dir time mode
  | file content time _ => file content time mode

/-- The entry with another time. -/
def withTime (time : Instant) : Entry → Entry
  | dir _ mode => dir time mode
  | file content _ mode => file content time mode

end Entry

end Stencil
