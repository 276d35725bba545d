import IntLang.Text

/-!
# File errors

What can be wrong with a path: a `FileError` says what was attempted, on which path, and why it
failed. That a file is not there is said in two ways, by libraries of files and by the
operating system; both count as absence.
-/

namespace IntLang

/-- Why a file operation failed. -/
inductive FileReason where
  /-- Not in the library of files. -/
  | notInLibrary
  /-- Not on the disk. -/
  | notOnDisk
  | isDirectory
  | notDirectory
  | denied
  | invalid
  | notImplemented
  /-- A name, or the whole path, is longer than a disk takes. -/
  | tooLong
deriving DecidableEq, Inhabited

namespace FileReason

/-- The wording of a reason. -/
def text : FileReason → Text
  | notInLibrary => "file does not exist"
  | notOnDisk => "no such file or directory"
  | isDirectory => "is a directory"
  | notDirectory => "not a directory"
  | denied => "permission denied"
  | invalid => "invalid argument"
  | notImplemented => "not implemented"
  | tooLong => "file name too long"

/-- Whether the reason is that there is no such file. -/
def isAbsence : FileReason → Bool
  | notInLibrary => true
  | notOnDisk => true
  | _ => false

end FileReason

/-- A file operation that failed. -/
structure FileError where
  /-- What was attempted. -/
  action : Text
  /-- On which path. -/
  path : Text
  /-- Why it failed. -/
  reason : FileReason
deriving DecidableEq, Inhabited

/-- The message of a file error. -/
def FileError.message (e : FileError) : Text :=
  e.action ++ " " ++ e.path ++ ": " ++ e.reason.text

end IntLang
