import IntLang.Files.Error
import IntLang.Files.Path
import IntLang.Text.Case

/-!
# Looking files up without regard to case

A `FileSource` is anything that holds files: a library in memory or a directory on disk. A file
is found under its exact name, or else under the first name in its directory that agrees up to
case. Directories are never found.

## Main definitions

* `FileSource`, `Entry`;
* `FileSource.find`, `FileSource.readAnyCase`, `FileSource.withExtension`;
* `LookupError`.
-/

namespace IntLang

/-- One name in a directory. -/
structure Entry where
  /-- The name, without a path. -/
  name : Text
  /-- Whether it is a directory. -/
  isDirectory : Bool
deriving DecidableEq, Inhabited

/-- Something that holds files. -/
structure FileSource (m : Type → Type) where
  /-- Whether a path leads to a file that is no directory. -/
  isFile : Text → m Bool
  /-- The names in a directory, in order. -/
  list : Text → m (Except FileError (List Entry))
  /-- The content of a file. -/
  read : Text → m (Except FileError Text)

/-- Why a file was not found. -/
inductive LookupError where
  /-- The directory could not be listed. -/
  | unlisted (dir : Text) (cause : FileError)
  /-- Nothing in the directory has that name. -/
  | missing (name dir : Text)
  /-- The file was found and could not be read. -/
  | unreadable (cause : FileError)
deriving DecidableEq

namespace LookupError

/-- The message of a failed look-up. -/
def message : LookupError → Text
  | unlisted dir cause => "failed to read directory " ++ dir ++ ": " ++ cause.message
  | missing name dir =>
    "file not found: " ++ name ++ " (searched in " ++ dir ++ "): file does not exist"
  | unreadable cause => cause.message

/-- Whether the reason is that there is no such file. -/
def isAbsence : LookupError → Bool
  | unlisted _ cause => cause.reason.isAbsence
  | missing _ _ => true
  | unreadable cause => cause.reason.isAbsence

end LookupError

namespace FileSource

variable {m : Type → Type} [Monad m]

/-- The path of the file that has a name in a directory, up to case; the exact name comes
first. -/
def find (source : FileSource m) (dir name : Text) : m (Except LookupError Text) := do
  let direct := Path.join dir name
  if ← source.isFile direct then return .ok direct
  match ← source.list dir with
  | .error cause => return .error (.unlisted dir cause)
  | .ok entries =>
    match entries.find? fun e => !e.isDirectory && e.name.equalFold name with
    | some e => return .ok (Path.join dir e.name)
    | none => return .error (.missing name dir)

/-- The content of the file at a path, its last element up to case. Backslashes count as
slashes, and one slash in front is dropped. -/
def readAnyCase (source : FileSource m) (path : Text) : m (Except LookupError Text) := do
  let slashed := path.replaceByte 0x5C Path.slash
  let relative := (Text.dropPrefix? "/" slashed).getD slashed
  match ← source.find (Path.dir relative) (Path.base relative) with
  | .error cause => return .error cause
  | .ok actual =>
    match ← source.read actual with
    | .error cause => return .error (.unreadable cause)
    | .ok content => return .ok content

/-- The names of the files in a directory with an extension, up to case, in byte order. -/
def withExtension (source : FileSource m) (dir extension : Text) :
    m (Except LookupError (List Text)) := do
  match ← source.list dir with
  | .error cause => return .error (.unlisted dir cause)
  | .ok entries =>
    let fits (e : Entry) : Bool :=
      !e.isDirectory && (Path.extension e.name).equalFold extension
    return .ok (Text.sort ((entries.filter fits).map Entry.name))

end FileSource

end IntLang
