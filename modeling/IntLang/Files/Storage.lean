import IntLang.Files.Source

/-!
# Files on disk

What a program can do with the files of its host, by path. A directory of them is a source of
files like any other.

## Main definitions

* `Storage`, the operations;
* `Storage.directory`, a directory as a `FileSource`.
-/

namespace IntLang

/-- What is known of a file without reading it. -/
structure FileInfo where
  /-- Whether it is a directory. -/
  isDirectory : Bool
  /-- Its size in bytes. -/
  size : Nat
deriving DecidableEq, Inhabited

/-- The operations on files. -/
structure Storage (m : Type → Type) where
  /-- What a path leads to. -/
  stat : Text → m (Except FileReason FileInfo)
  /-- The content of a file. -/
  read : Text → m (Except FileReason Text)
  /-- The names in a directory, in byte order. -/
  list : Text → m (Except FileReason (List Entry))
  /-- Makes a file, or gives it a new content. -/
  write : Text → Text → m (Except FileReason Unit)

namespace Storage

variable {m : Type → Type} [Monad m]

/-- Whether a path leads to a directory. -/
def isDirectory (s : Storage m) (path : Text) : m Bool := do
  match ← s.stat path with
  | .ok info => return info.isDirectory
  | .error _ => return false

/-- The path that leads on from a directory. -/
def within (dir path : Text) : Text :=
  if dir.bytes.getLast? = some Path.slash then dir ++ path else dir ++ "/" ++ path

/-- A directory as a source of files. Only library paths lead into it; others are refused by the
operation they were meant for, before the disk is asked to open anything. -/
def directory (s : Storage m) (dir : Text) : FileSource m where
  isFile path := do
    if !Path.isLibraryPath path then return false
    match ← s.stat (within dir path) with
    | .ok info => return !info.isDirectory
    | .error _ => return false
  list path := do
    if !Path.isLibraryPath path then return .error ⟨"readdir", path, .invalid⟩
    match ← s.list (within dir path) with
    | .ok entries => return .ok entries
    | .error reason => return .error ⟨"open", path, reason⟩
  read path := do
    if !Path.isLibraryPath path then return .error ⟨"readfile", path, .invalid⟩
    match ← s.read (within dir path) with
    | .ok content => return .ok content
    | .error reason => return .error ⟨"open", path, reason⟩

end Storage

end IntLang
