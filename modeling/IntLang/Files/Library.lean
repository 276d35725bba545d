import IntLang.Files.Source

/-!
# Libraries of files in memory

A library is a list of paths with what they lead to. The directories above a file are there
without being listed. Its paths are those of `Path.isLibraryPath`; any other path leads nowhere.

## Main definitions

* `Library`, `Library.children`;
* `Library.source`, and `FileSource.builtIn` for a library that is part of the program;
* `FileSource.denied`, which refuses everything.
-/

namespace IntLang

/-- What a path leads to. -/
inductive Node where
  | file (content : Text)
  | directory
deriving DecidableEq, Inhabited

/-- Whether a path leads to a directory. -/
def Node.isDirectory : Node → Bool
  | file _ => false
  | directory => true

/-- Files in memory. -/
structure Library where
  /-- The paths and what they lead to. -/
  nodes : List (Text × Node)
deriving DecidableEq, Inhabited

namespace Library

/-- What a path leads to, if it is listed. -/
def node? (l : Library) (path : Text) : Option Node :=
  (l.nodes.find? (·.1 = path)).map (·.2)

/-- The part of a path below a directory. -/
def below? (dir path : Text) : Option Text :=
  if dir = "." then some path else Text.dropPrefix? (dir ++ "/") path

/-- A listed path below a directory, as a name in that directory: what lies deeper shows as the
directory it lies in. The root has no name in itself. -/
def child? (dir : Text) (item : Text × Node) : Option Entry :=
  (below? dir item.1).bind fun name =>
    if (name.after? Path.slash).isSome then some ⟨name.before Path.slash, true⟩
    else if dir = "." && name = "." then none
    else some ⟨name, item.2.isDirectory⟩

/-- An entry as it is shown: an empty name shows as a dot. -/
def shown (e : Entry) : Entry := { e with name := Path.base e.name }

/-- The names directly in a directory, in byte order. A listed path is more than one that only
follows from deeper ones. -/
def children (l : Library) (dir : Text) : List Entry :=
  let all := l.nodes.filterMap (child? dir)
  let deep (item : Text × Node) : Bool :=
    ((below? dir item.1).bind (·.after? Path.slash)).isSome
  let listed := (l.nodes.filter (!deep ·)).filterMap (child? dir)
  let implied := all.filter fun e => !(listed.any (·.name = e.name))
  ((listed ++ implied.eraseDups).map shown).mergeSort fun a b => Text.le a.name b.name

/-- What a path leads to; directories may be there only because something lies in them. -/
def find? (l : Library) (path : Text) : Option Node :=
  if !Path.isLibraryPath path then none
  else match l.node? path with
    | some node => some node
    | none => if path = "." || !(l.children path).isEmpty then some .directory else none

/-- How a library refuses: paths that are none, and files that are listed like a directory. -/
structure Refusals where
  /-- For a path that is no library path. -/
  badPath : Text → FileError
  /-- For a file that is listed like a directory. -/
  notDirectory : Text → FileError

/-- The library as a source of files. -/
def sourceWith {m : Type → Type} [Monad m] (refusals : Refusals) (l : Library) :
    FileSource m where
  isFile path := return match l.find? path with
    | some (.file _) => true
    | _ => false
  list path := do
    if !Path.isLibraryPath path then return .error (refusals.badPath path)
    match l.find? path with
    | none => return .error ⟨"open", path, .notInLibrary⟩
    | some (.file _) => return .error (refusals.notDirectory path)
    | some .directory => return .ok (l.children path)
  read path := return match l.find? path with
    | some (.file content) => .ok content
    | some .directory => .error ⟨"read", path, .invalid⟩
    | none => .error ⟨"open", path, .notInLibrary⟩

/-- A library that was given from outside, as a source of files. -/
def source {m : Type → Type} [Monad m] (l : Library) : FileSource m :=
  l.sourceWith ⟨fun path => ⟨"open", path, .notInLibrary⟩,
    fun path => ⟨"readdir", path, .notImplemented⟩⟩

end Library

/-- A library that is part of the program, as a source of files. -/
def FileSource.builtIn {m : Type → Type} [Monad m] (l : Library) : FileSource m :=
  l.sourceWith ⟨fun path => ⟨"read", path, .invalid⟩, fun path => ⟨"read", path, .notDirectory⟩⟩

/-- A source that may not be opened. -/
def FileSource.denied {m : Type → Type} [Monad m] : FileSource m where
  isFile _ := return false
  list path := return .error ⟨"open", path, .denied⟩
  read path := return .error ⟨"open", path, .denied⟩

end IntLang
