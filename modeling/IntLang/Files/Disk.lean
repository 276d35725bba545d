import IntLang.Files.Library
import IntLang.Files.Storage

/-!
# A disk in memory

A disk is a list of places with what is there, and one of them is the working directory. A place
is the list of names that lead to it from the root. A path is followed name by name from the root
on, a relative one behind the names of the working directory, and each place on the way has to be a
directory: this is what decides between a file that is missing and a path that leads through a file.

## Main definitions

* `Disk`, `Disk.node?`, `Disk.follow`;
* `Disk.stat`, `Disk.read`, `Disk.list`, `Disk.write`;
* `Disk.ofFiles`, `Disk.changes`.
-/

namespace IntLang

/-- A place on a disk: the names that lead to it from the root. -/
abbrev Place := List Text

/-- The names that lead to the root, which are none, are plain. -/
theorem Path.all_isPlain_nil : ([] : List Text).all isPlain = true := rfl

/-- Places and what is there. -/
structure Disk where
  /-- The places that are taken, each once. -/
  nodes : List (Place × Node) := []
  /-- The working directory. -/
  home : Place := []
  /-- The names that lead to it can stand in a path. -/
  home_plain : home.all Path.isPlain = true := by exact Path.all_isPlain_nil
deriving DecidableEq

instance : Inhabited Disk := ⟨{}⟩

namespace Disk

/-- The longest name a directory takes, in bytes. -/
def longestName : Nat := 255

/-- The longest path that is followed, in bytes. -/
def longestPath : Nat := 4095

/-- What is at a place. The root is always there. -/
def node? (d : Disk) (place : Place) : Option Node :=
  if place.isEmpty then some .directory else d.nodes.lookup place

/-- Puts something at a place. -/
def put (d : Disk) (place : Place) (node : Node) : Disk :=
  if d.nodes.any (·.1 = place) then
    { d with nodes := d.nodes.map fun item => if item.1 = place then (place, node) else item }
  else { d with nodes := d.nodes ++ [(place, node)] }

/-! ### Following paths -/

/-- The place a list of names leads to from a place, which has to be a directory if there are
any names. Above the root is the root. -/
def follow (d : Disk) : Place → List Text → Except FileReason Place
  | place, [] => .ok place
  | place, name :: names =>
    match d.node? place with
    | none => .error .notOnDisk
    | some (.file _) => .error .notDirectory
    | some .directory =>
      if name = "" || name = "." then d.follow place names
      else if name = ".." then d.follow place.dropLast names
      else if longestName < name.size then .error .tooLong
      else d.follow (place ++ [name]) names

/-- The names of a path from the root on. An empty path leads nowhere, and no path has a zero
byte or is longer than `longestPath`. -/
def names (d : Disk) (path : Text) : Except FileReason (List Text) :=
  if path.hasByte 0 then .error .invalid
  else if longestPath < path.size then .error .tooLong
  else if path.isEmpty then .error .notOnDisk
  else .ok ((if Path.isAbsolute path then [] else d.home) ++ path.splitOn Path.slash)

/-- What a path leads to, and where that is. -/
def find (d : Disk) (path : Text) : Except FileReason (Place × Node) := do
  let place ← d.follow [] (← d.names path)
  match d.node? place with
  | some node => .ok (place, node)
  | none => .error .notOnDisk

/-! ### Operations -/

/-- What is known of the file at a path. -/
def stat (d : Disk) (path : Text) : Except FileReason FileInfo := do
  match (← d.find path).2 with
  | .file content => return ⟨false, content.size⟩
  | .directory => return ⟨true, 0⟩

/-- The content of the file at a path. -/
def read (d : Disk) (path : Text) : Except FileReason Text := do
  match (← d.find path).2 with
  | .file content => return content
  | .directory => .error .isDirectory

/-- The names in the directory at a path, in byte order. -/
def list (d : Disk) (path : Text) : Except FileReason (List Entry) := do
  let (place, node) ← d.find path
  match node with
  | .file _ => .error .notDirectory
  | .directory =>
    let inside := d.nodes.filterMap fun item =>
      match item.1.getLast? with
      | some name =>
        if item.1.dropLast = place then some ⟨name, item.2.isDirectory⟩ else none
      | none => none
    return inside.mergeSort fun a b => Text.le a.name b.name

/-- The names of a path without empty ones at its end, and whether there were any. -/
def trimNames (names : List Text) : List Text × Bool :=
  let kept := (names.reverse.dropWhile (·.isEmpty)).reverse
  (kept, kept.length < names.length)

/-- Where a file with a path would be made. A path that ends in a slash can only be a
directory, and so can one that ends in dots. -/
def target (d : Disk) (path : Text) : Except FileReason Place := do
  let (kept, slashed) := trimNames (← d.names path)
  match kept.getLast? with
  | none => .error .isDirectory
  | some name =>
    let dir ← d.follow [] kept.dropLast
    match d.node? dir with
    | none => .error .notOnDisk
    | some (.file _) => .error .notDirectory
    | some .directory =>
      if slashed || name = "." || name = ".." then .error .isDirectory
      else if longestName < name.size then .error .tooLong
      else match d.node? (dir ++ [name]) with
        | some .directory => .error .isDirectory
        | _ => .ok (dir ++ [name])

/-- Makes a file, or gives it a new content. -/
def write (d : Disk) (path content : Text) : Except FileReason Disk := do
  return d.put (← d.target path) (.file content)

/-! ### Beginning and end -/

/-- The places above a place, the nearest last, without the root. -/
def above (place : Place) : List Place :=
  ((List.range place.length).drop 1).map place.take

/-- Puts something at a place, and directories above it. -/
def putDeep (d : Disk) (place : Place) (node : Node) : Disk :=
  let d := (above place).foldl (fun d p => if (d.node? p).isSome then d else d.put p .directory) d
  d.put place node

/-- A disk with a working directory that holds some files, and the directories they lie in. -/
def ofFiles (home : Place) (files : List (Text × Node))
    (home_plain : home.all Path.isPlain = true := by rfl) : Disk :=
  files.foldl (fun d item => d.putDeep (home ++ Path.elements item.1) item.2)
    (putDeep { home, home_plain } home .directory)

/-- The path of a place below another. -/
def path (place : Place) : Text := Text.intercalate "/" place

/-- The absolute form of a path, in its shortest spelling. -/
def absolute (d : Disk) (path : Text) : Text :=
  if Path.isAbsolute path then Path.clean path
  else Path.join ("/" ++ Disk.path d.home) path

/-- The files below the working directory that are new or have another content than before. -/
def changes (before after : Disk) : List (Text × Text) :=
  after.nodes.filterMap fun item =>
    match item.2 with
    | .file content =>
      if before.node? item.1 = some (.file content) || !after.home.isPrefixOf item.1 then none
      else some (path (item.1.drop after.home.length), content)
    | .directory => none

end Disk

end IntLang
