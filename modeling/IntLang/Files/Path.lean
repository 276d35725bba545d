import IntLang.Text.Utf8

/-!
# Slash-separated paths

Paths as texts, taken apart at slashes. `clean` gives each path its shortest spelling: no empty
and no `.` elements, and no `..` behind an element it could take away.

## Main definitions

* `clean`, `join`, `base`, `dir`, `extension`;
* `isLibraryPath`, the paths that name something inside a library of files.
-/

namespace IntLang.Path

/-- The byte that separates elements. -/
def slash : UInt8 := 0x2F

/-- Whether a path begins at the root. -/
def isAbsolute (path : Text) : Bool := path.bytes.head? = some slash

/-- Whether a name can be that of a file: it is not empty and has no slash and no zero byte, and it
is neither of the two that stand for directories. -/
def isPlain (name : Text) : Bool :=
  !(name = "" || name = "." || name = ".." || name.hasByte slash || name.hasByte 0)

/-- Takes one element into a list of elements kept so far, last first. Above the root there is
nothing, so `..` is dropped there. -/
def keepElement (rooted : Bool) (kept : List Text) (element : Text) : List Text :=
  if element = "" || element = "." then kept
  else if element = ".." then
    match kept with
    | [] => if rooted then [] else [element]
    | last :: others => if last = ".." then element :: kept else others
  else element :: kept

/-- The elements of a path that are left in its shortest spelling. -/
def elements (path : Text) : List Text :=
  ((path.splitOn slash).foldl (keepElement (isAbsolute path)) []).reverse

/-- The shortest spelling of a path; `.` for one without elements. -/
def clean (path : Text) : Text :=
  let inner := Text.intercalate "/" (elements path)
  if isAbsolute path then "/" ++ inner
  else if inner.isEmpty then "." else inner

/-- Two paths one behind the other, in the shortest spelling. -/
def join (dir name : Text) : Text :=
  match [dir, name].filter (!·.isEmpty) with
  | [] => ""
  | parts => clean (Text.intercalate "/" parts)

/-- The part of a path up to its last slash, and the rest. -/
def split (path : Text) : Text × Text :=
  let behind := (path.bytes.reverse.takeWhile (· != slash)).reverse
  (⟨path.bytes.take (path.bytes.length - behind.length)⟩, ⟨behind⟩)

/-- The directory a path lies in. -/
def dir (path : Text) : Text := clean (split path).1

/-- The last element of a path, slashes at the end not counted. -/
def base (path : Text) : Text :=
  if path.isEmpty then "."
  else
    let trimmed : Text := ⟨(path.bytes.reverse.dropWhile (· = slash)).reverse⟩
    if trimmed.isEmpty then "/" else (split trimmed).2

/-- The last element from its last dot on; nothing if there is no dot. -/
def extension (path : Text) : Text :=
  let name := (split path).2.bytes
  let behind := (name.reverse.takeWhile (· != 0x2E)).reverse
  if behind.length = name.length then "" else ⟨0x2E :: behind⟩

/-- Whether a path names something inside a library of files: `.` for its root, or elements
none of which is empty, `.` or `..`, all in well-formed characters. -/
def isLibraryPath (path : Text) : Bool :=
  path.isValidUtf8 && (path = "." ||
    (path.splitOn slash).all fun e => !(e = "" || e = "." || e = ".."))

end IntLang.Path
