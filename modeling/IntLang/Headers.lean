import IntLang.Cpp.Unit
import IntLang.Headers.Standard

/-!
# Headers by name

An import of `io` means the file `io.hpp`, in whatever case, in the first source that has it.
The sources are, by default, a directory on disk if there is one, and the standard headers.

## Main definitions

* `Headers.resolve`, the text of a header;
* `Headers.available`, the names that can be imported;
* `Headers.HeaderError`.
-/

namespace IntLang.Headers

/-- What is put behind a name to make the name of a file. -/
def extension : Text := ".hpp"

/-- Where headers on disk are by default. -/
def defaultDir : Text := "cppstd"

/-- Why there is no text for a name. -/
inductive HeaderError where
  /-- The name cannot be the name of a file. -/
  | badName (name : Text)
  /-- A source failed for another reason than not having the file. -/
  | unreadable (file : Text) (cause : LookupError)
  /-- No source has the file. -/
  | missing (file : Text) (available : List Text)
deriving DecidableEq

namespace HeaderError

/-- The message of a failed look-up. -/
def message : HeaderError → Text
  | badName name => "invalid header name " ++ name.quote
  | unreadable file cause => "failed to read " ++ file ++ ": " ++ cause.message
  | missing file available =>
    "header " ++ file ++ " not found (available: " ++ Text.intercalate ", " available
      ++ "): file does not exist"

/-- Whether the reason is that there is no such file. -/
def isAbsence : HeaderError → Bool
  | badName _ => false
  | unreadable _ cause => cause.isAbsence
  | missing _ _ => true

end HeaderError

/-- Whether a name can be the name of a header: it is not empty, stays in its directory, and has
no slash of either kind. -/
def isHeaderName (name : Text) : Bool :=
  !(name = "" || name = "." || name = ".." || name.hasByte 0x2F || name.hasByte 0x5C)

variable {m : Type → Type} [Monad m]

/-- The names of the headers in a source; none if it cannot be listed. -/
def namesIn (source : FileSource m) : m (List Text) := do
  match ← source.withExtension "." extension with
  | .ok files => return files.map fun f => (f.dropEnd extension.size).toLower
  | .error _ => return []

/-- The names that the sources have, each once, in the order of the sources. -/
def available (sources : List (FileSource m)) : m (List Text) := do
  let names ← sources.mapM namesIn
  return names.flatten.eraseDups

/-- The content of a file in the first source that has it; `none` if no source does. -/
def search (file : Text) : List (FileSource m) → m (Except HeaderError (Option Text))
  | [] => return .ok none
  | source :: others => do
    match ← source.readAnyCase file with
    | .ok content => return .ok (some content)
    | .error cause =>
      if cause.isAbsence then search file others else return .error (.unreadable file cause)

/-- The text of the header with a name. -/
def resolve (sources : List (FileSource m)) (name : Text) : m (Except HeaderError Text) := do
  if !isHeaderName name then return .error (.badName name)
  let file := name ++ extension
  match ← search file sources with
  | .error cause => return .error cause
  | .ok (some content) => return .ok content
  | .ok none => return .error (.missing file (← available sources))

/-- The sources as a resolver of imports. -/
def resolver (sources : List (FileSource m)) : Resolver m HeaderError :=
  .ask (resolve sources)

end IntLang.Headers
