import IntLang.Compile
import IntLang.Encoding
import IntLang.Files.Storage

/-!
# Source files

Loading a source file, whatever its encoding, compiling it, and writing the C++ unit.
-/

namespace IntLang

/-- A source file that has been loaded. -/
structure SourceFile where
  /-- Its name. -/
  name : Text
  /-- The path it was loaded from. -/
  path : Text
  /-- Its text. -/
  content : Text
  /-- Its size in bytes. -/
  size : Nat
  /-- The encoding it was in. -/
  encoding : Encoding
deriving DecidableEq, Inhabited

variable {m : Type → Type} [Monad m] {ε : Type}

/-- Loads a source file. -/
def SourceFile.load (storage : Storage m) (path : Text) : m (Except LoadError SourceFile) := do
  match ← storage.stat path with
  | .error reason => return .error (.unreachable path ⟨"stat", path, reason⟩)
  | .ok info =>
    if info.isDirectory then return .error (.directory path)
    match ← storage.read path with
    | .error reason => return .error (.unreadable path ⟨"open", path, reason⟩)
    | .ok data =>
      let (content, encoding) := Encoding.decode data
      return .ok { name := Path.base path, path, content, size := info.size, encoding }

/-- Loads and compiles a source file. -/
def compileFile (storage : Storage m) (log : Log.Record → m Unit) (headers : Resolver m ε)
    (path : Text) : m (Except (CompileError ε) Compilation) := do
  match ← SourceFile.load storage path with
  | .error cause => return .error (.load cause)
  | .ok file =>
    log { level := .debug, message := "Loaded source",
          attributes := [("path", .text file.path), ("size", .count file.size),
            ("encoding", .text file.encoding.name)] }
    compile log headers file.content

/-- The tokens of a source file. -/
def tokenizeFile (storage : Storage m) (path : Text) :
    m (Except (CompileError ε) (List Token)) := do
  match ← SourceFile.load storage path with
  | .error cause => return .error (.load cause)
  | .ok file => return .ok (tokenize file.content)

/-- Writes a C++ unit to a file. -/
def writeUnit (storage : Storage m) (path output : Text) : m (Except (CompileError ε) Unit) := do
  match ← storage.write path output with
  | .error reason => return .error (.write path ⟨"open", path, reason⟩)
  | .ok () => return .ok ()

end IntLang
