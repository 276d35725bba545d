import IntLang.Cpp.Unit
import IntLang.Files.Error
import IntLang.Log
import IntLang.Program.Segment
import IntLang.Token.Lexer

/-!
# Compiling a source text

Compiling goes through three phases: the text is cut into tokens, the tokens are segmented into
a program, and the program is written as a C++ unit. The first never fails; the first failure of
the other two is the answer, and a failed segmentation is shown with the tokens around the place
where it failed.

## Main definitions

* `contextAt` and `errorContext`, the tokens around a place;
* `CompileError`, with its phase and message;
* `compile`.
-/

namespace IntLang

/-! ### The place of an error -/

/-- The places shown around `index` in a stream of `size` tokens: two on each side, and at most
the one behind the last token. -/
def contextPlaces (size index : Nat) : List Nat :=
  List.range' (index - 2) (min (size + 1) (index + 3) - (index - 2))

/-- The line of the place `i`: its number in `width` columns and what is there, with a mark if it is
the place `index`. -/
def contextLine (tokens : List Token) (index width i : Nat) : Text :=
  (if i = index then "> " else "  ") ++ (Text.ofNat i).padLeft width ++ " | "
    ++ Token.describeAt tokens i

/-- The tokens around a place, one a line, that place marked. -/
def contextAt (tokens : List Token) (index : Nat) : Text :=
  let places := contextPlaces tokens.length index
  let width := (places.getLast?.map fun i => (Text.ofNat i).size).getD 0
  .lines (places.map (contextLine tokens index width))

/-- The tokens around a place that is counted in 64 bits. There are none around a place before the
first token, nor around one so far behind that the sums wrap. -/
def errorContext (tokens : List Token) (index : Int64) : Text :=
  if index < 0 || index + 3 < 0 then "" else contextAt tokens index.toNatClampNeg

/-! ### Errors -/

/-- Why a source file could not be loaded. -/
inductive LoadError where
  | unreachable (path : Text) (cause : FileError)
  | directory (path : Text)
  | unreadable (path : Text) (cause : FileError)
deriving DecidableEq

/-- The message of a failed load. -/
def LoadError.message : LoadError → Text
  | unreachable path cause => "failed to stat file " ++ path ++ ": " ++ cause.message
  | directory path => path ++ " is a directory"
  | unreadable path cause => "failed to read file " ++ path ++ ": " ++ cause.message

/-- The file error behind a failed load. -/
def LoadError.fileError? : LoadError → Option FileError
  | unreachable _ cause => some cause
  | directory _ => none
  | unreadable _ cause => some cause

/-- The failure of one phase. -/
inductive CompileError (ε : Type) where
  | load (cause : LoadError)
  | segment (cause : Misfit) (context : Text)
  | generate (cause : ImportError ε)
  | write (path : Text) (cause : FileError)
deriving DecidableEq

namespace CompileError

variable {ε : Type}

/-- The phase that failed. -/
def phase : CompileError ε → Text
  | load _ => "load"
  | segment _ _ => "parser"
  | generate _ => "codegen"
  | write _ _ => "write"

/-- The place of the failure in the token stream, where it has one. -/
def index? : CompileError ε → Option Nat
  | segment cause _ => some cause.index
  | _ => none

/-- The tokens around the place of the failure. -/
def context : CompileError ε → Text
  | segment _ context => context
  | _ => ""

/-- The message of what went wrong in the phase. -/
def causeMessage (wording : ε → Text) : CompileError ε → Text
  | load cause => cause.message
  | segment cause _ => cause.message
  | generate cause => cause.message wording
  | write path cause => "failed to write " ++ path ++ ": " ++ cause.message

/-- The sentence that reports the failure of a phase; with a context, it also names the place. -/
def sentence (phase : Text) (index : Int) (context cause : Text) : Text :=
  if context.isEmpty then phase ++ " error: " ++ cause
  else phase ++ " error at token " ++ .ofInt index ++ ": " ++ cause ++ "\n" ++ context

/-- The place as a number; -1 where there is none. -/
def indexNumber (e : CompileError ε) : Int :=
  match e.index? with
  | some n => n
  | none => -1

/-- The message of the failure. -/
def message (wording : ε → Text) (e : CompileError ε) : Text :=
  sentence e.phase e.indexNumber e.context (e.causeMessage wording)

end CompileError

/-! ### The phases -/

/-- Everything that compiling yields. -/
structure Compilation where
  /-- The tokens of the source. -/
  tokens : List Token
  /-- The segmented program. -/
  program : Program
  /-- The C++ unit. -/
  output : Text
deriving DecidableEq

/-- Compiles a source text, telling `log` about each phase. -/
def compile {m : Type → Type} [Monad m] {ε : Type} (log : Log.Record → m Unit)
    (headers : Resolver m ε) (source : Text) : m (Except (CompileError ε) Compilation) := do
  let tokens := tokenize source
  log { level := .debug, message := "Tokenized source",
        attributes := [("bytes", .count source.size), ("tokens", .count tokens.length)] }
  match segment tokens with
  | .error misfit =>
    return .error (.segment misfit (contextAt tokens misfit.index))
  | .ok program =>
    log { level := .debug, message := "Segmented program",
          attributes := [("functions", .count program.order.length),
            ("globals", .count program.globals.length)] }
    match ← cppUnit headers program with
    | .error cause => return .error (.generate cause)
    | .ok output =>
      log { level := .debug, message := "Generated translation unit",
            attributes := [("bytes", .count output.size), ("elapsed", .elapsed)] }
      return .ok { tokens, program, output }

end IntLang
