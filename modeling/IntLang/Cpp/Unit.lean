import IntLang.Cpp

/-!
# The C++ unit

A program is written as four sections under banners: the standard part, the globals, the
declarations of all functions, and their definitions. In the globals an `import` with a name
behind it is replaced, together with one semicolon that may follow, by the text of a header;
whoever calls supplies the headers.

Headers are asked for in order, each once per import, and nothing is asked for behind the first
failure. Since asking may be an effect, everything here works in any monad.

## Main definitions

* `Item` and `items`, the global region with its imports made out;
* `Resolver`, where headers come from;
* `cppUnit`, the whole text.
-/

namespace IntLang

/-! ### Imports -/

/-- A piece of the global region. -/
inductive Item where
  /-- A header to be put in. -/
  | header (name : Text)
  /-- Any other token. -/
  | token (t : Token)
deriving DecidableEq

/-- The global region with its imports made out. An `import` without a name behind it is a token
like any other. -/
def items : List Token → List Item
  | [] => []
  | .keyword .importHeader :: .ident name :: .operator .semicolon :: rest =>
    .header name :: items rest
  | .keyword .importHeader :: .ident name :: rest => .header name :: items rest
  | t :: rest => .token t :: items rest

/-- The names that are imported, in order. -/
def Item.headers (is : List Item) : List Text :=
  is.filterMap fun
    | .header name => some name
    | .token _ => none

/-- Where the texts of headers come from: nowhere, or a look-up that may fail. -/
inductive Resolver (m : Type → Type) (ε : Type) where
  /-- There are no headers. -/
  | absent
  /-- Asks for the header of a name. -/
  | ask (resolve : Text → m (Except ε Text))

/-- Why a header could not be put in. -/
inductive ImportCause (ε : Type) where
  /-- There are no headers. -/
  | noResolver
  /-- The look-up failed. -/
  | refused (cause : ε)
deriving DecidableEq

/-- An import that failed. -/
structure ImportError (ε : Type) where
  /-- The name of the header. -/
  name : Text
  /-- Why it failed. -/
  cause : ImportCause ε
deriving DecidableEq

namespace ImportError

/-- The sentence that reports a failed import. -/
def sentence (name cause : Text) : Text := "import " ++ name.quote ++ ": " ++ cause

/-- The message of a failed import, given the wording of the look-up's failures. -/
def message {ε : Type} (wording : ε → Text) (e : ImportError ε) : Text :=
  sentence e.name <| match e.cause with
    | .noResolver => "no header resolver configured"
    | .refused cause => wording cause

end ImportError

namespace Resolver

variable {m : Type → Type} [Monad m] {ε : Type}

/-- The text of the header of a name. -/
def header (r : Resolver m ε) (name : Text) : m (Except (ImportError ε) Text) := do
  match r with
  | .absent => return .error ⟨name, .noResolver⟩
  | .ask resolve =>
    match ← resolve name with
    | .ok text => return .ok text
    | .error cause => return .error ⟨name, .refused cause⟩

/-- The text of one piece of the global region. -/
def item (r : Resolver m ε) : Item → m (Except (ImportError ε) Text)
  | .header name => r.header name
  | .token t => return .ok (Cpp.token t)

/-- The text of the global region, up to the first header that fails. -/
def spliced (r : Resolver m ε) : List Item → m (Except (ImportError ε) Text)
  | [] => return .ok .empty
  | i :: is => do
    match ← r.item i with
    | .error e => return .error e
    | .ok text =>
      match ← r.spliced is with
      | .error e => return .error e
      | .ok rest => return .ok (text ++ rest)

end Resolver

/-! ### Sections -/

namespace Cpp

/-- What every unit begins with. The last line gives the entry point back its
proper name. -/
def preamble : Text :=
  "/* ===STD=== */\n#include <string>\n#include <vector>\n#define " ++ ident "main" ++ " main\n"

/-- The line above the globals. -/
def globalsBanner : Text := "\n/* ===GLOBALS=== */\n"

/-- The line above the declarations. -/
def declarationsBanner : Text := "\n/* ===FUNCTION DECLARATIONS=== */\n"

/-- The line above the definitions. -/
def definitionsBanner : Text := "\n/* ===FUNCTION DEFINITIONS=== */\n"

/-- The declarations of functions, each with its end. -/
def declarations (fs : List Function) : Text :=
  .concat (fs.map fun f => declaration f ++ operator .semicolon)

/-- The definitions of functions. -/
def definitions (fs : List Function) : Text := .concat (fs.map definition)

/-- A unit, given the text of its globals. -/
def sections (globals : Text) (fs : List Function) : Text :=
  preamble ++ globalsBanner ++ globals ++ declarationsBanner ++ declarations fs
    ++ definitionsBanner ++ definitions fs

end Cpp

/-- The C++ unit of a program. -/
def cppUnit {m : Type → Type} [Monad m] {ε : Type} (r : Resolver m ε) (p : Program) :
    m (Except (ImportError ε) Text) := do
  match ← r.spliced (items p.globals) with
  | .error e => return .error e
  | .ok globals => return .ok (Cpp.sections globals p.functions)

end IntLang
