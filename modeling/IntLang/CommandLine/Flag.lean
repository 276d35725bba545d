import IntLang.CommandLine.Integer
import IntLang.Text.Quoted

/-!
# Flags

The flags of the command line: their names, the single letters some of them have, what kind of
value they take, and what help says about them. A switch is given by its name alone; any other
flag needs a value.

## Main definitions

* `FlagId`, `FlagKind`, `Flag` and `flags`, the table;
* `FlagKind.read`, the value a text stands for;
* `ValueError`.
-/

namespace IntLang.CommandLine

/-! ### The table -/

/-- The flags. -/
inductive FlagId where
  | input
  | output
  | executable
  | headerDir
  | logLevel
  | logFormat
  | compiler
  | standard
  | optimization
  | timeout
  | noCompile
  | watch
  | help
deriving DecidableEq, Inhabited

/-- What a flag takes. -/
inductive FlagKind where
  /-- Any text. -/
  | text (default : Text)
  /-- An integer of 64 bits. -/
  | number
  /-- A truth value, true if none is given. -/
  | switch
deriving DecidableEq, Inhabited

/-- A flag. -/
structure Flag where
  /-- Which flag it is. -/
  id : FlagId
  /-- Its name. -/
  name : Text
  /-- Its letter, if it has one. -/
  letter : Option UInt8
  /-- What it takes. -/
  kind : FlagKind
  /-- What help says about it. -/
  usage : Text
deriving Inhabited

/-- The flag that asks for help about a command. -/
def helpFlag (command : Text) : Flag :=
  ⟨.help, "help", some 0x68, .switch, "help for " ++ command⟩

/-- All other flags, by name. -/
def configFlags : List Flag :=
  [⟨.compiler, "cxx", none, .text "g++", "C++ コンパイラ（g++, clang++）"⟩,
   ⟨.executable, "exe", some 0x65, .text "main.exe", "生成する実行ファイル"⟩,
   ⟨.headerDir, "header-dir", none, .text "cppstd",
    "import で読むヘッダーのディレクトリ（無ければ組み込みライブラリ）"⟩,
   ⟨.input, "input", some 0x69, .text "main.int", "入力ファイル"⟩,
   ⟨.logFormat, "log-format", none, .text "text", "ログ形式（text, json）"⟩,
   ⟨.logLevel, "log-level", some 0x6C, .text "info", "ログレベル（debug, info, warn, error）"⟩,
   ⟨.noCompile, "no-compile", none, .switch, "C++ ファイルの生成のみ行う"⟩,
   ⟨.optimization, "opt", none, .text "speed", "最適化（none, size, speed, balanced）"⟩,
   ⟨.output, "output", some 0x6F, .text "main_intermediate.cpp", "生成する C++ ファイル"⟩,
   ⟨.standard, "std", none, .text "c++17", "C++ 標準（c++98, c++11, c++14, c++17, c++20）"⟩,
   ⟨.timeout, "timeout", some 0x74, .number, "コンパイラ実行のタイムアウト（秒）"⟩,
   ⟨.watch, "watch", some 0x77, .switch, "入力ファイルの変更を監視して再変換"⟩]

/-- All flags, as far as reading them goes. -/
def flags : List Flag := helpFlag "" :: configFlags

/-- The flag of a name. -/
def flagNamed? (name : Text) : Option Flag := flags.find? (·.name = name)

/-- The flag of a letter. -/
def flagLettered? (letter : UInt8) : Option Flag := flags.find? (·.letter = some letter)

/-- How a flag is called in complaints about its value. -/
def Flag.title (f : Flag) : Text :=
  match f.letter with
  | some c => "-" ++ .singleton c ++ ", --" ++ f.name
  | none => "--" ++ f.name

/-! ### Values -/

/-- The value of a flag. -/
inductive FlagValue where
  | text (t : Text)
  | number (n : Int64)
  | switch (b : Bool)
deriving DecidableEq, Inhabited

/-- What is wrong with a value. -/
inductive ValueError where
  /-- It is no integer, or none of 64 bits. -/
  | integer (cause : IntegerError)
  /-- It is no truth value. -/
  | truthValue
deriving DecidableEq

/-- The complaint about a value. -/
def ValueError.message (value : Text) : ValueError → Text
  | integer .malformed => "strconv.ParseInt: parsing " ++ value.quote ++ ": invalid syntax"
  | integer .outOfRange => "strconv.ParseInt: parsing " ++ value.quote ++ ": value out of range"
  | truthValue => "strconv.ParseBool: parsing " ++ value.quote ++ ": invalid syntax"

/-- The texts that mean true. -/
def trueTexts : List Text := ["1", "t", "T", "TRUE", "true", "True"]

/-- The texts that mean false. -/
def falseTexts : List Text := ["0", "f", "F", "FALSE", "false", "False"]

/-- The truth value a text stands for. -/
def readTruthValue (t : Text) : Except ValueError Bool :=
  if trueTexts.contains t then .ok true
  else if falseTexts.contains t then .ok false
  else .error .truthValue

/-- The value a text stands for. -/
def FlagKind.read (kind : FlagKind) (t : Text) : Except ValueError FlagValue :=
  match kind with
  | .text _ => .ok (.text t)
  | .number =>
    match readInteger t with
    | .ok n => .ok (.number n)
    | .error cause => .error (.integer cause)
  | .switch => (readTruthValue t).map .switch

end IntLang.CommandLine
