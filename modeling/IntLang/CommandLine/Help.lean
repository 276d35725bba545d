import IntLang.CommandLine.Command

/-!
# Help

What the program says about itself, its commands and its flags.
-/

namespace IntLang.CommandLine

/-! ### Flags -/

/-- The left column of a flag: letter, name, and the kind of value. -/
def Flag.column (f : Flag) : Text :=
  (match f.letter with
    | some c => "  -" ++ .singleton c ++ ", --"
    | none => "      --")
    ++ f.name
    ++ match f.kind with
      | .text _ => " string"
      | .number => " int"
      | .switch => ""

/-- The right column of a flag: its use, and its default if it has one. -/
def Flag.remark (f : Flag) : Text :=
  f.usage ++ match f.kind with
    | .text default => " (default " ++ default.quote ++ ")"
    | _ => ""

/-- A list of flags, one a line, the right column aligned. -/
def flagLines (fs : List Flag) : Text :=
  let width := (fs.map (·.column.size)).foldl max 0
  Text.lines (fs.map fun f => f.column.padRight width ++ "   " ++ f.remark)

/-- The flags of the whole program, with help in its place by name. -/
def programFlags : List Flag :=
  (helpFlag "intc" :: configFlags).mergeSort fun a b => Text.le a.name b.name

/-! ### Topics -/

/-- What a command does, in a line. -/
def Command.summary : Command → Text
  | build => "C++ に変換してコンパイルする（デフォルト）"
  | translate => "C++ への変換のみ行う"
  | tokens => "トークン列を1行に1つずつ表示する"

/-- What the program does, and the environment it reads. -/
def description : Text := Text.lines [
  "intc は .int ソースを C++ の翻訳単位に変換し、C++ コンパイラで実行ファイルを生成する。",
  "",
  "環境変数（フラグ未指定時に使用）:",
  "  LOG_LEVEL=<level>   ログレベル",
  "  INTC_CXX=<name>     コンパイラ（g++, clang++）",
  "  INTC_STD=<std>      C++ 標準（c++98, c++11, c++14, c++17, c++20）",
  "  INTC_OPT=<profile>  最適化（none, size, speed, balanced）",
  "  TIMEOUT=<seconds>   コンパイラ実行のタイムアウト（秒）",
  ""]

/-- How the program is called. -/
def calling : Text := Text.lines [
  "Usage:",
  "  intc [input] [flags]",
  "  intc [command]",
  "",
  "Examples:",
  "  intc                         main.int を変換して main.exe を生成",
  "  intc translate src/app.int   C++ への変換のみ",
  "  intc tokens main.int         トークン列を表示",
  "  intc --std c++20 --opt size  標準と最適化を指定",
  "  intc --watch --no-compile    変更のたびに再変換",
  ""]

/-- The commands, by name. -/
def commandLines : Text :=
  let entry (name summary : Text) : Text := "  " ++ name.padRight 11 ++ " " ++ summary
  Text.lines ["Available Commands:",
    entry "build" Command.build.summary,
    entry "help" "Help about any command",
    entry "tokens" Command.tokens.summary,
    entry "translate" Command.translate.summary,
    ""]

/-- Help about the whole program. -/
def programHelp : Text :=
  description ++ calling ++ commandLines ++ "Flags:\n" ++ flagLines programFlags
    ++ "\nUse \"intc [command] --help\" for more information about a command.\n"

/-- Help about one command: what it does, how it is called, and the flags. -/
def commandHelp (summary name arguments : Text) : Text :=
  summary ++ "\n\nUsage:\n  intc " ++ name ++ " " ++ arguments ++ " [flags]\n\nFlags:\n"
    ++ flagLines [helpFlag name] ++ "\nGlobal Flags:\n" ++ flagLines configFlags

/-- Help about a topic. -/
def Topic.text : Topic → Text
  | program => programHelp
  | command c => commandHelp c.summary c.name "[input]"
  | .help =>
    commandHelp ("Help provides help for any command in the application.\n"
      ++ "Simply type intc help [path to command] for full details.") "help" "[command]"

end IntLang.CommandLine
