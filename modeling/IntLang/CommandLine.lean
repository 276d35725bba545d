import IntLang.CommandLine.Arguments
import IntLang.CommandLine.Help
import IntLang.Text.Case

/-!
# The command line

The arguments select a command and set flags; variables of the environment stand in for flags
that were not given. The result is a configuration, checked as a whole, or a wish for help.

## Main definitions

* `Settings` and `Config`;
* `Environment`, `Settings.withEnvironment`;
* `Request` and `CommandLine.parse`;
* `ParseError`.
-/

namespace IntLang.CommandLine

/-! ### Settings -/

/-- The value a flag was given last. -/
def lastGiven (given : List Assignment) (flag : FlagId) : Option FlagValue :=
  (given.reverse.find? (·.flag = flag)).map (·.value)

/-- Whether a flag was given at all. -/
def isGiven (given : List Assignment) (flag : FlagId) : Bool := given.any (·.flag = flag)

/-- The text a flag was given last, or else a default. -/
def textOf (given : List Assignment) (flag : FlagId) (default : Text) : Text :=
  match lastGiven given flag with
  | some (.text t) => t
  | _ => default

/-- Whether a switch is on. -/
def switchOf (given : List Assignment) (flag : FlagId) : Bool :=
  match lastGiven given flag with
  | some (.switch b) => b
  | _ => false

/-- The number a flag was given last, or else zero. -/
def numberOf (given : List Assignment) (flag : FlagId) : Int64 :=
  match lastGiven given flag with
  | some (.number n) => n
  | _ => 0

/-- What the flags say. -/
structure Settings where
  /-- The source file. -/
  input : Text
  /-- The C++ file. -/
  output : Text
  /-- The executable. -/
  executable : Text
  /-- Where headers are looked for. -/
  headerDir : Text
  /-- The least level that is logged. -/
  logLevel : Text
  /-- The format of the log. -/
  logFormat : Text
  /-- The C++ compiler. -/
  compiler : Text
  /-- The C++ standard. -/
  standard : Text
  /-- The optimization profile. -/
  optimization : Text
  /-- How many seconds the compiler may take; 0 for any number. -/
  timeout : Int64
  /-- Whether the C++ file is all that is wanted. -/
  noCompile : Bool
  /-- Whether to go on whenever the source file changes. -/
  watch : Bool
deriving DecidableEq, Inhabited

/-- What the flags say that were given. -/
def Settings.ofGiven (given : List Assignment) : Settings where
  input := textOf given .input "main.int"
  output := textOf given .output "main_intermediate.cpp"
  executable := textOf given .executable "main.exe"
  headerDir := textOf given .headerDir "cppstd"
  logLevel := textOf given .logLevel "info"
  logFormat := textOf given .logFormat "text"
  compiler := textOf given .compiler "g++"
  standard := textOf given .standard "c++17"
  optimization := textOf given .optimization "speed"
  timeout := numberOf given .timeout
  noCompile := switchOf given .noCompile
  watch := switchOf given .watch

/-! ### The environment -/

/-- The variables of the environment that are set. -/
abbrev Environment := List (Text × Text)

/-- The value of a variable; empty if it is not set. -/
def Environment.value (env : Environment) (name : Text) : Text := (env.lookup name).getD ""

/-- A setting that a variable stands in for: the flag's value if the flag was given, else the
variable in lower case if it is not empty, else the value there is. -/
def orVariable (env : Environment) (given : List Assignment) (flag : FlagId) (name value : Text) :
    Text :=
  if isGiven given flag || (env.value name).isEmpty then value else (env.value name).toLower

/-- The seconds a variable asks for; only a positive decimal number counts. -/
def Environment.seconds? (env : Environment) : Option Int64 :=
  (((env.value "TIMEOUT").integerWithin? 64).filter (0 < ·)).map Int64.ofInt

/-- The settings with the environment standing in for flags that were not given. -/
def Settings.withEnvironment (env : Environment) (given : List Assignment) (s : Settings) :
    Settings :=
  { s with
    logLevel := orVariable env given .logLevel "LOG_LEVEL" s.logLevel
    compiler := orVariable env given .compiler "INTC_CXX" s.compiler
    standard := orVariable env given .standard "INTC_STD" s.standard
    optimization := orVariable env given .optimization "INTC_OPT" s.optimization
    timeout := if isGiven given .timeout then s.timeout else env.seconds?.getD s.timeout }

/-! ### Checking -/

/-- A command and its settings. -/
structure Config where
  /-- What to do. -/
  command : Command
  /-- How to do it. -/
  settings : Settings
deriving DecidableEq, Inhabited

/-- The time the compiler may take, in nanoseconds: 64 bits, in which a large number of seconds
wraps. -/
def Config.timeoutNanoseconds (c : Config) : Int64 := c.settings.timeout * 1000000000

/-- Why there is no configuration. -/
inductive ParseError where
  /-- The arguments could not be read. -/
  | arguments (cause : ArgumentError)
  /-- There are too many words. -/
  | tooManyWords (count : Nat)
  /-- The time the compiler may take is negative. -/
  | negativeTimeout (seconds : Int64)
  /-- A setting is empty that must not be. -/
  | emptySetting (flag : Text)
  /-- A setting is none of those that are allowed. -/
  | badSetting (flag value : Text) (choices : List Text)

/-- The message of a failed parse. -/
def ParseError.message : ParseError → Text
  | arguments cause => cause.message
  | tooManyWords count => "accepts at most 1 arg(s), received " ++ .ofNat count
  | negativeTimeout seconds =>
    "timeout must be non-negative, got " ++ .ofInt seconds.toInt
  | emptySetting flag => flag ++ " must not be empty"
  | badSetting flag value choices =>
    "invalid " ++ flag ++ ": " ++ value ++ " (must be one of "
      ++ Text.intercalate ", " choices ++ ")"

/-- The levels of logging that are allowed. -/
def levelChoices : List Text := ["debug", "info", "warn", "error"]

/-- The formats of the log that are allowed. -/
def formatChoices : List Text := ["text", "json"]

/-- The compilers that are allowed. -/
def compilerChoices : List Text := ["g++", "clang++"]

/-- The standards that are allowed. -/
def standardChoices : List Text := ["c++98", "c++11", "c++14", "c++17", "c++20"]

/-- The optimization profiles that are allowed. -/
def optimizationChoices : List Text := ["none", "size", "speed", "balanced"]

/-- Complains about a setting that is empty. -/
def requireText (flag value : Text) : Except ParseError Unit :=
  if value.isEmpty then .error (.emptySetting flag) else .ok ()

/-- Complains about a setting that is none of the choices. -/
def requireOneOf (flag value : Text) (choices : List Text) : Except ParseError Unit :=
  if choices.contains value then .ok () else .error (.badSetting flag value choices)

/-- Checks the settings one by one; the first fault is the answer. -/
def Settings.check (s : Settings) : Except ParseError Unit := do
  if s.timeout < 0 then .error (.negativeTimeout s.timeout)
  requireText "input" s.input
  requireText "output" s.output
  requireText "exe" s.executable
  requireOneOf "log-level" s.logLevel levelChoices
  requireOneOf "log-format" s.logFormat formatChoices
  requireOneOf "cxx" s.compiler compilerChoices
  requireOneOf "std" s.standard standardChoices
  requireOneOf "opt" s.optimization optimizationChoices

/-! ### All of it -/

/-- What the command line asks for. -/
inductive Request where
  /-- Help about a topic; nothing has been checked. -/
  | help (topic : Topic) (settings : Settings)
  /-- Something to do. -/
  | run (config : Config)

/-- The settings of a command whose words and flags are read. A word stands for the source file
and beats the flag for it. -/
def configure (env : Environment) (command : Command) (arguments : Arguments) :
    Except ParseError Config := do
  if 1 < arguments.words.length then .error (.tooManyWords arguments.words.length)
  let settings := Settings.ofGiven arguments.given
  let settings := { settings with input := arguments.words.head?.getD settings.input }
  let settings := settings.withEnvironment env arguments.given
  settings.check
  return { command, settings }

/-- What the arguments and the environment ask for. -/
def parse (args : List Text) (env : Environment) : Except ParseError Request := do
  let (topic, rest) := selectTopic args
  let arguments ← (Arguments.read rest).mapError ParseError.arguments
  let settings := Settings.ofGiven arguments.given
  if switchOf arguments.given .help then return .help topic settings
  match topic with
  | .help => return .help (selectTopic arguments.words).1 settings
  | .program => return .run (← configure env .build arguments)
  | .command command => return .run (← configure env command arguments)

end IntLang.CommandLine
