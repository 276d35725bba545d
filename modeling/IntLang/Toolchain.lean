import IntLang.Files.Error
import IntLang.Files.Path
import IntLang.Log
import IntLang.Text.Case
import IntLang.Toolchain.Version

/-!
# The C++ toolchain

A C++ unit is compiled by a compiler of the host, for a C++ standard and with an optimization
profile. Before it is given any work, the compiler is asked for its version, which has to be a
release that knows the standard.

Commands are run by whoever calls; everything here works in any monad that can run one.

## Main definitions

* `Toolchain.Config`, `Toolchain.Config.parse`;
* `Toolchain.Requirement` and `Toolchain.requirement?`, what a standard asks of a compiler;
* `Toolchain.check` and `Toolchain.build`;
* `Toolchain.ToolError`.
-/

namespace IntLang.Toolchain

/-! ### Configuration -/

/-- Which compiler, for which standard, with which profile. The words need not be known. -/
structure Config where
  /-- The name of the compiler. -/
  compiler : Text := "g++"
  /-- The C++ standard. -/
  standard : Text := "c++17"
  /-- The optimization profile. -/
  optimization : Text := "speed"
deriving DecidableEq, Inhabited

/-- What a standard asks of a compiler: a release with at least certain numbers. -/
structure Requirement where
  /-- How the numbers are written. -/
  spelling : Text
  /-- The least version. -/
  least : Version
deriving DecidableEq, Inhabited

/-- Whether a version meets a requirement. A pre-release never does. -/
def Requirement.admits (r : Requirement) (v : Version) : Bool :=
  v.preRelease.isEmpty && v.atLeast r.least

/-- The requirement of a least version. -/
def atLeast (spelling : Text) (major minor : Nat) : Requirement :=
  { spelling := ">=" ++ spelling, least := { major, minor, patch := 0 } }

/-- For each compiler, what each standard asks of it. -/
def requirements : List (Text × List (Text × Requirement)) :=
  [("g++",
    [("c++98", atLeast "3.0" 3 0), ("c++11", atLeast "4.7" 4 7), ("c++14", atLeast "5" 5 0),
      ("c++17", atLeast "5" 5 0), ("c++20", atLeast "10" 10 0)]),
   ("clang++",
    [("c++98", atLeast "2.7" 2 7), ("c++11", atLeast "3.3" 3 3), ("c++14", atLeast "3.5" 3 5),
      ("c++17", atLeast "5" 5 0), ("c++20", atLeast "10" 10 0)])]

/-- The optimization profiles and their flags. -/
def profiles : List (Text × Text) :=
  [("none", "-O0"), ("size", "-Os"), ("speed", "-Ofast"), ("balanced", "-O2")]

/-- What a standard asks of a compiler; `none` if either is not known. -/
def requirement? (compiler standard : Text) : Option Requirement :=
  (requirements.lookup compiler).bind (·.lookup standard)

/-- The flag of a standard. -/
def standardFlag (standard : Text) : Text := "-std=" ++ standard

/-- The flag of a profile; empty if the profile is not known. -/
def optimizationFlag (optimization : Text) : Text := (profiles.lookup optimization).getD ""

/-- A word of the configuration that is not known. -/
inductive ConfigError where
  | compiler (word : Text)
  | standard (word : Text)
  | optimization (word : Text)
deriving DecidableEq

/-- The message about a word that is not known. -/
def ConfigError.message : ConfigError → Text
  | compiler word => "unknown compiler: " ++ word ++ " (must be g++ or clang++)"
  | standard word =>
    "unknown standard: " ++ word ++ " (must be c++98, c++11, c++14, c++17 or c++20)"
  | optimization word =>
    "unknown optimization: " ++ word ++ " (must be none, size, speed or balanced)"

/-- A word of the configuration in lower case; an empty one leaves the default, and one that is
not known is refused. -/
def known (isKnown : Text → Bool) (default word : Text) : Option Text :=
  if word.isEmpty then some default
  else if isKnown word.toLower then some word.toLower else none

/-- The configuration three words spell: the compiler, then the standard, then the profile. At
the first word that is not known, the configuration so far is kept beside the complaint. The
standards that are known are those of g++, whatever the compiler is. -/
def Config.parse (compiler standard optimization : Text) : Config × Option ConfigError :=
  let config : Config := {}
  match known (fun c => (requirements.lookup c).isSome) config.compiler compiler with
  | none => (config, some (.compiler compiler))
  | some word =>
    let config := { config with compiler := word }
    match known (fun s => (requirement? "g++" s).isSome) config.standard standard with
    | none => (config, some (.standard standard))
    | some word =>
      let config := { config with standard := word }
      match known (fun o => (profiles.lookup o).isSome) config.optimization optimization with
      | none => (config, some (.optimization optimization))
      | some word => ({ config with optimization := word }, none)

/-! ### Commands -/

/-- Why a command failed. Whatever its message says, it is a failure of the host: neither that a
standard is not supported nor that a compiler refused a unit, which only `ToolError` can tell. -/
structure CommandFailure where
  /-- The message. -/
  message : Text
  /-- Whether the reason is that there is no such file. -/
  isAbsence : Bool := false
deriving DecidableEq, Inhabited

/-- What came of a command. -/
structure CommandResult where
  /-- What it wrote. -/
  output : Text
  /-- Why it failed, if it did. -/
  failure : Option CommandFailure := none
deriving DecidableEq, Inhabited

/-- Why a command does not run, given its words. A bare name is looked for among the commands
of the host, where it is not; the root is found there, as a directory. Any other name is a path:
the words have to be free of zero bytes, and then `reason` is what is wrong with the file. -/
def CommandFailure.notRun (argv : List Text) (reason : FileReason) : CommandFailure :=
  let name := argv.headD ""
  if name.isEmpty then { message := "exec: no command" }
  else if name = "/" then
    { message := "exec: " ++ name.quote ++ ": " ++ FileReason.isDirectory.text }
  else if !name.hasByte Path.slash then
    { message := "exec: " ++ name.quote ++ ": executable file not found in $PATH" }
  else
    let reason := if argv.any (·.hasByte 0) then .invalid else reason
    { message := "fork/exec " ++ name ++ ": " ++ reason.text, isAbsence := reason.isAbsence }

/-- Why a unit could not be compiled. -/
inductive ToolError where
  /-- The compiler could not be asked for its version. -/
  | unasked (compiler : Text) (cause : CommandFailure)
  /-- Its answer is no version. -/
  | unversioned (compiler answer : Text) (cause : VersionError)
  /-- The compiler or the standard is not known. -/
  | unknown (compiler standard : Text)
  /-- The compiler is too old for the standard, or no release. -/
  | unmet (compiler : Text) (version : Version) (requirement : Requirement) (standard : Text)
  /-- The compiler refused the unit. -/
  | refused (compiler output : Text) (cause : CommandFailure)
deriving DecidableEq

namespace ToolError

/-- The sentence that reports a refused unit, with what the compiler wrote. -/
def refusal (compiler output cause : Text) : Text :=
  compiler ++ " failed: " ++ cause
    ++ (if output.trim.isEmpty then .empty else "\n" ++ output.trim)

/-- The beginning of the messages about standards. -/
def unsupported : Text := "compiler does not support the requested standard"

/-- The message of a failure. -/
def message : ToolError → Text
  | unasked compiler cause => "failed to query " ++ compiler ++ " version: " ++ cause.message
  | unversioned compiler answer cause =>
    "unrecognized " ++ compiler ++ " version " ++ answer.quote ++ ": " ++ cause.message
  | unknown compiler standard => unsupported ++ ": " ++ compiler ++ " with " ++ standard
  | unmet compiler version requirement standard =>
    unsupported ++ ": " ++ compiler ++ " " ++ version.text ++ " needs " ++ requirement.spelling
      ++ " for " ++ standard
  | refused compiler output cause => refusal compiler output cause.message

/-- Whether the failure is that the compiler does not support the standard. -/
def isUnsupported : ToolError → Bool
  | unknown _ _ => true
  | unmet _ _ _ _ => true
  | _ => false

/-- Whether the reason is that there is no such file. -/
def isAbsence : ToolError → Bool
  | unasked _ cause => cause.isAbsence
  | refused _ _ cause => cause.isAbsence
  | _ => false

end ToolError

variable {m : Type → Type} [Monad m]

/-- The version of the compiler: the first line of its answer, without blanks around it. -/
def version (run : List Text → m CommandResult) (c : Config) : m (Except ToolError Version) := do
  let result ← run [c.compiler, "-dumpversion"]
  match result.failure with
  | some cause => return .error (.unasked c.compiler cause)
  | none =>
    let answer := (result.output.before 0x0A).trim
    match Version.parse answer with
    | .ok v => return .ok v
    | .error cause => return .error (.unversioned c.compiler answer cause)

/-- Whether the compiler supports the standard. One that is not known is not asked. -/
def check (log : Log.Record → m Unit) (run : List Text → m CommandResult) (c : Config) :
    m (Except ToolError Unit) := do
  match requirement? c.compiler c.standard with
  | none => return .error (.unknown c.compiler c.standard)
  | some requirement =>
    match ← version run c with
    | .error e => return .error e
    | .ok v =>
      log { level := .debug, message := "Detected compiler",
            attributes := [("compiler", .text c.compiler), ("version", .text v.text)] }
      if requirement.admits v then return .ok ()
      else return .error (.unmet c.compiler v requirement c.standard)

/-- The arguments with which the compiler makes an executable of a unit. -/
def arguments (c : Config) (source executable : Text) : List Text :=
  [standardFlag c.standard, optimizationFlag c.optimization, source, "-o", executable, "-Wall"]

/-- Compiles a unit into an executable, once the version has been checked. -/
def build (log : Log.Record → m Unit) (run : List Text → m CommandResult) (c : Config)
    (source executable : Text) : m (Except ToolError Unit) := do
  match ← check log run c with
  | .error e => return .error e
  | .ok () =>
    let args := arguments c source executable
    log { level := .info, message := "Compiling",
          attributes := [("compiler", .text c.compiler),
            ("args", .text (Text.intercalate " " args))] }
    let result ← run (c.compiler :: args)
    match result.failure with
    | some cause => return .error (.refused c.compiler result.output cause)
    | none =>
      if !result.output.isEmpty then
        log { level := .warn, message := "Compiler output",
              attributes := [("output", .text result.output.trim)] }
      return .ok ()

end IntLang.Toolchain
