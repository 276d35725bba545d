import IntLang.CommandLine
import IntLang.Headers
import IntLang.SourceFile
import IntLang.Toolchain
import IntLang.Watch

/-!
# The application

What the program does from its arguments to its end: it lists tokens, or compiles a source file
into a C++ unit and that into an executable, once or whenever the source file changes.

Everything the program needs of its surroundings is a `Host`, so that the same program runs on a
real machine and on one that is a value.

## Main definitions

* `Host`, the surroundings;
* `AppError`, the ways to fail;
* `App.start`, and `Session.feed` and `Session.finish` while a file is watched.
-/

namespace IntLang

/-! ### Surroundings -/

/-- What the program needs of its surroundings. -/
structure Host (m : Type → Type) where
  /-- The files. -/
  storage : Storage m
  /-- The absolute form of a path. -/
  absolute : Text → m Text
  /-- Runs a command, with a limit to its time in nanoseconds or without one. -/
  run : Option Int64 → List Text → m Toolchain.CommandResult
  /-- Shows help. -/
  help : Text → m Unit
  /-- Writes to the standard output. -/
  out : Text → m Unit
  /-- Writes to the standard error. -/
  err : Text → m Unit
  /-- Begins to measure time. -/
  restart : m Unit
  /-- What the clock says, with the time that has been measured. -/
  readings : m Log.Readings
  /-- The time that has been measured, in seconds. -/
  seconds : m Text
  /-- What tells this run of the program from others. -/
  runId : Text

/-! ### Errors -/

/-- Why the program failed. -/
inductive AppError where
  /-- The command line makes no sense. -/
  | arguments (cause : CommandLine.ParseError)
  /-- There is no logger. -/
  | logger (cause : Log.SetupError)
  /-- The toolchain makes no sense. -/
  | toolchain (cause : Toolchain.ConfigError)
  /-- The source file could not be listed as tokens. -/
  | tokens (cause : CompileError Headers.HeaderError)
  /-- The source file could not be made a C++ unit; this has been told already. -/
  | unit (cause : CompileError Headers.HeaderError)
  /-- The C++ unit could not be made an executable. -/
  | build (path : Text) (cause : Toolchain.ToolError)
  /-- The source file cannot be watched. -/
  | watch (cause : Watch.WatchError)

namespace AppError

/-- The message of a failure. -/
def message : AppError → Text
  | arguments cause => "failed to parse args: " ++ cause.message
  | logger cause => "failed to initialize logger: " ++ cause.message
  | toolchain cause => "invalid toolchain configuration: " ++ cause.message
  | tokens cause => cause.message Headers.HeaderError.message
  | unit cause => "translation failed: " ++ cause.message Headers.HeaderError.message
  | build path cause => "failed to compile " ++ path ++ ": " ++ cause.message
  | watch cause => cause.message

/-- Whether a failure has been told by the time the program ends. -/
def isTold : AppError → Bool
  | unit _ => true
  | _ => false

/-- What is still to be told of a failure when the program ends. -/
def report (e : AppError) : Text :=
  if e.isTold then .empty else "Error: " ++ e.message ++ "\n"

end AppError

/-! ### One run -/

/-- A program that has been set up. -/
structure Session (m : Type → Type) where
  /-- The surroundings. -/
  host : Host m
  /-- What to do. -/
  config : CommandLine.Config
  /-- What is logged, and how. -/
  logger : Log.Logger
  /-- The toolchain. -/
  tools : Toolchain.Config := {}
  /-- Where headers come from. -/
  sources : List (FileSource m) := []
  /-- The watcher, if the source file is watched. -/
  watcher : Watch.Watcher := default

namespace Session

variable {m : Type → Type} [Monad m]

/-- Logs a record, marked with the run. -/
def log (s : Session m) (r : Log.Record) : m Unit := do
  let now ← s.host.readings
  s.host.err (s.logger.line now (r.tagged [("run_id", .text s.host.runId)]))

/-- Lists the tokens of the source file. -/
def listTokens (s : Session m) : m (Except AppError Unit) := do
  match ← tokenizeFile s.host.storage s.config.settings.input with
  | .error cause => return .error (.tokens cause)
  | .ok tokens =>
    s.host.out (Text.lines (tokens.map Token.describe))
    s.log { level := .info, message := "Tokens printed",
            attributes := [("count", .count tokens.length)] }
    return .ok ()

/-- Makes a C++ unit of the source file and writes it. -/
def makeUnit (s : Session m) : m (Except (CompileError Headers.HeaderError) Compilation) := do
  let settings := s.config.settings
  match ← compileFile s.host.storage s.log (Headers.resolver s.sources) settings.input with
  | .error cause => return .error cause
  | .ok result =>
    match ← writeUnit s.host.storage settings.output result.output with
    | .error cause => return .error cause
    | .ok () => return .ok result

/-- Makes a C++ unit of the source file, and tells what came of it. -/
def unit (s : Session m) : m (Except AppError Unit) := do
  let settings := s.config.settings
  s.host.restart
  match ← s.makeUnit with
  | .error cause =>
    s.log { level := .error, message := "Translation failed",
            attributes := [("input", .text settings.input),
              ("error", .text (cause.message Headers.HeaderError.message))] }
    s.host.out "The program failed to translate due to an error\n"
    return .error (.unit cause)
  | .ok result =>
    s.log { level := .info, message := "Translation unit written",
            attributes := [("output", .text settings.output),
              ("functions", .count result.program.order.length),
              ("bytes", .count result.output.size)] }
    let seconds ← s.host.seconds
    s.host.out ("The program was translated successfully in " ++ seconds ++ " seconds!\n")
    return .ok ()

/-- The limit to the time of the compiler, in nanoseconds. -/
def limit (s : Session m) : Option Int64 :=
  if 0 < s.config.timeoutNanoseconds then some s.config.timeoutNanoseconds else none

/-- Makes an executable of the C++ unit. -/
def executable (s : Session m) : m (Except AppError Unit) := do
  let settings := s.config.settings
  match ← Toolchain.build s.log (s.host.run s.limit) s.tools settings.output
      settings.executable with
  | .error cause => return .error (.build settings.output cause)
  | .ok () =>
    s.log { level := .info, message := "Executable built",
            attributes := [("path", .text settings.executable)] }
    return .ok ()

/-- Whether an executable is wanted. -/
def wantsExecutable (s : Session m) : Bool :=
  s.config.command = .build && !s.config.settings.noCompile

/-- Makes a C++ unit of the source file, and an executable of that if one is wanted. -/
def once (s : Session m) : m (Except AppError Unit) := do
  match ← s.unit with
  | .error e => return .error e
  | .ok () => if s.wantsExecutable then s.executable else return .ok ()

/-- Goes through the work once more; a failure is logged and nothing else. -/
def again (s : Session m) : m Unit := do
  if let .error e ← s.once then
    s.log { level := .error, message := "Build failed",
            attributes := [("error", .text e.message)] }

/-! ### Watching -/

/-- Begins to watch the source file. -/
def watch (s : Session m) : m (Except AppError (Session m)) := do
  let path ← s.host.absolute s.config.settings.input
  match ← Watch.Watcher.start s.host.storage path with
  | .error cause => return .error (.watch cause)
  | .ok watcher =>
    s.log { level := .info, message := "Watching for changes",
            attributes := [("path", .text watcher.path)] }
    return .ok { s with watcher }

/-- Takes what comes in while the source file is watched, and works whenever the watcher acts. -/
def feed (s : Session m) (input : Watch.Input) : m (Session m) := do
  let (watcher, records) := s.watcher.step input
  records.forM s.log
  if s.watcher.calls < watcher.calls then s.again
  return { s with watcher }

/-- Ends the watch; the answer is what comes of it. -/
def finish (s : Session m) (exit : Watch.Exit) : m (Except AppError Unit) := do
  let s ← s.feed (.exit exit)
  s.log { level := .info, message := "Stopped watching" }
  return (s.watcher.exit.getD exit).result.mapError AppError.watch

end Session

/-! ### The whole program -/

namespace App

variable {m : Type → Type} [Monad m]

/-- Where headers come from: a directory on disk, if it is there, and the standard headers. -/
def headerSources (storage : Storage m) (dir : Text) : m (List (FileSource m)) := do
  let dir := if dir.isEmpty then Headers.defaultDir else dir
  if ← storage.isDirectory dir then
    return [storage.directory dir, FileSource.builtIn Headers.standard]
  else return [FileSource.builtIn Headers.standard]

/-- Sets the program up for a configuration, as far as the log. -/
def begin (host : Host m) (config : CommandLine.Config) : m (Except AppError (Session m)) := do
  match Log.Logger.make config.settings.logLevel config.settings.logFormat with
  | .error cause => return .error (.logger cause)
  | .ok logger =>
    let s : Session m := { host, config, logger }
    s.log { level := .info, message := "Application started",
            attributes := [("command", .text config.command.name),
              ("input", .text config.settings.input)] }
    return .ok s

/-- Sets up toolchain and headers. -/
def equip (s : Session m) : m (Except AppError (Session m)) := do
  let settings := s.config.settings
  match Toolchain.Config.parse settings.compiler settings.standard settings.optimization with
  | (_, some cause) => return .error (.toolchain cause)
  | (tools, none) =>
    let sources ← headerSources s.host.storage settings.headerDir
    return .ok { s with tools, sources }

/-- Does what a session is for. While the source file is watched, the answer is the session. -/
def work (s : Session m) : m (Except AppError (Option (Session m))) := do
  if s.config.settings.watch then
    s.again
    match ← s.watch with
    | .error e => return .error e
    | .ok s => return .ok (some s)
  else
    match ← s.once with
    | .error e => return .error e
    | .ok () =>
      s.log { level := .info, message := "Application terminated normally" }
      return .ok none

/-- Runs a configuration. -/
def runConfig (host : Host m) (config : CommandLine.Config) :
    m (Except AppError (Option (Session m))) := do
  match ← begin host config with
  | .error e => return .error e
  | .ok s =>
    if config.command = .tokens then
      match ← s.listTokens with
      | .error e => return .error e
      | .ok () => return .ok none
    else
      match ← equip s with
      | .error e => return .error e
      | .ok s => work s

/-- Runs the program up to its end, or to the point where it watches the source file; then the
answer is the session, to be fed with what comes in. -/
def start (host : Host m) (args : List Text) (env : CommandLine.Environment) :
    m (Except AppError (Option (Session m))) := do
  match CommandLine.parse args env with
  | .error cause => return .error (.arguments cause)
  | .ok (.help topic _) =>
    host.help topic.text
    return .ok none
  | .ok (.run config) => runConfig host config

end App

end IntLang
