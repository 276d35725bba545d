import IntLang.App
import IntLang.Files.Disk

/-!
# A machine in memory

A `World` is a machine as a value: its disk, whatever runs its commands, and everything that has
been written and run on it. It is a host for the program, and a run of the program is a function
from worlds to worlds.

## Main definitions

* `Call` and `Runner`, the commands;
* `World`, `World.storage`, `World.host`;
* `World.runApp`, a whole run, with edits of the source file while it is watched;
* `World.runProcess`, the same as a process with an exit code.
-/

namespace IntLang

/-! ### Commands -/

/-- A command that is run. -/
structure Call where
  /-- Its name and arguments. -/
  argv : List Text
  /-- The limit to its time in nanoseconds, if it has one. -/
  limit : Option Int64
deriving DecidableEq, Inhabited

/-- Whether the time of a command is limited. -/
def Call.deadline (c : Call) : Bool := c.limit.isSome

/-- Whatever runs commands: from the disk, the commands that were run before and the one to run, it
gives what comes of that one and the disk it leaves. -/
abbrev Runner := Disk → List Call → Call → Toolchain.CommandResult × Disk

namespace Runner

/-- Why the disk has no command under a name. None of its files may be run. -/
def refusal (d : Disk) (name : Text) : FileReason :=
  match d.find name with
  | .ok _ => .denied
  | .error reason => reason

/-- There are no commands. -/
def absent : Runner := fun d _ call =>
  ({ output := "", failure := some (.notRun call.argv (refusal d (call.argv.headD ""))) }, d)

/-- The commands leave the disk as it is and answer one after another. -/
def answering (answers : List Toolchain.CommandResult) : Runner := fun d before _ =>
  (answers[before.length]?.getD { output := "", failure := some { message := "no response left" } },
    d)

end Runner

/-! ### Machines -/

/-- A machine. -/
structure World where
  /-- Its disk. -/
  disk : Disk
  /-- What runs its commands. -/
  runner : Runner := .absent
  /-- What its clock says, always. -/
  clock : Log.Readings := default
  /-- How many seconds everything takes. -/
  seconds : Text := "0"
  /-- What tells this run of the program from others. -/
  runId : Text := ""
  /-- The commands that were run. -/
  calls : List Call := []
  /-- The help that was shown. -/
  helpShown : Text := ""
  /-- What was written to the standard output. -/
  stdout : Text := ""
  /-- What was written to the standard error. -/
  stderr : Text := ""
deriving Inhabited

namespace World

/-! ### What the program needs -/

/-- The files of the world. -/
def storage : Storage (StateM World) where
  stat path := return (← get).disk.stat path
  read path := return (← get).disk.read path
  list path := return (← get).disk.list path
  write path content := do
    match (← get).disk.write path content with
    | .ok disk =>
      modify fun w => { w with disk }
      return .ok ()
    | .error reason => return .error reason

/-- Runs a command. -/
def run (limit : Option Int64) (argv : List Text) : StateM World Toolchain.CommandResult := do
  let w ← get
  let call : Call := { argv, limit }
  let answer := w.runner w.disk w.calls call
  set { w with disk := answer.2, calls := w.calls ++ [call] }
  return answer.1

/-! ### The program -/

/-- The world as surroundings of the program. -/
def host (w : World) : Host (StateM World) where
  storage := storage
  absolute path := return (← get).disk.absolute path
  run := run
  help t := modify fun w => { w with helpShown := w.helpShown ++ t }
  out t := modify fun w => { w with stdout := w.stdout ++ t }
  err t := modify fun w => { w with stderr := w.stderr ++ t }
  restart := return ()
  readings := return (← get).clock
  seconds := return (← get).seconds
  runId := w.runId

/-- Puts a new file in the place of another, and lets the watcher notice and act. -/
def edit (path : Text) (s : Session (StateM World)) (content : Text) :
    StateM World (Session (StateM World)) := do
  let _ ← storage.write path content
  let s ← s.feed (.event ⟨(← get).disk.absolute path, .created⟩)
  s.feed (.sleep s.watcher.delay)

/-- Runs the program. If it watches the source file, the file at `path` is replaced by one
content after another, and then the watch is cancelled. -/
def runApp (args : List Text) (env : CommandLine.Environment) (path : Text)
    (edits : List Text) : StateM World (Except AppError Unit) := do
  match ← App.start (host (← get)) args env with
  | .error e => return .error e
  | .ok none => return .ok ()
  | .ok (some session) =>
    let session ← edits.foldlM (edit path) session
    session.finish .cancelled

/-- Runs the program as a process: help goes to the standard output, a failure that has not been
told goes to the standard error, and the answer is the exit code. -/
def runProcess (args : List Text) (env : CommandLine.Environment) : StateM World Nat := do
  let result ← runApp args env "" []
  modify fun w => { w with stdout := w.helpShown ++ w.stdout, helpShown := "" }
  match result with
  | .ok () => return 0
  | .error e =>
    modify fun w => { w with stderr := w.stderr ++ e.report }
    return 1

end World

end IntLang
