import IntLang.Files.Storage
import IntLang.Log

/-!
# Watching a file

One save of a file makes a burst of events. A watcher waits after each event that concerns its
file until nothing more has come for a while, and only then acts, once. It is a state machine:
what comes in is an event, an error, the passing of time, another delay, or an end.

## Main definitions

* `Watch.Event` and `Watch.Watcher.concerns`, the events that count;
* `Watch.Exit`, the ways in which a watch ends, and `Watch.Exit.result`, what then comes of it;
* `Watch.Watcher`, its state, and `Watch.Input`, what comes in;
* `Watch.Watcher.step`, with the log records it causes.
-/

namespace IntLang.Watch

/-! ### Events -/

/-- What has happened to a file; several things may come at once. -/
structure Changes where
  /-- A bit for each kind of change. -/
  bits : UInt32
deriving DecidableEq, Inhabited

namespace Changes

/-- The kinds of change and their bits, in the order in which they are told. -/
def kinds : List (UInt32 × Text) :=
  [(1, "CREATE"), (4, "REMOVE"), (2, "WRITE"), (32, "OPEN"), (64, "READ"), (128, "CLOSE_WRITE"),
    (256, "CLOSE_READ"), (8, "RENAME"), (16, "CHMOD")]

/-- The file is new, or has taken the place of another. -/
def created : Changes := ⟨1⟩

/-- The file has been written to. -/
def written : Changes := ⟨2⟩

/-- Whether any of some kinds is among the changes. -/
def hasAny (c : Changes) (mask : UInt32) : Bool := c.bits &&& mask != 0

/-- The changes in words. -/
def text (c : Changes) : Text :=
  match kinds.filter fun kind => c.hasAny kind.1 with
  | [] => "[no events]"
  | found => Text.intercalate "|" (found.map (·.2))

/-- Whether the content of the file may be new: it was created or written to. -/
def touchContent (c : Changes) : Bool := c.hasAny 3

end Changes

/-- Something that has happened to a file. -/
structure Event where
  /-- The path of the file. -/
  name : Text
  /-- What has happened to it. -/
  changes : Changes
deriving DecidableEq, Inhabited

/-! ### Failures and ends -/

/-- Why a file cannot be watched. -/
structure WatchError where
  /-- The directory of the file. -/
  dir : Text
  /-- Why it cannot be watched. -/
  reason : FileReason
deriving DecidableEq

/-- The message of a failed watch. -/
def WatchError.message (e : WatchError) : Text :=
  "failed to watch " ++ e.dir ++ ": " ++ e.reason.text

/-- Why a watch ended. -/
inductive Exit where
  /-- No more events are wanted. -/
  | cancelled
  /-- No more events will come. -/
  | eventsClosed
  /-- No more problems will be told. -/
  | problemsClosed
deriving DecidableEq, Inhabited

/-- What comes of a watch that has ended. -/
def Exit.result : Exit → Except WatchError Unit
  | cancelled => .ok ()
  | eventsClosed => .ok ()
  | problemsClosed => .ok ()

/-! ### The watcher -/

/-- What a watcher waits for by default, in milliseconds. -/
def defaultDelay : Int := 100

/-- A watcher. Times are in milliseconds. -/
structure Watcher where
  /-- The absolute path of the file, in its shortest spelling. -/
  path : Text
  /-- How long to wait after an event. -/
  delay : Int := defaultDelay
  /-- Why it has ended, if it has. -/
  exit : Option Exit := none
  /-- The time that has passed. -/
  now : Int := 0
  /-- When its timer runs out, if that is set. -/
  timer : Option Int := none
  /-- Whether it listens to the timer. -/
  pending : Bool := false
  /-- How often it has acted. -/
  calls : Nat := 0
deriving DecidableEq, Inhabited

/-- What comes in. -/
inductive Input where
  | event (e : Event)
  /-- The source of events has a problem. -/
  | problem (message : Text)
  /-- Time passes. -/
  | sleep (milliseconds : Int)
  /-- The delay is another from now on; what is waited for already stays. -/
  | setDelay (milliseconds : Int)
  /-- The watch ends. -/
  | exit (e : Exit)
deriving DecidableEq, Inhabited

namespace Watcher

/-- Whether an event may have changed the content of the file. -/
def concerns (w : Watcher) (e : Event) : Bool :=
  Path.clean e.name = w.path && e.changes.touchContent

/-- Whether it still listens. -/
def running (w : Watcher) : Bool := w.exit.isNone

/-- Acts if it listens to the timer and that has run out. -/
def settle (w : Watcher) : Watcher :=
  match w.timer with
  | some t =>
    if w.pending && t ≤ w.now then
      { w with timer := none, pending := false, calls := w.calls + 1 }
    else w
  | none => w

/-- The watcher after something has come in, and what it logs. Once it has ended, nothing
changes it. -/
def step (w : Watcher) (input : Input) : Watcher × List Log.Record :=
  if !w.running then (w, [])
  else match input with
    | .event e =>
      if w.concerns e then
        (settle { w with timer := some (w.now + w.delay), pending := true },
          [{ level := .debug, message := "File changed",
             attributes := [("path", .text e.name), ("op", .text e.changes.text)] }])
      else (w, [])
    | .problem message =>
      (w, [{ level := .warn, message := "Watcher error",
             attributes := [("error", .text message)] }])
    | .sleep ms => (settle { w with now := w.now + max 0 ms }, [])
    | .setDelay ms => ({ w with delay := ms }, [])
    | .exit e => ({ w with exit := some e, timer := none, pending := false }, [])

end Watcher

/-- A watcher of the file at an absolute path. What is really watched is its directory, so that
only the directory has to be there. -/
def Watcher.start {m : Type → Type} [Monad m] (storage : Storage m) (path : Text) :
    m (Except WatchError Watcher) := do
  match ← storage.stat (Path.dir path) with
  | .error reason => return .error ⟨Path.dir path, reason⟩
  | .ok _ => return .ok { path }

end IntLang.Watch
