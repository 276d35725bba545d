import IntLang.App
import IntLang.Text.Duration

/-!
# The command

The program on a real machine. Everything it decides is in `IntLang.App`; here are only the
effects. No commands are run from here, so the compiler is reported as missing; directories are
not listed, so that headers on disk go by their exact names; and times are counted from the start
of the program.
-/

namespace IntLang.Command

/-- A text as a string of characters. -/
def string (t : Text) : String := String.ofList t.chars

/-- A text as bytes. -/
def bytes (t : Text) : ByteArray := ⟨t.bytes.toArray⟩

/-- Bytes as a text. -/
def text (b : ByteArray) : Text := ⟨b.toList⟩

/-- Why a file operation failed. -/
def reason : IO.Error → FileReason
  | .noFileOrDirectory .. => .notOnDisk
  | .permissionDenied .. => .denied
  -- Error 21 is that the file is a directory; the other kind of error with this name is that a
  -- path leads through a file.
  | .inappropriateType _ code _ => if code = 21 then .isDirectory else .notDirectory
  -- Error 36 is that a name is too long.
  | .invalidArgument _ code _ => if code = 36 then .tooLong else .invalid
  | _ => .invalid

/-- The content of a file. -/
def read (path : Text) : IO (Except FileReason Text) := do
  match ← (IO.FS.readBinFile (string path)).toBaseIO with
  | .ok content => return .ok (text content)
  | .error e => return .error (reason e)

/-- The files of the machine. -/
def storage : Storage IO where
  read := read
  stat path := do
    match ← read path with
    | .ok content => return .ok ⟨false, content.size⟩
    | .error .isDirectory => return .ok ⟨true, 0⟩
    | .error e => return .error e
  list _ := return .error .notOnDisk
  write path content := do
    match ← (IO.FS.writeBinFile (string path) (bytes content)).toBaseIO with
    | .ok () => return .ok ()
    | .error e => return .error (reason e)

/-- Writes a text to a stream at once. -/
def write (stream : IO IO.FS.Stream) (t : Text) : IO Unit := do
  let stream ← stream
  stream.write (bytes t)
  stream.flush

/-- Random hexadecimal digits in five groups. -/
def randomId : IO Text := do
  let random ← IO.getRandomBytes 16
  let digits := Text.concat (random.toList.map fun b => .ofHex 2 b.toNat)
  let group (start length : Nat) : Text := ⟨(digits.bytes.drop start).take length⟩
  return Text.intercalate "-" [group 0 8, group 8 4, group 12 4, group 16 4, group 20 12]

/-- The machine as surroundings of the program. -/
def host : IO (Host IO) := do
  let began ← IO.monoNanosNow
  let mark ← IO.mkRef began
  let measured : IO Nat := return (← IO.monoNanosNow) - (← mark.get)
  return {
    storage
    absolute := fun path => do
      if Path.isAbsolute path then return Path.clean path
      return Path.join (.ofString ((← IO.getEnv "PWD").getD ".")) path
    run := fun _ argv => do
      let reason : FileReason :=
        match ← storage.stat (argv.headD "") with
        | .ok _ => .denied
        | .error reason => reason
      return { output := "", failure := some (.notRun argv reason) }
    help := write IO.getStdout
    out := write IO.getStdout
    err := write IO.getStderr
    restart := do mark.set (← IO.monoNanosNow)
    readings := do
      let nanoseconds ← measured
      return { time := .ofNanoseconds ((← IO.monoNanosNow) - began),
               elapsed := .ofNanoseconds nanoseconds, nanoseconds }
    seconds := return .ofFraction (← measured) 9
    runId := ← randomId }

/-- The variables of the environment that the program looks at. -/
def environment : IO CommandLine.Environment := do
  let names := ["LOG_LEVEL", "INTC_CXX", "INTC_STD", "INTC_OPT", "TIMEOUT"]
  let values ← names.mapM fun name => return ((name : String), ← IO.getEnv name)
  return values.filterMap fun (name, value) =>
    value.map fun v => (Text.ofString name, Text.ofString v)

/-- Looks at a file again and again, and tells a session when its content is another. -/
partial def poll (path : Text) (seen : Except FileReason Text) (s : Session IO) : IO Unit := do
  IO.sleep 50
  let now ← read path
  let s ← if now.toOption = seen.toOption then pure s
    else s.feed (.event ⟨s.watcher.path, .written⟩)
  poll path now (← s.feed (.sleep 50))

end IntLang.Command

open IntLang IntLang.Command in
/-- Runs the program; the answer is the exit code. -/
def main (args : List String) : IO UInt32 := do
  let host ← host
  let result ← match ← App.start host (args.map Text.ofString) (← environment) with
    | .error e => pure (.error e)
    | .ok none => pure (.ok ())
    | .ok (some session) => do
      let path := session.config.settings.input
      poll path (← read path) session
      session.finish .cancelled
  match result with
  | .ok () => return 0
  | .error e =>
    host.err e.report
    return 1
