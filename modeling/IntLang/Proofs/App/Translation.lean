import IntLang.Proofs.CommandLine.Checked
import IntLang.Proofs.Files.Writing
import IntLang.Proofs.World.Looking

/-!
# One translation

What making a unit comes to is decided by the disk alone: `Disk.translated` is the cause of the
failure, or the compilation with the disk that the unit has been written to. A session that has
been equipped on a disk (`Session.Equipped`) does just that, tells it in one message, and runs
commands only if it has succeeded and an executable is wanted. What these do to the disk is left to
whatever runs them: afterwards it is what they leave (`Runner.after`).
-/

namespace IntLang

/-! ### Effects on a machine -/

namespace World

theorem run_write (w : World) (path content : Text) :
    (storage.write path content).run w = match w.disk.write path content with
      | .ok disk => (.ok (), { w with disk })
      | .error reason => (.error reason, w) := by
  change (match w.disk.write path content with
    | .ok disk => modify (fun w => { w with disk }) >>= fun _ => pure (.ok ())
    | .error reason => pure (.error reason) : StateM World (Except FileReason Unit)).run w = _
  cases w.disk.write path content <;> rfl

theorem yields_write {w : World} {path content : Text} {e : Disk}
    (h : w.disk.write path content = .ok e) :
    w.Yields (storage.write path content) (.ok ()) e .empty [] := by
  refine ⟨{ w with disk := e }, ?_, rfl, (Text.append_empty _).symm, (List.append_nil _).symm,
    ⟨[], by simp, (Text.append_empty _).symm⟩, rfl, rfl, rfl⟩
  rw [run_write, h]

theorem yields_write_error {w : World} {path content : Text} {reason : FileReason}
    (h : w.disk.write path content = .error reason) :
    w.Yields (storage.write path content) (.error reason) w.disk .empty [] := by
  refine ⟨w, ?_, .refl w⟩
  rw [run_write, h]

theorem yields_writeUnit {E : Type} {w : World} {path output : Text} {e : Disk}
    (h : w.disk.write path output = .ok e) :
    w.Yields (writeUnit storage path output) (.ok () : Except (CompileError E) Unit) e .empty [] :=
  (yields_write h).behind fun _ hw' => .pure hw'.disk _

theorem yields_writeUnit_error {E : Type} {w : World} {path output : Text} {reason : FileReason}
    (h : w.disk.write path output = .error reason) :
    w.Yields (writeUnit storage path output)
      (.error (.write path ⟨"open", path, reason⟩) : Except (CompileError E) Unit) w.disk .empty
      [] :=
  (yields_write_error h).behind fun _ hw' => .pure hw'.disk _

theorem yields_out (v : World) {w : World} {d : Disk} (hw : w.disk = d) (t : Text) :
    w.Yields ((host v).out t) () d t [] :=
  ⟨_, rfl, hw, rfl, (List.append_nil _).symm, ⟨[], by simp, (Text.append_empty _).symm⟩, rfl, rfl,
    rfl⟩

/-- A command is noted, and whatever runs it answers and leaves the disk. -/
theorem yields_run (w : World) (limit : Option Int64) (argv : List Text) :
    w.Yields (run limit argv) (w.runner w.disk w.calls ⟨argv, limit⟩).1
      (w.runner w.disk w.calls ⟨argv, limit⟩).2 .empty [⟨argv, limit⟩] :=
  ⟨_, rfl, rfl, (Text.append_empty _).symm, rfl, ⟨[], by simp, (Text.append_empty _).symm⟩, rfl,
    rfl, rfl⟩

end World

/-! ### Running commands -/

namespace Runner

/-- The disk that is left when commands are run one after another, behind others. -/
def after (r : Runner) (before : List Call) (d : Disk) : List Call → Disk
  | [] => d
  | call :: calls => r.after (before ++ [call]) (r d before call).2 calls

theorem after_append (r : Runner) (before : List Call) (d : Disk) (calls calls' : List Call) :
    r.after before d (calls ++ calls') =
      r.after (before ++ calls) (r.after before d calls) calls' := by
  induction calls generalizing before d with
  | nil => rw [List.nil_append, List.append_nil, after]
  | cons call calls ih =>
      rw [List.cons_append, after, ih, after, List.append_assoc]
      rfl

/-- What each command keeps is kept by all of them. -/
theorem after_keeps {r : Runner} {P : Disk → Prop}
    (h : ∀ d before call, P d → P (r d before call).2) (before : List Call) {d : Disk} (hd : P d)
    (calls : List Call) : P (r.after before d calls) := by
  induction calls generalizing before d with
  | nil => exact hd
  | cons call calls ih => exact ih _ (h d before call hd)

end Runner

/-- A computation that runs commands, all of them with the same limit to their time, and logs. It
tells nothing, and the files are written by nothing but the commands. -/
def Commands {α : Type} (limit : Option Int64) (x : StateM World α) : Prop :=
  ∀ w : World, ∃ a calls, w.Yields x a (w.runner.after w.calls w.disk calls) .empty calls ∧
    ∀ c ∈ calls, c.limit = limit

namespace Commands

variable {α β : Type} {limit : Option Int64}

theorem of_looks {x : StateM World α} {y : Disk → Id α} (h : ∀ d, Looks d x (y d)) :
    Commands limit x :=
  fun w => ⟨_, [], h w.disk w rfl, List.forall_mem_nil _⟩

theorem pure (a : α) : Commands limit (Pure.pure a) := of_looks fun _ => .pure a

theorem bind {x : StateM World α} {f : α → StateM World β} (hx : Commands limit x)
    (hf : ∀ a, Commands limit (f a)) : Commands limit (x >>= f) := by
  intro w
  obtain ⟨a, calls, ⟨v, hrun, hv⟩, hcalls⟩ := hx w
  obtain ⟨b, calls', hb, hcalls'⟩ := hf a v
  rw [hv.runner, hv.calls, hv.disk, ← Runner.after_append] at hb
  exact ⟨b, calls ++ calls', .next hrun hv hb, List.forall_mem_append.2 ⟨hcalls, hcalls'⟩⟩

theorem run (limit : Option Int64) (argv : List Text) :
    Commands limit (World.run limit argv) := by
  intro w
  refine ⟨_, [⟨argv, limit⟩], w.yields_run limit argv, fun c hc => ?_⟩
  rw [List.mem_singleton.1 hc]

/-- A toolchain does nothing but run commands. -/
theorem build {log : Log.Record → StateM World Unit} (hlog : ∀ r, Commands limit (log r))
    (tools : Toolchain.Config) (source executable : Text) :
    Commands limit (Toolchain.build log (World.run limit) tools source executable) := by
  have hversion : Commands limit (Toolchain.version (World.run limit) tools) := by
    refine (run limit _).bind fun result => ?_
    dsimp only
    split
    · exact .pure _
    · split <;> exact .pure _
  have hcheck : Commands limit (Toolchain.check log (World.run limit) tools) := by
    rw [Toolchain.check]
    split
    · exact .pure _
    refine hversion.bind fun answer => ?_
    cases answer with
    | error e => exact .pure _
    | ok v =>
      refine (hlog _).bind fun _ => ?_
      split <;> exact .pure _
  refine hcheck.bind fun answer => ?_
  cases answer with
  | error e => exact .pure _
  | ok _ =>
    refine (hlog _).bind fun _ => (run limit _).bind fun result => ?_
    dsimp only
    split
    · exact .pure _
    · split
      · exact (hlog _).bind fun _ => .pure _
      · exact .pure _

/-- So does making an executable, with the limit of the session. -/
theorem executable {s : Session (StateM World)} {v : World} (hv : s.host = World.host v) :
    Commands s.limit s.executable := by
  have hlog (r : Log.Record) : Commands s.limit (s.log r) :=
    .of_looks fun e => .log e hv r
  rw [Session.executable, hv]
  refine (build hlog _ _ _).bind fun answer => ?_
  cases answer with
  | error cause => exact .pure _
  | ok _ => exact (hlog _).bind fun _ => .pure _

end Commands

/-! ### Making a unit -/

/-- What making a C++ unit comes to: the answer, and the disk afterwards. -/
def Disk.translated (d : Disk) (settings : CommandLine.Settings) :
    Except (CompileError Headers.HeaderError) Compilation × Disk :=
  match d.compiled settings with
  | .error cause => (.error cause, d)
  | .ok c =>
    match d.write settings.output c.output with
    | .error reason => (.error (.write settings.output ⟨"open", settings.output, reason⟩), d)
    | .ok e => (.ok c, e)

namespace Session

/-- What is told of a unit that was not made. -/
def failureMessage : Text := "The program failed to translate due to an error\n"

/-- What is told of a unit that was made. -/
def successMessage (seconds : Text) : Text :=
  "The program was translated successfully in " ++ seconds ++ " seconds!\n"

/-- What is told of the making of a unit. -/
def message {ε α : Type} (seconds : Text) : Except ε α → Text
  | .error _ => failureMessage
  | .ok _ => successMessage seconds

/-- A session on a machine whose sources of headers are those of a disk. -/
structure Equipped (s : Session (StateM World)) (d : Disk) : Prop where
  host : ∃ v, s.host = World.host v
  sources : s.sources = Headers.sources (d.hasHeaders s.config.settings.headerDir) World.storage
    s.config.settings.headerDir

namespace Equipped

variable {s : Session (StateM World)} {d : Disk} {w : World}

theorem log (h : s.Equipped d) (e : Disk) (r : Log.Record) : Looks e (s.log r) (pure ()) := by
  obtain ⟨v, hv⟩ := h.host
  exact .log e hv r

theorem out (h : s.Equipped d) {e : Disk} (hw : w.disk = e) (t : Text) :
    w.Yields (s.host.out t) () e t [] := by
  obtain ⟨v, hv⟩ := h.host
  rw [hv]
  exact World.yields_out v hw t

/-- The source file compiles to what it compiles to on the disk alone. -/
theorem compileFile (h : s.Equipped d) :
    Looks d (compileFile s.host.storage s.log (Headers.resolver s.sources) s.config.settings.input)
      (d.compiled s.config.settings) := by
  obtain ⟨v, hv⟩ := h.host
  rw [hv, h.sources]
  have hviews := Headers.forall₂_mirrors_sources d (d.hasHeaders s.config.settings.headerDir)
    s.config.settings.headerDir
  rw [← d.headerSources_eq] at hviews
  exact Looks.compileFile (h.log d) hviews s.config.settings.input

theorem makeUnit (h : s.Equipped w.disk) :
    w.Yields s.makeUnit (w.disk.translated s.config.settings).1
      (w.disk.translated s.config.settings).2 .empty [] := by
  obtain ⟨v, hv⟩ := h.host
  refine (h.compileFile w rfl).behind fun w' hw' => ?_
  simp only [Disk.translated, Id.run, hv]
  cases w.disk.compiled s.config.settings with
  | error cause => exact .pure hw'.disk _
  | ok c =>
    dsimp only
    rw [← hw'.disk]
    cases hwrite : w'.disk.write s.config.settings.output c.output with
    | error reason =>
      exact (World.yields_writeUnit_error hwrite).behind fun _ hw'' => .pure hw''.disk _
    | ok e => exact (World.yields_writeUnit hwrite).behind fun _ hw'' => .pure hw''.disk _

/-- Making a unit is told in one message. -/
theorem unit (h : s.Equipped w.disk) :
    w.Yields s.unit (((w.disk.translated s.config.settings).1.mapError .unit).map fun _ => ())
      (w.disk.translated s.config.settings).2
      (message w.seconds (w.disk.translated s.config.settings).1) [] := by
  obtain ⟨v, hv⟩ := h.host
  have hrestart : w.Yields s.host.restart () w.disk .empty [] := by
    rw [hv]
    exact .pure rfl ()
  refine hrestart.behind fun w₁ hw₁ => ?_
  have hmake := makeUnit (s := s) (w := w₁) (hw₁.disk.symm ▸ h)
  rw [hw₁.disk] at hmake
  refine hmake.behind fun w₂ hw₂ => ?_
  cases (w.disk.translated s.config.settings).1 with
  | error cause =>
    refine (h.log _ _ w₂ hw₂.disk).behind fun w₃ hw₃ => ?_
    exact (h.out hw₃.disk failureMessage).before fun w₄ hw₄ => .pure hw₄.disk _
  | ok c =>
    refine (h.log _ _ w₂ hw₂.disk).behind fun w₃ hw₃ => ?_
    have hseconds : w₃.Yields s.host.seconds w.seconds w₃.disk .empty [] := by
      rw [hv, ← hw₁.seconds, ← hw₂.seconds, ← hw₃.seconds]
      exact .pure rfl w₃.seconds
    refine hseconds.behind fun w₄ hw₄ => ?_
    exact (h.out (hw₄.disk.trans hw₃.disk) (successMessage w.seconds)).before fun w₅ hw₅ =>
      .pure hw₅.disk _

/-- A session makes a unit, and runs commands only if it has made one and an executable is wanted;
the disk is what they leave of the one that the unit has been written to. -/
theorem exists_yields_once (h : s.Equipped w.disk) :
    ∃ result calls, w.Yields s.once result
        (w.runner.after w.calls (w.disk.translated s.config.settings).2 calls)
        (message w.seconds (w.disk.translated s.config.settings).1) calls ∧
      (∀ cause, (w.disk.translated s.config.settings).1 = .error cause →
        result = .error (.unit cause) ∧ calls = []) ∧
      (calls ≠ [] → s.wantsExecutable = true) := by
  have hunit := h.unit
  cases ht : (w.disk.translated s.config.settings).1 with
  | error cause =>
    rw [ht] at hunit
    refine ⟨.error (.unit cause), [], hunit.before fun w' hw' => .pure hw'.disk _, ?_, by simp⟩
    rintro _ ⟨⟩
    exact ⟨rfl, rfl⟩
  | ok c =>
    rw [ht] at hunit
    obtain ⟨w', hrun, hw'⟩ := hunit
    obtain ⟨result, calls, hrest, hcalls⟩ : ∃ result calls,
        w'.Yields (if s.wantsExecutable then s.executable else pure (.ok ())) result
          (w.runner.after w.calls (w.disk.translated s.config.settings).2 calls) .empty calls ∧
        (calls ≠ [] → s.wantsExecutable = true) := by
      cases s.wantsExecutable with
      | true =>
        obtain ⟨v, hv⟩ := h.host
        obtain ⟨result, calls, hexecutable, -⟩ := Commands.executable hv w'
        rw [hw'.runner, hw'.calls, hw'.disk, List.append_nil] at hexecutable
        exact ⟨result, calls, hexecutable, by simp⟩
      | false => exact ⟨.ok (), [], .pure hw'.disk _, by simp⟩
    exact ⟨result, calls, .last hrun hw' hrest, by simp, hcalls⟩

end Equipped

end Session

/-! ### Setting up -/

namespace App

open CommandLine

variable {args : List Text} {env : Environment} {config : CommandLine.Config}

/-- A configuration that has been parsed has a logger, and all that happens is that the start is
logged. -/
theorem exists_yields_begin (hparse : parse args env = .ok (.run config)) (w : World) :
    ∃ logger, w.Yields (begin (World.host w) config)
      (.ok { host := World.host w, config, logger }) w.disk .empty [] := by
  obtain ⟨logger, hlogger⟩ := (Settings.Chosen.of_check (check_of_parse hparse)).exists_logger
  refine ⟨logger, ?_⟩
  rw [begin, hlogger]
  exact (Looks.log w.disk (s := { host := World.host w, config, logger }) rfl _ w rfl).behind
    fun w' hw' => .pure hw'.disk _

/-- A command that needs a unit comes, nothing changed, to the work of a session that is equipped
on the disk. -/
theorem exists_run_start (hparse : parse args env = .ok (.run config))
    (hcommand : config.command ≠ .tokens) (w : World) :
    ∃ (s : Session (StateM World)) (w' : World), s.config = config ∧ s.Equipped w.disk ∧
      w.Leads w.disk .empty [] w' ∧
      (start (World.host w) args env).run w = (work s).run w' := by
  obtain ⟨logger, w₁, hrun₁, hw₁⟩ := exists_yields_begin hparse w
  obtain ⟨tools, htools⟩ := (Settings.Chosen.of_check (check_of_parse hparse)).exists_tools
  let bare : Session (StateM World) := { host := World.host w, config, logger }
  let found := w.disk.hasHeaders config.settings.headerDir
  let s := { bare with
    tools, sources := Headers.sources found World.storage config.settings.headerDir }
  have hequip : w₁.Yields (equip bare) (.ok s) w.disk .empty [] := by
    have hsources : w₁.Yields (headerSources World.storage config.settings.headerDir) s.sources
        w.disk .empty [] := by
      rw [headerSources_eq]
      exact (Looks.isDirectory w.disk _ w₁ hw₁.disk).behind fun w' hw' => .pure hw'.disk _
    simp only [equip, bare, htools]
    exact hsources.behind fun w' hw' => .pure hw'.disk _
  obtain ⟨w₂, hrun₂, hw₂⟩ := hequip
  refine ⟨s, w₂, rfl, ⟨⟨w, rfl⟩, rfl⟩, hw₁.trans hw₂, ?_⟩
  simp only [start, hparse]
  rw [runConfig, run_bind_of_eq hrun₁]
  simp only [hcommand, if_false]
  rw [run_bind_of_eq hrun₂]

end App

namespace World

open CommandLine

variable {args : List Text} {env : Environment} {config : CommandLine.Config}

/-- What is left of a run once the program has started: the edits, if there is a watch. -/
def conclude (path : Text) (edits : List Text) :
    Except AppError (Option (Session (StateM World))) → StateM World (Except AppError Unit)
  | .error e => return .error e
  | .ok none => return .ok ()
  | .ok (some session) => do
    let session ← edits.foldlM (edit path) session
    session.finish .cancelled

theorem run_runApp (path : Text) (edits : List Text) (w : World) :
    (runApp args env path edits).run w =
      (App.start (host w) args env >>= conclude path edits).run w := by
  have hget : (get : StateM World World).run w = (w, w) := rfl
  exact run_bind_of_eq hget _

/-- A run without a watch ends with the session's work, which has been done once. -/
theorem exists_yields_runApp (hparse : parse args env = .ok (.run config))
    (hcommand : config.command ≠ .tokens) (hwatch : config.settings.watch = false) (w : World)
    (path : Text) (edits : List Text) :
    ∃ result calls, w.Yields (runApp args env path edits) result
        (w.runner.after w.calls (w.disk.translated config.settings).2 calls)
        (Session.message w.seconds (w.disk.translated config.settings).1) calls ∧
      (∀ cause, (w.disk.translated config.settings).1 = .error cause →
        result = .error (.unit cause) ∧ calls = []) ∧
      (calls ≠ [] → config.command = .build ∧ config.settings.noCompile = false) := by
  obtain ⟨s, w₁, rfl, hs, hw₁, hstart⟩ := App.exists_run_start hparse hcommand w
  have hs₁ : s.Equipped w₁.disk := hw₁.disk.symm ▸ hs
  obtain ⟨result, calls, honce, herror, hcalls⟩ := hs₁.exists_yields_once
  rw [hw₁.disk] at honce herror
  rw [hw₁.seconds, hw₁.runner, hw₁.calls, List.append_nil] at honce
  refine ⟨result, calls, ?_, herror, fun hne => by simpa [Session.wantsExecutable] using hcalls hne⟩
  have hwork : w₁.Yields (App.work s) (result.map fun _ => none)
      (w.runner.after w.calls (w.disk.translated s.config.settings).2 calls)
      (Session.message w.seconds (w.disk.translated s.config.settings).1) calls := by
    simp only [App.work, hwatch, Bool.false_eq_true, if_false]
    refine honce.before fun w' hw' => ?_
    cases result with
    | error e => exact .pure hw'.disk _
    | ok _ => exact (hs.log _ _ w' hw'.disk).behind fun w'' hw'' => .pure hw''.disk _
  obtain ⟨w₂, hrun, hw₂⟩ := hwork
  have hwhole : w.Yields (App.start (host w) args env) (result.map fun _ => none)
      (w.runner.after w.calls (w.disk.translated s.config.settings).2 calls)
      (Session.message w.seconds (w.disk.translated s.config.settings).1) calls :=
    ⟨w₂, hstart.trans hrun, hw₁.trans hw₂⟩
  rw [Yields, run_runApp]
  refine hwhole.before fun w' hw' => ?_
  cases result with
  | error e => exact .pure hw'.disk _
  | ok _ => exact .pure hw'.disk _

/-- A source file that does not compile ends the run, and nothing has been changed. -/
theorem yields_runApp_of_error (hparse : parse args env = .ok (.run config))
    (hcommand : config.command ≠ .tokens) (hwatch : config.settings.watch = false) {w : World}
    {cause : CompileError Headers.HeaderError}
    (hcause : w.disk.compiled config.settings = .error cause) (path : Text) (edits : List Text) :
    w.Yields (runApp args env path edits) (.error (.unit cause)) w.disk Session.failureMessage
      [] := by
  have ht : w.disk.translated config.settings = (.error cause, w.disk) := by
    rw [Disk.translated, hcause]
  obtain ⟨result, calls, hrun, herror, -⟩ :=
    exists_yields_runApp hparse hcommand hwatch w path edits
  rw [ht] at hrun herror
  obtain ⟨rfl, rfl⟩ := herror cause rfl
  exact hrun

/-- As a process, a run does the same, and adds the report of a failure that has not been told. -/
theorem run_runProcess {w w' : World} {result : Except AppError Unit}
    (h : (runApp args env "" []).run w = (result, w')) (hhelp : w'.helpShown = "") :
    (runProcess args env).run w = match result with
      | .ok _ => (0, w')
      | .error e => (1, { w' with stderr := w'.stderr ++ e.report }) := by
  rw [runProcess, run_bind_of_eq h]
  cases w'
  cases hhelp
  cases result with
  | error e => rfl
  | ok _ => rfl

/-- **A failed translation changes nothing on disk and runs no command; a successful one leaves just
the unit.** Of a failure nothing but one message is told, the answer carries its cause, and the
process ends with 1 without reporting it again. After a success the disk is what the commands leave
of the one with the unit. So the output file holds what the decoded source file compiles to, unless
a command writes to it; nothing but one message is told, and commands are run only if an executable
is wanted. -/
theorem runApp_withoutWatch (hparse : parse args env = .ok (.run config))
    (hcommand : config.command ≠ .tokens) (hwatch : config.settings.watch = false) (disk : Disk)
    (runner : Runner) (clock : Log.Readings) (seconds runId : Text) (path : Text)
    (edits : List Text) :
    let w : World := { disk, runner, clock, seconds, runId }
    (∀ cause, disk.compiled config.settings = .error cause →
      (∃ w', (runApp args env path edits).run w = (.error (.unit cause), w') ∧
        w'.disk = disk ∧ w'.calls = [] ∧ w'.stdout = Session.failureMessage) ∧
      ∃ w', (runProcess args env).run w = (1, w') ∧
        w'.disk = disk ∧ w'.calls = [] ∧ w'.stdout = Session.failureMessage ∧
        ∀ line ∈ w'.stderr.splitOn 0x0A, Text.startsWith "Error:" line = false) ∧
    ∀ c disk', disk.compiled config.settings = .ok c →
      disk.write config.settings.output c.output = .ok disk' →
      ∃ result w', (runApp args env path edits).run w = (result, w') ∧
        w'.disk = runner.after [] disk' w'.calls ∧
        ((∀ d before call, (runner d before call).2 = d) → w'.disk = disk') ∧
        ((∀ d before call, (runner d before call).2.read config.settings.output =
          d.read config.settings.output) → w'.disk.read config.settings.output = .ok c.output) ∧
        (∃ content, disk.read config.settings.input = .ok content ∧
          disk.compiledContent config.settings content = .ok c) ∧
        w'.stdout = Session.successMessage seconds ∧
        (w'.calls ≠ [] → config.command = .build ∧ config.settings.noCompile = false) := by
  intro w
  refine ⟨fun cause hcause => ?_, fun c disk' hc hwrite => ?_⟩
  · have hfails := yields_runApp_of_error hparse hcommand hwatch (w := w) hcause
    refine ⟨?_, ?_⟩
    · obtain ⟨w', hrun, hw'⟩ := hfails path edits
      exact ⟨w', hrun, hw'.disk, hw'.calls, hw'.stdout⟩
    · obtain ⟨w', hrun, hw'⟩ := hfails "" []
      obtain ⟨lines, hlines, hstderr⟩ := hw'.stderr
      refine ⟨_, run_runProcess hrun hw'.helpShown, hw'.disk, hw'.calls, hw'.stdout, ?_⟩
      -- The failure has been told, so that its report is empty and only the log is left.
      have hlog : w'.stderr ++ AppError.report (.unit cause) = .concat lines := by
        rw [hstderr]
        exact Text.append_empty _
      intro line hline
      rw [hlog] at hline
      exact Log.not_startsWith_of_mem_splitOn hlines hline
  · have ht : disk.translated config.settings = (.ok c, disk') := by
      rw [Disk.translated, hc]
      simp only [hwrite]
    obtain ⟨result, calls, ⟨w', hrun, hw'⟩, -, hcalls⟩ :=
      exists_yields_runApp hparse hcommand hwatch w path edits
    rw [ht] at hw'
    obtain ⟨content, hread⟩ := Disk.exists_read_of_compiled hc
    obtain rfl : w'.calls = calls := hw'.calls
    have hdisk : w'.disk = runner.after [] disk' w'.calls := hw'.disk
    refine ⟨result, w', hrun, hdisk, fun hrunner => ?_, fun hrunner => ?_, ⟨content, hread, ?_⟩,
      hw'.stdout, hcalls⟩
    · have hkeeps (d : Disk) (before : List Call) (call : Call) (hd : d = disk') :
          (runner d before call).2 = disk' := (hrunner d before call).trans hd
      rw [hdisk]
      exact Runner.after_keeps hkeeps [] rfl w'.calls
    · have hkeeps (d : Disk) (before : List Call) (call : Call)
          (hd : d.read config.settings.output = .ok c.output) :
          (runner d before call).2.read config.settings.output = .ok c.output :=
        (hrunner d before call).trans hd
      rw [hdisk]
      exact Runner.after_keeps hkeeps [] (Disk.read_write hwrite) w'.calls
    · rw [← Disk.compiled_of_read hread, hc]

/-- A disk with a source file and the unit of an earlier run. -/
def staleDisk (source : Text) : Disk :=
  { nodes := [(["main.int"], .file source), (["main_intermediate.cpp"], .file "old")] }

/-- A source that breaks off leaves the unit of an earlier run; a program of nothing replaces it. -/
theorem runApp_withoutWatch_stale :
    parse [] [] = .ok (.run ⟨.build, .ofGiven []⟩) ∧
    (∃ cause w', (runApp [] [] "" []).run { disk := staleDisk "global" } =
        (.error (.unit cause), w') ∧
      cause.phase = "parser" ∧ w'.disk = staleDisk "global" ∧ w'.calls = []) ∧
    ∃ result w', (runApp [] [] "" []).run { disk := staleDisk "" } = (result, w') ∧
      w'.disk.read "main_intermediate.cpp" = .ok (Cpp.sections .empty []) ∧
      w'.stdout = "The program was translated successfully in 0 seconds!\n" := by
  have hparse : parse [] [] = .ok (.run ⟨.build, .ofGiven []⟩) := rfl
  refine ⟨hparse, ?_, ?_⟩
  · obtain ⟨cause, hcause, hphase⟩ : ∃ cause,
        (staleDisk "global").compiled (.ofGiven []) = .error cause ∧ cause.phase = "parser" :=
      ⟨_, rfl, rfl⟩
    obtain ⟨w', hrun, hdisk, hcalls, -⟩ := ((runApp_withoutWatch hparse (by decide) (by decide)
      (staleDisk "global") .absent default "0" "" "" []).1 cause hcause).1
    exact ⟨cause, w', hrun, hphase, hdisk, hcalls⟩
  · obtain ⟨c, hc, houtput⟩ : ∃ c, (staleDisk "").compiled (.ofGiven []) = .ok c ∧
        c.output = Cpp.sections .empty [] := ⟨_, rfl, rfl⟩
    obtain ⟨result, w', hrun, -, -, hread, -, hstdout, -⟩ := (runApp_withoutWatch hparse
      (by decide) (by decide) (staleDisk "") .absent default "0" "" "" []).2 c _ hc rfl
    have hread := hread fun _ _ _ => rfl
    rw [houtput] at hread
    exact ⟨result, w', hrun, hread, hstdout⟩

end World

end IntLang
