import IntLang.Proofs.App.Translation
import IntLang.Proofs.CommandLine.Timeout

/-!
# The limit to the time of commands

Whatever the program does with a configuration, once or again and again while it watches, all the
commands that it runs have the same limit to their time, or none of them has one (`Limited`). It is
the time of the configuration, if that is positive. So, unless the time that was asked for is too
long for 64 bits, it is just that time (`runApp_deadline`).
-/

namespace IntLang

/-! ### Computations with the same limit everywhere -/

/-- A computation whose answers have a property, and that runs all its commands with the same limit
to their time. -/
def Limited {α : Type} (limit : Option Int64) (x : StateM World α) (P : α → Prop) : Prop :=
  ∀ w : World, ∃ a w' calls, x.run w = (a, w') ∧ P a ∧ w'.calls = w.calls ++ calls ∧
    ∀ c ∈ calls, c.limit = limit

namespace Limited

variable {α β : Type} {limit : Option Int64} {x : StateM World α} {f : α → StateM World β}
  {P : α → Prop} {Q : β → Prop}

/-- A computation that runs no commands. -/
theorem of_calls_eq (h : ∀ w, ∃ a w', x.run w = (a, w') ∧ P a ∧ w'.calls = w.calls) :
    Limited limit x P := by
  intro w
  obtain ⟨a, w', hrun, ha, hcalls⟩ := h w
  exact ⟨a, w', [], hrun, ha, by rw [hcalls, List.append_nil], List.forall_mem_nil _⟩

theorem pure {a : α} (h : P a) : Limited limit (Pure.pure a) P :=
  of_calls_eq fun w => ⟨a, w, rfl, h, rfl⟩

theorem of_looks {y : Disk → Id α} (h : ∀ d, Looks d x (y d)) :
    Limited limit x fun _ => True := by
  refine of_calls_eq fun w => ?_
  obtain ⟨w', hrun, hw'⟩ := h w.disk w rfl
  exact ⟨_, w', hrun, trivial, by rw [hw'.calls, List.append_nil]⟩

theorem of_commands (h : Commands limit x) : Limited limit x fun _ => True := by
  intro w
  obtain ⟨a, calls, ⟨w', hrun, hw'⟩, hcalls⟩ := h w
  exact ⟨a, w', calls, hrun, trivial, hw'.calls, hcalls⟩

theorem bind (hx : Limited limit x P) (hf : ∀ a, P a → Limited limit (f a) Q) :
    Limited limit (x >>= f) Q := by
  intro w
  obtain ⟨a, v, calls, hrun, ha, hcalls, hlimit⟩ := hx w
  obtain ⟨b, u, calls', hrun', hb, hcalls', hlimit'⟩ := hf a ha v
  refine ⟨b, u, calls ++ calls', (run_bind_of_eq hrun f).trans hrun', hb, ?_,
    List.forall_mem_append.2 ⟨hlimit, hlimit'⟩⟩
  rw [hcalls', hcalls, List.append_assoc]

theorem foldlM {g : β → α → StateM World β} (hg : ∀ b a, Q b → Limited limit (g b a) Q)
    (as : List α) {b : β} (hb : Q b) : Limited limit (as.foldlM g b) Q := by
  induction as generalizing b with
  | nil => exact .pure hb
  | cons a as ih => exact (hg b a hb).bind fun _ => ih

theorem forM {g : α → StateM World Unit} (hg : ∀ a, Limited limit (g a) fun _ => True)
    (as : List α) : Limited limit (as.forM g) fun _ => True := by
  induction as with
  | nil => exact .pure trivial
  | cons a as ih => exact (hg a).bind fun _ _ => ih

theorem get : Limited limit (MonadState.get : StateM World World) fun _ => True :=
  of_calls_eq fun w => ⟨w, w, rfl, trivial, rfl⟩

/-- Writing a file runs no commands. -/
theorem write (path content : Text) :
    Limited limit (World.storage.write path content) fun _ => True := by
  refine of_calls_eq fun w => ?_
  rw [World.run_write]
  cases w.disk.write path content with
  | error reason => exact ⟨_, w, rfl, trivial, rfl⟩
  | ok disk => exact ⟨_, _, rfl, trivial, rfl⟩

end Limited

/-! ### Sessions -/

/-- The limit to the time of the commands of a configuration. -/
abbrev CommandLine.Config.limit (config : CommandLine.Config) : Option Int64 :=
  if 0 < config.timeoutNanoseconds then some config.timeoutNanoseconds else none

/-- A session on a machine, with a configuration, whose headers can be looked up whatever is on the
disk. -/
structure Session.Serves (s : Session (StateM World)) (config : CommandLine.Config) : Prop where
  host : ∃ v, s.host = World.host v
  config_eq : s.config = config
  sources : ∀ d, ∃ views, List.Forall₂ (Mirrors d) s.sources views

namespace Session.Serves

variable {s : Session (StateM World)} {config : CommandLine.Config}

theorem log (h : s.Serves config) (r : Log.Record) :
    Limited config.limit (s.log r) fun _ => True := by
  obtain ⟨v, hv⟩ := h.host
  exact .of_looks fun d => .log d hv r

theorem out (h : s.Serves config) (t : Text) :
    Limited config.limit (s.host.out t) fun _ => True := by
  obtain ⟨v, hv⟩ := h.host
  rw [hv]
  exact .of_calls_eq fun w => ⟨_, _, rfl, trivial, rfl⟩

theorem makeUnit (h : s.Serves config) : Limited config.limit s.makeUnit fun _ => True := by
  obtain ⟨v, hv⟩ := h.host
  choose views hviews using h.sources
  have hcompile : Limited config.limit (compileFile s.host.storage s.log
      (Headers.resolver s.sources) s.config.settings.input) fun _ => True := by
    rw [hv]
    exact .of_looks fun d => .compileFile (fun r => .log d hv r) (hviews d) _
  refine hcompile.bind fun answer _ => ?_
  cases answer with
  | error cause => exact .pure trivial
  | ok result =>
      rw [hv]
      have hwrite : Limited config.limit (writeUnit World.storage s.config.settings.output
          result.output : StateM World (Except (CompileError Headers.HeaderError) Unit))
          fun _ => True := by
        refine (Limited.write _ _).bind fun answer _ => ?_
        cases answer with
        | error reason => exact .pure trivial
        | ok _ => exact .pure trivial
      refine hwrite.bind fun answer _ => ?_
      cases answer with
      | error cause => exact .pure trivial
      | ok _ => exact .pure trivial

theorem unit (h : s.Serves config) : Limited config.limit s.unit fun _ => True := by
  obtain ⟨v, hv⟩ := h.host
  have hrestart : Limited config.limit s.host.restart fun _ => True := by
    rw [hv]
    exact .pure trivial
  have hseconds : Limited config.limit s.host.seconds fun _ => True := by
    rw [hv]
    exact .of_calls_eq fun w => ⟨_, _, rfl, trivial, rfl⟩
  refine hrestart.bind fun _ _ => h.makeUnit.bind fun answer _ => ?_
  cases answer with
  | error cause =>
      exact (h.log _).bind fun _ _ => (h.out _).bind fun _ _ => .pure trivial
  | ok result =>
      exact (h.log _).bind fun _ _ => hseconds.bind fun _ _ => (h.out _).bind fun _ _ =>
        .pure trivial

/-- **Commands are run only here**, and with the limit of the configuration. -/
theorem executable (h : s.Serves config) :
    Limited config.limit s.executable fun _ => True := by
  obtain ⟨v, hv⟩ := h.host
  have hlimit : s.limit = config.limit := by rw [Session.limit, h.config_eq]
  rw [← hlimit]
  exact .of_commands (Commands.executable hv)

theorem once (h : s.Serves config) : Limited config.limit s.once fun _ => True := by
  refine h.unit.bind fun answer _ => ?_
  cases answer with
  | error e => exact .pure trivial
  | ok _ =>
      dsimp only
      split
      · exact h.executable
      · exact .pure trivial

theorem again (h : s.Serves config) : Limited config.limit s.again fun _ => True := by
  refine h.once.bind fun answer _ => ?_
  cases answer with
  | error e => exact h.log _
  | ok _ => exact .pure trivial

theorem withWatcher (h : s.Serves config) (watcher : Watch.Watcher) :
    Session.Serves { s with watcher } config :=
  ⟨h.host, h.config_eq, h.sources⟩

theorem feed (h : s.Serves config) (input : Watch.Input) :
    Limited config.limit (s.feed input) fun s => s.Serves config := by
  rw [Session.feed]
  generalize s.watcher.step input = outcome
  obtain ⟨watcher, records⟩ := outcome
  refine (Limited.forM h.log records).bind fun _ _ => ?_
  dsimp only
  split
  · exact h.again.bind fun _ _ => .pure (h.withWatcher watcher)
  · exact .pure (h.withWatcher watcher)

theorem finish (h : s.Serves config) (exit : Watch.Exit) :
    Limited config.limit (s.finish exit) fun _ => True :=
  (h.feed (.exit exit)).bind fun _ hs => (hs.log _).bind fun _ _ => .pure trivial

/-- An edit of the source file, and what the watcher makes of it. -/
theorem edit (h : s.Serves config) (path content : Text) :
    Limited config.limit (World.edit path s content) fun s => s.Serves config := by
  exact (Limited.write _ _).bind fun _ _ => Limited.get.bind fun _ _ => (h.feed _).bind
    fun _ hs => hs.feed _

theorem watch (h : s.Serves config) :
    Limited config.limit s.watch (IfOk fun s => s.Serves config) := by
  obtain ⟨v, hv⟩ := h.host
  have habsolute : Limited config.limit (s.host.absolute s.config.settings.input)
      fun _ => True := by
    rw [hv]
    exact .of_calls_eq fun w => ⟨_, _, rfl, trivial, rfl⟩
  have hstart (path : Text) : Limited config.limit
      (Watch.Watcher.start s.host.storage path) fun _ => True := by
    rw [hv]
    refine (Limited.of_looks fun d => .stat d _).bind fun answer _ => ?_
    cases answer with
    | error reason => exact .pure trivial
    | ok info => exact .pure trivial
  refine habsolute.bind fun path _ => (hstart path).bind fun answer _ => ?_
  cases answer with
  | error cause => exact .pure (ifOk_error _)
  | ok watcher => exact (h.log _).bind fun _ _ => .pure (ifOk_ok (h.withWatcher watcher))

end Session.Serves

/-! ### The whole program -/

open CommandLine

variable {args : List Text} {env : Environment} {config : CommandLine.Config}

/-- A session with the configuration is left, or none. -/
def Leaves (config : CommandLine.Config) (left : Option (Session (StateM World))) : Prop :=
  ∀ s ∈ left, s.Serves config

theorem leaves_none (config : CommandLine.Config) : Leaves config none := by
  rintro _ ⟨⟩

theorem leaves_some {s : Session (StateM World)} (h : s.Serves config) :
    Leaves config (some s) := by
  rintro _ ⟨⟩
  exact h

theorem limited_work {s : Session (StateM World)} (h : s.Serves config) :
    Limited config.limit (App.work s) (IfOk (Leaves config)) := by
  rw [App.work]
  split
  · refine h.again.bind fun _ _ => h.watch.bind fun answer hanswer => ?_
    cases answer with
    | error e => exact .pure (ifOk_error e)
    | ok s => exact .pure (ifOk_ok (leaves_some (hanswer s rfl)))
  · refine h.once.bind fun answer _ => ?_
    cases answer with
    | error e => exact .pure (ifOk_error e)
    | ok _ => exact (h.log _).bind fun _ _ => .pure (ifOk_ok (leaves_none config))

theorem limited_begin (v : World) (config : CommandLine.Config) :
    Limited config.limit (App.begin (World.host v) config)
      (IfOk fun s => s.Serves config) := by
  rw [App.begin]
  cases Log.Logger.make config.settings.logLevel config.settings.logFormat with
  | error cause => exact .pure (ifOk_error _)
  | ok logger =>
      have hs : Session.Serves { host := World.host v, config, logger } config :=
        ⟨⟨v, rfl⟩, rfl, fun _ => ⟨[], .nil⟩⟩
      exact (hs.log _).bind fun _ _ => .pure (ifOk_ok hs)

theorem limited_equip {s : Session (StateM World)} (h : s.Serves config) :
    Limited config.limit (App.equip s) (IfOk fun s => s.Serves config) := by
  obtain ⟨v, hv⟩ := h.host
  have hsources (dir : Text) : Limited config.limit (App.headerSources s.host.storage dir)
      fun sources => ∀ d, ∃ views, List.Forall₂ (Mirrors d) sources views := by
    rw [hv, App.headerSources_eq]
    refine (Limited.of_looks fun d => .isDirectory d _).bind fun found _ => .pure fun d => ?_
    exact ⟨_, Headers.forall₂_mirrors_sources d found dir⟩
  rw [App.equip]
  split
  · exact .pure (ifOk_error _)
  · exact (hsources _).bind fun _ hviews => .pure (ifOk_ok ⟨h.host, h.config_eq, hviews⟩)

theorem limited_listTokens {s : Session (StateM World)} (h : s.Serves config) :
    Limited config.limit s.listTokens fun _ => True := by
  obtain ⟨v, hv⟩ := h.host
  have htokens : Limited config.limit (tokenizeFile s.host.storage s.config.settings.input :
      StateM World (Except (CompileError Headers.HeaderError) (List Token))) fun _ => True := by
    rw [hv]
    refine (Limited.of_looks fun d => .load d _).bind fun answer _ => ?_
    cases answer with
    | error cause => exact .pure trivial
    | ok file => exact .pure trivial
  refine htokens.bind fun answer _ => ?_
  cases answer with
  | error cause => exact .pure trivial
  | ok tokens => exact (h.out _).bind fun _ _ => (h.log _).bind fun _ _ => .pure trivial

theorem limited_runConfig (v : World) (config : CommandLine.Config) :
    Limited config.limit (App.runConfig (World.host v) config) (IfOk (Leaves config)) := by
  refine (limited_begin v config).bind fun answer hanswer => ?_
  cases answer with
  | error e => exact .pure (ifOk_error e)
  | ok s =>
      have hs := hanswer s rfl
      dsimp only
      split
      · refine (limited_listTokens hs).bind fun answer _ => ?_
        cases answer with
        | error e => exact .pure (ifOk_error e)
        | ok _ => exact .pure (ifOk_ok (leaves_none config))
      · refine (limited_equip hs).bind fun answer hanswer => ?_
        cases answer with
        | error e => exact .pure (ifOk_error e)
        | ok s => exact limited_work (hanswer s rfl)

/-- **All the commands of a run have the limit of the configuration.** -/
theorem limited_runApp (hparse : parse args env = .ok (.run config)) (path : Text)
    (edits : List Text) :
    Limited config.limit (World.runApp args env path edits) fun _ => True := by
  refine Limited.get.bind fun v _ => ?_
  have hstart :
      Limited config.limit (App.start (World.host v) args env) (IfOk (Leaves config)) := by
    simp only [App.start, hparse]
    exact limited_runConfig v config
  refine hstart.bind fun answer hanswer => ?_
  rcases answer with e | - | session
  · exact .pure trivial
  · exact .pure trivial
  · have hedits := Limited.foldlM (fun s content hs => Session.Serves.edit hs path content) edits
      (hanswer _ rfl session rfl)
    exact hedits.bind fun _ hs => hs.finish .cancelled

/-- **What becomes of the time that is asked for.** The seconds are multiplied in 64 bits, so that
the configuration has exactly that time if it is at most 9223372036 seconds, and less otherwise. All
the commands of a run have a limit to their time exactly if the time of the configuration is
positive, and then it is that time. Up to the bound they have one exactly if there was one asked
for, and it is just what was asked for; beyond it any limit is shorter. -/
theorem runApp_deadline (hparse : parse args env = .ok (.run config)) :
    ∃ arguments, Arguments.read (selectTopic args).2 = .ok arguments ∧
      (∃ seconds, Requests env arguments.given seconds) ∧
      ∀ seconds, Requests env arguments.given seconds →
        0 ≤ seconds ∧ seconds < 2 ^ 63 ∧
        config.timeoutNanoseconds.toInt = (seconds * 10 ^ 9).bmod (2 ^ 64) ∧
        (config.timeoutNanoseconds.toInt = seconds * 10 ^ 9 ↔ seconds ≤ 9223372036) ∧
        (9223372036 < seconds → config.timeoutNanoseconds.toInt < seconds * 10 ^ 9) ∧
        ∀ path edits w, ∃ calls,
          ((World.runApp args env path edits).run w).2.calls = w.calls ++ calls ∧
          ∀ c ∈ calls, (c.deadline = true ↔ 0 < config.timeoutNanoseconds.toInt) ∧
            (∀ l, c.limit = some l ↔ 0 < l.toInt ∧ l = config.timeoutNanoseconds) ∧
            (seconds ≤ 9223372036 → (c.deadline = true ↔ 0 < seconds) ∧
              ∀ l ∈ c.limit, l.toInt = seconds * 10 ^ 9) ∧
            (9223372036 < seconds → ∀ l ∈ c.limit, l.toInt < seconds * 10 ^ 9) := by
  obtain ⟨arguments, hread, htimeout⟩ := exists_settings_of_parse hparse
  refine ⟨arguments, hread, exists_requests env (isRead_of_read hread), ?_⟩
  intro seconds hrequests
  obtain rfl : config.settings.timeout.toInt = seconds := by
    rw [htimeout, hrequests.toInt_secondsOf]
  have hnonneg := Settings.timeout_nonneg_of_check (check_of_parse hparse)
  have hexact := timeoutNanoseconds_eq_iff hnonneg
  refine ⟨hnonneg, config.settings.timeout.toInt_lt, toInt_timeoutNanoseconds config, hexact,
    timeoutNanoseconds_lt, fun path edits w => ?_⟩
  obtain ⟨a, w', calls, hrun, -, hcalls, hlimit⟩ := limited_runApp hparse path edits w
  refine ⟨calls, by rw [hrun, hcalls], fun c hc => ?_⟩
  have hsome (l : Int64) :
      c.limit = some l ↔ 0 < l.toInt ∧ l = config.timeoutNanoseconds := by
    rw [hlimit c hc, Option.ite_none_right_eq_some, Int64.lt_iff_toInt_lt, Option.some.injEq]
    constructor
    · rintro ⟨hpos, rfl⟩
      exact ⟨hpos, rfl⟩
    · rintro ⟨hpos, rfl⟩
      exact ⟨hpos, rfl⟩
  have hdeadline : c.deadline = true ↔ 0 < config.timeoutNanoseconds.toInt := by
    rw [Call.deadline, Option.isSome_iff_exists]
    constructor
    · rintro ⟨l, hl⟩
      obtain ⟨hpos, rfl⟩ := (hsome l).1 hl
      exact hpos
    · exact fun hpos => ⟨_, (hsome _).2 ⟨hpos, rfl⟩⟩
  refine ⟨hdeadline, hsome, fun hle => ⟨?_, fun l hl => ?_⟩, fun hlt l hl => ?_⟩
  · rw [hdeadline, hexact.2 hle]
    omega
  · rw [((hsome l).1 hl).2, hexact.2 hle]
  · rw [((hsome l).1 hl).2]
    exact timeoutNanoseconds_lt hlt

/-- Five seconds are asked for by the flag, which beats the variable, and every command has just
this limit. -/
theorem runApp_deadline_five :
    ∃ config, parse ["--timeout", "5"] [("TIMEOUT", "7")] = .ok (.run config) ∧
      config.timeoutNanoseconds.toInt = 5 * 10 ^ 9 ∧
      ∀ path edits w, ∃ calls,
        ((World.runApp ["--timeout", "5"] [("TIMEOUT", "7")] path edits).run w).2.calls
          = w.calls ++ calls ∧
        ∀ c ∈ calls, c.deadline = true ∧ ∀ l ∈ c.limit, l.toInt = 5 * 10 ^ 9 := by
  have hparse : parse ["--timeout", "5"] [("TIMEOUT", "7")]
      = .ok (.run ⟨.build, .ofGiven [⟨.timeout, .number 5⟩]⟩) := rfl
  obtain ⟨arguments, hread, -, hall⟩ := runApp_deadline hparse
  obtain rfl : { given := [⟨.timeout, .number 5⟩] } = arguments := Except.ok.inj hread
  have hgiven : [⟨.timeout, .number 5⟩] = [] ++ (⟨.timeout, .number 5⟩ : Assignment) :: [] := rfl
  obtain ⟨-, -, -, hexact, -, hcalls⟩ := hall 5 (.flag hgiven (List.forall_mem_nil _))
  refine ⟨_, hparse, hexact.2 (by decide), fun path edits w => ?_⟩
  obtain ⟨calls, heq, hlimits⟩ := hcalls path edits w
  refine ⟨calls, heq, fun c hc => ?_⟩
  obtain ⟨-, -, hfive, -⟩ := hlimits c hc
  obtain ⟨hdeadline, hlimit⟩ := hfive (by decide)
  exact ⟨hdeadline.2 (by decide), hlimit⟩

/-- Of more than five hundred years, less than a third of a second is left. -/
theorem runApp_deadline_wrapped :
    ∃ config, parse ["--timeout", "18446744074"] [] = .ok (.run config) ∧
      config.timeoutNanoseconds.toInt = 290448384 :=
  ⟨⟨.build, .ofGiven [⟨.timeout, .number 18446744074⟩]⟩, rfl, rfl⟩

end IntLang
