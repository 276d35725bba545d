import IntLang.Proofs.Toolchain.Gate

/-!
# Behind the gate

No more than two commands are run for a build: one that asks for the version and, if the answer is
accepted, one that compiles. To see them, the exchanges with a host are noted beside it (`Noted`),
which does not change what happens (`Noted.Follows.build`). What a build comes to is told by its
exchanges (`build_gated`).
-/

namespace IntLang.Toolchain

/-! ### Notes of exchanges -/

/-- A command and its answer. -/
structure Exchange where
  /-- The command. -/
  argv : List Text
  /-- What came of it. -/
  answer : CommandResult

/-- A host beside which the exchanges are noted. -/
structure Noted (σ : Type) where
  /-- The host. -/
  host : σ
  /-- The exchanges so far. -/
  exchanges : List Exchange := []

namespace Noted

variable {σ : Type} (log : Log.Record → StateM σ Unit) (run : List Text → StateM σ CommandResult)

/-- Runs a command and notes it with its answer. -/
def ask (argv : List Text) : StateM (Noted σ) CommandResult :=
  modifyGet fun n =>
    let outcome := (run argv).run n.host
    (outcome.1, ⟨outcome.2, n.exchanges ++ [⟨argv, outcome.1⟩]⟩)

/-- Logs a record, and notes nothing. -/
def tell (r : Log.Record) : StateM (Noted σ) Unit :=
  modify fun n => ⟨((log r).run n.host).2, n.exchanges⟩

theorem exchanges_tell (r : Log.Record) (n : Noted σ) :
    ((tell log r).run n).2.exchanges = n.exchanges := rfl

theorem exists_run_ask (argv : List Text) (n : Noted σ) :
    ∃ answer host, (ask run argv).run n = (answer, ⟨host, n.exchanges ++ [⟨argv, answer⟩]⟩) :=
  ⟨_, _, rfl⟩

/-- A computation on a host with notes does what another does on the host alone. -/
def Follows {α : Type} (y : StateM (Noted σ) α) (x : StateM σ α) : Prop :=
  ∀ n, (y.run n).1 = (x.run n.host).1 ∧ (y.run n).2.host = (x.run n.host).2

namespace Follows

variable {log run} {α β : Type}

theorem pure (a : α) : Follows (Pure.pure a : StateM (Noted σ) α) (Pure.pure a) :=
  fun _ => ⟨rfl, rfl⟩

theorem bind {y : StateM (Noted σ) α} {x : StateM σ α} {g : α → StateM (Noted σ) β}
    {f : α → StateM σ β} (h : Follows y x) (hg : ∀ a, Follows (g a) (f a)) :
    Follows (y >>= g) (x >>= f) := by
  intro n
  obtain ⟨hanswer, hhost⟩ := h n
  show ((g (y.run n).1).run (y.run n).2).1 = ((f (x.run n.host).1).run (x.run n.host).2).1 ∧
    ((g (y.run n).1).run (y.run n).2).2.host = ((f (x.run n.host).1).run (x.run n.host).2).2
  rw [hanswer, ← hhost]
  exact hg _ _

theorem ask (argv : List Text) : Follows (ask run argv) (run argv) := fun _ => ⟨rfl, rfl⟩

theorem tell (r : Log.Record) : Follows (tell log r) (log r) := fun _ => ⟨rfl, rfl⟩

theorem version (c : Config) :
    Follows (Toolchain.version (Noted.ask run) c) (Toolchain.version run c) := by
  refine (ask _).bind fun answer => ?_
  dsimp only
  split
  · exact .pure _
  · split <;> exact .pure _

theorem check (c : Config) :
    Follows (Toolchain.check (Noted.tell log) (Noted.ask run) c) (Toolchain.check log run c) := by
  rw [Toolchain.check, Toolchain.check]
  split
  · exact .pure _
  refine (version c).bind fun answer => ?_
  cases answer with
  | error e => exact .pure _
  | ok v =>
      refine (tell _).bind fun _ => ?_
      split <;> exact .pure _

/-- Notes do not change what a build does. -/
theorem build (c : Config) (source executable : Text) :
    Follows (Toolchain.build (Noted.tell log) (Noted.ask run) c source executable)
      (Toolchain.build log run c source executable) := by
  refine (check c).bind fun answer => ?_
  cases answer with
  | error e => exact .pure _
  | ok _ =>
      refine (tell _).bind fun _ => (ask _).bind fun answer => ?_
      dsimp only
      split
      · exact .pure _
      · split
        · exact (tell _).bind fun _ => .pure _
        · exact .pure _

end Follows

end Noted

/-! ### Builds -/

/-- What comes of a build, and the exchanges on the way. -/
inductive Built (c : Config) (source executable : Text) :
    List Exchange → Except ToolError Unit → Prop
  | unknown {e : ToolError} (h : Checked c none (.error e)) :
      Built c source executable [] (.error e)
  | unaccepted {answer : CommandResult} {e : ToolError} (h : Checked c (some answer) (.error e)) :
      Built c source executable [⟨query c.compiler, answer⟩] (.error e)
  | refused {answer answer' : CommandResult} {cause : CommandFailure}
      (h : Checked c (some answer) (.ok ())) (hfailure : answer'.failure = some cause) :
      Built c source executable [⟨query c.compiler, answer⟩,
        ⟨c.compiler :: arguments c source executable, answer'⟩]
        (.error (.refused c.compiler answer'.output cause))
  | built {answer answer' : CommandResult} (h : Checked c (some answer) (.ok ()))
      (hfailure : answer'.failure = none) :
      Built c source executable [⟨query c.compiler, answer⟩,
        ⟨c.compiler :: arguments c source executable, answer'⟩] (.ok ())

/-- What a build does on a host. -/
theorem exists_run_build {σ : Type} (log : Log.Record → StateM σ Unit)
    (run : List Text → StateM σ CommandResult) (c : Config) (source executable : Text)
    (n : Noted σ) :
    ∃ result host es, (build (Noted.tell log) (Noted.ask run) c source executable).run n
      = (result, ⟨host, n.exchanges ++ es⟩) ∧ Built c source executable es result := by
  obtain ⟨result, ⟨host, exchanges⟩, hcheck, h⟩ := exists_run_check (Noted.tell log)
    (Noted.ask run) c Noted.exchanges (Noted.exchanges_tell log) n
  rcases h with ⟨hnone, hchecked⟩ | ⟨answer, n₁, hask, hsome, hchecked⟩
  · obtain rfl : exchanges = n.exchanges := hnone
    cases result with
    | ok _ => cases hchecked
    | error e =>
        refine ⟨.error e, host, [], (run_bind_of_eq hcheck _).trans ?_, .unknown hchecked⟩
        rw [List.append_nil]
        rfl
  obtain ⟨_, host₁, hask'⟩ := Noted.exists_run_ask run (query c.compiler) n
  obtain ⟨rfl, rfl⟩ := Prod.mk.inj (hask.symm.trans hask')
  obtain rfl : exchanges = n.exchanges ++ [⟨query c.compiler, answer⟩] := hsome
  cases result with
  | error e => exact ⟨.error e, host, _, run_bind_of_eq hcheck _, .unaccepted hchecked⟩
  | ok _ =>
      obtain ⟨host₂, htell⟩ : ∃ host₂, (Noted.tell log ⟨.info, "Compiling",
          [("compiler", .text c.compiler),
            ("args", .text (Text.intercalate " " (arguments c source executable)))]⟩).run
              ⟨host, n.exchanges ++ [⟨query c.compiler, answer⟩]⟩
            = ((), ⟨host₂, n.exchanges ++ [⟨query c.compiler, answer⟩]⟩) := ⟨_, rfl⟩
      obtain ⟨answer', host₃, hcompile⟩ := Noted.exists_run_ask run
        (c.compiler :: arguments c source executable)
        ⟨host₂, n.exchanges ++ [⟨query c.compiler, answer⟩]⟩
      rw [List.append_assoc] at hcompile
      have hbuild : (build (Noted.tell log) (Noted.ask run) c source executable).run n = _ :=
        (run_bind_of_eq hcheck _).trans ((run_bind_of_eq htell _).trans
          (run_bind_of_eq hcompile _))
      cases hfailure : answer'.failure with
      | some cause =>
          rw [hfailure] at hbuild
          exact ⟨_, host₃, _, hbuild, .refused hchecked hfailure⟩
      | none =>
          rw [hfailure] at hbuild
          dsimp only at hbuild
          split at hbuild
          · exact ⟨_, _, _, hbuild, .built hchecked hfailure⟩
          · exact ⟨_, host₃, _, hbuild, .built hchecked hfailure⟩

/-- What a build comes to, told by its exchanges with the host. -/
structure Gated (c : Config) (source executable : Text) (es : List Exchange)
    (result : Except ToolError Unit) : Prop where
  /-- If the compiler and the standard are not known together, no command is run. -/
  unknown : requirement? c.compiler c.standard = none → es = []
  /-- Otherwise the version is asked for. If the answer is accepted, one more command is run, which
  compiles, and else none. -/
  known : ∀ r, requirement? c.compiler c.standard = some r →
    ∃ answer others, es = ⟨query c.compiler, answer⟩ :: others ∧
      (Accepts r answer →
        ∃ answer', others = [⟨c.compiler :: arguments c source executable, answer'⟩]) ∧
      (¬Accepts r answer → others = [])
  /-- The build succeeds if there is a second command and it succeeds. -/
  ok : result = .ok () ↔ ∃ first second, es = [first, second] ∧ second.answer.failure = none
  /-- The unit is refused, with what the compiler wrote, if the second command fails. -/
  refused : ∀ compiler output cause, result = .error (.refused compiler output cause) ↔
    c.compiler = compiler ∧ ∃ first second, es = [first, second] ∧
      second.answer.output = output ∧ second.answer.failure = some cause
  /-- The standard is not supported if it is not known, or if the answer is a version that does not
  meet the requirement. -/
  unsupported : (∃ e, result = .error e ∧ e.isUnsupported = true) ↔
    requirement? c.compiler c.standard = none ∨
      ∃ r answer v, requirement? c.compiler c.standard = some r ∧
        es = [⟨query c.compiler, answer⟩] ∧ answer.failure = none ∧
        Version.Spells (firstLine answer.output) v ∧
        ¬(v.preRelease = "" ∧ r.least.numbers ≤ v.numbers)

theorem Built.gated {c : Config} {source executable : Text} {es : List Exchange}
    {result : Except ToolError Unit} (h : Built c source executable es result) :
    Gated c source executable es result where
  unknown hrequirement := by
    cases h with
    | unknown => rfl
    | unaccepted h | refused h | built h =>
        obtain ⟨r, hr⟩ := h.exists_requirement
        cases hrequirement.symm.trans hr
  known r hrequirement := by
    have haccepts {answer : CommandResult} {x : Except ToolError Unit}
        (h : Checked c (some answer) x) : x = .ok () ↔ Accepts r answer := by
      rw [h.eq_ok_iff]
      exact ⟨fun ⟨r', hr', h⟩ => Option.some.inj (hr'.symm.trans hrequirement) ▸ h,
        fun h => ⟨r, hrequirement, h⟩⟩
    cases h with
    | unknown h =>
        cases h with
        | unknown hnone => cases hnone.symm.trans hrequirement
    | @unaccepted answer e h =>
        exact ⟨answer, [], rfl, fun ha => (nomatch (haccepts h).2 ha), fun _ => rfl⟩
    | @refused answer answer' cause h hfailure =>
        exact ⟨answer, _, rfl, fun _ => ⟨answer', rfl⟩, fun ha => absurd ((haccepts h).1 rfl) ha⟩
    | @built answer answer' h hfailure =>
        exact ⟨answer, _, rfl, fun _ => ⟨answer', rfl⟩, fun ha => absurd ((haccepts h).1 rfl) ha⟩
  ok := by
    cases h with
    | unknown | unaccepted => simp
    | refused h hfailure => simp [hfailure]
    | built h hfailure => simp [hfailure]
  refused compiler output cause := by
    cases h with
    | unknown h =>
        cases h with
        | unknown => simp
    | unaccepted h =>
        cases h with
        | unread _ hasked => cases hasked <;> simp
        | unmet => simp
    | refused h hfailure => simp [hfailure]
    | built h hfailure => simp [hfailure]
  unsupported := by
    cases h with
    | unknown h =>
        cases h with
        | unknown hnone => exact iff_of_true ⟨_, rfl, rfl⟩ (.inl hnone)
    | @unaccepted answer _ h =>
        cases h with
        | unread hsome hasked =>
            refine iff_of_false ?_ ?_
            · rintro ⟨_, ⟨⟩, hunsupported⟩
              cases hasked <;> cases hunsupported
            · rintro (hnone | ⟨_, _, v, -, ⟨⟩, hfailure, hv, -⟩)
              · cases hnone.symm.trans hsome
              · cases hasked.unique (.version hfailure hv.parse_eq)
        | unmet hsome hasked hadmits =>
            cases hasked with
            | version hfailure hparse =>
                refine iff_of_true ⟨_, rfl, rfl⟩ (.inr ⟨_, _, _, hsome, rfl, hfailure,
                  Version.spells_of_parse hparse, fun hmeets => ?_⟩)
                rw [Requirement.admits_iff.2 hmeets] at hadmits
                cases hadmits
    | refused h =>
        refine iff_of_false ?_ ?_
        · rintro ⟨_, ⟨⟩, ⟨⟩⟩
        · rintro (hnone | ⟨_, _, _, -, ⟨⟩, -⟩)
          obtain ⟨r, hsome⟩ := h.exists_requirement
          cases hnone.symm.trans hsome
    | built h =>
        refine iff_of_false ?_ ?_
        · rintro ⟨_, ⟨⟩, -⟩
        · rintro (hnone | ⟨_, _, _, -, ⟨⟩, -⟩)
          obtain ⟨r, hsome⟩ := h.exists_requirement
          cases hnone.symm.trans hsome

/-- **Compiling goes through the gate**, whatever the host answers and wherever logs go. The least
version that is asked for is the one in the text of the requirement. -/
theorem build_gated {σ : Type} (log : Log.Record → StateM σ Unit)
    (run : List Text → StateM σ CommandResult) (c : Config) (source executable : Text) (s : σ) :
    (∀ r, requirement? c.compiler c.standard = some r →
      ∃ t, r.spelling = ">=" ++ t ∧ Version.Spells t r.least) ∧
    ∃ result host es, (build log run c source executable).run s = (result, host) ∧
      (build (Noted.tell log) (Noted.ask run) c source executable).run { host := s }
        = (result, ⟨host, es⟩) ∧
      Gated c source executable es result := by
  obtain ⟨result, host, es, hbuild, hbuilt⟩ :=
    exists_run_build log run c source executable { host := s }
  have hfollows : Noted.Follows (build (Noted.tell log) (Noted.ask run) c source executable)
      (build log run c source executable) := .build c source executable
  obtain ⟨hresult, hhost⟩ := hfollows { host := s }
  rw [hbuild] at hresult hhost
  exact ⟨fun r => spells_least, result, host, es, Prod.ext hresult.symm hhost.symm, hbuild,
    hbuilt.gated⟩

example :
    let commands (version : Text) : List (List Text) :=
      let run : List Text → StateM Unit CommandResult := fun _ => return { output := version }
      let work := build (Noted.tell fun _ => pure ()) (Noted.ask run) { standard := "c++20" }
        "a.cpp" "a.exe"
      (work.run { host := () }).2.exchanges.map (·.argv)
    commands "9.4.0" = [[("g++" : Text), "-dumpversion"]] ∧ (commands "10.1").length = 2 := by
  decide +kernel

end IntLang.Toolchain
