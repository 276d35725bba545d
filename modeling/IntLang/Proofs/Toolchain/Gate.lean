import IntLang.Proofs.Answers
import IntLang.Proofs.Toolchain.Versions
import IntLang.Toolchain

/-!
# The version gate

A compiler may be given work if it is a release that is new enough for the standard. Its answer to
the question for its version decides that (`check_eq_ok_iff`): the first line has to spell a release
with at least the numbers that are required (`Accepts`).

The requirements of a compiler grow with the standards (`isGraded_requirements`), so that the gate
is monotone (`check_mono`). An answer that is good enough for a standard is good enough for the
earlier ones, and so is every answer of a release that is at least as new.
-/

namespace IntLang.Toolchain

/-! ### Requirements -/

/-- A version meets a requirement. -/
theorem Requirement.admits_iff {r : Requirement} {v : Version} :
    r.admits v = true ↔ v.preRelease = "" ∧ r.least.numbers ≤ v.numbers := by
  rw [admits, Bool.and_eq_true, Text.isEmpty_eq_true_iff, Version.atLeast_iff]

/-- The standards, the oldest first. -/
def standards : List Text := ["c++98", "c++11", "c++14", "c++17", "c++20"]

/-- The requirements of a compiler, by standard: all the standards are there, and a later one never
asks for less. -/
structure IsGraded (rows : List (Text × Requirement)) : Prop where
  keys : rows.map (·.1) = standards
  ascending : rows.Pairwise fun a b => a.2.least.numbers ≤ b.2.least.numbers
  /-- The numbers of each requirement are those in its text. -/
  spelled : ∀ row ∈ rows, ∃ t, row.2.spelling = ">=" ++ t ∧ Version.Spells t row.2.least

theorem isGraded_requirements : ∀ entry ∈ requirements, IsGraded entry.2 := by
  intro entry hentry
  simp only [requirements, List.mem_cons, List.not_mem_nil, or_false] at hentry
  rcases hentry with rfl | rfl
  all_goals
    refine ⟨rfl, by decide, fun row hrow => ?_⟩
    simp only [List.mem_cons, List.not_mem_nil, or_false] at hrow
    rcases hrow with rfl | rfl | rfl | rfl | rfl
    all_goals exact ⟨_, rfl, Version.spells_of_parse rfl⟩

/-- A row is found by its key if no other row has it. -/
theorem lookup_of_mem {α : Type} {rows : List (Text × α)} (hnodup : (rows.map (·.1)).Nodup)
    {row : Text × α} (h : row ∈ rows) : rows.lookup row.1 = some row.2 := by
  obtain ⟨before, behind, rfl⟩ := List.append_of_mem h
  refine List.lookup_eq_some_iff.2 ⟨before, behind, rfl, fun other hother => ?_⟩
  rw [List.map_append, List.map_cons, List.nodup_append] at hnodup
  rw [bne_iff_ne]
  exact (hnodup.2.2 _ (List.mem_map_of_mem hother) _ List.mem_cons_self).symm

/-- What is asked of a compiler is in one of its rows. -/
theorem requirement?_eq_some_iff {compiler standard : Text} {r : Requirement} :
    requirement? compiler standard = some r ↔
      ∃ rows, (compiler, rows) ∈ requirements ∧ (standard, r) ∈ rows := by
  constructor
  · intro h
    obtain ⟨rows, hrows, h⟩ := Option.bind_eq_some_iff.1 h
    obtain ⟨_, _, hrequirements, -⟩ := List.lookup_eq_some_iff.1 hrows
    obtain ⟨_, _, hrows', -⟩ := List.lookup_eq_some_iff.1 h
    exact ⟨rows, by simp [hrequirements], by simp [hrows']⟩
  · rintro ⟨rows, hrows, hrow⟩
    have hkeys : (rows.map (·.1)).Nodup := by
      rw [(isGraded_requirements _ hrows).keys]
      decide
    rw [requirement?, lookup_of_mem (by decide) hrows]
    exact lookup_of_mem hkeys hrow

/-- A known compiler has a requirement for a standard that all the compilers know. -/
theorem exists_requirement {compiler standard : Text}
    (hcompiler : compiler ∈ requirements.map (·.1))
    (hstandard : ∀ entry ∈ requirements, standard ∈ entry.2.map (·.1)) :
    ∃ r, requirement? compiler standard = some r := by
  obtain ⟨⟨_, rows⟩, hrows, rfl⟩ := List.mem_map.1 hcompiler
  obtain ⟨⟨_, r⟩, hrow, rfl⟩ := List.mem_map.1 (hstandard _ hrows)
  exact ⟨r, requirement?_eq_some_iff.2 ⟨rows, hrows, hrow⟩⟩

/-- **An earlier standard asks for no more.** -/
theorem exists_requirement_of_earlier {compiler earlier standard : Text} {r : Requirement}
    (h : requirement? compiler standard = some r)
    (hearlier : [earlier, standard].Sublist standards) :
    ∃ r', requirement? compiler earlier = some r' ∧ r'.least.numbers ≤ r.least.numbers := by
  obtain ⟨rows, hrows, hrow⟩ := requirement?_eq_some_iff.1 h
  have hgraded := isGraded_requirements _ hrows
  rw [← hgraded.keys] at hearlier
  obtain ⟨pair, hpair, heq⟩ := List.sublist_map_iff.1 hearlier
  obtain ⟨⟨_, r'⟩, rest, rfl, rfl, hrest⟩ := List.map_eq_cons_iff.1 heq.symm
  obtain ⟨⟨_, r''⟩, none, rfl, rfl, hnone⟩ := List.map_eq_cons_iff.1 hrest
  obtain rfl := List.map_eq_nil_iff.1 hnone
  have hle := List.pairwise_pair.1 (hgraded.ascending.sublist hpair)
  have hsome {row : Text × Requirement} (hrow : row ∈ rows) :
      requirement? compiler row.1 = some row.2 := requirement?_eq_some_iff.2 ⟨rows, hrows, hrow⟩
  have hr := hsome (hpair.mem (List.mem_cons_of_mem _ List.mem_cons_self))
  obtain rfl : r'' = r := Option.some.inj (hr.symm.trans h)
  exact ⟨r', hsome (hpair.mem List.mem_cons_self), hle⟩

/-- The numbers of a requirement are those in its text. -/
theorem spells_least {compiler standard : Text} {r : Requirement}
    (h : requirement? compiler standard = some r) :
    ∃ t, r.spelling = ">=" ++ t ∧ Version.Spells t r.least := by
  obtain ⟨rows, hrows, hrow⟩ := requirement?_eq_some_iff.1 h
  exact (isGraded_requirements _ hrows).spelled _ hrow

/-! ### Answers -/

/-- The command that asks a compiler for its version. -/
def query (compiler : Text) : List Text := [compiler, "-dumpversion"]

/-- The part of an answer in which the version is looked for. -/
def firstLine (output : Text) : Text := (output.before 0x0A).trim

/-- An answer is accepted: it is that of a release with at least the numbers that are required. -/
def Accepts (r : Requirement) (answer : CommandResult) : Prop :=
  answer.failure = none ∧ ∃ v, Version.Spells (firstLine answer.output) v ∧ v.preRelease = "" ∧
    r.least.numbers ≤ v.numbers

/-- What becomes of an answer. -/
inductive Asked (c : Config) (answer : CommandResult) : Except ToolError Version → Prop
  | unasked {cause : CommandFailure} (h : answer.failure = some cause) :
      Asked c answer (.error (.unasked c.compiler cause))
  | unversioned {cause : VersionError} (h : answer.failure = none)
      (hparse : Version.parse (firstLine answer.output) = .error cause) :
      Asked c answer (.error (.unversioned c.compiler (firstLine answer.output) cause))
  | version {v : Version} (h : answer.failure = none)
      (hparse : Version.parse (firstLine answer.output) = .ok v) : Asked c answer (.ok v)

theorem Asked.unique {c : Config} {answer : CommandResult} {x y : Except ToolError Version}
    (h : Asked c answer x) (h' : Asked c answer y) : x = y := by
  cases h with
  | unasked hfailure => cases h' <;> simp_all
  | unversioned hfailure hparse => cases h' <;> simp_all
  | version hfailure hparse => cases h' <;> simp_all

/-- An answer is accepted if it is read as a version that meets the requirement. -/
theorem accepts_iff {c : Config} {answer : CommandResult} {r : Requirement} :
    Accepts r answer ↔ ∃ v, Asked c answer (.ok v) ∧ r.admits v = true := by
  constructor
  · rintro ⟨hfailure, v, hv, hmeets⟩
    exact ⟨v, .version hfailure hv.parse_eq, Requirement.admits_iff.2 hmeets⟩
  · rintro ⟨v, hasked, hadmits⟩
    cases hasked with
    | version hfailure hparse =>
        exact ⟨hfailure, v, Version.spells_of_parse hparse, Requirement.admits_iff.1 hadmits⟩

/-- What comes of a check, and the answer if there was one. -/
inductive Checked (c : Config) : Option CommandResult → Except ToolError Unit → Prop
  | unknown (h : requirement? c.compiler c.standard = none) :
      Checked c none (.error (.unknown c.compiler c.standard))
  | unread {r : Requirement} {answer : CommandResult} {e : ToolError}
      (h : requirement? c.compiler c.standard = some r) (hasked : Asked c answer (.error e)) :
      Checked c (some answer) (.error e)
  | unmet {r : Requirement} {answer : CommandResult} {v : Version}
      (h : requirement? c.compiler c.standard = some r) (hasked : Asked c answer (.ok v))
      (hadmits : r.admits v = false) :
      Checked c (some answer) (.error (.unmet c.compiler v r c.standard))
  | met {r : Requirement} {answer : CommandResult} {v : Version}
      (h : requirement? c.compiler c.standard = some r) (hasked : Asked c answer (.ok v))
      (hadmits : r.admits v = true) : Checked c (some answer) (.ok ())

theorem Checked.exists_requirement {c : Config} {answer : CommandResult}
    {result : Except ToolError Unit} (h : Checked c (some answer) result) :
    ∃ r, requirement? c.compiler c.standard = some r := by
  cases h with
  | unread h | unmet h | met h => exact ⟨_, h⟩

/-- A check succeeds exactly if the answer is accepted. -/
theorem Checked.eq_ok_iff {c : Config} {answer : CommandResult} {result : Except ToolError Unit}
    (h : Checked c (some answer) result) :
    result = .ok () ↔ ∃ r, requirement? c.compiler c.standard = some r ∧ Accepts r answer := by
  cases h with
  | unread hrequirement hasked =>
      refine iff_of_false (by rintro ⟨⟩) ?_
      rintro ⟨r, -, haccepts⟩
      obtain ⟨v, hasked', -⟩ := (accepts_iff (c := c)).1 haccepts
      cases hasked.unique hasked'
  | @unmet r' _ v hrequirement hasked hadmits =>
      refine iff_of_false (by rintro ⟨⟩) ?_
      rintro ⟨r, hr, haccepts⟩
      obtain ⟨w, hasked', hadmits'⟩ := (accepts_iff (c := c)).1 haccepts
      obtain rfl : v = w := Except.ok.inj (hasked.unique hasked')
      obtain rfl : r' = r := Option.some.inj (hrequirement.symm.trans hr)
      cases hadmits.symm.trans hadmits'
  | met hrequirement hasked hadmits =>
      exact iff_of_true rfl ⟨_, hrequirement, accepts_iff.2 ⟨_, hasked, hadmits⟩⟩

section Hosts

variable {σ : Type} (log : Log.Record → StateM σ Unit) (run : List Text → StateM σ CommandResult)
  (c : Config)

theorem exists_run_version (s : σ) :
    ∃ answer result s', (run (query c.compiler)).run s = (answer, s') ∧
      (version run c).run s = (result, s') ∧ Asked c answer result := by
  obtain ⟨answer, s', hrun⟩ : ∃ answer s', (run (query c.compiler)).run s = (answer, s') :=
    ⟨_, _, rfl⟩
  have hversion : (version run c).run s = _ := run_bind_of_eq hrun _
  cases hfailure : answer.failure with
  | some cause =>
      rw [hfailure] at hversion
      exact ⟨answer, _, s', hrun, hversion, .unasked hfailure⟩
  | none =>
      rw [hfailure] at hversion
      dsimp only at hversion
      cases hparse : Version.parse (answer.output.before 0x0A).trim with
      | error cause =>
          rw [hparse] at hversion
          exact ⟨answer, _, s', hrun, hversion, .unversioned hfailure hparse⟩
      | ok v =>
          rw [hparse] at hversion
          exact ⟨answer, _, s', hrun, hversion, .version hfailure hparse⟩

/-- What a check does on a host, as far as it can be seen in a view that logging leaves as it is. -/
theorem exists_run_check {β : Type} (view : σ → β)
    (hlog : ∀ r s, view ((log r).run s).2 = view s) (s : σ) :
    ∃ result s', (check log run c).run s = (result, s') ∧
      ((view s' = view s ∧ Checked c none result) ∨
        ∃ answer s₁, (run (query c.compiler)).run s = (answer, s₁) ∧ view s' = view s₁ ∧
          Checked c (some answer) result) := by
  cases hrequirement : requirement? c.compiler c.standard with
  | none =>
      refine ⟨_, s, ?_, .inl ⟨rfl, .unknown hrequirement⟩⟩
      rw [check, hrequirement]
      rfl
  | some r =>
      obtain ⟨answer, result, s₁, hrun, hversion, hasked⟩ := exists_run_version run c s
      cases result with
      | error e =>
          refine ⟨.error e, s₁, ?_, .inr ⟨answer, s₁, hrun, rfl, .unread hrequirement hasked⟩⟩
          rw [check, hrequirement]
          exact run_bind_of_eq hversion _
      | ok v =>
          obtain ⟨s₂, hlogged⟩ : ∃ s₂, (log ⟨.debug, "Detected compiler",
              [("compiler", .text c.compiler), ("version", .text v.text)]⟩).run s₁ = ((), s₂) :=
            ⟨_, rfl⟩
          have hview : view s₂ = view s₁ := by rw [← hlog _ s₁, hlogged]
          have hcheck : (check log run c).run s = (if r.admits v then pure (.ok ())
              else pure (.error (.unmet c.compiler v r c.standard)) : StateM σ _).run s₂ := by
            rw [check, hrequirement]
            exact (run_bind_of_eq hversion _).trans (run_bind_of_eq hlogged _)
          cases hadmits : r.admits v with
          | false =>
              rw [hadmits] at hcheck
              exact ⟨_, s₂, hcheck, .inr ⟨answer, s₁, hrun, hview,
                .unmet hrequirement hasked hadmits⟩⟩
          | true =>
              rw [hadmits] at hcheck
              exact ⟨_, s₂, hcheck, .inr ⟨answer, s₁, hrun, hview,
                .met hrequirement hasked hadmits⟩⟩

/-- **When a check succeeds.** -/
theorem check_eq_ok_iff (s : σ) :
    ((check log run c).run s).1 = .ok () ↔
      ∃ r, requirement? c.compiler c.standard = some r ∧
        Accepts r ((run (query c.compiler)).run s).1 := by
  obtain ⟨result, s', hcheck, ⟨-, hchecked⟩ | ⟨answer, s₁, hrun, -, hchecked⟩⟩ :=
    exists_run_check log run c (fun _ => ()) (fun _ _ => rfl) s
  · rw [hcheck]
    cases hchecked with
    | unknown h =>
        refine iff_of_false (by rintro ⟨⟩) ?_
        rintro ⟨r, hr, -⟩
        cases h.symm.trans hr
  · rw [hcheck, hrun]
    exact hchecked.eq_ok_iff

end Hosts

/-! ### Newer answers and earlier standards -/

/-- A check succeeds on every host where the compiler answers with `output`. -/
def Passes (c : Config) (output : Text) : Prop :=
  ∀ {σ : Type} (log : Log.Record → StateM σ Unit) (run : List Text → StateM σ CommandResult)
    (s : σ), ((run (query c.compiler)).run s).1 = { output } → ((check log run c).run s).1 = .ok ()

theorem passes_of_accepts {c : Config} {r : Requirement} {output : Text}
    (h : requirement? c.compiler c.standard = some r) (haccepts : Accepts r { output }) :
    Passes c output := by
  intro σ log run s hanswer
  exact (check_eq_ok_iff log run c s).2 ⟨r, h, hanswer ▸ haccepts⟩

/-- **The gate is monotone.** Where the check of a compiler for a standard succeeds, it succeeds
with the same answer for every earlier standard. The answer is a version, and with the answer of any
release whose numbers are not less the check succeeds as well. -/
theorem check_mono {σ : Type} {log : Log.Record → StateM σ Unit}
    {run : List Text → StateM σ CommandResult} {c : Config} {output : Text} {s : σ}
    (hanswer : ((run (query c.compiler)).run s).1 = { output })
    (h : ((check log run c).run s).1 = .ok ()) :
    (∀ earlier, [earlier, c.standard].Sublist standards →
      Passes { c with standard := earlier } output) ∧
    ∃ v, Version.Spells (firstLine output) v ∧
      ∀ output' w, Version.Spells (firstLine output') w → w.preRelease = "" →
        v.numbers ≤ w.numbers → Passes c output' := by
  obtain ⟨r, hrequirement, haccepts⟩ := (check_eq_ok_iff log run c s).1 h
  rw [hanswer] at haccepts
  obtain ⟨-, v, hv, hrelease, hle⟩ := haccepts
  refine ⟨fun earlier hearlier => ?_, v, hv, fun output' w hw hrelease' hle' => ?_⟩
  · obtain ⟨r', hr', hless⟩ := exists_requirement_of_earlier hrequirement hearlier
    exact passes_of_accepts (c := { c with standard := earlier }) hr'
      ⟨rfl, v, hv, hrelease, hless.trans hle⟩
  · exact passes_of_accepts hrequirement ⟨rfl, w, hw, hrelease', hle.trans hle'⟩

/-- Release 9.4 is good enough for C++17 and so for C++98, and 10 is newer, although it comes first
as a text. -/
theorem check_mono_nine :
    ((check (fun _ => pure ()) (fun _ => pure { output := "9.4\n" })
      ⟨"g++", "c++17", "speed"⟩ : StateM Unit (Except ToolError Unit)).run ()).1 = .ok () ∧
    Passes ⟨"g++", "c++98", "speed"⟩ "9.4\n" ∧ Passes ⟨"g++", "c++17", "speed"⟩ "10" := by
  have hcheck : ((check (fun _ => pure ()) (fun _ => pure { output := "9.4\n" })
      ⟨"g++", "c++17", "speed"⟩ : StateM Unit (Except ToolError Unit)).run ()).1 = .ok () := by
    decide +kernel
  have hnine : Version.Spells (firstLine "9.4\n") ⟨9, 4, 0, "", ""⟩ :=
    Version.spells_of_parse (by decide +kernel)
  have hten : Version.Spells (firstLine "10") ⟨10, 0, 0, "", ""⟩ :=
    Version.spells_of_parse (by decide +kernel)
  obtain ⟨hearlier, v, hv, hnewer⟩ := check_mono rfl hcheck
  obtain rfl := hv.unique hnine
  exact ⟨hcheck, hearlier "c++98" (by decide), hnewer "10" _ hten rfl (by decide)⟩

end IntLang.Toolchain
