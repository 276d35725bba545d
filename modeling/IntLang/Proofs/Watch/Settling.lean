import IntLang.Watch
import Mathlib.Algebra.Order.BigOperators.Group.List
import Mathlib.Algebra.Ring.Int.Defs
import Mathlib.Data.List.Basic

/-!
# Changes that settle

A watcher acts once for each change that is followed by quiet. `Watcher.Settles` says this of the
inputs alone: a change settles if nothing more happens to the file for as long as the delay was when
it came, and the watcher listens until that time is over. `Watcher.calls_run` says that a watcher
acts as often as there are changes that settle.

A watcher keeps a timer and listens to it or not. In every run the one goes with the other
(`Watcher.pending_run`), so that its state is one time at which it will act, at most. Whether it
will is a matter of the inputs to come (`Watcher.lapses`): the time has to go by before another
change and before the watch ends. There are three ways in which it ends, which are kept apart
(`Watcher.exit_run`) and make no difference to the calls. So what a run adds to the calls is one for
the time that is waited for, if it lapses, and one for each change to come that settles
(`Watcher.calls_run_of_waiting`). This is proved input by input.
-/

namespace IntLang.Watch

/-! ### Time and delay -/

/-- The time that passes with an input. -/
def Input.span : Input → Int
  | .sleep ms => max 0 ms
  | _ => 0

/-- The delay that an input sets. -/
def Input.delay? : Input → Option Int
  | .setDelay ms => some ms
  | _ => none

/-- The end that an input brings. -/
def Input.exit? : Input → Option Exit
  | .exit e => some e
  | _ => none

/-- The time that has passed when an input comes, by its place among the inputs. -/
def timeAt (inputs : List Input) (i : Nat) : Int := ((inputs.take i).map Input.span).sum

/-- The delay in force when an input comes: the last that was set before, or else the first. -/
def delayAt (delay : Int) (inputs : List Input) (i : Nat) : Int :=
  ((inputs.take i).filterMap Input.delay?).getLast?.getD delay

theorem Input.span_nonneg (input : Input) : 0 ≤ input.span := by
  cases input with
  | sleep ms => exact Int.le_max_left 0 ms
  | _ => exact Int.le_refl 0

theorem eq_exit_of_exit? {input : Input} {e : Exit} (h : input.exit? = some e) :
    input = .exit e := by
  cases input <;> first | cases h; rfl | cases h

/-- Nothing fails by the end of a watch, in whichever way it comes. -/
theorem Exit.result_eq (e : Exit) : e.result = .ok () := by
  cases e <;> rfl

@[simp] theorem timeAt_zero (inputs : List Input) : timeAt inputs 0 = 0 := rfl

@[simp] theorem timeAt_cons_succ (input : Input) (inputs : List Input) (i : Nat) :
    timeAt (input :: inputs) (i + 1) = input.span + timeAt inputs i := by
  simp [timeAt]

theorem timeAt_nonneg (inputs : List Input) (i : Nat) : 0 ≤ timeAt inputs i := by
  refine List.sum_nonneg fun span hspan => ?_
  obtain ⟨input, -, rfl⟩ := List.mem_map.1 hspan
  exact input.span_nonneg

@[simp] theorem delayAt_zero (delay : Int) (inputs : List Input) : delayAt delay inputs 0 = delay :=
  rfl

@[simp] theorem delayAt_cons_succ (delay : Int) (input : Input) (inputs : List Input) (i : Nat) :
    delayAt delay (input :: inputs) (i + 1) = delayAt (input.delay?.getD delay) inputs i := by
  cases h : input.delay? <;> simp [delayAt, h, List.getLast?_cons]

namespace Watcher

/-! ### Settling -/

/-- Whether an input is an event that concerns the file. -/
def notices (w : Watcher) : Input → Bool
  | .event e => w.concerns e
  | _ => false

/-- Whether an input is an event that does not concern the file, or a problem. -/
def ignores (w : Watcher) : Input → Bool
  | .event e => !w.concerns e
  | .problem _ => true
  | _ => false

/-- The watcher after inputs that come in one after another. -/
def run (w : Watcher) (inputs : List Input) : Watcher :=
  inputs.foldl (fun w input => (w.step input).1) w

/-- When the change at a place has settled: as much later as the delay is when it comes. -/
def settledAt (w : Watcher) (inputs : List Input) (i : Nat) : Int :=
  timeAt inputs i + delayAt w.delay inputs i

/-- The input at a place is a change that settles. -/
structure Settles (w : Watcher) (inputs : List Input) (i : Nat) : Prop where
  /-- It is an event that concerns the file. -/
  noticed : inputs[i]?.any w.notices = true
  /-- It comes while the watcher listens. -/
  listening : ∀ input ∈ inputs.take i, input.exit? = none
  /-- No other such event comes before it has settled. -/
  quiet : ∀ j < inputs.length, i < j → inputs[j]?.any w.notices = true →
    w.settledAt inputs i ≤ timeAt inputs j
  /-- That moment is reached, and the watcher still listens then. -/
  reached : ∃ k < inputs.length + 1, i < k ∧ (∀ input ∈ inputs.take k, input.exit? = none) ∧
    w.settledAt inputs i ≤ timeAt inputs k

instance (w : Watcher) (inputs : List Input) (i : Nat) : Decidable (w.Settles inputs i) :=
  decidable_of_iff
    (inputs[i]?.any w.notices = true ∧ (∀ input ∈ inputs.take i, input.exit? = none) ∧
      (∀ j < inputs.length, i < j → inputs[j]?.any w.notices = true →
        w.settledAt inputs i ≤ timeAt inputs j) ∧
      ∃ k < inputs.length + 1, i < k ∧ (∀ input ∈ inputs.take k, input.exit? = none) ∧
        w.settledAt inputs i ≤ timeAt inputs k)
    ⟨fun ⟨h₁, h₂, h₃, h₄⟩ => ⟨h₁, h₂, h₃, h₄⟩, fun ⟨h₁, h₂, h₃, h₄⟩ => ⟨h₁, h₂, h₃, h₄⟩⟩

/-- How many changes among the inputs settle. -/
def settling (w : Watcher) (inputs : List Input) : Nat :=
  (List.range inputs.length).countP fun i => w.Settles inputs i

/-- Whether a wait is over before the watcher notices anything or the watch ends. -/
def lapses (w : Watcher) : Int → List Input → Bool
  | wait, [] => wait ≤ 0
  | wait, input :: inputs =>
    wait ≤ 0 || (input.exit?.isNone && !w.notices input && w.lapses (wait - input.span) inputs)

theorem lapses_of_nonpos {w : Watcher} {wait : Int} (h : wait ≤ 0) (inputs : List Input) :
    w.lapses wait inputs = true := by
  cases inputs <;> simp [lapses, h]

theorem lapses_cons {w : Watcher} {wait : Int} (h : 0 < wait) (input : Input)
    (inputs : List Input) : w.lapses wait (input :: inputs) =
      (input.exit?.isNone && !w.notices input && w.lapses (wait - input.span) inputs) := by
  simp [lapses, h]

/-- A wait lapses if everything that is noticed comes when it is over, and it is over at some point
before the end. -/
theorem lapses_iff {w : Watcher} {wait : Int} {inputs : List Input} :
    w.lapses wait inputs = true ↔
      (∀ j < inputs.length, inputs[j]?.any w.notices = true → wait ≤ timeAt inputs j) ∧
      ∃ k < inputs.length + 1, (∀ input ∈ inputs.take k, input.exit? = none) ∧
        wait ≤ timeAt inputs k := by
  induction inputs generalizing wait with
  | nil => simp [lapses]
  | cons input inputs ih =>
      rcases le_or_gt wait 0 with h | h
      · refine iff_of_true (lapses_of_nonpos h _) ⟨fun j _ _ => ?_, 0, by simp, by simp, h⟩
        exact h.trans (timeAt_nonneg _ j)
      · simp only [lapses_cons h, Bool.and_eq_true, Bool.not_eq_true', Option.isNone_iff_eq_none,
          ih]
        constructor
        · rintro ⟨⟨hexit, hnotice⟩, hquiet, k, hk, hlistens, hover⟩
          refine ⟨fun j hj hnoticed => ?_, k + 1, by simpa using hk, ?_, ?_⟩
          · cases j with
            | zero => simp [hnotice] at hnoticed
            | succ j =>
                have := hquiet j (by simpa using hj) (by simpa using hnoticed)
                rw [timeAt_cons_succ]
                omega
          · rw [List.take_succ_cons, List.forall_mem_cons]
            exact ⟨hexit, hlistens⟩
          · rw [timeAt_cons_succ]
            omega
        · rintro ⟨hquiet, k, hk, hlistens, hover⟩
          -- The wait is not over yet, so the place at which it is lies behind the first input.
          obtain _ | k := k
          · exact absurd hover (Int.not_le.2 h)
          rw [List.take_succ_cons, List.forall_mem_cons] at hlistens
          rw [timeAt_cons_succ] at hover
          refine ⟨⟨hlistens.1, ?_⟩, fun j hj hnoticed => ?_, k, by simpa using hk,
            hlistens.2, by omega⟩
          · by_contra hnotice
            exact absurd (hquiet 0 (by simp) (by simpa using hnotice)) (Int.not_le.2 h)
          · have := hquiet (j + 1) (by simpa using hj) (by simpa using hnoticed)
            rw [timeAt_cons_succ] at this
            omega

/-- How often a watcher will act, in some inputs, for what has come before them: once, if it waits
and the time lapses. -/
def awaited (w : Watcher) (inputs : List Input) : Nat :=
  (w.timer.any fun t => w.lapses (t - w.now) inputs).toNat

/-- A watcher that listens waits for nothing, or for a timer that has still to run out. -/
structure Waiting (w : Watcher) : Prop where
  /-- The watch has not ended. -/
  running : w.running = true
  /-- A timer that is set is listened to, and only then. -/
  pending : w.pending = w.timer.isSome
  /-- The timer has not run out. -/
  later : ∀ t, w.timer = some t → w.now < t

/-! ### One input -/

theorem span_of_notices {w : Watcher} {input : Input} (h : w.notices input = true) :
    input.span = 0 := by
  cases input <;> first | rfl | cases h

theorem exit?_of_notices {w : Watcher} {input : Input} (h : w.notices input = true) :
    input.exit? = none := by
  cases input <;> first | rfl | cases h

/-- The first input is a change that settles if the wait that it begins lapses. -/
theorem settles_zero {w : Watcher} {input : Input} {inputs : List Input} :
    w.Settles (input :: inputs) 0 ↔ w.notices input = true ∧ w.lapses w.delay inputs = true := by
  have hsettled : w.settledAt (input :: inputs) 0 = w.delay := by simp [settledAt]
  constructor
  · rintro ⟨hnoticed, -, hquiet, k, hk, hpos, hlistens, hover⟩
    have hnotice : w.notices input = true := by simpa using hnoticed
    have htime : ∀ j, timeAt (input :: inputs) (j + 1) = timeAt inputs j := by
      simp [span_of_notices hnotice]
    obtain _ | k := k
    · exact absurd hpos (Nat.lt_irrefl 0)
    rw [hsettled, htime] at hover
    refine ⟨hnotice, lapses_iff.2 ⟨fun j hj hnoticed => ?_, k, by simpa using hk, ?_, hover⟩⟩
    · simpa only [hsettled, htime] using
        hquiet (j + 1) (by simpa using hj) (by simp) (by simpa using hnoticed)
    · exact fun other hother => hlistens other (by simp [hother])
  · rintro ⟨hnotice, hlapses⟩
    have htime : ∀ j, timeAt (input :: inputs) (j + 1) = timeAt inputs j := by
      simp [span_of_notices hnotice]
    obtain ⟨hquiet, k, hk, hlistens, hover⟩ := lapses_iff.1 hlapses
    refine ⟨by simpa using hnotice, by simp, fun j hj hpos hnoticed => ?_, k + 1, by simpa using hk,
      by simp, ?_, by rwa [hsettled, htime]⟩
    · obtain _ | j := j
      · exact absurd hpos (Nat.lt_irrefl 0)
      rw [hsettled, htime]
      exact hquiet j (by simpa using hj) (by simpa using hnoticed)
    · rw [List.take_succ_cons, List.forall_mem_cons]
      exact ⟨exit?_of_notices hnotice, hlistens⟩

/-- Acting changes nothing but the count and what is waited for. -/
theorem settle_eq (w : Watcher) :
    w.settle = { w with timer := w.settle.timer, pending := w.settle.pending,
                        calls := w.settle.calls } := by
  rw [settle]
  split
  · split <;> rfl
  · rfl

@[simp] theorem path_settle (w : Watcher) : w.settle.path = w.path := by rw [settle_eq]

@[simp] theorem delay_settle (w : Watcher) : w.settle.delay = w.delay := by rw [settle_eq]

@[simp] theorem exit_settle (w : Watcher) : w.settle.exit = w.exit := by rw [settle_eq]

theorem path_step (w : Watcher) (input : Input) : (w.step input).1.path = w.path := by
  unfold step
  split
  · rfl
  · cases input with
    | event e => by_cases h : w.concerns e <;> simp [h]
    | _ => simp

theorem delay_step {w : Watcher} (hw : w.running = true) (input : Input) :
    (w.step input).1.delay = input.delay?.getD w.delay := by
  cases input with
  | event e => by_cases h : w.concerns e <;> simp [step, hw, h, Input.delay?]
  | _ => simp [step, hw, Input.delay?]

theorem exit_step {w : Watcher} (hw : w.running = true) (input : Input) :
    (w.step input).1.exit = input.exit? := by
  have hexit : w.exit = none := Option.isNone_iff_eq_none.1 hw
  cases input with
  | event e => by_cases h : w.concerns e <;> simp [step, hw, h, Input.exit?, hexit]
  | _ => simp [step, hw, Input.exit?, hexit]

theorem notices_eq_of_path {v w : Watcher} (h : v.path = w.path) : v.notices = w.notices := by
  funext input
  cases input <;> simp [notices, concerns, h]

theorem lapses_eq_of_path {v w : Watcher} (h : v.path = w.path) (wait : Int)
    (inputs : List Input) : v.lapses wait inputs = w.lapses wait inputs := by
  induction inputs generalizing wait with
  | nil => rfl
  | cons input inputs ih => simp only [lapses, notices_eq_of_path h, ih]

theorem ignores_eq_of_path {v w : Watcher} (h : v.path = w.path) : v.ignores = w.ignores := by
  funext input
  cases input <;> simp [ignores, concerns, h]

theorem notices_step (w : Watcher) (input : Input) : (w.step input).1.notices = w.notices :=
  notices_eq_of_path (path_step w input)

/-- A later input settles if it does so for the watcher that has taken the first. -/
theorem settles_succ {w : Watcher} (hw : w.running = true) {input : Input} {inputs : List Input}
    {i : Nat} : w.Settles (input :: inputs) (i + 1) ↔
      input.exit? = none ∧ (w.step input).1.Settles inputs i := by
  have hsettled : w.settledAt (input :: inputs) (i + 1)
      = input.span + (w.step input).1.settledAt inputs i := by
    simp [settledAt, delay_step hw, Int.add_assoc]
  constructor
  · rintro ⟨hnoticed, hbefore, hquiet, k, hk, hpos, hlistens, hover⟩
    obtain _ | k := k
    · exact absurd hpos (Nat.not_lt_zero _)
    rw [List.take_succ_cons, List.forall_mem_cons] at hbefore hlistens
    rw [hsettled, timeAt_cons_succ] at hover
    refine ⟨hbefore.1, ?_, hbefore.2, fun j hj hij hnoticed => ?_, k, by simpa using hk,
      by simpa using hpos, hlistens.2, by omega⟩
    · simpa [notices_step] using hnoticed
    · have := hquiet (j + 1) (by simpa using hj) (by simpa using hij)
        (by simpa [notices_step] using hnoticed)
      rw [hsettled, timeAt_cons_succ] at this
      omega
  · rintro ⟨hexit, hnoticed, hbefore, hquiet, k, hk, hpos, hlistens, hover⟩
    refine ⟨by simpa [notices_step] using hnoticed, ?_, fun j hj hij hnoticed => ?_, k + 1,
      by simpa using hk, by simpa using hpos, ?_, by rw [hsettled, timeAt_cons_succ]; omega⟩
    · rw [List.take_succ_cons, List.forall_mem_cons]
      exact ⟨hexit, hbefore⟩
    · obtain _ | j := j
      · exact absurd hij (Nat.not_lt_zero _)
      have := hquiet j (by simpa using hj) (by simpa using hij)
        (by simpa [notices_step] using hnoticed)
      rw [hsettled, timeAt_cons_succ]
      omega
    · rw [List.take_succ_cons, List.forall_mem_cons]
      exact ⟨hexit, hlistens⟩

/-- The changes that settle: the first input perhaps, and those behind it. -/
theorem settling_cons {w : Watcher} (hw : w.running = true) (input : Input) (inputs : List Input) :
    w.settling (input :: inputs) = (w.notices input && w.lapses w.delay inputs).toNat
      + if input.exit? = none then (w.step input).1.settling inputs else 0 := by
  have hlater : (List.range inputs.length).countP (fun i => w.Settles (input :: inputs) (i + 1))
      = if input.exit? = none then (w.step input).1.settling inputs else 0 := by
    simp only [settles_succ hw]
    split
    · next h => simp [h, settling]
    · next h => simp [h]
  rw [settling, List.length_cons, List.range_succ_eq_map, List.countP_cons, List.countP_map,
    Nat.add_comm, ← hlater]
  congr 1
  simp only [decide_eq_true_eq, settles_zero]
  rcases w.notices input <;> rcases w.lapses w.delay inputs <;> rfl

/-! ### Runs -/

theorem run_cons (w : Watcher) (input : Input) (inputs : List Input) :
    w.run (input :: inputs) = (w.step input).1.run inputs := rfl

theorem run_append (w : Watcher) (first second : List Input) :
    w.run (first ++ second) = (w.run first).run second :=
  List.foldl_append

/-- After the end a watcher stays as it is. -/
theorem run_of_ended {w : Watcher} (hw : w.running = false) (inputs : List Input) :
    w.run inputs = w := by
  induction inputs with
  | nil => rfl
  | cons input inputs ih =>
      rw [run_cons]
      simpa [step, hw] using ih

/-- An end adds nothing to the calls, and neither does anything behind it. -/
theorem calls_run_exit (w : Watcher) (e : Exit) (inputs : List Input) :
    (w.run (.exit e :: inputs)).calls = w.calls := by
  cases hw : w.running with
  | true =>
      have hstep : (w.step (.exit e)).1
          = { w with exit := some e, timer := none, pending := false } := by
        simp [step, hw]
      rw [run_cons, hstep, run_of_ended rfl]
  | false => rw [run_of_ended hw]

/-- Nothing comes of an input that is ignored. -/
theorem step_of_ignores {w : Watcher} {input : Input} (h : w.ignores input = true) :
    (w.step input).1 = w := by
  unfold step
  split
  · rfl
  · cases input with
    | event e =>
        have hconcerns : w.concerns e = false := by simpa [ignores] using h
        simp [hconcerns]
    | problem message => rfl
    | _ => cases h

/-- Acting when it is due neither loses nor adds a call. -/
theorem calls_settle {w : Watcher} (hw : w.pending = w.timer.isSome) (inputs : List Input) :
    w.settle.calls + w.settle.awaited inputs = w.calls + w.awaited inputs := by
  rw [settle]
  split
  · next t ht =>
      split
      · next hdue =>
          have hle : t ≤ w.now := by simpa [hw, ht] using hdue
          simp [awaited, ht, lapses_of_nonpos (w := w) (Int.sub_nonpos_of_le hle)]
      · rfl
  · rfl

/-- A timer that is listened to goes with the listening when it has run out. -/
theorem pending_settle {w : Watcher} (hw : w.pending = w.timer.isSome) :
    w.settle.pending = w.settle.timer.isSome := by
  rw [settle]
  split
  · split
    · rfl
    · exact hw
  · exact hw

theorem waiting_settle {w : Watcher} (hrunning : w.running = true)
    (hpending : w.pending = w.timer.isSome) : w.settle.Waiting := by
  refine ⟨by rwa [running, exit_settle], pending_settle hpending, ?_⟩
  rw [settle]
  split
  · next t ht =>
      split
      · exact fun _ h => by cases h
      · next hdue =>
          intro u hu
          rw [ht] at hu
          cases hu
          simpa [hpending, ht] using hdue
  · next ht => exact fun u hu => by rw [ht] at hu; cases hu

/-- While a watcher waits, an input that it does not notice only takes from the time. -/
theorem awaited_cons {w : Watcher} (hw : w.Waiting) {input : Input} (hexit : input.exit? = none)
    (inputs : List Input) :
    w.awaited (input :: inputs) =
      (!w.notices input &&
        w.timer.any fun t => w.lapses (t - w.now - input.span) inputs).toNat := by
  rw [awaited]
  cases htimer : w.timer with
  | none => simp
  | some t =>
      have hpos : 0 < t - w.now := Int.sub_pos_of_lt (hw.later t htimer)
      simp [lapses_cons hpos, hexit]

/-- One input keeps a watcher waiting, and what it adds to the calls is what was awaited or has
settled and is awaited no longer. -/
theorem calls_step {w : Watcher} (hw : w.Waiting) {input : Input} (hexit : input.exit? = none)
    (inputs : List Input) : (w.step input).1.Waiting ∧
      (w.step input).1.calls + (w.step input).1.awaited inputs
        = w.calls + w.awaited (input :: inputs)
          + (w.notices input && w.lapses w.delay inputs).toNat := by
  rw [awaited_cons hw hexit]
  cases input with
  | event e =>
      by_cases h : w.concerns e
      · have hstep : (w.step (.event e)).1
            = settle { w with timer := some (w.now + w.delay), pending := true } := by
          simp [step, hw.running, h]
        rw [hstep, calls_settle rfl]
        refine ⟨waiting_settle hw.running rfl, ?_⟩
        have hlapses := lapses_eq_of_path
          (v := { w with timer := some (w.now + w.delay), pending := true }) (w := w) rfl
        simp [awaited, notices, h, hlapses]
      · have hignores : w.ignores (.event e) = true := by simp [ignores, h]
        rw [step_of_ignores hignores]
        refine ⟨hw, ?_⟩
        simp [awaited, notices, h, Input.span]
  | problem message =>
      rw [step_of_ignores rfl]
      exact ⟨hw, by simp [awaited, notices, Input.span]⟩
  | sleep ms =>
      have hstep : (w.step (.sleep ms)).1 = settle { w with now := w.now + max 0 ms } := by
        simp [step, hw.running]
      rw [hstep, calls_settle (w := { w with now := w.now + max 0 ms }) hw.pending]
      refine ⟨waiting_settle hw.running hw.pending, ?_⟩
      have hlapses := lapses_eq_of_path (v := { w with now := w.now + max 0 ms }) (w := w) rfl
      simp [awaited, notices, Input.span, hlapses, Int.sub_sub]
  | setDelay ms =>
      have hstep : (w.step (.setDelay ms)).1 = { w with delay := ms } := by
        simp [step, hw.running]
      rw [hstep]
      refine ⟨⟨hw.running, hw.pending, hw.later⟩, ?_⟩
      have hlapses := lapses_eq_of_path (v := { w with delay := ms }) (w := w) rfl
      simp [awaited, notices, Input.span, hlapses]
  | exit e => cases hexit

/-- Nothing is awaited of inputs in which no wait lapses. -/
theorem awaited_eq_zero {w : Watcher} (hw : w.Waiting) {inputs : List Input}
    (h : ∀ wait, 0 < wait → w.lapses wait inputs = false) : w.awaited inputs = 0 := by
  rw [awaited]
  cases htimer : w.timer with
  | none => rfl
  | some t => simp [h _ (Int.sub_pos_of_lt (hw.later t htimer))]

/-- A run adds to the calls one for the time that is waited for, if it lapses, and one for each
change that settles. -/
theorem calls_run_of_waiting {w : Watcher} (hw : w.Waiting) (inputs : List Input) :
    (w.run inputs).calls = w.calls + w.awaited inputs + w.settling inputs := by
  induction inputs generalizing w with
  | nil =>
      have hnone : w.awaited [] = 0 := awaited_eq_zero hw fun wait h => by simp [lapses, h]
      simp [run, hnone, settling]
  | cons input inputs ih =>
      rw [settling_cons hw.running]
      cases hexit : input.exit? with
      | none =>
          obtain ⟨hw', hcalls⟩ := calls_step hw hexit inputs
          rw [run_cons, ih hw', hcalls, if_pos rfl]
          omega
      | some e =>
          obtain rfl : input = .exit e := eq_exit_of_exit? hexit
          have hnone : w.awaited (.exit e :: inputs) = 0 :=
            awaited_eq_zero hw fun wait h => by simp [lapses_cons h, Input.exit?]
          rw [calls_run_exit, hnone]
          simp [notices]

/-- A watch ends with the first end that comes, and goes on as long as none comes. -/
theorem exit_run {w : Watcher} (hw : w.running = true) (inputs : List Input) :
    (w.run inputs).exit = inputs.findSome? Input.exit? := by
  induction inputs generalizing w with
  | nil => exact Option.isNone_iff_eq_none.1 hw
  | cons input inputs ih =>
      have hexit := exit_step hw input
      rw [run_cons, List.findSome?_cons]
      cases h : input.exit? with
      | none =>
          rw [h] at hexit
          exact ih (Option.isNone_iff_eq_none.2 hexit)
      | some e =>
          rw [h] at hexit
          rw [run_of_ended (by rw [running, hexit]; rfl), hexit]

/-- So a watcher listens as long as no end has come. -/
theorem running_run {w : Watcher} (hw : w.running = true) (inputs : List Input) :
    (w.run inputs).running = true ↔ ∀ e, Input.exit e ∉ inputs := by
  rw [running, exit_run hw, Option.isNone_iff_eq_none, List.findSome?_eq_none_iff]
  constructor
  · intro h e he
    cases h _ he
  · intro h input hinput
    cases hexit : input.exit? with
    | none => rfl
    | some e => exact absurd (eq_exit_of_exit? hexit ▸ hinput) (h e)

/-- A timer that is set is listened to, and only then: no input parts the two. -/
theorem pending_step {w : Watcher} (hw : w.pending = w.timer.isSome) (input : Input) :
    (w.step input).1.pending = (w.step input).1.timer.isSome := by
  unfold step
  split
  · exact hw
  · cases input with
    | event e =>
        by_cases h : w.concerns e
        · simpa [h] using pending_settle rfl
        · simpa [h] using hw
    | sleep ms => exact pending_settle hw
    | exit e => rfl
    | _ => exact hw

/-- In every run the watcher listens to its timer just when that is set. -/
theorem pending_run {w : Watcher} (hw : w.pending = w.timer.isSome) (inputs : List Input) :
    (w.run inputs).pending = (w.run inputs).timer.isSome := by
  induction inputs generalizing w with
  | nil => exact hw
  | cons input inputs ih => exact ih (pending_step hw input)

/-- A run is the same without the inputs that are ignored. -/
theorem run_filter_ignores (w : Watcher) (inputs : List Input) :
    w.run (inputs.filter fun input => !w.ignores input) = w.run inputs := by
  induction inputs generalizing w with
  | nil => rfl
  | cons input inputs ih =>
      by_cases h : w.ignores input = true
      · rw [List.filter_cons_of_neg (by simp [h]), run_cons, step_of_ignores h, ih]
      · rw [List.filter_cons_of_pos (by simp [h]), run_cons, run_cons, ← ih,
          ignores_eq_of_path (path_step w input)]

/-- **A watcher acts once for each change that settles.** Whatever comes in, it acts as often as
there are events that concern the file, come while it listens, are not followed by another before
the delay then in force is over, and see that moment come while it still listens. It listens until
the first end comes, and in all that time its timer is set just when it listens to it; events that
do not concern the file and problems make no difference; and after an end, whichever it is, it never
acts again, whatever it was waiting for, and nothing has failed. -/
theorem calls_run (path : Text) (delay : Int) (inputs more : List Input) :
    let w : Watcher := { path, delay }
    (w.run inputs).calls = w.settling inputs ∧
    ((w.run inputs).running = true ↔ ∀ e, Input.exit e ∉ inputs) ∧
    (w.run inputs).exit = inputs.findSome? Input.exit? ∧
    (w.run inputs).pending = (w.run inputs).timer.isSome ∧
    (w.run (inputs.filter fun input => !w.ignores input)).calls = (w.run inputs).calls ∧
    ∀ e, (w.run (inputs ++ .exit e :: more)).calls = (w.run inputs).calls ∧
      e.result = .ok () := by
  intro w
  have hw : w.Waiting := ⟨rfl, rfl, fun t ht => by cases ht⟩
  refine ⟨?_, running_run rfl inputs, exit_run rfl inputs, pending_run rfl inputs,
    by rw [run_filter_ignores], fun e => ⟨?_, e.result_eq⟩⟩
  · rw [calls_run_of_waiting hw]
    simp [awaited, w]
  · rw [run_append, calls_run_exit]

example : (({ path := "/a" } : Watcher).run
    [.event ⟨"/a", .written⟩, .sleep 99, .event ⟨"/b", .written⟩, .event ⟨"/./a", .created⟩,
      .sleep 99, .sleep 1, .event ⟨"/a", .written⟩, .exit .eventsClosed,
      .sleep 200]).calls = 1 := by
  decide

end Watcher

end IntLang.Watch
