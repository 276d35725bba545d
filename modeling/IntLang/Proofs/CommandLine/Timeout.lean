import IntLang.Proofs.CommandLine.Checked
import IntLang.Proofs.CommandLine.Forms
import Mathlib.Algebra.Order.Ring.Int

/-!
# The time the compiler is given

The seconds that a command line asks for are those of the last flag for them, else those of the
variable `TIMEOUT` if it is a positive number of 64 bits, else none (`Requests`). These are the
seconds of the configuration (`Requests.toInt_secondsOf`): there always are some, since the flag is
never given anything but a number (`exists_requests`).

The seconds are checked not to be negative, but only before they are multiplied, and the product is
again a number of 64 bits. It is the time that was asked for as long as that is at most 9223372036
seconds, 292 years (`timeoutNanoseconds_eq_iff`). Beyond that it wraps, and is always less than what
was asked for (`timeoutNanoseconds_lt`).
-/

namespace IntLang.CommandLine

/-! ### The seconds that are asked for -/

/-- The flag for the seconds is always given a number. -/
theorem Assignment.IsRead.exists_number {a : Assignment} (h : a.IsRead)
    (hflag : a.flag = .timeout) : ∃ n, a.value = .number n := by
  obtain ⟨f, hf, t, ht⟩ := h
  obtain ⟨hid, hread⟩ := Flag.assign_eq_ok_iff.1 ht
  have hkinds : ∀ f ∈ flags, f.id = .timeout → f.kind = .number := by decide
  rw [hkinds f hf (hid.trans hflag), FlagKind.read] at hread
  split at hread
  · exact ⟨_, (Except.ok.inj hread).symm⟩
  · cases hread

/-- The seconds that flags and environment ask for. -/
inductive Requests (env : Environment) (given : List Assignment) : Int → Prop
  /-- Those of the last flag, -/
  | flag {before behind : List Assignment} {n : Int64}
      (hgiven : given = before ++ ⟨.timeout, .number n⟩ :: behind)
      (hlast : ∀ a ∈ behind, a.flag ≠ .timeout) : Requests env given n.toInt
  /-- else those of the variable, if it is a positive number of 64 bits, -/
  | environment {n : Int} (hnone : ∀ a ∈ given, a.flag ≠ .timeout)
      (hvalue : (env.value "TIMEOUT").integer? = some n) (hpos : 0 < n) (hlt : n < 2 ^ 63) :
      Requests env given n
  /-- else none. -/
  | nothing (hnone : ∀ a ∈ given, a.flag ≠ .timeout)
      (hvalue : ∀ n, (env.value "TIMEOUT").integer? = some n → n ≤ 0 ∨ 2 ^ 63 ≤ n) :
      Requests env given 0

/-- The seconds of a list of flags and an environment. -/
def secondsOf (env : Environment) (given : List Assignment) : Int64 :=
  if isGiven given .timeout then numberOf given .timeout
  else env.seconds?.getD (numberOf given .timeout)

theorem seconds?_eq_some_iff {env : Environment} {s : Int64} :
    env.seconds? = some s ↔
      ∃ n, (env.value "TIMEOUT").integer? = some n ∧ 0 < n ∧ n < 2 ^ 63 ∧ s.toInt = n := by
  have hpow : (Nat.pow 2 (64 - 1) : Int) = 9223372036854775808 := rfl
  have hrange : (2 : Int) ^ 63 = 9223372036854775808 := rfl
  simp only [Environment.seconds?, Text.integerWithin?, Option.map_eq_some_iff,
    Option.filter_eq_some_iff, Bool.and_eq_true, decide_eq_true_eq, hpow, hrange]
  constructor
  · rintro ⟨n, ⟨⟨hn, hlow, hlt⟩, hpos⟩, rfl⟩
    exact ⟨n, hn, hpos, hlt, Int64.toInt_ofInt_of_le hlow hlt⟩
  · rintro ⟨n, hn, hpos, hlt, hs⟩
    refine ⟨n, ⟨⟨hn, by omega, hlt⟩, hpos⟩, ?_⟩
    rw [← hs, Int64.ofInt_toInt]

/-- **What is asked for is what is taken.** -/
theorem Requests.toInt_secondsOf {env : Environment} {given : List Assignment} {seconds : Int}
    (h : Requests env given seconds) : (secondsOf env given).toInt = seconds := by
  cases h with
  | @flag before behind n hgiven hlast =>
      have hlast' := lastGiven_eq_some_iff.2 ⟨before, behind, hgiven, hlast⟩
      have hsome : isGiven given .timeout = true := by
        rw [isGiven_eq_isSome, hlast', Option.isSome_some]
      rw [secondsOf, if_pos hsome, numberOf, hlast']
  | environment hnone hvalue hpos hlt =>
      have hsize : (Int64.ofInt seconds).toInt = seconds :=
        Int64.toInt_ofInt_of_le (by omega) hlt
      have hseconds : env.seconds? = some (.ofInt seconds) :=
        seconds?_eq_some_iff.2 ⟨seconds, hvalue, hpos, hlt, hsize⟩
      rw [secondsOf, isGiven_eq_false_iff.2 hnone, hseconds, if_neg Bool.false_ne_true,
        Option.getD_some, hsize]
  | nothing hnone hvalue =>
      have hnumber : numberOf given .timeout = 0 := by
        rw [numberOf, lastGiven_eq_none_iff.2 hnone]
      have hseconds : env.seconds? = none := by
        rw [Option.eq_none_iff_forall_ne_some]
        intro s hs
        obtain ⟨n, hn, hpos, hlt, -⟩ := seconds?_eq_some_iff.1 hs
        rcases hvalue n hn with h | h <;> omega
      rw [secondsOf, isGiven_eq_false_iff.2 hnone, hseconds, if_neg Bool.false_ne_true,
        Option.getD_none, hnumber]
      rfl

/-- Flags that come from texts ask for some number of seconds. -/
theorem exists_requests (env : Environment) {given : List Assignment}
    (h : ∀ a ∈ given, a.IsRead) : ∃ seconds, Requests env given seconds := by
  cases hlast : lastGiven given .timeout with
  | some v =>
      obtain ⟨before, behind, hgiven, hnot⟩ := lastGiven_eq_some_iff.1 hlast
      obtain ⟨n, rfl⟩ := (h ⟨.timeout, v⟩ (by simp [hgiven])).exists_number rfl
      exact ⟨_, .flag hgiven hnot⟩
  | none =>
      have hnone := lastGiven_eq_none_iff.1 hlast
      by_cases hvalue : ∃ n, (env.value "TIMEOUT").integer? = some n ∧ 0 < n ∧ n < 2 ^ 63
      · obtain ⟨n, hn, hpos, hlt⟩ := hvalue
        exact ⟨n, .environment hnone hn hpos hlt⟩
      · refine ⟨0, .nothing hnone fun n hn => ?_⟩
        by_contra hcontra
        rw [not_or, not_le, not_le] at hcontra
        exact hvalue ⟨n, hn, hcontra⟩

/-! ### The seconds of a configuration -/

/-- The settings of a configuration that the command line asks for. -/
theorem exists_settings_of_parse {args : List Text} {env : Environment} {config : Config}
    (h : parse args env = .ok (.run config)) :
    ∃ arguments, Arguments.read (selectTopic args).2 = .ok arguments ∧
      config.settings.timeout = secondsOf env arguments.given := by
  obtain ⟨arguments, command, hread, -, hconfigure⟩ := exists_configure_of_parse h
  obtain ⟨-, rfl, -⟩ := configure_eq_ok_iff.1 hconfigure
  exact ⟨arguments, hread, rfl⟩

/-- Settings that have passed their check ask for no negative time. -/
theorem Settings.timeout_nonneg_of_check {s : Settings} (h : s.check = .ok ()) :
    0 ≤ s.timeout.toInt := by
  rw [check] at h
  dsimp only at h
  split at h
  · cases h
  · next hneg =>
    rw [Int64.lt_iff_toInt_lt, not_lt] at hneg
    exact hneg

/-! ### Nanoseconds -/

/-- The product is a number of 64 bits. -/
theorem toInt_timeoutNanoseconds (config : Config) :
    config.timeoutNanoseconds.toInt = (config.settings.timeout.toInt * 10 ^ 9).bmod (2 ^ 64) := by
  rw [Config.timeoutNanoseconds, Int64.toInt_mul]
  rfl

/-- **The product is exact as long as it fits into 63 bits.** -/
theorem timeoutNanoseconds_eq_iff {config : Config} (h : 0 ≤ config.settings.timeout.toInt) :
    config.timeoutNanoseconds.toInt = config.settings.timeout.toInt * 10 ^ 9 ↔
      config.settings.timeout.toInt ≤ 9223372036 := by
  have hlt := config.settings.timeout.toInt_lt
  rw [toInt_timeoutNanoseconds]
  simp only [Int.bmod]
  omega

/-- Beyond that, it is too small. -/
theorem timeoutNanoseconds_lt {config : Config} (h : 9223372036 < config.settings.timeout.toInt) :
    config.timeoutNanoseconds.toInt < config.settings.timeout.toInt * 10 ^ 9 := by
  rw [toInt_timeoutNanoseconds]
  simp only [Int.bmod]
  omega

end IntLang.CommandLine
