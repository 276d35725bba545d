import IntLang.Proofs.Single.Rounding

/-!
# The shortest decimal of a number

The search for the shortest decimal goes down from large powers of ten and stops at the first one
that has a multiple in the interval of the number. A power of ten of which the number itself is a
multiple has one, so the search stops there at the latest (`Interval.shortest_spec`); every finite
number is a multiple of `10 ^ (-149)`.

What the search stops at lies in the interval (`contains_decimal`), and it stops at ones or above
exactly if the number has no fraction (`decimal_nonneg_iff`).
-/

namespace IntLang.Single

/-- The exact magnitude of a finite number. -/
def magnitude (x : Single) : ℚ := x.mantissa * 2 ^ x.exponent

namespace Interval

/-! ### Multiples of a power of ten -/

/-- Units of an interval and multiples of a power of ten, both measured in a common part of the
two. -/
theorem inPlaces_spec (e k : ℤ) :
    ∃ c : ℚ, 0 < c ∧ ∀ n d : Nat, ((inPlaces n e k).1 : ℚ) = n * c ∧
      ((d * (inPlaces n e k).2 : Nat) : ℚ) = d * 10 ^ k / 2 ^ e * c := by
  refine ⟨2 ^ e.toNat * 10 ^ (-k).toNat, by positivity, fun n d => ⟨?_, ?_⟩⟩
  · show ((n * 2 ^ e.toNat * 10 ^ (-k).toNat : Nat) : ℚ) = _
    push_cast
    ring
  · show ((d * (2 ^ (-e).toNat * 10 ^ k.toNat) : Nat) : ℚ) = _
    rw [← pow_toNat_div_pow_toNat 2 e, ← pow_toNat_div_pow_toNat 10 k]
    push_cast
    field_simp

/-- A multiple of a power of ten is found to lie in an interval exactly if it does. -/
theorem holds_iff_contains (i : Interval) (k : ℤ) (d : Nat) :
    i.holds k d = true ↔ i.Contains (d * 10 ^ k) := by
  obtain ⟨c, hc, hplaces⟩ := inPlaces_spec i.exponent k
  obtain ⟨hlow, hmul⟩ := hplaces i.low d
  obtain ⟨hhigh, -⟩ := hplaces i.high d
  rw [holds, Contains]
  dsimp only
  split_ifs
  · rw [Bool.and_eq_true, decide_eq_true_eq, decide_eq_true_eq, ← Nat.cast_le (α := ℚ),
      ← Nat.cast_le (α := ℚ), hlow, hhigh, hmul, mul_le_mul_iff_left₀ hc, mul_le_mul_iff_left₀ hc]
  · rw [Bool.and_eq_true, decide_eq_true_eq, decide_eq_true_eq, ← Nat.cast_lt (α := ℚ),
      ← Nat.cast_lt (α := ℚ), hlow, hhigh, hmul, mul_lt_mul_iff_left₀ hc, mul_lt_mul_iff_left₀ hc]

/-- What is taken at a power of ten lies in the interval. -/
theorem contains_of_nearest? {i : Interval} {k : ℤ} {d : Nat} (h : i.nearest? k = some d) :
    i.Contains (d * 10 ^ k) := by
  rw [← holds_iff_contains]
  simp only [nearest?] at h
  split_ifs at h with h1 h2 h3
  · exact Option.some.inj h ▸ h1
  · exact Option.some.inj h ▸ h2
  · exact Option.some.inj h ▸ h3

/-- If the middle of an interval is a multiple of a power of ten, one is taken there. -/
theorem isSome_nearest? {i : Interval} {k : ℤ} {n : Nat}
    (hmid : (i.mid : ℚ) = n * 10 ^ k / 2 ^ i.exponent) (h : i.Contains (n * 10 ^ k)) :
    (i.nearest? k).isSome = true := by
  obtain ⟨c, hc, hplaces⟩ := inPlaces_spec i.exponent k
  obtain ⟨hnum, hden⟩ := hplaces i.mid n
  have hmul : (inPlaces i.mid i.exponent k).1 = n * (inPlaces i.mid i.exponent k).2 := by
    rw [← Nat.cast_inj (R := ℚ), hnum, hden, hmid]
  have hpos : 0 < (inPlaces i.mid i.exponent k).2 :=
    Nat.mul_pos (Nat.two_pow_pos _) (Nat.pow_pos (by decide))
  rw [← holds_iff_contains] at h
  rw [nearest?]
  generalize inPlaces i.mid i.exponent k = mid at *
  dsimp only
  rw [hmul, roundHalfEven_mul n hpos, if_pos h]
  rfl

/-- **The search stops at a power of ten that has a multiple in the interval, or above.** -/
theorem shortest_spec {i : Interval} {least : ℤ} (h : (i.nearest? least).isSome = true) (fuel : Nat)
    {k : ℤ} (hk : least ≤ k) (hf : k < least + fuel) :
    i.nearest? (i.shortest fuel k).2 = some (i.shortest fuel k).1 ∧
      least ≤ (i.shortest fuel k).2 ∧ (i.shortest fuel k).2 ≤ k := by
  induction fuel generalizing k with
  | zero => omega
  | succ fuel ih =>
      rw [shortest]
      cases hn : i.nearest? k with
      | some d => exact ⟨hn, hk, le_refl k⟩
      | none =>
          have hne : k ≠ least := by
            rintro rfl
            rw [hn] at h
            cases h
          obtain ⟨hnearest, hlo, hhi⟩ := ih (by omega : least ≤ k - 1) (by omega)
          exact ⟨hnearest, hlo, hhi.trans (by omega)⟩

end Interval

/-! ### The decimal of a number -/

variable {x : Single}

/-- In the unit of its interval a number is the middle. -/
theorem magnitude_div_interval_unit (x : Single) :
    x.magnitude / 2 ^ (interval x).exponent = (4 * x.mantissa : Nat) := by
  rw [div_interval_unit, magnitude, mul_div_cancel_right₀ _ (by positivity)]
  push_cast
  rfl

/-- A number lies in its own interval. -/
theorem contains_magnitude (hm : x.mantissa ≠ 0) : (interval x).Contains x.magnitude := by
  have hlow : (interval x).low < 4 * x.mantissa := by
    rw [low_interval]
    split_ifs <;> omega
  have hhigh : 4 * x.mantissa < (interval x).high := by
    have : (interval x).high = 4 * x.mantissa + 2 := rfl
    omega
  rw [Interval.Contains, magnitude_div_interval_unit]
  split_ifs
  · exact ⟨by exact_mod_cast hlow.le, by exact_mod_cast hhigh.le⟩
  · exact ⟨by exact_mod_cast hlow, by exact_mod_cast hhigh⟩

/-- At a power of ten of which a number is a multiple, one is taken. -/
theorem isSome_nearest?_interval (hm : x.mantissa ≠ 0) {k : ℤ} {n : Nat}
    (h : x.magnitude = n * 10 ^ k) : ((interval x).nearest? k).isSome = true := by
  refine Interval.isSome_nearest? ?_ (h ▸ contains_magnitude hm)
  rw [← h, magnitude_div_interval_unit]
  rfl

/-- A negative power of two is a multiple of the same power of ten. -/
theorem two_zpow_neg (p : Nat) : (2 : ℚ) ^ (-(p : ℤ)) = 5 ^ p * 10 ^ (-(p : ℤ)) := by
  have hten : (10 : ℚ) ^ p = 2 ^ p * 5 ^ p := by
    rw [← mul_pow]
    norm_num
  rw [zpow_neg, zpow_neg, zpow_natCast, zpow_natCast, hten]
  field_simp

/-- Every finite number is a multiple of a small power of ten. -/
theorem exists_magnitude_eq (hx : x.isSpecial = false) :
    ∃ n : Nat, x.magnitude = n * 10 ^ (-149 : ℤ) := by
  have hge := (fields_of_isSpecial hx).exponent_ge
  obtain ⟨e, he⟩ := Int.eq_ofNat_of_zero_le (by omega : 0 ≤ x.exponent + 149)
  have hexp : x.exponent = (e : ℤ) + -((149 : Nat) : ℤ) := by omega
  refine ⟨x.mantissa * 2 ^ e * 5 ^ 149, ?_⟩
  rw [magnitude, hexp, zpow_add₀ (by norm_num), zpow_natCast, two_zpow_neg, Nat.cast_mul,
    Nat.cast_mul, Nat.cast_pow, Nat.cast_pow, mul_assoc, mul_assoc]
  rfl

/-- **The shortest decimal of a number lies in its interval.** -/
theorem contains_decimal (hx : x.isSpecial = false) (hm : x.mantissa ≠ 0) :
    (interval x).Contains (x.decimal.1 * 10 ^ x.decimal.2) ∧
      -149 ≤ x.decimal.2 ∧ x.decimal.2 ≤ 40 := by
  obtain ⟨n, hn⟩ := exists_magnitude_eq hx
  obtain ⟨hnearest, hlo, hhi⟩ := Interval.shortest_spec (isSome_nearest?_interval hm hn) 200
    (by decide : (-149 : ℤ) ≤ 40) (by decide)
  exact ⟨Interval.contains_of_nearest? hnearest, hlo, hhi⟩

/-- A multiple of the last place in the interval of a number is the number. -/
theorem eq_magnitude_of_contains (hm : x.mantissa ≠ 0) {n : Nat}
    (h : (interval x).Contains (n * 2 ^ x.exponent)) : n * 2 ^ x.exponent = x.magnitude := by
  obtain ⟨hlo, hhi, -⟩ := h.places hm
  rw [mul_div_cancel_right₀ _ (by positivity)] at hlo hhi
  have hlo' : (x.mantissa : ℚ) < n + 1 := by linarith
  have hhi' : (n : ℚ) < x.mantissa + 1 := by linarith
  have hle : x.mantissa < n + 1 := by exact_mod_cast hlo'
  have hge : n < x.mantissa + 1 := by exact_mod_cast hhi'
  rw [magnitude, show n = x.mantissa by omega]

/-- **The shortest decimal of a number has no fraction exactly if the number has none.** -/
theorem decimal_nonneg_iff (hx : x.isSpecial = false) (hm : x.mantissa ≠ 0) :
    0 ≤ x.decimal.2 ↔ ∃ n : Nat, x.magnitude = n := by
  constructor
  · intro hk
    obtain ⟨z, hz⟩ := Int.eq_ofNat_of_zero_le hk
    obtain ⟨hcontains, -⟩ := contains_decimal hx hm
    rcases le_total 0 x.exponent with he | he
    · obtain ⟨e, he⟩ := Int.eq_ofNat_of_zero_le he
      refine ⟨x.mantissa * 2 ^ e, ?_⟩
      rw [magnitude, he, zpow_natCast]
      push_cast
      rfl
    · -- The decimal is a natural number, and so a multiple of the last place.
      obtain ⟨e, he⟩ := Int.eq_ofNat_of_zero_le (by omega : 0 ≤ -x.exponent)
      have hexp : x.exponent = -(e : ℤ) := by omega
      have hmul : (x.decimal.1 : ℚ) * 10 ^ x.decimal.2
          = ((x.decimal.1 * 10 ^ z * 2 ^ e : Nat) : ℚ) * 2 ^ x.exponent := by
        rw [hz, hexp, zpow_neg, zpow_natCast, zpow_natCast]
        push_cast
        field_simp
      rw [hmul] at hcontains
      have heq := eq_magnitude_of_contains hm hcontains
      rw [← hmul, hz] at heq
      refine ⟨x.decimal.1 * 10 ^ z, ?_⟩
      rw [← heq, zpow_natCast]
      push_cast
      rfl
  · rintro ⟨n, hn⟩
    have hones : x.magnitude = n * 10 ^ (0 : ℤ) := by rw [hn, zpow_zero, mul_one]
    exact (Interval.shortest_spec (isSome_nearest?_interval hm hones) 200
      (by decide : (0 : ℤ) ≤ 40) (by decide)).2.1

end IntLang.Single
