import IntLang.Proofs.Single.Grammar

/-!
# Whole numbers among the singles

A single precision number is *whole* if it is a natural number. Rounding a natural number gives a
whole number (`isWhole_of_ofRatio?`): where the last binary place counts ones or more, every number
is whole, and where it counts less, nothing is rounded.

A whole number is written in digits alone (`text_of_isWhole`), since its shortest decimal has no
fraction.

A numeral without signs and without a point spells a whole number (`isWhole_of_ofText?`).
-/

namespace IntLang.Single

/-- Whether a number is a natural number: finite, not negative, and `mantissa * 2 ^ exponent` is
whole. -/
structure IsWhole (x : Single) : Prop where
  /-- It has no minus sign. -/
  isNegative : x.isNegative = false
  /-- It is finite. -/
  isSpecial : x.isSpecial = false
  /-- Its value is a natural number. -/
  value : ∃ n, x.mantissa * 2 ^ x.exponent.toNat = n * 2 ^ (-x.exponent).toNat

/-- The magnitude of a whole number is a natural number. -/
theorem IsWhole.exists_magnitude_eq {x : Single} (hx : IsWhole x) : ∃ n : Nat, x.magnitude = n := by
  obtain ⟨n, hn⟩ := hx.value
  refine ⟨n, ?_⟩
  rw [magnitude, ← pow_toNat_div_pow_toNat, mul_div_assoc', div_eq_iff (by positivity)]
  exact_mod_cast hn

/-- A number is whole if its magnitude is a natural number. -/
theorem isWhole_of_magnitude_eq {x : Single} (hneg : x.isNegative = false)
    (hx : x.isSpecial = false) {n : Nat} (h : x.magnitude = n) : IsWhole x := by
  refine ⟨hneg, hx, n, ?_⟩
  rw [magnitude, ← pow_toNat_div_pow_toNat, mul_div_assoc', div_eq_iff (by positivity)] at h
  exact_mod_cast h

/-! ### Rounding natural numbers -/

/-- A natural number is a whole number of units, or the unit is a natural number. -/
theorem Placed.exists_mul_eq {n : Nat} {e : ℤ} {m : Nat} (h : Placed n e m) :
    ∃ k : Nat, (m : ℚ) * 2 ^ e = k := by
  rcases le_total 0 e with he | he
  · obtain ⟨j, rfl⟩ := Int.eq_ofNat_of_zero_le he
    refine ⟨m * 2 ^ j, ?_⟩
    push_cast
    rw [zpow_natCast]
  · -- The count of units is a natural number already, and is not rounded.
    obtain ⟨j, hj⟩ := Int.eq_ofNat_of_zero_le (Int.neg_nonneg_of_nonpos he)
    obtain rfl : e = -(j : ℤ) := by omega
    have hcount : (n : ℚ) / 2 ^ (-(j : ℤ)) = (n * 2 ^ j : Nat) := by
      push_cast
      rw [zpow_neg, zpow_natCast, div_inv_eq_mul]
    have hlow := h.low
    have hhigh := h.high
    rw [hcount] at hlow hhigh
    have hle : (m : ℚ) < (n * 2 ^ j + 1 : Nat) := by
      push_cast at hlow ⊢
      linarith
    have hge : ((n * 2 ^ j : Nat) : ℚ) < (m + 1 : Nat) := by
      push_cast at hhigh ⊢
      linarith
    have hm : m = n * 2 ^ j := by
      have hle' := Nat.cast_lt.1 hle
      have hge' := Nat.cast_lt.1 hge
      omega
    refine ⟨n, ?_⟩
    rw [hm, ← hcount, div_mul_cancel₀ _ (by positivity)]

/-- **Rounding a natural number gives a whole number.** -/
theorem isWhole_of_ofRatio? {n : Nat} {x : Single} (h : ofRatio? n 1 = some x) : IsWhole x := by
  by_cases hn : n = 0
  · rw [ofRatio?, if_pos hn] at h
    obtain rfl : zero = x := Option.some.inj h
    exact ⟨rfl, rfl, 0, rfl⟩
  · obtain ⟨e, m, hplaced, hround⟩ := exists_placed hn one_ne_zero
    rw [Nat.cast_one, div_one] at hplaced
    rw [hround] at h
    split_ifs at h with hb
    obtain ⟨hneg, hspecial, hmagnitude, -⟩ := hplaced.number hb (Option.some.inj h).symm
    obtain ⟨k, hk⟩ := hplaced.exists_mul_eq
    exact isWhole_of_magnitude_eq hneg hspecial (hmagnitude.trans hk)

/-! ### Writing whole numbers -/

/-- **A whole number is written in digits alone.** -/
theorem text_of_isWhole {x : Single} (hx : IsWhole x) :
    ∃ ds : List Char, ds ≠ [] ∧ (∀ c ∈ ds, c.isDigit = true) ∧ x.text = .ofChars ds := by
  refine ⟨Nat.toDigits 10 x.writtenNat, Nat.toDigits_ne_nil,
    fun _ => Text.isDigit_of_mem_toDigits, ?_⟩
  have hk := (written_nonneg_iff hx.isSpecial).2 hx.exists_magnitude_eq
  rw [text_eq_signed_ofNat hx.isSpecial hk, hx.isNegative]
  rfl

/-! ### Reading whole numbers -/

/-- A natural number in decimal is whole after rounding. -/
theorem isWhole_of_nearest? {n k : Nat} {x : Single} (h : nearest? n k = some x) : IsWhole x := by
  simp only [nearest?] at h
  split_ifs at h
  · obtain rfl := Option.some.inj h
    exact ⟨rfl, rfl, 0, rfl⟩
  · omega
  · exact isWhole_of_ofRatio? h

/-- **A numeral without signs and without a point spells a whole number.** -/
theorem isWhole_of_ofText? {t : Text} (hm : 0x2D ∉ t.bytes) (hp : 0x2B ∉ t.bytes)
    (hd : 0x2E ∉ t.bytes) {x : Single} (h : ofText? t = some x) : IsWhole x := by
  obtain ⟨y, hy, -⟩ := Option.bind_eq_some_iff.1 h
  obtain ⟨d, k, hspells⟩ := exists_spells_of_numeral? hm hp hd hy
  exact isWhole_of_nearest? (hspells.ofText?_eq.symm.trans h)

end IntLang.Single
