import IntLang.Proofs.Single.ReadBack

/-!
# Rounding to the nearest number

A quotient is rounded by counting it in units of the last binary place that a mantissa of 24 bits
has at its size, and rounding the count (`Placed`). Nothing about the numbers themselves enters into
this. Here it is shown that the outcome is the right one among all of them: no finite number is
nearer to the quotient, and of two that are equally near it is the one with the even mantissa
(`IsRounded`).

There is no outcome exactly if the quotient has come halfway from the greatest finite number to the
next power of two, `2 ^ 128`.

## Main results

* `ofRatio?_eq_none_iff` and `isRounded_of_ofRatio?`: rounding a quotient;
* `nearest?_eq_none_iff` and `isRounded_of_nearest?`: rounding a natural number in decimal.
-/

namespace IntLang.Single

/-- A number is what a quotient is rounded to: finite and not negative, none of the finite numbers
is nearer to the quotient, and if another one is as near, the mantissa is even. -/
structure IsRounded (x : Single) (q : ℚ) : Prop where
  isNegative : x.isNegative = false
  isSpecial : x.isSpecial = false
  nearest : ∀ y : Single, y.isSpecial = false → |x.magnitude - q| ≤ |y.magnitude - q|
  even : ∀ y : Single, y.isSpecial = false → y.magnitude ≠ x.magnitude →
    |y.magnitude - q| = |x.magnitude - q| → x.mantissa % 2 = 0

/-! ### Counting in the last place -/

/-- A quotient is counted in units of `2 ^ e`, and the count is rounded to `m`. The unit is the last
place of a mantissa of 24 bits, unless that were beyond the least exponent. -/
structure Placed (q : ℚ) (e : ℤ) (m : Nat) : Prop where
  /-- There is a least exponent. -/
  exponent_ge : -149 ≤ e
  /-- The count has at most 24 bits. -/
  upper : q < 2 ^ (e + 24)
  /-- It has that many, except at the least exponent. -/
  lower : e = -149 ∨ 2 ^ (e + 23) ≤ q
  /-- The count is rounded down by at most a half, -/
  low : (m : ℚ) - 1 / 2 ≤ q / 2 ^ e
  /-- up by at most a half, -/
  high : q / 2 ^ e ≤ m + 1 / 2
  /-- and by a half only to an even number. -/
  even : (m : ℚ) - 1 / 2 = q / 2 ^ e ∨ q / 2 ^ e = m + 1 / 2 → m % 2 = 0

/-- Rounding counts a quotient in the last place and puts the bits together, if there are not too
many of them. -/
theorem exists_placed {num den : Nat} (hn : num ≠ 0) (hd : den ≠ 0) :
    ∃ (e : ℤ) (m : Nat), Placed (num / den) e m ∧
      ofRatio? num den = if (e + 149).toNat * 0x800000 + m < 0x7F800000
        then some ⟨.ofNat ((e + 149).toNat * 0x800000 + m)⟩ else none := by
  obtain ⟨hlo, hhi⟩ := floorLog2_spec hn hd
  obtain ⟨e, he⟩ : ∃ e, max (-149) (floorLog2 num den - 23) = e := ⟨_, rfl⟩
  obtain ⟨hpos, hscale⟩ := scaleByPow2_spec num (Nat.pos_of_ne_zero hd) (-e)
  rw [zpow_neg, ← div_eq_mul_inv] at hscale
  obtain ⟨hlow, hhigh, heven⟩ := roundHalfEven_spec (scaleByPow2 num den (-e)).1 hpos
  rw [hscale] at hlow hhigh heven
  refine ⟨e, _, ⟨by omega, ?_, ?_, hlow, hhigh, heven⟩, ?_⟩
  · exact lt_of_lt_of_le hhi (zpow_le_zpow_right₀ one_le_two (by omega))
  · by_cases hleast : e = -149
    · exact Or.inl hleast
    · exact Or.inr ((zpow_le_zpow_right₀ one_le_two (by omega)).trans hlo)
  · rw [ofRatio?, if_neg hn]
    simp only [he]

namespace Placed

variable {q : ℚ} {e : ℤ} {m : Nat}

/-- The count in units of the last place, at both ends of its range. -/
theorem count_bounds (h : Placed q e m) :
    q / 2 ^ e < 16777216 ∧ (e = -149 ∨ 8388608 ≤ q / 2 ^ e) := by
  have hupper := h.upper
  have hlower := h.lower
  rw [zpow_add₀ (by norm_num)] at hupper hlower
  norm_num at hupper hlower
  constructor
  · rw [div_lt_iff₀ (by positivity)]
    linarith
  · refine hlower.imp_right fun hle => ?_
    rw [le_div_iff₀ (by positivity)]
    linarith

/-- The rounded count has at most 24 bits, or it is the next power of two. -/
theorem le (h : Placed q e m) : m ≤ 0x1000000 := by
  have hlt : (m : ℚ) < 16777216 + 1 := by
    have := h.count_bounds.1
    have := h.low
    linarith
  have hlt' : m < 16777216 + 1 := by exact_mod_cast hlt
  omega

/-- It has its leading bit, except at the least exponent. -/
theorem normal (h : Placed q e m) : e = -149 ∨ 0x800000 ≤ m := by
  refine h.count_bounds.2.imp_right fun hle => ?_
  have hlt : (8388608 : ℚ) < m + 1 := by
    have := h.high
    linarith
  have hlt' : 8388608 < m + 1 := by exact_mod_cast hlt
  omega

/-- **The number that the bits are put together to.** If the count was rounded up to a power of two,
the carry goes over into the exponent, and the number is still the count times its unit. -/
theorem number (h : Placed q e m) (hb : (e + 149).toNat * 0x800000 + m < 0x7F800000) {x : Single}
    (hx : x = ⟨.ofNat ((e + 149).toNat * 0x800000 + m)⟩) :
    x.isNegative = false ∧ x.isSpecial = false ∧ x.magnitude = m * 2 ^ e ∧
      (m % 2 = 0 → x.mantissa % 2 = 0) := by
  have hge := h.exponent_ge
  have hle := h.le
  have hnormal := h.normal
  have hbits : x.bits.toNat = (e + 149).toNat * 0x800000 + m := by
    rw [hx]
    show (UInt32.ofNat _).toNat = _
    rw [UInt32.toNat_ofNat']
    omega
  have hnegative : x.isNegative = false := by
    simp only [isNegative, hbits, beq_eq_false_iff_ne]
    omega
  have hspecial : x.isSpecial = false := by
    simp only [isSpecial, exponentField, hbits, beq_eq_false_iff_ne]
    omega
  have hf := fields_of_isSpecial hspecial
  have hparts : x.exponent = e ∧ x.mantissa = m ∨
      x.exponent = e + 1 ∧ x.mantissa = 0x800000 ∧ m = 0x1000000 := by
    have := hf.bits
    have := hf.exponent_ge
    have := hf.mantissa_lt
    have := hf.normal
    omega
  refine ⟨hnegative, hspecial, ?_, by omega⟩
  rcases hparts with ⟨hexponent, hmantissa⟩ | ⟨hexponent, hmantissa, rfl⟩
  · rw [magnitude, hexponent, hmantissa]
  · rw [magnitude, hexponent, hmantissa, zpow_add₀ (by norm_num)]
    norm_num
    ring

/-- Of all integers the rounded count is nearest to the count, and another one is as near only if it
is even. -/
theorem count_nearest (h : Placed q e m) (k : ℤ) :
    |(m : ℚ) - q / 2 ^ e| ≤ |k - q / 2 ^ e| ∧
    (k ≠ m → |k - q / 2 ^ e| = |(m : ℚ) - q / 2 ^ e| → m % 2 = 0) := by
  have hlow := h.low
  have hhigh := h.high
  have heven := h.even
  generalize q / 2 ^ e = count at *
  have hhalf : |(m : ℚ) - count| ≤ 1 / 2 := abs_le.2 ⟨by linarith, by linarith⟩
  rcases lt_trichotomy k m with hk | rfl | hk
  · have hk' : (k : ℚ) + 1 ≤ m := by exact_mod_cast hk
    rw [abs_of_nonpos (by linarith : (k : ℚ) - count ≤ 0)]
    exact ⟨by linarith, fun _ heq => heven (Or.inl (by linarith))⟩
  · rw [Int.cast_natCast]
    exact ⟨le_rfl, fun hne => absurd rfl hne⟩
  · have hk' : (m : ℚ) + 1 ≤ k := by exact_mod_cast hk
    rw [abs_of_nonneg (by linarith : (0 : ℚ) ≤ k - count)]
    exact ⟨by linarith, fun _ heq => heven (Or.inr (by linarith))⟩

/-- A finite number is a multiple of the unit, or it lies below the quotient and there is a multiple
of the unit between the two. -/
theorem multiple_or_below (h : Placed q e m) {y : Single} (hy : y.isSpecial = false) :
    (∃ k : ℤ, y.magnitude = k * 2 ^ e) ∨
      y.magnitude < 8388608 * 2 ^ e ∧ 8388608 * 2 ^ e ≤ q := by
  have hf := fields_of_isSpecial hy
  rcases le_or_gt e y.exponent with hle | hlt
  · obtain ⟨j, hj⟩ := Int.eq_ofNat_of_zero_le (Int.sub_nonneg_of_le hle)
    refine Or.inl ⟨y.mantissa * 2 ^ j, ?_⟩
    have hexponent : y.exponent = j + e := by omega
    rw [magnitude, hexponent, zpow_add₀ (by norm_num), zpow_natCast]
    push_cast
    ring
  · have hmantissa : (y.mantissa : ℚ) < 16777216 := by exact_mod_cast hf.mantissa_lt
    refine Or.inr ⟨?_, ?_⟩
    · calc y.magnitude ≤ y.mantissa * 2 ^ (e - 1) :=
            mul_le_mul_of_nonneg_left (zpow_le_zpow_right₀ one_le_two (by omega)) (by positivity)
        _ < 16777216 * 2 ^ (e - 1) := mul_lt_mul_of_pos_right hmantissa (by positivity)
        _ = 8388608 * 2 ^ e := by
            rw [zpow_sub₀ (by norm_num)]
            ring
    · have hbits := h.count_bounds.2.resolve_left (by have := hf.exponent_ge; omega)
      rwa [le_div_iff₀ (by positivity)] at hbits

/-- **The number that is put together from the rounded count is nearest to the quotient.** -/
theorem isRounded (h : Placed q e m) (hb : (e + 149).toNat * 0x800000 + m < 0x7F800000) :
    IsRounded ⟨.ofNat ((e + 149).toNat * 0x800000 + m)⟩ q := by
  obtain ⟨x, hx⟩ : ∃ x : Single, x = ⟨.ofNat ((e + 149).toNat * 0x800000 + m)⟩ := ⟨_, rfl⟩
  rw [← hx]
  obtain ⟨hnegative, hspecial, hmagnitude, heven⟩ := h.number hb hx
  have hunit : (0 : ℚ) < 2 ^ e := by positivity
  -- Distances from the quotient, counted in the unit.
  have hdistance (k : ℚ) : |k * 2 ^ e - q| = |k - q / 2 ^ e| * 2 ^ e := by
    rw [← abs_of_pos hunit, ← abs_mul, abs_of_pos hunit, sub_mul, div_mul_cancel₀ _ hunit.ne']
  have hbetween {y : Single} (hbelow : y.magnitude < 8388608 * 2 ^ e ∧ 8388608 * 2 ^ e ≤ q) :
      |x.magnitude - q| < |y.magnitude - q| := by
    have hnearest := (h.count_nearest 8388608).1
    calc |x.magnitude - q| = |(m : ℚ) - q / 2 ^ e| * 2 ^ e := by rw [hmagnitude, hdistance]
      _ ≤ |((8388608 : ℤ) : ℚ) - q / 2 ^ e| * 2 ^ e :=
          mul_le_mul_of_nonneg_right hnearest hunit.le
      _ = |8388608 * 2 ^ e - q| := by
          rw [hdistance]
          norm_num
      _ < |y.magnitude - q| := by
          rw [abs_of_nonpos (by linarith), abs_of_nonpos (by linarith)]
          linarith
  refine ⟨hnegative, hspecial, fun y hy => ?_, fun y hy hne heq => ?_⟩
  · rcases h.multiple_or_below hy with ⟨k, hk⟩ | hbelow
    · rw [hmagnitude, hk, hdistance, hdistance]
      exact mul_le_mul_of_nonneg_right (h.count_nearest k).1 hunit.le
    · exact (hbetween hbelow).le
  · rcases h.multiple_or_below hy with ⟨k, hk⟩ | hbelow
    · rw [hmagnitude, hk] at hne heq
      rw [hdistance, hdistance] at heq
      refine heven ((h.count_nearest k).2 ?_ (mul_right_cancel₀ hunit.ne' heq))
      rintro rfl
      exact hne rfl
    · exact absurd heq (hbetween hbelow).ne'

/-- **The bits are too many from halfway between the greatest number and the next power of two
on.** Halfway itself is rounded up, since the greatest mantissa is odd. -/
theorem overflow_iff (h : Placed q e m) :
    ¬ (e + 149).toNat * 0x800000 + m < 0x7F800000 ↔ 2 ^ 128 - 2 ^ 103 ≤ q := by
  have hle := h.le
  have hnormal := h.normal
  have hge := h.exponent_ge
  constructor
  · intro hbits
    rcases lt_trichotomy e 104 with he | rfl | he
    · omega
    · have hm : (16777216 : ℚ) ≤ m := by exact_mod_cast (by omega : 16777216 ≤ m)
      have hlow := h.low
      rw [le_div_iff₀ (by positivity)] at hlow
      calc (2 : ℚ) ^ 128 - 2 ^ 103 = (16777216 - 1 / 2) * 2 ^ (104 : ℤ) := by norm_num
        _ ≤ (m - 1 / 2) * 2 ^ (104 : ℤ) :=
            mul_le_mul_of_nonneg_right (by linarith) (by positivity)
        _ ≤ q := hlow
    · calc (2 : ℚ) ^ 128 - 2 ^ 103 ≤ 2 ^ (128 : ℤ) := by norm_num
        _ ≤ 2 ^ (e + 23) := zpow_le_zpow_right₀ one_le_two (by omega)
        _ ≤ q := h.lower.resolve_left (by omega)
  · intro hq hbits
    have he : 104 ≤ e := by
      have hpow : (2 : ℚ) ^ (127 : ℤ) < 2 ^ (e + 24) :=
        calc (2 : ℚ) ^ (127 : ℤ) < 2 ^ 128 - 2 ^ 103 := by norm_num
          _ ≤ q := hq
          _ < 2 ^ (e + 24) := h.upper
      have := (zpow_lt_zpow_iff_right₀ (one_lt_two : (1 : ℚ) < 2)).1 hpow
      omega
    obtain rfl : e = 104 := by omega
    have hcount : (16777215 : ℚ) + 1 / 2 ≤ q / 2 ^ (104 : ℤ) := by
      rw [le_div_iff₀ (by positivity)]
      calc ((16777215 : ℚ) + 1 / 2) * 2 ^ (104 : ℤ) = 2 ^ 128 - 2 ^ 103 := by norm_num
        _ ≤ q := hq
    have hhigh := h.high
    obtain rfl : m = 16777215 := by
      have hm : (16777215 : ℚ) ≤ m := by linarith
      have hm' : 16777215 ≤ m := by exact_mod_cast hm
      omega
    have := h.even (Or.inr (by push_cast at hhigh ⊢; linarith))
    omega

end Placed

/-! ### Quotients -/

/-- **There is no number for a quotient exactly if it has come halfway to `2 ^ 128`.** -/
theorem ofRatio?_eq_none_iff {num den : Nat} (hd : den ≠ 0) :
    ofRatio? num den = none ↔ (2 : ℚ) ^ 128 - 2 ^ 103 ≤ num / den := by
  by_cases hn : num = 0
  · rw [ofRatio?, if_pos hn, hn, Nat.cast_zero, zero_div]
    exact iff_of_false (Option.some_ne_none _) (by norm_num)
  · obtain ⟨e, m, hplaced, hround⟩ := exists_placed hn hd
    rw [hround, ← hplaced.overflow_iff]
    by_cases hb : (e + 149).toNat * 0x800000 + m < 0x7F800000
    · rw [if_pos hb]
      exact iff_of_false (Option.some_ne_none _) (not_not.2 hb)
    · rw [if_neg hb]
      exact iff_of_true rfl hb

/-- **A quotient is rounded to the nearest number.** -/
theorem isRounded_of_ofRatio? {num den : Nat} (hd : den ≠ 0) {x : Single}
    (h : ofRatio? num den = some x) : IsRounded x (num / den) := by
  by_cases hn : num = 0
  · rw [ofRatio?, if_pos hn] at h
    obtain rfl := Option.some.inj h
    have hzero : zero.magnitude = 0 := by
      have hmantissa : zero.mantissa = 0 := rfl
      rw [magnitude, hmantissa, Nat.cast_zero, zero_mul]
    rw [hn, Nat.cast_zero, zero_div]
    refine ⟨rfl, rfl, fun y _ => ?_, fun _ _ _ _ => rfl⟩
    rw [hzero, sub_zero, abs_zero]
    exact abs_nonneg _
  · obtain ⟨e, m, hplaced, hround⟩ := exists_placed hn hd
    rw [hround] at h
    split_ifs at h with hb
    rw [← Option.some.inj h]
    exact hplaced.isRounded hb

/-! ### Natural numbers in decimal -/

/-- A decimal with more than 40 digits before its point has no number. -/
theorem nearest?_eq_none_of_lt {d : Nat} (hd : d ≠ 0) {k : ℤ}
    (h : 40 < ((Nat.toDigits 10 d).length : ℤ) + k) : nearest? d k = none := by
  simp only [nearest?]
  rw [if_neg hd, if_pos h]

/-- With no more digits it is rounded as a quotient. -/
theorem nearest?_eq_ofRatio? {d k : Nat} (h : (Nat.toDigits 10 d).length + k ≤ 40) :
    nearest? d k = ofRatio? (d * 10 ^ k) 1 := by
  simp only [nearest?]
  split_ifs with hd hlarge hsmall
  · rw [hd, Nat.zero_mul]
    rfl
  · omega
  · omega
  · rfl

/-- A decimal with more than 40 digits before its point is out of range. -/
theorem overflow_le_of_lt {d k : Nat} (hd : d ≠ 0) (h : 40 < (Nat.toDigits 10 d).length + k) :
    2 ^ 128 - 2 ^ 103 ≤ d * 10 ^ k := by
  have hle : 10 ^ ((Nat.toDigits 10 d).length - 1) ≤ d := by
    obtain ⟨hge, -⟩ := toDigits_bounds hd
    have hpos : 0 < (Nat.toDigits 10 d).length := Nat.length_toDigits_pos
    have hcast : ((Nat.toDigits 10 d).length : ℤ) - 1
        = ((Nat.toDigits 10 d).length - 1 : Nat) := by omega
    rw [hcast, zpow_natCast] at hge
    exact_mod_cast hge
  calc 2 ^ 128 - 2 ^ 103 ≤ 10 ^ 40 := by norm_num
    _ ≤ 10 ^ ((Nat.toDigits 10 d).length - 1 + k) := Nat.pow_le_pow_right (by decide) (by omega)
    _ = 10 ^ ((Nat.toDigits 10 d).length - 1) * 10 ^ k := Nat.pow_add _ _ _
    _ ≤ d * 10 ^ k := Nat.mul_le_mul_right _ hle

/-- **There is no number for a natural number exactly if it has come halfway to `2 ^ 128`.** -/
theorem nearest?_eq_none_iff (d k : Nat) :
    nearest? d k = none ↔ 2 ^ 128 - 2 ^ 103 ≤ d * 10 ^ k := by
  by_cases hsize : (Nat.toDigits 10 d).length + k ≤ 40
  · have hcast : (2 : ℚ) ^ 128 - 2 ^ 103 = ((2 ^ 128 - 2 ^ 103 : Nat) : ℚ) := by norm_num
    rw [nearest?_eq_ofRatio? hsize, ofRatio?_eq_none_iff one_ne_zero, Nat.cast_one, div_one, hcast,
      Nat.cast_le]
  · by_cases hd : d = 0
    · rw [hd, Nat.zero_mul]
      simp [nearest?]
    · exact iff_of_true (nearest?_eq_none_of_lt hd (by omega)) (overflow_le_of_lt hd (by omega))

/-- **A natural number is rounded to the nearest number.** -/
theorem isRounded_of_nearest? {d k : Nat} {x : Single} (h : nearest? d k = some x) :
    IsRounded x ((d * 10 ^ k : Nat) : ℚ) := by
  by_cases hd : d = 0
  · have hx : zero = x := by simpa [nearest?, hd] using h
    have hzero := isRounded_of_ofRatio? one_ne_zero (rfl : ofRatio? 0 1 = some zero)
    rw [hd, Nat.zero_mul, ← hx]
    rwa [Nat.cast_one, div_one] at hzero
  · by_cases hsize : (Nat.toDigits 10 d).length + k ≤ 40
    · rw [nearest?_eq_ofRatio? hsize] at h
      have hrounded := isRounded_of_ofRatio? one_ne_zero h
      rwa [Nat.cast_one, div_one] at hrounded
    · rw [nearest?_eq_none_of_lt hd (by omega)] at h
      cases h

end IntLang.Single
