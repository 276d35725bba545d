import IntLang.Single.Shortest
import Mathlib.Algebra.Order.Field.Basic
import Mathlib.Algebra.Order.Field.Power
import Mathlib.Tactic.FieldSimp
import Mathlib.Tactic.Linarith
import Mathlib.Tactic.Ring

/-!
# What is rounded to a number

`interval x` says which numbers are nearer to `x` than to its neighbours, and whether those halfway
belong to it. Here this is said of exact quotients (`Interval.Contains`), and rounding is shown to
agree with it: every quotient in the interval of `x` is rounded to `x` (`ofRatio?_eq_some`).

Below a power of two the last binary place counts half as much. A quotient that lies there and
still belongs to the power of two is rounded in the finer unit, up to the next power, and the carry
leads back to the same bits.
-/

namespace IntLang.Single

/-! ### Quotients and powers -/

/-- A power with an integer exponent, as the program writes it: one of two factors is one. -/
theorem pow_toNat_div_pow_toNat (b : ℚ) (e : ℤ) :
    b ^ e.toNat / b ^ (-e).toNat = b ^ e := by
  rcases le_total 0 e with he | he
  · obtain ⟨n, rfl⟩ := Int.eq_ofNat_of_zero_le he
    simp
  · obtain ⟨n, hn⟩ := Int.eq_ofNat_of_zero_le (Int.neg_nonneg_of_nonpos he)
    obtain rfl : e = -(n : ℤ) := by omega
    simp

/-- Scaling by a power of two multiplies the quotient. -/
theorem scaleByPow2_spec (num : Nat) {den : Nat} (hd : 0 < den) (e : ℤ) :
    0 < (scaleByPow2 num den e).2 ∧
    ((scaleByPow2 num den e).1 : ℚ) / (scaleByPow2 num den e).2 = num / den * 2 ^ e := by
  cases e with
  | ofNat k =>
      refine ⟨hd, ?_⟩
      show ((num * 2 ^ k : Nat) : ℚ) / den = num / den * 2 ^ (k : ℤ)
      push_cast
      rw [zpow_natCast]
      ring
  | negSucc k =>
      refine ⟨Nat.mul_pos hd (Nat.two_pow_pos _), ?_⟩
      show (num : ℚ) / ((den * 2 ^ (k + 1) : Nat) : ℚ) = num / den * 2 ^ (Int.negSucc k)
      push_cast
      rw [zpow_negSucc]
      field_simp

/-- A number lies between the powers of two of its logarithm. -/
theorem log2_bounds {n : Nat} (hn : n ≠ 0) :
    (2 : ℚ) ^ (n.log2 : ℤ) ≤ n ∧ (n : ℚ) < 2 ^ ((n.log2 : ℤ) + 1) := by
  constructor
  · rw [zpow_natCast]
    exact_mod_cast Nat.log2_self_le hn
  · rw [← Nat.cast_succ, zpow_natCast]
    exact_mod_cast Nat.lt_log2_self

/-- **The greatest power of two below a quotient.** -/
theorem floorLog2_spec {num den : Nat} (hn : num ≠ 0) (hd : den ≠ 0) :
    (2 : ℚ) ^ floorLog2 num den ≤ num / den ∧
    (num : ℚ) / den < 2 ^ (floorLog2 num den + 1) := by
  have hden : (0 : ℚ) < den := by positivity
  obtain ⟨hnlo, hnhi⟩ := log2_bounds hn
  obtain ⟨hdlo, hdhi⟩ := log2_bounds hd
  have hscale := scaleByPow2_spec num (Nat.pos_of_ne_zero hd)
    (-((num.log2 : ℤ) - den.log2))
  rw [floorLog2]
  generalize (num.log2 : ℤ) = a at *
  generalize (den.log2 : ℤ) = b at *
  -- The logarithms leave two powers to choose from.
  have hlo : (2 : ℚ) ^ (a - b - 1) ≤ num / den := by
    rw [le_div_iff₀ hden]
    calc (2 : ℚ) ^ (a - b - 1) * den ≤ 2 ^ (a - b - 1) * 2 ^ (b + 1) :=
          mul_le_mul_of_nonneg_left hdhi.le (by positivity)
      _ = 2 ^ a := by
          rw [← zpow_add₀ (by norm_num)]
          congr 1
          ring
      _ ≤ num := hnlo
  have hhi : (num : ℚ) / den < 2 ^ (a - b + 1) := by
    rw [div_lt_iff₀ hden]
    calc (num : ℚ) < 2 ^ (a + 1) := hnhi
      _ = 2 ^ (a - b + 1) * 2 ^ b := by
          rw [← zpow_add₀ (by norm_num)]
          congr 1
          ring
      _ ≤ 2 ^ (a - b + 1) * den := mul_le_mul_of_nonneg_left hdlo (by positivity)
  generalize scaleByPow2 num den (-(a - b)) = scaled at hscale ⊢
  obtain ⟨n, d⟩ := scaled
  obtain ⟨hpos, hquot⟩ := hscale
  have hd' : (0 : ℚ) < d := by exact_mod_cast hpos
  have hiff : n < d ↔ (num : ℚ) / den < 2 ^ (a - b) := by
    rw [← Nat.cast_lt (α := ℚ), ← div_lt_one hd', hquot, zpow_neg, ← div_eq_mul_inv,
      div_lt_one (by positivity)]
  dsimp only
  split_ifs with h
  · rw [sub_add_cancel]
    exact ⟨hlo, hiff.1 h⟩
  · exact ⟨not_lt.1 (mt hiff.2 h), hhi⟩

/-- The power of two tells which powers a quotient is below. -/
theorem floorLog2_lt_iff {num den : Nat} (hn : num ≠ 0) (hd : den ≠ 0) {k : ℤ} :
    floorLog2 num den < k ↔ (num : ℚ) / den < 2 ^ k := by
  obtain ⟨hlo, hhi⟩ := floorLog2_spec hn hd
  constructor
  · intro h
    exact lt_of_lt_of_le hhi (zpow_le_zpow_right₀ one_le_two h)
  · intro h
    exact (zpow_lt_zpow_iff_right₀ (one_lt_two : (1 : ℚ) < 2)).1 (lt_of_le_of_lt hlo h)

/-- A multiple is not rounded. -/
theorem roundHalfEven_mul (n : Nat) {den : Nat} (h : 0 < den) :
    roundHalfEven (n * den) den = n := by
  simp only [roundHalfEven, Nat.mul_mod_left, Nat.mul_div_cancel n h]
  rw [if_pos (by omega)]

/-- Rounding moves a quotient by at most a half, and by a half only to an even number. -/
theorem roundHalfEven_spec (n : Nat) {d : Nat} (hd : 0 < d) :
    (roundHalfEven n d : ℚ) - 1 / 2 ≤ n / d ∧ (n : ℚ) / d ≤ roundHalfEven n d + 1 / 2 ∧
    ((roundHalfEven n d : ℚ) - 1 / 2 = n / d ∨ (n : ℚ) / d = roundHalfEven n d + 1 / 2 →
      roundHalfEven n d % 2 = 0) := by
  have hd' : (0 : ℚ) < d := by exact_mod_cast hd
  have hn : (n : ℚ) / d = (n / d : Nat) + ((n % d : Nat) : ℚ) / d := by
    have hsum : (d : ℚ) * (n / d : Nat) + (n % d : Nat) = n := by
      exact_mod_cast Nat.div_add_mod n d
    rw [← hsum, add_div, mul_div_cancel_left₀ _ hd'.ne']
  have hlt : 2 * (n % d) < d ↔ ((n % d : Nat) : ℚ) / d < 1 / 2 := by
    rw [div_lt_iff₀ hd', ← Nat.cast_lt (α := ℚ)]
    push_cast
    constructor <;> intro h <;> linarith
  have hgt : d < 2 * (n % d) ↔ 1 / 2 < ((n % d : Nat) : ℚ) / d := by
    rw [lt_div_iff₀ hd', ← Nat.cast_lt (α := ℚ)]
    push_cast
    constructor <;> intro h <;> linarith
  have hnonneg : (0 : ℚ) ≤ ((n % d : Nat) : ℚ) / d := by positivity
  have hone : ((n % d : Nat) : ℚ) / d < 1 := by
    rw [div_lt_one hd']
    exact_mod_cast Nat.mod_lt n hd
  simp only [roundHalfEven, hlt, hgt]
  rw [hn]
  generalize ((n % d : Nat) : ℚ) / d = rest at *
  split_ifs with h1 h2 h3
  · exact ⟨by linarith, by linarith, by rintro (h | h) <;> linarith⟩
  · push_cast
    exact ⟨by linarith, by linarith, by rintro (h | h) <;> linarith⟩
  · exact ⟨by linarith, by linarith, fun _ => h3⟩
  · push_cast
    exact ⟨by linarith, by linarith, fun _ => by omega⟩

/-- Rounding takes the natural number that is at most half away, and of two such the even one. -/
theorem roundHalfEven_eq {n d m : Nat} (hd : 0 < d) (hlo : (m : ℚ) - 1 / 2 ≤ n / d)
    (hhi : (n : ℚ) / d ≤ m + 1 / 2)
    (heven : (m : ℚ) - 1 / 2 = n / d ∨ (n : ℚ) / d = m + 1 / 2 → m % 2 = 0) :
    roundHalfEven n d = m := by
  obtain ⟨hlow, hhigh, heven'⟩ := roundHalfEven_spec n hd
  generalize roundHalfEven n d = r at *
  -- Of two neighbours that are both at most half away, both would be even.
  rcases lt_trichotomy r m with h | h | h
  · have h' : (r : ℚ) + 1 ≤ m := by exact_mod_cast h
    have hr := heven' (Or.inr (by linarith))
    have hm := heven (Or.inl (by linarith))
    have hle : (m : ℚ) ≤ (r + 1 : Nat) := by
      push_cast
      linarith
    have hle' : m ≤ r + 1 := by exact_mod_cast hle
    omega
  · exact h
  · have h' : (m : ℚ) + 1 ≤ r := by exact_mod_cast h
    have hr := heven' (Or.inl (by linarith))
    have hm := heven (Or.inr (by linarith))
    have hle : (r : ℚ) ≤ (m + 1 : Nat) := by
      push_cast
      linarith
    have hle' : r ≤ m + 1 := by exact_mod_cast hle
    omega

/-! ### The fields of a number -/

/-- What the fields of a finite number are: below the least exponent the leading bit of the mantissa
is missing, and elsewhere it is there. The bits without the sign are made of the two. -/
structure Fields (x : Single) : Prop where
  /-- There is a least exponent. -/
  exponent_ge : -149 ≤ x.exponent
  /-- There is a greatest one. -/
  exponent_le : x.exponent ≤ 104
  /-- The mantissa has 24 bits. -/
  mantissa_lt : x.mantissa < 0x1000000
  /-- Its leading bit may be missing only at the least exponent. -/
  normal : x.exponent = -149 ∨ 0x800000 ≤ x.mantissa
  /-- The bits without the sign. -/
  bits : x.bits.toNat % 0x80000000 = (x.exponent + 149).toNat * 0x800000 + x.mantissa

/-- The fields of a number that is not special. -/
theorem fields_of_isSpecial {x : Single} (hx : x.isSpecial = false) : Fields x := by
  have hfield : x.exponentField ≠ 255 := by simpa [isSpecial] using hx
  have hfield' : x.exponentField = x.bits.toNat / 0x800000 % 256 := rfl
  have hfraction : x.fraction = x.bits.toNat % 0x800000 := rfl
  have hbits := x.bits.toNat_lt
  by_cases h0 : x.exponentField = 0
  · have he : x.exponent = -149 := by rw [exponent, if_pos h0]
    have hm : x.mantissa = x.fraction := by rw [mantissa, if_pos h0]
    constructor <;> omega
  · have he : x.exponent = (x.exponentField : Int) - 150 := by rw [exponent, if_neg h0]
    have hm : x.mantissa = 0x800000 + x.fraction := by rw [mantissa, if_neg h0]
    constructor <;> omega

/-! ### Intervals -/

/-- Whether a quotient lies in an interval. -/
def Interval.Contains (i : Interval) (q : ℚ) : Prop :=
  if i.closed then i.low ≤ q / 2 ^ i.exponent ∧ q / 2 ^ i.exponent ≤ i.high
  else i.low < q / 2 ^ i.exponent ∧ q / 2 ^ i.exponent < i.high

/-- What lies in an interval lies between its ends. -/
theorem Interval.Contains.bounds {i : Interval} {q : ℚ} (h : i.Contains q) :
    i.low ≤ q / 2 ^ i.exponent ∧ q / 2 ^ i.exponent ≤ i.high := by
  rw [Contains] at h
  split_ifs at h
  · exact h
  · exact ⟨h.1.le, h.2.le⟩

/-- What lies in an interval without its ends is none of them. -/
theorem Interval.Contains.closed_of_eq {i : Interval} {q : ℚ} (h : i.Contains q)
    (he : q / 2 ^ i.exponent = i.low ∨ q / 2 ^ i.exponent = i.high) : i.closed = true := by
  by_contra hc
  rw [Contains, if_neg hc] at h
  rcases he with he | he
  · exact h.1.ne' he
  · exact h.2.ne he

/-- Intervals count in quarters of the last binary place. -/
theorem div_interval_unit (x : Single) (q : ℚ) :
    q / 2 ^ (interval x).exponent = 4 * (q / 2 ^ x.exponent) := by
  have hexp : (interval x).exponent = x.exponent - 2 := rfl
  rw [hexp, zpow_sub₀ (by norm_num)]
  field_simp
  norm_num

/-- The lower end of the interval of a number: it is nearer below a power of two, unless the next
number down has the same exponent. -/
theorem low_interval (x : Single) :
    (interval x).low
      = if x.mantissa = 0x800000 ∧ x.exponent ≠ -149 then 4 * x.mantissa - 1
        else 4 * x.mantissa - 2 := by
  have hiff : (decide (x.fraction = 0) && decide (1 < x.exponentField)) = true ↔
      x.mantissa = 0x800000 ∧ x.exponent ≠ -149 := by
    have hfraction : x.fraction = x.bits.toNat % 0x800000 := rfl
    rw [Bool.and_eq_true, decide_eq_true_eq, decide_eq_true_eq]
    by_cases h0 : x.exponentField = 0
    · have he : x.exponent = -149 := by rw [exponent, if_pos h0]
      omega
    · have he : x.exponent = (x.exponentField : Int) - 150 := by rw [exponent, if_neg h0]
      have hm : x.mantissa = 0x800000 + x.fraction := by rw [mantissa, if_neg h0]
      omega
  simp only [interval, hiff]

/-- A quotient in the interval of a number, counted in its last binary place: it is at most half a
place away, and half a place only from an even mantissa. Below a power of two it is at most a
quarter of a place away. -/
theorem Interval.Contains.places {x : Single} (hm : x.mantissa ≠ 0) {q : ℚ}
    (h : (interval x).Contains q) :
    (x.mantissa : ℚ) - 1 / 2 ≤ q / 2 ^ x.exponent ∧
    q / 2 ^ x.exponent ≤ x.mantissa + 1 / 2 ∧
    ((x.mantissa : ℚ) - 1 / 2 = q / 2 ^ x.exponent ∨ q / 2 ^ x.exponent = x.mantissa + 1 / 2 →
      x.mantissa % 2 = 0) ∧
    (x.mantissa = 0x800000 → x.exponent ≠ -149 →
      (x.mantissa : ℚ) - 1 / 4 ≤ q / 2 ^ x.exponent) := by
  have hhigh : (((interval x).high : Nat) : ℚ) = 4 * x.mantissa + 2 := by
    have : (interval x).high = 4 * x.mantissa + 2 := rfl
    rw [this]
    push_cast
    ring
  have hclosed : (interval x).closed = true → x.mantissa % 2 = 0 := by
    simp [interval]
  obtain ⟨hlo, hhi⟩ := h.bounds
  have hends := h.closed_of_eq
  rw [div_interval_unit] at hlo hhi hends
  rw [hhigh] at hhi hends
  rw [low_interval] at hlo hends
  split_ifs at hlo hends with hp
  · have hcast : ((4 * x.mantissa - 1 : Nat) : ℚ) = 4 * x.mantissa - 1 := by
      rw [Nat.cast_sub (by omega)]
      push_cast
      ring
    rw [hcast] at hlo hends
    refine ⟨by linarith, by linarith, ?_, fun _ _ => by linarith⟩
    rintro (he | he)
    · linarith
    · exact hclosed (hends (Or.inr (by linarith)))
  · have hcast : ((4 * x.mantissa - 2 : Nat) : ℚ) = 4 * x.mantissa - 2 := by
      rw [Nat.cast_sub (by omega)]
      push_cast
      ring
    rw [hcast] at hlo hends
    refine ⟨by linarith, by linarith, ?_, fun h1 h2 => absurd ⟨h1, h2⟩ hp⟩
    rintro (he | he)
    · exact hclosed (hends (Or.inl (by linarith)))
    · exact hclosed (hends (Or.inr (by linarith)))

/-! ### Rounding -/

/-- Rounding, once the exponent is known and what the quotient comes to in its unit. -/
theorem ofRatio?_of_exponent {x : Single} (hneg : x.isNegative = false) (hx : x.isSpecial = false)
    {num den : Nat} (hn : num ≠ 0) (hd : den ≠ 0) {e : ℤ} {m : Nat}
    (he : max (-149) (floorLog2 num den - 23) = e)
    (hbits : (e + 149).toNat * 0x800000 + m = (x.exponent + 149).toNat * 0x800000 + x.mantissa)
    (hlo : (m : ℚ) - 1 / 2 ≤ num / den / 2 ^ e) (hhi : (num : ℚ) / den / 2 ^ e ≤ m + 1 / 2)
    (heven : (m : ℚ) - 1 / 2 = num / den / 2 ^ e ∨ (num : ℚ) / den / 2 ^ e = m + 1 / 2 →
      m % 2 = 0) :
    ofRatio? num den = some x := by
  have hf := fields_of_isSpecial hx
  obtain ⟨hpos, hscale⟩ := scaleByPow2_spec num (Nat.pos_of_ne_zero hd) (-e)
  rw [zpow_neg, ← div_eq_mul_inv] at hscale
  rw [← hscale] at hlo hhi heven
  have hround := roundHalfEven_eq hpos hlo hhi heven
  have hsign : x.bits.toNat < 0x80000000 := by
    have := x.bits.toNat_lt
    simp only [isNegative, beq_eq_false_iff_ne] at hneg
    omega
  have hall : (e + 149).toNat * 0x800000 + m = x.bits.toNat := by
    have := hf.bits
    omega
  have hfinite : (e + 149).toNat * 0x800000 + m < 0x7F800000 := by
    have := hf.exponent_le
    have := hf.exponent_ge
    have := hf.mantissa_lt
    omega
  rw [ofRatio?, if_neg hn]
  dsimp only
  rw [he, hround, if_pos hfinite, hall, UInt32.ofNat_toNat]

/-- **What lies in the interval of a number is rounded to it.** -/
theorem ofRatio?_eq_some {x : Single} (hneg : x.isNegative = false) (hx : x.isSpecial = false)
    (hm : x.mantissa ≠ 0) {num den : Nat} (hd : den ≠ 0)
    (h : (interval x).Contains (num / den)) : ofRatio? num den = some x := by
  have hf := fields_of_isSpecial hx
  have hge := hf.exponent_ge
  obtain ⟨hlo, hhi, heven, hpower⟩ := h.places hm
  have hunit : (0 : ℚ) < 2 ^ x.exponent := by positivity
  have hm1 : (1 : ℚ) ≤ x.mantissa := by exact_mod_cast Nat.one_le_iff_ne_zero.2 hm
  have hm24 : (x.mantissa : ℚ) + 1 ≤ 16777216 := by exact_mod_cast hf.mantissa_lt
  have hn : num ≠ 0 := by
    rintro rfl
    rw [Nat.cast_zero, zero_div, zero_div] at hlo
    linarith
  -- Powers of two, counted in the last place of the number.
  have hlog (k : ℤ) :
      floorLog2 num den < x.exponent + k ↔ (num : ℚ) / den / 2 ^ x.exponent < 2 ^ k := by
    rw [floorLog2_lt_iff hn hd, zpow_add₀ (by norm_num), div_lt_iff₀' hunit]
  have h22 := hlog 22
  have h23 := hlog 23
  have h24 := hlog 24
  norm_num at h22 h23 h24
  have hbelow : floorLog2 num den < x.exponent + 24 := h24.2 (by linarith)
  rcases le_or_gt (8388608 : ℚ) (num / den / 2 ^ x.exponent) with hbig | hsmall
  · -- The quotient has as many places as the mantissa.
    have habove := mt h23.1 (not_lt.2 hbig)
    exact ofRatio?_of_exponent hneg hx hn hd (by omega) rfl hlo hhi heven
  · by_cases hleast : x.exponent = -149
    · exact ofRatio?_of_exponent hneg hx hn hd (by omega) rfl hlo hhi heven
    · -- It lies below a power of two, and is rounded up to it in half of the unit.
      have hmantissa : x.mantissa = 0x800000 := by
        have hle := hf.normal.resolve_left hleast
        have hlt : (x.mantissa : ℚ) < 8388609 := by linarith
        have hlt' : x.mantissa < 8388609 := by exact_mod_cast hlt
        omega
      have hquarter := hpower hmantissa hleast
      rw [hmantissa] at hquarter
      push_cast at hquarter
      have habove := mt h22.1 (not_lt.2 (by linarith))
      have hbelow := h23.2 hsmall
      have hhalf : (num : ℚ) / den / 2 ^ (x.exponent - 1)
          = 2 * (num / den / 2 ^ x.exponent) := by
        rw [zpow_sub₀ (by norm_num)]
        field_simp
      refine ofRatio?_of_exponent hneg hx hn hd (e := x.exponent - 1) (m := 0x1000000)
        (by omega) (by omega) ?_ ?_ fun _ => by decide
      · rw [hhalf]
        push_cast
        linarith
      · rw [hhalf]
        push_cast
        linarith

end IntLang.Single
