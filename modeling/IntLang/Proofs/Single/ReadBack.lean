import IntLang.Proofs.Single.Shortest
import IntLang.Proofs.Text.Decimal
import IntLang.Single.Numeral
import Mathlib.Data.List.TakeWhile

/-!
# Numbers are read back

A finite number is written as the shortest decimal in its interval, and whatever lies in the
interval is rounded to the number. So its text is read back as the same number, bit for bit
(`ofText?_text`), however large or small it is: neither the early answers of `nearest?` nor the
limit on the length of a numeral is in the way.

A number without a fraction is written as a natural number (`text_eq_signed_ofNat`), and so its text
can be taken for an integer. The natural number is not always the number itself, but it lies on the
same side of `2 ^ 31`, where the integers of 32 bits end.
-/

namespace IntLang.Single

variable {x : Single}

/-! ### Decimals of a known size -/

/-- What lies in the interval of a number is not much smaller than the least number, and not much
larger than the greatest one. -/
theorem Interval.Contains.size_bounds (hx : x.isSpecial = false) (hm : x.mantissa ≠ 0) {q : ℚ}
    (h : (interval x).Contains q) : (10 : ℚ) ^ (-46 : ℤ) ≤ q ∧ q < 10 ^ (39 : ℤ) := by
  have hf := fields_of_isSpecial hx
  obtain ⟨hlo, hhi, -⟩ := h.places hm
  have hm1 : (1 : ℚ) ≤ x.mantissa := by exact_mod_cast Nat.one_le_iff_ne_zero.2 hm
  have hm24 : (x.mantissa : ℚ) + 1 ≤ 16777216 := by exact_mod_cast hf.mantissa_lt
  constructor
  · calc (10 : ℚ) ^ (-46 : ℤ) ≤ 1 / 2 * 2 ^ (-149 : ℤ) := by norm_num
      _ ≤ 1 / 2 * 2 ^ x.exponent :=
          mul_le_mul_of_nonneg_left (zpow_le_zpow_right₀ one_le_two hf.exponent_ge) (by norm_num)
      _ ≤ q := by
          rw [← le_div_iff₀ (by positivity)]
          linarith
  · calc q ≤ 16777216 * 2 ^ x.exponent := by
          rw [← div_le_iff₀ (by positivity)]
          linarith
      _ ≤ 16777216 * 2 ^ (104 : ℤ) :=
          mul_le_mul_of_nonneg_left (zpow_le_zpow_right₀ one_le_two hf.exponent_le) (by norm_num)
      _ < 10 ^ (39 : ℤ) := by norm_num

/-- The number of digits of a number tells its size. -/
theorem toDigits_bounds {n : Nat} (hn : n ≠ 0) :
    (10 : ℚ) ^ (((Nat.toDigits 10 n).length : ℤ) - 1) ≤ n ∧
      (n : ℚ) < 10 ^ ((Nat.toDigits 10 n).length : ℤ) := by
  have hpos : 0 < (Nat.toDigits 10 n).length := Nat.length_toDigits_pos
  constructor
  · obtain ⟨l, hl⟩ : ∃ l, (Nat.toDigits 10 n).length = l + 1 := ⟨_, (Nat.succ_pred hpos.ne').symm⟩
    have hle : 10 ^ l ≤ n := by
      rcases Nat.eq_zero_or_pos l with rfl | hl0
      · rw [Nat.pow_zero]
        omega
      · rw [← Nat.not_lt, ← Nat.length_toDigits_le_iff (by decide) hl0, hl]
        omega
    rw [hl, Nat.cast_succ, add_sub_cancel_right, zpow_natCast]
    exact_mod_cast hle
  · rw [zpow_natCast]
    exact_mod_cast (Nat.length_toDigits_le_iff (by decide) hpos).1 le_rfl

/-- The number of digits of a decimal and its power of ten tell its size. -/
theorem length_toDigits_add_bounds {d : Nat} {k lo hi : ℤ} (hlo : (10 : ℚ) ^ lo ≤ d * 10 ^ k)
    (hhi : (d : ℚ) * 10 ^ k < 10 ^ hi) :
    lo < (Nat.toDigits 10 d).length + k ∧ (Nat.toDigits 10 d).length + k ≤ hi := by
  have hd : d ≠ 0 := by
    rintro rfl
    have : (0 : ℚ) < 10 ^ lo := by positivity
    rw [Nat.cast_zero, zero_mul] at hlo
    linarith
  obtain ⟨hge, hlt⟩ := toDigits_bounds hd
  generalize ((Nat.toDigits 10 d).length : ℤ) = l at *
  have hten : (1 : ℚ) < 10 := by norm_num
  constructor
  · rw [← zpow_lt_zpow_iff_right₀ hten, zpow_add₀ (by norm_num)]
    exact lt_of_le_of_lt hlo (mul_lt_mul_of_pos_right hlt (by positivity))
  · have : l - 1 + k < hi := by
      rw [← zpow_lt_zpow_iff_right₀ hten, zpow_add₀ (by norm_num)]
      exact lt_of_le_of_lt (mul_le_mul_of_nonneg_right hge (by positivity)) hhi
    omega

/-- **A decimal in the interval of a number is read as the number.** -/
theorem nearest?_eq_some (hneg : x.isNegative = false) (hx : x.isSpecial = false)
    (hm : x.mantissa ≠ 0) {d : Nat} {k : ℤ} (h : (interval x).Contains (d * 10 ^ k)) :
    nearest? d k = some x := by
  obtain ⟨hlo, hhi⟩ := h.size_bounds hx hm
  obtain ⟨hmin, hmax⟩ := length_toDigits_add_bounds hlo hhi
  have hd : d ≠ 0 := by
    rintro rfl
    rw [Nat.cast_zero, zero_mul] at hlo
    norm_num at hlo
  simp only [nearest?]
  rw [if_neg hd, if_neg (by omega), if_neg (by omega)]
  cases k with
  | ofNat k =>
      refine ofRatio?_eq_some hneg hx hm one_ne_zero ?_
      show (interval x).Contains (((d * 10 ^ k : Nat) : ℚ) / (1 : Nat))
      rwa [Nat.cast_one, div_one, Nat.cast_mul, Nat.cast_pow, ← zpow_natCast]
  | negSucc k =>
      refine ofRatio?_eq_some hneg hx hm (Nat.pow_pos (by decide)).ne' ?_
      show (interval x).Contains ((d : ℚ) / ((10 ^ (k + 1) : Nat) : ℚ))
      rwa [Nat.cast_pow, div_eq_mul_inv, ← zpow_negSucc]

/-! ### Numbers without their signs -/

/-- The number without its sign. -/
def unsigned (x : Single) : Single := ⟨.ofNat (x.bits.toNat % 0x80000000)⟩

theorem toNat_bits_unsigned (x : Single) : x.unsigned.bits.toNat = x.bits.toNat % 0x80000000 := by
  show (UInt32.ofNat _).toNat = _
  rw [UInt32.toNat_ofNat']
  omega

theorem isNegative_unsigned (x : Single) : x.unsigned.isNegative = false := by
  simp only [isNegative, toNat_bits_unsigned, beq_eq_false_iff_ne]
  omega

theorem exponentField_unsigned (x : Single) : x.unsigned.exponentField = x.exponentField := by
  simp only [exponentField, toNat_bits_unsigned]
  omega

theorem fraction_unsigned (x : Single) : x.unsigned.fraction = x.fraction := by
  simp only [fraction, toNat_bits_unsigned]
  omega

theorem isSpecial_unsigned (x : Single) : x.unsigned.isSpecial = x.isSpecial := by
  rw [isSpecial, isSpecial, exponentField_unsigned]

theorem mantissa_unsigned (x : Single) : x.unsigned.mantissa = x.mantissa := by
  rw [mantissa, mantissa, exponentField_unsigned, fraction_unsigned]

theorem interval_unsigned (x : Single) : interval x.unsigned = interval x := by
  simp only [interval, exponent, mantissa_unsigned, exponentField_unsigned, fraction_unsigned]

/-- A sign in front of bits without one. -/
theorem toNat_bits_withSign (negative : Bool) (h : x.bits.toNat < 0x80000000) :
    (withSign negative x).bits.toNat = negative.toNat * 0x80000000 + x.bits.toNat := by
  cases negative with
  | false =>
      show x.bits.toNat = _
      rw [Bool.toNat_false]
      omega
  | true =>
      have hor := Nat.two_pow_add_eq_or_of_lt (i := 31) h 1
      show (x.bits ||| 0x80000000).toNat = _
      rw [UInt32.toNat_or, Nat.or_comm]
      exact hor.symm

/-- A number is put together from its sign and the rest. -/
theorem withSign_unsigned (x : Single) : withSign x.isNegative x.unsigned = x := by
  have hlt := x.bits.toNat_lt
  suffices hbits : (withSign x.isNegative x.unsigned).bits.toNat = x.bits.toNat from
    congrArg Single.mk (UInt32.toNat_inj.1 hbits)
  rw [toNat_bits_withSign _ (by rw [toNat_bits_unsigned]; omega), toNat_bits_unsigned]
  cases hneg : x.isNegative with
  | true =>
      have hbit : x.bits.toNat / 0x80000000 = 1 := by simpa [isNegative] using hneg
      rw [Bool.toNat_true]
      omega
  | false =>
      have hbit : x.bits.toNat / 0x80000000 ≠ 1 := by simpa [isNegative] using hneg
      rw [Bool.toNat_false]
      omega

/-- What is rounded is finite. -/
theorem toNat_bits_lt_of_ofRatio? {num den : Nat} (h : ofRatio? num den = some x) :
    x.bits.toNat < 0x7F800000 := by
  simp only [ofRatio?] at h
  split_ifs at h with h0 hb
  · rw [← Option.some.inj h]
    decide
  · rw [← Option.some.inj h]
    show (UInt32.ofNat _).toNat < _
    rw [UInt32.toNat_ofNat']
    omega

theorem toNat_bits_lt_of_nearest? {d : Nat} {k : ℤ} (h : nearest? d k = some x) :
    x.bits.toNat < 0x7F800000 := by
  simp only [nearest?] at h
  split_ifs at h
  · rw [← Option.some.inj h]
    decide
  · rw [← Option.some.inj h]
    decide
  · split at h
    · exact toNat_bits_lt_of_ofRatio? h
    · exact toNat_bits_lt_of_ofRatio? h

/-- **What a text spells is finite.** -/
theorem isSpecial_of_ofText? {t : Text} (h : ofText? t = some x) : x.isSpecial = false := by
  obtain ⟨y, -, hy⟩ := Option.bind_eq_some_iff.1 h
  obtain ⟨z, hz, rfl⟩ := Option.map_eq_some_iff.1 hy
  have hbits := toNat_bits_lt_of_nearest? hz
  rw [isSpecial, exponentField, toNat_bits_withSign _ (by omega), beq_eq_false_iff_ne]
  cases y.negative with
  | true =>
      rw [Bool.toNat_true]
      omega
  | false =>
      rw [Bool.toNat_false]
      omega

/-! ### What is written -/

/-- The decimal that a finite number is written as, zero included. -/
def written (x : Single) : Nat × ℤ := if x.mantissa = 0 then (0, 0) else x.decimal

/-- A finite number is written as a decimal behind its sign. -/
theorem text_eq_signed (hx : x.isSpecial = false) :
    x.text = .signed x.isNegative (.ofChars (positional x.written.1 x.written.2)) := by
  rw [text, hx, written, Text.signed]
  simp only [Bool.false_eq_true, if_false]
  split_ifs <;> rfl

/-- The decimal is read as the number, whatever power of ten is put into its digits. -/
theorem nearest?_written (hx : x.isSpecial = false) {d : Nat} {k : ℤ}
    (h : (d : ℚ) * 10 ^ k = x.written.1 * 10 ^ x.written.2) : nearest? d k = some x.unsigned := by
  rw [written] at h
  split_ifs at h with hm
  · have hd : d = 0 := by
      have hpos : (0 : ℚ) < 10 ^ k := by positivity
      rw [Nat.cast_zero, zero_mul] at h
      exact_mod_cast (mul_eq_zero.1 h).resolve_right hpos.ne'
    have hf := fields_of_isSpecial hx
    have hbits := hf.bits
    have hzero : x.unsigned = zero := by
      refine congrArg Single.mk (UInt32.toNat_inj.1 ?_)
      have hleast := hf.normal
      show x.unsigned.bits.toNat = 0
      rw [toNat_bits_unsigned]
      omega
    simp only [nearest?]
    rw [if_pos hd, hzero]
  · refine nearest?_eq_some (isNegative_unsigned x) ((isSpecial_unsigned x).trans hx)
      ((mantissa_unsigned x).trans_ne hm) ?_
    rw [interval_unsigned, h]
    exact (contains_decimal hx hm).1

/-- The decimal has few digits before the point. -/
theorem length_toDigits_written_add_le (hx : x.isSpecial = false) :
    (Nat.toDigits 10 x.written.1).length + x.written.2 ≤ 39 := by
  rw [written]
  split_ifs with hm
  · decide
  · obtain ⟨hlo, hhi⟩ := (contains_decimal hx hm).1.size_bounds hx hm
    exact (length_toDigits_add_bounds hlo hhi).2

/-! ### Digits around a point -/

/-- Digits before a point and behind it; without any behind it, there is no point. -/
def pointed (ds fs : List Char) : List Char := if fs = [] then ds else ds ++ '.' :: fs

/-- The digits of a decimal, those before the point and those behind it. -/
structure Places (d : Nat) (k : ℤ) (ds fs : List Char) : Prop where
  /-- They are digits. -/
  isDigit : ∀ c ∈ ds ++ fs, c.isDigit = true
  /-- There is one before the point. -/
  ne_nil : ds ≠ []
  /-- There are no more before the point than the size of the decimal calls for. -/
  length_whole : ds.length ≤ 1 ∨ ds.length ≤ (Nat.toDigits 10 d).length + k
  /-- There are as many behind the point as the power of ten says. -/
  length_part : fs.length = (-k).toNat
  /-- Together they spell the digits of the decimal. -/
  value : Nat.ofDigitChars 10 (ds ++ fs) 0 = d * 10 ^ k.toNat

/-- **A decimal is written as its digits around a point.** -/
theorem positional_eq_pointed (d : Nat) (k : ℤ) :
    ∃ ds fs, positional d k = pointed ds fs ∧ Places d k ds fs := by
  have hdigit (n : Nat) : ∀ c ∈ List.replicate n '0', c.isDigit = true := by
    intro c hc
    rw [List.eq_of_mem_replicate hc]
    decide
  cases k with
  | ofNat zeros =>
      refine ⟨Nat.toDigits 10 d ++ List.replicate zeros '0', [], rfl, ?_, ?_, Or.inr ?_, ?_, ?_⟩
      · intro c hc
        rw [List.append_nil] at hc
        exact (List.mem_append.1 hc).elim Text.isDigit_of_mem_toDigits (hdigit zeros c)
      · exact List.append_ne_nil_of_left_ne_nil Nat.toDigits_ne_nil _
      · rw [List.length_append, List.length_replicate]
        rfl
      · show 0 = (-(zeros : ℤ)).toNat
        omega
      · rw [List.append_nil, Nat.ofDigitChars_append, Nat.ofDigitChars_replicate_zero,
          Nat.ofDigitChars_ten_toDigits, Nat.mul_comm]
        rfl
  | negSucc p =>
      -- The zeros in front make sure that a digit stands before the point.
      have hpadded : ∀ c ∈ List.replicate (p + 1 + 1 - (Nat.toDigits 10 d).length) '0'
          ++ Nat.toDigits 10 d, c.isDigit = true := by
        intro c hc
        exact (List.mem_append.1 hc).elim (hdigit _ c) Text.isDigit_of_mem_toDigits
      have hlength : (List.replicate (p + 1 + 1 - (Nat.toDigits 10 d).length) '0'
          ++ Nat.toDigits 10 d).length
          = p + 1 + 1 - (Nat.toDigits 10 d).length + (Nat.toDigits 10 d).length := by
        rw [List.length_append, List.length_replicate]
      have hvalue : Nat.ofDigitChars 10 (List.replicate (p + 1 + 1
          - (Nat.toDigits 10 d).length) '0' ++ Nat.toDigits 10 d) 0 = d := by
        rw [Nat.ofDigitChars_append, Nat.ofDigitChars_replicate_zero, Nat.mul_zero,
          Nat.ofDigitChars_ten_toDigits]
      simp only [positional]
      generalize List.replicate (p + 1 + 1 - (Nat.toDigits 10 d).length) '0'
        ++ Nat.toDigits 10 d = padded at *
      refine ⟨padded.take (padded.length - (p + 1)), padded.drop (padded.length - (p + 1)), ?_,
        ?_, ?_, ?_, ?_, ?_⟩
      · rw [pointed, if_neg]
        rw [List.drop_eq_nil_iff]
        omega
      · rw [List.take_append_drop]
        exact hpadded
      · rw [← List.length_pos_iff, List.length_take]
        omega
      · rw [List.length_take]
        omega
      · rw [List.length_drop]
        omega
      · rw [List.take_append_drop, hvalue]
        exact (Nat.mul_one d).symm

/-- Digits behind a sign are the digits of a numeral before its point, and what follows them is its
fraction and its exponent. -/
theorem numeral?_signed_append (negative : Bool) {ds rest : List UInt8} (hne : ds ≠ [])
    (hds : ds.all isDigitByte = true) (hstop : ∀ b ∈ rest.head?, isDigitByte b = false) :
    numeral? (.signed negative ⟨ds ++ rest⟩)
      = (exponent? (splitFraction rest).2).map fun exponent =>
          ⟨negative, ds.dropWhile isZeroByte, (splitFraction rest).1, exponent⟩ := by
  rw [List.all_eq_true] at hds
  have hhead : ∀ b ∈ (Text.mk (ds ++ rest)).bytes.head?, isDigitByte b = true := by
    intro b hb
    rw [List.head?_append_of_ne_nil _ hne] at hb
    exact hds b (List.mem_of_mem_head? hb)
  rw [numeral?, Text.splitSign_signed negative hhead]
  dsimp only
  rw [Text.span_append hds hstop]
  dsimp only
  rw [if_neg]
  rw [List.isEmpty_eq_false_iff.2 hne, Bool.false_and]
  decide

/-- Digits, a point and digits are a numeral. -/
theorem numeral?_pointed (negative : Bool) {ds fs : List Char}
    (h : ∀ c ∈ ds ++ fs, c.isDigit = true) (hne : ds ≠ []) :
    numeral? (.signed negative (.ofChars (pointed ds fs)))
      = some ⟨negative, (Text.ofChars ds).bytes.dropWhile isZeroByte, (Text.ofChars fs).bytes,
          0⟩ := by
  have hds := all_isDigitByte_ofChars fun c hc => h c (List.mem_append_left fs hc)
  have hfs := all_isDigitByte_ofChars fun c hc => h c (List.mem_append_right ds hc)
  rw [List.all_eq_true] at hfs
  -- Behind the digits there is nothing, or the point.
  obtain ⟨rest, hbytes, hstop, hsplit⟩ : ∃ rest,
      Text.ofChars (pointed ds fs) = ⟨(Text.ofChars ds).bytes ++ rest⟩ ∧
      (∀ b ∈ rest.head?, isDigitByte b = false) ∧
      splitFraction rest = ((Text.ofChars fs).bytes, []) := by
    rw [pointed]
    split_ifs with hnil
    · subst hnil
      exact ⟨[], Text.ext (List.append_nil _).symm, by simp, rfl⟩
    · refine ⟨0x2E :: (Text.ofChars fs).bytes, ?_, by simp; rfl, ?_⟩
      · rw [Text.ofChars_append]
        rfl
      · rw [splitFraction, List.span_eq_takeWhile_dropWhile, List.takeWhile_eq_self_iff.2 hfs,
          List.dropWhile_eq_nil_iff.2 hfs]
  have hne' : (Text.ofChars ds).bytes ≠ [] := by
    rw [← List.length_pos_iff, length_bytes_ofChars fun c hc => h c (List.mem_append_left fs hc),
      List.length_pos_iff]
    exact hne
  rw [hbytes, numeral?_signed_append negative hne' hds hstop, hsplit]
  rfl

/-- Zeros in front of digits count nothing. -/
theorem digitsValue_dropWhile_append (bs cs : List UInt8) :
    digitsValue (bs.dropWhile isZeroByte ++ cs) = digitsValue (bs ++ cs) := by
  induction bs with
  | nil => rfl
  | cons b bs ih =>
      by_cases hb : isZeroByte b = true
      · obtain rfl : b = 0x30 := by simpa [isZeroByte] using hb
        rw [List.dropWhile_cons_of_pos rfl, ih]
        rfl
      · rw [List.dropWhile_cons_of_neg hb]

/-- The value of a numeral that is not very long. -/
theorem Numeral.value?_of_length_le {y : Numeral} (h : y.whole.length ≤ longestWhole) :
    y.value? = (nearest? (digitsValue (y.whole ++ y.part)) y.scale).map (withSign y.negative) := by
  have hmoved : (if y.isSettled then 0 else (y.whole.drop longestWhole).length) = 0 := by
    rw [List.drop_of_length_le h]
    split_ifs <;> rfl
  have hdigits := digitsValue_dropWhile_append (y.whole ++ y.part) []
  rw [List.append_nil, List.append_nil] at hdigits
  rw [Numeral.value?, hmoved, Numeral.digits, hdigits]
  simp

/-! ### Reading back -/

/-- **A finite number is read back from its text.** -/
theorem ofText?_text (hx : x.isSpecial = false) : ofText? x.text = some x := by
  obtain ⟨ds, fs, hpos, hplaces⟩ := positional_eq_pointed x.written.1 x.written.2
  have hsize := length_toDigits_written_add_le hx
  have hdigit := hplaces.isDigit
  have hds := length_bytes_ofChars fun c hc => hdigit c (List.mem_append_left fs hc)
  have hfs := length_bytes_ofChars fun c hc => hdigit c (List.mem_append_right ds hc)
  have hshort : ((Text.ofChars ds).bytes.dropWhile isZeroByte).length ≤ longestWhole := by
    have hle := (List.dropWhile_suffix isZeroByte (l := (Text.ofChars ds).bytes)).length_le
    have hwhole := hplaces.length_whole
    rw [longestWhole]
    omega
  have hvalue : digitsValue ((Text.ofChars ds).bytes.dropWhile isZeroByte
      ++ (Text.ofChars fs).bytes) = x.written.1 * 10 ^ x.written.2.toNat := by
    rw [digitsValue_dropWhile_append, ← Text.bytes_append, ← Text.ofChars_append,
      digitsValue_ofChars hdigit, hplaces.value]
  have hscale : Numeral.scale ⟨x.isNegative, (Text.ofChars ds).bytes.dropWhile isZeroByte,
      (Text.ofChars fs).bytes, 0⟩ = -(((-x.written.2).toNat : Nat) : ℤ) := by
    show (0 : ℤ) - ((Text.ofChars fs).bytes.length : ℤ) = _
    rw [hfs, hplaces.length_part, zero_sub]
  rw [text_eq_signed hx, hpos, ofText?, numeral?_pointed _ hdigit hplaces.ne_nil, Option.bind_some,
    Numeral.value?_of_length_le hshort, hvalue, hscale, nearest?_written hx, Option.map_some,
    withSign_unsigned]
  rw [Nat.cast_mul, Nat.cast_pow, zpow_neg, zpow_natCast, mul_assoc, ← div_eq_mul_inv]
  exact congrArg _ (pow_toNat_div_pow_toNat 10 x.written.2)

/-! ### Numbers without a fraction -/

/-- A number is written with a point exactly if it has a fraction. -/
theorem written_nonneg_iff (hx : x.isSpecial = false) :
    0 ≤ x.written.2 ↔ ∃ n : Nat, x.magnitude = n := by
  rw [written]
  split_ifs with hm
  · refine iff_of_true le_rfl ⟨0, ?_⟩
    rw [magnitude, hm, Nat.cast_zero, zero_mul]
  · exact decimal_nonneg_iff hx hm

/-- Zeros behind the digits of a number multiply it. -/
theorem toDigits_mul_pow {d : Nat} (hd : d ≠ 0) (zeros : Nat) :
    Nat.toDigits 10 (d * 10 ^ zeros) = Nat.toDigits 10 d ++ List.replicate zeros '0' := by
  induction zeros with
  | zero => simp
  | succ zeros ih =>
      have hlast : Nat.toDigits 10 0 = ['0'] := by decide
      have happend := Nat.toDigits_append_toDigits (b := 10) (n := d * 10 ^ zeros) (d := 0)
        (by decide) (Nat.mul_pos (Nat.pos_of_ne_zero hd) (Nat.pow_pos (by decide))) (by decide)
      rw [List.replicate_succ', ← List.append_assoc, ← ih, ← hlast, happend]
      congr 1
      ring

/-- The natural number that a number without a fraction is written as. -/
def writtenNat (x : Single) : Nat := x.written.1 * 10 ^ x.written.2.toNat

theorem cast_writtenNat (hk : 0 ≤ x.written.2) :
    (x.writtenNat : ℚ) = x.written.1 * 10 ^ x.written.2 := by
  rw [writtenNat, Nat.cast_mul, Nat.cast_pow, ← zpow_natCast, Int.toNat_of_nonneg hk]
  rfl

/-- **A number without a fraction is written as a natural number behind its sign.** -/
theorem text_eq_signed_ofNat (hx : x.isSpecial = false) (hk : 0 ≤ x.written.2) :
    x.text = .signed x.isNegative (.ofNat x.writtenNat) := by
  obtain ⟨zeros, hz⟩ := Int.eq_ofNat_of_zero_le hk
  have hdigits : positional x.written.1 x.written.2 = Nat.toDigits 10 x.writtenNat := by
    rw [writtenNat, hz, Int.toNat_natCast]
    by_cases hd : x.written.1 = 0
    · -- Of a number other than zero, the decimal is not zero.
      have hwritten : x.written = (0, 0) := by
        rw [written] at hd ⊢
        split_ifs at hd ⊢ with hm
        · rfl
        · have hlo := ((contains_decimal hx hm).1.size_bounds hx hm).1
          rw [hd, Nat.cast_zero, zero_mul] at hlo
          norm_num at hlo
      rw [hwritten] at hz ⊢
      obtain rfl : 0 = zeros := Int.ofNat.inj hz
      rfl
    · rw [toDigits_mul_pow hd]
      rfl
  rw [text_eq_signed hx, hdigits, Text.ofNat]

/-- A number with a fraction is written with a point. -/
theorem point_mem_text (hx : x.isSpecial = false) (hk : x.written.2 < 0) :
    0x2E ∈ x.text.bytes := by
  obtain ⟨ds, fs, hpos, hplaces⟩ := positional_eq_pointed x.written.1 x.written.2
  have hfs : fs ≠ [] := by
    have := hplaces.length_part
    rw [← List.length_pos_iff]
    omega
  have hpoint : 0x2E ∈ (Text.ofChars ['.']).bytes := by decide
  rw [text_eq_signed hx, hpos, pointed, if_neg hfs, Text.signed, Text.bytes_append,
    Text.ofChars_append, ← List.singleton_append, Text.ofChars_append, Text.bytes_append,
    Text.bytes_append]
  exact List.mem_append_right _ (List.mem_append_right _ (List.mem_append_left _ hpoint))

/-! ### The end of the integers -/

/-- A number whose mantissa has its leading bit is at least that bit. -/
theorem two_zpow_le_magnitude (h : 0x800000 ≤ x.mantissa) :
    (2 : ℚ) ^ (23 + x.exponent) ≤ x.magnitude := by
  have hbit : (2 : ℚ) ^ (23 : ℤ) ≤ x.mantissa := by exact_mod_cast h
  rw [zpow_add₀ (by norm_num)]
  exact mul_le_mul_of_nonneg_right hbit (by positivity)

/-- Below `2 ^ 31` a decimal in the interval of a number is below, too. -/
theorem Interval.Contains.lt_of_magnitude_lt (hx : x.isSpecial = false) (hm : x.mantissa ≠ 0)
    {q : ℚ} (h : (interval x).Contains q) (hlt : x.magnitude < 2 ^ 31) : q < 2 ^ 31 := by
  have hf := fields_of_isSpecial hx
  obtain ⟨-, hhi, -⟩ := h.places hm
  have he : x.exponent ≤ 7 := by
    rcases hf.normal with he | hnormal
    · omega
    · have hpow : (2 : ℚ) ^ (23 + x.exponent) < 2 ^ (31 : ℤ) :=
        lt_of_le_of_lt (two_zpow_le_magnitude hnormal) hlt
      have := (zpow_lt_zpow_iff_right₀ (one_lt_two : (1 : ℚ) < 2)).1 hpow
      omega
  have hm24 : (x.mantissa : ℚ) + 1 ≤ 16777216 := by exact_mod_cast hf.mantissa_lt
  calc q ≤ (16777216 - 1 / 2) * 2 ^ x.exponent := by
        rw [← div_le_iff₀ (by positivity)]
        linarith
    _ ≤ (16777216 - 1 / 2) * 2 ^ (7 : ℤ) :=
        mul_le_mul_of_nonneg_left (zpow_le_zpow_right₀ one_le_two he) (by norm_num)
    _ < 2 ^ 31 := by norm_num

/-- The exponents of the numbers from `2 ^ 31` on. -/
theorem exponent_ge_of_le_magnitude (hx : x.isSpecial = false) (h : 2 ^ 31 ≤ x.magnitude) :
    8 ≤ x.exponent ∧ 0x800000 ≤ x.mantissa := by
  have hf := fields_of_isSpecial hx
  have hm24 : (x.mantissa : ℚ) < 2 ^ (24 : ℤ) := by exact_mod_cast hf.mantissa_lt
  have hpow : (2 : ℚ) ^ (31 : ℤ) < 2 ^ (24 + x.exponent) := by
    rw [zpow_add₀ (by norm_num)]
    exact lt_of_le_of_lt h (mul_lt_mul_of_pos_right hm24 (by positivity))
  have := (zpow_lt_zpow_iff_right₀ (one_lt_two : (1 : ℚ) < 2)).1 hpow
  exact ⟨by omega, hf.normal.resolve_left (by omega)⟩

/-- Beyond `2 ^ 31` a decimal in the interval of a number is beyond, too. -/
theorem Interval.Contains.lt_of_lt_magnitude (hx : x.isSpecial = false) (hm : x.mantissa ≠ 0)
    {q : ℚ} (h : (interval x).Contains q) (hlt : 2 ^ 31 < x.magnitude) : 2 ^ 31 < q := by
  obtain ⟨he, hnormal⟩ := exponent_ge_of_le_magnitude hx hlt.le
  obtain ⟨hlo, -, -⟩ := h.places hm
  rcases eq_or_lt_of_le he with he | he
  · -- At the exponent of `2 ^ 31` itself the next number is a whole place away.
    rw [← he] at hlo
    rw [magnitude, ← he] at hlt
    have hnext : (8388608 : ℚ) < x.mantissa := by linarith
    have hnext' : (8388608 : ℚ) + 1 ≤ x.mantissa := by exact_mod_cast hnext
    have hq : (8388608 : ℚ) + 1 / 2 ≤ q / 2 ^ (8 : ℤ) := by linarith
    rw [le_div_iff₀ (by norm_num)] at hq
    linarith
  · have hnormal' : (8388608 : ℚ) ≤ x.mantissa := by exact_mod_cast hnormal
    calc (2 : ℚ) ^ 31 < (8388608 - 1 / 2) * 2 ^ (9 : ℤ) := by norm_num
      _ ≤ (8388608 - 1 / 2) * 2 ^ x.exponent :=
          mul_le_mul_of_nonneg_left (zpow_le_zpow_right₀ one_le_two he) (by norm_num)
      _ ≤ q := by
          rw [← le_div_iff₀ (by positivity)]
          linarith

/-- The number `2 ^ 31` itself is written with fewer digits, as a smaller number. -/
theorem decimal_of_magnitude_eq (hx : x.isSpecial = false) (h : x.magnitude = 2 ^ 31) :
    x.decimal = (21474836, 2) := by
  obtain ⟨he, hnormal⟩ := exponent_ge_of_le_magnitude hx h.ge
  have hf := fields_of_isSpecial hx
  have hexp : x.exponent = 8 := by
    have hpow : (2 : ℚ) ^ (23 + x.exponent) ≤ 2 ^ (31 : ℤ) :=
      (two_zpow_le_magnitude hnormal).trans h.le
    have := (zpow_le_zpow_iff_right₀ (one_lt_two : (1 : ℚ) < 2)).1 hpow
    omega
  have hmantissa : x.mantissa = 0x800000 := by
    rw [magnitude, hexp] at h
    have hcast : (x.mantissa : ℚ) = 8388608 := by linarith
    exact_mod_cast hcast
  have hbits := hf.bits
  have hunsigned : x.unsigned = ⟨0x4F000000⟩ := by
    refine congrArg Single.mk (UInt32.toNat_inj.1 ?_)
    show x.unsigned.bits.toNat = 0x4F000000
    rw [toNat_bits_unsigned]
    omega
  rw [decimal, ← interval_unsigned, hunsigned]
  decide +kernel

/-- **Up to `2 ^ 31` and no further, a number without a fraction is written as a natural number
below it.** -/
theorem writtenNat_bounds (hx : x.isSpecial = false) (hk : 0 ≤ x.written.2) :
    (x.magnitude ≤ 2 ^ 31 → x.writtenNat < 2 ^ 31) ∧
      (2 ^ 31 < x.magnitude → 2 ^ 31 < x.writtenNat) := by
  by_cases hm : x.mantissa = 0
  · have hwritten : x.written = (0, 0) := by rw [written, if_pos hm]
    have hzero : x.magnitude = 0 := by rw [magnitude, hm, Nat.cast_zero, zero_mul]
    rw [writtenNat, hwritten, hzero]
    norm_num
  · have hcontains := (contains_decimal hx hm).1
    have hwritten : x.written = x.decimal := by rw [written, if_neg hm]
    have hcast := cast_writtenNat hk
    rw [← hwritten, ← hcast] at hcontains
    refine ⟨fun hle => ?_, fun hlt => ?_⟩
    · rcases eq_or_lt_of_le hle with heq | hlt
      · rw [writtenNat, hwritten, decimal_of_magnitude_eq hx heq]
        decide
      · exact_mod_cast hcontains.lt_of_magnitude_lt hx hm hlt
    · exact_mod_cast hcontains.lt_of_lt_magnitude hx hm hlt

end IntLang.Single
