import IntLang.Proofs.Single.Nearest

/-!
# Numerals without signs and without a point

The grammar of numerals is small if signs and points are left out (`Spells`): a run of digits, or
two of them with a letter `e` between them. The value is then a natural number, and it is rounded to
the nearest single precision number (`Spells.ofText?_eq`).

Neither of the two limits inside the reader is felt. An exponent that is cut off at ten thousand,
and digits before the point that are cut off at eight hundred, belong to values that are zero or too
large in any case.
-/

namespace IntLang.Single

/-! ### The grammar -/

/-- A word spells `d * 10 ^ k`: it is a run of digits, or a run of digits, a letter `e` and the
digits of the exponent. -/
inductive Spells : Text → Nat → Nat → Prop
  /-- A run of digits. -/
  | digits {ds : List Char} (hds : IsDigits ds) :
      Spells (.ofChars ds) (Nat.ofDigitChars 10 ds 0) 0
  /-- A run of digits with an exponent. -/
  | scaled {ds es : List Char} {mark : Char} (hds : IsDigits ds) (hmark : mark = 'e' ∨ mark = 'E')
      (hes : IsDigits es) :
      Spells (.ofChars (ds ++ mark :: es)) (Nat.ofDigitChars 10 ds 0) (Nat.ofDigitChars 10 es 0)

/-- The byte of the letter in front of an exponent. -/
theorem exists_byte_of_mark {mark : Char} (h : mark = 'e' ∨ mark = 'E') :
    ∃ b : UInt8, (b = 0x65 ∨ b = 0x45) ∧ Text.encodeChar mark = [b] := by
  rcases h with rfl | rfl
  · exact ⟨0x65, Or.inl rfl, rfl⟩
  · exact ⟨0x45, Or.inr rfl, rfl⟩

theorem exists_mark_of_byte {b : UInt8} (h : b = 0x65 ∨ b = 0x45) :
    ∃ mark : Char, (mark = 'e' ∨ mark = 'E') ∧ Text.encodeChar mark = [b] := by
  rcases h with rfl | rfl
  · exact ⟨'e', Or.inl rfl, rfl⟩
  · exact ⟨'E', Or.inr rfl, rfl⟩

theorem bytes_ofChars_append_cons {ds es : List Char} {mark : Char} {b : UInt8}
    (h : Text.encodeChar mark = [b]) :
    (Text.ofChars (ds ++ mark :: es)).bytes
      = (Text.ofChars ds).bytes ++ b :: (Text.ofChars es).bytes := by
  rw [Text.ofChars_append, Text.bytes_append]
  show _ ++ (Text.encodeChar mark ++ (Text.ofChars es).bytes) = _
  rw [h]
  rfl

/-! ### Digits -/

/-- Digits spell at least what the first of them counts. -/
theorem le_digitsValue (d : UInt8) (ds : List UInt8) :
    digitValue d * 10 ^ ds.length ≤ digitsValue (d :: ds) := by
  have hfold : ∀ (ds : List UInt8) (n : Nat),
      n * 10 ^ ds.length ≤ ds.foldl (fun n d => n * 10 + digitValue d) n := by
    intro ds
    induction ds with
    | nil =>
        intro n
        simp
    | cons e ds ih =>
        intro n
        calc n * 10 ^ (ds.length + 1) = n * 10 * 10 ^ ds.length := by ring
          _ ≤ (n * 10 + digitValue e) * 10 ^ ds.length := Nat.mul_le_mul_right _ (by omega)
          _ ≤ _ := ih _
  calc digitValue d * 10 ^ ds.length = (0 * 10 + digitValue d) * 10 ^ ds.length := by ring
    _ ≤ digitsValue (d :: ds) := hfold ds _

/-- A digit other than zero counts something. -/
theorem digitValue_pos {d : UInt8} (h : isDigitByte d = true) (h0 : isZeroByte d = false) :
    1 ≤ digitValue d := by
  have h30 : (0x30 : UInt8).toNat = 0x30 := rfl
  have h39 : (0x39 : UInt8).toNat = 0x39 := rfl
  have hne : d.toNat ≠ 0x30 := by
    intro he
    rw [isZeroByte, UInt8.toNat_inj.1 (he.trans h30.symm)] at h0
    cases h0
  simp only [isDigitByte, Bool.and_eq_true, decide_eq_true_eq, UInt8.le_iff_toNat_le] at h
  rw [digitValue]
  omega

/-- A number has at least as many decimal digits as it was spelled with, zeros in front not
counted. -/
theorem length_le_length_toDigits {ds : List UInt8} (h : ds.all isDigitByte = true)
    (h0 : ∀ d ∈ ds.head?, isZeroByte d = false) :
    ds.length ≤ (Nat.toDigits 10 (digitsValue ds)).length := by
  rcases ds with - | ⟨d, ds⟩
  · exact Nat.zero_le _
  by_contra hc
  have hpos : 0 < ds.length := by
    have hne := Nat.length_toDigits_pos (b := 10) (n := digitsValue (d :: ds))
    rw [List.length_cons] at hc
    omega
  have hlt : digitsValue (d :: ds) < 10 ^ ds.length := by
    rw [← Nat.length_toDigits_le_iff (by decide) hpos]
    rw [List.length_cons] at hc
    omega
  have hd := digitValue_pos (List.all_eq_true.1 h d List.mem_cons_self) (h0 d rfl)
  have hle : 1 * 10 ^ ds.length ≤ digitsValue (d :: ds) :=
    le_trans (Nat.mul_le_mul_right _ hd) (le_digitsValue d ds)
  omega

/-- **The value of a numeral without a point.** Very long numerals are no exception: where their
point would be moved, they are too large for a finite number. -/
theorem Numeral.value?_of_part_eq_nil {y : Numeral} (hpart : y.part = [])
    (hdigit : y.whole.all isDigitByte = true) (hzero : ∀ d ∈ y.whole.head?, isZeroByte d = false)
    (hexp : 0 ≤ y.exponent) :
    y.value? = (nearest? (digitsValue y.whole) y.exponent).map (withSign y.negative) := by
  have hscale : y.scale = y.exponent := by
    rw [Numeral.scale, hpart]
    exact Int.sub_zero _
  rcases Nat.lt_or_ge longestWhole y.whole.length with hlong | hshort
  · have hlength := length_le_length_toDigits hdigit hzero
    have hdigits : digitsValue y.digits = digitsValue y.whole := by
      rw [Numeral.digits, hpart, List.append_nil]
      have hdrop := digitsValue_dropWhile_append y.whole []
      rwa [List.append_nil, List.append_nil] at hdrop
    have hne : digitsValue y.whole ≠ 0 := by
      intro h
      have hone : (Nat.toDigits 10 0).length = 1 := rfl
      rw [h, hone] at hlength
      rw [longestWhole] at hlong
      omega
    have hmoved : (if y.isSettled then 0 else (y.whole.drop longestWhole).length)
        ≤ y.whole.length - longestWhole := by
      rw [List.length_drop]
      split_ifs
      · exact Nat.zero_le _
      · exact le_rfl
    rw [Numeral.value?, hdigits, hscale]
    generalize (if y.isSettled then 0 else (y.whole.drop longestWhole).length) = moved at *
    rw [longestWhole] at hlong hmoved
    rw [nearest?_eq_none_of_lt hne (by omega), nearest?_eq_none_of_lt hne (by omega)]
  · rw [Numeral.value?_of_length_le hshort, hscale, hpart, List.append_nil]

/-! ### Exponents -/

/-- Where the digits of an exponent no longer count, it is at least ten thousand in any case. -/
theorem exponentSize_cases (ds : List UInt8) :
    exponentSize ds = digitsValue ds ∨ 10000 ≤ exponentSize ds ∧ 10000 ≤ digitsValue ds := by
  have hfold : ∀ (ds : List UInt8) (m n : Nat), m = n ∨ 10000 ≤ m ∧ 10000 ≤ n →
      ds.foldl (fun n d => if n < 10000 then n * 10 + digitValue d else n) m
          = ds.foldl (fun n d => n * 10 + digitValue d) n ∨
        10000 ≤ ds.foldl (fun n d => if n < 10000 then n * 10 + digitValue d else n) m ∧
        10000 ≤ ds.foldl (fun n d => n * 10 + digitValue d) n := by
    intro ds
    induction ds with
    | nil => exact fun m n h => h
    | cons d ds ih =>
        intro m n h
        refine ih _ _ ?_
        dsimp only
        split_ifs <;> omega
  exact hfold ds 0 0 (Or.inl rfl)

/-- The cut does not show in the value. -/
theorem nearest?_exponentSize (d : Nat) (ds : List UInt8) :
    nearest? d (exponentSize ds) = nearest? d (digitsValue ds) := by
  rcases exponentSize_cases ds with heq | ⟨hsize, hvalue⟩
  · rw [heq]
  · by_cases hd : d = 0
    · simp only [nearest?, if_pos hd]
    · rw [nearest?_eq_none_of_lt hd (by omega), nearest?_eq_none_of_lt hd (by omega)]

/-- An exponent without a sign. -/
theorem exponent?_cons_eq_some_iff {b : UInt8} {ds : List UInt8} (hm : 0x2D ∉ ds)
    (hp : 0x2B ∉ ds) {i : Int} :
    exponent? (b :: ds) = some i ↔
      (b = 0x65 ∨ b = 0x45) ∧ ds ≠ [] ∧ ds.all isDigitByte = true ∧ i = exponentSize ds := by
  have hcondition : ((b = 0x65 || b = 0x45) && !ds.isEmpty && ds.all isDigitByte) = true ↔
      (b = 0x65 ∨ b = 0x45) ∧ ds ≠ [] ∧ ds.all isDigitByte = true := by
    simp only [Bool.and_eq_true, Bool.or_eq_true, decide_eq_true_eq, Bool.not_eq_true',
      List.isEmpty_eq_false_iff, and_assoc]
  rw [exponent?, splitSign_of_not_mem hm hp]
  dsimp only
  rw [if_neg Bool.false_ne_true]
  by_cases h : ((b = 0x65 || b = 0x45) && !ds.isEmpty && ds.all isDigitByte) = true
  · obtain ⟨hb, hne, hall⟩ := hcondition.1 h
    rw [if_pos h, Option.some.injEq, eq_comm]
    exact ⟨fun hi => ⟨hb, hne, hall, hi⟩, fun hi => hi.2.2.2⟩
  · rw [if_neg h]
    refine iff_of_false nofun ?_
    rintro ⟨hb, hne, hall, -⟩
    exact h (hcondition.2 ⟨hb, hne, hall⟩)

/-! ### Reading the grammar -/

/-- Where no point follows, there is no fraction. -/
theorem splitFraction_of_head?_ne {bytes : List UInt8} (h : bytes.head? ≠ some 0x2E) :
    splitFraction bytes = ([], bytes) := by
  rw [splitFraction]
  rintro more rfl
  exact h rfl

/-- The value of digits before an exponent, if there is one, is rounded to the nearest number. -/
theorem ofText?_append {ds rest : List UInt8} (hne : ds ≠ []) (hds : ds.all isDigitByte = true)
    (hstop : ∀ b ∈ rest.head?, isDigitByte b = false ∧ b ≠ 0x2E) {k : Nat}
    (hexp : exponent? rest = some k) : ofText? ⟨ds ++ rest⟩ = nearest? (digitsValue ds) k := by
  have hfraction := splitFraction_of_head?_ne fun hpoint => (hstop _ hpoint).2 rfl
  have hnumeral : numeral? ⟨ds ++ rest⟩ = some ⟨false, ds.dropWhile isZeroByte, [], k⟩ := by
    have h := numeral?_signed_append false hne hds fun b hb => (hstop b hb).1
    rw [hfraction, hexp] at h
    exact h
  have hzeros := digitsValue_dropWhile_append ds []
  rw [List.append_nil, List.append_nil] at hzeros
  have hvalue := Numeral.value?_of_part_eq_nil (y := ⟨false, ds.dropWhile isZeroByte, [], k⟩) rfl
    (by
      rw [List.all_eq_true] at hds ⊢
      exact fun d hd => hds d ((List.dropWhile_sublist _).subset hd))
    (by
      intro d hd
      have := List.head?_dropWhile_not isZeroByte ds
      rw [Option.mem_def.1 hd] at this
      exact this)
    (Int.natCast_nonneg k)
  rw [ofText?, hnumeral, Option.bind_some, hvalue]
  dsimp only
  rw [hzeros]
  exact Option.map_id'

/-- **A word of the grammar is read as the number nearest to what it spells.** -/
theorem Spells.ofText?_eq {w : Text} {d k : Nat} (h : Spells w d k) :
    ofText? w = nearest? d k := by
  cases h with
  | digits hds =>
      have hstop : ∀ b ∈ ([] : List UInt8).head?, isDigitByte b = false ∧ b ≠ 0x2E := nofun
      have hread := ofText?_append hds.bytes_ne_nil hds.all_isDigitByte hstop rfl
      rw [List.append_nil, digitsValue_ofChars hds.isDigit] at hread
      exact hread
  | scaled hds hmark hes =>
      obtain ⟨b, hb, hbytes⟩ := exists_byte_of_mark hmark
      obtain ⟨hm, hp⟩ := sign_not_mem_of_all_isDigitByte hes.all_isDigitByte
      have hexp := (exponent?_cons_eq_some_iff hm hp).2
        ⟨hb, hes.bytes_ne_nil, hes.all_isDigitByte, rfl⟩
      have hread := ofText?_append hds.bytes_ne_nil hds.all_isDigitByte (by
        rintro c ⟨⟩
        rcases hb with rfl | rfl <;> decide) hexp
      rw [← bytes_ofChars_append_cons hbytes, digitsValue_ofChars hds.isDigit,
        nearest?_exponentSize, digitsValue_ofChars hes.isDigit] at hread
      exact hread

/-- A numeral without signs and without a point is digits and an exponent. -/
theorem exists_append_of_numeral? {t : Text} (hm : 0x2D ∉ t.bytes) (hp : 0x2B ∉ t.bytes)
    (hd : 0x2E ∉ t.bytes) {x : Numeral} (h : numeral? t = some x) :
    ∃ whole rest i, whole ++ rest = t.bytes ∧ whole ≠ [] ∧ whole.all isDigitByte = true ∧
      exponent? rest = some i := by
  have hfraction : splitFraction (t.bytes.dropWhile isDigitByte)
      = ([], t.bytes.dropWhile isDigitByte) := by
    refine splitFraction_of_head?_ne fun hpoint => hd ?_
    exact (List.dropWhile_sublist _).subset (List.mem_of_mem_head? hpoint)
  rw [numeral?, splitSign_of_not_mem hm hp] at h
  dsimp only at h
  rw [List.span_eq_takeWhile_dropWhile, hfraction] at h
  dsimp only at h
  split_ifs at h with hempty
  obtain ⟨i, hexp, -⟩ := Option.map_eq_some_iff.1 h
  refine ⟨_, _, i, List.takeWhile_append_dropWhile, ?_, List.all_takeWhile, hexp⟩
  intro hnil
  rw [hnil] at hempty
  exact hempty rfl

/-- **A numeral without signs and without a point is a word of the grammar.** -/
theorem exists_spells_of_numeral? {t : Text} (hm : 0x2D ∉ t.bytes) (hp : 0x2B ∉ t.bytes)
    (hd : 0x2E ∉ t.bytes) {x : Numeral} (h : numeral? t = some x) : ∃ d k, Spells t d k := by
  obtain ⟨whole, rest, i, hsplit, hne, hall, hexp⟩ := exists_append_of_numeral? hm hp hd h
  obtain ⟨ds, hds, rfl⟩ := exists_isDigits hne hall
  rcases rest with - | ⟨b, more⟩
  · rw [List.append_nil] at hsplit
    rw [← Text.ext hsplit]
    exact ⟨_, _, .digits hds⟩
  · have hmore {c : UInt8} (hc : c ∈ more) : c ∈ t.bytes := by
      rw [← hsplit]
      exact List.mem_append_right _ (List.mem_cons_of_mem b hc)
    obtain ⟨hb, hne', hall', -⟩ := (exponent?_cons_eq_some_iff (fun hmem => hm (hmore hmem))
      (fun hmem => hp (hmore hmem))).1 hexp
    obtain ⟨es, hes, rfl⟩ := exists_isDigits hne' hall'
    obtain ⟨mark, hmark, hbytes⟩ := exists_mark_of_byte hb
    rw [← bytes_ofChars_append_cons hbytes] at hsplit
    rw [← Text.ext hsplit]
    exact ⟨_, _, .scaled hds hmark hes⟩

end IntLang.Single
