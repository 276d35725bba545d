import IntLang.Proofs.Text.Pieces
import IntLang.Proofs.Text.Seams
import IntLang.Text.Decimal
import Mathlib.Data.List.Induction

/-!
# Numbers read back

A number written in decimal is read back as that number, with a sign in front or without
(`Text.integer?_signed_ofNat`), and, if it is small enough, as an integer of the given width
(`Text.integerWithin?_ofInt`). In the other direction, only digits are read as a number
(`Text.natural?_eq_some_iff`), and they are written back as they were unless there are zeros in
front (`toDigits_ofDigitChars_iff`).
-/

namespace IntLang

/-- A run of digits, at least one. -/
structure IsDigits (cs : List Char) : Prop where
  ne_nil : cs ≠ []
  isDigit : ∀ c ∈ cs, c.isDigit = true

/-! ### Digits as bytes -/

/-- The byte of a digit is a digit byte, and its value is that of the digit. -/
theorem encodeChar_of_isDigit {c : Char} (h : c.isDigit = true) :
    ∃ b, Text.encodeChar c = [b] ∧ isDigitByte b = true ∧
      digitValue b = c.toNat - '0'.toNat := by
  obtain ⟨h0, h9⟩ := Char.isDigit_iff_toNat.1 h
  have e0 : '0'.toNat = 0x30 := rfl
  have e9 : '9'.toNat = 0x39 := rfl
  have hb : (UInt8.ofNat c.toNat).toNat = c.toNat := Utf8.toNat_ofNat_of_lt (by omega)
  refine ⟨.ofNat c.toNat, Text.encodeChar_of_lt (by omega), ?_, ?_⟩
  · have h30 : (0x30 : UInt8).toNat = 0x30 := rfl
    have h39 : (0x39 : UInt8).toNat = 0x39 := rfl
    simp only [isDigitByte, Bool.and_eq_true, decide_eq_true_eq, UInt8.le_iff_toNat_le]
    omega
  · rw [digitValue, hb]
    omega

/-- Digits are written as digit bytes. -/
theorem all_isDigitByte_ofChars {cs : List Char} (h : ∀ c ∈ cs, c.isDigit = true) :
    (Text.ofChars cs).bytes.all isDigitByte = true := by
  rw [List.all_eq_true]
  intro b hb
  obtain ⟨c, hc, hbc⟩ := List.mem_flatMap.1 hb
  obtain ⟨d, hd, hdigit, -⟩ := encodeChar_of_isDigit (h c hc)
  rw [hd, List.mem_singleton] at hbc
  rw [hbc]
  exact hdigit

/-- A digit byte is the byte of a digit. -/
theorem exists_encodeChar_of_isDigitByte {b : UInt8} (h : isDigitByte b = true) :
    ∃ c : Char, c.isDigit = true ∧ Text.encodeChar c = [b] := by
  have h30 : (0x30 : UInt8).toNat = 0x30 := rfl
  have h39 : (0x39 : UInt8).toNat = 0x39 := rfl
  simp only [isDigitByte, Bool.and_eq_true, decide_eq_true_eq, UInt8.le_iff_toNat_le] at h
  have hc : (Char.ofNat b.toNat).toNat = b.toNat := Utf8.toNat_charOfNat (Or.inl (by omega))
  refine ⟨Char.ofNat b.toNat, Char.isDigit_iff_toNat.2 ?_, ?_⟩
  · have e0 : '0'.toNat = 0x30 := rfl
    have e9 : '9'.toNat = 0x39 := rfl
    omega
  · rw [Text.encodeChar_of_lt (by omega), hc, UInt8.ofNat_toNat]

/-- Digit bytes are written as digits. -/
theorem exists_ofChars_of_all_isDigitByte {bytes : List UInt8}
    (h : bytes.all isDigitByte = true) :
    ∃ cs : List Char, (∀ c ∈ cs, c.isDigit = true) ∧ (Text.ofChars cs).bytes = bytes := by
  induction bytes with
  | nil => exact ⟨[], List.forall_mem_nil _, rfl⟩
  | cons b bytes ih =>
      rw [List.all_cons, Bool.and_eq_true] at h
      obtain ⟨c, hc, hb⟩ := exists_encodeChar_of_isDigitByte h.1
      obtain ⟨cs, hcs, hbytes⟩ := ih h.2
      refine ⟨c :: cs, List.forall_mem_cons.2 ⟨hc, hcs⟩, ?_⟩
      show Text.encodeChar c ++ (Text.ofChars cs).bytes = _
      rw [hb, hbytes]
      rfl

/-- The number that digit bytes spell is the number that the digits spell. -/
theorem digitsValue_ofChars {cs : List Char} (h : ∀ c ∈ cs, c.isDigit = true) :
    digitsValue (Text.ofChars cs).bytes = Nat.ofDigitChars 10 cs 0 := by
  -- Both sides are folds over the digits; the number read so far is the same at each of them.
  have hfold : ∀ n, (Text.ofChars cs).bytes.foldl (fun n d => n * 10 + digitValue d) n
      = Nat.ofDigitChars 10 cs n := by
    induction cs with
    | nil => exact fun n => (Nat.ofDigitChars_nil).symm
    | cons c cs ih =>
        intro n
        obtain ⟨b, hb, -, hv⟩ := encodeChar_of_isDigit (h c List.mem_cons_self)
        have hbytes : (Text.ofChars (c :: cs)).bytes = b :: (Text.ofChars cs).bytes := by
          show Text.encodeChar c ++ _ = _
          rw [hb]
          rfl
        rw [hbytes, List.foldl_cons, Nat.ofDigitChars_cons,
          ih fun d hd => h d (List.mem_cons_of_mem c hd), hv, Nat.mul_comm n 10]
  exact hfold 0

/-- Digits are written in one byte each. -/
theorem length_bytes_ofChars {cs : List Char} (h : ∀ c ∈ cs, c.isDigit = true) :
    (Text.ofChars cs).bytes.length = cs.length := by
  induction cs with
  | nil => rfl
  | cons c cs ih =>
      obtain ⟨b, hb, -, -⟩ := encodeChar_of_isDigit (h c List.mem_cons_self)
      have hbytes : (Text.ofChars (c :: cs)).bytes = b :: (Text.ofChars cs).bytes := by
        show Text.encodeChar c ++ _ = _
        rw [hb]
        rfl
      rw [hbytes, List.length_cons, List.length_cons,
        ih fun d hd => h d (List.mem_cons_of_mem c hd)]

theorem IsDigits.bytes_ne_nil {ds : List Char} (h : IsDigits ds) :
    (Text.ofChars ds).bytes ≠ [] := by
  rw [← List.length_pos_iff, length_bytes_ofChars h.isDigit, List.length_pos_iff]
  exact h.ne_nil

theorem IsDigits.all_isDigitByte {ds : List Char} (h : IsDigits ds) :
    (Text.ofChars ds).bytes.all isDigitByte = true :=
  all_isDigitByte_ofChars h.isDigit

/-- Digit bytes, at least one, are a run of digits. -/
theorem exists_isDigits {bytes : List UInt8} (hne : bytes ≠ [])
    (h : bytes.all isDigitByte = true) : ∃ ds, IsDigits ds ∧ (Text.ofChars ds).bytes = bytes := by
  obtain ⟨ds, hds, hbytes⟩ := exists_ofChars_of_all_isDigitByte h
  refine ⟨ds, ⟨?_, hds⟩, hbytes⟩
  rintro rfl
  exact hne hbytes.symm

/-- What digits spell is written with no more of them. -/
theorem length_toDigits_ofDigitChars_le {cs : List Char} (hne : cs ≠ [])
    (h : ∀ c ∈ cs, c.isDigit = true) :
    (Nat.toDigits 10 (Nat.ofDigitChars 10 cs 0)).length ≤ cs.length := by
  rw [Nat.length_toDigits_le_iff (by decide) (List.length_pos_iff.2 hne)]
  clear hne
  induction cs with
  | nil => decide
  | cons c cs ih =>
      have ih := ih fun d hd => h d (List.mem_cons_of_mem c hd)
      have h9 := (Char.isDigit_iff_toNat.1 (h c List.mem_cons_self)).2
      have e0 : '0'.toNat = 0x30 := rfl
      have e9 : '9'.toNat = 0x39 := rfl
      have hle : 10 ^ cs.length * (c.toNat - '0'.toNat) ≤ 10 ^ cs.length * 9 :=
        Nat.mul_le_mul_left _ (by omega)
      rw [Nat.ofDigitChars_cons, Nat.mul_zero, Nat.zero_add,
        Nat.ofDigitChars_eq_ofDigitChars_zero, List.length_cons, Nat.pow_succ]
      omega

/-- Whether digits have a zero in front that could be left out. -/
def hasSpareZero (cs : List Char) : Bool := cs.head? = some '0' && 1 < cs.length

/-- A digit is written back as it was. -/
theorem toDigits_of_isDigit {c : Char} (h : c.isDigit = true) :
    Nat.toDigits 10 (c.toNat - '0'.toNat) = [c] := by
  obtain ⟨h0, h9⟩ := Char.isDigit_iff_toNat.1 h
  have e0 : '0'.toNat = 0x30 := rfl
  have e9 : '9'.toNat = 0x39 := rfl
  have hdigit : ∀ d < 10, (d.digitChar).toNat = d + 0x30 := by decide
  have hlt : c.toNat - '0'.toNat < 10 := by omega
  have hback : (c.toNat - '0'.toNat).digitChar = c := by
    refine Char.toNat_inj.1 ?_
    rw [hdigit _ hlt]
    omega
  rw [Nat.toDigits_of_lt_base hlt, hback]

/-- **Digits are written back as they were exactly if no zero in front could be left out.** -/
theorem toDigits_ofDigitChars_iff {cs : List Char} (hne : cs ≠ [])
    (h : ∀ c ∈ cs, c.isDigit = true) :
    Nat.toDigits 10 (Nat.ofDigitChars 10 cs 0) = cs ↔ hasSpareZero cs = false := by
  constructor
  · -- A spare zero counts nothing, so that fewer digits are written.
    intro heq
    rw [← Bool.not_eq_true, hasSpareZero, Bool.and_eq_true, decide_eq_true_eq, decide_eq_true_eq]
    rintro ⟨hzero, hlength⟩
    obtain ⟨rest, rfl⟩ : ∃ rest, cs = '0' :: rest := List.head?_eq_some_iff.1 hzero
    rw [List.length_cons] at hlength
    have hrest : rest ≠ [] := List.length_pos_iff.1 (Nat.lt_of_succ_lt_succ hlength)
    have hle := length_toDigits_ofDigitChars_le hrest fun c hc => h c (List.mem_cons_of_mem '0' hc)
    have hsame : Nat.ofDigitChars 10 ('0' :: rest) 0 = Nat.ofDigitChars 10 rest 0 := by
      rw [Nat.ofDigitChars_cons]
      rfl
    rw [hsame] at heq
    rw [heq, List.length_cons] at hle
    omega
  · -- The digits are taken off at the end, one by one.
    induction cs using List.reverseRecOn with
    | nil => exact absurd rfl hne
    | append_singleton cs c ih =>
        intro hspare
        have hc := toDigits_of_isDigit (h c (List.mem_append_right cs List.mem_cons_self))
        by_cases hcs : cs = []
        · rw [hcs, List.nil_append, Nat.ofDigitChars_cons, Nat.ofDigitChars_nil, Nat.mul_zero,
            Nat.zero_add, hc]
        · have hdigits : ∀ d ∈ cs, d.isDigit = true := fun d hd =>
            h d (List.mem_append_left [c] hd)
          have hpos : 1 < (cs ++ [c]).length := by
            have := List.length_pos_iff.2 hcs
            rw [List.length_append, List.length_singleton]
            omega
          have hhead : cs.head? ≠ some '0' := by
            intro hzero
            rw [hasSpareZero, List.head?_append, hzero, Option.some_or,
              decide_eq_true hpos] at hspare
            cases hspare
          have hback := ih hcs hdigits (by rw [hasSpareZero, decide_eq_false hhead]; rfl)
          have hvalue : 0 < Nat.ofDigitChars 10 cs 0 := by
            rw [Nat.pos_iff_ne_zero]
            intro hzero
            rw [hzero] at hback
            exact hhead (by rw [← hback]; rfl)
          have hlt : c.toNat - '0'.toNat < 10 := by
            rw [← Nat.pow_one 10, ← Nat.length_toDigits_le_iff (by decide) (by decide), hc]
            exact Nat.le_refl 1
          rw [Nat.ofDigitChars_append, Nat.ofDigitChars_cons, Nat.ofDigitChars_nil,
            ← Nat.toDigits_append_toDigits (by decide) hvalue hlt, hback, hc]

/-- There are no signs among digits. -/
theorem sign_not_mem_of_all_isDigitByte {ds : List UInt8} (h : ds.all isDigitByte = true) :
    0x2D ∉ ds ∧ 0x2B ∉ ds := by
  rw [List.all_eq_true] at h
  exact ⟨fun hmem => absurd (h _ hmem) (by decide), fun hmem => absurd (h _ hmem) (by decide)⟩

/-- Bytes without signs have no sign in front. -/
theorem splitSign_of_not_mem {bytes : List UInt8} (hm : 0x2D ∉ bytes) (hp : 0x2B ∉ bytes) :
    splitSign bytes = (false, bytes) := by
  rw [splitSign]
  · rintro rest rfl
    exact hm List.mem_cons_self
  · rintro rest rfl
    exact hp List.mem_cons_self

namespace Text

/-! ### Numbers -/

/-- A number is written in digits. -/
theorem isDigit_of_mem_toDigits {n : Nat} {c : Char} (h : c ∈ Nat.toDigits 10 n) :
    c.isDigit = true :=
  Nat.isDigit_of_mem_toDigits (by decide) (by decide) h

/-- A number is written in digit bytes. -/
theorem all_isDigitByte_ofNat (n : Nat) : (ofNat n).bytes.all isDigitByte = true :=
  all_isDigitByte_ofChars fun _ => isDigit_of_mem_toDigits

/-- A number is written in no more digits than a greater one. -/
theorem size_ofNat_mono {m n : Nat} (h : m ≤ n) : (ofNat m).size ≤ (ofNat n).size := by
  have hsize (k : Nat) : (ofNat k).size = (Nat.toDigits 10 k).length :=
    length_bytes_ofChars fun _ => isDigit_of_mem_toDigits
  have hlt := (Nat.length_toDigits_le_iff (by decide) Nat.length_toDigits_pos).1
    (Nat.le_refl (Nat.toDigits 10 n).length)
  rw [hsize, hsize, Nat.length_toDigits_le_iff (by decide) Nat.length_toDigits_pos]
  exact Nat.lt_of_le_of_lt h hlt

/-- Digits are read as the number they spell. -/
theorem natural?_ofChars {cs : List Char} (hne : cs ≠ []) (h : ∀ c ∈ cs, c.isDigit = true) :
    (ofChars cs).natural? = some (Nat.ofDigitChars 10 cs 0) := by
  have hbytes : (ofChars cs).bytes ≠ [] := by
    rw [← List.length_pos_iff, length_bytes_ofChars h, List.length_pos_iff]
    exact hne
  rw [natural?, if_neg, digitsValue_ofChars h]
  rw [all_isDigitByte_ofChars h, List.isEmpty_eq_false_iff.2 hbytes]
  decide

/-- **What is read as a number is a run of digits**, and the number is what they spell. -/
theorem natural?_eq_some_iff {t : Text} {n : Nat} :
    t.natural? = some n ↔
      ∃ cs, IsDigits cs ∧ t = ofChars cs ∧ n = Nat.ofDigitChars 10 cs 0 := by
  constructor
  · intro h
    rw [natural?] at h
    split at h
    · cases h
    · next hdigits =>
      rw [Bool.or_eq_true, Bool.not_eq_true', not_or, Bool.not_eq_false] at hdigits
      obtain ⟨cs, hcs, hbytes⟩ := exists_isDigits (mt List.isEmpty_iff.2 hdigits.1) hdigits.2
      refine ⟨cs, hcs, Text.ext hbytes.symm, ?_⟩
      rw [← Option.some.inj h, ← hbytes, digitsValue_ofChars hcs.isDigit]
  · rintro ⟨cs, hcs, rfl, rfl⟩
    exact natural?_ofChars hcs.ne_nil hcs.isDigit

/-! ### Signs -/

/-- A text with a minus sign in front, or none. -/
def signed (negative : Bool) (t : Text) : Text := (if negative then "-" else "" : Text) ++ t

/-- A sign is told from the digits behind it. -/
theorem splitSign_signed (negative : Bool) {t : Text}
    (h : ∀ b ∈ t.bytes.head?, isDigitByte b = true) :
    splitSign (signed negative t).bytes = (negative, t.bytes) := by
  cases negative with
  | true => rfl
  | false =>
      show splitSign t.bytes = _
      rw [splitSign]
      · intro rest hrest
        rw [hrest] at h
        exact absurd (h 0x2D rfl) (by decide)
      · intro rest hrest
        rw [hrest] at h
        exact absurd (h 0x2B rfl) (by decide)

/-- **Digits behind a sign are read as an integer.** -/
theorem integer?_signed_ofChars (negative : Bool) {cs : List Char} (hne : cs ≠ [])
    (h : ∀ c ∈ cs, c.isDigit = true) :
    (signed negative (ofChars cs)).integer?
      = some (if negative then -(Nat.ofDigitChars 10 cs 0 : Int)
          else Nat.ofDigitChars 10 cs 0) := by
  have hhead : ∀ b ∈ (ofChars cs).bytes.head?, isDigitByte b = true := fun b hb =>
    List.all_eq_true.1 (all_isDigitByte_ofChars h) b (List.mem_of_mem_head? hb)
  have hn : (Text.mk (ofChars cs).bytes).natural? = _ := natural?_ofChars hne h
  rw [integer?, splitSign_signed negative hhead]
  dsimp only
  rw [hn]
  rfl

/-- A number with a sign in front is read back. -/
theorem integer?_signed_ofNat (negative : Bool) (n : Nat) :
    (signed negative (ofNat n)).integer? = some (if negative then -(n : Int) else n) := by
  rw [ofNat, integer?_signed_ofChars negative Nat.toDigits_ne_nil
    fun _ => isDigit_of_mem_toDigits, Nat.ofDigitChars_ten_toDigits]

/-- A text with a byte that is neither a digit nor a sign is no integer. -/
theorem integer?_eq_none_of_mem {t : Text} {b : UInt8} (hb : b ∈ t.bytes)
    (hdigit : isDigitByte b = false) (hminus : b ≠ 0x2D) (hplus : b ≠ 0x2B) :
    t.integer? = none := by
  have hrest : b ∈ (splitSign t.bytes).2 := by
    unfold splitSign
    split
    · next hbytes =>
      rw [hbytes] at hb
      exact (List.mem_cons.1 hb).resolve_left hminus
    · next hbytes =>
      rw [hbytes] at hb
      exact (List.mem_cons.1 hb).resolve_left hplus
    · exact hb
  have hall : (splitSign t.bytes).2.all isDigitByte = false := by
    rw [List.all_eq_false]
    exact ⟨b, hrest, by rw [hdigit]; decide⟩
  rw [integer?]
  generalize splitSign t.bytes = parts at hall
  dsimp only
  rw [natural?, hall, if_pos (by simp)]
  rfl

/-- An integer is written as its magnitude behind its sign. -/
theorem ofInt_eq_signed (i : Int) : ofInt i = signed (decide (i < 0)) (ofNat i.natAbs) := by
  cases i with
  | ofNat n => rfl
  | negSucc n =>
      rw [decide_eq_true (Int.negSucc_lt_zero n)]
      rfl

/-- An integer that is small enough is read back as one of the given width. -/
theorem integerWithin?_ofInt {width : Nat} {i : Int} (hlo : -(Nat.pow 2 (width - 1) : Int) ≤ i)
    (hhi : i < Nat.pow 2 (width - 1)) : (ofInt i).integerWithin? width = some i := by
  have hi : (ofInt i).integer? = some i := by
    rw [ofInt_eq_signed, integer?_signed_ofNat]
    simp only [decide_eq_true_eq, Option.some.injEq]
    split <;> omega
  rw [integerWithin?, hi, Option.filter_some, if_pos]
  rw [Bool.and_eq_true, decide_eq_true_eq, decide_eq_true_eq]
  exact ⟨hlo, hhi⟩

end Text

end IntLang
