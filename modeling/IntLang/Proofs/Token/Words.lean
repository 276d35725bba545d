import IntLang.Proofs.Text.Decimal
import IntLang.Proofs.Token.Cutting

/-!
# What a word is classified as

`classify` tries six readings of a word in turn. `classify_cases` lists them, each with the reader
that succeeded; no other token ever comes out, in particular no operator and no string
(`isMark_classify`).

The words that reach `classify` hold no separator. Seen as bytes, they hold none of the signs and
points that a number could have (`not_mem_bytes_of_isWord`), so an integer among them is not
negative (`toInt_nonneg_of_intWord?`).

The converse direction says what some words that a program writes are read as: numbers in decimal
(`classify_ofNat`) and words that begin with a given mark (`classify_of_startsWith`).
-/

namespace IntLang

/-! ### The readings of a word -/

/-- The readings of a word, and the token of each. -/
theorem classify_cases (w : Text) :
    (∃ t, ValueType.ofName? w = some t ∧ classify w = .type t) ∨
    (∃ k, Keyword.ofName? w = some k ∧ classify w = .keyword k) ∨
    (∃ n, intWord? w = some n ∧ classify w = .literal (.int n)) ∨
    (∃ x, realWord? w = some x ∧ classify w = .literal (.real x)) ∨
    (∃ b, boolWord? w = some b ∧ classify w = .literal (.bool b)) ∨
    classify w = .ident w := by
  rw [classify]
  cases ht : ValueType.ofName? w with
  | some t => exact Or.inl ⟨t, rfl, rfl⟩
  | none =>
      refine Or.inr ?_
      cases hk : Keyword.ofName? w with
      | some k => exact Or.inl ⟨k, rfl, rfl⟩
      | none =>
          refine Or.inr ?_
          cases hn : intWord? w with
          | some n => exact Or.inl ⟨n, rfl, rfl⟩
          | none =>
              refine Or.inr ?_
              cases hx : realWord? w with
              | some x => exact Or.inl ⟨x, rfl, rfl⟩
              | none =>
                  refine Or.inr ?_
                  cases hb : boolWord? w with
                  | some b => exact Or.inl ⟨b, rfl, rfl⟩
                  | none => exact Or.inr rfl

/-- A word that no reader takes is an identifier. -/
theorem classify_eq_ident {w : Text} (ht : ValueType.ofName? w = none)
    (hk : Keyword.ofName? w = none) (hn : intWord? w = none) (hx : realWord? w = none)
    (hb : boolWord? w = none) : classify w = .ident w := by
  rw [classify, ht, hk, hn, hx, hb]
  rfl

/-- An identifier is the word itself. -/
theorem eq_of_classify_eq_ident {w name : Text} (h : classify w = .ident name) : name = w := by
  rcases classify_cases w with ⟨t, -, hw⟩ | ⟨k, -, hw⟩ | ⟨n, -, hw⟩ | ⟨x, -, hw⟩ | ⟨b, -, hw⟩ | hw
  all_goals rw [hw] at h
  all_goals cases h
  rfl

/-- Whether a token is an operator or a piece of a string. -/
def Token.isMark : Token → Bool
  | .operator _ => true
  | .literal (.string _) => true
  | _ => false

/-- A word is never an operator or a piece of a string. -/
theorem isMark_classify (w : Text) : (classify w).isMark = false := by
  rcases classify_cases w with ⟨t, -, h⟩ | ⟨k, -, h⟩ | ⟨n, -, h⟩ | ⟨x, -, h⟩ | ⟨b, -, h⟩ | h <;>
    rw [h] <;> rfl

/-! ### The bytes of a word -/

/-- An ASCII byte of a glyph is the whole glyph. -/
theorem not_mem_bytes_of_ne {g : Glyph} (hl : Legible [g]) {b : UInt8} (hb : b.toNat < 0x80)
    (hne : g ≠ .scalar (Char.ofNat b.toNat)) : b ∉ g.bytes := by
  intro h
  have hmem : b ∈ (Text.ofGlyphs [g]).bytes := by simpa [Text.ofGlyphs] using h
  exact hne (List.mem_singleton.1 (mem_of_mem_bytes hl hb hmem)).symm

/-- No byte of a word is a separator. -/
theorem not_mem_bytes {w : List Glyph} (hw : IsWord w) (hl : Legible w) {b : UInt8}
    (hb : b.toNat < 0x80) (hs : (Glyph.scalar (Char.ofNat b.toNat)).isSeparator = true) :
    b ∉ (Text.ofGlyphs w).bytes := by
  intro h
  rw [hw.noSeparator _ (mem_of_mem_bytes hl hb h)] at hs
  cases hs

/-- A word holds no sign and no point. -/
theorem not_mem_bytes_of_isWord {w : List Glyph} (hw : IsWord w) (hl : Legible w) :
    0x2D ∉ (Text.ofGlyphs w).bytes ∧ 0x2B ∉ (Text.ofGlyphs w).bytes ∧
      0x2E ∉ (Text.ofGlyphs w).bytes :=
  ⟨not_mem_bytes hw hl (by decide) (by decide), not_mem_bytes hw hl (by decide) (by decide),
    not_mem_bytes hw hl (by decide) (by decide)⟩

/-! ### Integers -/

/-- The numbers of integers in a width are small enough. -/
theorem toInt_ofInt_of_lt {n : Nat} (h : n < Nat.pow 2 31) :
    (Int32.ofInt (n : Int)).toInt = n := by
  have h' : n < 2147483648 := h
  rw [Int32.toInt_ofInt_of_le] <;> omega

/-- A word that spells an integer is one of 32 bits exactly if it is in their range. -/
theorem intWord?_of_integer? {w : Text} {i : Int} (h : w.integer? = some i) :
    intWord? w = if -2147483648 ≤ i ∧ i < 2147483648 then some (.ofInt i) else none := by
  have hpow : (Nat.pow 2 (32 - 1) : Int) = 2147483648 := rfl
  rw [intWord?, Text.integerWithin?, h, Option.filter_some, hpow]
  simp only [Bool.and_eq_true, decide_eq_true_eq]
  split <;> rfl

/-- **A word without signs is an integer of 32 bits exactly if it is a run of digits** that spell
it. -/
theorem intWord?_eq_some_iff {w : Text} (hminus : 0x2D ∉ w.bytes) (hplus : 0x2B ∉ w.bytes)
    {v : Int32} :
    intWord? w = some v ↔
      ∃ ds, IsDigits ds ∧ w = .ofChars ds ∧ v.toInt = Nat.ofDigitChars 10 ds 0 := by
  constructor
  · intro h
    cases hn : w.natural? with
    | none =>
        rw [intWord?, Text.integerWithin?, Text.integer?, splitSign_of_not_mem hminus hplus] at h
        dsimp only at h
        rw [hn] at h
        cases h
    | some k =>
        have hinteger : w.integer? = some (k : Int) := by
          rw [Text.integer?, splitSign_of_not_mem hminus hplus]
          dsimp only
          rw [hn]
          rfl
        obtain ⟨ds, hds, hw, hk⟩ := Text.natural?_eq_some_iff.1 hn
        rw [intWord?_of_integer? hinteger] at h
        split at h
        · next hrange =>
          refine ⟨ds, hds, hw, ?_⟩
          rw [← Option.some.inj h, Int32.toInt_ofInt_of_le hrange.1 hrange.2, hk]
        · cases h
  · rintro ⟨ds, hds, rfl, hv⟩
    have hinteger : (Text.ofChars ds).integer? = some (Nat.ofDigitChars 10 ds 0 : Int) :=
      Text.integer?_signed_ofChars false hds.ne_nil hds.isDigit
    have hlt : v.toInt < 2147483648 := v.toInt_lt
    rw [intWord?_of_integer? hinteger, if_pos (by omega), ← hv, Int32.ofInt_toInt]

/-- An integer that a word spells is not negative. -/
theorem toInt_nonneg_of_intWord? {w : List Glyph} (hw : IsWord w) (hl : Legible w) {n : Int32}
    (h : intWord? (.ofGlyphs w) = some n) : 0 ≤ n.toInt := by
  obtain ⟨hminus, hplus, -⟩ := not_mem_bytes_of_isWord hw hl
  obtain ⟨ds, -, -, hn⟩ := (intWord?_eq_some_iff hminus hplus).1 h
  rw [hn]
  exact Int.natCast_nonneg _

/-- The bytes that numerals are made of make no word with a meaning of its own. -/
theorem ofName?_of_isNumeralByte {w : Text} (h : w.bytes.all isNumeralByte = true) :
    ValueType.ofName? w = none ∧ Keyword.ofName? w = none := by
  constructor
  · rw [ValueType.ofName?, List.find?_eq_none]
    intro t ht hw
    rw [decide_eq_true_eq] at hw
    have hall : ∀ t ∈ ValueType.all, t.name.bytes.all isNumeralByte = false := by decide
    rw [← hw, hall t ht] at h
    cases h
  · rw [Keyword.ofName?, Option.map_eq_none_iff, List.find?_eq_none]
    intro p hp hw
    rw [decide_eq_true_eq] at hw
    have hall : ∀ p ∈ Keyword.spellings, p.1.bytes.all isNumeralByte = false := by decide
    rw [← hw, hall p hp] at h
    cases h

/-- Digits are bytes of numerals. -/
theorem all_isNumeralByte_of_isDigitByte {bytes : List UInt8} (h : bytes.all isDigitByte = true) :
    bytes.all isNumeralByte = true := by
  rw [List.all_eq_true] at h ⊢
  intro b hb
  rw [isNumeralByte, h b hb]
  rfl

/-- So are signs. -/
theorem all_isNumeralByte_signed (negative : Bool) {t : Text}
    (h : t.bytes.all isNumeralByte = true) :
    (Text.signed negative t).bytes.all isNumeralByte = true := by
  rw [Text.signed, Text.bytes_append, List.all_append, h]
  cases negative <;> decide

/-- A word made of the bytes of numerals is an integer, if it can be one. -/
theorem classify_of_intWord? {w : Text} (h : w.bytes.all isNumeralByte = true) {n : Int32}
    (hn : intWord? w = some n) : classify w = .literal (.int n) := by
  obtain ⟨ht, hk⟩ := ofName?_of_isNumeralByte h
  rw [classify, ht, hk, hn]
  rfl

/-- Otherwise it is a real, if it can be one. -/
theorem classify_of_ofText? {w : Text} (h : w.bytes.all isNumeralByte = true)
    (hn : intWord? w = none) {x : Single} (hx : Single.ofText? w = some x) :
    classify w = .literal (.real x) := by
  obtain ⟨ht, hk⟩ := ofName?_of_isNumeralByte h
  rw [classify, ht, hk, hn, realWord?, if_pos h, hx]
  rfl

/-- Otherwise it is an identifier. -/
theorem classify_of_ofText?_eq_none {w : Text} (h : w.bytes.all isNumeralByte = true)
    (hn : intWord? w = none) (hx : Single.ofText? w = none) : classify w = .ident w := by
  obtain ⟨ht, hk⟩ := ofName?_of_isNumeralByte h
  refine classify_eq_ident ht hk hn (by rw [realWord?, if_pos h, hx]) ?_
  have hletters : ∀ v : Text, v = "true" ∨ v = "false" → v.bytes.all isNumeralByte = false := by
    rintro v (rfl | rfl) <;> decide
  rw [boolWord?, if_neg, if_neg]
  · intro hw
    rw [hletters w (Or.inr hw)] at h
    cases h
  · intro hw
    rw [hletters w (Or.inl hw)] at h
    cases h

/-- **An integer of 32 bits in decimal is classified as that integer.** -/
theorem classify_ofInt (n : Int32) : classify (.ofInt n.toInt) = .literal (.int n) := by
  have hall : (Text.ofInt n.toInt).bytes.all isNumeralByte = true := by
    rw [Text.ofInt_eq_signed]
    exact all_isNumeralByte_signed _
      (all_isNumeralByte_of_isDigitByte (Text.all_isDigitByte_ofNat n.toInt.natAbs))
  refine classify_of_intWord? hall ?_
  rw [intWord?, Text.integerWithin?_ofInt n.le_toInt n.toInt_lt, Option.map_some,
    Int32.ofInt_toInt]

/-- A number in decimal, if it is small enough, is classified as an integer. -/
theorem classify_ofNat {n : Nat} (h : n < Nat.pow 2 31) :
    classify (.ofNat n) = .literal (.int (.ofInt n)) := by
  have hn := classify_ofInt (.ofInt n)
  rwa [toInt_ofInt_of_lt h] at hn

/-! ### Marked words -/

/-- A word that begins with a mark is an identifier, if the mark begins with a byte that no number
has, and no word with a meaning of its own begins with it. -/
theorem classify_of_startsWith {mark : Text} {b : UInt8} {bs : List UInt8}
    (hm : mark.bytes = b :: bs) (hb : isNumeralByte b = false)
    (ht : ∀ t ∈ ValueType.all, t.name.bytes.take mark.bytes.length ≠ mark.bytes)
    (hk : ∀ p ∈ Keyword.spellings, p.1.bytes.take mark.bytes.length ≠ mark.bytes)
    (hv : ∀ v : Text, v = "true" ∨ v = "false" →
      v.bytes.take mark.bytes.length ≠ mark.bytes)
    (name : Text) : classify (mark ++ name) = .ident (mark ++ name) := by
  have htake : (mark ++ name).bytes.take mark.bytes.length = mark.bytes := by
    rw [Text.bytes_append, List.take_left]
  have hbytes : (mark ++ name).bytes = b :: (bs ++ name.bytes) := by
    rw [Text.bytes_append, hm, List.cons_append]
  have hdigit : isDigitByte b = false := by
    rw [← Bool.not_eq_true]
    intro hd
    rw [isNumeralByte, hd] at hb
    cases hb
  refine classify_eq_ident ?_ ?_ ?_ ?_ ?_
  · rw [ValueType.ofName?, List.find?_eq_none]
    intro t hmem hw
    rw [decide_eq_true_eq] at hw
    exact ht t hmem (by rw [hw, htake])
  · rw [Keyword.ofName?, Option.map_eq_none_iff, List.find?_eq_none]
    intro p hmem hw
    rw [decide_eq_true_eq] at hw
    exact hk p hmem (by rw [hw, htake])
  · have hsign : splitSign (mark ++ name).bytes = (false, (mark ++ name).bytes) := by
      rw [hbytes, splitSign]
      · rintro _ ⟨⟩
        cases hb
      · rintro _ ⟨⟩
        cases hb
    have hnat : (Text.mk (mark ++ name).bytes).natural? = none := by
      rw [Text.natural?, if_pos]
      rw [hbytes, List.all_cons, hdigit]
      rfl
    rw [intWord?, Text.integerWithin?, Text.integer?, hsign]
    dsimp only
    rw [hnat]
    rfl
  · rw [realWord?, if_neg]
    rw [hbytes, List.all_cons, hb, Bool.false_and]
    decide
  · rw [boolWord?, if_neg, if_neg]
    · intro hw
      exact hv _ (Or.inr hw) htake
    · intro hw
      exact hv _ (Or.inl hw) htake

end IntLang
