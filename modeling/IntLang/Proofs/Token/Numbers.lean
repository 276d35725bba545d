import IntLang.Proofs.Single.Grammar
import IntLang.Proofs.Token.Words

/-!
# Which words are numbers

Two readers are tried on a word, one for integers of 32 bits and one for reals, and what neither
takes is an identifier. Both know signs, and the second one knows points, but a word holds neither.
Of what is left of their grammars, an integer is a single run of digits below `2 ^ 31`, and any
other word is a real unless its value rounds to no finite number (`classify_numbers`).

Before a word is read as a real, its bytes are tested. A test of its characters instead, with digits
of any script, would come to the same (`realWord?_eq_ite`).
-/

namespace IntLang

open Single

/-! ### Words of the grammar -/

/-- The words of the grammar are made of the bytes of numerals. -/
theorem Single.Spells.all_isNumeralByte {w : Text} {d k : Nat} (h : Spells w d k) :
    w.bytes.all isNumeralByte = true := by
  cases h with
  | digits hds => exact all_isNumeralByte_of_isDigitByte hds.all_isDigitByte
  | scaled hds hmark hes =>
      obtain ⟨b, hb, hbytes⟩ := exists_byte_of_mark hmark
      have hnumeral : isNumeralByte b = true := by rcases hb with rfl | rfl <;> rfl
      rw [bytes_ofChars_append_cons hbytes, List.all_append, List.all_cons, hnumeral,
        all_isNumeralByte_of_isDigitByte hds.all_isDigitByte,
        all_isNumeralByte_of_isDigitByte hes.all_isDigitByte]
      rfl

/-- A word of the grammar is the real nearest to what it spells. -/
theorem Single.Spells.realWord?_eq {w : Text} {d k : Nat} (h : Spells w d k) :
    realWord? w = nearest? d k := by
  rw [realWord?, if_pos h.all_isNumeralByte, h.ofText?_eq]

/-! ### The characters of numerals -/

/-- Whether a character can occur in a real numeral, with a test for digits of any script. -/
def isNumeralChar (isDigit : Char → Bool) (c : Char) : Bool :=
  isDigit c || ['+', '-', '.', 'e', 'E'].contains c

theorem all_isNumeralByte_of_splitSign {bytes : List UInt8}
    (h : (splitSign bytes).2.all isNumeralByte = true) : bytes.all isNumeralByte = true := by
  unfold splitSign at h
  split at h
  · exact h
  · exact h
  · exact h

theorem all_isNumeralByte_of_exponent? {bytes : List UInt8} {i : Int}
    (h : exponent? bytes = some i) : bytes.all isNumeralByte = true := by
  cases bytes with
  | nil => rfl
  | cons e rest =>
      rw [exponent?] at h
      dsimp only at h
      split at h
      · next hexponent =>
          simp only [Bool.and_eq_true, Bool.or_eq_true, decide_eq_true_eq] at hexponent
          obtain ⟨⟨hmark, -⟩, hdigits⟩ := hexponent
          have hnumeral : isNumeralByte e = true := by rcases hmark with rfl | rfl <;> rfl
          rw [List.all_cons, hnumeral, Bool.true_and]
          exact all_isNumeralByte_of_splitSign (all_isNumeralByte_of_isDigitByte hdigits)
      · cases h

theorem all_isNumeralByte_of_dropWhile {bytes : List UInt8}
    (h : (bytes.dropWhile isDigitByte).all isNumeralByte = true) :
    bytes.all isNumeralByte = true := by
  rw [← List.takeWhile_append_dropWhile (p := isDigitByte) (l := bytes), List.all_append, h,
    all_isNumeralByte_of_isDigitByte List.all_takeWhile]
  rfl

theorem all_isNumeralByte_of_splitFraction {bytes : List UInt8}
    (h : (splitFraction bytes).2.all isNumeralByte = true) : bytes.all isNumeralByte = true := by
  unfold splitFraction at h
  split at h
  · next rest =>
      rw [List.span_eq_takeWhile_dropWhile] at h
      rw [List.all_cons, all_isNumeralByte_of_dropWhile h]
      rfl
  · exact h

/-- A numeral has no other bytes. -/
theorem all_isNumeralByte_of_ofText? {w : Text} {x : Single} (h : ofText? w = some x) :
    w.bytes.all isNumeralByte = true := by
  obtain ⟨y, hy, -⟩ := Option.bind_eq_some_iff.1 h
  rw [numeral?] at hy
  dsimp only at hy
  rw [List.span_eq_takeWhile_dropWhile] at hy
  dsimp only at hy
  split at hy
  · cases hy
  · obtain ⟨i, hexponent, -⟩ := Option.map_eq_some_iff.1 hy
    have hrest := all_isNumeralByte_of_splitFraction (all_isNumeralByte_of_exponent? hexponent)
    exact all_isNumeralByte_of_splitSign (all_isNumeralByte_of_dropWhile hrest)

/-- The character of such a byte passes the test. -/
theorem isNumeralChar_ofNat {isDigit : Char → Bool}
    (hdigit : ∀ c : Char, c.toNat < 0x80 → isDigit c = c.isDigit) {b : UInt8}
    (hb : isNumeralByte b = true) :
    b.toNat < 0x80 ∧ isNumeralChar isDigit (Char.ofNat b.toNat) = true := by
  simp only [isNumeralByte, Bool.or_eq_true, decide_eq_true_eq] at hb
  rcases hb with ((((hb | rfl) | rfl) | rfl) | rfl) | rfl
  · have h30 : (0x30 : UInt8).toNat = 0x30 := rfl
    have h39 : (0x39 : UInt8).toNat = 0x39 := rfl
    have e0 : '0'.toNat = 0x30 := rfl
    have e9 : '9'.toNat = 0x39 := rfl
    simp only [isDigitByte, Bool.and_eq_true, decide_eq_true_eq, UInt8.le_iff_toNat_le] at hb
    have hc : (Char.ofNat b.toNat).toNat = b.toNat := Utf8.toNat_charOfNat (Or.inl (by omega))
    refine ⟨by omega, ?_⟩
    rw [isNumeralChar, hdigit _ (by omega), Char.isDigit_iff_toNat.2 (by omega)]
    rfl
  all_goals exact ⟨by decide, Bool.or_eq_true_iff.2 (Or.inr (by decide))⟩

/-- **The test of characters.** That a word is tested byte by byte, and for digits of ASCII alone,
makes no difference: a test of its characters that takes digits of any script lets through no more
words that spell a number. -/
theorem realWord?_eq_ite {isDigit : Char → Bool}
    (hdigit : ∀ c : Char, c.toNat < 0x80 → isDigit c = c.isDigit) (w : Text) :
    realWord? w = if w.chars.all (isNumeralChar isDigit) then ofText? w else none := by
  rw [realWord?]
  split
  · next hbytes =>
      rw [if_pos]
      rw [List.all_eq_true] at hbytes ⊢
      intro c hc
      obtain ⟨g, hg, rfl⟩ := List.mem_map.1 hc
      obtain ⟨b, hb⟩ := List.exists_mem_of_length_pos (Utf8.length_bytes_pos g)
      have hmem : b ∈ w.bytes := by
        rw [← Text.ofGlyphs_glyphs w]
        exact List.mem_flatMap.2 ⟨g, hg, hb⟩
      obtain ⟨hlt, hchar⟩ := isNumeralChar_ofNat hdigit (hbytes b hmem)
      obtain ⟨before, behind, hglyphs⟩ := List.append_of_mem hg
      have hlegible : Legible [g] :=
        (Legible.glyphs w).of_isInfix ⟨before, behind, by simp [hglyphs]⟩
      have hscalar : Glyph.scalar (Char.ofNat b.toNat) ∈ [g] :=
        mem_of_mem_bytes hlegible hlt (by simpa [Text.ofGlyphs] using hb)
      rw [← List.mem_singleton.1 hscalar]
      exact hchar
  · next hbytes =>
      split
      · cases hx : ofText? w with
        | none => rfl
        | some x => exact absurd (all_isNumeralByte_of_ofText? hx) hbytes
      · rfl

/-! ### Words without a meaning of their own -/

/-- A word without a meaning of its own: neither a type nor a keyword nor a truth value. -/
structure IsFreeWord (w : Text) : Prop where
  /-- It is not empty and holds no separator. -/
  isWord : IsWord w.glyphs
  /-- It is not the name of a type. -/
  type : ∀ t ∈ ValueType.all, t.name ≠ w
  /-- It does not stand for a keyword. -/
  keyword : ∀ p ∈ Keyword.spellings, p.1 ≠ w
  /-- It is not a truth value. -/
  bool : w ≠ "true" ∧ w ≠ "false"

namespace IsFreeWord

variable {w : Text}

/-- It holds no sign and no point. -/
theorem not_mem (h : IsFreeWord w) : 0x2D ∉ w.bytes ∧ 0x2B ∉ w.bytes ∧ 0x2E ∉ w.bytes := by
  have hmem := not_mem_bytes_of_isWord h.isWord (Legible.glyphs w)
  rwa [Text.ofGlyphs_glyphs] at hmem

/-- It is what one of the two readers of numbers takes it for. -/
theorem classify_eq (h : IsFreeWord w) :
    classify w = ((intWord? w).map (Token.literal ∘ Literal.int)
      <|> (realWord? w).map (Token.literal ∘ Literal.real)).getD (.ident w) := by
  have htype : ValueType.ofName? w = none := by
    rw [ValueType.ofName?, List.find?_eq_none]
    intro t ht
    simpa using h.type t ht
  have hkeyword : Keyword.ofName? w = none := by
    rw [Keyword.ofName?, Option.map_eq_none_iff, List.find?_eq_none]
    intro p hp
    simpa using h.keyword p hp
  have hbool : boolWord? w = none := by
    rw [boolWord?, if_neg h.bool.1, if_neg h.bool.2]
  rw [classify, htype, hkeyword, hbool]
  cases intWord? w <;> cases realWord? w <;> rfl

theorem classify_eq_int_iff (h : IsFreeWord w) {v : Int32} :
    classify w = .literal (.int v) ↔ intWord? w = some v := by
  rw [h.classify_eq]
  cases intWord? w <;> cases realWord? w <;> simp

theorem classify_eq_real_iff (h : IsFreeWord w) {x : Single} :
    classify w = .literal (.real x) ↔ intWord? w = none ∧ realWord? w = some x := by
  rw [h.classify_eq]
  cases intWord? w <;> cases realWord? w <;> simp

theorem classify_eq_ident (h : IsFreeWord w) (hint : intWord? w = none)
    (hreal : realWord? w = none) : classify w = .ident w := by
  rw [h.classify_eq, hint, hreal]
  rfl

/-- Where it is a real, it is of the grammar. -/
theorem exists_spells (h : IsFreeWord w) {x : Single} (hx : realWord? w = some x) :
    ∃ d k, Spells w d k := by
  obtain ⟨hm, hp, hd⟩ := h.not_mem
  rw [realWord?] at hx
  split_ifs at hx
  obtain ⟨y, hy, -⟩ := Option.bind_eq_some_iff.1 hx
  exact exists_spells_of_numeral? hm hp hd hy

end IsFreeWord

/-- **Which words are numbers.** Of the words without a meaning of their own, exactly the runs of
digits below `2 ^ 31` are integers. Of the others, those of the grammar are reals whose value is
less than halfway from the greatest finite number to `2 ^ 128`, and they are the nearest real. All
the rest are identifiers. Every integer of 32 bits is recognised by its decimal text, even behind
a minus sign, which no word holds. -/
theorem classify_numbers :
    (∀ w, IsFreeWord w →
      (∀ v : Int32, classify w = .literal (.int v) ↔
        ∃ ds, IsDigits ds ∧ w = .ofChars ds ∧ Nat.ofDigitChars 10 ds 0 < 2 ^ 31 ∧
          v.toInt = Nat.ofDigitChars 10 ds 0) ∧
      ((∀ v, classify w ≠ .literal (.int v)) →
        ((∃ x, classify w = .literal (.real x)) ↔
          ∃ d k, Spells w d k ∧ d * 10 ^ k < 2 ^ 128 - 2 ^ 103)) ∧
      (∀ x d k, classify w = .literal (.real x) → Spells w d k →
        IsRounded x ((d * 10 ^ k : Nat) : ℚ)) ∧
      ((∀ v, classify w ≠ .literal (.int v)) → (∀ x, classify w ≠ .literal (.real x)) →
        classify w = .ident w)) ∧
    ∀ v : Int32, classify (.ofInt v.toInt) = .literal (.int v) := by
  refine ⟨fun w hw => ?_, classify_ofInt⟩
  have hfinite (d k : Nat) : (∃ x, nearest? d k = some x) ↔ d * 10 ^ k < 2 ^ 128 - 2 ^ 103 := by
    rw [← Option.ne_none_iff_exists', ne_eq, nearest?_eq_none_iff, not_le]
  have hint (hnot : ∀ v, classify w ≠ .literal (.int v)) : intWord? w = none :=
    Option.eq_none_iff_forall_ne_some.2 fun v hv => hnot v (hw.classify_eq_int_iff.2 hv)
  refine ⟨fun v => ?_, fun hnot => ⟨?_, ?_⟩, fun x d k hx hspells => ?_, fun hnot hnot' => ?_⟩
  · obtain ⟨hminus, hplus, -⟩ := hw.not_mem
    rw [hw.classify_eq_int_iff, intWord?_eq_some_iff hminus hplus]
    constructor
    · rintro ⟨ds, hds, hspelled, hv⟩
      have hlt := v.toInt_lt
      exact ⟨ds, hds, hspelled, by omega, hv⟩
    · rintro ⟨ds, hds, hspelled, -, hv⟩
      exact ⟨ds, hds, hspelled, hv⟩
  · rintro ⟨x, hx⟩
    obtain ⟨-, hx⟩ := hw.classify_eq_real_iff.1 hx
    obtain ⟨d, k, hspells⟩ := hw.exists_spells hx
    exact ⟨d, k, hspells, (hfinite d k).1 ⟨x, hspells.realWord?_eq.symm.trans hx⟩⟩
  · rintro ⟨d, k, hspells, hlt⟩
    obtain ⟨x, hx⟩ := (hfinite d k).2 hlt
    exact ⟨x, hw.classify_eq_real_iff.2 ⟨hint hnot, hspells.realWord?_eq.trans hx⟩⟩
  · obtain ⟨-, hx⟩ := hw.classify_eq_real_iff.1 hx
    exact isRounded_of_nearest? (hspells.realWord?_eq.symm.trans hx)
  · refine hw.classify_eq_ident (hint hnot) (Option.eq_none_iff_forall_ne_some.2 fun x hx => ?_)
    exact hnot' x (hw.classify_eq_real_iff.2 ⟨hint hnot, hx⟩)

/-- The integers of 32 bits end at `2 ^ 31 - 1`, and the next number is a real. -/
theorem classify_numbers_two_pow_31 :
    IsFreeWord "2147483647" ∧ classify "2147483647" = .literal (.int 2147483647) ∧
    IsFreeWord "2147483648" ∧ ∃ x, classify "2147483648" = .literal (.real x) ∧
      IsRounded x ((2147483648 * 10 ^ 0 : Nat) : ℚ) := by
  have hlast : IsFreeWord "2147483647" :=
    ⟨⟨by decide, by decide⟩, by decide, by decide, by decide⟩
  have hnext : IsFreeWord "2147483648" :=
    ⟨⟨by decide, by decide⟩, by decide, by decide, by decide⟩
  have hlast' : IsDigits "2147483647".toList := ⟨by decide, List.all_eq_true.1 rfl⟩
  have hnext' : IsDigits "2147483648".toList := ⟨by decide, List.all_eq_true.1 rfl⟩
  have hspells : Spells "2147483648" 2147483648 0 := .digits hnext'
  have hnot : ∀ v, classify "2147483648" ≠ .literal (.int v) := by
    intro v hv
    have heval : classify "2147483648" = .literal (.real ⟨0x4F000000⟩) := by decide +kernel
    rw [heval] at hv
    cases hv
  obtain ⟨x, hx⟩ := ((classify_numbers.1 _ hnext).2.1 hnot).2 ⟨_, _, hspells, by decide⟩
  exact ⟨hlast, ((classify_numbers.1 _ hlast).1 _).2 ⟨_, hlast', rfl, by decide, rfl⟩, hnext, x, hx,
    (classify_numbers.1 _ hnext).2.2.1 x _ _ hx hspells⟩

end IntLang
