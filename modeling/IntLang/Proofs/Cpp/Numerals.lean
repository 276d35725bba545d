import IntLang.Proofs.Cpp.Spelling
import IntLang.Proofs.Single.ReadBack

/-!
# Numerals that are written and read again

The text of a token says only what its value is. An integer is written in decimal and comes back as
the same integer. A real is written with the fewest digits, and its text still spells the same real;
but if the real has no fraction and no more than `2 ^ 31` is its magnitude, no point is written and
the text is in the range of the integers, so it is classified as one (`classify_token_numeral`).

A numeral with a point is three tokens: the digits on both sides are read and written each on their
own. What stands behind the point is so treated like a number before it, its zeros in front are
dropped, and it is rounded if it does not fit into 32 bits (`tokens_tokenize_point`).
-/

namespace IntLang

/-! ### Reals as words -/

namespace Single

variable {x : Single}

/-- Whether a number has no fraction and lies where the integers of 32 bits do. -/
def InIntRange (x : Single) : Prop := ∃ n : Nat, n ≤ 2 ^ 31 ∧ x.magnitude = n

/-- A finite number is written with the bytes of numerals. -/
theorem all_isNumeralByte_text (hx : x.isSpecial = false) :
    x.text.bytes.all isNumeralByte = true := by
  obtain ⟨ds, fs, hpos, hplaces⟩ := positional_eq_pointed x.written.1 x.written.2
  have hdigits {cs : List Char} (h : ∀ c ∈ cs, c ∈ ds ++ fs) :
      (Text.ofChars cs).bytes.all isNumeralByte = true :=
    all_isNumeralByte_of_isDigitByte
      (all_isDigitByte_ofChars fun c hc => hplaces.isDigit c (h c hc))
  have hds := hdigits fun c => List.mem_append_left fs
  have hfs := hdigits fun c => List.mem_append_right ds
  have hpoint : (Text.ofChars ['.']).bytes.all isNumeralByte = true := by decide
  rw [text_eq_signed hx, hpos, pointed]
  refine all_isNumeralByte_signed _ ?_
  split_ifs
  · exact hds
  · rw [Text.ofChars_append, ← List.singleton_append, Text.ofChars_append, Text.bytes_append,
      Text.bytes_append, List.all_append, List.all_append, hds, hpoint, hfs]
    rfl

/-- The text of a number without a fraction, as an integer. -/
theorem integer?_text (hx : x.isSpecial = false) (hk : 0 ≤ x.written.2) :
    x.text.integer? = some (if x.isNegative then -(x.writtenNat : Int) else x.writtenNat) := by
  rw [text_eq_signed_ofNat hx hk, Text.integer?_signed_ofNat]

/-- **A number in the range of the integers is written as one.** -/
theorem classify_text_of_inIntRange (hx : x.isSpecial = false) (h : x.InIntRange) :
    ∃ n : Int32, classify x.text = .literal (.int n) ∧ x.text.integer? = some n.toInt := by
  obtain ⟨n, hn, hmagnitude⟩ := h
  have hk := (written_nonneg_iff hx).2 ⟨n, hmagnitude⟩
  have hlt : x.writtenNat < 2 ^ 31 := by
    refine (writtenNat_bounds hx hk).1 ?_
    rw [hmagnitude]
    exact_mod_cast hn
  have hinteger := integer?_text hx hk
  generalize hi : (if x.isNegative then -(x.writtenNat : Int) else x.writtenNat) = i at hinteger
  have hrange : -2147483648 ≤ i ∧ i < 2147483648 := by
    rw [← hi]
    split_ifs <;> omega
  refine ⟨.ofInt i, classify_of_intWord? (all_isNumeralByte_text hx) ?_, ?_⟩
  · rw [intWord?_of_integer? hinteger, if_pos hrange]
  · rw [hinteger, Int32.toInt_ofInt_of_le hrange.1 hrange.2]

/-- **Any other finite number is written as a real.** -/
theorem classify_text_of_not_inIntRange (hx : x.isSpecial = false) (h : ¬ x.InIntRange) :
    classify x.text = .literal (.real x) := by
  refine classify_of_ofText? (all_isNumeralByte_text hx) ?_ (ofText?_text hx)
  rcases lt_or_ge x.written.2 0 with hk | hk
  · -- The point in the text is no digit.
    rw [intWord?, Text.integerWithin?, Text.integer?_eq_none_of_mem (point_mem_text hx hk)
      (by decide) (by decide) (by decide)]
    rfl
  · obtain ⟨n, hn⟩ := (written_nonneg_iff hx).1 hk
    have hgt : 2 ^ 31 < x.writtenNat := by
      refine (writtenNat_bounds hx hk).2 ?_
      rw [← not_le]
      intro hle
      rw [hn] at hle
      exact h ⟨n, by exact_mod_cast hle, hn⟩
    rw [intWord?_of_integer? (integer?_text hx hk), if_neg]
    split_ifs <;> omega

end Single

/-! ### Numerals that come back -/

/-- **What comes of a numeral that is written and read again.** An integer comes back as itself. The
text of a real always spells the same real, and it comes back as that real exactly if it is not in
the range of the integers; if it is, the integer that its text spells comes back. -/
theorem classify_token_numeral (w : Text) :
    (∀ n, classify w = .literal (.int n) → classify (Cpp.token (classify w)) = classify w) ∧
    (∀ x, classify w = .literal (.real x) →
      Single.ofText? (Cpp.token (classify w)) = some x ∧
      (classify (Cpp.token (classify w)) = classify w ↔ ¬ x.InIntRange) ∧
      (x.InIntRange → ∃ n, classify (Cpp.token (classify w)) = .literal (.int n) ∧
        (Cpp.token (classify w)).integer? = some n.toInt)) := by
  constructor
  · intro n hw
    rw [hw]
    exact classify_ofInt n
  · intro x hw
    have hx : x.isSpecial = false := by
      rcases classify_cases w with ⟨t, -, h⟩ | ⟨k, -, h⟩ | ⟨n, -, h⟩ | ⟨y, hy, h⟩ | ⟨b, -, h⟩ | h
      all_goals rw [h] at hw
      all_goals cases hw
      rw [realWord?] at hy
      split_ifs at hy
      exact Single.isSpecial_of_ofText? hy
    have htoken : Cpp.token (.literal (.real x)) = x.text := rfl
    rw [hw, htoken]
    refine ⟨Single.ofText?_text hx, ⟨?_, Single.classify_text_of_not_inIntRange hx⟩,
      Single.classify_text_of_inIntRange hx⟩
    intro heq hrange
    obtain ⟨n, hn, -⟩ := Single.classify_text_of_inIntRange hx hrange
    rw [hn] at heq
    cases heq

/-- Three billion is beyond the integers, and comes back as a real. -/
theorem classify_token_three_billion :
    classify "3e9" = .literal (.real ⟨0x4F32D05E⟩) ∧
      classify (Cpp.token (classify "3e9")) = classify "3e9" := by
  have hw : classify "3e9" = .literal (.real ⟨0x4F32D05E⟩) := by decide +kernel
  refine ⟨hw, ((classify_token_numeral "3e9").2 _ hw).2.1.2 ?_⟩
  rintro ⟨n, hn, hmagnitude⟩
  have hmantissa : Single.mantissa ⟨0x4F32D05E⟩ = 11718750 := by decide
  have hexponent : Single.exponent ⟨0x4F32D05E⟩ = 8 := by decide
  rw [Single.magnitude, hmantissa, hexponent] at hmagnitude
  have hvalue : (n : ℚ) = 3000000000 := by
    rw [← hmagnitude]
    norm_num
  have hvalue' : n = 3000000000 := by exact_mod_cast hvalue
  omega

/-- A thousand is a real if it is spelled as one, but an integer comes back. -/
theorem classify_token_thousand :
    classify "1e3" = .literal (.real ⟨0x447A0000⟩) ∧
      classify (Cpp.token (classify "1e3")) = .literal (.int 1000) := by
  decide +kernel

/-! ### Digits around a point -/

theorem isWord_of_isDigit {cs : List Char} (hne : cs ≠ []) (h : ∀ c ∈ cs, c.isDigit = true) :
    IsWord (cs.map Glyph.scalar) := by
  have hcs := isCharWord_of_isDigit hne h
  simp only [isCharWord, Bool.and_eq_true, Bool.not_eq_true', List.all_eq_true] at hcs
  refine ⟨by simpa using hne, ?_⟩
  simpa using hcs.2

/-- A numeral with a point is cut at it. -/
theorem tokenize_point {ds fs : List Char} (hds : ds ≠ []) (hfs : fs ≠ [])
    (hd : ∀ c ∈ ds, c.isDigit = true) (hf : ∀ c ∈ fs, c.isDigit = true) :
    tokenize (.ofChars (ds ++ '.' :: fs))
      = [classify (.ofChars ds), .operator .dot, classify (.ofChars fs)] := by
  have hfraction : Mode.normal.read (fs.map .scalar) = (.normal, [classify (.ofChars fs)]) := by
    have h := Mode.read_normal_word (isWord_of_isDigit hfs hf) endsWord_nil
    rwa [List.append_nil, Mode.read_nil, ofGlyphs_map_scalar] at h
  rw [tokenize, lex, Text.glyphs_ofChars, List.map_append, List.map_cons, ← Mode.read,
    Mode.read_normal_word (isWord_of_isDigit hds hd) (endsWord_cons (by decide) _),
    ofGlyphs_map_scalar, Mode.read_normal_operator (o := .dot) rfl (by decide) (by decide),
    hfraction]

/-- What digits are written as: as the number they spell, if that is an integer of 32 bits. Longer
ones are rounded to a real, and those for which there is none are taken for an identifier. -/
def rewritten (cs : List Char) : Text :=
  if Nat.ofDigitChars 10 cs 0 < 2 ^ 31 then .ofNat (Nat.ofDigitChars 10 cs 0)
  else ((Single.ofText? (.ofChars cs)).map Single.text).getD (Cpp.ident (.ofChars cs))

/-- Digits are read and written so. -/
theorem token_classify_of_isDigit {cs : List Char} (hne : cs ≠ [])
    (h : ∀ c ∈ cs, c.isDigit = true) :
    Cpp.token (classify (.ofChars cs)) = rewritten cs := by
  have hall := all_isNumeralByte_of_isDigitByte (all_isDigitByte_ofChars h)
  have hinteger : (Text.ofChars cs).integer? = some (Nat.ofDigitChars 10 cs 0 : Int) :=
    Text.integer?_signed_ofChars false hne h
  have hword := intWord?_of_integer? hinteger
  have hrange : (-2147483648 ≤ (Nat.ofDigitChars 10 cs 0 : Int) ∧
      (Nat.ofDigitChars 10 cs 0 : Int) < 2147483648) ↔ Nat.ofDigitChars 10 cs 0 < 2 ^ 31 := by
    omega
  rw [rewritten]
  split_ifs with hlt
  · rw [if_pos (hrange.2 hlt)] at hword
    rw [classify_of_intWord? hall hword]
    show Text.ofInt (Int32.ofInt _).toInt = _
    rw [toInt_ofInt_of_lt hlt]
    rfl
  · rw [if_neg (mt hrange.1 hlt)] at hword
    cases hx : Single.ofText? (.ofChars cs) with
    | some x =>
        rw [classify_of_ofText? hall hword hx]
        rfl
    | none =>
        rw [classify_of_ofText?_eq_none hall hword hx]
        rfl

/-- An identifier is not written as it is read. -/
theorem ident_ne (t : Text) : Cpp.ident t ≠ t := by
  intro h
  have hlength := congrArg (fun u : Text => u.bytes.length) h
  have hmark : Cpp.identMark.bytes.length = 5 := by decide
  simp only [Cpp.ident, Text.bytes_append, List.length_append, hmark] at hlength
  omega

/-- **Digits are written as they are read** if they have no zero to spare and fit into 32 bits, or
else if they are the digits that a real is written with. -/
theorem rewritten_eq_iff {cs : List Char} (hne : cs ≠ []) (h : ∀ c ∈ cs, c.isDigit = true) :
    rewritten cs = .ofChars cs ↔
      if Nat.ofDigitChars 10 cs 0 < 2 ^ 31 then hasSpareZero cs = false
      else ∃ x, Single.ofText? (.ofChars cs) = some x ∧ x.text = .ofChars cs := by
  rw [rewritten]
  split_ifs with hlt
  · rw [Text.ofNat, Text.ofChars_inj, toDigits_ofDigitChars_iff hne h]
  · cases hx : Single.ofText? (.ofChars cs) with
    | some x => simp
    | none => simpa using ident_ne (.ofChars cs)

/-- **What a numeral with a point is written as.** The digits before the point, if they are a number
below `2 ^ 31` without a zero to spare, are kept, and those behind it are treated like a number of
their own. So the numeral is written as it is read exactly if they are. -/
theorem tokens_tokenize_point {ds fs : List Char} (hds : ds ≠ []) (hfs : fs ≠ [])
    (hd : ∀ c ∈ ds, c.isDigit = true) (hf : ∀ c ∈ fs, c.isDigit = true)
    (hspare : hasSpareZero ds = false) (hlt : Nat.ofDigitChars 10 ds 0 < 2 ^ 31) :
    Cpp.tokens (tokenize (.ofChars (ds ++ '.' :: fs))) = .ofChars (ds ++ ['.']) ++ rewritten fs ∧
    (Cpp.tokens (tokenize (.ofChars (ds ++ '.' :: fs))) = .ofChars (ds ++ '.' :: fs) ↔
      if Nat.ofDigitChars 10 fs 0 < 2 ^ 31 then hasSpareZero fs = false
      else ∃ x, Single.ofText? (.ofChars fs) = some x ∧ x.text = .ofChars fs) := by
  have hwhole : Cpp.token (classify (.ofChars ds)) = .ofChars ds := by
    rw [token_classify_of_isDigit hds hd, rewritten_eq_iff hds hd, if_pos hlt]
    exact hspare
  have htokens : Cpp.tokens (tokenize (.ofChars (ds ++ '.' :: fs)))
      = .ofChars (ds ++ ['.']) ++ rewritten fs := by
    rw [tokenize_point hds hfs hd hf, Text.ofChars_append, Text.append_assoc]
    show Cpp.token (classify (.ofChars ds)) ++ (.ofChars ['.'] ++
      (Cpp.token (classify (.ofChars fs)) ++ .empty)) = _
    rw [hwhole, Text.append_empty, token_classify_of_isDigit hfs hf]
  refine ⟨htokens, ?_⟩
  have hsplit : Text.ofChars (ds ++ '.' :: fs) = .ofChars (ds ++ ['.']) ++ .ofChars fs := by
    rw [← Text.ofChars_append, List.append_assoc]
    rfl
  rw [htokens, ← rewritten_eq_iff hfs hf, hsplit]
  constructor
  · intro h
    exact Text.ext (List.append_cancel_left (congrArg Text.bytes h))
  · intro h
    rw [h]

/-- A fraction that is too long for an integer is kept if it is what a real is written with. -/
theorem tokens_tokenize_long_fraction :
    hasSpareZero "0".toList = false ∧
      Cpp.tokens (tokenize "0.3000000000") = "0.3000000000" := by
  have hd : ∀ c ∈ "0".toList, c.isDigit = true := List.all_eq_true.1 rfl
  have hf : ∀ c ∈ "3000000000".toList, c.isDigit = true := List.all_eq_true.1 rfl
  refine ⟨rfl, (tokens_tokenize_point (by decide) (by decide) hd hf rfl (by decide)).2.2 ?_⟩
  rw [if_neg (by decide)]
  exact ⟨⟨0x4F32D05E⟩, by decide +kernel, by decide +kernel⟩

/-- A zero right behind the point is lost, and with it the value of the numeral. -/
theorem tokens_tokenize_lost_zero : Cpp.tokens (tokenize "1.05") = "1.5" := by
  decide +kernel

end IntLang
