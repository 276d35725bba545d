import IntLang.Text.Utf8

/-!
# Bytes and glyphs

Reading and writing UTF-8 fit together. A byte list begins with a well-formed character exactly if
it begins with the bytes of that character (`Utf8.first_eq_scalar_iff`). So nothing is lost in
reading (`Text.ofGlyphs_glyphs`), and what was written as characters is read as those characters
(`Text.glyphs_ofChars`).
-/

namespace IntLang

/-! ### Single bytes and numbers -/

namespace Utf8

/-- A byte is determined by its number. -/
theorem ofNat_eq_of_eq_toNat {n : Nat} {b : UInt8} (h : n = b.toNat) : UInt8.ofNat n = b := by
  subst h
  exact UInt8.ofNat_toNat

/-- The number of a byte that was made from a small number. -/
theorem toNat_ofNat_of_lt {n : Nat} (h : n < 256) : (UInt8.ofNat n).toNat = n := by
  simpa using h

/-- The number of a character that was made from a valid number. -/
theorem toNat_charOfNat {n : Nat} (h : n.isValidChar) : (Char.ofNat n).toNat = n := by
  rw [Char.ofNat, dif_pos h]
  rfl

/-- A character with a given number. -/
theorem charOfNat_eq {n : Nat} {c : Char} (h : n = c.toNat) : Char.ofNat n = c := by
  subst h
  exact Char.ofNat_toNat c

/-- The numbers of characters leave the surrogates out. -/
theorem toNat_valid (c : Char) :
    c.toNat < 0xD800 ∨ 0xDFFF < c.toNat ∧ c.toNat < 0x110000 := c.valid

/-- Bytes that continue a character, by number. -/
theorem isTail_iff {b : UInt8} : isTail b = true ↔ 0x80 ≤ b.toNat ∧ b.toNat ≤ 0xBF := by
  simp [isTail, UInt8.le_iff_toNat_le]

end Utf8

/-! ### The bytes of a character, by the size of its number -/

namespace Text

theorem encodeChar_of_lt {c : Char} (h : c.toNat < 0x80) :
    encodeChar c = [.ofNat c.toNat] := by
  unfold encodeChar
  rw [if_pos h]

theorem encodeChar_of_two {c : Char} (h : 0x80 ≤ c.toNat) (h' : c.toNat < 0x800) :
    encodeChar c = [.ofNat (0xC0 + c.toNat / 64), .ofNat (0x80 + c.toNat % 64)] := by
  unfold encodeChar
  rw [if_neg (by omega), if_pos h']

theorem encodeChar_of_three {c : Char} (h : 0x800 ≤ c.toNat) (h' : c.toNat < 0x10000) :
    encodeChar c = [.ofNat (0xE0 + c.toNat / 4096), .ofNat (0x80 + c.toNat / 64 % 64),
      .ofNat (0x80 + c.toNat % 64)] := by
  unfold encodeChar
  rw [if_neg (by omega), if_neg (by omega), if_pos h']

theorem encodeChar_of_four {c : Char} (h : 0x10000 ≤ c.toNat) :
    encodeChar c = [.ofNat (0xF0 + c.toNat / 262144), .ofNat (0x80 + c.toNat / 4096 % 64),
      .ofNat (0x80 + c.toNat / 64 % 64), .ofNat (0x80 + c.toNat % 64)] := by
  unfold encodeChar
  rw [if_neg (by omega), if_neg (by omega), if_neg (by omega)]

/-- A character has at least one byte. -/
theorem encodeChar_ne_nil (c : Char) : encodeChar c ≠ [] := by
  unfold encodeChar
  dsimp only
  split
  · simp
  · split
    · simp
    · split <;> simp

end Text

/-! ### Reading one character -/

namespace Utf8

open Text (encodeChar encodeChar_of_lt encodeChar_of_two encodeChar_of_three encodeChar_of_four)

/-- Two bytes read as a character are the bytes of that character, and the other way round. -/
theorem two?_eq_some_iff {a b : UInt8} {c : Char} :
    two? a b = some c ↔ encodeChar c = [a, b] := by
  unfold two?
  constructor
  · intro h
    split at h
    · rename_i g
      simp only [Bool.and_eq_true, decide_eq_true_eq, UInt8.le_iff_toNat_le, isTail_iff] at g
      have hc : c.toNat = a.toNat % 32 * 64 + tailBits b := by
        rw [← Option.some.inj h]
        exact toNat_charOfNat (by left; unfold tailBits; omega)
      have ha : (0xC2 : UInt8).toNat = 0xC2 := rfl
      have ha' : (0xDF : UInt8).toNat = 0xDF := rfl
      unfold tailBits at hc
      rw [encodeChar_of_two (by omega) (by omega),
        ofNat_eq_of_eq_toNat (b := a) (by omega), ofNat_eq_of_eq_toNat (b := b) (by omega)]
    · cases h
  · intro h
    have hv := toNat_valid c
    rcases Nat.lt_or_ge c.toNat 0x80 with h1 | h1
    · rw [encodeChar_of_lt h1] at h
      simp at h
    rcases Nat.lt_or_ge c.toNat 0x800 with h2 | h2
    · rw [encodeChar_of_two h1 h2] at h
      simp only [List.cons.injEq, and_true] at h
      have ha : a.toNat = 0xC0 + c.toNat / 64 := by
        rw [← h.1]; exact toNat_ofNat_of_lt (by omega)
      have hb : b.toNat = 0x80 + c.toNat % 64 := by
        rw [← h.2]; exact toNat_ofNat_of_lt (by omega)
      rw [if_pos]
      · exact congrArg some (charOfNat_eq (by unfold tailBits; omega))
      · simp only [Bool.and_eq_true, decide_eq_true_eq, UInt8.le_iff_toNat_le, isTail_iff]
        have h3 : (0xC2 : UInt8).toNat = 0xC2 := rfl
        have h4 : (0xDF : UInt8).toNat = 0xDF := rfl
        omega
    rcases Nat.lt_or_ge c.toNat 0x10000 with h3 | h3
    · rw [encodeChar_of_three h2 h3] at h
      simp at h
    · rw [encodeChar_of_four h3] at h
      simp at h

/-- Three bytes read as a character are the bytes of that character, and the other way round. -/
theorem three?_eq_some_iff {a b d : UInt8} {c : Char} :
    three? a b d = some c ↔ encodeChar c = [a, b, d] := by
  unfold three?
  have h5 : (0xE0 : UInt8).toNat = 0xE0 := rfl
  have h6 : (0xEF : UInt8).toNat = 0xEF := rfl
  constructor
  · intro h
    dsimp only at h
    split at h
    · rename_i g
      simp only [Bool.and_eq_true, Bool.not_eq_true', Bool.and_eq_false_iff, decide_eq_true_eq,
        decide_eq_false_iff_not, UInt8.le_iff_toNat_le, isTail_iff] at g
      have hc : c.toNat = a.toNat % 16 * 4096 + tailBits b * 64 + tailBits d := by
        rw [← Option.some.inj h]
        refine toNat_charOfNat ?_
        unfold tailBits at g ⊢
        rcases g.2 with g | g
        · left; omega
        · right; omega
      unfold tailBits at hc g
      rw [encodeChar_of_three (by omega) (by omega), ofNat_eq_of_eq_toNat (b := a) (by omega),
        ofNat_eq_of_eq_toNat (b := b) (by omega), ofNat_eq_of_eq_toNat (b := d) (by omega)]
    · cases h
  · intro h
    have hv := toNat_valid c
    rcases Nat.lt_or_ge c.toNat 0x80 with h1 | h1
    · rw [encodeChar_of_lt h1] at h
      simp at h
    rcases Nat.lt_or_ge c.toNat 0x800 with h2 | h2
    · rw [encodeChar_of_two h1 h2] at h
      simp at h
    rcases Nat.lt_or_ge c.toNat 0x10000 with h3 | h3
    · rw [encodeChar_of_three h2 h3] at h
      simp only [List.cons.injEq, and_true] at h
      have ha : a.toNat = 0xE0 + c.toNat / 4096 := by
        rw [← h.1]; exact toNat_ofNat_of_lt (by omega)
      have hb : b.toNat = 0x80 + c.toNat / 64 % 64 := by
        rw [← h.2.1]; exact toNat_ofNat_of_lt (by omega)
      have hd : d.toNat = 0x80 + c.toNat % 64 := by
        rw [← h.2.2]; exact toNat_ofNat_of_lt (by omega)
      have hc : a.toNat % 16 * 4096 + tailBits b * 64 + tailBits d = c.toNat := by
        unfold tailBits; omega
      dsimp only
      rw [hc, if_pos]
      · exact congrArg some (Char.ofNat_toNat c)
      · simp only [Bool.and_eq_true, Bool.not_eq_true', Bool.and_eq_false_iff, decide_eq_true_eq,
          decide_eq_false_iff_not, UInt8.le_iff_toNat_le, isTail_iff]
        omega
    · rw [encodeChar_of_four h3] at h
      simp at h

/-- Four bytes read as a character are the bytes of that character, and the other way round. -/
theorem four?_eq_some_iff {a b d e : UInt8} {c : Char} :
    four? a b d e = some c ↔ encodeChar c = [a, b, d, e] := by
  unfold four?
  have h5 : (0xF0 : UInt8).toNat = 0xF0 := rfl
  have h6 : (0xF4 : UInt8).toNat = 0xF4 := rfl
  constructor
  · intro h
    dsimp only at h
    split at h
    · rename_i g
      simp only [Bool.and_eq_true, decide_eq_true_eq, UInt8.le_iff_toNat_le, isTail_iff] at g
      have hc : c.toNat
          = a.toNat % 8 * 262144 + tailBits b * 4096 + tailBits d * 64 + tailBits e := by
        rw [← Option.some.inj h]
        refine toNat_charOfNat ?_
        unfold tailBits at g ⊢
        right; omega
      unfold tailBits at hc g
      rw [encodeChar_of_four (by omega), ofNat_eq_of_eq_toNat (b := a) (by omega),
        ofNat_eq_of_eq_toNat (b := b) (by omega), ofNat_eq_of_eq_toNat (b := d) (by omega),
        ofNat_eq_of_eq_toNat (b := e) (by omega)]
    · cases h
  · intro h
    have hv := toNat_valid c
    rcases Nat.lt_or_ge c.toNat 0x80 with h1 | h1
    · rw [encodeChar_of_lt h1] at h
      simp at h
    rcases Nat.lt_or_ge c.toNat 0x800 with h2 | h2
    · rw [encodeChar_of_two h1 h2] at h
      simp at h
    rcases Nat.lt_or_ge c.toNat 0x10000 with h3 | h3
    · rw [encodeChar_of_three h2 h3] at h
      simp at h
    · rw [encodeChar_of_four h3] at h
      simp only [List.cons.injEq, and_true] at h
      have ha : a.toNat = 0xF0 + c.toNat / 262144 := by
        rw [← h.1]; exact toNat_ofNat_of_lt (by omega)
      have hb : b.toNat = 0x80 + c.toNat / 4096 % 64 := by
        rw [← h.2.1]; exact toNat_ofNat_of_lt (by omega)
      have hd : d.toNat = 0x80 + c.toNat / 64 % 64 := by
        rw [← h.2.2.1]; exact toNat_ofNat_of_lt (by omega)
      have he : e.toNat = 0x80 + c.toNat % 64 := by
        rw [← h.2.2.2]; exact toNat_ofNat_of_lt (by omega)
      have hc : a.toNat % 8 * 262144 + tailBits b * 4096 + tailBits d * 64 + tailBits e
          = c.toNat := by
        unfold tailBits; omega
      dsimp only
      rw [hc, if_pos]
      · exact congrArg some (Char.ofNat_toNat c)
      · simp only [Bool.and_eq_true, decide_eq_true_eq, UInt8.le_iff_toNat_le, isTail_iff]
        omega

/-- A leading byte of three or four bytes is none of two. -/
theorem two?_eq_none {a b : UInt8} (h : 0xE0 ≤ a.toNat) : two? a b = none := by
  unfold two?
  rw [if_neg]
  have h1 : (0xDF : UInt8).toNat = 0xDF := rfl
  simp only [Bool.and_eq_true, decide_eq_true_eq, UInt8.le_iff_toNat_le]
  omega

/-- A leading byte of four bytes is none of three. -/
theorem three?_eq_none {a b d : UInt8} (h : 0xF0 ≤ a.toNat) : three? a b d = none := by
  unfold three?
  dsimp only
  rw [if_neg]
  have h1 : (0xEF : UInt8).toNat = 0xEF := rfl
  simp only [Bool.and_eq_true, decide_eq_true_eq, UInt8.le_iff_toNat_le]
  omega

/-- What is read as a character of several bytes begins with the bytes of that character. -/
theorem encodeChar_prefix_of_wide? {a : UInt8} {rest : List UInt8} {c : Char}
    (h : wide? a rest = some c) : encodeChar c <+: a :: rest := by
  match rest with
  | [] => cases h
  | [b] => exact ⟨[], by simp [two?_eq_some_iff.1 h]⟩
  | [b, d] =>
    simp only [wide?, Option.or_eq_some_iff] at h
    rcases h with h | ⟨_, h⟩
    · exact ⟨[d], by simp [two?_eq_some_iff.1 h]⟩
    · exact ⟨[], by simp [three?_eq_some_iff.1 h]⟩
  | b :: d :: e :: behind =>
    simp only [wide?, Option.or_eq_some_iff] at h
    rcases h with h | ⟨_, h | ⟨_, h⟩⟩
    · exact ⟨d :: e :: behind, by simp [two?_eq_some_iff.1 h]⟩
    · exact ⟨e :: behind, by simp [three?_eq_some_iff.1 h]⟩
    · exact ⟨behind, by simp [four?_eq_some_iff.1 h]⟩

/-- Two bytes that are a character are read as that, whatever follows. -/
theorem wide?_of_two? {a b : UInt8} {c : Char} (h : two? a b = some c) (behind : List UInt8) :
    wide? a (b :: behind) = some c := by
  match behind with
  | [] => exact h
  | [_] => simp [wide?, h]
  | _ :: _ :: _ => simp [wide?, h]

/-- Three bytes that are a character are read as that, whatever follows. -/
theorem wide?_of_three? {a b d : UInt8} {c : Char} (ha : 0xE0 ≤ a.toNat)
    (h : three? a b d = some c) (behind : List UInt8) :
    wide? a (b :: d :: behind) = some c := by
  match behind with
  | [] => simp [wide?, h, two?_eq_none ha]
  | _ :: _ => simp [wide?, h, two?_eq_none ha]

/-- Four bytes that are a character are read as that, whatever follows. -/
theorem wide?_of_four? {a b d e : UInt8} {c : Char} (ha : 0xF0 ≤ a.toNat)
    (h : four? a b d e = some c) (behind : List UInt8) :
    wide? a (b :: d :: e :: behind) = some c := by
  simp [wide?, h, two?_eq_none (a := a) (b := b) (by omega), three?_eq_none ha]

/-- Bytes of which the first is not ASCII are read as the character they begin with. -/
theorem first_of_wide? {a : UInt8} {rest : List UInt8} {c : Char} (ha : 0x80 ≤ a.toNat)
    (h : wide? a rest = some c) : first a rest = .scalar c := by
  unfold first
  rw [if_neg, h]
  rw [UInt8.lt_iff_toNat_lt]
  exact Nat.not_lt.2 ha

/-- A byte list begins with a well-formed character exactly if it begins with the bytes of that
character. -/
theorem first_eq_scalar_iff {a : UInt8} {rest : List UInt8} {c : Char} :
    first a rest = .scalar c ↔ encodeChar c <+: a :: rest := by
  have hlt : a < 0x80 ↔ a.toNat < 0x80 := UInt8.lt_iff_toNat_lt
  constructor
  · intro h
    unfold first at h
    split at h
    · rename_i g
      cases h
      have hlt := hlt.1 g
      have hc : (Char.ofNat a.toNat).toNat = a.toNat := toNat_charOfNat (by left; omega)
      rw [encodeChar_of_lt (by omega), hc, UInt8.ofNat_toNat]
      exact ⟨rest, rfl⟩
    · split at h
      · rename_i w
        cases h
        exact encodeChar_prefix_of_wide? w
      · cases h
  · intro h
    have hv := toNat_valid c
    rcases Nat.lt_or_ge c.toNat 0x80 with h1 | h1
    · rw [encodeChar_of_lt h1] at h
      obtain ⟨_, h⟩ := h
      simp only [List.cons_append, List.cons.injEq] at h
      have ha : a.toNat = c.toNat := by rw [← h.1]; exact toNat_ofNat_of_lt (by omega)
      unfold first
      rw [if_pos (hlt.2 (by omega)), ha, Char.ofNat_toNat]
    rcases Nat.lt_or_ge c.toNat 0x800 with h2 | h2
    · have he := encodeChar_of_two h1 h2
      rw [he] at h
      obtain ⟨behind, h⟩ := h
      simp only [List.cons_append, List.nil_append, List.cons.injEq] at h
      obtain ⟨ha, rfl⟩ := h
      have han : a.toNat = 0xC0 + c.toNat / 64 := by
        rw [← ha]; exact toNat_ofNat_of_lt (by omega)
      rw [ha] at he
      exact first_of_wide? (by omega) (wide?_of_two? (two?_eq_some_iff.2 he) behind)
    rcases Nat.lt_or_ge c.toNat 0x10000 with h3 | h3
    · have he := encodeChar_of_three h2 h3
      rw [he] at h
      obtain ⟨behind, h⟩ := h
      simp only [List.cons_append, List.nil_append, List.cons.injEq] at h
      obtain ⟨ha, rfl⟩ := h
      have han : a.toNat = 0xE0 + c.toNat / 4096 := by
        rw [← ha]; exact toNat_ofNat_of_lt (by omega)
      rw [ha] at he
      exact first_of_wide? (by omega)
        (wide?_of_three? (by omega) (three?_eq_some_iff.2 he) behind)
    · have he := encodeChar_of_four h3
      rw [he] at h
      obtain ⟨behind, h⟩ := h
      simp only [List.cons_append, List.nil_append, List.cons.injEq] at h
      obtain ⟨ha, rfl⟩ := h
      have han : a.toNat = 0xF0 + c.toNat / 262144 := by
        rw [← ha]; exact toNat_ofNat_of_lt (by omega)
      rw [ha] at he
      exact first_of_wide? (by omega)
        (wide?_of_four? (by omega) (four?_eq_some_iff.2 he) behind)

/-- The bytes of the first glyph are the first bytes. -/
theorem bytes_first_prefix (a : UInt8) (rest : List UInt8) :
    (first a rest).bytes <+: a :: rest := by
  cases h : first a rest with
  | scalar c => exact first_eq_scalar_iff.1 h
  | stray b =>
    have hb : b = a := by
      unfold first at h
      split at h
      · cases h
      · split at h
        · cases h
        · cases h
          rfl
    subst hb
    exact ⟨rest, rfl⟩

/-- A glyph has at least one byte. -/
theorem length_bytes_pos (g : Glyph) : 0 < g.bytes.length := by
  cases g with
  | scalar c => exact List.length_pos_iff.2 (Text.encodeChar_ne_nil c)
  | stray b => exact Nat.zero_lt_one

/-! ### Reading a text -/

/-- Bytes that are already read are left out. -/
theorem glyphsFrom_eq_drop (skip : Nat) (bytes : List UInt8) :
    glyphsFrom skip bytes = glyphsFrom 0 (bytes.drop skip) := by
  induction skip generalizing bytes with
  | zero => rfl
  | succ skip ih =>
    cases bytes with
    | nil => rfl
    | cons b rest => exact ih rest

/-- The glyphs of a byte list: the first one, and those of what is left behind its bytes. -/
theorem glyphsFrom_cons (a : UInt8) (rest : List UInt8) :
    glyphsFrom 0 (a :: rest)
      = first a rest :: glyphsFrom 0 ((a :: rest).drop (first a rest).bytes.length) := by
  have h : (first a rest).bytes.length = ((first a rest).bytes.length - 1) + 1 := by
    have := length_bytes_pos (first a rest)
    omega
  rw [h, List.drop_succ_cons, ← glyphsFrom_eq_drop]
  rfl

/-- A character in front of a byte list is read as that character. -/
theorem glyphsFrom_encodeChar_append (c : Char) (rest : List UInt8) :
    glyphsFrom 0 (encodeChar c ++ rest) = .scalar c :: glyphsFrom 0 rest := by
  cases h : encodeChar c with
  | nil => exact absurd h (Text.encodeChar_ne_nil c)
  | cons a more =>
    have hf : first a (more ++ rest) = .scalar c :=
      first_eq_scalar_iff.2 ⟨rest, by rw [h]; rfl⟩
    rw [List.cons_append, glyphsFrom_cons, hf]
    congr 2
    show List.drop (encodeChar c).length ((a :: more) ++ rest) = rest
    rw [h]
    exact List.drop_left


/-- The bytes of the glyphs are the bytes. -/
theorem flatMap_bytes_glyphsFrom (n : Nat) (bytes : List UInt8) (h : bytes.length ≤ n) :
    (glyphsFrom 0 bytes).flatMap Glyph.bytes = bytes := by
  induction n generalizing bytes with
  | zero =>
    cases bytes with
    | nil => rfl
    | cons a rest => simp at h
  | succ n ih =>
    cases bytes with
    | nil => rfl
    | cons a rest =>
      obtain ⟨behind, hb⟩ := bytes_first_prefix a rest
      have hp := length_bytes_pos (first a rest)
      rw [glyphsFrom_cons, List.flatMap_cons, ← hb, List.drop_left]
      rw [ih behind]
      have := congrArg List.length hb
      simp only [List.length_append, List.length_cons] at this h
      omega

end Utf8

/-! ### Texts -/

namespace Text

/-- The text of glyphs put together. -/
theorem ofGlyphs_append (gs hs : List Glyph) :
    ofGlyphs (gs ++ hs) = ofGlyphs gs ++ ofGlyphs hs :=
  Text.ext List.flatMap_append

/-- Nothing is lost in reading: the glyphs of a text put together are the text. -/
@[simp]
theorem ofGlyphs_glyphs (t : Text) : ofGlyphs t.glyphs = t := by
  apply Text.ext
  exact Utf8.flatMap_bytes_glyphsFrom t.bytes.length t.bytes (Nat.le_refl _)

/-- What was written as characters is read as those characters. -/
@[simp]
theorem glyphs_ofChars (cs : List Char) : (ofChars cs).glyphs = cs.map .scalar := by
  unfold glyphs ofChars
  induction cs with
  | nil => rfl
  | cons c cs ih =>
    rw [List.flatMap_cons, List.map_cons, Utf8.glyphsFrom_encodeChar_append, ih]

/-- What was written as characters has those characters. -/
@[simp]
theorem chars_ofChars (cs : List Char) : (ofChars cs).chars = cs := by
  simp [chars, Function.comp_def, Glyph.char]

/-- Characters can be told from their bytes. -/
theorem ofChars_inj {cs ds : List Char} : ofChars cs = ofChars ds ↔ cs = ds := by
  constructor
  · intro h
    rw [← chars_ofChars cs, h, chars_ofChars]
  · rintro rfl
    rfl

/-- What was written as characters is well-formed. -/
@[simp]
theorem isValidUtf8_ofChars (cs : List Char) : (ofChars cs).isValidUtf8 = true := by
  simp [isValidUtf8, Glyph.isScalar]

/-- A well-formed text is that of its characters. -/
theorem ofChars_chars {t : Text} (h : t.isValidUtf8 = true) : ofChars t.chars = t := by
  have hscalar : ∀ g ∈ t.glyphs, Glyph.scalar g.char = g := by
    intro g hg
    cases g with
    | scalar c => rfl
    | stray b => cases List.all_eq_true.1 h _ hg
  have hglyphs : t.chars.map .scalar = t.glyphs := by
    rw [chars, List.map_map]
    exact (List.map_congr_left hscalar).trans (List.map_id _)
  rw [← ofGlyphs_glyphs (ofChars t.chars), glyphs_ofChars, hglyphs, ofGlyphs_glyphs]

/-- A text is well-formed exactly if it is written as characters. -/
theorem isValidUtf8_iff {t : Text} : t.isValidUtf8 = true ↔ ∃ cs, t = ofChars cs := by
  constructor
  · exact fun h => ⟨t.chars, (ofChars_chars h).symm⟩
  · rintro ⟨cs, rfl⟩
    exact isValidUtf8_ofChars cs

end Text

end IntLang
