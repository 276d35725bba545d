import IntLang.Text.Utf8.Lemmas

/-!
# Seams between texts

Reading a text that was put together from two pieces need not give the glyphs of the one and then
the glyphs of the other: bytes that are stray at the end of the first piece may join with stray
bytes at the beginning of the second. There are two seams at which this cannot happen. The second
piece begins with a character (`Text.glyphs_append`), or the first piece is made of complete
characters (`Text.glyphs_ofChars_append`).

Glyphs are *legible* if they are what their own bytes are read as. The glyphs of a text are
legible, and so is every run of neighbours among them (`Legible.of_isInfix`).
-/

namespace IntLang

/-! ### The bytes of a character -/

namespace Utf8

open Text (encodeChar encodeChar_of_lt encodeChar_of_two encodeChar_of_three encodeChar_of_four)

/-- A number between `80` and `BF` makes a byte that continues a character. -/
theorem isTail_ofNat {n : Nat} (h : 0x80 ≤ n) (h' : n ≤ 0xBF) : isTail (.ofNat n) = true := by
  rw [isTail_iff, toNat_ofNat_of_lt (by omega)]
  exact ⟨h, h'⟩

/-- A number below `80` or above `BF` makes a byte that continues no character. -/
theorem isTail_ofNat_eq_false {n : Nat} (hn : n < 256) (h : n < 0x80 ∨ 0xBF < n) :
    isTail (.ofNat n) = false := by
  rw [← Bool.not_eq_true, isTail_iff, toNat_ofNat_of_lt hn]
  omega

/-- The bytes of a character: one that continues nothing, and then only bytes that continue it. -/
theorem encodeChar_eq_cons (c : Char) :
    ∃ a tail, encodeChar c = a :: tail ∧ isTail a = false ∧ ∀ b ∈ tail, isTail b = true := by
  have hv := toNat_valid c
  rcases Nat.lt_or_ge c.toNat 0x80 with h1 | h1
  · refine ⟨_, _, encodeChar_of_lt h1, isTail_ofNat_eq_false (by omega) (by omega), ?_⟩
    simp
  rcases Nat.lt_or_ge c.toNat 0x800 with h2 | h2
  · refine ⟨_, _, encodeChar_of_two h1 h2, isTail_ofNat_eq_false (by omega) (by omega), ?_⟩
    simp only [List.mem_singleton, forall_eq]
    exact isTail_ofNat (by omega) (by omega)
  rcases Nat.lt_or_ge c.toNat 0x10000 with h3 | h3
  · refine ⟨_, _, encodeChar_of_three h2 h3, isTail_ofNat_eq_false (by omega) (by omega), ?_⟩
    simp only [List.mem_cons, List.not_mem_nil, or_false, forall_eq_or_imp, forall_eq]
    exact ⟨isTail_ofNat (by omega) (by omega), isTail_ofNat (by omega) (by omega)⟩
  · refine ⟨_, _, encodeChar_of_four h3, isTail_ofNat_eq_false (by omega) (by omega), ?_⟩
    simp only [List.mem_cons, List.not_mem_nil, or_false, forall_eq_or_imp, forall_eq]
    exact ⟨isTail_ofNat (by omega) (by omega), isTail_ofNat (by omega) (by omega),
      isTail_ofNat (by omega) (by omega)⟩

/-- A stray glyph is the byte at which it was read. -/
theorem eq_of_first_eq_stray {a b : UInt8} {rest : List UInt8} (h : first a rest = .stray b) :
    b = a := by
  obtain ⟨behind, hb⟩ := bytes_first_prefix a rest
  rw [h] at hb
  exact (List.cons.inj hb).1

/-- What is read at the front of some bytes stays the same when bytes are added behind them, if
the first of the added bytes continues no character. -/
theorem first_append {a : UInt8} {rest more : List UInt8}
    (h : ∀ b ∈ more.head?, isTail b = false) : first a (rest ++ more) = first a rest := by
  cases hf : first a (rest ++ more) with
  | scalar c =>
      obtain ⟨d, tail, hc, -, htail⟩ := encodeChar_eq_cons c
      have hp : encodeChar c <+: a :: rest ++ more := first_eq_scalar_iff.1 hf
      obtain hlt | hle := Nat.lt_or_ge (a :: rest).length (encodeChar c).length
      · -- The character reaches into `more`, whose first byte would have to continue it.
        exfalso
        obtain ⟨behind, hb⟩ := hp
        rw [hc, List.cons_append, List.cons_append, List.cons.injEq] at hb
        have hlen : rest.length < tail.length := by
          rw [hc] at hlt
          simpa using hlt
        have hget : (rest ++ more)[rest.length]? = tail[rest.length]? := by
          rw [← hb.2, List.getElem?_append_left hlen]
        rw [List.getElem?_append_right (Nat.le_refl _), Nat.sub_self] at hget
        obtain ⟨b, hb'⟩ : ∃ b, tail[rest.length]? = some b :=
          ⟨_, List.getElem?_eq_getElem hlen⟩
        have hb'' : b ∈ more.head? := by
          rw [List.head?_eq_getElem?, hget, hb', Option.mem_def]
        exact absurd (htail b (List.mem_of_getElem? hb')) (by rw [h b hb'']; decide)
      · exact (first_eq_scalar_iff.2 (List.prefix_of_prefix_length_le hp ⟨more, rfl⟩ hle)).symm
  | stray b =>
      obtain rfl := eq_of_first_eq_stray hf
      cases hr : first b rest with
      | scalar c =>
          obtain ⟨behind, hb⟩ := first_eq_scalar_iff.1 hr
          have hp : encodeChar c <+: b :: (rest ++ more) :=
            ⟨behind ++ more, by rw [← List.append_assoc, hb, List.cons_append]⟩
          rw [first_eq_scalar_iff.2 hp] at hf
          cases hf
      | stray d => rw [eq_of_first_eq_stray hr]

/-- The glyphs of bytes put together, if the second ones begin with a byte that continues no
character. -/
theorem glyphsFrom_append (n : Nat) {bytes more : List UInt8} (hn : bytes.length ≤ n)
    (h : ∀ b ∈ more.head?, isTail b = false) :
    glyphsFrom 0 (bytes ++ more) = glyphsFrom 0 bytes ++ glyphsFrom 0 more := by
  induction n generalizing bytes with
  | zero =>
      obtain rfl : bytes = [] := List.length_eq_zero_iff.1 (Nat.le_zero.1 hn)
      rfl
  | succ n ih =>
      cases bytes with
      | nil => rfl
      | cons a rest =>
          obtain ⟨behind, hb⟩ := bytes_first_prefix a rest
          have hpos := length_bytes_pos (first a rest)
          have hlen : behind.length ≤ n := by
            have := congrArg List.length hb
            simp only [List.length_append, List.length_cons] at this hn
            omega
          rw [List.cons_append, glyphsFrom_cons, glyphsFrom_cons, first_append h,
            ← List.cons_append, ← hb, List.append_assoc, List.drop_left, List.drop_left,
            ih hlen, List.cons_append]

end Utf8

/-! ### Texts put together -/

/-- Whether glyphs begin with a character, if there are any: no bytes before them can make their
first byte part of another one. -/
def BeginsClean (gs : List Glyph) : Prop := ∀ g ∈ gs.head?, ∃ c, g = .scalar c

namespace Text

/-- Texts are put together in one way. -/
theorem append_assoc (s t u : Text) : s ++ t ++ u = s ++ (t ++ u) := by
  ext1
  simp

/-- The first byte of a text that begins with a character continues no other one. -/
theorem isTail_of_beginsClean {t : Text} (h : BeginsClean t.glyphs) {b : UInt8}
    (hb : b ∈ t.bytes.head?) : Utf8.isTail b = false := by
  rw [← ofGlyphs_glyphs t] at hb
  cases hg : t.glyphs with
  | nil =>
      rw [hg] at hb
      cases hb
  | cons g gs =>
      obtain ⟨c, rfl⟩ := h g (by rw [hg]; rfl)
      obtain ⟨a, tail, hc, ha, -⟩ := Utf8.encodeChar_eq_cons c
      have hbytes : (ofGlyphs (.scalar c :: gs)).bytes
          = a :: (tail ++ gs.flatMap Glyph.bytes) := by
        show encodeChar c ++ gs.flatMap Glyph.bytes = _
        rw [hc, List.cons_append]
      rw [hg, hbytes, List.head?_cons, Option.mem_some_iff] at hb
      rw [← hb]
      exact ha

/-- Nothing joins at a seam behind which a text begins with a character. -/
theorem glyphs_append (s : Text) {t : Text} (h : BeginsClean t.glyphs) :
    (s ++ t).glyphs = s.glyphs ++ t.glyphs :=
  Utf8.glyphsFrom_append s.bytes.length (Nat.le_refl _) fun _ => isTail_of_beginsClean h

/-- Nothing joins with characters that are complete. -/
theorem glyphs_ofChars_append (cs : List Char) (t : Text) :
    (ofChars cs ++ t).glyphs = cs.map .scalar ++ t.glyphs := by
  induction cs with
  | nil => rfl
  | cons c cs ih =>
      have h : (ofChars (c :: cs) ++ t).glyphs
          = Utf8.glyphsFrom 0 (encodeChar c ++ (ofChars cs ++ t).bytes) := by
        simp only [glyphs, ofChars, bytes_append, List.flatMap_cons, List.append_assoc]
      rw [h, Utf8.glyphsFrom_encodeChar_append, List.map_cons, List.cons_append]
      exact congrArg _ ih

/-- Nothing joins with the two characters that enclose a text. -/
theorem glyphs_enclosed (c : Char) (s t : Text) :
    (ofChars [c] ++ s ++ ofChars [c] ++ t).glyphs
      = .scalar c :: (s.glyphs ++ .scalar c :: t.glyphs) := by
  have hend : (ofChars [c] ++ t).glyphs = .scalar c :: t.glyphs := glyphs_ofChars_append [c] t
  have hclean : BeginsClean (ofChars [c] ++ t).glyphs := by
    rw [hend]
    rintro g ⟨⟩
    exact ⟨c, rfl⟩
  rw [append_assoc, append_assoc, glyphs_ofChars_append, glyphs_append _ hclean, hend]
  rfl

end Text

/-! ### Legible glyphs -/

/-- Whether glyphs are what their bytes are read as. -/
def Legible (gs : List Glyph) : Prop := (Text.ofGlyphs gs).glyphs = gs

namespace Legible

/-- The glyphs of a text are legible. -/
theorem glyphs (t : Text) : Legible t.glyphs := by
  rw [Legible, Text.ofGlyphs_glyphs]

/-- What is left of legible glyphs without the first is legible. -/
theorem tail {g : Glyph} {gs : List Glyph} (h : Legible (g :: gs)) : Legible gs := by
  have hg : Utf8.glyphsFrom 0 (g.bytes ++ gs.flatMap Glyph.bytes) = g :: gs := h
  obtain ⟨a, rest, ha⟩ := List.exists_cons_of_length_pos (Utf8.length_bytes_pos g)
  rw [ha, List.cons_append, Utf8.glyphsFrom_cons, List.cons.injEq] at hg
  rw [hg.1, ← List.cons_append, ← ha, List.drop_left] at hg
  exact hg.2

/-- What legible glyphs end with is legible. -/
theorem right {gs hs : List Glyph} (h : Legible (gs ++ hs)) : Legible hs := by
  induction gs with
  | nil => exact h
  | cons g gs ih => exact ih h.tail

/-- What legible glyphs begin with is legible. -/
theorem left {gs hs : List Glyph} (h : Legible (gs ++ hs)) : Legible gs := by
  induction gs with
  | nil => rfl
  | cons g gs ih =>
      have hrest : (Text.ofGlyphs gs).glyphs = gs := ih h.tail
      obtain ⟨a, rest, ha⟩ := List.exists_cons_of_length_pos (Utf8.length_bytes_pos g)
      have hg : Utf8.glyphsFrom 0 (g.bytes ++ (gs ++ hs).flatMap Glyph.bytes)
          = g :: (gs ++ hs) := h
      rw [ha, List.cons_append, Utf8.glyphsFrom_cons, List.cons.injEq] at hg
      have hfirst : Utf8.first a (rest ++ gs.flatMap Glyph.bytes) = g := by
        cases g with
        | scalar c =>
            refine Utf8.first_eq_scalar_iff.2 ⟨gs.flatMap Glyph.bytes, ?_⟩
            show (Glyph.scalar c).bytes ++ _ = _
            rw [ha, List.cons_append]
        | stray b =>
            obtain ⟨rfl, rfl⟩ := List.cons.inj ha
            cases hf : Utf8.first b ([] ++ gs.flatMap Glyph.bytes) with
            | scalar c =>
                obtain ⟨behind, hb⟩ := Utf8.first_eq_scalar_iff.1 hf
                have hp : Text.encodeChar c
                    <+: b :: ([] ++ (gs ++ hs).flatMap Glyph.bytes) := by
                  refine ⟨behind ++ hs.flatMap Glyph.bytes, ?_⟩
                  rw [← List.append_assoc, hb, List.flatMap_append]
                  simp
                rw [Utf8.first_eq_scalar_iff.2 hp] at hg
                exact hg.1
            | stray d => rw [Utf8.eq_of_first_eq_stray hf]
      show Utf8.glyphsFrom 0 (g.bytes ++ gs.flatMap Glyph.bytes) = g :: gs
      rw [ha, List.cons_append, Utf8.glyphsFrom_cons, hfirst, ← List.cons_append, ← ha,
        List.drop_left]
      exact congrArg _ hrest

/-- A run of neighbours among legible glyphs is legible. -/
theorem of_isInfix {gs hs : List Glyph} (h : Legible hs) (hi : gs <:+: hs) : Legible gs := by
  obtain ⟨before, behind, rfl⟩ := hi
  exact h.left.right

/-- A stray byte is not ASCII. -/
theorem le_of_stray {b : UInt8} (h : Legible [.stray b]) : 0x80 ≤ b.toNat := by
  have hfirst : Utf8.first b [] = .stray b := (List.cons.inj h).1
  refine Nat.not_lt.1 fun hlt => ?_
  rw [Utf8.first, if_pos (UInt8.lt_iff_toNat_lt.2 hlt)] at hfirst
  cases hfirst

end Legible

/-- An ASCII byte among the bytes of legible glyphs is one of the glyphs. -/
theorem mem_of_mem_bytes {gs : List Glyph} (hl : Legible gs) {b : UInt8} (hb : b.toNat < 0x80)
    (h : b ∈ (Text.ofGlyphs gs).bytes) : .scalar (Char.ofNat b.toNat) ∈ gs := by
  obtain ⟨g, hg, hbg⟩ := List.mem_flatMap.1 h
  cases g with
  | scalar c =>
      obtain ⟨a, tail, hc, -, htail⟩ := Utf8.encodeChar_eq_cons c
      have hbc : b ∈ a :: tail := hc ▸ hbg
      rcases List.mem_cons.1 hbc with rfl | ht
      · have hfirst : Utf8.first b tail = .scalar c :=
          Utf8.first_eq_scalar_iff.2 ⟨[], by rw [List.append_nil, hc]⟩
        rw [Utf8.first, if_pos (UInt8.lt_iff_toNat_lt.2 hb)] at hfirst
        rw [hfirst]
        exact hg
      · have := (Utf8.isTail_iff.1 (htail b ht)).1
        omega
  | stray d =>
      obtain rfl : b = d := List.mem_singleton.1 hbg
      obtain ⟨before, behind, rfl⟩ := List.append_of_mem hg
      have hd : Legible [Glyph.stray b] :=
        hl.of_isInfix ⟨before, behind, by rw [List.append_assoc]; rfl⟩
      exact absurd hd.le_of_stray (Nat.not_le.2 hb)

end IntLang
