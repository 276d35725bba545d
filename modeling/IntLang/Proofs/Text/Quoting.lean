import IntLang.Proofs.Text.Pieces
import IntLang.Proofs.Text.Seams
import IntLang.Text.Quoted
import Mathlib.Data.List.Forall2

/-!
# Quoted text read back

Quoting loses nothing: it can be told from a quoted text which bytes it holds, those that are no
character included. Each glyph is written as it stands, as a letter behind a backslash, or as a code
of as many hexadecimal digits as the letter before it says (`QuotedAs`). So what stands in front can
be read off as one glyph, whatever follows (`QuotedAs.unquoteFirst?_append`), and the glyphs of a
quoted text come back one after another.

A stray byte and a control character are both written behind `\x`. They do not get mixed up: the
codes of the controls are ASCII, and a stray byte is none.

## Main results

* `hexValue_hexDigits`: a number in hexadecimal is read back;
* `Text.quote_inj`: texts that are quoted alike are equal.
-/

namespace IntLang

/-! ### Hexadecimal digits -/

/-- The value of a hexadecimal digit in lower case. -/
def hexDigitValue (c : Char) : Nat :=
  if c.isDigit then c.toNat - '0'.toNat else c.toNat - 'a'.toNat + 10

/-- The number that hexadecimal digits spell. -/
def hexValue (cs : List Char) : Nat := cs.foldl (fun n c => n * 16 + hexDigitValue c) 0

/-- The digits that a number is written with in hexadecimal, with zeros in front. -/
def hexDigits (width n : Nat) : List Char :=
  List.replicate (width - (Nat.toDigits 16 n).length) '0' ++ Nat.toDigits 16 n

theorem hexValue_append (cs ds : List Char) :
    hexValue (cs ++ ds) = ds.foldl (fun n c => n * 16 + hexDigitValue c) (hexValue cs) :=
  List.foldl_append

theorem hexValue_toDigits (n : Nat) : hexValue (Nat.toDigits 16 n) = n := by
  have hdigit : ∀ d < 16, hexDigitValue d.digitChar = d := by decide
  induction n using Nat.strongRecOn with
  | ind n ih =>
      rcases Nat.lt_or_ge n 16 with hn | hn
      · rw [Nat.toDigits_of_lt_base hn]
        show 0 * 16 + hexDigitValue n.digitChar = n
        rw [hdigit n hn, Nat.zero_mul, Nat.zero_add]
      · rw [Nat.toDigits_of_base_le (by decide) hn, hexValue_append,
          ih (n / 16) (Nat.div_lt_self (by omega) (by decide))]
        show n / 16 * 16 + hexDigitValue (n % 16).digitChar = n
        rw [hdigit _ (Nat.mod_lt n (by decide)), Nat.div_add_mod']

/-- Zeros in front count nothing. -/
theorem hexValue_hexDigits (width n : Nat) : hexValue (hexDigits width n) = n := by
  have hzeros (k : Nat) : hexValue (List.replicate k '0') = 0 := by
    induction k with
    | zero => rfl
    | succ k ih =>
        rw [List.replicate_succ', hexValue_append, ih]
        rfl
  rw [hexDigits, hexValue_append, hzeros]
  exact hexValue_toDigits n

/-- A number that is small enough is written with just as many digits. -/
theorem length_hexDigits {width n : Nat} (hwidth : 0 < width) (hn : n < Nat.pow 16 width) :
    (hexDigits width n).length = width := by
  have hle := (Nat.length_toDigits_le_iff (by decide) hwidth).2 hn
  rw [hexDigits, List.length_append, List.length_replicate]
  omega

/-! ### One glyph -/

/-- How many hexadecimal digits follow a letter that stands behind a backslash. -/
def codeWidth? : Char → Option Nat
  | 'x' => some 2
  | 'u' => some 4
  | 'U' => some 8
  | _ => none

/-- The character that a letter behind a backslash stands for. -/
def letterMeaning : Char → Char
  | 'a' => '\x07'
  | 'b' => '\x08'
  | 'f' => '\x0c'
  | 'n' => '\n'
  | 'r' => '\r'
  | 't' => '\t'
  | 'v' => '\x0b'
  | c => c

/-- The glyph that a code stands for: behind `x` a byte, which is stray unless it is ASCII. -/
def codeMeaning (mark : Char) (n : Nat) : Glyph :=
  if mark = 'x' ∧ 0x80 ≤ n then .stray (.ofNat n) else .scalar (.ofNat n)

/-- The ways in which a glyph stands between quotes. -/
inductive QuotedAs : Glyph → List Char → Prop
  /-- As it is. -/
  | plain {c : Char} : c ≠ '\\' → QuotedAs (.scalar c) [c]
  /-- As a letter. -/
  | letter (l : Char) : codeWidth? l = none → QuotedAs (.scalar (letterMeaning l)) ['\\', l]
  /-- As a code. -/
  | code (mark : Char) {width n : Nat} : codeWidth? mark = some width →
      (hexDigits width n).length = width →
      QuotedAs (codeMeaning mark n) ('\\' :: mark :: hexDigits width n)

/-- What stands behind a backslash, read as one glyph, and the rest. -/
def unescape? : List Char → Option (Glyph × List Char)
  | [] => none
  | l :: rest =>
    match codeWidth? l with
    | some width => some (codeMeaning l (hexValue (rest.take width)), rest.drop width)
    | none => some (.scalar (letterMeaning l), rest)

/-- The first glyph of what stands between quotes, and the rest. -/
def unquoteFirst? : List Char → Option (Glyph × List Char)
  | [] => none
  | c :: rest => if c = '\\' then unescape? rest else some (.scalar c, rest)

/-- **A glyph that stands in front is read back**, whatever follows it. -/
theorem QuotedAs.unquoteFirst?_append {g : Glyph} {cs : List Char} (h : QuotedAs g cs)
    (rest : List Char) : unquoteFirst? (cs ++ rest) = some (g, rest) := by
  cases h with
  | plain hc =>
      rw [List.singleton_append, unquoteFirst?, if_neg hc]
  | letter l hl =>
      rw [List.cons_append, List.singleton_append, unquoteFirst?, if_pos rfl, unescape?, hl]
  | code mark hmark hlength =>
      rw [List.cons_append, List.cons_append, unquoteFirst?, if_pos rfl, unescape?, hmark]
      dsimp only
      rw [List.take_left' hlength, List.drop_left' hlength, hexValue_hexDigits]

/-- A control that has a letter is what that letter stands for. -/
theorem quotedAs_of_controlLetter? {c : Char} {s : String} (h : controlLetter? c = some s) :
    QuotedAs (.scalar c) s.toList := by
  unfold controlLetter? at h
  split at h
  all_goals cases h
  · exact .letter 'a' rfl
  · exact .letter 'b' rfl
  · exact .letter 'f' rfl
  · exact .letter 'n' rfl
  · exact .letter 'r' rfl
  · exact .letter 't' rfl
  · exact .letter 'v' rfl

/-- A character can stand as a code that is wide enough; behind `x` only if it is ASCII. -/
theorem quotedAs_code (mark : Char) {width : Nat} (hmark : codeWidth? mark = some width)
    (hwidth : 0 < width) {c : Char} (hc : c.toNat < Nat.pow 16 width)
    (hascii : mark = 'x' → c.toNat < 0x80) :
    QuotedAs (.scalar c) ('\\' :: mark :: hexDigits width c.toNat) := by
  have hcode := QuotedAs.code mark hmark (length_hexDigits hwidth hc)
  rwa [codeMeaning, if_neg fun h => Nat.not_le.2 (hascii h.1) h.2, Char.ofNat_toNat] at hcode

/-- A character stands between quotes in one of these ways. -/
theorem exists_quotedAs_quoteChar (c : Char) :
    ∃ cs, QuotedAs (.scalar c) cs ∧ quoteChar c = .ofChars cs := by
  rw [quoteChar]
  split
  · next h =>
    rw [Bool.or_eq_true, decide_eq_true_eq, decide_eq_true_eq] at h
    rcases h with rfl | rfl
    · exact ⟨_, .letter '"' rfl, rfl⟩
    · exact ⟨_, .letter '\\' rfl, rfl⟩
  next hmarks =>
  split
  · refine ⟨[c], .plain ?_, rfl⟩
    rintro rfl
    exact hmarks rfl
  split
  · next s hs => exact ⟨_, quotedAs_of_controlLetter? hs, rfl⟩
  -- What is left is written as a code, and its size decides how wide that is.
  have hvalid := Utf8.toNat_valid c
  dsimp only
  split
  · next h =>
    have hpow : Nat.pow 16 2 = 0x100 := rfl
    refine ⟨_, quotedAs_code 'x' rfl ?_ ?_ fun _ => h, (Text.ofChars_append _ _).symm⟩ <;> omega
  split
  · next h =>
    have hpow : Nat.pow 16 4 = 0x10000 := rfl
    refine ⟨_, quotedAs_code 'u' rfl ?_ ?_ nofun, (Text.ofChars_append _ _).symm⟩ <;> omega
  · have hpow : Nat.pow 16 8 = 0x100000000 := rfl
    refine ⟨_, quotedAs_code 'U' rfl ?_ ?_ nofun, (Text.ofChars_append _ _).symm⟩ <;> omega

/-- A glyph stands between quotes in one of these ways. -/
theorem exists_quotedAs {g : Glyph} (h : Legible [g]) :
    ∃ cs, QuotedAs g cs ∧ g.quote = .ofChars cs := by
  cases g with
  | scalar c => exact exists_quotedAs_quoteChar c
  | stray b =>
      have hcode : codeMeaning 'x' b.toNat = .stray b := by
        rw [codeMeaning, if_pos ⟨rfl, h.le_of_stray⟩, UInt8.ofNat_toNat]
      refine ⟨_, hcode ▸ .code 'x' rfl ?_, (Text.ofChars_append _ _).symm⟩
      exact length_hexDigits (by decide) b.toNat_lt

/-! ### A whole text -/

/-- Glyphs that are legible together stand between quotes one by one. -/
theorem exists_forall₂_quotedAs {gs : List Glyph} (h : Legible gs) :
    ∃ css, List.Forall₂ QuotedAs gs css ∧
      Text.concat (gs.map Glyph.quote) = .ofChars css.flatten := by
  induction gs with
  | nil => exact ⟨[], .nil, rfl⟩
  | cons g gs ih =>
      have hg : Legible [g] := h.of_isInfix ⟨[], gs, rfl⟩
      obtain ⟨cs, hcs, hquote⟩ := exists_quotedAs hg
      obtain ⟨css, hcss, hconcat⟩ := ih h.tail
      refine ⟨cs :: css, .cons hcs hcss, ?_⟩
      rw [List.map_cons, Text.concat_cons, hquote, hconcat, List.flatten_cons, Text.ofChars_append]

/-- **What stands between quotes is read as one list of glyphs.** -/
theorem eq_of_forall₂_quotedAs {gs hs : List Glyph} {css dss : List (List Char)}
    (hgs : List.Forall₂ QuotedAs gs css) (hhs : List.Forall₂ QuotedAs hs dss)
    (h : css.flatten = dss.flatten) : gs = hs := by
  induction hgs generalizing hs dss with
  | nil =>
      cases hhs with
      | nil => rfl
      | @cons k ds hs dss hd _ =>
          have hfirst := hd.unquoteFirst?_append dss.flatten
          rw [← List.flatten_cons, ← h] at hfirst
          cases hfirst
  | @cons g cs gs css hc _ ih =>
      have hfirst := hc.unquoteFirst?_append css.flatten
      rw [← List.flatten_cons, h] at hfirst
      cases hhs with
      | nil => cases hfirst
      | @cons k ds hs dss hd hds =>
          rw [List.flatten_cons, hd.unquoteFirst?_append, Option.some.injEq, Prod.mk.injEq]
            at hfirst
          rw [hfirst.1, ih hds hfirst.2.symm]

namespace Text

/-- A text between quotes, as characters. -/
theorem exists_quote_eq (t : Text) :
    ∃ css, List.Forall₂ QuotedAs t.glyphs css ∧
      t.quote = .ofChars ('"' :: (css.flatten ++ ['"'])) := by
  obtain ⟨css, hcss, hconcat⟩ := exists_forall₂_quotedAs (Legible.glyphs t)
  refine ⟨css, hcss, ?_⟩
  rw [quote, hconcat, append_assoc, ← List.singleton_append, ofChars_append, ofChars_append]
  rfl

/-- **Texts that are quoted alike are equal.** -/
theorem quote_inj {s t : Text} : s.quote = t.quote ↔ s = t := by
  constructor
  · intro h
    obtain ⟨css, hcss, hs⟩ := exists_quote_eq s
    obtain ⟨dss, hdss, ht⟩ := exists_quote_eq t
    rw [hs, ht, ofChars_inj, List.cons.injEq, List.append_cancel_right_eq] at h
    rw [← ofGlyphs_glyphs s, eq_of_forall₂_quotedAs hcss hdss h.2, ofGlyphs_glyphs]
  · rintro rfl
    rfl

end Text

end IntLang
