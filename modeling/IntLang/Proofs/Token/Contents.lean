import IntLang.Proofs.Token.Scanner
import IntLang.Proofs.Token.Stream

/-!
# The contents of a string

Between two quotes there may be any bytes, as long as every quote among them is escaped and no
backslash is left to escape the closing one (`IsContent`). Whatever they are, they come out as
pieces of a string, one after another, and touch nothing else: the tokens before the opening quote
and those behind the closing one are the same for all contents (`tokenize_withString`).

The pieces of a string are easily told in a stream: each of them stands right behind a quote or
behind another piece (`quoted_tokenize`).
-/

namespace IntLang

open Mode (normal)

/-! ### Bytes between quotes -/

/-- Whether bytes can stand before a closing quote. A backslash escapes the byte behind it, and
`escaped` says whether the first of the bytes is escaped. No quote may be there that is not, and
nothing may be left to be escaped. -/
def endsUnescaped : Bool → List UInt8 → Bool
  | escaped, [] => !escaped
  | true, _ :: bs => endsUnescaped false bs
  | false, b :: bs => b ≠ 0x22 && endsUnescaped (b = 0x5C) bs

/-- Whether a text can stand between two quotes. -/
def IsContent (u : Text) : Prop := endsUnescaped false u.bytes = true

instance (u : Text) : Decidable (IsContent u) := inferInstanceAs (Decidable (_ = true))

/-- Bytes that are neither quotes nor backslashes are passed over. -/
theorem endsUnescaped_append {bs : List UInt8} (hne : bs ≠ []) (hq : 0x22 ∉ bs) (hb : 0x5C ∉ bs)
    (escaped : Bool) (rest : List UInt8) :
    endsUnescaped escaped (bs ++ rest) = endsUnescaped false rest := by
  induction bs generalizing escaped with
  | nil => exact absurd rfl hne
  | cons b bs ih =>
      obtain ⟨hbq, hq⟩ := not_or.1 (mt List.mem_cons.2 hq)
      obtain ⟨hbb, hb⟩ := not_or.1 (mt List.mem_cons.2 hb)
      have hrest : endsUnescaped false (bs ++ rest) = endsUnescaped false rest := by
        cases bs with
        | nil => rfl
        | cons b' bs => exact ih (List.cons_ne_nil b' bs) hq hb false
      cases escaped with
      | true => exact hrest
      | false => simp [endsUnescaped, Ne.symm hbq, Ne.symm hbb, hrest]

/-- Going over the bytes of a text tells the same as going over its glyphs: no quote closes it, and
nothing is left to be escaped. -/
theorem closingQuote?_of_endsUnescaped {gs : List Glyph} (hl : Legible gs) {escaped : Bool}
    (h : endsUnescaped escaped (Text.ofGlyphs gs).bytes = true) :
    closingQuote? escaped gs = none ∧ escapesNext escaped gs = false := by
  induction gs generalizing escaped with
  | nil =>
      cases escaped with
      | true => cases h
      | false => exact ⟨rfl, rfl⟩
  | cons g gs ih =>
      have hbytes : (Text.ofGlyphs (g :: gs)).bytes = g.bytes ++ (Text.ofGlyphs gs).bytes := by
        simp [Text.ofGlyphs]
      rw [hbytes] at h
      have ih := @ih hl.tail
      have htaken (h : endsUnescaped false (Text.ofGlyphs gs).bytes = true) :
          closingQuote? true (g :: gs) = none ∧ escapesNext true (g :: gs) = false := by
        obtain ⟨hnone, hend⟩ := ih h
        exact ⟨by rw [closingQuote?, hnone]; rfl, hend⟩
      by_cases hq : g = .scalar '"'
      · subst hq
        cases escaped with
        | true => exact htaken h
        | false => cases h
      by_cases hb : g = .scalar '\\'
      · subst hb
        cases escaped with
        | true => exact htaken h
        | false =>
            obtain ⟨hnone, hend⟩ := ih (show endsUnescaped true _ = true from h)
            exact ⟨by simp [closingQuote?, hnone], hend⟩
      · have hg : Legible [g] := Legible.left (show Legible ([g] ++ gs) from hl)
        have hq' : 0x22 ∉ g.bytes := not_mem_bytes_of_ne hg (by decide) hq
        have hb' : 0x5C ∉ g.bytes := not_mem_bytes_of_ne hg (by decide) hb
        rw [endsUnescaped_append (List.ne_nil_of_length_pos (Utf8.length_bytes_pos g)) hq' hb'] at h
        cases escaped with
        | true => exact htaken h
        | false =>
            obtain ⟨hnone, hend⟩ := ih h
            exact ⟨by simp [closingQuote?, hq, hb, hnone], by simp [escapesNext, hb, hend]⟩

/-- Behind what can stand before a closing quote, a quote closes. -/
theorem closingQuote?_append_quote {gs : List Glyph} {escaped : Bool}
    (hnone : closingQuote? escaped gs = none) (hend : escapesNext escaped gs = false)
    (more : List Glyph) : closingQuote? escaped (gs ++ .scalar '"' :: more) = some gs.length := by
  induction gs generalizing escaped with
  | nil =>
      obtain rfl : escaped = false := hend
      rfl
  | cons g gs ih =>
      cases escaped with
      | true =>
          rw [closingQuote?, Option.map_eq_none_iff] at hnone
          rw [List.cons_append, closingQuote?, ih hnone hend]
          rfl
      | false =>
          rw [closingQuote?] at hnone
          split at hnone
          · cases hnone
          · next hq =>
              rw [Option.map_eq_none_iff] at hnone
              rw [List.cons_append, closingQuote?, if_neg hq, ih hnone hend]
              rfl

/-! ### Reading a string -/

/-- A text with a string in it: what is before the string, what is between its quotes, and what is
behind it. -/
def withString (p u t : Text) : Text := p ++ "\"" ++ u ++ "\"" ++ t

/-- **The tokens around a string**: those before the opening quote, the pieces of the content, and
those behind the closing quote. -/
theorem tokenize_withString {p u : Text} (hp : (lex p).1 = .normal) (hu : IsContent u) (t : Text) :
    tokenize (withString p u t)
      = tokenize p ++ .operator .quote
        :: (contentTokens u.glyphs ++ .operator .quote :: tokenize t) := by
  have hglyphs : ("\"" ++ u ++ "\"" ++ t : Text).glyphs
      = .scalar '"' :: (u.glyphs ++ .scalar '"' :: t.glyphs) := Text.glyphs_enclosed '"' u t
  have hends : EndsWord ("\"" ++ u ++ "\"" ++ t : Text).glyphs := by
    rw [hglyphs]
    exact endsWord_cons (by decide) _
  have hlegible : Legible (u.glyphs ++ .scalar '"' :: t.glyphs) := by
    have h := Legible.glyphs ("\"" ++ u ++ "\"" ++ t : Text)
    rw [hglyphs] at h
    exact h.tail
  have hcontent : endsUnescaped false (Text.ofGlyphs u.glyphs).bytes = true := by
    rw [Text.ofGlyphs_glyphs]
    exact hu
  obtain ⟨hnone, hend⟩ := closingQuote?_of_endsUnescaped (Legible.glyphs u) hcontent
  have hstring : tokenize ("\"" ++ u ++ "\"" ++ t : Text)
      = .operator .quote :: (contentTokens u.glyphs ++ .operator .quote :: tokenize t) := by
    have hdrop : (u.glyphs ++ .scalar '"' :: t.glyphs).drop (u.glyphs.length + 1) = t.glyphs := by
      rw [← List.drop_drop, List.drop_left]
      rfl
    rw [tokenize, lex, hglyphs, ← Mode.read, Mode.read_normal_quote,
      read_string hlegible (by rintro ⟨⟩), stringReading, closingQuote?_append_quote hnone hend]
    simp only [List.take_left, hdrop]
    rfl
  have happend : withString p u t = p ++ ("\"" ++ u ++ "\"" ++ t : Text) := by
    simp only [withString, Text.append_assoc]
  rw [happend, tokenize, lex_append hp hends, hstring]

/-! ### Pieces in a stream -/

/-- Whether a token is a piece of a string. -/
def Token.isPiece : Token → Bool
  | .literal (.string _) => true
  | _ => false

/-- Whether the token `u` may stand behind `t`: a piece of a string stands behind a quote or behind
another piece. -/
def MayFollow (t u : Token) : Prop :=
  u.isPiece = true → t = .operator .quote ∨ t.isPiece = true

/-- Tokens in which all pieces of strings stand behind quotes. -/
structure Quoted (ts : List Token) : Prop where
  /-- No piece comes first. -/
  head : ∀ t ∈ ts.head?, t.isPiece = false
  /-- Behind every token stands one that may. -/
  chain : ts.IsChain MayFollow

/-- A word is never a piece of a string. -/
theorem isPiece_classify (w : Text) : (classify w).isPiece = false := by
  have hmark := isMark_classify w
  cases h : classify w with
  | literal l =>
      cases l with
      | string _ =>
          rw [h] at hmark
          cases hmark
      | _ => rfl
  | _ => rfl

/-- Outside of strings no piece comes first. -/
theorem Stream.isPiece_head {ts : List Token} {m : Mode} (h : Stream normal ts m) {t : Token}
    (ht : t ∈ ts.head?) : t.isPiece = false := by
  cases h with
  | nil => cases ht
  | operator _ _ _ _ =>
      cases ht
      rfl
  | word _ _ hw _ =>
      cases ht
      rw [hw]
      exact isPiece_classify _
  | openString _ =>
      cases ht
      rfl

/-- In a stream every piece but the first stands behind a quote or behind a piece. -/
theorem Stream.isChain {m m' : Mode} {ts : List Token} (h : Stream m ts m') :
    ts.IsChain MayFollow := by
  have houtside {t : Token} {ts : List Token} {n : Mode} (h : Stream normal ts n)
      (ih : ts.IsChain MayFollow) : (t :: ts).IsChain MayFollow := by
    refine List.isChain_cons.2 ⟨fun u hu hpiece => ?_, ih⟩
    rw [h.isPiece_head hu] at hpiece
    cases hpiece
  induction h with
  | nil => exact .nil
  | operator _ _ _ h ih => exact houtside h ih
  | word _ _ _ h ih => exact houtside h ih
  | openString _ ih => exact List.isChain_cons.2 ⟨fun _ _ _ => Or.inl rfl, ih⟩
  | closeString _ ih => exact List.isChain_cons.2 ⟨fun _ _ _ => Or.inl rfl, ih⟩
  | lone _ _ _ ih => exact List.isChain_cons.2 ⟨fun _ _ _ => Or.inr rfl, ih⟩
  | piece _ _ _ _ ih => exact List.isChain_cons.2 ⟨fun _ _ _ => Or.inr rfl, ih⟩

/-- **Among the tokens of a text all pieces of strings stand behind quotes.** -/
theorem quoted_tokenize (source : Text) : Quoted (tokenize source) :=
  ⟨fun _ => (stream_lex source).isPiece_head, (stream_lex source).isChain⟩

end IntLang
