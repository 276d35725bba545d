import IntLang.Cpp
import IntLang.Proofs.Single.Whole
import IntLang.Proofs.Token.Stream

/-!
# Written tokens, read again

Every token of a stream has a text, and the texts in a row are read again here. An operator is
written as its character and blanks. A word is written as a word, with a blank behind it if it is a
type or a keyword, or as nothing at all (`respelled_classify`); which token the written word is
classified as is said by `Cpp.renamed`. A piece of a string is written as it stands.

The texts are joined without seams (`Stream.glyphs_tokens`). Words may still run together, where
nothing is written between them, but words are all that can: reading the text of a stream leads
to the mode in which the stream ends, and yields its operators and its pieces of strings
(`Stream.marks_read`).

## Main results

* `Stream.glyphs_tokens`, the glyphs of a written stream;
* `Stream.marks_read`, the mode and the marks of a written stream.
-/

namespace IntLang

open Mode (normal)

/-! ### The tokens that come back -/

/-- Whether a token only arranges the source, and is written as nothing. -/
def Token.arranges : Token → Bool
  | .keyword .importHeader => true
  | .keyword .globals => true
  | _ => false

/-- Whether a token is written as a word with nothing behind it. -/
def Token.clings : Token → Bool
  | .ident _ => true
  | .literal (.string _) => false
  | .literal _ => true
  | _ => false

/-- Whether a token is a real number. -/
def Token.isReal : Token → Bool
  | .literal (.real _) => true
  | _ => false

/-- The token as which the text of a token is read again. -/
def Cpp.renamed : Token → Token
  | .ident name => .ident (Cpp.ident name)
  | .keyword .ret => .ident "return"
  | .type .real => .ident "float"
  | .type .string => .ident "std::string"
  | .type .func => .ident "void"
  | t => t

/-! ### Words -/

/-- The text of a token is a word and blanks, and the word begins with a character. -/
structure Written (t : Token) (word : List Glyph) (blanks : List Char) : Prop where
  /-- The glyphs of the text. -/
  glyphs : (Cpp.token t).glyphs = word ++ blanks.map .scalar
  /-- There are glyphs in the word, and no separators. -/
  isWord : IsWord word
  /-- Its first glyph is a character. -/
  begins : BeginsClean word
  /-- Behind it there are only blanks. -/
  blank : blanks.all isBlank = true
  /-- Only a token that clings has none behind it. -/
  clings : blanks = [] → t.clings = true

/-- Whether characters are a word. -/
def isCharWord (cs : List Char) : Bool :=
  !cs.isEmpty && cs.all fun c => !(Glyph.scalar c).isSeparator

/-- A token whose text is characters, first a word and then blanks. -/
theorem Written.ofChars {t : Token} {cs blanks : List Char}
    (ht : Cpp.token t = .ofChars (cs ++ blanks)) (hcs : isCharWord cs = true)
    (hb : blanks.all isBlank = true) (hc : blanks = [] → t.clings = true) :
    Written t (cs.map .scalar) blanks := by
  simp only [isCharWord, Bool.and_eq_true, Bool.not_eq_true', List.isEmpty_eq_false_iff,
    List.all_eq_true] at hcs
  refine ⟨?_, ⟨?_, ?_⟩, ?_, hb, hc⟩
  · rw [ht, Text.glyphs_ofChars, List.map_append]
  · simpa using hcs.1
  · simpa using hcs.2
  · intro g hg
    obtain ⟨c, -, rfl⟩ := List.mem_map.1 (List.mem_of_mem_head? hg)
    exact ⟨c, rfl⟩

/-- The glyphs of characters are put together to the characters. -/
theorem ofGlyphs_map_scalar (cs : List Char) : Text.ofGlyphs (cs.map .scalar) = .ofChars cs := by
  rw [← Text.glyphs_ofChars, Text.ofGlyphs_glyphs]

/-- The text of a token is a word, and it is classified as the token that comes back. A real number
may come back as an integer, so nothing is said of it. -/
def Respelled (t : Token) : Prop :=
  ∃ word blanks, Written t word blanks ∧
    (t.isReal = false → classify (.ofGlyphs word) = Cpp.renamed t)

/-- A token that is written as characters and a blank comes back as what the characters are. -/
theorem Respelled.spaced {t : Token} (cs : List Char) (ht : Cpp.token t = .ofChars (cs ++ [' ']))
    (hcs : isCharWord cs = true) (hc : classify (.ofChars cs) = Cpp.renamed t) : Respelled t := by
  refine ⟨_, _, .ofChars ht hcs (by decide) (by rintro ⟨⟩), fun _ => ?_⟩
  rw [ofGlyphs_map_scalar, hc]

/-- A token that is written as characters alone comes back as what the characters are. -/
theorem Respelled.bare {t : Token} (cs : List Char) (ht : Cpp.token t = .ofChars cs)
    (hcs : isCharWord cs = true) (hcl : t.clings = true)
    (hc : t.isReal = false → classify (.ofChars cs) = Cpp.renamed t) : Respelled t := by
  have ht' : Cpp.token t = .ofChars (cs ++ []) := by rw [List.append_nil, ht]
  refine ⟨_, _, .ofChars ht' hcs rfl fun _ => hcl, fun hr => ?_⟩
  rw [ofGlyphs_map_scalar, hc hr]

/-- A type comes back as a word of its own. -/
theorem respelled_type {t : ValueType} (ht : t ∈ ValueType.all) : Respelled (.type t) := by
  cases t with
  | real => exact .spaced "float".toList rfl (by decide) (by decide)
  | int => exact .spaced "int".toList rfl (by decide) (by decide)
  | string => exact .spaced "std::string".toList rfl (by decide) (by decide)
  | bool => exact .spaced "bool".toList rfl (by decide) (by decide)
  | func => exact .spaced "void".toList rfl (by decide) (by decide)
  | unassigned n => simp [ValueType.all] at ht

/-- A keyword arranges the source, or comes back as a word of its own. -/
theorem respelled_keyword {k : Keyword} (hk : ∀ n, k ≠ .unassigned n) :
    (Token.keyword k).arranges = true ∧ Cpp.token (.keyword k) = .empty ∨
    (Token.keyword k).arranges = false ∧ Respelled (.keyword k) := by
  cases k with
  | cond => exact Or.inr ⟨rfl, .spaced "if".toList rfl (by decide) (by decide)⟩
  | alternative => exact Or.inr ⟨rfl, .spaced "else".toList rfl (by decide) (by decide)⟩
  | loop => exact Or.inr ⟨rfl, .spaced "while".toList rfl (by decide) (by decide)⟩
  | ret => exact Or.inr ⟨rfl, .spaced "return".toList rfl (by decide) (by decide)⟩
  | importHeader => exact Or.inl ⟨rfl, rfl⟩
  | globals => exact Or.inl ⟨rfl, rfl⟩
  | unassigned n => exact absurd rfl (hk n)

/-- Digits are a word. -/
theorem isCharWord_of_isDigit {cs : List Char} (hne : cs ≠ []) (h : ∀ c ∈ cs, c.isDigit = true) :
    isCharWord cs = true := by
  simp only [isCharWord, Bool.and_eq_true, Bool.not_eq_true', List.isEmpty_eq_false_iff,
    List.all_eq_true]
  refine ⟨hne, fun c hc => ?_⟩
  have hdigit := Char.isDigit_iff_toNat.1 (h c hc)
  rw [← Bool.not_eq_true]
  intro hs
  rcases separator_cases hs with hb | ⟨o, ho⟩
  · simp only [isBlank, Bool.or_eq_true, Bool.and_eq_true, decide_eq_true_eq, beq_iff_eq] at hb
    simp only [Char.reduceToNat] at hdigit
    omega
  · cases o <;> cases ho <;> simp at hdigit

/-- An integer that is not negative comes back as itself. -/
theorem respelled_int {n : Int32} (hn : 0 ≤ n.toInt) : Respelled (.literal (.int n)) := by
  obtain ⟨k, hk⟩ := Int.eq_ofNat_of_zero_le hn
  have htext : Cpp.token (.literal (.int n)) = .ofNat k := by
    rw [Cpp.token, Cpp.literal, Literal.text, hk]
    · rfl
    · rintro ⟨⟩
  have hcs : isCharWord (Nat.toDigits 10 k) = true :=
    isCharWord_of_isDigit Nat.toDigits_ne_nil fun _ => Text.isDigit_of_mem_toDigits
  refine .bare _ htext hcs rfl fun _ => ?_
  have hlt : k < Nat.pow 2 31 := by
    have := n.toInt_lt
    rw [hk] at this
    exact Int.ofNat_lt.1 this
  have hback : Int32.ofInt k = n := by
    rw [← Int32.ofInt_toInt n, hk]
  rw [← Text.ofNat, classify_ofNat hlt, hback]
  rfl

/-- A real number without a fraction is written in digits. -/
theorem respelled_real {x : Single} (hx : Single.IsWhole x) : Respelled (.literal (.real x)) := by
  obtain ⟨ds, hne, hds, htext⟩ := Single.text_of_isWhole hx
  exact .bare ds htext (isCharWord_of_isDigit hne hds) rfl (by rintro ⟨⟩)

/-- A truth value comes back as itself. -/
theorem respelled_bool (b : Bool) : Respelled (.literal (.bool b)) := by
  cases b with
  | true => exact .bare "true".toList rfl (by decide) rfl fun _ => by decide
  | false => exact .bare "false".toList rfl (by decide) rfl fun _ => by decide

/-- An identifier comes back with the mark in front of it. -/
theorem respelled_ident {name : Text} (hw : IsWord name.glyphs) : Respelled (.ident name) := by
  have hglyphs : (Cpp.token (.ident name)).glyphs = "intc_".toList.map .scalar ++ name.glyphs :=
    Text.glyphs_ofChars_append "intc_".toList name
  have hwritten : Written (.ident name) ("intc_".toList.map .scalar ++ name.glyphs) [] := by
    refine ⟨?_, isWord_cons_iff.2 ⟨by decide, ?_⟩, ?_, ?_, fun _ => rfl⟩
    · rw [hglyphs, List.map_nil, List.append_nil]
    · intro g hg
      rcases List.mem_append.1 hg with hg | hg
      · have hall : ∀ g ∈ "ntc_".toList.map Glyph.scalar, g.isSeparator = false := by decide
        exact hall g hg
      · exact hw.noSeparator g hg
    · rintro _ ⟨⟩
      exact ⟨'i', rfl⟩
    · rfl
  refine ⟨_, _, hwritten, fun _ => ?_⟩
  have hmark : Cpp.identMark.bytes = 0x69 :: "ntc_".toList.flatMap Text.encodeChar := rfl
  rw [← hglyphs, Text.ofGlyphs_glyphs]
  refine classify_of_startsWith hmark (by decide) (by decide) (by decide) ?_ name
  rintro v (rfl | rfl) <;> decide

/-- **How a word is written**: as nothing, if it only arranges the source, and else as a word. -/
theorem respelled_classify {w : List Glyph} (hw : IsWord w) (hl : Legible w) {t : Token}
    (ht : t = classify (.ofGlyphs w)) :
    t.arranges = true ∧ Cpp.token t = .empty ∨ t.arranges = false ∧ Respelled t := by
  rcases classify_cases (.ofGlyphs w) with
    ⟨t', h, e⟩ | ⟨k, h, e⟩ | ⟨n, h, e⟩ | ⟨x, h, e⟩ | ⟨b, h, e⟩ | e
  all_goals
    rw [e] at ht
    subst ht
  · exact Or.inr ⟨rfl, respelled_type (List.mem_of_find?_eq_some h)⟩
  · obtain ⟨p, hp, rfl⟩ := Option.map_eq_some_iff.1 h
    have hall : ∀ p ∈ Keyword.spellings, ∀ n, p.2 ≠ .unassigned n := by
      simp [Keyword.spellings]
    exact respelled_keyword (hall p (List.mem_of_find?_eq_some hp))
  · exact Or.inr ⟨rfl, respelled_int (toInt_nonneg_of_intWord? hw hl h)⟩
  · rw [realWord?] at h
    split at h
    · obtain ⟨hminus, hplus, hpoint⟩ := not_mem_bytes_of_isWord hw hl
      exact Or.inr ⟨rfl, respelled_real (Single.isWhole_of_ofText? hminus hplus hpoint h)⟩
    · cases h
  · exact Or.inr ⟨rfl, respelled_bool b⟩
  · have hglyphs : (Text.ofGlyphs w).glyphs = w := hl
    exact Or.inr ⟨rfl, respelled_ident (hglyphs.symm ▸ hw)⟩

/-! ### Operators -/

/-- An operator is written as its character and blanks. -/
theorem token_operator {o : Operator} {c : Char} (h : o.char? = some c) :
    ∃ blanks : List Char, blanks.all isBlank = true ∧
      Cpp.token (.operator o) = .ofChars (c :: blanks) := by
  cases o
  case openBrace => cases h; exact ⟨['\n'], by decide, rfl⟩
  case closeBrace => cases h; exact ⟨['\n', '\n'], by decide, rfl⟩
  case semicolon => cases h; exact ⟨['\n'], by decide, rfl⟩
  case unassigned n => cases h
  all_goals
    cases h
    exact ⟨[], by decide, rfl⟩

/-! ### The text of a stream -/

/-- The glyphs of the texts of tokens, one after another. -/
def spelled (ts : List Token) : List Glyph := ts.flatMap fun t => (Cpp.token t).glyphs

/-- The glyphs of one token, and then those of others. -/
theorem spelled_cons (t : Token) (ts : List Token) :
    spelled (t :: ts) = (Cpp.token t).glyphs ++ spelled ts := rfl

/-- A quote is written as its character alone. -/
theorem spelled_quote (ts : List Token) :
    spelled (.operator .quote :: ts) = .scalar '"' :: spelled ts := rfl

/-- A character inside a string is written as it stands. -/
theorem spelled_lone (c : Char) (ts : List Token) :
    spelled (.literal (.string (.ofChars [c])) :: ts) = .scalar c :: spelled ts := by
  have hglyphs : (Cpp.token (.literal (.string (.ofChars [c])))).glyphs = [.scalar c] :=
    Text.glyphs_ofChars [c]
  rw [spelled_cons, hglyphs, List.singleton_append]

/-- The glyphs of an operator and then those of other tokens. -/
theorem exists_spelled_operator {o : Operator} {c : Char} (h : o.char? = some c)
    (ts : List Token) : ∃ blanks : List Char, blanks.all isBlank = true ∧
      spelled (.operator o :: ts) = .scalar c :: (blanks.map .scalar ++ spelled ts) := by
  obtain ⟨blanks, hb, ht⟩ := token_operator h
  refine ⟨blanks, hb, ?_⟩
  rw [spelled_cons, ht, Text.glyphs_ofChars]
  rfl

/-- A word that can only be followed by a separator or the closing quote ends where it is
written. -/
theorem EndsPiece.endsWord {ts : List Token} (h : EndsPiece ts) : EndsWord (spelled ts) := by
  cases ts with
  | nil => exact endsWord_nil
  | cons t ts =>
      rcases h t rfl with rfl | ⟨c, hc, rfl⟩
      · exact endsWord_cons (by decide) _
      · rw [spelled_lone]
        exact endsWord_cons hc _

/-- The text of a stream begins with a character, outside of strings. -/
theorem Stream.beginsClean {ts : List Token} {m : Mode} (h : Stream normal ts m) :
    BeginsClean (spelled ts) := by
  induction ts with
  | nil => rintro _ ⟨⟩
  | cons t ts ih =>
      cases h with
      | operator hc _ _ _ =>
          obtain ⟨blanks, -, hs⟩ := exists_spelled_operator hc ts
          rw [hs]
          rintro _ ⟨⟩
          exact ⟨_, rfl⟩
      | openString _ =>
          rintro _ ⟨⟩
          exact ⟨_, rfl⟩
      | word hw hl ht h =>
          rcases respelled_classify hw hl ht with ⟨-, he⟩ | ⟨-, word, blanks, hwritten, -⟩
          · rw [spelled_cons, he]
            exact ih h
          · rw [spelled_cons, hwritten.glyphs]
            obtain ⟨g, gs, rfl⟩ := List.exists_cons_of_ne_nil hwritten.isWord.ne_nil
            exact hwritten.begins

/-- **The texts of a stream are joined without seams.** -/
theorem Stream.glyphs_tokens {m m' : Mode} {ts : List Token} (h : Stream m ts m') :
    (Cpp.tokens ts).glyphs = spelled ts := by
  have hjoin (t : Token) {ts : List Token} (hb : BeginsClean (spelled ts))
      (ih : (Cpp.tokens ts).glyphs = spelled ts) :
      (Cpp.tokens (t :: ts)).glyphs = spelled (t :: ts) := by
    rw [spelled_cons, ← ih]
    exact Text.glyphs_append _ (ih ▸ hb)
  induction h with
  | nil => rfl
  | operator _ _ _ h ih => exact hjoin _ h.beginsClean ih
  | word _ _ _ h ih => exact hjoin _ h.beginsClean ih
  | closeString h ih => exact hjoin _ h.beginsClean ih
  | piece _ _ he _ ih =>
      exact hjoin _ (fun g hg => exists_scalar_of_isSeparator (he.endsWord g hg)) ih
  -- A string may begin with stray bytes, but what stands before it is complete.
  | openString _ ih =>
      rw [spelled_quote, ← ih]
      exact Text.glyphs_ofChars_append ['"'] _
  | @lone c _ _ _ _ _ _ ih =>
      rw [spelled_lone, ← ih]
      exact Text.glyphs_ofChars_append [c] _

/-! ### Reading the text of a stream -/

/-- An operator is read as itself. -/
theorem read_spelled_operator {o : Operator} {c : Char} (h : o.char? = some c) (hh : o ≠ .hash)
    (hq : o ≠ .quote) (ts : List Token) :
    normal.read (spelled (.operator o :: ts))
      = ((normal.read (spelled ts)).1, .operator o :: (normal.read (spelled ts)).2) := by
  obtain ⟨blanks, hb, hs⟩ := exists_spelled_operator h ts
  rw [hs, Mode.read_normal_operator h hh hq, read_normal_blanks hb]

/-- A word is classified, if something behind it ends it. -/
theorem read_spelled_word {t : Token} {word : List Glyph} {blanks : List Char}
    (hw : Written t word blanks) {ts : List Token} (he : blanks = [] → EndsWord (spelled ts)) :
    normal.read (spelled (t :: ts))
      = ((normal.read (spelled ts)).1,
        classify (.ofGlyphs word) :: (normal.read (spelled ts)).2) := by
  rw [spelled_cons, hw.glyphs, List.append_assoc,
    Mode.read_normal_word hw.isWord (endsWord_blanks hw.blank he), read_normal_blanks hw.blank]

/-- A separator inside a string is a piece of its own. -/
theorem read_spelled_lone {c : Char} (hc : (Glyph.scalar c).isSeparator = true) {escaped : Bool}
    (hq : c = '"' → escaped = true) (ts : List Token) :
    (Mode.string escaped).read (spelled (.literal (.string (.ofChars [c])) :: ts))
      = (((Mode.string (Mode.escapes (.ofChars [c]))).read (spelled ts)).1,
        .literal (.string (.ofChars [c]))
          :: ((Mode.string (Mode.escapes (.ofChars [c]))).read (spelled ts)).2) := by
  rw [spelled_lone, Mode.read_separator _ hc,
    Mode.step_string (by simpa [Glyph.char] using hq), ← ofGlyphs_map_scalar]
  rfl

/-- A word inside a string is a piece of its own, if something behind it ends it. -/
theorem read_spelled_piece {w : List Glyph} (hw : IsWord w) (hl : Legible w) (escaped : Bool)
    {ts : List Token} (he : EndsPiece ts) :
    (Mode.string escaped).read (spelled (.literal (.string (.ofGlyphs w)) :: ts))
      = (((Mode.string (Mode.escapes (.ofGlyphs w))).read (spelled ts)).1,
        .literal (.string (.ofGlyphs w))
          :: ((Mode.string (Mode.escapes (.ofGlyphs w))).read (spelled ts)).2) := by
  have hglyphs : (Cpp.token (.literal (.string (.ofGlyphs w)))).glyphs = w := hl
  rw [spelled_cons, hglyphs, Mode.read_word _ hw he.endsWord,
    Mode.step_string fun h => absurd h (Mode.head_word_ne hw (by decide))]
  rfl

/-! ### Marks -/

/-- Glyphs that are no separators leave no trace among the marks: they are a word, or the beginning
of one. -/
theorem marks_read_append {v : List Glyph} (hv : ∀ g ∈ v, g.isSeparator = false)
    (gs : List Glyph) :
    (normal.read (v ++ gs)).1 = (normal.read gs).1 ∧
    (normal.read (v ++ gs)).2.filter Token.isMark = (normal.read gs).2.filter Token.isMark := by
  by_cases hne : v = []
  · rw [hne]
    exact ⟨rfl, rfl⟩
  have hmark {w gs : List Glyph} (hw : IsWord w) (hgs : EndsWord gs) :
      (normal.read (w ++ gs)).1 = (normal.read gs).1 ∧
      (normal.read (w ++ gs)).2.filter Token.isMark = (normal.read gs).2.filter Token.isMark := by
    rw [Mode.read_normal_word hw hgs, List.filter_cons_of_neg (by rw [isMark_classify]; decide)]
    exact ⟨rfl, rfl⟩
  induction gs using cut_cases with
  | nil => exact hmark ⟨hne, hv⟩ endsWord_nil
  | separator g gs hg _ => exact hmark ⟨hne, hv⟩ (endsWord_cons hg gs)
  | word w gs hw hgs _ =>
      -- The two run together into one word.
      have hvw : IsWord (v ++ w) := by
        refine ⟨by simp [hne], fun g hg => ?_⟩
        rcases List.mem_append.1 hg with hg | hg
        · exact hv g hg
        · exact hw.noSeparator g hg
      rw [← List.append_assoc, (hmark hvw hgs).1, (hmark hvw hgs).2, (hmark hw hgs).1,
        (hmark hw hgs).2]
      exact ⟨rfl, rfl⟩

/-- **The marks of a written stream**: reading its text leads to the mode in which the stream ends,
and yields the operators and the pieces of strings of the stream, in order. -/
theorem Stream.marks_read {m m' : Mode} {ts : List Token} (h : Stream m ts m') :
    (m.read (spelled ts)).1 = m' ∧
    (m.read (spelled ts)).2.filter Token.isMark = ts.filter Token.isMark := by
  induction h with
  | nil => exact ⟨rfl, rfl⟩
  | operator hc hh hq _ ih =>
      rw [read_spelled_operator hc hh hq, List.filter_cons_of_pos rfl, ih.2]
      exact ⟨ih.1, rfl⟩
  | @word w t ts m hw hl ht _ ih =>
      have hspelled : (normal.read (spelled (t :: ts))).1 = (normal.read (spelled ts)).1 ∧
          (normal.read (spelled (t :: ts))).2.filter Token.isMark
            = (normal.read (spelled ts)).2.filter Token.isMark := by
        rcases respelled_classify hw hl ht with ⟨-, he⟩ | ⟨-, word, blanks, hwritten, -⟩
        · rw [spelled_cons, he]
          exact ⟨rfl, rfl⟩
        · rw [spelled_cons, hwritten.glyphs, List.append_assoc,
            ← read_normal_blanks hwritten.blank (spelled ts)]
          exact marks_read_append hwritten.isWord.noSeparator _
      rw [hspelled.1, hspelled.2, ih.1, ih.2,
        List.filter_cons_of_neg (by rw [ht, isMark_classify]; decide)]
      exact ⟨rfl, rfl⟩
  | openString _ ih =>
      rw [spelled_quote, Mode.read_normal_quote, List.filter_cons_of_pos rfl, ih.2]
      exact ⟨ih.1, rfl⟩
  | closeString _ ih =>
      rw [spelled_quote, Mode.read_string_quote, List.filter_cons_of_pos rfl, ih.2]
      exact ⟨ih.1, rfl⟩
  | lone hc hq _ ih =>
      rw [read_spelled_lone hc hq, List.filter_cons_of_pos rfl, ih.2]
      exact ⟨ih.1, rfl⟩
  | piece hw hl he _ ih =>
      rw [read_spelled_piece hw hl _ he, List.filter_cons_of_pos rfl, ih.2]
      exact ⟨ih.1, rfl⟩

end IntLang
