import IntLang.Proofs.Token.Reading
import IntLang.Proofs.Token.Words

/-!
# The grammar of token streams

`Stream m ts m'` says that the tokens `ts` can be read one after another from the mode `m` to the
mode `m'`. It does not speak of the text they were read from: blanks and comments have left no
trace, and of the words and the pieces of strings only that they are such is kept.

Reading yields a stream (`stream_run`, `stream_lex`), so whatever is shown of streams, by one case
for each kind of token, holds of the tokens of every text. A stream may be cut in two anywhere
(`Stream.exists_middle`), and what its tokens can be is said once (`Stream.mem_cases`).
-/

namespace IntLang

/-- The mode in which tokens go on: a comment yields none, and ends in normal mode. -/
def Mode.plain : Mode → Mode
  | .comment => .normal
  | m => m

/-- Whether the tokens behind a word inside a string can stand there: there are none, or first
comes the closing quote or a separator. -/
def EndsPiece (ts : List Token) : Prop :=
  ∀ t ∈ ts.head?, t = .operator .quote ∨
    ∃ c, (Glyph.scalar c).isSeparator = true ∧ t = .literal (.string (.ofChars [c]))

/-- The token lists that can be read from one mode to another. -/
inductive Stream : Mode → List Token → Mode → Prop
  | nil (m : Mode) : Stream m [] m
  | operator {o : Operator} {c : Char} {ts : List Token} {m : Mode} :
      o.char? = some c → o ≠ .hash → o ≠ .quote → Stream .normal ts m →
      Stream .normal (.operator o :: ts) m
  | word {w : List Glyph} {t : Token} {ts : List Token} {m : Mode} :
      IsWord w → Legible w → t = classify (.ofGlyphs w) → Stream .normal ts m →
      Stream .normal (t :: ts) m
  | openString {ts : List Token} {m : Mode} :
      Stream (.string false) ts m → Stream .normal (.operator .quote :: ts) m
  | closeString {ts : List Token} {m : Mode} :
      Stream .normal ts m → Stream (.string false) (.operator .quote :: ts) m
  | lone {c : Char} {escaped : Bool} {ts : List Token} {m : Mode} :
      (Glyph.scalar c).isSeparator = true → (c = '"' → escaped = true) →
      Stream (.string (Mode.escapes (.ofChars [c]))) ts m →
      Stream (.string escaped) (.literal (.string (.ofChars [c])) :: ts) m
  | piece {w : List Glyph} {escaped : Bool} {ts : List Token} {m : Mode} :
      IsWord w → Legible w → EndsPiece ts →
      Stream (.string (Mode.escapes (.ofGlyphs w))) ts m →
      Stream (.string escaped) (.literal (.string (.ofGlyphs w)) :: ts) m

/-! ### Reading yields a stream -/

/-- Behind a word in a string, fragments that end it yield tokens that can stand there. -/
theorem endsPiece_run {frags : List (List Glyph)} (hf : Fragmented frags)
    (he : EndsWord frags.flatten) (escaped : Bool) :
    EndsPiece ((Mode.string escaped).run frags).2 := by
  cases hf with
  | nil =>
      intro t ht
      cases ht
  | @separator g rest hg _ =>
      obtain ⟨c, rfl⟩ := exists_scalar_of_isSeparator hg
      intro t ht
      by_cases hq : c = '"' → escaped = true
      · rw [Mode.run_cons, Mode.step_string (by simpa [Glyph.char] using hq)] at ht
        exact Or.inr ⟨c, hg, (Option.some.inj ht).symm⟩
      · obtain ⟨rfl, hesc⟩ := Classical.not_imp.1 hq
        rw [Bool.not_eq_true] at hesc
        subst hesc
        exact Or.inl (Option.some.inj ht).symm
  | word hw _ _ => exact absurd he (hw.not_endsWord _)

/-- **Reading yields a stream**, from every mode and over every cutting of legible glyphs. -/
theorem stream_run {frags : List (List Glyph)} (hf : Fragmented frags)
    (hl : Legible frags.flatten) (m : Mode) :
    Stream m.plain (m.run frags).2 (m.run frags).1.plain := by
  induction hf generalizing m with
  | nil => exact .nil m.plain
  | @separator g rest hg _ ih =>
      have hl' : Legible ([g] ++ rest.flatten) := hl
      have ih := ih hl'.right
      obtain ⟨c, rfl⟩ := exists_scalar_of_isSeparator hg
      rw [Mode.run_cons]
      cases m with
      | normal =>
          rcases separator_cases hg with hb | ⟨o, ho⟩
          · rw [Mode.step_normal_blank hb]
            exact ih .normal
          · by_cases hh : o = .hash
            · subst hh
              cases ho
              exact ih .comment
            by_cases hq : o = .quote
            · subst hq
              cases ho
              exact .openString (ih (.string false))
            · rw [Mode.step_normal_operator ho hh hq]
              exact .operator ho hh hq (ih .normal)
      | string escaped =>
          by_cases hq : c = '"' → escaped = true
          · rw [Mode.step_string (by simpa [Glyph.char] using hq)]
            exact .lone hg hq (ih (.string _))
          · obtain ⟨rfl, hesc⟩ := Classical.not_imp.1 hq
            rw [Bool.not_eq_true] at hesc
            subst hesc
            exact .closeString (ih .normal)
      | comment =>
          by_cases hc : c = '#'
          · subst hc
            exact ih .normal
          · rw [Mode.step_comment (by simpa [Glyph.char] using hc)]
            exact ih .comment
  | @word w rest hw hrest hf ih =>
      have hl' : Legible (w ++ rest.flatten) := hl
      have ih := ih hl'.right
      rw [Mode.run_cons]
      cases m with
      | normal =>
          rw [Mode.step_normal_word hw]
          exact .word hw hl'.left rfl (ih .normal)
      | string escaped =>
          rw [Mode.step_string fun h => absurd h (Mode.head_word_ne hw (by decide))]
          exact .piece hw hl'.left (endsPiece_run hf hrest _) (ih (.string _))
      | comment =>
          rw [Mode.step_comment (Mode.head_word_ne hw (by decide))]
          exact ih .comment

/-- The tokens of a text are a stream from normal mode to the mode in which the text ends. -/
theorem stream_lex (source : Text) :
    Stream .normal (tokenize source) (lex source).1.plain := by
  refine stream_run (fragmented_cut source.glyphs) ?_ .normal
  rw [flatten_cut]
  exact Legible.glyphs source

/-! ### Parts of a stream -/

/-- What comes first among tokens that can follow a word in a string can follow it, too. -/
theorem EndsPiece.left {ts more : List Token} (h : EndsPiece (ts ++ more)) : EndsPiece ts := by
  intro t ht
  refine h t ?_
  rw [List.head?_append, Option.mem_def.1 ht]
  rfl

/-- **A stream may be cut in two anywhere**: the mode in which the first part ends is the one in
which the second begins. -/
theorem Stream.exists_middle {ts more : List Token} {m m' : Mode} (h : Stream m (ts ++ more) m') :
    ∃ n, Stream m ts n ∧ Stream n more m' := by
  induction ts generalizing m with
  | nil => exact ⟨m, .nil m, h⟩
  | cons t ts ih =>
      cases h with
      | operator hc hh hq h =>
          obtain ⟨n, h1, h2⟩ := ih h
          exact ⟨n, .operator hc hh hq h1, h2⟩
      | word hw hl ht h =>
          obtain ⟨n, h1, h2⟩ := ih h
          exact ⟨n, .word hw hl ht h1, h2⟩
      | openString h =>
          obtain ⟨n, h1, h2⟩ := ih h
          exact ⟨n, .openString h1, h2⟩
      | closeString h =>
          obtain ⟨n, h1, h2⟩ := ih h
          exact ⟨n, .closeString h1, h2⟩
      | lone hs hq h =>
          obtain ⟨n, h1, h2⟩ := ih h
          exact ⟨n, .lone hs hq h1, h2⟩
      | piece hw hl he h =>
          obtain ⟨n, h1, h2⟩ := ih h
          exact ⟨n, .piece hw hl (EndsPiece.left he) h1, h2⟩

/-- Around an operator other than the quote the mode is normal: it stands outside of strings. -/
theorem Stream.at_operator {o : Operator} (ho : o ≠ .quote) {ts more : List Token} {m m' : Mode}
    (h : Stream m (ts ++ .operator o :: more) m') :
    Stream m ts .normal ∧ Stream .normal more m' := by
  obtain ⟨n, h1, h2⟩ := h.exists_middle
  cases h2 with
  | operator _ _ _ h2 => exact ⟨h1, h2⟩
  | word _ _ ht _ =>
      have := isMark_classify (.ofGlyphs ‹List Glyph›)
      rw [← ht] at this
      cases this
  | openString _ => exact absurd rfl ho
  | closeString _ => exact absurd rfl ho

/-- **The tokens of a stream**: an operator other than the hash, a piece of a string, or what a word
is classified as. -/
theorem Stream.mem_cases {m m' : Mode} {ts : List Token} (h : Stream m ts m') {t : Token}
    (ht : t ∈ ts) :
    (∃ o c, o.char? = some c ∧ o ≠ .hash ∧ t = .operator o) ∨
    (∃ content, t = .literal (.string content)) ∨
    ∃ w, IsWord w ∧ Legible w ∧ t = classify (.ofGlyphs w) := by
  induction h with
  | nil => cases ht
  | operator hc hh _ _ ih =>
      rcases List.mem_cons.1 ht with rfl | ht
      · exact Or.inl ⟨_, _, hc, hh, rfl⟩
      · exact ih ht
  | word hw hl hc _ ih =>
      rcases List.mem_cons.1 ht with rfl | ht
      · exact Or.inr (Or.inr ⟨_, hw, hl, hc⟩)
      · exact ih ht
  | openString _ ih | closeString _ ih =>
      rcases List.mem_cons.1 ht with rfl | ht
      · exact Or.inl ⟨.quote, '"', rfl, by decide, rfl⟩
      · exact ih ht
  | lone _ _ _ ih | piece _ _ _ _ ih =>
      rcases List.mem_cons.1 ht with rfl | ht
      · exact Or.inr (Or.inl ⟨_, rfl⟩)
      · exact ih ht

/-- What is neither an operator nor a piece of a string was read from a word. -/
theorem Stream.exists_word {m m' : Mode} {ts : List Token} (h : Stream m ts m') {t : Token}
    (ht : t ∈ ts) (hm : t.isMark = false) :
    ∃ w, IsWord w ∧ Legible w ∧ t = classify (.ofGlyphs w) := by
  rcases h.mem_cases ht with ⟨o, c, -, -, rfl⟩ | ⟨content, rfl⟩ | hword
  · cases hm
  · cases hm
  · exact hword

/-- The tokens that stand outside of strings and neither open nor close one: words, and operators
other than the quote. -/
inductive IsPlain : Token → Prop
  | word {w : List Glyph} : IsWord w → Legible w → IsPlain (classify (.ofGlyphs w))
  | operator {o : Operator} {c : Char} :
      o.char? = some c → o ≠ .hash → o ≠ .quote → IsPlain (.operator o)

/-- What is neither an operator nor a piece of a string is plain. -/
theorem Stream.isPlain {m m' : Mode} {ts : List Token} (h : Stream m ts m') {t : Token}
    (ht : t ∈ ts) (hm : t.isMark = false) : IsPlain t := by
  obtain ⟨w, hw, hl, rfl⟩ := h.exists_word ht hm
  exact .word hw hl

/-- Plain tokens are a stream outside of strings. -/
theorem stream_of_isPlain {ts : List Token} (h : ∀ t ∈ ts, IsPlain t) :
    Stream .normal ts .normal := by
  induction ts with
  | nil => exact .nil _
  | cons t ts ih =>
      have hts := ih fun u hu => h u (List.mem_cons_of_mem t hu)
      cases h t List.mem_cons_self with
      | word hw hl => exact .word hw hl rfl hts
      | operator hc hh hq => exact .operator hc hh hq hts

/-- Without tokens the mode stays. -/
theorem Stream.mode_eq {m m' : Mode} (h : Stream m [] m') : m = m' := by
  cases h
  rfl

/-- A stream that ends outside of strings may be followed by any other. -/
theorem Stream.append {m m' : Mode} {ts more : List Token} (h : Stream m ts .normal)
    (h' : Stream .normal more m') : Stream m (ts ++ more) m' := by
  induction ts generalizing m with
  | nil =>
      rw [h.mode_eq]
      exact h'
  | cons t ts ih =>
      cases h with
      | operator hc hh hq h => exact .operator hc hh hq (ih h)
      | word hw hl ht h => exact .word hw hl ht (ih h)
      | openString h => exact .openString (ih h)
      | closeString h => exact .closeString (ih h)
      | lone hs hq h => exact .lone hs hq (ih h)
      | piece hw hl he h =>
          refine .piece hw hl ?_ (ih h)
          -- A string that has not ended yet has tokens left, and the first of them decides.
          cases ts with
          | nil => exact absurd h.mode_eq (by rintro ⟨⟩)
          | cons t ts => exact he

end IntLang
