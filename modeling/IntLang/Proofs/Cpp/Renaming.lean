import IntLang.Proofs.Cpp.Spelling
import Mathlib.Data.List.Chain

/-!
# Writing and reading is a renaming

The text that is written for a source is read again token by token. Every token comes back in its
place, most of them as they are; an identifier comes back with the mark in front of it, and the
words that C++ spells otherwise come back as identifiers (`Cpp.renamed`). What only arranges the
source does not come back.

Two things are in the way. A real number without a fraction is written like an integer, and a word
that clings to the next one runs together with it. `Parted` says that the second does not happen.
-/

namespace IntLang

open Mode (normal)

/-- Whether a token is a word: an identifier, a type, a keyword or a value that is no string. -/
def Token.isWord : Token → Bool
  | .ident _ => true
  | .type _ => true
  | .keyword _ => true
  | .literal (.string _) => false
  | .literal _ => true
  | _ => false

/-- Whether no identifier and no value is followed by a word. -/
def Parted (ts : List Token) : Prop :=
  ts.IsChain fun t u => t.clings = true → u.isWord = false

instance (ts : List Token) : Decidable (Parted ts) :=
  inferInstanceAs (Decidable (ts.IsChain _))

/-- The tokens that are written. -/
def Cpp.kept (ts : List Token) : List Token := ts.filter fun t => !t.arranges

/-- What arranges the source is not kept. -/
theorem Cpp.kept_cons_of_arranges {t : Token} (h : t.arranges = true) (ts : List Token) :
    kept (t :: ts) = kept ts :=
  List.filter_cons_of_neg (by rw [h]; decide)

/-- All else is kept. -/
theorem Cpp.kept_cons {t : Token} (h : t.arranges = false) (ts : List Token) :
    kept (t :: ts) = t :: kept ts :=
  List.filter_cons_of_pos (by rw [h]; rfl)

/-- A word is classified as a word. -/
theorem isWord_classify (w : Text) : (classify w).isWord = true := by
  rcases classify_cases w with ⟨t, -, h⟩ | ⟨k, -, h⟩ | ⟨n, -, h⟩ | ⟨x, -, h⟩ | ⟨b, -, h⟩ | h <;>
    rw [h] <;> rfl

/-- The text of a stream ends a word, if the first token in it that is kept is no word. -/
theorem Stream.endsWord {ts : List Token} {m : Mode} (h : Stream normal ts m)
    (hhead : ∀ t ∈ (Cpp.kept ts).head?, t.isWord = false) : EndsWord (spelled ts) := by
  induction ts with
  | nil => exact endsWord_nil
  | cons t ts ih =>
      cases h with
      | operator hc _ _ _ =>
          obtain ⟨blanks, -, hs⟩ := exists_spelled_operator hc ts
          rw [hs]
          exact endsWord_cons (isSeparator_of_char? hc) _
      | openString _ => exact endsWord_cons (by decide) _
      | word hw hl ht h =>
          rcases respelled_classify hw hl ht with ⟨ha, he⟩ | ⟨ha, -⟩
          · rw [Cpp.kept_cons_of_arranges ha] at hhead
            rw [spelled_cons, he]
            exact ih h hhead
          · rw [Cpp.kept_cons ha] at hhead
            have hword : t.isWord = true := by rw [ht, isWord_classify]
            rw [hhead t rfl] at hword
            cases hword

/-- **The text of a stream comes back renamed**, if nothing runs together in it. -/
theorem Stream.read_spelled {m m' : Mode} {ts : List Token} (h : Stream m ts m')
    (hreal : ∀ t ∈ Cpp.kept ts, t.isReal = false) (hparted : Parted (Cpp.kept ts)) :
    m.read (spelled ts) = (m', (Cpp.kept ts).map Cpp.renamed) := by
  -- Behind a token that is kept, what is asked of the stream is asked of its rest.
  have hrest {t : Token} {ts : List Token} (ht : t.arranges = false)
      (hreal : ∀ u ∈ Cpp.kept (t :: ts), u.isReal = false) (hparted : Parted (Cpp.kept (t :: ts))) :
      (∀ u ∈ Cpp.kept ts, u.isReal = false) ∧ Parted (Cpp.kept ts) := by
    rw [Cpp.kept_cons ht] at hreal hparted
    exact ⟨fun u hu => hreal u (List.mem_cons_of_mem t hu), hparted.tail⟩
  induction h with
  | nil => rfl
  | operator hc hh hq _ ih =>
      obtain ⟨hreal, hparted⟩ := hrest rfl hreal hparted
      rw [read_spelled_operator hc hh hq, ih hreal hparted]
      rfl
  | @word w t ts m hw hl ht h ih =>
      rcases respelled_classify hw hl ht with ⟨ha, he⟩ | ⟨ha, word, blanks, hwritten, hback⟩
      · rw [Cpp.kept_cons_of_arranges ha] at hreal hparted ⊢
        rw [spelled_cons, he]
        exact ih hreal hparted
      · obtain ⟨hreal', hparted'⟩ := hrest ha hreal hparted
        rw [Cpp.kept_cons ha] at hreal hparted ⊢
        have hend : blanks = [] → EndsWord (spelled ts) := fun hb =>
          h.endsWord fun u hu => (List.isChain_cons.1 hparted).1 u hu (hwritten.clings hb)
        rw [read_spelled_word hwritten hend, ih hreal' hparted',
          hback (hreal t List.mem_cons_self)]
        rfl
  | openString _ ih =>
      obtain ⟨hreal, hparted⟩ := hrest rfl hreal hparted
      rw [spelled_quote, Mode.read_normal_quote, ih hreal hparted]
      rfl
  | closeString _ ih =>
      obtain ⟨hreal, hparted⟩ := hrest rfl hreal hparted
      rw [spelled_quote, Mode.read_string_quote, ih hreal hparted]
      rfl
  | lone hc hq _ ih =>
      obtain ⟨hreal, hparted⟩ := hrest rfl hreal hparted
      rw [read_spelled_lone hc hq, ih hreal hparted]
      rfl
  | piece hw hl he _ ih =>
      obtain ⟨hreal, hparted⟩ := hrest rfl hreal hparted
      rw [read_spelled_piece hw hl _ he, ih hreal hparted]
      rfl

/-- **Writing and reading is a renaming**: the text that is written for the tokens of a source is
read as these tokens, renamed, if there are no real numbers among them and no two words run
together. -/
theorem tokenize_tokens {source : Text}
    (hreal : ∀ t ∈ Cpp.kept (tokenize source), t.isReal = false)
    (hparted : Parted (Cpp.kept (tokenize source))) :
    tokenize (Cpp.tokens (tokenize source)) = (Cpp.kept (tokenize source)).map Cpp.renamed := by
  have hstream := stream_lex source
  rw [tokenize, lex, hstream.glyphs_tokens, ← Mode.read, hstream.read_spelled hreal hparted]

/-- Types and keywords of C++ come back as identifiers, and a string that has an escaped quote and
a hash in it, and no end, comes back in the same pieces. -/
theorem tokenize_tokens_open_string :
    (∀ t ∈ Cpp.kept (tokenize "global string s; ret s + \"\\\"#"), t.isReal = false) ∧
    Parted (Cpp.kept (tokenize "global string s; ret s + \"\\\"#")) ∧
    tokenize (Cpp.tokens (tokenize "global string s; ret s + \"\\\"#"))
      = [.ident "std::string", .ident "intc_s", .operator .semicolon, .ident "return",
        .ident "intc_s", .operator .plus, .operator .quote, .literal (.string "\\"),
        .literal (.string "\""), .literal (.string "#")] :=
  ⟨by decide +kernel, by decide +kernel,
    (tokenize_tokens (by decide +kernel) (by decide +kernel)).trans (by decide +kernel)⟩

end IntLang
