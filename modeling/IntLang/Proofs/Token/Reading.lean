import IntLang.Proofs.Text.Seams
import IntLang.Proofs.Token.Cutting

/-!
# Reading, glyph by glyph

`Mode.step` reads a fragment and `Mode.run` a list of them. This module says once what a step can
do, for every mode and every kind of fragment, and gives the equations of `Mode.read`, which cuts
glyphs and reads the fragments: what a separator in front of them does, and what a word in front
of them does. Texts may be read one after another where a word ends (`lex_append`).
-/

namespace IntLang

/-! ### Characters of operators -/

/-- Operators with the same character are the same. -/
theorem Operator.eq_of_char?_eq {o o' : Operator} {c : Char} (h : o.char? = some c)
    (h' : o'.char? = some c) : o = o' :=
  Option.some.inj ((ofChar?_eq_some_iff.2 h).symm.trans (ofChar?_eq_some_iff.2 h'))

/-- An operator character is a separator. -/
theorem isSeparator_of_char? {o : Operator} {c : Char} (h : o.char? = some c) :
    (Glyph.scalar c).isSeparator = true := by
  rw [Glyph.isSeparator, Glyph.char, Operator.isOperatorChar, Operator.ofChar?_eq_some_iff.2 h,
    Option.isSome_some, Bool.or_true]

/-- A blank is a separator. -/
theorem isSeparator_of_isBlank {c : Char} (h : isBlank c = true) :
    (Glyph.scalar c).isSeparator = true := by
  rw [Glyph.isSeparator, Glyph.char, h, Bool.true_or]

/-- A separator is blank or an operator character. -/
theorem separator_cases {c : Char} (h : (Glyph.scalar c).isSeparator = true) :
    isBlank c = true ∨ ∃ o : Operator, o.char? = some c := by
  have h' : (isBlank c || (Operator.ofChar? c).isSome) = true := h
  rcases Bool.or_eq_true_iff.1 h' with hb | ho
  · exact Or.inl hb
  · obtain ⟨o, ho⟩ := Option.isSome_iff_exists.1 ho
    exact Or.inr ⟨o, Operator.ofChar?_eq_some_iff.1 ho⟩

/-- A glyph that is no separator is neither blank nor an operator character. -/
theorem char_of_not_isSeparator {g : Glyph} (h : g.isSeparator = false) :
    isBlank g.char = false ∧ Operator.ofChar? g.char = none := by
  have h' : (isBlank g.char || (Operator.ofChar? g.char).isSome) = false := h
  rw [Bool.or_eq_false_iff, Option.isSome_eq_false_iff, Option.isNone_iff_eq_none] at h'
  exact h'

/-- A blank glyph is a character. -/
theorem exists_scalar_of_isBlank {g : Glyph} (h : isBlank g.char = true) :
    ∃ c, g = .scalar c ∧ isBlank c = true := by
  have hs : g.isSeparator = true := by rw [Glyph.isSeparator, h, Bool.true_or]
  obtain ⟨c, rfl⟩ := exists_scalar_of_isSeparator hs
  exact ⟨c, rfl, h⟩

/-- A glyph that is looked up as an operator is its character. -/
theorem exists_scalar_of_ofChar? {g : Glyph} {o : Operator}
    (h : Operator.ofChar? g.char = some o) : ∃ c, g = .scalar c ∧ o.char? = some c := by
  have hs : g.isSeparator = true := by
    rw [Glyph.isSeparator, Operator.isOperatorChar, h, Option.isSome_some, Bool.or_true]
  obtain ⟨c, rfl⟩ := exists_scalar_of_isSeparator hs
  exact ⟨c, rfl, Operator.ofChar?_eq_some_iff.1 h⟩

namespace Mode

/-! ### One fragment -/

/-- A blank is skipped. -/
theorem step_normal_blank {c : Char} (h : isBlank c = true) :
    normal.step [.scalar c] = (normal, []) := by
  simp [step, Glyph.char, h]

/-- An operator is a token, unless it opens a string or a comment. -/
theorem step_normal_operator {o : Operator} {c : Char} (h : o.char? = some c)
    (hh : o ≠ .hash) (hq : o ≠ .quote) :
    normal.step [.scalar c] = (normal, [.operator o]) := by
  cases o
  case hash => exact absurd rfl hh
  case quote => exact absurd rfl hq
  case unassigned n => cases h
  all_goals
    cases h
    rfl

/-- A word is classified. -/
theorem step_normal_word {w : List Glyph} (hw : IsWord w) :
    normal.step w = (normal, [classify (.ofGlyphs w)]) := by
  obtain ⟨g, gs, rfl⟩ := List.exists_cons_of_ne_nil hw.ne_nil
  obtain ⟨hb, ho⟩ := char_of_not_isSeparator (isWord_cons_iff.1 hw).1
  simp [step, hb, ho]

/-- In a string every fragment is content, except for a quote that no backslash takes away. -/
theorem step_string {escaped : Bool} {frag : List Glyph}
    (h : (frag.head?).map Glyph.char = some '"' → escaped = true) :
    (string escaped).step frag
      = (string (escapes (.ofGlyphs frag)), [.literal (.string (.ofGlyphs frag))]) := by
  simp only [step]
  rw [if_neg]
  intro hc
  rw [Bool.and_eq_true, decide_eq_true_eq, Bool.not_eq_true'] at hc
  rw [h hc.1] at hc
  cases hc.2

/-- In a comment every fragment is skipped, except for the hash that ends it. -/
theorem step_comment {frag : List Glyph} (h : (frag.head?).map Glyph.char ≠ some '#') :
    comment.step frag = (comment, []) := by
  simp only [step, h, if_false]

/-- The glyph in front of a word is none of the characters that separate words. -/
theorem head_word_ne {w : List Glyph} (hw : IsWord w) {c : Char}
    (hc : (Glyph.scalar c).isSeparator = true) : (w.head?).map Glyph.char ≠ some c := by
  obtain ⟨g, gs, rfl⟩ := List.exists_cons_of_ne_nil hw.ne_nil
  obtain ⟨hb, ho⟩ := char_of_not_isSeparator (isWord_cons_iff.1 hw).1
  intro h
  rw [List.head?_cons, Option.map_some, Option.some.injEq] at h
  rw [h] at hb ho
  rw [Glyph.isSeparator, Glyph.char, Operator.isOperatorChar, hb, ho] at hc
  cases hc

/-! ### Many fragments -/

/-- Reading a fragment and then others. -/
theorem run_cons (m : Mode) (frag : List Glyph) (frags : List (List Glyph)) :
    m.run (frag :: frags) = (((m.step frag).1.run frags).1,
      (m.step frag).2 ++ ((m.step frag).1.run frags).2) := rfl

/-- Reading some fragments and then others. -/
theorem run_append (m : Mode) (frags more : List (List Glyph)) :
    m.run (frags ++ more) = (((m.run frags).1.run more).1,
      (m.run frags).2 ++ ((m.run frags).1.run more).2) := by
  induction frags generalizing m with
  | nil => rfl
  | cons frag frags ih =>
      rw [List.cons_append, run_cons, run_cons, ih, List.append_assoc]

/-! ### Glyphs -/

/-- Reading glyphs: the mode behind them, and the tokens they yield. -/
def read (m : Mode) (gs : List Glyph) : Mode × List Token := m.run (cut gs)

/-- Reading no glyphs. -/
theorem read_nil (m : Mode) : m.read [] = (m, []) := rfl

/-- Reading a separator and then other glyphs. -/
theorem read_separator (m : Mode) {g : Glyph} (hg : g.isSeparator = true) (gs : List Glyph) :
    m.read (g :: gs) = (((m.step [g]).1.read gs).1,
      (m.step [g]).2 ++ ((m.step [g]).1.read gs).2) := by
  rw [read, cut_cons_of_isSeparator hg, run_cons]
  rfl

/-- Reading a word and then glyphs that end it. -/
theorem read_word (m : Mode) {w gs : List Glyph} (hw : IsWord w) (hgs : EndsWord gs) :
    m.read (w ++ gs) = (((m.step w).1.read gs).1,
      (m.step w).2 ++ ((m.step w).1.read gs).2) := by
  rw [read, cut_word_append hw hgs, run_cons]
  rfl

/-- Reading glyphs and then others that end a word. -/
theorem read_append (m : Mode) {gs more : List Glyph} (h : EndsWord more) :
    m.read (gs ++ more) = (((m.read gs).1.read more).1,
      (m.read gs).2 ++ ((m.read gs).1.read more).2) := by
  rw [read, cut_append h, run_append]
  rfl

/-- A blank in normal mode is skipped. -/
theorem read_normal_blank {c : Char} (h : isBlank c = true) (gs : List Glyph) :
    normal.read (.scalar c :: gs) = normal.read gs := by
  rw [read_separator normal (isSeparator_of_isBlank h), step_normal_blank h, List.nil_append]

/-- An operator in normal mode is a token. -/
theorem read_normal_operator {o : Operator} {c : Char} (h : o.char? = some c)
    (hh : o ≠ .hash) (hq : o ≠ .quote) (gs : List Glyph) :
    normal.read (.scalar c :: gs)
      = ((normal.read gs).1, .operator o :: (normal.read gs).2) := by
  rw [read_separator normal (isSeparator_of_char? h), step_normal_operator h hh hq,
    List.singleton_append]

/-- A word in normal mode is classified. -/
theorem read_normal_word {w gs : List Glyph} (hw : IsWord w) (hgs : EndsWord gs) :
    normal.read (w ++ gs)
      = ((normal.read gs).1, classify (.ofGlyphs w) :: (normal.read gs).2) := by
  rw [read_word normal hw hgs, step_normal_word hw, List.singleton_append]

/-- A quote in normal mode opens a string. -/
theorem read_normal_quote (gs : List Glyph) :
    normal.read (.scalar '"' :: gs)
      = (((string false).read gs).1, .operator .quote :: ((string false).read gs).2) :=
  read_separator normal (by decide) gs

/-- A hash in normal mode opens a comment. -/
theorem read_normal_hash (gs : List Glyph) :
    normal.read (.scalar '#' :: gs) = comment.read gs :=
  read_separator normal (by decide) gs

/-- A quote that no backslash takes away closes a string. -/
theorem read_string_quote (gs : List Glyph) :
    (string false).read (.scalar '"' :: gs)
      = ((normal.read gs).1, .operator .quote :: (normal.read gs).2) :=
  read_separator (string false) (by decide) gs

/-- A hash closes a comment. -/
theorem read_comment_hash (gs : List Glyph) :
    comment.read (.scalar '#' :: gs) = normal.read gs :=
  read_separator comment (by decide) gs

end Mode

/-! ### Blanks -/

/-- Blanks in normal mode are skipped. -/
theorem read_normal_blanks {blanks : List Char} (h : blanks.all isBlank = true)
    (gs : List Glyph) : Mode.normal.read (blanks.map .scalar ++ gs) = Mode.normal.read gs := by
  induction blanks with
  | nil => rfl
  | cons b blanks ih =>
      rw [List.all_cons, Bool.and_eq_true] at h
      rw [List.map_cons, List.cons_append, Mode.read_normal_blank h.1, ih h.2]

/-- Blanks end a word, if there is one among them or what follows them does. -/
theorem endsWord_blanks {blanks : List Char} (h : blanks.all isBlank = true)
    {gs : List Glyph} (hgs : blanks = [] → EndsWord gs) :
    EndsWord (blanks.map .scalar ++ gs) := by
  cases blanks with
  | nil => exact hgs rfl
  | cons b blanks =>
      rw [List.all_cons, Bool.and_eq_true] at h
      exact endsWord_cons (isSeparator_of_isBlank h.1) _

/-! ### Texts put together -/

/-- Glyphs that end a word begin with a character. -/
theorem EndsWord.beginsClean {gs : List Glyph} (h : EndsWord gs) : BeginsClean gs :=
  fun g hg => exists_scalar_of_isSeparator (h g hg)

/-- **Behind a text that ends in normal mode, a text that ends its last word is read as if it stood
alone.** -/
theorem lex_append {s t : Text} (hs : (lex s).1 = .normal) (ht : EndsWord t.glyphs) :
    lex (s ++ t) = ((lex t).1, tokenize s ++ tokenize t) := by
  have hread : Mode.normal.read s.glyphs = (.normal, tokenize s) := Prod.ext hs rfl
  rw [lex, Text.glyphs_append s ht.beginsClean, ← Mode.read, Mode.read_append _ ht, hread]
  rfl

end IntLang
