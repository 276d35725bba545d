import IntLang.Token.Lexer

/-!
# The cutting of a text

Everything about `cut` follows from three equations: a separator in front is a fragment of its own
(`cut_cons_of_isSeparator`), a word in front is a fragment if nothing or a separator follows it
(`cut_word_append`), and a separator anywhere divides the cutting into that of what stands before
it and that of what stands behind it (`cut_append_cons`).

`Fragmented` says on its own what a cutting looks like: separators one by one, and words of which
no two are neighbours. The cutting of some glyphs is fragmented (`fragmented_cut`), and a list
that is fragmented is the cutting of what it holds (`cut_flatten`).
-/

namespace IntLang

/-! ### Words and separators -/

/-- Whether glyphs are a word: there are some, and no separator among them. -/
structure IsWord (frag : List Glyph) : Prop where
  /-- There is a glyph. -/
  ne_nil : frag ≠ []
  /-- None of them is a separator. -/
  noSeparator : ∀ g ∈ frag, g.isSeparator = false

/-- Whether glyphs can follow a word: there are none, or the first one is a separator. -/
def EndsWord (gs : List Glyph) : Prop := ∀ g ∈ gs.head?, g.isSeparator = true

/-- Nothing ends a word. -/
theorem endsWord_nil : EndsWord [] := by
  intro g hg
  cases hg

/-- A separator ends a word. -/
theorem endsWord_cons {g : Glyph} (hg : g.isSeparator = true) (gs : List Glyph) :
    EndsWord (g :: gs) := by
  intro h hh
  rw [List.head?_cons, Option.mem_some_iff] at hh
  rw [← hh]
  exact hg

/-- What glyphs that end a word begin with ends it, too. -/
theorem EndsWord.left {gs more : List Glyph} (h : EndsWord (gs ++ more)) : EndsWord gs := by
  intro g hg
  refine h g ?_
  rw [List.head?_append, Option.mem_def.1 hg]
  rfl

/-- A word that begins with a glyph: the glyph is no separator, and what follows it is empty or
a word. -/
theorem isWord_cons_iff {g : Glyph} {gs : List Glyph} :
    IsWord (g :: gs) ↔ g.isSeparator = false ∧ ∀ h ∈ gs, h.isSeparator = false := by
  constructor
  · intro h
    exact ⟨h.noSeparator g List.mem_cons_self,
      fun k hk => h.noSeparator k (List.mem_cons_of_mem g hk)⟩
  · rintro ⟨hg, hgs⟩
    refine ⟨List.cons_ne_nil g gs, fun k hk => ?_⟩
    obtain rfl | hk := List.mem_cons.1 hk
    · exact hg
    · exact hgs k hk

/-- What begins with a word ends no other word. -/
theorem IsWord.not_endsWord {w : List Glyph} (hw : IsWord w) (gs : List Glyph) :
    ¬ EndsWord (w ++ gs) := by
  intro h
  obtain ⟨g, w, rfl⟩ := List.exists_cons_of_ne_nil hw.ne_nil
  have hg : g.isSeparator = true := h g rfl
  rw [(isWord_cons_iff.1 hw).1] at hg
  cases hg

/-- The longest run of glyphs that are no separators, in front of others. -/
def leadingWord (gs : List Glyph) : List Glyph := gs.takeWhile (!·.isSeparator)

/-- What is left behind the longest run of glyphs that are no separators. -/
def behindWord (gs : List Glyph) : List Glyph := gs.dropWhile (!·.isSeparator)

/-- The two put together. -/
theorem leadingWord_append_behindWord (gs : List Glyph) :
    leadingWord gs ++ behindWord gs = gs :=
  List.takeWhile_append_dropWhile

/-- A glyph that is no separator and the run behind it are a word. -/
theorem isWord_leadingWord {g : Glyph} (hg : g.isSeparator = false) (gs : List Glyph) :
    IsWord (g :: leadingWord gs) := by
  refine isWord_cons_iff.2 ⟨hg, fun h hh => ?_⟩
  simpa using List.all_eq_true.1 List.all_takeWhile h hh

/-- What is left ends the word. -/
theorem endsWord_behindWord (gs : List Glyph) : EndsWord (behindWord gs) := by
  intro g hg
  have hhead := List.head?_dropWhile_not (!·.isSeparator) gs
  rw [behindWord, Option.mem_def] at hg
  rw [hg] at hhead
  simpa using hhead

/-- A stray byte stands in a word: it counts as the replacement character, which is neither blank
nor an operator. -/
theorem isSeparator_stray (b : UInt8) : (Glyph.stray b).isSeparator = false := by
  rw [Glyph.isSeparator, Glyph.char]
  decide

/-- A separator is a character. -/
theorem exists_scalar_of_isSeparator {g : Glyph} (h : g.isSeparator = true) :
    ∃ c, g = .scalar c := by
  cases g with
  | scalar c => exact ⟨c, rfl⟩
  | stray b =>
      rw [isSeparator_stray] at h
      cases h

/-! ### The equations of `cut` -/

/-- A separator in front is a fragment of its own. -/
theorem cut_cons_of_isSeparator {g : Glyph} (hg : g.isSeparator = true) (gs : List Glyph) :
    cut (g :: gs) = [g] :: cut gs := by
  rw [cut, if_pos hg]

/-- A word in front is a fragment, if nothing or a separator follows it. -/
theorem cut_word_append {w gs : List Glyph} (hw : IsWord w) (hgs : EndsWord gs) :
    cut (w ++ gs) = w :: cut gs := by
  induction w with
  | nil => exact absurd rfl hw.ne_nil
  | cons g w ih =>
      obtain ⟨hg, hw'⟩ := isWord_cons_iff.1 hw
      rw [List.cons_append, cut, if_neg (by rw [hg]; decide)]
      cases w with
      | nil =>
          cases gs with
          | nil => rfl
          | cons s gs =>
              have hs : s.isSeparator = true := hgs s rfl
              rw [List.nil_append, cut_cons_of_isSeparator hs]
              simp only [hs, if_true]
      | cons h w =>
          have hh : h.isSeparator = false := hw' h List.mem_cons_self
          rw [ih ⟨List.cons_ne_nil h w, hw'⟩]
          simp only [hh, Bool.false_eq_true, if_false]

/-- A separator divides the cutting. -/
theorem cut_append_cons (gs : List Glyph) {s : Glyph} (hs : s.isSeparator = true)
    (more : List Glyph) : cut (gs ++ s :: more) = cut gs ++ [s] :: cut more := by
  induction gs with
  | nil => exact cut_cons_of_isSeparator hs more
  | cons g gs ih =>
      rw [List.cons_append]
      by_cases hg : g.isSeparator = true
      · rw [cut_cons_of_isSeparator hg, cut_cons_of_isSeparator hg, ih, List.cons_append]
      · rw [cut, cut, if_neg hg, if_neg hg, ih]
        rcases cut gs with - | ⟨- | ⟨h, hs'⟩, rest⟩
        · simp only [List.nil_append, hs, if_true, List.cons_append]
        · rfl
        · by_cases hh : h.isSeparator = true
          · simp only [List.cons_append, hh, if_true]
          · simp only [List.cons_append, hh, Bool.false_eq_true, if_false]

/-- The cutting of glyphs put together at a place where a word ends. -/
theorem cut_append {gs more : List Glyph} (h : EndsWord more) :
    cut (gs ++ more) = cut gs ++ cut more := by
  cases more with
  | nil => rw [List.append_nil, cut, List.append_nil]
  | cons s more =>
      have hs : s.isSeparator = true := h s rfl
      rw [cut_append_cons gs hs, cut_cons_of_isSeparator hs]

/-- Nothing is dropped in cutting. -/
theorem flatten_cut (gs : List Glyph) : (cut gs).flatten = gs := by
  induction gs with
  | nil => rfl
  | cons g gs ih =>
      rw [cut]
      split
      · rw [List.flatten_cons, ih, List.singleton_append]
      · rcases hc : cut gs with - | ⟨- | ⟨h, hs⟩, rest⟩
        · rw [hc] at ih
          rw [← ih]
          rfl
        · rw [hc] at ih
          rw [← ih]
          rfl
        · rw [hc] at ih
          rw [← ih]
          dsimp only
          split
          · rfl
          · rfl

/-! ### What a cutting looks like -/

/-- Lists of fragments in which every separator stands alone and no two words are neighbours. -/
inductive Fragmented : List (List Glyph) → Prop
  | nil : Fragmented []
  | separator {g : Glyph} {rest : List (List Glyph)} :
      g.isSeparator = true → Fragmented rest → Fragmented ([g] :: rest)
  | word {w : List Glyph} {rest : List (List Glyph)} :
      IsWord w → EndsWord rest.flatten → Fragmented rest → Fragmented (w :: rest)

/-- A list that is fragmented is the cutting of what it holds. -/
theorem cut_flatten {frags : List (List Glyph)} (h : Fragmented frags) :
    cut frags.flatten = frags := by
  induction h with
  | nil => rfl
  | separator hg _ ih =>
      rw [List.flatten_cons, List.singleton_append, cut_cons_of_isSeparator hg, ih]
  | word hw hrest _ ih => rw [List.flatten_cons, cut_word_append hw hrest, ih]

/-- Glyphs begin with a separator, are a word, or begin with a word that a separator follows. -/
theorem cut_cases {motive : List Glyph → Prop} (nil : motive [])
    (separator : ∀ g gs, g.isSeparator = true → motive gs → motive (g :: gs))
    (word : ∀ w gs, IsWord w → EndsWord gs → motive gs → motive (w ++ gs))
    (gs : List Glyph) : motive gs := by
  -- Induction on the length: what is left behind a word is shorter than the whole.
  induction hn : gs.length using Nat.strongRecOn generalizing gs with
  | ind n ih =>
      subst hn
      cases gs with
      | nil => exact nil
      | cons g gs =>
          by_cases hg : g.isSeparator = true
          · exact separator g gs hg (ih gs.length (Nat.lt_succ_self _) gs rfl)
          · have hlt : (behindWord gs).length < (g :: gs).length :=
              Nat.lt_succ_of_le (List.dropWhile_sublist _).length_le
            rw [← leadingWord_append_behindWord gs, ← List.cons_append]
            exact word _ _ (isWord_leadingWord (Bool.eq_false_iff.2 hg) gs)
              (endsWord_behindWord gs) (ih _ hlt _ rfl)

/-- A cutting is fragmented. -/
theorem fragmented_cut (gs : List Glyph) : Fragmented (cut gs) := by
  induction gs using cut_cases with
  | nil => exact .nil
  | separator g gs hg ih =>
      rw [cut_cons_of_isSeparator hg]
      exact .separator hg ih
  | word w gs hw hgs ih =>
      rw [cut_word_append hw hgs]
      exact .word hw (by rwa [flatten_cut]) ih

end IntLang
