import IntLang.Proofs.Cpp.Definition
import IntLang.Proofs.Cpp.Renaming
import IntLang.Proofs.Token.Scanner

/-!
# Signs that run together

Two signs that stand next to each other in C++ may be one: `--` and `++` step a variable, `//` and
`/*` open a comment. Tokens are written without anything between them, so that two signs of a source
come together in the text of a body if there are only blanks, comments and words that are not
written between them in the source, and in no other way.

This is shown in two steps. In the text of a stream a sign follows another exactly if its token is
the next one that is kept (`Stream.showsSigns`); strings do not count, and `Quoting` says where
they are without asking how the text came about. And a token is the next one that is kept exactly if
what is between the two in the source leaves nothing behind (`joined_iff`).
-/

namespace IntLang

open Mode (normal)

/-! ### Pairs in lists -/

section Pairs

variable {α : Type} {x y : α}

theorem pair_infix_cons_iff {z : α} {l : List α} :
    [x, y] <:+: z :: l ↔ (z = x ∧ l.head? = some y) ∨ [x, y] <:+: l := by
  rw [List.infix_cons_iff, List.cons_prefix_cons, List.prefix_iff_eq_take]
  cases l with
  | nil => simp
  | cons a l => simp [eq_comm]

/-- What does not hold the first of a pair in front does not matter. -/
theorem pair_infix_append_iff {zs l : List α} (h : x ∉ zs) :
    [x, y] <:+: zs ++ l ↔ [x, y] <:+: l := by
  induction zs with
  | nil => rfl
  | cons z zs ih =>
      obtain ⟨hz, h⟩ := not_or.1 (mt List.mem_cons.2 h)
      rw [List.cons_append, pair_infix_cons_iff, ih h]
      constructor
      · rintro (⟨rfl, -⟩ | h)
        · exact absurd rfl hz
        · exact h
      · exact Or.inr

/-- Neighbours in a list from which elements were taken out. -/
theorem pair_infix_filter_iff {p : α → Bool} (hx : p x = true) (hy : p y = true) {l : List α} :
    [x, y] <:+: l.filter p ↔
      ∃ before between behind, l = before ++ x :: (between ++ y :: behind) ∧
        ∀ z ∈ between, p z = false := by
  constructor
  · rintro ⟨s, r, h⟩
    rw [List.append_assoc, eq_comm, List.filter_eq_append_iff] at h
    obtain ⟨before, rest, rfl, -, h⟩ := h
    rw [List.cons_append, List.filter_eq_cons_iff] at h
    obtain ⟨between₁, rest, rfl, -, -, h⟩ := h
    rw [List.singleton_append, List.filter_eq_cons_iff] at h
    obtain ⟨between₂, rest, rfl, hbetween, -, -⟩ := h
    exact ⟨before ++ between₁, between₂, rest, by simp, fun z hz => by simpa using hbetween z hz⟩
  · rintro ⟨before, between, behind, rfl, hbetween⟩
    have hnone : between.filter p = [] :=
      List.filter_eq_nil_iff.2 fun z hz => by simp [hbetween z hz]
    refine ⟨before.filter p, behind.filter p, ?_⟩
    simp [List.filter_append, List.filter_cons_of_pos hx, List.filter_cons_of_pos hy, hnone]

end Pairs

/-! ### Texts and their strings -/

/-- Where one is in a text: outside of strings, inside of one, or inside and right behind a
backslash that takes the next character away. -/
inductive Quoting where
  | outside
  | inside
  | escaping
deriving DecidableEq

namespace Quoting

/-- Where one is behind a glyph. -/
def next : Quoting → Glyph → Quoting
  | outside, g => if g = .scalar '"' then inside else outside
  | inside, g =>
    if g = .scalar '"' then outside else if g = .scalar '\\' then escaping else inside
  | escaping, _ => inside

/-- The glyphs that stand outside of strings, each in its place. -/
def bare : Quoting → List Glyph → List (Option Glyph)
  | _, [] => []
  | q, g :: gs => (if q = outside then some g else none) :: bare (q.next g) gs

/-- Outside of strings everything is bare, up to a quote. -/
theorem bare_outside_append {gs : List Glyph} (h : .scalar '"' ∉ gs) (hs : List Glyph) :
    bare outside (gs ++ hs) = gs.map some ++ bare outside hs := by
  induction gs with
  | nil => rfl
  | cons g gs ih =>
      obtain ⟨hg, h⟩ := not_or.1 (mt List.mem_cons.2 h)
      rw [List.cons_append, bare, next, if_neg (Ne.symm hg), ih h]
      rfl

/-- Inside of a string, with the next glyph escaped or not. -/
def within (escaped : Bool) : Quoting := if escaped then escaping else inside

/-- Inside of a string nothing is bare, up to a quote. -/
theorem bare_within_append {gs : List Glyph} (h : .scalar '"' ∉ gs) (escaped : Bool)
    (hs : List Glyph) :
    bare (within escaped) (gs ++ hs)
      = List.replicate gs.length none ++ bare (within (escapesNext escaped gs)) hs := by
  induction gs generalizing escaped with
  | nil => cases escaped <;> rfl
  | cons g gs ih =>
      obtain ⟨hg, h⟩ := not_or.1 (mt List.mem_cons.2 h)
      cases escaped with
      | true =>
          have hnext : (within true).next g = within false := rfl
          rw [List.cons_append, bare, hnext, ih h]
          rfl
      | false =>
          have hnext : (within false).next g = within (g = .scalar '\\') := by
            simp only [within, next, Bool.false_eq_true, if_false, if_neg (Ne.symm hg),
              decide_eq_true_eq]
          rw [List.cons_append, bare, hnext, ih h]
          rfl

end Quoting

/-- Whether the character of one operator stands right behind that of another in a text, outside of
its strings. -/
def HasBare (a b : Operator) (t : Text) : Prop :=
  [a.char?.map Glyph.scalar, b.char?.map Glyph.scalar] <:+: Quoting.bare .outside t.glyphs

instance (a b : Operator) (t : Text) : Decidable (HasBare a b t) :=
  inferInstanceAs (Decidable (_ <:+: _))

/-- Where one is in the text of a stream. -/
def Mode.quoting : Mode → Quoting
  | .normal => .outside
  | .string escaped => .within escaped
  | .comment => .outside

/-! ### Signs in the text of a stream -/

/-- Whether an operator is an arithmetic sign. -/
def Operator.isSign : Operator → Bool
  | plus => true
  | minus => true
  | star => true
  | slash => true
  | _ => false

namespace Operator

/-- A sign has a character. -/
theorem exists_char_of_isSign {o : Operator} (h : o.isSign = true) : ∃ c, o.char? = some c := by
  cases o
  case plus => exact ⟨'+', rfl⟩
  case minus => exact ⟨'-', rfl⟩
  case star => exact ⟨'*', rfl⟩
  case slash => exact ⟨'/', rfl⟩
  all_goals cases h

/-- A sign is written as its character alone, which is no blank and no quote. -/
theorem token_of_isSign {o : Operator} (h : o.isSign = true) {c : Char} (hc : o.char? = some c) :
    Cpp.token (.operator o) = .ofChars [c] ∧ isBlank c = false ∧ c ≠ '"' := by
  cases o
  case plus | minus | star | slash =>
    cases hc
    exact ⟨rfl, by decide, by decide⟩
  all_goals cases h

end Operator

/-- A sign is not in the text of a word, and no quote is. -/
theorem Written.not_mem {t : Token} {word : List Glyph} {blanks : List Char}
    (h : Written t word blanks) {o : Operator} {c : Char} (hc : o.char? = some c)
    (hb : isBlank c = false) : .scalar c ∉ word ++ blanks.map Glyph.scalar := by
  intro hmem
  rcases List.mem_append.1 hmem with hmem | hmem
  · have hs := isSeparator_of_char? hc
    rw [h.isWord.noSeparator _ hmem] at hs
    cases hs
  · obtain ⟨d, hd, hdc⟩ := List.mem_map.1 hmem
    rw [Glyph.scalar.inj hdc] at hd
    rw [List.all_eq_true.1 h.blank c hd] at hb
    cases hb

/-- Tokens in which a piece of a string may not stand first have none in front. -/
theorem EndsPiece.not_word {w : List Glyph} (hw : IsWord w) (hl : Legible w) {ts : List Token} :
    ¬ EndsPiece (.literal (.string (.ofGlyphs w)) :: ts) := by
  intro h
  rcases h _ rfl with h | ⟨c, hc, h⟩
  · cases h
  · have hwc : w = [.scalar c] := by
      have hglyphs := congrArg Text.glyphs (Literal.string.inj (Token.literal.inj h))
      rw [Text.glyphs_ofChars] at hglyphs
      exact (show (Text.ofGlyphs w).glyphs = w from hl).symm.trans hglyphs
    rw [hw.noSeparator (.scalar c) (hwc ▸ List.mem_singleton_self _)] at hc
    cases hc

/-- What the text of a stream shows of its signs: the next sign behind the place where the stream
begins, and the pairs of signs in it. -/
structure ShowsSigns (shown : List (Option Glyph)) (ts : List Token) : Prop where
  /-- A sign comes first if its token is the first that is kept. -/
  head : ∀ o : Operator, o.isSign = true →
    (shown.head? = some (o.char?.map Glyph.scalar) ↔ ts.head? = some (.operator o))
  /-- A sign follows another if its token does. -/
  pair : ∀ a b : Operator, a.isSign = true → b.isSign = true →
    ([a.char?.map Glyph.scalar, b.char?.map Glyph.scalar] <:+: shown ↔
      [.operator a, .operator b] <:+: ts)

namespace ShowsSigns

variable {shown : List (Option Glyph)} {ts : List Token}

/-- Behind a token that is written without a sign. -/
theorem cons {t : Token} (h : ShowsSigns shown ts) {front : List (Option Glyph)} (hne : front ≠ [])
    (hfront : ∀ o : Operator, o.isSign = true → o.char?.map Glyph.scalar ∉ front)
    (ht : ∀ o : Operator, o.isSign = true → t ≠ .operator o) :
    ShowsSigns (front ++ shown) (t :: ts) := by
  constructor
  · intro o ho
    obtain ⟨g, gs, rfl⟩ := List.exists_cons_of_ne_nil hne
    refine iff_of_false ?_ ?_
    · intro hg
      rw [List.cons_append, List.head?_cons, Option.some.injEq] at hg
      exact hfront o ho (hg ▸ List.mem_cons_self)
    · intro hto
      exact ht o ho (Option.some.inj hto)
  · intro a b ha hb
    rw [pair_infix_append_iff (hfront a ha), h.pair a b ha hb, pair_infix_cons_iff]
    refine ⟨Or.inr, ?_⟩
    rintro (⟨hta, -⟩ | h)
    · exact absurd hta (ht a ha)
    · exact h

/-- Behind a sign. -/
theorem sign {o : Operator} (h : ShowsSigns shown ts) (ho : o.isSign = true) :
    ShowsSigns (o.char?.map Glyph.scalar :: shown) (.operator o :: ts) := by
  have hiff {a : Operator} (ha : a.isSign = true) :
      o.char?.map Glyph.scalar = a.char?.map Glyph.scalar ↔ Token.operator o = .operator a := by
    obtain ⟨c, hc⟩ := Operator.exists_char_of_isSign ho
    obtain ⟨d, hd⟩ := Operator.exists_char_of_isSign ha
    rw [hc, hd, Token.operator.injEq]
    constructor
    · intro hcd
      rw [Option.map_some, Option.map_some, Option.some.injEq, Glyph.scalar.injEq] at hcd
      exact Operator.eq_of_char?_eq hc (hcd ▸ hd)
    · rintro rfl
      rw [Option.some.inj (hc.symm.trans hd)]
  constructor
  · intro a ha
    rw [List.head?_cons, List.head?_cons, Option.some.injEq, Option.some.injEq, hiff ha]
  · intro a b ha hb
    rw [pair_infix_cons_iff, pair_infix_cons_iff, hiff ha, h.head b hb, h.pair a b ha hb]

/-- Behind a token that is written outside of strings, without a sign. -/
theorem outside {t : Token} {gs hs : List Glyph} (h : ShowsSigns (Quoting.bare .outside hs) ts)
    (hne : gs ≠ []) (hquote : .scalar '"' ∉ gs)
    (hgs : ∀ (o : Operator) (c : Char), o.isSign = true → o.char? = some c → .scalar c ∉ gs)
    (ht : ∀ o : Operator, o.isSign = true → t ≠ .operator o) :
    ShowsSigns (Quoting.bare .outside (gs ++ hs)) (t :: ts) := by
  rw [Quoting.bare_outside_append hquote]
  refine h.cons (by simpa using hne) (fun o ho hmem => ?_) ht
  obtain ⟨c, hc⟩ := Operator.exists_char_of_isSign ho
  obtain ⟨g, hg, hgc⟩ := List.mem_map.1 hmem
  rw [hc, Option.map_some, Option.some.injEq] at hgc
  exact hgs o c ho hc (hgc ▸ hg)

/-- Behind a token that is not shown, or only as something else than a sign. -/
theorem hidden {t : Token} (h : ShowsSigns shown ts) {n : Nat} (hn : n ≠ 0)
    (ht : ∀ o : Operator, o.isSign = true → t ≠ .operator o) :
    ShowsSigns (List.replicate n none ++ shown) (t :: ts) := by
  refine h.cons (by simpa using hn) (fun o ho hmem => ?_) ht
  obtain ⟨c, hc⟩ := Operator.exists_char_of_isSign ho
  have := List.eq_of_mem_replicate hmem
  rw [hc] at this
  cases this

/-- An operator that is written with blanks behind it, or none. -/
theorem spaced {o : Operator} {c : Char} {blanks : List Char} {hs : List Glyph}
    (h : ShowsSigns (Quoting.bare .outside hs) ts) (hc : o.char? = some c) (hq : c ≠ '"')
    (hb : blanks.all isBlank = true) (ho : o.isSign = false) :
    ShowsSigns (Quoting.bare .outside (.scalar c :: blanks.map Glyph.scalar ++ hs))
      (.operator o :: ts) := by
  have hnone {d : Char} (hd : isBlank d = false) (hne : d ≠ c) :
      Glyph.scalar d ∉ .scalar c :: blanks.map Glyph.scalar := by
    simp only [List.mem_cons, List.mem_map, Glyph.scalar.injEq, exists_eq_right]
    rintro (hdc | hdb)
    · exact hne hdc
    · rw [List.all_eq_true.1 hb d hdb] at hd
      cases hd
  refine h.outside (List.cons_ne_nil _ _) (hnone (by decide) hq.symm) ?_ ?_
  · intro o' c' ho' hc'
    refine hnone (Operator.token_of_isSign ho' hc').2.1 ?_
    rintro rfl
    rw [Operator.eq_of_char?_eq hc hc', ho'] at ho
    cases ho
  · rintro o' ho' ⟨⟩
    rw [ho] at ho'
    cases ho'

/-- An operator other than the quote, in the text of a stream. -/
theorem operator {o : Operator} {c : Char}
    (h : ShowsSigns (Quoting.bare .outside (spelled ts)) (Cpp.kept ts)) (hc : o.char? = some c)
    (hq : o ≠ .quote) :
    ShowsSigns (Quoting.bare .outside (spelled (.operator o :: ts)))
      (Cpp.kept (.operator o :: ts)) := by
  have hquote : c ≠ '"' := by
    rintro rfl
    exact hq (Operator.eq_of_char?_eq hc rfl)
  rw [Cpp.kept_cons rfl]
  cases ho : o.isSign with
  | true =>
      have hspelled : spelled (.operator o :: ts) = [.scalar c] ++ spelled ts := by
        rw [spelled_cons, (Operator.token_of_isSign ho hc).1, Text.glyphs_ofChars]
        rfl
      have hsign := h.sign ho
      rw [hc] at hsign
      rw [hspelled, Quoting.bare_outside_append (by simpa using hquote.symm)]
      exact hsign
  | false =>
      obtain ⟨blanks, hb, hspelled⟩ := exists_spelled_operator hc ts
      rw [hspelled, ← List.cons_append]
      exact h.spaced hc hquote hb ho

/-- A word, in the text of a stream. -/
theorem word {w : List Glyph} {t : Token}
    (h : ShowsSigns (Quoting.bare .outside (spelled ts)) (Cpp.kept ts)) (hw : IsWord w)
    (hl : Legible w) (ht : t = classify (.ofGlyphs w)) :
    ShowsSigns (Quoting.bare .outside (spelled (t :: ts))) (Cpp.kept (t :: ts)) := by
  rcases respelled_classify hw hl ht with ⟨ha, he⟩ | ⟨ha, word, blanks, hwritten, -⟩
  · rw [Cpp.kept_cons_of_arranges ha, spelled_cons, he]
    exact h
  · rw [Cpp.kept_cons ha, spelled_cons, hwritten.glyphs]
    refine h.outside ?_ (hwritten.not_mem (o := .quote) rfl (by decide)) ?_ ?_
    · exact List.append_ne_nil_of_left_ne_nil hwritten.isWord.ne_nil _
    · intro o c ho hc
      exact hwritten.not_mem hc (Operator.token_of_isSign ho hc).2.1
    · rintro o - rfl
      have hmark := isMark_classify (.ofGlyphs w)
      rw [← ht] at hmark
      cases hmark

/-- The quote that opens a string is shown. -/
theorem openString (h : ShowsSigns shown ts) :
    ShowsSigns (some (.scalar '"') :: shown) (.operator .quote :: ts) := by
  refine h.cons (List.cons_ne_nil (some (.scalar '"')) []) ?_ ?_
  · intro o ho
    obtain ⟨c, hc⟩ := Operator.exists_char_of_isSign ho
    rw [hc]
    simpa using (Operator.token_of_isSign ho hc).2.2
  · rintro o ho ⟨⟩
    cases ho

end ShowsSigns

/-- A separator in a string leaves nothing escaped behind it. -/
theorem Quoting.bare_lone {c : Char} (hc : (Glyph.scalar c).isSeparator = true) {escaped : Bool}
    (hq : c = '"' → escaped = true) (gs : List Glyph) :
    (within escaped).bare (.scalar c :: gs) = none :: (within false).bare gs := by
  cases escaped with
  | true => rfl
  | false =>
      have hquote : Glyph.scalar c ≠ .scalar '"' := by
        rintro ⟨⟩
        cases hq rfl
      have hnext : (within false).next (.scalar c) = within false := by
        simp only [within, next, Bool.false_eq_true, if_false, if_neg hquote,
          if_neg (ne_backslash_of_isSeparator hc)]
      rw [bare, hnext]
      rfl

/-- A separator does not escape what is behind it. -/
theorem Mode.escapes_lone {c : Char} (hc : (Glyph.scalar c).isSeparator = true) :
    Mode.escapes (.ofChars [c]) = false := by
  have hlegible : Legible ([c].map Glyph.scalar) := by
    rw [Legible, ofGlyphs_map_scalar, Text.glyphs_ofChars]
  rw [← ofGlyphs_map_scalar, escapes_ofGlyphs hlegible]
  exact escapesNext_separator hc false []

/-- **Signs that come together in the text of a stream are neighbours among the tokens that are
kept**, and the other way round. -/
theorem Stream.showsSigns {m m' : Mode} {ts : List Token} (h : Stream m ts m')
    (hm : m = .string true → EndsPiece ts) :
    ShowsSigns (m.quoting.bare (spelled ts)) (Cpp.kept ts) := by
  induction h with
  | nil m =>
      refine ⟨fun o ho => ?_, fun a b ha hb => ?_⟩
      · simp [spelled, Quoting.bare, Cpp.kept]
      · simp [spelled, Quoting.bare, Cpp.kept]
  | operator hc _ hq _ ih => exact (ih (by rintro ⟨⟩)).operator hc hq
  | word hw hl ht _ ih => exact (ih (by rintro ⟨⟩)).word hw hl ht
  | openString _ ih =>
      rw [Cpp.kept_cons rfl, spelled_quote]
      exact (ih (by rintro ⟨⟩)).openString
  | closeString _ ih =>
      rw [Cpp.kept_cons rfl, spelled_quote]
      exact (ih (by rintro ⟨⟩)).hidden one_ne_zero (by rintro o ho ⟨⟩; cases ho)
  | lone hc hq _ ih =>
      rw [Mode.escapes_lone hc] at ih
      rw [Cpp.kept_cons rfl, spelled_lone, Mode.quoting, Quoting.bare_lone hc hq]
      exact (ih (by rintro ⟨⟩)).hidden one_ne_zero (by rintro o - ⟨⟩)
  | @piece w escaped ts m hw hl he _ ih =>
      -- A word is not split in two, so that nothing can be escaped where a piece begins.
      obtain rfl : escaped = false := by
        cases escaped with
        | true => exact absurd (hm rfl) (EndsPiece.not_word hw hl)
        | false => rfl
      have hquote : Glyph.scalar '"' ∉ w := by
        intro hmem
        have := hw.noSeparator _ hmem
        revert this
        decide
      have hglyphs : (Cpp.token (.literal (.string (.ofGlyphs w)))).glyphs = w := hl
      rw [Cpp.kept_cons rfl, spelled_cons, hglyphs, Mode.quoting,
        Quoting.bare_within_append hquote, ← escapes_ofGlyphs hl]
      exact (ih fun _ => he).hidden (by simpa using hw.ne_nil) (by rintro o - ⟨⟩)

/-! ### Signs in a source -/

namespace Mode

/-- Reading a fragment yields at most one token. -/
theorem step_tokens (m : Mode) (frag : List Glyph) :
    (m.step frag).2 = [] ∨ ∃ t, (m.step frag).2 = [t] := by
  cases m with
  | comment => exact Or.inl rfl
  | string escaped =>
      simp only [step]
      split
      · exact Or.inr ⟨_, rfl⟩
      · exact Or.inr ⟨_, rfl⟩
  | normal =>
      simp only [step]
      split
      · exact Or.inl rfl
      · split
        · exact Or.inl rfl
        · split
          · exact Or.inl rfl
          · exact Or.inr ⟨_, rfl⟩
          · exact Or.inr ⟨_, rfl⟩
          · exact Or.inr ⟨_, rfl⟩

/-- An operator other than the quote is read outside of strings and comments, from its character. -/
theorem step_eq_operator {m : Mode} {frag : List Glyph} {o : Operator} (hq : o ≠ .quote)
    (h : (m.step frag).2 = [.operator o]) :
    m = normal ∧ (m.step frag).1 = normal ∧
      ∃ g gs, frag = g :: gs ∧ Operator.ofChar? g.char = some o := by
  cases m with
  | comment => cases h
  | string escaped =>
      simp only [step] at h
      split at h
      · cases h
        exact absurd rfl hq
      · cases h
  | normal =>
      cases frag with
      | nil => cases h
      | cons g gs =>
          simp only [step, List.head?_cons, Option.map_some] at h
          split at h
          · cases h
          · next hb =>
            cases ho : Operator.ofChar? g.char with
            | none =>
                rw [ho] at h
                have hmark := isMark_classify (.ofGlyphs (g :: gs))
                rw [List.singleton_inj.1 h] at hmark
                cases hmark
            | some o' =>
                rw [ho] at h
                cases o'
                case hash => cases h
                case quote =>
                  cases h
                  exact absurd rfl hq
                all_goals
                  cases h
                  exact ⟨rfl, by simp [step, hb, ho], g, gs, rfl, ho⟩

/-- Going back from an operator to the place where it stands, if this is done behind a fragment. -/
theorem exists_of_read_fragment {o : Operator} {c : Char} (hq : o ≠ .quote) {m : Mode}
    {frag gs : List Glyph}
    (hread : ∀ p q, gs = p ++ q → m.read (frag ++ p) = (((m.step frag).1.read p).1,
      (m.step frag).2 ++ ((m.step frag).1.read p).2))
    (hfrag : ∀ g rest, frag = g :: rest → Operator.ofChar? g.char = some o → frag = [.scalar c])
    (ih : ∀ before behind, ((m.step frag).1.read gs).2 = before ++ .operator o :: behind →
      ∃ p q, gs = p ++ .scalar c :: q ∧ (m.step frag).1.read p = (normal, before) ∧
        (normal.read q).2 = behind)
    {before behind : List Token} (h : (m.read (frag ++ gs)).2 = before ++ .operator o :: behind) :
    ∃ p q, frag ++ gs = p ++ .scalar c :: q ∧ m.read p = (normal, before) ∧
      (normal.read q).2 = behind := by
  rw [hread gs [] (List.append_nil gs).symm] at h
  -- Where the operator is behind the fragment, the fragment is read first.
  have hbehind {before' : List Token} (hbefore : before = (m.step frag).2 ++ before')
      (h' : ((m.step frag).1.read gs).2 = before' ++ .operator o :: behind) :
      ∃ p q, frag ++ gs = p ++ .scalar c :: q ∧ m.read p = (normal, before) ∧
        (normal.read q).2 = behind := by
    obtain ⟨p, q, hgs, hp, hq⟩ := ih before' behind h'
    refine ⟨frag ++ p, q, by rw [hgs, List.append_assoc], ?_, hq⟩
    rw [hread p _ hgs, hp, hbefore]
  rcases step_tokens m frag with hnone | ⟨t, ht⟩
  · rw [hnone, List.nil_append] at h
    exact hbehind (by rw [hnone, List.nil_append]) h
  · rw [ht, List.singleton_append] at h
    cases before with
    | nil =>
        obtain ⟨rfl, hrest⟩ := List.cons.inj h
        obtain ⟨rfl, hmode, g, rest, hg, hchar⟩ := step_eq_operator hq ht
        rw [hmode] at hrest
        exact ⟨[], gs, by rw [hfrag g rest hg hchar]; rfl, read_nil normal, hrest⟩
    | cons u before' =>
        obtain ⟨rfl, hrest⟩ := List.cons.inj h
        exact hbehind (by rw [ht, List.singleton_append]) hrest

/-- **An operator among the tokens of glyphs stands among the glyphs**, outside of strings and
comments, between those that yield the tokens before it and those that yield the tokens behind. -/
theorem exists_of_read_operator {o : Operator} {c : Char} (hc : o.char? = some c) (hq : o ≠ .quote)
    {gs : List Glyph} {m : Mode} {before behind : List Token}
    (h : (m.read gs).2 = before ++ .operator o :: behind) :
    ∃ p q, gs = p ++ .scalar c :: q ∧ m.read p = (normal, before) ∧ (normal.read q).2 = behind := by
  induction gs using cut_cases generalizing m before behind with
  | nil =>
      rw [read_nil] at h
      exact absurd h.symm (List.append_ne_nil_of_right_ne_nil before (List.cons_ne_nil _ _))
  | separator g gs hg ih =>
      rw [← List.singleton_append] at h ⊢
      refine exists_of_read_fragment hq (fun p _ _ => read_separator m hg p) ?_
        (fun before behind => ih) h
      rintro g' rest ⟨⟩ hchar
      obtain ⟨c', rfl, hc'⟩ := exists_scalar_of_ofChar? hchar
      rw [Option.some.inj (hc'.symm.trans hc)]
  | word w gs hw hgs ih =>
      refine exists_of_read_fragment hq (fun p q hpq => ?_) ?_ (fun before behind => ih) h
      · rw [hpq] at hgs
        exact read_word m hw hgs.left
      · rintro g' rest rfl hchar
        rw [(char_of_not_isSeparator (isWord_cons_iff.1 hw).1).2] at hchar
        cases hchar

end Mode

/-- Whether a text leaves nothing behind: there are only blanks and comments in it, and words that
are not written. -/
def Vanishes (t : Text) : Prop := (lex t).1 = .normal ∧ ∀ u ∈ tokenize t, u.arranges = true

/-- Whether the characters of two operators stand in a source, outside of strings and comments, and
what is between them leaves nothing behind. -/
def Joined (a b : Operator) (source : Text) : Prop :=
  ∃ u w v : Text, source = u ++ a.symbol ++ w ++ b.symbol ++ v ∧ (lex u).1 = .normal ∧ Vanishes w

/-- A text that a sign divides. -/
theorem lex_sign {o : Operator} (ho : o.isSign = true) {u : Text} (hu : (lex u).1 = .normal)
    (v : Text) :
    lex (u ++ o.symbol ++ v) = ((lex v).1, tokenize u ++ .operator o :: tokenize v) := by
  obtain ⟨c, hc⟩ := Operator.exists_char_of_isSign ho
  have hsymbol : o.symbol = .ofChars [c] := by rw [Operator.symbol, hc]
  have hglyphs : (o.symbol ++ v).glyphs = .scalar c :: v.glyphs := by
    rw [hsymbol, Text.glyphs_ofChars_append]
    rfl
  have hends : EndsWord (o.symbol ++ v).glyphs := by
    rw [hglyphs]
    exact endsWord_cons (isSeparator_of_char? hc) _
  have hlex : lex (o.symbol ++ v) = ((lex v).1, .operator o :: tokenize v) := by
    rw [lex, hglyphs, ← Mode.read, Mode.read_normal_operator hc]
    · rfl
    · rintro rfl
      cases ho
    · rintro rfl
      cases ho
  rw [Text.append_assoc, lex_append hu hends, tokenize, tokenize, hlex]

/-- Going back from a sign among the tokens of a source to the place where it stands. -/
theorem exists_of_tokenize_sign {o : Operator} (ho : o.isSign = true) {source : Text}
    {before behind : List Token} (h : tokenize source = before ++ .operator o :: behind) :
    ∃ u v, source = u ++ o.symbol ++ v ∧ lex u = (.normal, before) ∧ tokenize v = behind := by
  obtain ⟨c, hc⟩ := Operator.exists_char_of_isSign ho
  have hq : o ≠ .quote := by
    rintro rfl
    cases ho
  obtain ⟨p, q, hgs, hp, hq⟩ := Mode.exists_of_read_operator (m := normal) hc hq h
  have hlegible := Legible.glyphs source
  rw [hgs] at hlegible
  refine ⟨.ofGlyphs p, .ofGlyphs q, ?_, ?_, ?_⟩
  · rw [← Text.ofGlyphs_glyphs source, hgs, Operator.symbol, hc]
    ext1
    simp [Text.ofGlyphs, Text.ofChars, Glyph.bytes]
  · rw [lex, hlegible.left]
    exact hp
  · rw [tokenize, lex, hlegible.right.tail]
    exact hq

/-- **Signs are joined in a source exactly if they are neighbours among the tokens that are
kept.** -/
theorem joined_iff {a b : Operator} (ha : a.isSign = true) (hb : b.isSign = true) {source : Text} :
    Joined a b source ↔ [.operator a, .operator b] <:+: Cpp.kept (tokenize source) := by
  rw [Cpp.kept, pair_infix_filter_iff rfl rfl]
  constructor
  · rintro ⟨u, w, v, rfl, hu, hw, hvanishes⟩
    refine ⟨tokenize u, tokenize w, tokenize v, ?_, fun t ht => by rw [hvanishes t ht]; rfl⟩
    have hsecond : tokenize (w ++ b.symbol ++ v) = tokenize w ++ .operator b :: tokenize v :=
      congrArg Prod.snd (lex_sign hb hw v)
    rw [Text.append_assoc, Text.append_assoc, ← Text.append_assoc w, tokenize, lex_sign ha hu,
      hsecond]
  · rintro ⟨before, between, behind, htokens, hbetween⟩
    obtain ⟨u, rest, rfl, hu, hrest⟩ := exists_of_tokenize_sign ha htokens
    obtain ⟨w, v, rfl, hw, -⟩ := exists_of_tokenize_sign hb hrest
    refine ⟨u, w, v, by simp only [Text.append_assoc], by rw [hu], by rw [hw], fun t ht => ?_⟩
    rw [tokenize, hw] at ht
    simpa using hbetween t ht

/-! ### Bodies -/

/-- The pairs of signs that are one in C++: those that step a variable, and those that open a
comment. -/
def digraphs : List (Operator × Operator) :=
  [(.minus, .minus), (.plus, .plus), (.slash, .slash), (.slash, .star)]

theorem isSign_of_mem_digraphs {d : Operator × Operator} (h : d ∈ digraphs) :
    d.1.isSign = true ∧ d.2.isSign = true := by
  have hall : ∀ d ∈ digraphs, d.1.isSign = true ∧ d.2.isSign = true := by decide
  exact hall d h

/-- What is kept of a body is kept of the stream it was found in. -/
theorem DeclaredAt.kept_body_infix {ts : List Token} {i : Nat} {f : Function}
    (h : DeclaredAt ts i f) : Cpp.kept f.body <:+: Cpp.kept ts := by
  obtain ⟨close, finish, hregions, hbody⟩ := h.regions
  obtain ⟨before, behind, happend⟩ := hregions.body.exists_append
  have hinfix : f.body <:+: ts := by
    refine ⟨before ++ [.operator .openBrace], .operator .closeBrace :: behind, ?_⟩
    rw [happend, ← hbody]
    simp
  exact hinfix.filter _

/-- **When signs run together in a body.** The text of a body shows two signs as one, outside of its
strings, exactly if their tokens are neighbours once the words that are not written are left out. So
it does not if nowhere in the source the two signs stand with only blanks, comments and such words
between them. -/
theorem hasBare_body {source : Text} {p : Program} (hp : segment (tokenize source) = .ok p)
    {f : Function} (hf : f ∈ p.functions) {d : Operator × Operator} (hd : d ∈ digraphs) :
    (HasBare d.1 d.2 (Cpp.tokens f.body) ↔
      [.operator d.1, .operator d.2] <:+: Cpp.kept f.body) ∧
    (¬ Joined d.1 d.2 source → ¬ HasBare d.1 d.2 (Cpp.tokens f.body)) := by
  obtain ⟨gs, ds, -, hds, rfl⟩ := segment_eq_ok hp
  obtain ⟨⟨i, f⟩, hmem, rfl⟩ :=
    List.mem_map.1 (Program.mem_functions_addAll (Program.holds_nil gs) hf)
  have hdeclared : DeclaredAt (tokenize source) i f := hds.sound _ hmem
  have hbody := hdeclared.stream_body (stream_lex source)
  obtain ⟨ha, hb⟩ := isSign_of_mem_digraphs hd
  have hiff : HasBare d.1 d.2 (Cpp.tokens f.body) ↔
      [.operator d.1, .operator d.2] <:+: Cpp.kept f.body := by
    rw [HasBare, hbody.glyphs_tokens]
    exact (hbody.showsSigns (by rintro ⟨⟩)).pair d.1 d.2 ha hb
  refine ⟨hiff, fun hjoined hbare => hjoined ?_⟩
  rw [joined_iff ha hb]
  exact (hiff.1 hbare).trans hdeclared.kept_body_infix

/-- A function with signs in its body that do not run together, some of them in a string. -/
def partedSigns : Function where
  result := .int
  name := "f"
  parameters := []
  body := [.keyword .ret, .ident "a", .operator .minus, .operator .openParen, .operator .minus,
    .ident "b", .operator .closeParen, .operator .slash, .operator .quote,
    .literal (.string "/"), .literal (.string "/"), .literal (.string "-"), .literal (.string "-"),
    .operator .quote, .operator .star, .operator .plus, .ident "c", .operator .semicolon]

/-- Signs with a parenthesis between them, and signs inside of a string, are not one. -/
theorem hasBare_body_partedSigns :
    segment (tokenize "int f() \x7b ret a - #-# (- b) / \"//--\" * + c; \x7d")
      = .ok (({} : Program).add partedSigns) ∧
    ∀ d ∈ digraphs, ¬ HasBare d.1 d.2 (Cpp.tokens partedSigns.body) := by
  have h : segment (tokenize "int f() \x7b ret a - #-# (- b) / \"//--\" * + c; \x7d")
      = .ok (({} : Program).add partedSigns) := by
    decide +kernel
  have hkept : ∀ d ∈ digraphs, ¬ [Token.operator d.1, .operator d.2] <:+:
      Cpp.kept (tokenize "int f() \x7b ret a - #-# (- b) / \"//--\" * + c; \x7d") := by
    decide +kernel
  refine ⟨h, fun d hd => (hasBare_body h (f := partedSigns) (by decide) hd).2 ?_⟩
  obtain ⟨ha, hb⟩ := isSign_of_mem_digraphs hd
  rw [joined_iff ha hb]
  exact hkept d hd

/-- A function that takes a negative number off another. -/
def joinedSigns : Function where
  result := .int
  name := "f"
  parameters := []
  body := [.ident "a", .operator .equals, .ident "b", .operator .minus, .operator .minus,
    .ident "c", .operator .semicolon]

/-- Signs with a blank between them become one, although no two of them stand together in the
source. -/
theorem hasBare_body_joinedSigns :
    segment (tokenize "int f() \x7b a = b - - c; \x7d") = .ok (({} : Program).add joinedSigns) ∧
    (∀ d ∈ digraphs, ¬ (d.1.symbol ++ d.2.symbol).bytes <:+:
      ("int f() \x7b a = b - - c; \x7d" : Text).bytes) ∧
    HasBare .minus .minus (Cpp.tokens joinedSigns.body) := by
  decide +kernel

end IntLang
