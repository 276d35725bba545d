import IntLang.Proofs.Token.Reading
import IntLang.Proofs.Token.Words
import Mathlib.Data.List.Induction
import Mathlib.Data.List.SplitBy

/-!
# Reading is scanning

The lexer cuts a text into fragments first, reads these one by one, and tells whether a quote is
escaped by looking back at the fragment before it. `scan` does without fragments. It goes over the
glyphs once from left to right: it skips blanks and comments, takes an operator by its character
and a word by the longest run of glyphs that are no separators, and from a quote it looks ahead to
the first quote that no backslash escapes, where a backslash takes the glyph behind it away,
whatever that is.

## Main results

* `escapes_ofGlyphs`: looking back at a word tells the same as going over it;
* `read_comment` and `read_string`: what reading does up to the end of a comment or a string;
* `read_eq_scan`: **reading is scanning**, for all glyphs that can come from a text.
-/

namespace IntLang

open Mode (normal comment)

/-! ### The scanner -/

/-- The place of the first quote that is not escaped; `escaped` if the first glyph is. -/
def closingQuote? : Bool → List Glyph → Option Nat
  | _, [] => none
  | true, _ :: gs => (closingQuote? false gs).map (· + 1)
  | false, g :: gs =>
    if g = .scalar '"' then some 0
    else (closingQuote? (g = .scalar '\\') gs).map (· + 1)

/-- Whether the glyph behind is escaped; `escaped` if the first glyph is. -/
def escapesNext : Bool → List Glyph → Bool
  | escaped, [] => escaped
  | true, _ :: gs => escapesNext false gs
  | false, g :: gs => escapesNext (g = .scalar '\\') gs

/-- Whether two neighbours stand in one word. -/
def inOneWord (g h : Glyph) : Bool := !g.isSeparator && !h.isSeparator

/-- The content of a string in pieces: it is cut between each two neighbours that do not stand in
one word. -/
def pieces (content : List Glyph) : List Text := (content.splitBy inOneWord).map Text.ofGlyphs

/-- The tokens of the content of a string. -/
def contentTokens (content : List Glyph) : List Token :=
  (pieces content).map fun piece => .literal (.string piece)

/-- The tokens of glyphs, and the mode in which they end, from left to right. -/
def scan : List Glyph → Mode × List Token
  | [] => (.normal, [])
  | g :: gs =>
    if isBlank g.char then scan gs
    else if g.char = '#' then
      if .scalar '#' ∈ gs then scan ((gs.dropWhile (· ≠ .scalar '#')).drop 1)
      else (.comment, [])
    else if g.char = '"' then
      match closingQuote? false gs with
      | some n =>
        let (mode, rest) := scan (gs.drop (n + 1))
        (mode, .operator .quote :: contentTokens (gs.take n) ++ .operator .quote :: rest)
      | none => (.string (escapesNext false gs), .operator .quote :: contentTokens gs)
    else match Operator.ofChar? g.char with
      | some o =>
        let (mode, rest) := scan gs
        (mode, .operator o :: rest)
      | none =>
        let (mode, rest) := scan (behindWord gs)
        (mode, classify (.ofGlyphs (g :: leadingWord gs)) :: rest)
termination_by gs => gs.length
decreasing_by
  · exact Nat.lt_succ_self _
  · have := (List.dropWhile_sublist (fun h => decide (h ≠ .scalar '#')) (l := gs)).length_le
    rw [List.length_drop, List.length_cons]
    omega
  · rw [List.length_drop, List.length_cons]
    omega
  · exact Nat.lt_succ_self _
  · exact Nat.lt_succ_of_le (List.dropWhile_sublist _).length_le

/-! ### Pieces -/

/-- The pieces put together are the content. -/
theorem concat_pieces (gs : List Glyph) : Text.concat (pieces gs) = .ofGlyphs gs := by
  have hflatten (runs : List (List Glyph)) :
      Text.concat (runs.map Text.ofGlyphs) = .ofGlyphs runs.flatten := by
    induction runs with
    | nil => rfl
    | cons run runs ih =>
        rw [List.map_cons, Text.concat_cons, ih]
        ext1
        simp [Text.ofGlyphs]
  rw [pieces, hflatten, List.flatten_splitBy]

/-- The tokens of a separator in front of other content. -/
theorem contentTokens_separator {g : Glyph} (hg : g.isSeparator = true) (gs : List Glyph) :
    contentTokens (g :: gs) = .literal (.string (.ofGlyphs [g])) :: contentTokens gs := by
  have hsplit : (g :: gs).splitBy inOneWord = [g] :: gs.splitBy inOneWord := by
    refine List.splitBy_append (l := [g]) fun h hh k _ => ?_
    obtain rfl : g = h := Option.some.inj hh
    rw [inOneWord, hg, Bool.not_true, Bool.false_and]
  rw [contentTokens, pieces, hsplit]
  rfl

/-- The tokens of a word in front of other content. -/
theorem contentTokens_word {w gs : List Glyph} (hw : IsWord w) (hgs : EndsWord gs) :
    contentTokens (w ++ gs) = .literal (.string (.ofGlyphs w)) :: contentTokens gs := by
  have hchain : w.IsChain fun g h => inOneWord g h := by
    refine (List.pairwise_of_forall_mem_list fun g hg h hh => ?_).isChain
    rw [inOneWord, hw.noSeparator g hg, hw.noSeparator h hh]
    rfl
  have hsplit : (w ++ gs).splitBy inOneWord = w :: gs.splitBy inOneWord := by
    rw [List.splitBy_append, List.splitBy_of_isChain hw.ne_nil hchain, List.singleton_append]
    intro g _ h hh
    rw [inOneWord, hgs h hh, Bool.not_true, Bool.and_false]
  rw [contentTokens, pieces, hsplit]
  rfl

/-! ### Backslashes -/

/-- Going over some glyphs and then over others. -/
theorem escapesNext_append (escaped : Bool) (gs hs : List Glyph) :
    escapesNext escaped (gs ++ hs) = escapesNext (escapesNext escaped gs) hs := by
  induction gs generalizing escaped with
  | nil => rfl
  | cons g gs ih => cases escaped <;> exact ih _

/-- A text that ends in a backslash escapes if it does not without it. -/
theorem escapes_append_backslash (bs : List UInt8) :
    Mode.escapes ⟨bs ++ [0x5C]⟩ = !Mode.escapes ⟨bs⟩ := by
  simp only [Mode.escapes, List.reverse_append, List.reverse_singleton, List.singleton_append]
  rw [List.takeWhile_cons_of_pos (by decide), List.length_cons]
  generalize (bs.reverse.takeWhile _).length = n
  rcases Nat.mod_two_eq_zero_or_one n with hn | hn
  · rw [Nat.add_mod, hn]
    rfl
  · rw [Nat.add_mod, hn]
    rfl

/-- A text that ends in another byte does not escape. -/
theorem escapes_append_of_ne (bs : List UInt8) {b : UInt8} (hb : b ≠ 0x5C) :
    Mode.escapes ⟨bs ++ [b]⟩ = false := by
  simp only [Mode.escapes, List.reverse_append, List.reverse_singleton, List.singleton_append]
  rw [List.takeWhile_cons_of_neg (by simpa using hb)]
  rfl

/-- **Looking back at glyphs tells the same as going over them**: whether they end in an odd number
of backslashes, or the last of them escapes what is behind. -/
theorem escapes_ofGlyphs {gs : List Glyph} (hl : Legible gs) :
    Mode.escapes (.ofGlyphs gs) = escapesNext false gs := by
  induction gs using List.reverseRecOn with
  | nil => rfl
  | append_singleton gs g ih =>
      have hbytes : Text.ofGlyphs (gs ++ [g]) = ⟨(Text.ofGlyphs gs).bytes ++ g.bytes⟩ := by
        simp [Text.ofGlyphs]
      rw [hbytes, escapesNext_append, ← ih hl.left]
      by_cases hg : g = .scalar '\\'
      · subst hg
        have hbackslash : (Glyph.scalar '\\').bytes = [0x5C] := rfl
        rw [hbackslash, escapes_append_backslash]
        cases Mode.escapes ⟨(Text.ofGlyphs gs).bytes⟩ <;> rfl
      · -- The last byte of any other glyph is no backslash.
        have hne : g.bytes ≠ [] := List.ne_nil_of_length_pos (Utf8.length_bytes_pos g)
        obtain ⟨front, b, hb⟩ := (List.eq_nil_or_concat g.bytes).resolve_left hne
        have hb' : b ≠ 0x5C := by
          rintro rfl
          have hmem : 0x5C ∈ (Text.ofGlyphs [g]).bytes := by
            simp [Text.ofGlyphs, hb]
          have hg' := mem_of_mem_bytes hl.right (by decide) hmem
          exact hg (List.mem_singleton.1 hg').symm
        rw [hb, List.concat_eq_append, ← List.append_assoc, escapes_append_of_ne _ hb']
        cases Mode.escapes (.ofGlyphs gs) with
        | true => rfl
        | false => simp [escapesNext, hg]

/-! ### Comments -/

/-- **A comment is skipped** up to the next hash, or to the end. -/
theorem read_comment (gs : List Glyph) :
    comment.read gs = if .scalar '#' ∈ gs
      then normal.read ((gs.dropWhile (· ≠ .scalar '#')).drop 1) else (comment, []) := by
  induction gs using cut_cases with
  | nil => rfl
  | separator g gs hg ih =>
      obtain ⟨c, rfl⟩ := exists_scalar_of_isSeparator hg
      by_cases hc : c = '#'
      · subst hc
        rw [Mode.read_comment_hash, if_pos List.mem_cons_self,
          List.dropWhile_cons_of_neg (by simp)]
        rfl
      · rw [Mode.read_separator _ hg, Mode.step_comment (by simpa [Glyph.char] using hc), ih,
          List.dropWhile_cons_of_pos (by simpa using hc)]
        simp [hc, eq_comm]
  | word w gs hw hgs ih =>
      have hw' : .scalar '#' ∉ w := fun h => by
        have := hw.noSeparator _ h
        revert this
        decide
      rw [Mode.read_word _ hw hgs, Mode.step_comment (Mode.head_word_ne hw (by decide)), ih,
        List.dropWhile_append_of_pos]
      · simp [hw']
      · intro g hg
        have hne : g ≠ .scalar '#' := by
          rintro rfl
          exact hw' hg
        simpa using hne

/-! ### Strings -/

/-- There is no quote in a word, so the search for one goes on behind it. -/
theorem closingQuote?_append {w : List Glyph} (hw : ∀ g ∈ w, g.isSeparator = false)
    (escaped : Bool) (gs : List Glyph) :
    closingQuote? escaped (w ++ gs)
      = (closingQuote? (escapesNext escaped w) gs).map (· + w.length) := by
  induction w generalizing escaped with
  | nil => simp [escapesNext]
  | cons g w ih =>
      have ih := ih fun h hh => hw h (List.mem_cons_of_mem g hh)
      have hadd : ((· + 1) ∘ (· + w.length) : Nat → Nat) = (· + (w.length + 1)) := by
        funext n
        exact Nat.add_assoc n w.length 1
      cases escaped with
      | true =>
          rw [List.cons_append, closingQuote?, escapesNext, ih, Option.map_map, hadd]
          rfl
      | false =>
          have hg : g ≠ .scalar '"' := by
            rintro rfl
            have := hw _ List.mem_cons_self
            revert this
            decide
          rw [List.cons_append, closingQuote?, if_neg hg, escapesNext, ih, Option.map_map, hadd]
          rfl

/-- A separator is no backslash. -/
theorem ne_backslash_of_isSeparator {g : Glyph} (hg : g.isSeparator = true) :
    g ≠ .scalar '\\' := by
  rintro rfl
  revert hg
  decide

/-- A separator escapes nothing. -/
theorem escapesNext_separator {g : Glyph} (hg : g.isSeparator = true) (escaped : Bool)
    (gs : List Glyph) : escapesNext escaped (g :: gs) = escapesNext false gs := by
  cases escaped with
  | true => rfl
  | false => rw [escapesNext, decide_eq_false (ne_backslash_of_isSeparator hg)]

/-- Behind a separator that closes no string, the search for a quote begins anew. -/
theorem closingQuote?_separator {g : Glyph} (hg : g.isSeparator = true) {escaped : Bool}
    (hq : g = .scalar '"' → escaped = true) (gs : List Glyph) :
    closingQuote? escaped (g :: gs) = (closingQuote? false gs).map (· + 1) := by
  cases escaped with
  | true => rfl
  | false =>
      have hg' : g ≠ .scalar '"' := fun h => Bool.false_ne_true (hq h)
      rw [closingQuote?, if_neg hg', decide_eq_false (ne_backslash_of_isSeparator hg)]

/-- What reading does from inside a string: its content up to the closing quote, if there is one,
and what is behind. -/
def stringReading (escaped : Bool) (gs : List Glyph) : Mode × List Token :=
  match closingQuote? escaped gs with
  | some n =>
    ((normal.read (gs.drop (n + 1))).1,
      contentTokens (gs.take n) ++ .operator .quote :: (normal.read (gs.drop (n + 1))).2)
  | none => (.string (escapesNext escaped gs), contentTokens gs)

/-- Glyphs that are one piece of content come out in front of what is read behind them. -/
theorem stringReading_append {escaped escaped' : Bool} {v gs : List Glyph} {t : Token}
    (hq : closingQuote? escaped (v ++ gs) = (closingQuote? escaped' gs).map (· + v.length))
    (he : escapesNext escaped (v ++ gs) = escapesNext escaped' gs)
    (ht : ∀ more, more <+: gs → contentTokens (v ++ more) = t :: contentTokens more) :
    stringReading escaped (v ++ gs)
      = ((stringReading escaped' gs).1, t :: (stringReading escaped' gs).2) := by
  rw [stringReading, stringReading, hq, he]
  cases closingQuote? escaped' gs with
  | none => rw [Option.map_none, ht gs (List.prefix_refl gs)]
  | some n =>
      have htake : (v ++ gs).take (n + v.length) = v ++ gs.take n := by
        rw [Nat.add_comm, List.take_length_add_append]
      have hdrop : (v ++ gs).drop (n + v.length + 1) = gs.drop (n + 1) := by
        rw [Nat.add_right_comm, Nat.add_comm, List.drop_length_add_append]
      simp only [Option.map_some, htake, hdrop, ht _ (List.take_prefix n gs), List.cons_append]

/-- **A string is read up to the first quote that is not escaped**, or to the end. -/
theorem read_string {gs : List Glyph} (hl : Legible gs) {escaped : Bool}
    (he : escaped = true → EndsWord gs) :
    (Mode.string escaped).read gs = stringReading escaped gs := by
  induction gs using cut_cases generalizing escaped with
  | nil =>
      rw [Mode.read_nil, stringReading, closingQuote?]
      rfl
  | separator g gs hg ih =>
      have ih : (Mode.string false).read gs = stringReading false gs :=
        ih hl.tail (by rintro ⟨⟩)
      by_cases hq : g = .scalar '"' → escaped = true
      · have hchar : (([g] : List Glyph).head?).map Glyph.char = some '"' → escaped = true := by
          obtain ⟨c, rfl⟩ := exists_scalar_of_isSeparator hg
          simpa [Glyph.char] using hq
        have hescapes : Mode.escapes (.ofGlyphs [g]) = false := by
          have hl' : Legible ([g] ++ gs) := hl
          rw [escapes_ofGlyphs hl'.left, escapesNext_separator hg]
          rfl
        rw [Mode.read_separator _ hg, Mode.step_string hchar, hescapes, ih]
        refine (stringReading_append (v := [g]) (closingQuote?_separator hg hq gs)
          (escapesNext_separator hg escaped gs) fun more _ => ?_).symm
        exact contentTokens_separator hg more
      · obtain ⟨rfl, hesc⟩ := Classical.not_imp.1 hq
        rw [Bool.not_eq_true] at hesc
        subst hesc
        have hclosing : closingQuote? false (.scalar '"' :: gs) = some 0 := rfl
        rw [Mode.read_string_quote, stringReading, hclosing]
        rfl
  | word w gs hw hgs ih =>
      obtain rfl : escaped = false := by
        rw [← Bool.not_eq_true]
        exact fun h => hw.not_endsWord gs (he h)
      have ih : (Mode.string (escapesNext false w)).read gs
          = stringReading (escapesNext false w) gs := ih hl.right fun _ => hgs
      have hquote : (w.head?).map Glyph.char ≠ some '"' := Mode.head_word_ne hw (by decide)
      rw [Mode.read_word _ hw hgs, Mode.step_string fun h => absurd h hquote,
        escapes_ofGlyphs hl.left, ih]
      refine (stringReading_append (closingQuote?_append hw.noSeparator false gs)
        (escapesNext_append false w gs) ?_).symm
      rintro more ⟨behind, rfl⟩
      exact contentTokens_word hw hgs.left

/-! ### The whole text -/

/-- A glyph that counts as the character of an operator is that character. -/
theorem eq_scalar_of_char_eq {g : Glyph} {o : Operator} {c : Char} (ho : o.char? = some c)
    (h : g.char = c) : g = .scalar c := by
  obtain ⟨d, rfl, -⟩ := exists_scalar_of_ofChar? (h ▸ Operator.ofChar?_eq_some_iff.2 ho)
  exact congrArg Glyph.scalar h

/-- Reading is scanning, for all glyphs that can come from a text. -/
theorem read_eq_scan {gs : List Glyph} (hl : Legible gs) : normal.read gs = scan gs := by
  fun_induction scan gs with
  | case1 => rfl
  | case2 g gs hb ih =>
      obtain ⟨c, rfl, hc⟩ := exists_scalar_of_isBlank hb
      rw [Mode.read_normal_blank hc, ih hl.tail]
  | case3 g gs hb hg hmem ih =>
      obtain rfl := eq_scalar_of_char_eq (o := .hash) rfl hg
      have hl' : Legible ((gs.dropWhile (· ≠ .scalar '#')).drop 1) :=
        hl.tail.of_isInfix
          ((List.drop_suffix 1 _).trans (List.dropWhile_suffix _)).isInfix
      rw [Mode.read_normal_hash, read_comment, if_pos hmem, ih hl']
  | case4 g gs hb hg hmem =>
      obtain rfl := eq_scalar_of_char_eq (o := .hash) rfl hg
      rw [Mode.read_normal_hash, read_comment, if_neg hmem]
  | case5 g gs hb _ hg n hn mode rest hscan ih =>
      obtain rfl := eq_scalar_of_char_eq (o := .quote) rfl hg
      have hl' : Legible (gs.drop (n + 1)) := hl.tail.of_isInfix (List.drop_suffix _ _).isInfix
      rw [Mode.read_normal_quote, read_string hl.tail (by rintro ⟨⟩), stringReading, hn]
      simp only [ih hl', hscan, List.cons_append]
  | case6 g gs hb _ hg hn =>
      obtain rfl := eq_scalar_of_char_eq (o := .quote) rfl hg
      rw [Mode.read_normal_quote, read_string hl.tail (by rintro ⟨⟩), stringReading, hn]
  | case7 g gs hb hhash hquote o ho mode rest hscan ih =>
      obtain ⟨c, rfl, hc⟩ := exists_scalar_of_ofChar? ho
      have hh : o ≠ .hash := by
        rintro rfl
        exact hhash (Option.some.inj hc).symm
      have hq : o ≠ .quote := by
        rintro rfl
        exact hquote (Option.some.inj hc).symm
      rw [Mode.read_normal_operator hc hh hq, ih hl.tail, hscan]
  | case8 g gs hb _ _ ho mode rest hscan ih =>
      have hg : g.isSeparator = false := by
        rw [Glyph.isSeparator, Operator.isOperatorChar, ho, Bool.eq_false_iff.2 hb]
        rfl
      have hl' : Legible (behindWord gs) :=
        hl.tail.of_isInfix (List.dropWhile_suffix _).isInfix
      rw [← leadingWord_append_behindWord gs, ← List.cons_append,
        Mode.read_normal_word (isWord_leadingWord hg gs) (endsWord_behindWord gs), ih hl', hscan,
        leadingWord_append_behindWord]

/-- **Reading is scanning.** The tokens of a text and the mode in which it ends are those that the
scanner finds. The glyphs it goes over hold all bytes of the text, and the pieces of a string put
together are its content. -/
theorem lex_eq_scan (source : Text) :
    lex source = scan source.glyphs ∧
    Text.ofGlyphs source.glyphs = source ∧
    ∀ content : List Glyph, Text.concat (pieces content) = .ofGlyphs content :=
  ⟨read_eq_scan (Legible.glyphs source), Text.ofGlyphs_glyphs source, concat_pieces⟩

example : lex "if#no \"# a<\"b \\\"c" =
    (.string false, [.keyword .cond, .ident "a", .operator .less, .operator .quote,
      .literal (.string "b"), .literal (.string " "), .literal (.string "\\"),
      .literal (.string "\""), .literal (.string "c")]) := by
  decide +kernel

end IntLang
