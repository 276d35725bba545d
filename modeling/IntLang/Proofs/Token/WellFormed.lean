import IntLang.Proofs.Token.Contents

/-!
# Well-formed token streams

`WellFormed mode ts` is what all that comes behind the lexer may rely on, when it has read some
fragments into the tokens `ts` and is now in `mode`. Quotes come in pairs, and exactly what stands
between two of them is a piece of a string. No comment leaves a token. Identifiers are words that
have no other reading, integers have no sign, and a token carries the content of its own kind and
nothing else, as a record (`Token.Fields`).

The mode need not be kept beside the tokens: whether a string is open can be told from the number
of quotes, and whether a quote would be escaped from the last token alone.

## Main results

* `Stream.wellFormed`: the tokens of a stream from normal mode are well-formed;
* `wellFormed_run`: **reading is well-formed at every step**, for every text and however many of its
  fragments have been read.
-/

namespace IntLang

open Mode (normal)

/-! ### Tokens as records -/

/-- The records in which only the content of one kind is set, and the content is one that can be
spelled. -/
inductive Token.Fields.Sole : Token.Fields → Prop
  | operator {o : Operator} {c : Char} : o.char? = some c → Sole { kind := 0, operator := o.code }
  | type {t : ValueType} : t ∈ ValueType.all → Sole { kind := 1, type := t.code }
  | ident (name : Text) : Sole { kind := 2, ident := name }
  | keyword {k : Keyword} : k ∈ Keyword.spellings.map (·.2) → Sole { kind := 3, keyword := k.code }
  | real (x : Single) : Sole { kind := 4, literal := 0, real := x }
  | int (n : Int32) : Sole { kind := 4, literal := 1, int := n }
  | string (s : Text) : Sole { kind := 4, literal := 2, string := s }
  | bool (b : Bool) : Sole { kind := 4, literal := 3, bool := b }

/-- An operator that can be spelled is told by its record. -/
theorem Token.token_fields_operator {o : Operator} {c : Char} (h : o.char? = some c) :
    (Token.operator o).fields.token = .operator o := by
  cases o with
  | unassigned n => cases h
  | _ => rfl

/-- What a word is classified as carries the content of its kind and nothing else, and is told by
that. -/
theorem fields_classify (w : Text) :
    (classify w).fields.Sole ∧ (classify w).fields.token = classify w := by
  rcases classify_cases w with ⟨t, ht, h⟩ | ⟨k, hk, h⟩ | ⟨n, -, h⟩ | ⟨x, -, h⟩ | ⟨b, -, h⟩ | h
  all_goals rw [h]
  · have hmem := List.mem_of_find?_eq_some ht
    refine ⟨.type hmem, ?_⟩
    cases t with
    | unassigned n => simp [ValueType.all] at hmem
    | _ => rfl
  · obtain ⟨p, hp, rfl⟩ := Option.map_eq_some_iff.1 hk
    have hmem := List.mem_map_of_mem (f := (·.2)) (List.mem_of_find?_eq_some hp)
    refine ⟨.keyword hmem, ?_⟩
    generalize p.2 = k at hmem ⊢
    cases k with
    | unassigned n => simp [Keyword.spellings] at hmem
    | _ => rfl
  · exact ⟨.int n, rfl⟩
  · exact ⟨.real x, rfl⟩
  · exact ⟨.bool b, rfl⟩
  · exact ⟨.ident w, rfl⟩

/-! ### Quotes -/

/-- Whether reading is inside a string. -/
def Mode.isString : Mode → Bool
  | .string _ => true
  | _ => false

/-- A comment is as far outside of strings as what follows it. -/
theorem Mode.isString_plain (m : Mode) : m.plain.isString = m.isString := by
  cases m <;> rfl

/-- The number of quotes that open or close a string. -/
def quoteCount (ts : List Token) : Nat := ts.count (.operator .quote)

theorem quoteCount_quote (ts : List Token) :
    quoteCount (.operator .quote :: ts) = quoteCount ts + 1 :=
  List.count_cons_self

theorem quoteCount_cons {t : Token} (ht : t ≠ .operator .quote) (ts : List Token) :
    quoteCount (t :: ts) = quoteCount ts :=
  List.count_cons_of_ne ht

/-- What a word is classified as is no operator. -/
theorem classify_ne_operator (w : Text) (o : Operator) : classify w ≠ .operator o := by
  intro h
  have hmark := isMark_classify w
  rw [h] at hmark
  cases hmark

/-- **Quotes lead into strings and out of them**: between two modes there is an odd number of quotes
exactly if one of them is inside a string and the other is not. -/
theorem Stream.odd_quoteCount_iff {m m' : Mode} {ts : List Token} (h : Stream m ts m') :
    quoteCount ts % 2 = 1 ↔ m.isString ≠ m'.isString := by
  induction h with
  | nil m => simp [quoteCount]
  | operator _ _ hq _ ih =>
      rw [quoteCount_cons fun h => hq (Token.operator.inj h)]
      exact ih
  | word _ _ ht _ ih =>
      rw [quoteCount_cons (by rw [ht]; exact classify_ne_operator _ _)]
      exact ih
  | @openString ts m' _ ih | @closeString ts m' _ ih =>
      have hflip : quoteCount (.operator .quote :: ts) % 2 = 1 ↔ ¬ quoteCount ts % 2 = 1 := by
        rw [quoteCount_quote]
        omega
      rw [hflip, ih]
      cases m'.isString <;> decide
  | lone _ _ _ ih | piece _ _ _ _ ih =>
      rw [quoteCount_cons (by rintro ⟨⟩)]
      exact ih

/-- The first token of a stream is a piece of a string exactly if the stream begins inside one and
the token does not end it. -/
theorem Stream.isPiece_iff {m m' : Mode} {t : Token} {ts : List Token} (h : Stream m (t :: ts) m') :
    t.isPiece = true ↔ m.isString = true ∧ t ≠ .operator .quote := by
  cases h with
  | operator _ _ _ _ => exact ⟨by rintro ⟨⟩, by rintro ⟨⟨⟩, -⟩⟩
  | word _ _ ht _ =>
      rw [ht, isPiece_classify]
      exact ⟨by rintro ⟨⟩, by rintro ⟨⟨⟩, -⟩⟩
  | openString _ => exact ⟨by rintro ⟨⟩, fun h => absurd rfl h.2⟩
  | closeString _ => exact ⟨by rintro ⟨⟩, fun h => absurd rfl h.2⟩
  | lone _ _ _ => exact ⟨fun _ => ⟨rfl, by rintro ⟨⟩⟩, fun _ => rfl⟩
  | piece _ _ _ _ => exact ⟨fun _ => ⟨rfl, by rintro ⟨⟩⟩, fun _ => rfl⟩

/-- Whether a quote behind a token would be escaped. -/
def Token.escapesNext : Token → Bool
  | .literal (.string s) => Mode.escapes s
  | _ => false

/-- A stream that ends inside a string ends with a token that is in it or opens it, and the token
tells whether a quote would be escaped. -/
theorem Stream.exists_getLast? {m : Mode} (hm : m.isString = false) {ts : List Token}
    {escaped : Bool} (h : Stream m ts (.string escaped)) :
    ∃ t, ts.getLast? = some t ∧ (t = .operator .quote ∨ t.isPiece = true) ∧
      t.escapesNext = escaped := by
  rcases List.eq_nil_or_concat ts with rfl | ⟨front, t, rfl⟩
  · rw [h.mode_eq] at hm
    cases hm
  · rw [List.concat_eq_append] at h ⊢
    refine ⟨t, List.getLast?_concat, ?_⟩
    obtain ⟨n, -, hlast⟩ := h.exists_middle
    cases hlast with
    | operator _ _ _ h => cases h.mode_eq
    | word _ _ _ h => cases h.mode_eq
    | closeString h => cases h.mode_eq
    | openString h => exact ⟨Or.inl rfl, Mode.string.inj h.mode_eq⟩
    | lone _ _ h => exact ⟨Or.inr rfl, Mode.string.inj h.mode_eq⟩
    | piece _ _ _ h => exact ⟨Or.inr rfl, Mode.string.inj h.mode_eq⟩

/-! ### Well-formed streams -/

/-- What holds of the tokens that have been read up to some place, and the mode there. -/
structure WellFormed (mode : Mode) (ts : List Token) : Prop where
  /-- A string is open exactly if the number of quotes is odd. -/
  quotes : quoteCount ts % 2 = 1 ↔ mode.isString = true
  /-- Whether a quote would be escaped can be told from the last token. -/
  last : ∀ escaped, mode = .string escaped → ∃ t, ts.getLast? = some t ∧
    (t = .operator .quote ∨ t.isPiece = true) ∧ t.escapesNext = escaped
  /-- A token is a piece of a string exactly if the number of quotes before it is odd and it is not
  the one that closes the string. -/
  pieces : ∀ i t, ts[i]? = some t →
    (t.isPiece = true ↔ quoteCount (ts.take i) % 2 = 1 ∧ t ≠ .operator .quote)
  /-- No hash is left. -/
  hash : .operator .hash ∉ ts
  /-- An identifier is a word, and reads as itself. -/
  ident : ∀ name, .ident name ∈ ts → name.bytes ≠ [] ∧
    (∀ c ∈ name.chars, isBlank c = false ∧ Operator.isOperatorChar c = false) ∧
    classify name = .ident name
  /-- No integer is negative. -/
  int : ∀ n, .literal (.int n) ∈ ts → 0 ≤ n.toInt
  /-- A token carries the content of its kind and nothing else. -/
  fields : ∀ t ∈ ts, t.fields.Sole
  /-- That content makes it the token it is. -/
  token_fields : ∀ t ∈ ts, t.fields.token = t

/-- An identifier in a stream is a word, and reads as itself. -/
theorem Stream.ident {m m' : Mode} {ts : List Token} (h : Stream m ts m') {name : Text}
    (hname : .ident name ∈ ts) : IsWord name.glyphs ∧ classify name = .ident name := by
  obtain ⟨w, hw, hl, hc⟩ := h.exists_word hname rfl
  obtain rfl := eq_of_classify_eq_ident hc.symm
  exact ⟨by rwa [hl], hc.symm⟩

/-- An integer in a stream is not negative. -/
theorem Stream.int_nonneg {m m' : Mode} {ts : List Token} (h : Stream m ts m') {n : Int32}
    (hn : .literal (.int n) ∈ ts) : 0 ≤ n.toInt := by
  obtain ⟨w, hw, hl, hc⟩ := h.exists_word hn rfl
  rcases classify_cases (.ofGlyphs w) with
    ⟨t, -, h⟩ | ⟨k, -, h⟩ | ⟨i, hi, h⟩ | ⟨x, -, h⟩ | ⟨b, -, h⟩ | h
  all_goals rw [h] at hc
  all_goals cases hc
  exact toInt_nonneg_of_intWord? hw hl hi

/-- **The tokens of a stream from normal mode are well-formed.** -/
theorem Stream.wellFormed {mode : Mode} {ts : List Token} (h : Stream normal ts mode) :
    WellFormed mode ts where
  quotes := by
    rw [h.odd_quoteCount_iff]
    cases mode.isString <;> decide
  last := by
    rintro escaped rfl
    exact h.exists_getLast? rfl
  pieces := by
    intro i t ht
    obtain ⟨hi, rfl⟩ := List.getElem?_eq_some_iff.1 ht
    have hsplit : ts = ts.take i ++ ts[i] :: ts.drop (i + 1) := by
      rw [← List.drop_eq_getElem_cons hi, List.take_append_drop]
    rw [hsplit] at h
    obtain ⟨n, hbefore, hbehind⟩ := h.exists_middle
    rw [hbehind.isPiece_iff, hbefore.odd_quoteCount_iff]
    cases n.isString <;> simp [Mode.isString]
  hash := by
    intro hmem
    rcases h.mem_cases hmem with ⟨o, c, -, hh, ho⟩ | ⟨content, ⟨⟩⟩ | ⟨w, -, -, hw⟩
    · exact hh (Token.operator.inj ho).symm
    · exact classify_ne_operator _ _ hw.symm
  ident := by
    intro name hname
    obtain ⟨hw, hc⟩ := h.ident hname
    refine ⟨?_, ?_, hc⟩
    · intro hempty
      refine hw.ne_nil ?_
      rw [Text.glyphs, hempty]
      rfl
    · intro c hmem
      obtain ⟨g, hg, rfl⟩ := List.mem_map.1 hmem
      obtain ⟨hb, ho⟩ := char_of_not_isSeparator (hw.noSeparator g hg)
      exact ⟨hb, by rw [Operator.isOperatorChar, ho]; rfl⟩
  int := by
    intro n hn
    exact h.int_nonneg hn
  fields := by
    intro t ht
    rcases h.mem_cases ht with ⟨o, c, hc, -, rfl⟩ | ⟨content, rfl⟩ | ⟨w, -, -, rfl⟩
    · exact .operator hc
    · exact .string content
    · exact (fields_classify _).1
  token_fields := by
    intro t ht
    rcases h.mem_cases ht with ⟨o, c, hc, -, rfl⟩ | ⟨content, rfl⟩ | ⟨w, -, -, rfl⟩
    · exact Token.token_fields_operator hc
    · rfl
    · exact (fields_classify _).2

/-! ### Reading part of a text -/

/-- The first fragments of a cutting are fragmented. -/
theorem Fragmented.take {frags : List (List Glyph)} (h : Fragmented frags) (n : Nat) :
    Fragmented (frags.take n) := by
  induction h generalizing n with
  | nil =>
      rw [List.take_nil]
      exact .nil
  | separator hg _ ih =>
      cases n with
      | zero => exact .nil
      | succ n => exact .separator hg (ih n)
  | @word w rest hw hrest _ ih =>
      cases n with
      | zero => exact .nil
      | succ n =>
          rw [← List.take_append_drop n rest, List.flatten_append] at hrest
          exact .word hw hrest.left (ih n)

/-- **Reading is well-formed at every step.** However many fragments of a text have been read, the
tokens that have come out, and the mode that reading is in, are well-formed. -/
theorem wellFormed_run (source : Text) (n : Nat) :
    WellFormed (normal.run ((cut source.glyphs).take n)).1
      (normal.run ((cut source.glyphs).take n)).2 := by
  have hlegible : Legible ((cut source.glyphs).take n).flatten := by
    refine (Legible.glyphs source).of_isInfix ⟨[], ((cut source.glyphs).drop n).flatten, ?_⟩
    rw [List.nil_append, ← List.flatten_append, List.take_append_drop, flatten_cut]
  have h := (stream_run ((fragmented_cut source.glyphs).take n) hlegible normal).wellFormed
  refine { h with quotes := ?_, last := ?_ }
  · rw [h.quotes, Mode.isString_plain]
  · intro escaped hmode
    refine h.last escaped ?_
    rw [hmode]
    rfl

end IntLang
