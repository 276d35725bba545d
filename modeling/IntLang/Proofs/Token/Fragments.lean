import IntLang.Proofs.Text.Pieces
import IntLang.Proofs.Token.Reading
import Mathlib.Data.List.Chain

/-!
# The fragments of a text

There is one way to cut a text at its separators, whatever its bytes are. `Cuts source frags` says
what a cutting is, on texts and without the glyphs: nothing is lost, no fragment is empty, each of
them is a separator or has none in it, and no two that have none are neighbours. A cut never runs
through a character. Behind it, or before it, stands a separator, whose first byte continues no
character and which is complete.

The fragments can also be taken out of the text by the offsets of their bytes. `slices` goes over
the text once and notes where a fragment begins and ends. Behind a separator it goes on at the
length of its *character*, while the glyph has as many bytes as were *read*. The two differ for a
stray byte, which counts as a character of three bytes, but a stray byte is no separator.

## Main results

* `cuts_iff`: `fragments source` is a cutting of `source`, and the only one;
* `map_slice?_slices`: the slices lie within the text, and they are the fragments;
* `fragments_unique`: both of it together.
-/

namespace IntLang

/-! ### Cuttings -/

namespace Text

/-- A text is one character that stands alone: a blank or an operator. -/
def StandsAlone (t : Text) : Prop :=
  ∃ c, (isBlank c = true ∨ Operator.isOperatorChar c = true) ∧ t = .ofChars [c]

/-- None of the characters of a text stands alone. -/
def Unbroken (t : Text) : Prop :=
  ∀ c ∈ t.chars, isBlank c = false ∧ Operator.isOperatorChar c = false

end Text

/-- The fragments are a cutting of the text at its separators. -/
structure Cuts (source : Text) (frags : List Text) : Prop where
  /-- Nothing is lost. -/
  concat : Text.concat frags = source
  /-- No fragment is empty. -/
  ne_empty : ∀ f ∈ frags, f ≠ ""
  /-- A fragment is a separator, or has none in it. -/
  kind : ∀ f ∈ frags, f.StandsAlone ∨ f.Unbroken
  /-- No two fragments without a separator are neighbours. -/
  apart : frags.IsChain fun f g => ¬(f.Unbroken ∧ g.Unbroken)

namespace Text

/-- A character stands alone exactly if its glyph is a separator. -/
theorem standsAlone_ofChars_iff {c : Char} :
    (ofChars [c]).StandsAlone ↔ (Glyph.scalar c).isSeparator = true := by
  rw [Glyph.isSeparator, Glyph.char, Bool.or_eq_true]
  constructor
  · rintro ⟨d, hd, hcd⟩
    obtain ⟨rfl, -⟩ := List.cons.inj (ofChars_inj.1 hcd)
    exact hd
  · exact fun hc => ⟨c, hc, rfl⟩

theorem StandsAlone.exists_scalar {t : Text} (h : t.StandsAlone) :
    ∃ c, (Glyph.scalar c).isSeparator = true ∧ t = ofChars [c] := by
  obtain ⟨c, hc, rfl⟩ := h
  exact ⟨c, standsAlone_ofChars_iff.1 ⟨c, hc, rfl⟩, rfl⟩

/-- A text is unbroken exactly if none of its glyphs is a separator. -/
theorem unbroken_iff {t : Text} : t.Unbroken ↔ ∀ g ∈ t.glyphs, g.isSeparator = false := by
  simp only [Unbroken, chars, List.forall_mem_map, Glyph.isSeparator, Bool.or_eq_false_iff]

/-- A separator stands alone as a text. -/
theorem standsAlone_of_isSeparator {g : Glyph} (h : g.isSeparator = true) :
    (ofGlyphs [g]).StandsAlone := by
  obtain ⟨c, rfl⟩ := exists_scalar_of_isSeparator h
  exact standsAlone_ofChars_iff.2 h

theorem StandsAlone.ne_empty {t : Text} (h : t.StandsAlone) : t ≠ "" := by
  obtain ⟨c, -, rfl⟩ := h
  intro hempty
  exact List.cons_ne_nil c [] (ofChars_inj.1 hempty)

theorem StandsAlone.not_unbroken {t : Text} (h : t.StandsAlone) : ¬t.Unbroken := by
  obtain ⟨c, hc, rfl⟩ := h.exists_scalar
  intro hunbroken
  have hfalse := unbroken_iff.1 hunbroken (.scalar c) (by simp)
  rw [hc] at hfalse
  cases hfalse

/-- A text without separators is a word, if there is something in it. -/
theorem Unbroken.isWord {t : Text} (h : t.Unbroken) (hne : t ≠ "") : IsWord t.glyphs := by
  refine ⟨fun hnil => hne ?_, unbroken_iff.1 h⟩
  rw [← ofGlyphs_glyphs t, hnil]
  rfl

end Text

/-! ### There is one cutting -/

namespace Cuts

variable {source f : Text} {rest : List Text}

/-- What follows the first fragment is a cutting, too. -/
theorem tail (h : Cuts source (f :: rest)) : Cuts (.concat rest) rest where
  concat := rfl
  ne_empty g hg := h.ne_empty g (List.mem_cons_of_mem f hg)
  kind g hg := h.kind g (List.mem_cons_of_mem f hg)
  apart := h.apart.tail

/-- Behind a fragment without separators, a separator ends the word. -/
theorem endsWord (h : Cuts source (f :: rest)) (hf : f.Unbroken) :
    EndsWord (Text.concat rest).glyphs := by
  cases rest with
  | nil => exact endsWord_nil
  | cons g rest =>
      have hnot : ¬g.Unbroken := fun hg => (List.isChain_cons_cons.1 h.apart).1 ⟨hf, hg⟩
      have hg : g ∈ f :: g :: rest := List.mem_cons_of_mem f List.mem_cons_self
      obtain ⟨c, hc, rfl⟩ := ((h.kind g hg).resolve_right hnot).exists_scalar
      rw [Text.concat_cons, Text.glyphs_ofChars_append]
      exact endsWord_cons hc _

/-- **No cut runs through a character**: the glyphs of the text are those of the fragments, and they
are fragmented. -/
theorem glyphs {frags : List Text} (h : Cuts source frags) :
    source.glyphs = (frags.map Text.glyphs).flatten ∧ Fragmented (frags.map Text.glyphs) := by
  induction frags generalizing source with
  | nil =>
      rw [← h.concat]
      exact ⟨rfl, .nil⟩
  | cons f rest ih =>
      obtain ⟨hrest, hfragmented⟩ := ih h.tail
      rw [← h.concat, Text.concat_cons, List.map_cons, List.flatten_cons, ← hrest]
      rcases h.kind f List.mem_cons_self with hf | hf
      · obtain ⟨c, hc, rfl⟩ := hf.exists_scalar
        rw [Text.glyphs_ofChars_append, Text.glyphs_ofChars]
        exact ⟨rfl, .separator hc hfragmented⟩
      · have hend := h.endsWord hf
        refine ⟨Text.glyphs_append f hend.beginsClean, ?_⟩
        rw [hrest] at hend
        exact .word (hf.isWord (h.ne_empty f List.mem_cons_self)) hend hfragmented

/-- A cutting is that of the glyphs. -/
theorem eq_fragments {frags : List Text} (h : Cuts source frags) : frags = fragments source := by
  obtain ⟨hglyphs, hfragmented⟩ := h.glyphs
  rw [fragments, hglyphs, cut_flatten hfragmented, List.map_map]
  exact (List.map_id frags).symm.trans (List.map_congr_left fun f _ => (f.ofGlyphs_glyphs).symm)

end Cuts

/-- A fragment in front of a cutting, if no two without separators become neighbours. -/
theorem Cuts.cons {source f : Text} {rest : List Text} (h : Cuts source rest) (hne : f ≠ "")
    (hkind : f.StandsAlone ∨ f.Unbroken)
    (hapart : f.Unbroken → ∀ g ∈ rest.head?, ¬g.Unbroken) : Cuts (f ++ source) (f :: rest) where
  concat := by rw [Text.concat_cons, h.concat]
  ne_empty := List.forall_mem_cons.2 ⟨hne, h.ne_empty⟩
  kind := List.forall_mem_cons.2 ⟨hkind, h.kind⟩
  apart := List.isChain_cons.2 ⟨fun g hg hboth => hapart hboth.1 g hg hboth.2, h.apart⟩

/-- Glyphs that are fragmented are, as texts, a cutting. -/
theorem Fragmented.cuts {frags : List (List Glyph)} (h : Fragmented frags)
    (hl : Legible frags.flatten) : Cuts (.ofGlyphs frags.flatten) (frags.map .ofGlyphs) := by
  induction h with
  | nil => exact ⟨rfl, List.forall_mem_nil _, List.forall_mem_nil _, .nil⟩
  | @separator g rest hg _ ih =>
      have halone := Text.standsAlone_of_isSeparator hg
      rw [List.flatten_cons, Text.ofGlyphs_append, List.map_cons]
      exact (ih hl.right).cons halone.ne_empty (.inl halone) fun hf => absurd hf halone.not_unbroken
  | @word w rest hw hend hrest ih =>
      have hunbroken : (Text.ofGlyphs w).Unbroken := by
        rw [Text.unbroken_iff, hl.left]
        exact hw.noSeparator
      rw [List.flatten_cons, Text.ofGlyphs_append, List.map_cons]
      refine (ih hl.right).cons (fun hempty => hw.ne_nil ?_) (.inr hunbroken) fun _ => ?_
      · rw [← hl.left, hempty]
        rfl
      · -- Something ends the word, so that another word cannot come next.
        cases hrest with
        | nil => exact fun f hf => absurd hf (Option.not_mem_none f)
        | separator hg _ =>
            rintro f ⟨⟩
            exact (Text.standsAlone_of_isSeparator hg).not_unbroken
        | word hw' _ _ => exact absurd hend (hw'.not_endsWord _)

/-- **There is one cutting of a text.** -/
theorem cuts_iff {source : Text} {frags : List Text} :
    Cuts source frags ↔ frags = fragments source := by
  refine ⟨Cuts.eq_fragments, ?_⟩
  rintro rfl
  have h := (fragmented_cut source.glyphs).cuts (by rw [flatten_cut]; exact Legible.glyphs source)
  rwa [flatten_cut, Text.ofGlyphs_glyphs] at h

/-! ### Fragments by their offsets -/

/-- A part of a text, by the offsets of its bytes. -/
structure Slice where
  /-- The offset of the first byte. -/
  start : Nat
  /-- The offset behind the last byte. -/
  stop : Nat

/-- The part of a text in a slice, if the slice lies within the text. -/
def Text.slice? (t : Text) (s : Slice) : Option Text :=
  if s.start ≤ s.stop ∧ s.stop ≤ t.size then some ⟨(t.bytes.take s.stop).drop s.start⟩ else none

/-- The slice from one offset to another, unless there is nothing between them. -/
def Slice.between (start stop : Nat) : List Slice := if start < stop then [⟨start, stop⟩] else []

/-- The slices of glyphs that stand at the offset `i` of a text with `size` bytes, if the fragment
that `i` is in begins at the offset `start`. -/
def slicesFrom (size : Nat) : Nat → Nat → List Glyph → List Slice
  | start, _, [] => Slice.between start size
  | start, i, g :: gs =>
    if g.isSeparator then
      let stop := i + (Text.encodeChar g.char).length
      Slice.between start i ++ ⟨i, stop⟩ :: slicesFrom size stop (i + g.bytes.length) gs
    else slicesFrom size start (i + g.bytes.length) gs

/-- Where the fragments of a text begin and end. -/
def slices (source : Text) : List Slice := slicesFrom source.size 0 0 source.glyphs

namespace Text

theorem size_append (s t : Text) : (s ++ t).size = s.size + t.size := List.length_append

theorem slice?_eq_some_iff {t u : Text} {s : Slice} :
    t.slice? s = some u ↔
      s.start ≤ s.stop ∧ s.stop ≤ t.size ∧ u = ⟨(t.bytes.take s.stop).drop s.start⟩ := by
  rw [slice?, Option.ite_none_right_eq_some, Option.some.injEq, and_assoc, eq_comm (a := u)]

/-- A text that stands behind another is found at the offset where that ends. -/
theorem slice?_of_append {s t u v : Text} (h : s ++ t ++ u = v) {i : Nat} (hi : s.size = i) :
    v.slice? ⟨i, i + t.size⟩ = some t := by
  subst h hi
  refine slice?_eq_some_iff.2 ⟨Nat.le_add_right _ _, ?_, Text.ext ?_⟩
  · rw [size_append, size_append]
    exact Nat.le_add_right _ _
  · show t.bytes = ((s.bytes ++ t.bytes ++ u.bytes).take (s.bytes.length + t.bytes.length)).drop
      s.bytes.length
    rw [← List.length_append, List.take_left, List.drop_left]

end Text

/-- A word that has been gone over is the slice from where it begins to where it ends; if there is
none, there is no slice. -/
theorem map_slice?_between {s u v : Text} {w : List Glyph} (hw : ∀ g ∈ w, g.isSeparator = false)
    (h : s ++ .ofGlyphs w ++ u = v) {i : Nat} (hi : s.size = i) :
    (Slice.between i (i + (Text.ofGlyphs w).size)).map v.slice?
      = (cut w).map fun f => some (.ofGlyphs f) := by
  cases w with
  | nil =>
      have hempty : (Text.ofGlyphs []).size = 0 := rfl
      rw [Slice.between, hempty, Nat.add_zero, if_neg (Nat.lt_irrefl i)]
      rfl
  | cons g w =>
      have hcut : cut (g :: w) = [g :: w] := by
        have hword : IsWord (g :: w) := ⟨List.cons_ne_nil g w, hw⟩
        rw [← List.append_nil (g :: w), cut_word_append hword endsWord_nil, List.append_nil, cut]
      have hsize : 0 < (Text.ofGlyphs (g :: w)).size := by
        have := Utf8.length_bytes_pos g
        show 0 < (g.bytes ++ w.flatMap Glyph.bytes).length
        rw [List.length_append]
        omega
      rw [Slice.between, if_pos (Nat.lt_add_of_pos_right hsize), hcut, List.map_singleton,
        Text.slice?_of_append h hi, List.map_singleton]

/-- A separator has as many bytes as its character. -/
theorem length_encodeChar_of_isSeparator {g : Glyph} (h : g.isSeparator = true) :
    (Text.encodeChar g.char).length = g.bytes.length := by
  obtain ⟨c, rfl⟩ := exists_scalar_of_isSeparator h
  rfl

/-- **Going over a text, the slices that are noted are its fragments.** In front of the glyphs `gs`
stands what has been read of a word, `w`, which begins at the offset `start`. -/
theorem map_slice?_slicesFrom {s t : Text} {w gs : List Glyph}
    (hw : ∀ g ∈ w, g.isSeparator = false) (ht : s ++ .ofGlyphs w ++ .ofGlyphs gs = t)
    {start : Nat} (hstart : s.size = start) :
    (slicesFrom t.size start (start + (Text.ofGlyphs w).size) gs).map t.slice?
      = (cut (w ++ gs)).map fun f => some (.ofGlyphs f) := by
  induction gs generalizing s w start with
  | nil =>
      have hsize : t.size = start + (Text.ofGlyphs w).size := by
        rw [← ht, Text.size_append, Text.size_append, hstart]
        rfl
      rw [slicesFrom, hsize, List.append_nil, map_slice?_between hw ht hstart]
  | cons g gs ih =>
      have hsize : (Text.ofGlyphs [g]).size = g.bytes.length :=
        congrArg List.length (List.append_nil g.bytes)
      have ht' : s ++ .ofGlyphs w ++ .ofGlyphs [g] ++ .ofGlyphs gs = t := by
        rw [← ht, Text.append_assoc _ (.ofGlyphs [g]), ← Text.ofGlyphs_append]
        rfl
      rw [slicesFrom]
      split
      · next hg =>
        have hi : (s ++ .ofGlyphs w).size = start + (Text.ofGlyphs w).size := by
          rw [Text.size_append, hstart]
        have hlone := Text.slice?_of_append ht' hi
        have hrest := ih (w := []) (List.forall_mem_nil _)
          (by rwa [← Text.append_empty (s ++ .ofGlyphs w ++ .ofGlyphs [g])] at ht')
          (Text.size_append _ _)
        rw [hi] at hrest
        rw [cut_append_cons w hg, List.map_append, List.map_append, List.map_cons, List.map_cons,
          map_slice?_between hw ht hstart, length_encodeChar_of_isSeparator hg, ← hsize, hlone]
        exact congrArg (_ ++ _ :: ·) hrest
      · next hg =>
        have hw' : ∀ h ∈ w ++ [g], h.isSeparator = false := by
          simpa using fun h hh => hh.elim (hw h) fun hhg => hhg ▸ Bool.eq_false_iff.2 hg
        have hrest := ih hw' (by rwa [Text.ofGlyphs_append, ← Text.append_assoc]) hstart
        rwa [Text.ofGlyphs_append, Text.size_append, hsize, ← Nat.add_assoc, List.append_assoc,
          List.singleton_append] at hrest

/-- **The slices of a text lie within it, and they are its fragments.** -/
theorem map_slice?_slices (source : Text) :
    (slices source).map source.slice? = (fragments source).map some := by
  have h := map_slice?_slicesFrom (s := .empty) (w := []) (List.forall_mem_nil _)
    (Text.ofGlyphs_glyphs source) rfl
  rw [fragments, List.map_map]
  exact h

/-- **The fragments are the one cutting of the text.** For every text, well-formed or not, the
fragments put together are the text, none is empty, each is a single separator or has no separator
in it, no two without separators are neighbours, and no other list is like that. They are taken out
of the text by slices, each of which lies within its bounds. -/
theorem fragments_unique (source : Text) :
    (∀ frags, Cuts source frags ↔ frags = fragments source) ∧
    (slices source).map source.slice? = (fragments source).map some ∧
    ∀ s ∈ slices source, s.start ≤ s.stop ∧ s.stop ≤ source.size := by
  refine ⟨fun frags => cuts_iff, map_slice?_slices source, fun s hs => ?_⟩
  have hmem : source.slice? s ∈ (fragments source).map some :=
    map_slice?_slices source ▸ List.mem_map_of_mem hs
  obtain ⟨f, -, hf⟩ := List.mem_map.1 hmem
  obtain ⟨hstart, hstop, -⟩ := Text.slice?_eq_some_iff.1 hf.symm
  exact ⟨hstart, hstop⟩

/-- A wide blank is cut out whole, also between a byte that begins and one that ends like it. -/
example : fragments ⟨[0xE3, 0xE3, 0x80, 0x80, 0x80, 0x3B]⟩
    = [⟨[0xE3]⟩, .ofChars ['\u3000'], ⟨[0x80]⟩, .ofChars [';']] := by
  decide

end IntLang
