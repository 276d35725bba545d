import IntLang.Proofs.Text.Seams
import IntLang.Text.Case
import Mathlib.Data.List.Chain

/-!
# Lower case and case folding

The rows of the two case maps are in order, so that at most one of them moves a character
(`CodeShift.IsTable.toNat_apply`). What a character folds to folds to itself
(`foldChar_foldChar`), and a character folds together with its lower case, with one exception, the
dotted capital I (`foldChar_lowerChar`).
-/

namespace IntLang

deriving instance DecidableEq for CodeShift

/-! ### Tables of shifts -/

namespace CodeShift

/-- Where the least code of a row is sent. -/
def low (s : CodeShift) : Nat := (s.first + s.offset).toNat

/-- Where the greatest code of a row is sent. -/
def high (s : CodeShift) : Nat := (s.last + s.offset).toNat

/-- A row sends its codes to characters, all of them behind the capital letters of ASCII. -/
structure IsSound (s : CodeShift) : Prop where
  behind : 0x61 ≤ s.first + s.offset
  valid : s.last + s.offset < 0xD800 ∨ 0xDFFF < s.first + s.offset ∧ s.last + s.offset < 0x110000

instance (s : CodeShift) : Decidable s.IsSound :=
  decidable_of_iff (_ ∧ _) ⟨fun h => ⟨h.1, h.2⟩, fun h => ⟨h.1, h.2⟩⟩

/-- A row ends before another begins. -/
def Before (s t : CodeShift) : Prop := s.first ≤ s.last ∧ s.last < t.first

instance (s t : CodeShift) : Decidable (s.Before t) := inferInstanceAs (Decidable (_ ∧ _))

instance : IsTrans CodeShift Before where
  trans _ _ _ h h' := ⟨h.1, h.2.trans_le h'.1 |>.trans h'.2⟩

/-- Rows that send codes to characters, in order. -/
structure IsTable (table : List CodeShift) : Prop where
  ordered : table.IsChain Before
  sound : ∀ s ∈ table, s.IsSound

theorem moves_iff {s : CodeShift} {n : Nat} :
    s.moves n = true ↔ s.first ≤ n ∧ n ≤ s.last ∧ (n - s.first) % s.step = 0 := by
  simp [moves, and_assoc]

/-- A row sends the characters that it moves to characters. -/
theorem IsSound.toNat_ofNat {s : CodeShift} (h : s.IsSound) {n : Nat} (hn : s.moves n = true) :
    ((Char.ofNat (n + s.offset).toNat).toNat : Int) = n + s.offset := by
  obtain ⟨hfirst, hlast, -⟩ := moves_iff.1 hn
  have hbehind := h.behind
  have hvalid : (n + s.offset).toNat.isValidChar := by
    rcases h.valid with hlow | hhigh
    · exact .inl (by omega)
    · exact .inr ⟨by omega, by omega⟩
  rw [Utf8.toNat_charOfNat hvalid]
  omega

/-- A character stays, or there is a row that moves it. -/
theorem apply_cases (table : List CodeShift) (c : Char) :
    apply table c = c ∧ (∀ s ∈ table, s.moves c.toNat = false) ∨
      ∃ s ∈ table, s.moves c.toNat = true := by
  cases hrow : table.find? (·.moves c.toNat) with
  | none =>
    have hstays : ∀ s ∈ table, s.moves c.toNat = false := by simpa using hrow
    exact .inl ⟨by rw [apply, hrow], hstays⟩
  | some s =>
    have hmoves := List.find?_some hrow
    exact .inr ⟨s, List.mem_of_find?_eq_some hrow, hmoves⟩

namespace IsTable

variable {table : List CodeShift} {s t : CodeShift}

/-- At most one row moves a code. -/
theorem eq_of_moves (h : IsTable table) (hs : s ∈ table) (ht : t ∈ table) {n : Nat}
    (hsn : s.moves n = true) (htn : t.moves n = true) : s = t := by
  have hpairs : table.Pairwise fun s t => ¬(s.moves n = true ∧ t.moves n = true) := by
    refine (List.isChain_iff_pairwise.1 h.ordered).imp fun {a b} hab hmoves => ?_
    have hlt := hab.2
    rw [moves_iff, moves_iff] at hmoves
    omega
  have hsymm : Std.Symm fun s t : CodeShift => ¬(s.moves n = true ∧ t.moves n = true) :=
    ⟨fun _ _ hab hba => hab hba.symm⟩
  by_contra hne
  exact hpairs.forall hs ht hne ⟨hsn, htn⟩

/-- The row that moves a character decides where it goes. -/
theorem toNat_apply (h : IsTable table) (hs : s ∈ table) {c : Char}
    (hc : s.moves c.toNat = true) : ((apply table c).toNat : Int) = c.toNat + s.offset := by
  have hfind : table.find? (·.moves c.toNat) = some s := by
    cases hrow : table.find? (·.moves c.toNat) with
    | none => exact absurd hc (List.find?_eq_none.1 hrow s hs)
    | some t =>
      have ht := List.find?_some hrow
      rw [h.eq_of_moves (List.mem_of_find?_eq_some hrow) hs ht hc]
  rw [apply, hfind]
  exact (h.sound s hs).toNat_ofNat hc

end IsTable

/-- Whether a row sends all its codes to the same side of every second one. -/
def isThin (s : CodeShift) : Bool := Nat.beq s.step 2 || Nat.beq s.first s.last

/-- Whether the codes that a row sends away arrive where no row of a table, which is in order,
moves them on: between two rows, or between the codes of a row that moves every second one. -/
def keepsOff (s : CodeShift) : List CodeShift → Bool
  | [] => true
  | t :: rest =>
    bif Nat.blt t.last s.low then s.keepsOff rest
    else Nat.blt s.high t.first ||
      (s.isThin && Nat.beq t.step 2 && Nat.beq ((s.low + t.first) % 2) 1 && s.keepsOff rest)

theorem moves_eq_false_of_keepsOff {s : CodeShift} (hs : s.IsSound) {n m : Nat}
    (hn : s.moves n = true) (hm : (m : Int) = n + s.offset) {table : List CodeShift}
    (hordered : table.Pairwise Before) (h : s.keepsOff table = true) :
    ∀ t ∈ table, t.moves m = false := by
  obtain ⟨hfirst, hlast, hstep⟩ := moves_iff.1 hn
  have hbehind := hs.behind
  have hlow : (s.low : Int) = s.first + s.offset := Int.toNat_of_nonneg (by omega)
  have hhigh : (s.high : Int) = s.last + s.offset := Int.toNat_of_nonneg (by omega)
  induction table with
  | nil => simp
  | cons t rest ih =>
    obtain ⟨hbefore, hrest⟩ := List.pairwise_cons.1 hordered
    rw [keepsOff, Bool.cond_eq_ite] at h
    split at h
    · next hbelow =>
      rw [Nat.blt_eq] at hbelow
      refine List.forall_mem_cons.2 ⟨?_, ih hrest h⟩
      rw [← Bool.not_eq_true, moves_iff]
      omega
    · rcases Bool.or_eq_true _ _ ▸ h with habove | hthin
      · rw [Nat.blt_eq] at habove
        intro u hu
        have hfrom : t.first ≤ u.first := by
          rcases List.mem_cons.1 hu with rfl | hu
          · exact le_rfl
          · exact (hbefore u hu).1.trans (hbefore u hu).2.le
        rw [← Bool.not_eq_true, moves_iff]
        omega
      · simp only [isThin, Bool.and_eq_true, Bool.or_eq_true, Nat.beq_eq] at hthin
        obtain ⟨⟨⟨hthin, htwo⟩, hodd⟩, hoff⟩ := hthin
        refine List.forall_mem_cons.2 ⟨?_, ih hrest hoff⟩
        rw [← Bool.not_eq_true, moves_iff, htwo]
        rintro ⟨hfirst', -, hstep'⟩
        rcases hthin with hsecond | hone
        · rw [hsecond] at hstep
          omega
        · omega

end CodeShift

open CodeShift

/-! ### The two maps of case -/

/-- The letters of Cherokee, which fold to capitals. -/
def foldedToCapitals : List CodeShift := [⟨0x13A0, 0x13EF, 1, 38864⟩, ⟨0x13F0, 0x13F5, 1, 8⟩]

/-- The rows of lower case that are none of case folding: the dotted capital I, and Cherokee. -/
def lowerOnly : List CodeShift := ⟨0x130, 0x130, 1, -199⟩ :: foldedToCapitals

/-- Whether a row sends nothing to a code. -/
def CodeShift.Misses (s : CodeShift) (n : Nat) : Prop := ¬(s.low ≤ n ∧ n ≤ s.high)

instance (s : CodeShift) (n : Nat) : Decidable (s.Misses n) := inferInstanceAs (Decidable (¬ _))

/-- What can be seen from the two tables. -/
structure CaseTables : Prop where
  fold : IsTable foldShifts
  lower : IsTable lowerShifts
  /-- What is sent away by folding is not moved on by it. -/
  settled : (foldShifts.all fun s => s.keepsOff foldShifts) = true
  /-- Other rows of lower case are rows of folding. -/
  shared : (lowerShifts.filter fun s => !lowerOnly.contains s).isSublist foldShifts = true
  /-- Cherokee is folded the other way round. -/
  turned : ∀ s ∈ foldedToCapitals, ⟨s.low, s.high, 1, -s.offset⟩ ∈ foldShifts ∧ s.IsSound ∧
    ∀ t ∈ foldShifts, t.last < s.first ∨ s.last < t.first
  /-- Nothing is folded before the capital letters. -/
  behind : ∀ s ∈ foldShifts, 0x41 ≤ s.first
  /-- Only ASCII is folded to the letters of `hpp`. -/
  narrow : ∀ s ∈ foldShifts, s.last < 0x80 ∨ s.Misses 'h'.toNat ∧ s.Misses 'p'.toNat

theorem caseTables : CaseTables where
  fold := ⟨by decide +kernel, by decide +kernel⟩
  lower := ⟨by decide +kernel, by decide +kernel⟩
  settled := by decide +kernel
  shared := by decide +kernel
  turned := by decide +kernel
  behind := by decide +kernel
  narrow := by decide +kernel

/-- What a character folds to folds to itself. -/
theorem foldChar_foldChar (c : Char) : foldChar (foldChar c) = foldChar c := by
  rcases apply_cases foldShifts c with ⟨hstays, -⟩ | ⟨s, hs, hc⟩
  · rw [show foldChar c = c from hstays]
    exact hstays
  · have hnone := moves_eq_false_of_keepsOff (caseTables.fold.sound s hs) hc
      (caseTables.fold.toNat_apply hs hc)
      (List.isChain_iff_pairwise.1 caseTables.fold.ordered)
      (List.all_eq_true.1 caseTables.settled s hs)
    rcases apply_cases foldShifts (foldChar c) with ⟨hstays, -⟩ | ⟨t, ht, hmoves⟩
    · exact hstays
    · exact absurd hmoves (Bool.not_eq_true _ ▸ hnone t ht)

/-- The dotted capital I. Its lower case is `i`, but it folds to itself. -/
def dottedCapitalI : Char := Char.ofNat 0x130

/-- What folds to capitals is turned back by folding. -/
theorem foldChar_eq_of_capital {s : CodeShift} (hs : s ∈ foldedToCapitals) {c d : Char}
    (hc : s.moves c.toNat = true) (hd : (d.toNat : Int) = c.toNat + s.offset) :
    foldChar d = foldChar c := by
  obtain ⟨hback, hsound, hapart⟩ := caseTables.turned s hs
  obtain ⟨hfirst, hlast, -⟩ := moves_iff.1 hc
  have hbehind := hsound.behind
  have hlow : (s.low : Int) = s.first + s.offset := Int.toNat_of_nonneg (by omega)
  have hhigh : (s.high : Int) = s.last + s.offset := Int.toNat_of_nonneg (by omega)
  have hmoves : CodeShift.moves ⟨s.low, s.high, 1, -s.offset⟩ d.toNat = true :=
    moves_iff.2 ⟨show s.low ≤ _ by omega, show _ ≤ s.high by omega, Nat.mod_one _⟩
  have hturned : ((foldChar d).toNat : Int) = d.toNat + -s.offset :=
    caseTables.fold.toNat_apply hback hmoves
  rcases apply_cases foldShifts c with ⟨hstays, -⟩ | ⟨t, ht, htc⟩
  · rw [show foldChar c = c from hstays]
    exact Char.toNat_inj.1 (by omega)
  · obtain ⟨hfirst', hlast', -⟩ := moves_iff.1 htc
    rcases hapart t ht with hbefore | hbehind <;> omega

/-- **A character folds together with its lower case**, unless it is the dotted capital I. -/
theorem foldChar_lowerChar {c : Char} (h : c ≠ dottedCapitalI) :
    foldChar (lowerChar c) = foldChar c := by
  rcases apply_cases lowerShifts c with ⟨hstays, -⟩ | ⟨s, hs, hc⟩
  · rw [show lowerChar c = c from hstays]
  have hlower : ((lowerChar c).toNat : Int) = c.toNat + s.offset :=
    caseTables.lower.toNat_apply hs hc
  by_cases honly : s ∈ lowerOnly
  · rcases List.mem_cons.1 honly with rfl | hcapital
    · obtain ⟨hfirst, hlast, -⟩ := moves_iff.1 hc
      have hcode : c.toNat = dottedCapitalI.toNat := Nat.le_antisymm hlast hfirst
      exact absurd (Char.toNat_inj.1 hcode) h
    · exact foldChar_eq_of_capital hcapital hc hlower
  · have hshared := (List.isSublist_iff_sublist.1 caseTables.shared).subset
    have hfold : s ∈ foldShifts := hshared (List.mem_filter.2 ⟨hs, by simpa using honly⟩)
    have heq : foldChar c = lowerChar c := by
      have hto : ((foldChar c).toNat : Int) = c.toNat + s.offset :=
        caseTables.fold.toNat_apply hfold hc
      exact Char.toNat_inj.1 (by omega)
    rw [← heq, foldChar_foldChar]

/-! ### Characters of ASCII -/

/-- Nothing but a character itself folds to it, if it stands before the small letters. -/
theorem eq_of_foldChar_eq {c d : Char} (hd : d.toNat < 0x61) (h : foldChar c = d) : c = d := by
  rcases apply_cases foldShifts c with ⟨hstays, -⟩ | ⟨s, hs, hc⟩
  · rw [← h]
    exact hstays.symm
  · have hto : ((foldChar c).toNat : Int) = c.toNat + s.offset :=
      caseTables.fold.toNat_apply hs hc
    have hbehind := (caseTables.fold.sound s hs).behind
    have hfirst := (moves_iff.1 hc).1
    rw [h] at hto
    omega

/-- Characters before the capital letters fold to themselves. -/
theorem foldChar_of_lt {c : Char} (hc : c.toNat < 0x41) : foldChar c = c := by
  rcases apply_cases foldShifts c with ⟨hstays, -⟩ | ⟨s, hs, hmoves⟩
  · exact hstays
  · have hfirst := (moves_iff.1 hmoves).1
    have hrow := caseTables.behind s hs
    omega

/-- Only ASCII characters fold to the letters of `hpp`. It is not so for every letter: the long s
folds to `s`, and the Kelvin sign to `k`. -/
theorem lt_of_foldChar_eq {c d : Char} (hd : d = 'h' ∨ d = 'p') (h : foldChar c = d) :
    c.toNat < 0x80 := by
  rcases apply_cases foldShifts c with ⟨hstays, -⟩ | ⟨s, hs, hc⟩
  · rw [show foldChar c = c from hstays] at h
    rcases hd with rfl | rfl <;> rw [h] <;> decide
  · have hto : ((foldChar c).toNat : Int) = c.toNat + s.offset :=
      caseTables.fold.toNat_apply hs hc
    have hbehind := (caseTables.fold.sound s hs).behind
    obtain ⟨hfirst, hlast, -⟩ := moves_iff.1 hc
    have hlow : (s.low : Int) = s.first + s.offset := Int.toNat_of_nonneg (by omega)
    have hhigh : (s.high : Int) = s.last + s.offset := Int.toNat_of_nonneg (by omega)
    rw [h] at hto
    rcases caseTables.narrow s hs with hlt | ⟨hh, hp⟩
    · omega
    · rw [Misses] at hh hp
      rcases hd with rfl | rfl <;> omega

/-! ### Texts up to case -/

namespace Text

theorem equalFold_iff {s t : Text} :
    s.equalFold t = true ↔ s.chars.map foldChar = t.chars.map foldChar := by
  rw [equalFold, beq_iff_eq]

theorem chars_append (s : Text) {t : Text} (h : BeginsClean t.glyphs) :
    (s ++ t).chars = s.chars ++ t.chars := by
  rw [chars, glyphs_append s h, List.map_append, chars, chars]

/-- A glyph that counts as an ASCII character is that character. -/
theorem eq_scalar_of_lt {g : Glyph} (h : g.char.toNat < 0x80) : g = .scalar g.char := by
  cases g with
  | scalar c => rfl
  | stray b => exact absurd (show Glyph.replacement.toNat < 0x80 from h) (by decide)

/-- The ASCII characters of a text are its ASCII bytes. -/
theorem mem_chars_iff {t : Text} {b : UInt8} (hb : b.toNat < 0x80) :
    Char.ofNat b.toNat ∈ t.chars ↔ b ∈ t.bytes := by
  have hcode : (Char.ofNat b.toNat).toNat = b.toNat := Utf8.toNat_charOfNat (.inl (by omega))
  constructor
  · intro h
    obtain ⟨g, hg, hchar⟩ := List.mem_map.1 h
    have hscalar := eq_scalar_of_lt (g := g) (by rw [hchar, hcode]; exact hb)
    rw [← ofGlyphs_glyphs t]
    refine List.mem_flatMap.2 ⟨g, hg, ?_⟩
    rw [hscalar, hchar, Glyph.bytes, encodeChar_of_lt (by rw [hcode]; exact hb), hcode,
      UInt8.ofNat_toNat]
    exact List.mem_singleton_self b
  · intro h
    rw [← ofGlyphs_glyphs t] at h
    exact List.mem_map.2 ⟨_, mem_of_mem_bytes (Legible.glyphs t) hb h, rfl⟩

/-- A text of ASCII characters is well-formed and has a byte for each of them. -/
theorem isValidUtf8_of_lt {t : Text} (h : ∀ c ∈ t.chars, c.toNat < 0x80) :
    t.isValidUtf8 = true ∧ t.bytes.length = t.chars.length := by
  have hscalar : ∀ g ∈ t.glyphs, g = .scalar g.char := fun g hg =>
    eq_scalar_of_lt (h g.char (List.mem_map_of_mem hg))
  constructor
  · rw [isValidUtf8, List.all_eq_true]
    intro g hg
    rw [hscalar g hg]
    rfl
  · have hone : ∀ g ∈ t.glyphs, g.bytes.length = 1 := by
      intro g hg
      rw [hscalar g hg, Glyph.bytes, encodeChar_of_lt (h g.char (List.mem_map_of_mem hg))]
      rfl
    calc t.bytes.length
        = (ofGlyphs t.glyphs).bytes.length := by rw [ofGlyphs_glyphs]
      _ = (t.glyphs.map fun g => g.bytes.length).sum := List.length_flatMap
      _ = (t.glyphs.map fun _ => 1).sum := by rw [List.map_congr_left hone]
      _ = t.chars.length := by simp [chars]

/-- Texts that agree up to case have the same bytes from before the capital letters. -/
theorem mem_bytes_of_equalFold {s t : Text} (h : s.equalFold t = true) {b : UInt8}
    (hb : b.toNat < 0x41) (hs : b ∈ s.bytes) : b ∈ t.bytes := by
  have hcode : (Char.ofNat b.toNat).toNat = b.toNat := Utf8.toNat_charOfNat (.inl (by omega))
  have hmem : Char.ofNat b.toNat ∈ s.chars := (mem_chars_iff (by omega)).2 hs
  have hfold : Char.ofNat b.toNat ∈ t.chars.map foldChar := by
    rw [← equalFold_iff.1 h]
    exact List.mem_map.2 ⟨_, hmem, foldChar_of_lt (by omega)⟩
  obtain ⟨c, hc, hcb⟩ := List.mem_map.1 hfold
  rw [eq_of_foldChar_eq (by omega) hcb] at hc
  exact (mem_chars_iff (by omega)).1 hc

/-- A text of characters from before the capital letters agrees up to case with itself only. -/
theorem eq_of_equalFold {s t : Text} (h : s.equalFold t = true)
    (hs : ∀ c ∈ s.chars, c.toNat < 0x41) : t = s := by
  have hsfold : s.chars.map foldChar = s.chars :=
    (List.map_congr_left fun c hc => foldChar_of_lt (hs c hc)).trans (List.map_id _)
  have htfold : t.chars.map foldChar = s.chars := by rw [← equalFold_iff.1 h, hsfold]
  have hchars : t.chars = s.chars := by
    have hstays : ∀ c ∈ t.chars, foldChar c = c := by
      intro c hc
      have hlt : (foldChar c).toNat < 0x41 := hs _ (htfold ▸ List.mem_map_of_mem hc)
      exact (eq_of_foldChar_eq (by omega) rfl).symm
    rw [← htfold, (List.map_congr_left hstays).trans (List.map_id _)]
  have hvalid {u : Text} (hu : u.chars = s.chars) : ofChars u.chars = u :=
    ofChars_chars (isValidUtf8_of_lt fun c hc => (hs c (hu ▸ hc)).trans (by decide)).1
  rw [← hvalid hchars, hchars, hvalid rfl]

end Text

end IntLang
