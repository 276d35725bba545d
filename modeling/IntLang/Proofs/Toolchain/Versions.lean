import IntLang.Proofs.Answers
import IntLang.Proofs.Text.Decimal
import IntLang.Toolchain.Version
import Mathlib.Algebra.Order.Ring.Int
import Mathlib.Data.Prod.Lex

/-!
# The grammar of versions

A version is written as up to three runs of digits with dots between them. A letter `v` may stand in
front, and labels may follow (`Version.Spells`). Just these texts are read as versions
(`Version.parse_eq_ok_iff`), so that a text spells one version at most.

Versions are compared by their numbers, as triples of which the first difference decides
(`Version.atLeast_iff`). So `10` is newer than `9.4`, and `11` is the same as `11.0.0`.
-/

namespace IntLang.Version

/-! ### The grammar -/

/-- The numbers of a version: runs of digits with dots between them. A number that is not written is
zero. -/
inductive Numbers : List Char → Nat → Nat → Nat → Prop
  | one {a : List Char} (ha : IsDigits a) : Numbers a (Nat.ofDigitChars 10 a 0) 0 0
  | two {a b : List Char} (ha : IsDigits a) (hb : IsDigits b) :
      Numbers (a ++ '.' :: b) (Nat.ofDigitChars 10 a 0) (Nat.ofDigitChars 10 b 0) 0
  | three {a b c : List Char} (ha : IsDigits a) (hb : IsDigits b) (hc : IsDigits c) :
      Numbers (a ++ '.' :: (b ++ '.' :: c)) (Nat.ofDigitChars 10 a 0) (Nat.ofDigitChars 10 b 0)
        (Nat.ofDigitChars 10 c 0)

/-- The labels behind the numbers: a pre-release behind a dash, then metadata behind a plus sign. -/
inductive Labels : Text → Text → Text → Prop
  | nothing : Labels "" "" ""
  | preRelease {pre : Text} (hpre : isLabel pre = true) : Labels ("-" ++ pre) pre ""
  | metadata {data : Text} (hdata : isLabel data = true) : Labels ("+" ++ data) "" data
  | both {pre data : Text} (hpre : isLabel pre = true) (hdata : isLabel data = true) :
      Labels ("-" ++ pre ++ ("+" ++ data)) pre data

/-- A text spells a version. Its numbers fit in 64 bits, and no number of the pre-release begins
with a zero. -/
inductive Spells : Text → Version → Prop
  | intro {mark labels : Text} {numbers : List Char} {v : Version} (hmark : mark = "" ∨ mark = "v")
      (hnumbers : Numbers numbers v.major v.minor v.patch)
      (hlabels : Labels labels v.preRelease v.metadata)
      (hmajor : v.major < 2 ^ 64) (hminor : v.minor < 2 ^ 64) (hpatch : v.patch < 2 ^ 64)
      (hzero : ∀ part ∈ v.preRelease.splitOn 0x2E, startsWithZero part = false) :
      Spells (mark ++ (.ofChars numbers ++ labels)) v

/-! ### Reading runs -/

/-- A run of digit bytes, at least one. -/
structure IsRun (ds : List UInt8) : Prop where
  ne_nil : ds ≠ []
  isDigitByte : ∀ d ∈ ds, isDigitByte d = true

/-- Bytes that do not go on with a digit. -/
def EndsRun (bytes : List UInt8) : Prop := ∀ b ∈ bytes.head?, isDigitByte b = false

theorem IsRun.exists_isDigits {ds : List UInt8} (h : IsRun ds) :
    ∃ cs, IsDigits cs ∧ ds = (Text.ofChars cs).bytes ∧
      digitsValue ds = Nat.ofDigitChars 10 cs 0 := by
  obtain ⟨cs, hcs, rfl⟩ := IntLang.exists_isDigits h.ne_nil (List.all_eq_true.2 h.isDigitByte)
  exact ⟨cs, hcs, rfl, digitsValue_ofChars hcs.isDigit⟩

theorem isRun_ofChars {cs : List Char} (h : IsDigits cs) : IsRun (Text.ofChars cs).bytes :=
  ⟨h.bytes_ne_nil, List.all_eq_true.1 h.all_isDigitByte⟩

theorem digits?_append {ds rest : List UInt8} (hds : IsRun ds) (hrest : EndsRun rest) :
    digits? (ds ++ rest) = some (ds, rest) := by
  rw [digits?, Text.span_append hds.isDigitByte hrest]
  obtain ⟨d, ds, rfl⟩ := List.exists_cons_of_ne_nil hds.ne_nil
  rfl

theorem eq_append_of_digits? {bytes ds rest : List UInt8} (h : digits? bytes = some (ds, rest)) :
    bytes = ds ++ rest ∧ IsRun ds ∧ EndsRun rest := by
  rw [digits?] at h
  generalize hspan : bytes.span isDigitByte = found at h
  obtain ⟨ds', rest'⟩ := found
  obtain ⟨hbytes, hds, hrest⟩ := Text.eq_append_of_span hspan
  cases ds' with
  | nil => cases h
  | cons d ds' =>
      obtain ⟨⟩ := h
      exact ⟨hbytes, ⟨List.cons_ne_nil _ _, hds⟩, hrest⟩

/-- Digits behind a dot are read, -/
theorem dotted_cons {ds rest : List UInt8} (hds : IsRun ds) (hrest : EndsRun rest) :
    dotted (0x2E :: (ds ++ rest)) = (ds, rest) := by
  rw [dotted, digits?_append hds hrest]
  rfl

/-- and nothing is without a dot. -/
theorem dotted_of_head? {bytes : List UInt8} (h : bytes.head? ≠ some 0x2E) :
    dotted bytes = ([], bytes) := by
  rw [dotted]
  rintro rest rfl
  exact h rfl

theorem dotted_cases (bytes : List UInt8) :
    dotted bytes = ([], bytes) ∨
      ∃ ds rest, dotted bytes = (ds, rest) ∧ bytes = 0x2E :: (ds ++ rest) ∧ IsRun ds := by
  unfold dotted
  split
  · next rest =>
      cases hds : digits? rest with
      | none => exact .inl rfl
      | some found =>
          obtain ⟨rfl, hrun, -⟩ := eq_append_of_digits? hds
          exact .inr ⟨found.1, found.2, rfl, rfl, hrun⟩
  · exact .inl rfl

/-- The bytes of runs of digits with a dot between them. -/
theorem bytes_ofChars_dot (a b : List Char) :
    (Text.ofChars (a ++ '.' :: b)).bytes
      = (Text.ofChars a).bytes ++ 0x2E :: (Text.ofChars b).bytes := by
  rw [Text.ofChars_append]
  rfl

/-- What is read of a run of digits and the bytes behind it are the numbers of a version. -/
theorem exists_numbers {ds : List UInt8} (hds : IsRun ds) (rest : List UInt8) :
    ∃ cs, Numbers cs (digitsValue ds) (digitsValue (dotted rest).1)
        (digitsValue (dotted (dotted rest).2).1) ∧
      ds ++ rest = (Text.ofChars cs).bytes ++ (dotted (dotted rest).2).2 := by
  obtain ⟨a, ha, rfl, hvalue⟩ := hds.exists_isDigits
  rw [hvalue]
  rcases dotted_cases rest with hrest | ⟨es, rest', hrest, rfl, hes⟩
  · rw [hrest, hrest]
    exact ⟨a, .one ha, rfl⟩
  rw [hrest]
  obtain ⟨b, hb, rfl, hvalue'⟩ := hes.exists_isDigits
  rcases dotted_cases rest' with hrest' | ⟨fs, rest'', hrest', rfl, hfs⟩
  · rw [hrest', hvalue']
    refine ⟨a ++ '.' :: b, .two ha hb, ?_⟩
    rw [bytes_ofChars_dot, List.append_assoc, List.cons_append]
  · obtain ⟨c, hc, rfl, hvalue''⟩ := hfs.exists_isDigits
    rw [hrest', hvalue', hvalue'']
    refine ⟨a ++ '.' :: (b ++ '.' :: c), .three ha hb hc, ?_⟩
    simp only [bytes_ofChars_dot, List.append_assoc, List.cons_append]

/-- The numbers of a version are read, if neither a digit nor a dot follows. -/
theorem Numbers.read {cs : List Char} {major minor patch : Nat}
    (h : Numbers cs major minor patch) {rest : List UInt8} (hrun : EndsRun rest)
    (hdot : rest.head? ≠ some 0x2E) :
    ∃ ds behind, digits? ((Text.ofChars cs).bytes ++ rest) = some (ds, behind) ∧
      digitsValue ds = major ∧ digitsValue (dotted behind).1 = minor ∧
      digitsValue (dotted (dotted behind).2).1 = patch ∧
      (dotted (dotted behind).2).2 = rest := by
  have hend (bytes : List UInt8) : EndsRun (0x2E :: bytes) := by
    rintro b ⟨⟩
    rfl
  have hrest := dotted_of_head? hdot
  cases h with
  | @one a ha =>
      refine ⟨_, _, digits?_append (isRun_ofChars ha) hrun, digitsValue_ofChars ha.isDigit, ?_⟩
      rw [hrest, hrest]
      exact ⟨rfl, rfl, rfl⟩
  | @two a b ha hb =>
      rw [bytes_ofChars_dot, List.append_assoc, List.cons_append]
      refine ⟨_, _, digits?_append (isRun_ofChars ha) (hend _), digitsValue_ofChars ha.isDigit, ?_⟩
      rw [dotted_cons (isRun_ofChars hb) hrun, hrest]
      exact ⟨digitsValue_ofChars hb.isDigit, rfl, rfl⟩
  | @three a b c ha hb hc =>
      simp only [bytes_ofChars_dot, List.append_assoc, List.cons_append]
      refine ⟨_, _, digits?_append (isRun_ofChars ha) (hend _), digitsValue_ofChars ha.isDigit, ?_⟩
      rw [dotted_cons (isRun_ofChars hb) (hend _), dotted_cons (isRun_ofChars hc) hrun]
      exact ⟨digitsValue_ofChars hb.isDigit, digitsValue_ofChars hc.isDigit, rfl⟩

theorem number_eq_ok_iff {ds : List UInt8} {n : Nat} :
    number ds = .ok n ↔ digitsValue ds = n ∧ n < 2 ^ 64 := by
  have hpow : (0x10000000000000000 : Nat) = 2 ^ 64 := rfl
  rw [number, hpow]
  split
  · next hlt =>
      rw [Except.ok.injEq]
      exact ⟨fun h => ⟨h, h ▸ hlt⟩, And.left⟩
  · next hlt =>
      refine iff_of_false (by rintro ⟨⟩) ?_
      rintro ⟨rfl, h⟩
      exact hlt h

/-! ### Reading labels -/

/-- A label has a byte, and no plus sign. -/
theorem plus_notMem_of_isLabel {t : Text} (h : isLabel t = true) : 0x2B ∉ t.bytes := by
  rw [isLabel, List.all_eq_true] at h
  intro hmem
  obtain ⟨piece, hpiece, hmem⟩ := Text.exists_mem_splitOn hmem (by decide : (0x2B : UInt8) ≠ 0x2E)
  have hbytes := (Bool.and_eq_true_iff.1 (h piece hpiece)).2
  exact absurd (List.all_eq_true.1 hbytes _ hmem) (by decide)

/-- A pre-release goes on up to the first plus sign. -/
theorem span_label {pre : Text} (h : isLabel pre = true) (behind : List UInt8)
    (hbehind : ∀ b ∈ behind.head?, b = 0x2B) :
    (pre.bytes ++ behind).span (· != 0x2B) = (pre.bytes, behind) := by
  refine Text.span_append (fun b hb => ?_) fun b hb => ?_
  · rw [bne_iff_ne]
    rintro rfl
    exact plus_notMem_of_isLabel h hb
  · rw [hbehind b hb]
    rfl

theorem labels?_eq_some_iff {t pre data : Text} :
    labels? t.bytes = some (pre, data) ↔ Labels t pre data := by
  constructor
  · intro h
    obtain ⟨bytes⟩ := t
    unfold labels? at h
    dsimp only at h
    split at h
    · next rest =>
        generalize hspan : rest.span (· != 0x2B) = found at h
        obtain ⟨before, behind⟩ := found
        obtain ⟨rfl, -, hbehind⟩ := Text.eq_append_of_span hspan
        dsimp only at h
        split at h
        · next hlabel =>
            rcases behind with - | ⟨b, rest⟩
            · obtain ⟨⟩ := h
              rw [List.append_nil]
              exact .preRelease hlabel
            · obtain rfl : b = 0x2B := by simpa using hbehind b rfl
              obtain ⟨data', hdata, ⟨⟩⟩ := Option.map_eq_some_iff.1 h
              split at hdata
              · next heq => cases heq
              · next rest' heq =>
                  obtain rfl : rest = rest' := (List.cons.inj heq).2
                  split at hdata
                  · next hdata' =>
                      obtain ⟨⟩ := hdata
                      exact .both hlabel hdata'
                  · cases hdata
              · cases hdata
        · cases h
    · obtain ⟨data', hdata, ⟨⟩⟩ := Option.map_eq_some_iff.1 h
      split at hdata
      · obtain ⟨⟩ := hdata
        exact .nothing
      · split at hdata
        · next hlabel =>
            obtain ⟨⟩ := hdata
            exact .metadata hlabel
        · cases hdata
      · cases hdata
  · intro h
    cases h with
    | nothing => rfl
    | preRelease hpre =>
        have hspan := span_label hpre [] (by rintro b ⟨⟩)
        rw [List.append_nil] at hspan
        show labels? (0x2D :: pre.bytes) = _
        simp only [labels?, hspan, if_pos hpre]
        rfl
    | metadata hdata =>
        show labels? (0x2B :: data.bytes) = _
        rw [labels?]
        · simp only [if_pos hdata]
          rfl
        · intro rest heq
          exact absurd (List.cons.inj heq).1 (by decide)
    | both hpre hdata =>
        have hspan := span_label hpre (0x2B :: data.bytes) (by simp)
        show labels? (0x2D :: (pre.bytes ++ 0x2B :: data.bytes)) = _
        simp only [labels?, hspan, if_pos hpre, if_pos hdata]
        rfl

/-- Neither a digit nor a dot begins the labels. -/
theorem Labels.head? {t pre data : Text} (h : Labels t pre data) :
    EndsRun t.bytes ∧ t.bytes.head? ≠ some 0x2E := by
  cases h with
  | nothing => exact ⟨by rintro b ⟨⟩, by rintro ⟨⟩⟩
  | preRelease | metadata | both =>
      refine ⟨?_, ?_⟩
      · rintro b ⟨⟩
        rfl
      · intro h
        exact absurd (Option.some.inj h) (by decide)

/-- No number begins with a zero where there is no pre-release. -/
theorem startsWithZero_iff (pre : Text) :
    ¬(!pre.isEmpty && (pre.splitOn 0x2E).any startsWithZero) = true ↔
      ∀ part ∈ pre.splitOn 0x2E, startsWithZero part = false := by
  obtain ⟨- | ⟨b, bytes⟩⟩ := pre
  · refine iff_of_true (by rintro ⟨⟩) fun part hpart => ?_
    rw [List.mem_singleton.1 hpart]
    rfl
  · simp [Text.isEmpty]

/-! ### Reading versions -/

theorem spells_of_parse {t : Text} {v : Version} (h : parse t = .ok v) : Spells t v := by
  rw [parse] at h
  dsimp only at h
  split at h
  · cases h
  next ds rest hdigits =>
  obtain ⟨hbytes, hds, -⟩ := eq_append_of_digits? hdigits
  obtain ⟨mark, hmark, ht⟩ : ∃ mark : Text, (mark = "" ∨ mark = "v") ∧
      t.bytes = mark.bytes ++ (ds ++ rest) := by
    split at hbytes
    · next rest' hrest' => exact ⟨"v", .inr rfl, by rw [hrest', hbytes]; rfl⟩
    · exact ⟨"", .inl rfl, hbytes⟩
  split at h
  · cases h
  next pre data hlabels =>
  obtain ⟨major, hmajor, h⟩ := bind_eq_ok_iff.1 h
  obtain ⟨minor, hminor, h⟩ := bind_eq_ok_iff.1 h
  obtain ⟨patch, hpatch, h⟩ := bind_eq_ok_iff.1 h
  split at h
  · cases h
  next hzero =>
  obtain rfl := Except.ok.inj h
  rw [number_eq_ok_iff] at hmajor hminor hpatch
  obtain ⟨rfl, hmajor⟩ := hmajor
  obtain ⟨rfl, hminor⟩ := hminor
  obtain ⟨rfl, hpatch⟩ := hpatch
  obtain ⟨cs, hcs, hbytes'⟩ := exists_numbers hds rest
  obtain rfl : t = mark ++ (.ofChars cs ++ ⟨(dotted (dotted rest).2).2⟩) :=
    Text.ext (by rw [ht, hbytes']; rfl)
  exact .intro hmark hcs (labels?_eq_some_iff.1 hlabels) hmajor hminor hpatch
    ((startsWithZero_iff _).1 hzero)

/-- The text of a version is read as that version. -/
theorem Spells.parse_eq {t : Text} {v : Version} (h : Spells t v) : parse t = .ok v := by
  obtain @⟨mark, labels, cs, v, hmark, hnumbers, hlabels, hmajor, hminor, hpatch, hzero⟩ := h
  obtain ⟨hrun, hdot⟩ := hlabels.head?
  obtain ⟨ds, behind, hdigits, hmajor', hminor', hpatch', hbehind⟩ := hnumbers.read hrun hdot
  rw [← Text.bytes_append] at hdigits
  have hzero' := (startsWithZero_iff v.preRelease).2 hzero
  rw [parse]
  dsimp only
  rw [(?unmarked : digits? _ = some (ds, behind))]
  case unmarked =>
    rcases hmark with rfl | rfl
    · -- Without a mark, the first byte is a digit and not that of the mark.
      split
      · next rest hrest =>
          obtain ⟨hbytes, hds, -⟩ := eq_append_of_digits? hdigits
          obtain ⟨d, ds', rfl⟩ := List.exists_cons_of_ne_nil hds.ne_nil
          obtain ⟨rfl, -⟩ := List.cons.inj (hbytes.symm.trans hrest)
          exact absurd (hds.isDigitByte _ List.mem_cons_self) (by decide)
      · exact hdigits
    · exact hdigits
  dsimp only
  rw [hbehind, labels?_eq_some_iff.2 hlabels, number_eq_ok_iff.2 ⟨hmajor', hmajor⟩,
    number_eq_ok_iff.2 ⟨hminor', hminor⟩, number_eq_ok_iff.2 ⟨hpatch', hpatch⟩]
  exact if_neg hzero'

/-- **Just the texts of versions are read**, as the versions that they spell. -/
theorem parse_eq_ok_iff {t : Text} {v : Version} : parse t = .ok v ↔ Spells t v :=
  ⟨spells_of_parse, Spells.parse_eq⟩

theorem Spells.unique {t : Text} {v w : Version} (h : Spells t v) (h' : Spells t w) : v = w :=
  Except.ok.inj (h.parse_eq.symm.trans h'.parse_eq)

/-! ### Comparing versions -/

/-- The numbers of a version. They are ordered by the first one, then by the second, then by the
third. -/
def numbers (v : Version) : ℕ ×ₗ ℕ ×ₗ ℕ := toLex (v.major, toLex (v.minor, v.patch))

theorem atLeast_iff {v w : Version} : v.atLeast w = true ↔ w.numbers ≤ v.numbers := by
  simp only [numbers, Prod.Lex.toLex_le_toLex, atLeast, Bool.or_eq_true, Bool.and_eq_true,
    decide_eq_true_eq, beq_iff_eq]

end IntLang.Version
