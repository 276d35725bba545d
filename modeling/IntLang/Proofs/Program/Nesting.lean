import IntLang.Proofs.Program.Segmentation

/-!
# Regions are nested

A function begins wherever its signature stands, be it in the body of another one or in the global
region, and every region is found by a walk of its own. Still no two of them overlap in part. What a
region begins with, up to its opening brace, is so simple that no other region begins there and
no scope ends there (`IsRegion.opening_lt_start`, `IsRegion.head_ne_closeBrace`). From the opening
brace on, scopes are nested (`Matches.finish_lt`).

## Main results

* `Matches.finish_lt`: a scope that begins inside another one ends inside it;
* `IsRegion.apart_or_inside`: of two regions, the later one begins behind the other or lies inside
  its braces;
* `segment_nested`: all regions of an accepted stream are apart or nested.
-/

namespace IntLang

/-! ### Nested scopes -/

/-- A place between two others divides what is between them. -/
theorem between_eq_append {ts : List Token} {i k j : Nat} {t : Token} (hk : ts[k]? = some t)
    (hik : i < k) (hkj : k < j) :
    between ts i j = between ts i k ++ t :: between ts k j := by
  obtain ⟨m, rfl⟩ := Nat.exists_eq_add_of_le (Nat.succ_le_of_lt hik)
  obtain ⟨n, rfl⟩ := Nat.exists_eq_add_of_le (Nat.succ_le_of_lt hkj)
  have hdrop : (ts.drop (i + 1)).drop m = t :: ts.drop (i + 1 + m + 1) := by
    rw [List.drop_drop]
    exact drop_eq_of_getElem? hk
  have hplace : i + 1 + m + 1 + n = i + 1 + (m + (n + 1)) := by omega
  rw [hplace, between_add, between_add, ← hplace, between_add, List.take_add, hdrop,
    List.take_succ_cons]

/-- What is between two places is what the tokens up to a later place begin with. -/
theorem isPrefix_between (ts : List Token) (i : Nat) {j k : Nat} (hjk : j ≤ k) :
    between ts i j <+: between ts i k := by
  obtain ⟨rest, hrest⟩ := List.take_prefix_take_left (l := ts) hjk
  exact ⟨_, by rw [between, between, ← hrest, List.drop_append]⟩

/-- **A scope that begins inside another one ends inside it.** -/
theorem Matches.finish_lt {ts : List Token} {start finish start' finish' : Nat}
    (h : Matches ts start finish) (h' : Matches ts start' finish') (hlt : start < start')
    (hlt' : start' < finish) : finish' < finish := by
  refine Nat.lt_of_not_le fun hle => ?_
  -- Up to `finish` the inner scope has not closed more than it opened, and neither has the outer
  -- one up to `start'`; with the brace at `start'` one scope too many is open at `finish`.
  have hinner := h'.balanced.low _ (isPrefix_between ts start' hle)
  have houter := h.balanced.low _ (isPrefix_between ts start (Nat.le_of_lt hlt'))
  have hlevel := h.balanced.level
  rw [between_eq_append h'.opening hlt hlt', openCount_append, closeCount_append,
    openCount_openBrace, closeCount_openBrace] at hlevel
  omega

/-! ### First places -/

/-- There is one first place with a property. -/
theorem eq_of_least {P : Nat → Prop} {i j : Nat} (hi : P i) (hj : P j) (hi' : ∀ k < i, ¬ P k)
    (hj' : ∀ k < j, ¬ P k) : i = j := by
  rcases Nat.lt_trichotomy i j with hlt | heq | hlt
  · exact absurd hi (hj' i hlt)
  · exact heq
  · exact absurd hj (hi' j hlt)

/-- A brace has one match. -/
theorem Matches.unique {ts : List Token} {start finish finish' : Nat}
    (h : Matches ts start finish) (h' : Matches ts start finish') : finish = finish' :=
  eq_of_least h.level h'.level h.least h'.least

/-- There is one first word `global`. -/
theorem FirstGlobal.unique {ts : List Token} {i j : Nat} (h : FirstGlobal ts i)
    (h' : FirstGlobal ts j) : i = j :=
  eq_of_least (P := fun k => ts[k]? = some (.keyword .globals)) h.here h'.here h.least h'.least

/-- Behind a place there is one first closing parenthesis. -/
theorem FirstClose.unique {ts : List Token} {i close close' : Nat} (h : FirstClose ts i close)
    (h' : FirstClose ts i close') : close = close' :=
  eq_of_least (P := fun k => i < k ∧ ts[k]? = some (.operator .closeParen)) ⟨h.lt, h.here⟩
    ⟨h'.lt, h'.here⟩ (fun k hk hp => h.least k hp.1 hk hp.2) fun k hk hp => h'.least k hp.1 hk hp.2

/-! ### Spans -/

/-- A part of a stream that ends with a scope. -/
structure Span where
  /-- Where it begins. -/
  start : Nat
  /-- The brace that opens its scope. -/
  opening : Nat
  /-- The brace that closes it. -/
  finish : Nat
deriving DecidableEq

/-- Whether two spans have no place in common. -/
def Span.Apart (a b : Span) : Prop := a.finish < b.start ∨ b.finish < a.start

/-- Whether one span lies strictly between the braces of another. -/
def Span.Inside (a b : Span) : Prop := b.opening < a.start ∧ a.finish < b.finish

instance (a b : Span) : Decidable (a.Apart b) := inferInstanceAs (Decidable (_ ∨ _))

instance (a b : Span) : Decidable (a.Inside b) := inferInstanceAs (Decidable (_ ∧ _))

/-- The regions of a stream: a function, from its signature to the end of its body, and the global
region, from the first word `global` on. -/
inductive IsRegion (ts : List Token) : Span → Prop
  | function {i close finish : Nat} {result : ValueType} {name : Text}
      {parameters : List Parameter} :
      SignatureAt ts i result name → RegionsAt ts i parameters close finish →
      IsRegion ts ⟨i, close + 1, finish⟩
  | globals {i finish : Nat} :
      FirstGlobal ts i → Matches ts (i + 1) finish → IsRegion ts ⟨i, i + 1, finish⟩

/-! ### What a region begins with -/

/-- Whether a token can stand among parameters: a comma, a type or a name. -/
def IsParameterToken (t : Token) : Prop :=
  t = .operator .comma ∨ (∃ type, t = .type type) ∨ ∃ name, t = .ident name

/-- There are only types, names and commas among the parameters. -/
theorem RegionsAt.isParameterToken {ts : List Token} {i close finish : Nat}
    {parameters : List Parameter} (h : RegionsAt ts i parameters close finish) {k : Nat}
    {t : Token} (hk : ts[k]? = some t) (hik : i + 2 < k) (hkc : k < close) :
    IsParameterToken t := by
  by_cases hcomma : t = .operator .comma
  · exact Or.inl hcomma
  · have hmem : t ∈ between ts (i + 2) close := by
      rw [between_eq_append hk hik hkc]
      exact List.mem_append_right _ List.mem_cons_self
    have hparam : t ∈ parameterTokens parameters := by
      rw [← h.parameters]
      exact List.mem_filter.2 ⟨hmem, decide_eq_true hcomma⟩
    obtain ⟨p, -, hp⟩ := List.mem_flatMap.1 hparam
    simp only [List.mem_cons, List.not_mem_nil, or_false] at hp
    exact Or.inr (hp.imp (fun ht => ⟨_, ht⟩) fun ht => ⟨_, ht⟩)

/-- No signature stands among the parameters of another one: its parenthesis could not be there. -/
theorem RegionsAt.not_signatureAt {ts : List Token} {i close finish : Nat}
    {parameters : List Parameter} (h : RegionsAt ts i parameters close finish) {j : Nat}
    {result : ValueType} {name : Text} (hij : i + 2 < j) (hjc : j < close) :
    ¬ SignatureAt ts j result name := by
  intro hsig
  have hclose := h.closeParen.here
  have h1 : j + 1 ≠ close := by
    rintro rfl
    rw [hsig.ident] at hclose
    cases hclose
  have h2 : j + 2 ≠ close := by
    rintro rfl
    rw [hsig.openParen] at hclose
    cases hclose
  rcases h.isParameterToken hsig.openParen (by omega) (by omega) with h | ⟨_, h⟩ | ⟨_, h⟩ <;>
    cases h

namespace IsRegion

variable {ts : List Token} {a b : Span}

/-- The braces of a region match. -/
theorem braces (h : IsRegion ts a) : Matches ts a.opening a.finish := by
  cases h with
  | function _ hr => exact hr.body
  | globals _ hm => exact hm

/-- A region begins before its opening brace. -/
theorem start_le_opening (h : IsRegion ts a) : a.start ≤ a.opening := by
  cases h with
  | function _ hr =>
      have := hr.closeParen.lt
      dsimp only
      omega
  | globals _ _ => exact Nat.le_succ _

/-- A region begins with a signature or with the word `global`. -/
theorem start_cases (h : IsRegion ts a) :
    (∃ result name, SignatureAt ts a.start result name) ∨ FirstGlobal ts a.start := by
  cases h with
  | function hsig _ => exact Or.inl ⟨_, _, hsig⟩
  | globals hi _ => exact Or.inr hi

/-- A region begins with a type or with a word. -/
theorem getElem?_start (h : IsRegion ts a) :
    (∃ result, ts[a.start]? = some (.type result)) ∨ ts[a.start]? = some (.keyword .globals) := by
  rcases h.start_cases with ⟨result, _, hsig⟩ | hi
  · exact Or.inl ⟨result, hsig.type⟩
  · exact Or.inr hi.here

/-- The first token of a region is no operator and no name. -/
theorem start_ne (h : IsRegion ts a) {k : Nat} {t : Token} (hk : ts[k]? = some t)
    (ht : (∃ o, t = .operator o) ∨ ∃ name, t = .ident name) : a.start ≠ k := by
  rintro rfl
  rcases h.getElem?_start with ⟨result, hs⟩ | hs <;> rw [hs] at hk <;> cases hk <;>
    rcases ht with ⟨_, ht⟩ | ⟨_, ht⟩ <;> cases ht

/-- **No region begins between the beginning of another one and its opening brace.** -/
theorem opening_lt_start (ha : IsRegion ts a) (hb : IsRegion ts b) (hlt : a.start < b.start) :
    a.opening < b.start := by
  have hopening : b.start ≠ a.opening := hb.start_ne ha.braces.opening (Or.inl ⟨_, rfl⟩)
  cases ha with
  | globals _ _ =>
      dsimp only at hlt hopening ⊢
      omega
  | @function i close _ _ _ _ hsig hr =>
      have hident : b.start ≠ i + 1 := hb.start_ne hsig.ident (Or.inr ⟨_, rfl⟩)
      have hopen : b.start ≠ i + 2 := hb.start_ne hsig.openParen (Or.inl ⟨_, rfl⟩)
      have hclose : b.start ≠ close := hb.start_ne hr.closeParen.here (Or.inl ⟨_, rfl⟩)
      have hparameters : ¬ (i + 2 < b.start ∧ b.start < close) := by
        rintro ⟨hi, hc⟩
        rcases hb.start_cases with ⟨_, _, hsig'⟩ | hglobal
        · exact hr.not_signatureAt hi hc hsig'
        · rcases hr.isParameterToken hglobal.here hi hc with h | ⟨_, h⟩ | ⟨_, h⟩ <;> cases h
      dsimp only at hlt hopening ⊢
      omega

/-- **No scope ends between the beginning of a region and its opening brace.** -/
theorem head_ne_closeBrace (h : IsRegion ts a) {k : Nat} (hk : a.start ≤ k)
    (hk' : k ≤ a.opening) : ts[k]? ≠ some (.operator .closeBrace) := by
  intro hclose
  have hstart : a.start ≠ k := h.start_ne hclose (Or.inl ⟨_, rfl⟩)
  have hne {j : Nat} {t : Token} (hj : ts[j]? = some t) (ht : t ≠ .operator .closeBrace) :
      k ≠ j := by
    rintro rfl
    exact ht (Option.some.inj (hj.symm.trans hclose))
  have hopening := hne h.braces.opening (by rintro ⟨⟩)
  cases h with
  | globals _ _ =>
      dsimp only at hk hk' hstart hopening
      omega
  | @function i close _ _ _ _ hsig hr =>
      have hident := hne hsig.ident (by rintro ⟨⟩)
      have hopen := hne hsig.openParen (by rintro ⟨⟩)
      have hparen := hne hr.closeParen.here (by rintro ⟨⟩)
      have hparameters : ¬ (i + 2 < k ∧ k < close) := by
        rintro ⟨hi, hc⟩
        rcases hr.isParameterToken hclose hi hc with h | ⟨_, h⟩ | ⟨_, h⟩ <;> cases h
      dsimp only at hk hk' hstart hopening
      omega

/-- **Of two regions, the later one begins behind the other or lies inside its braces.** -/
theorem apart_or_inside (ha : IsRegion ts a) (hb : IsRegion ts b) (hlt : a.start < b.start) :
    a.Apart b ∨ b.Inside a := by
  have hopening := ha.opening_lt_start hb hlt
  rcases Nat.lt_or_ge a.finish b.start with hfinish | hfinish
  · exact Or.inl (Or.inl hfinish)
  · -- The head of `b` cannot reach over the end of `a`, so the scope of `b` begins before it.
    have hinner : b.opening < a.finish := Nat.lt_of_not_le fun hle =>
      hb.head_ne_closeBrace hfinish hle ha.braces.level.2.1
    have houter : a.opening < b.opening := Nat.lt_of_lt_of_le hopening hb.start_le_opening
    exact Or.inr ⟨hopening, ha.braces.finish_lt hb.braces houter hinner⟩

/-- At a place at most one region begins. -/
theorem eq_of_start_eq (ha : IsRegion ts a) (hb : IsRegion ts b) (h : a.start = b.start) :
    a = b := by
  cases ha with
  | function hsig hr =>
      cases hb with
      | function hsig' hr' =>
          cases h
          have hclose := hr.closeParen.unique hr'.closeParen
          subst hclose
          rw [hr.body.unique hr'.body]
      | globals hi _ =>
          cases h
          cases hsig.type.symm.trans hi.here
  | globals hi hm =>
      cases hb with
      | function hsig _ =>
          cases h
          cases hsig.type.symm.trans hi.here
      | globals _ hm' =>
          cases h
          rw [hm.unique hm']

end IsRegion

/-! ### The regions of a program -/

/-- **The regions of an accepted stream are apart or nested.** Each signature begins one, which ends
with the body that is read there, and so does the first word `global`. Any two of them are apart, or
one lies strictly between the braces of the other, and no two have their opening brace in common. -/
theorem segment_nested {ts : List Token} {p : Program} (h : segment ts = .ok p) :
    (∀ s ∈ signatures ts, ∃ f a, s.read = .ok f ∧ IsRegion ts a ∧ a.start = s.index ∧
      f.body = between ts a.opening a.finish) ∧
    (∀ i, FirstGlobal ts i → ∃ a, IsRegion ts a ∧ a.start = i ∧
      p.globals = between ts a.opening a.finish) ∧
    (∀ a b, IsRegion ts a → IsRegion ts b → a ≠ b → a.Apart b ∨ a.Inside b ∨ b.Inside a) ∧
    ∀ a b, IsRegion ts a → IsRegion ts b → a.opening = b.opening → a = b := by
  obtain ⟨gs, ds, hgs, hds, rfl⟩ := segment_eq_ok h
  refine ⟨fun s hs => ?_, fun i hi => ?_, fun a b ha hb hne => ?_, fun a b ha hb heq => ?_⟩
  · obtain ⟨hsig, hrest⟩ := mem_signatures.1 hs
    obtain ⟨f, hf⟩ := hds.complete _ _ _ hsig
    have hdecl := hds.sound _ hf
    obtain ⟨close, finish, hregions, hbody⟩ := hdecl.regions
    exact ⟨f, _, (Signature.read_eq_ok_iff hsig hrest).2 hdecl, .function hsig hregions, rfl,
      hbody⟩
  · rw [Program.globals_addAll]
    cases hgs with
    | absent hnone => exact absurd (List.mem_of_getElem? hi.here) hnone
    | region hi' hm =>
        obtain rfl := hi.unique hi'
        exact ⟨_, .globals hi hm, rfl, rfl⟩
  · have hstart : a.start ≠ b.start := fun h => hne (ha.eq_of_start_eq hb h)
    rcases Nat.lt_or_gt_of_ne hstart with hlt | hlt
    · exact (ha.apart_or_inside hb hlt).imp_right Or.inr
    · exact (hb.apart_or_inside ha hlt).imp Or.symm Or.inl
  · refine ha.eq_of_start_eq hb (Nat.le_antisymm ?_ ?_)
    · exact Nat.le_of_not_lt fun hlt =>
        Nat.not_lt_of_ge (heq ▸ ha.start_le_opening) (hb.opening_lt_start ha hlt)
    · exact Nat.le_of_not_lt fun hlt =>
        Nat.not_lt_of_ge (heq ▸ hb.start_le_opening) (ha.opening_lt_start hb hlt)

/-- A stream in which the body of one function holds the global region, and that holds another
function. -/
def enclosed : List Token :=
  [.type .int, .ident "f", .operator .openParen, .operator .closeParen, .operator .openBrace,
    .keyword .globals, .operator .openBrace,
    .type .real, .ident "g", .operator .openParen, .type .int, .ident "x", .operator .closeParen,
    .operator .openBrace, .operator .closeBrace,
    .operator .closeBrace, .operator .closeBrace]

/-- The function that stands in the global region lies inside its braces. -/
theorem segment_nested_enclosed :
    (∃ p, segment enclosed = .ok p) ∧ IsRegion enclosed ⟨5, 6, 15⟩ ∧
      IsRegion enclosed ⟨7, 13, 14⟩ ∧ Span.Inside ⟨7, 13, 14⟩ ⟨5, 6, 15⟩ := by
  have hglobal : IsRegion enclosed ⟨5, 6, 15⟩ :=
    .globals ⟨rfl, by decide⟩ ((closing?_drop_eq_some_iff (n := 8) rfl).1 rfl)
  have hclose : FirstClose enclosed (7 + 2) 12 :=
    (firstClose_iff (n := 2)).2 ⟨rfl, by decide⟩
  have hsignature : SignatureAt enclosed 7 .real "g" := ⟨rfl, rfl, rfl⟩
  have hregions : RegionsAt enclosed 7 [⟨.int, "x", .int 0⟩] 12 14 :=
    ⟨hclose, rfl, (closing?_drop_eq_some_iff (n := 0) rfl).1 rfl⟩
  have hfunction : IsRegion enclosed ⟨7, 13, 14⟩ := .function hsignature hregions
  obtain ⟨p, hp⟩ : ∃ p, segment enclosed = .ok p := ⟨_, rfl⟩
  refine ⟨⟨p, hp⟩, hglobal, hfunction, ?_⟩
  rcases (segment_nested hp).2.2.1 _ _ hfunction hglobal (by decide) with h | h | h
  · exact absurd h (by decide)
  · exact h
  · exact absurd h (by decide)

end IntLang
