import IntLang.Proofs.Answers
import IntLang.Proofs.Program.Matching
import IntLang.Proofs.Program.Store
import Mathlib.Data.List.Forall2

/-!
# What segmentation finds

Segmentation is told here by places alone. `GlobalTokens ts gs` says which tokens are the global
region of a stream, `SignatureAt` where a function begins, and `DeclaredAt ts i f` that the
function `f` is what begins at `i`. None of them mentions a reader.

Each reader is shown to answer exactly when there is something to read, and with just that. From
this, and from what a program holds after functions were added to it by place, follows what
segmentation accepts and what it finds.

## Main results

* `readScope_eq_ok_iff`, `globalRegion_eq_ok_iff`, `readParameters_eq_ok_iff` and
  `Signature.read_eq_ok_iff`, one for each reader;
* `mem_signatures` and `pairwise_signaturesFrom`, the signatures by place;
* `exists_segment_eq_ok_iff` and `segment_eq_ok`, what is accepted and what comes out.
-/

namespace IntLang

/-! ### Regions, by place -/

/-- The first word `global` of a stream is at a place. -/
structure FirstGlobal (ts : List Token) (i : Nat) : Prop where
  /-- It is there. -/
  here : ts[i]? = some (.keyword .globals)
  /-- None is before. -/
  least : ∀ k < i, ts[k]? ≠ some (.keyword .globals)

/-- The tokens of the global region: none without a word `global`, and else those strictly inside
the scope behind the first. -/
inductive GlobalTokens (ts : List Token) : List Token → Prop
  | absent (h : .keyword .globals ∉ ts) : GlobalTokens ts []
  | region {i close : Nat} (hi : FirstGlobal ts i) (hm : Matches ts (i + 1) close) :
      GlobalTokens ts (between ts (i + 1) close)

/-- A type, an identifier and an opening parenthesis follow one another from a place on. -/
structure SignatureAt (ts : List Token) (i : Nat) (result : ValueType) (name : Text) : Prop where
  /-- The type. -/
  type : ts[i]? = some (.type result)
  /-- The identifier. -/
  ident : ts[i + 1]? = some (.ident name)
  /-- The parenthesis. -/
  openParen : ts[i + 2]? = some (.operator .openParen)

/-- The first closing parenthesis behind a place. -/
structure FirstClose (ts : List Token) (i close : Nat) : Prop where
  /-- It is behind. -/
  lt : i < close
  /-- It is there. -/
  here : ts[close]? = some (.operator .closeParen)
  /-- None is before it. -/
  least : ∀ k, i < k → k < close → ts[k]? ≠ some (.operator .closeParen)

/-- Parameters as tokens: the type and the name of each. -/
def parameterTokens (ps : List Parameter) : List Token :=
  ps.flatMap fun p => [.type p.type, .ident p.name]

/-- The tokens of one parameter, and then those of others. -/
theorem parameterTokens_cons (p : Parameter) (ps : List Parameter) :
    parameterTokens (p :: ps) = .type p.type :: .ident p.name :: parameterTokens ps := rfl

/-- The same types and names, with the values that the types begin with. -/
def atZero (ps : List Parameter) : List Parameter :=
  ps.map fun p => { p with default := p.type.zero }

/-- Values do not show in the tokens. -/
theorem parameterTokens_atZero (ps : List Parameter) :
    parameterTokens (atZero ps) = parameterTokens ps :=
  List.flatMap_map ..

/-- Such parameters have the values that their types begin with. -/
theorem default_of_mem_atZero {ps : List Parameter} :
    ∀ p ∈ atZero ps, p.default = p.type.zero := by
  intro p hp
  obtain ⟨q, -, rfl⟩ := List.mem_map.1 hp
  rfl

/-- The regions behind a signature: up to the first closing parenthesis there are parameters, commas
aside, and right behind it a scope begins that ends at `finish`. -/
structure RegionsAt (ts : List Token) (i : Nat) (parameters : List Parameter)
    (close finish : Nat) : Prop where
  /-- The end of the parameters. -/
  closeParen : FirstClose ts (i + 2) close
  /-- What is before it. -/
  parameters : (between ts (i + 2) close).filter (· ≠ .operator .comma)
    = parameterTokens parameters
  /-- What is behind it. -/
  body : Matches ts (close + 1) finish

/-- The function that is declared at a place. -/
structure DeclaredAt (ts : List Token) (i : Nat) (f : Function) : Prop where
  /-- It begins with a signature. -/
  signature : SignatureAt ts i f.result f.name
  /-- Its parameters and its body follow. -/
  regions : ∃ close finish, RegionsAt ts i f.parameters close finish ∧
    f.body = between ts (close + 1) finish
  /-- The parameters have the values that their types begin with. -/
  defaults : ∀ p ∈ f.parameters, p.default = p.type.zero

/-! ### Places and what follows them -/

/-- The token at a place is the first of those from there on. -/
theorem getElem?_eq_of_drop_eq {ts rest : List Token} {i : Nat} {t : Token}
    (h : ts.drop i = t :: rest) : ts[i]? = some t ∧ ts.drop (i + 1) = rest := by
  rw [← List.head?_drop, ← List.tail_drop, h]
  exact ⟨rfl, rfl⟩

/-- The tokens from a place on are the one there and those behind it. -/
theorem drop_eq_of_getElem? {ts : List Token} {i : Nat} {t : Token} (h : ts[i]? = some t) :
    ts.drop i = t :: ts.drop (i + 1) := by
  obtain ⟨hlt, rfl⟩ := List.getElem?_eq_some_iff.1 h
  exact List.drop_eq_getElem_cons hlt

/-- Looking for a token finds the first place where it is. -/
theorem findIdx_eq_iff {ts : List Token} {p : Token → Bool} {t : Token}
    (hp : ∀ u, p u = true ↔ u = t) {n : Nat} :
    ts.findIdx p = n ∧ n < ts.length ↔
      ts[n]? = some t ∧ ∀ k < n, ts[k]? ≠ some t := by
  constructor
  · rintro ⟨rfl, hlt⟩
    refine ⟨List.getElem?_eq_some_iff.2 ⟨hlt, (hp _).1 List.findIdx_getElem⟩, fun k hk hkt => ?_⟩
    obtain ⟨hklt, hkeq⟩ := List.getElem?_eq_some_iff.1 hkt
    have := List.not_of_lt_findIdx hk
    rw [hkeq, (hp t).2 rfl] at this
    cases this
  · rintro ⟨hn, hleast⟩
    obtain ⟨hlt, hnt⟩ := List.getElem?_eq_some_iff.1 hn
    refine ⟨(List.findIdx_eq hlt).2 ⟨(hp _).2 hnt, fun k hk => ?_⟩, hlt⟩
    rw [← Bool.not_eq_true, hp]
    intro hkt
    exact hleast k hk (List.getElem?_eq_some_iff.2 ⟨_, hkt⟩)

/-- A token that is nowhere is not found. -/
theorem not_findIdx_lt {ts : List Token} {p : Token → Bool} {t : Token}
    (hp : ∀ u, p u = true ↔ u = t) (h : t ∉ ts) : ¬ ts.findIdx p < ts.length := by
  rw [List.findIdx_lt_length]
  rintro ⟨u, hu, hup⟩
  exact h ((hp u).1 hup ▸ hu)

/-- A token that is not among the first is found behind them. -/
theorem findIdx_append_cons {p : Token → Bool} {t : Token} (hp : ∀ u, p u = true ↔ u = t)
    {before : List Token} (h : t ∉ before) (behind : List Token) :
    (before ++ t :: behind).findIdx p = before.length := by
  induction before with
  | nil => rw [List.nil_append, List.findIdx_cons, (hp t).2 rfl]; rfl
  | cons u before ih =>
      obtain ⟨hu, h⟩ := not_or.1 (mt List.mem_cons.2 h)
      have hpu : p u = false := by
        rw [← Bool.not_eq_true, hp]
        exact Ne.symm hu
      rw [List.cons_append, List.findIdx_cons, hpu, ih h]
      rfl

/-- The first closing parenthesis behind a place, counted from there. -/
theorem firstClose_iff {ts : List Token} {i n : Nat} :
    FirstClose ts i (i + 1 + n) ↔
      (ts.drop (i + 1)).findIdx (·.isOperator .closeParen) = n ∧ n < (ts.drop (i + 1)).length := by
  rw [findIdx_eq_iff (t := .operator .closeParen) (by simp [Token.isOperator])]
  simp only [List.getElem?_drop]
  constructor
  · rintro ⟨-, hhere, hleast⟩
    exact ⟨hhere, fun k hk => hleast _ (by omega) (by omega)⟩
  · rintro ⟨hhere, hleast⟩
    refine ⟨by omega, hhere, fun k hik hk => ?_⟩
    obtain ⟨j, rfl⟩ := Nat.exists_eq_add_of_le (Nat.succ_le_of_lt hik)
    exact hleast j (by omega)

/-! ### Scopes -/

/-- **A scope is read exactly if its brace has a match.** -/
theorem readScope_eq_ok_iff {ts : List Token} {start index : Nat} {opening : Expected}
    {body : List Token} :
    readScope index opening (ts.drop start) = .ok body ↔
      ∃ close, Matches ts start close ∧ body = between ts start close := by
  by_cases ho : ts[start]? = some (.operator .openBrace)
  · rw [drop_eq_of_getElem? ho, readScope]
    constructor
    · intro h
      cases hn : closing? 0 (ts.drop (start + 1)) with
      | none =>
          rw [hn] at h
          cases h
      | some n =>
          rw [hn] at h
          refine ⟨start + 1 + n, (closing?_drop_eq_some_iff ho).1 hn, ?_⟩
          rw [between_add]
          exact (Except.ok.inj h).symm
    · rintro ⟨close, hm, rfl⟩
      obtain ⟨n, rfl⟩ := Nat.exists_eq_add_of_le (Nat.succ_le_of_lt hm.level.1)
      rw [(closing?_drop_eq_some_iff ho).2 hm, between_add]
  · constructor
    · intro h
      rw [readScope] at h
      · cases h
      · intro inner hdrop
        exact ho (getElem?_eq_of_drop_eq hdrop).1
    · rintro ⟨close, hm, -⟩
      exact absurd hm.opening ho

/-- Without the word `global` there is no global region. -/
theorem globalRegion_of_not_mem {ts : List Token} (h : .keyword .globals ∉ ts) :
    globalRegion ts = .ok none := by
  have hlt : ¬ ts.findIdx (·.isKeyword .globals) < ts.length :=
    not_findIdx_lt (by simp [Token.isKeyword]) h
  rw [globalRegion, if_neg hlt]

/-- **The global region is read exactly if there is none, or its brace has a match.** -/
theorem globalRegion_eq_ok_iff {ts gs : List Token} :
    (∃ region, globalRegion ts = .ok region ∧ region.getD [] = gs) ↔ GlobalTokens ts gs := by
  have hp (u : Token) : u.isKeyword .globals = true ↔ u = .keyword .globals := by
    simp [Token.isKeyword]
  constructor
  · rintro ⟨region, h, rfl⟩
    rw [globalRegion] at h
    split at h
    · next hlt =>
        obtain ⟨hhere, hleast⟩ := (findIdx_eq_iff hp).1 ⟨rfl, hlt⟩
        cases hbody : readScope (ts.findIdx (·.isKeyword .globals) + 1) .globalScope
            (ts.drop (ts.findIdx (·.isKeyword .globals) + 1)) with
        | error misfit =>
            rw [hbody] at h
            cases h
        | ok body =>
            rw [hbody] at h
            cases h
            obtain ⟨close, hm, rfl⟩ := readScope_eq_ok_iff.1 hbody
            exact .region ⟨hhere, hleast⟩ hm
    · next hlt =>
        cases h
        exact .absent fun hmem => hlt (List.findIdx_lt_length_of_exists ⟨_, hmem, rfl⟩)
  · rintro (habsent | ⟨hi, hm⟩)
    · exact ⟨none, globalRegion_of_not_mem habsent, rfl⟩
    · obtain ⟨hidx, hlt⟩ := (findIdx_eq_iff hp).2 ⟨hi.here, hi.least⟩
      refine ⟨some _, ?_, rfl⟩
      rw [globalRegion, hidx, if_pos hlt, readScope_eq_ok_iff.2 ⟨_, hm, rfl⟩]
      rfl

/-! ### Parameters -/

/-- **Parameters are read exactly from pairs of a type and a name**, with the values that their
types begin with. -/
theorem readParameters_eq_ok_iff {finish : Nat × Option Token} {items : List (Token × Nat)}
    {ps : List Parameter} :
    readParameters finish items = .ok ps ↔
      items.map Prod.fst = parameterTokens ps ∧ ∀ p ∈ ps, p.default = p.type.zero := by
  fun_induction readParameters finish items generalizing ps with
  | case1 =>
      cases ps with
      | nil => exact iff_of_true rfl ⟨rfl, by rintro _ ⟨⟩⟩
      | cons p ps => exact iff_of_false (by rintro ⟨⟩) (by rintro ⟨⟨⟩, -⟩)
  | case2 type place =>
      refine iff_of_false (by rintro ⟨⟩) fun ⟨h, _⟩ => ?_
      cases ps <;> cases h
  | case3 type place name place' rest ih =>
      rw [bind_eq_ok_iff]
      constructor
      · rintro ⟨others, hothers, ⟨⟩⟩
        obtain ⟨htokens, hzero⟩ := ih.1 hothers
        refine ⟨?_, List.forall_mem_cons.2 ⟨rfl, hzero⟩⟩
        rw [parameterTokens_cons, ← htokens]
        rfl
      · rintro ⟨h, hzero⟩
        rcases ps with - | ⟨⟨ptype, pname, value⟩, ps⟩
        · cases h
        · rw [parameterTokens_cons, List.map_cons, List.map_cons, List.cons.injEq,
            List.cons.injEq] at h
          obtain ⟨ht, hn, hrest⟩ := h
          obtain ⟨hvalue, hothers⟩ := List.forall_mem_cons.1 hzero
          cases ht
          cases hn
          obtain rfl : value = ptype.zero := hvalue
          exact ⟨ps, ih.2 ⟨hrest, hothers⟩, rfl⟩
  | case4 type place other place' rest hother =>
      refine iff_of_false (by rintro ⟨⟩) fun ⟨h, _⟩ => ?_
      rcases ps with - | ⟨p, ps⟩
      · cases h
      · rw [parameterTokens_cons, List.map_cons, List.map_cons, List.cons.injEq,
          List.cons.injEq] at h
        exact hother p.name h.2.1
  | case5 other place rest hother =>
      refine iff_of_false (by rintro ⟨⟩) fun ⟨h, _⟩ => ?_
      rcases ps with - | ⟨p, ps⟩
      · cases h
      · rw [parameterTokens_cons, List.map_cons, List.cons.injEq] at h
        exact hother p.type h.1

/-! ### Functions -/

namespace Signature

/-- The tokens that carry their places, commas aside, are the tokens, commas aside. -/
theorem map_fst_filter_zipIdx (ts : List Token) (start : Nat) :
    ((ts.zipIdx start).filter fun item => !item.1.isOperator .comma).map Prod.fst
      = ts.filter (· ≠ .operator .comma) := by
  have hq : (fun t : Token => !t.isOperator .comma) = fun t => decide (t ≠ .operator .comma) := by
    funext t
    simp [Token.isOperator]
  rw [← hq]
  nth_rewrite 2 [← List.zipIdx_map_fst start ts]
  rw [List.filter_map]
  rfl

/-- Without a closing parenthesis there is no function. -/
theorem read_of_not_lt {s : Signature}
    (h : ¬ s.rest.findIdx (·.isOperator .closeParen) < s.rest.length) :
    s.read = .error ⟨s.index + 2, .parametersEnd s.name, none⟩ := by
  rw [read, List.drop_eq_nil_iff.2 (Nat.le_of_not_lt h)]

/-- With one, the parameters are read before it and the body behind it. -/
theorem read_of_firstClose {ts : List Token} {s : Signature}
    (hrest : s.rest = ts.drop (s.index + 3)) {close : Nat}
    (hclose : FirstClose ts (s.index + 2) close) :
    s.read = (do
      let parameters ← readParameters (close, some (.operator .closeParen))
        (((between ts (s.index + 2) close).zipIdx (s.index + 2 + 1)).filter
          fun item => !item.1.isOperator .comma)
      let body ← readScope (close + 1) (.body s.name) (ts.drop (close + 1))
      return { result := s.result, name := s.name, parameters, body }) := by
  obtain ⟨n, rfl⟩ := Nat.exists_eq_add_of_le (Nat.succ_le_of_lt hclose.lt)
  obtain ⟨hn, -⟩ := firstClose_iff.1 hclose
  have hdrop : s.rest.drop n = .operator .closeParen :: ts.drop (s.index + 2 + 1 + n + 1) := by
    rw [hrest, List.drop_drop]
    exact drop_eq_of_getElem? hclose.here
  rw [← hrest] at hn
  rw [read, hn, hdrop, between_add, hrest]

/-- So a function is read exactly if there are parameters before it and a scope behind it. -/
theorem read_eq_ok_of_firstClose {ts : List Token} {s : Signature}
    (hrest : s.rest = ts.drop (s.index + 3)) {close : Nat}
    (hclose : FirstClose ts (s.index + 2) close) {f : Function} :
    s.read = .ok f ↔ f.result = s.result ∧ f.name = s.name ∧
      (between ts (s.index + 2) close).filter (· ≠ .operator .comma)
        = parameterTokens f.parameters ∧
      (∀ p ∈ f.parameters, p.default = p.type.zero) ∧
      ∃ finish, Matches ts (close + 1) finish ∧ f.body = between ts (close + 1) finish := by
  rw [read_of_firstClose hrest hclose]
  simp only [bind_eq_ok_iff, readParameters_eq_ok_iff, map_fst_filter_zipIdx]
  constructor
  · rintro ⟨parameters, ⟨hps, hzero⟩, body, hbody, ⟨⟩⟩
    exact ⟨rfl, rfl, hps, hzero, readScope_eq_ok_iff.1 hbody⟩
  · rintro ⟨hresult, hname, hps, hzero, hbody⟩
    refine ⟨f.parameters, ⟨hps, hzero⟩, f.body, readScope_eq_ok_iff.2 hbody, ?_⟩
    rw [← hresult, ← hname]
    rfl

/-- **A function is read exactly if one is declared where its signature is.** -/
theorem read_eq_ok_iff {ts : List Token} {s : Signature}
    (hs : SignatureAt ts s.index s.result s.name) (hrest : s.rest = ts.drop (s.index + 3))
    {f : Function} : s.read = .ok f ↔ DeclaredAt ts s.index f := by
  constructor
  · intro h
    by_cases hlt : s.rest.findIdx (·.isOperator .closeParen) < s.rest.length
    · have hclose := firstClose_iff.2 ⟨rfl, hrest ▸ hlt⟩
      obtain ⟨hresult, hname, hps, hzero, finish, hm, hbody⟩ :=
        (read_eq_ok_of_firstClose hrest hclose).1 h
      exact ⟨hresult ▸ hname ▸ hs, ⟨_, finish, ⟨hclose, hps, hm⟩, hbody⟩, hzero⟩
    · rw [read_of_not_lt hlt] at h
      cases h
  · rintro ⟨hf, ⟨close, finish, ⟨hclose, hps, hm⟩, hbody⟩, hzero⟩
    have hresult : f.result = s.result :=
      Token.type.inj (Option.some.inj (hf.type.symm.trans hs.type))
    have hname : f.name = s.name :=
      Token.ident.inj (Option.some.inj (hf.ident.symm.trans hs.ident))
    exact (read_eq_ok_of_firstClose hrest hclose).2
      ⟨hresult, hname, hps, hzero, finish, hm, hbody⟩

/-- A signature is what begins with a type, an identifier and an opening parenthesis. -/
theorem at?_eq_some_iff {i : Nat} {ts : List Token} {s : Signature} :
    at? i ts = some s ↔ s.index = i ∧
      ts = .type s.result :: .ident s.name :: .operator .openParen :: s.rest := by
  constructor
  · intro h
    rw [at?.eq_def] at h
    split at h
    · cases h
      exact ⟨rfl, rfl⟩
    · cases h
  · rintro ⟨rfl, rfl⟩
    rfl

end Signature

/-- At a place at most one function is declared: it is the one that is read there. -/
theorem DeclaredAt.unique {ts : List Token} {i : Nat} {f g : Function} (hf : DeclaredAt ts i f)
    (hg : DeclaredAt ts i g) : f = g := by
  have hread {h : Function} := Signature.read_eq_ok_iff (f := h)
    (s := ⟨i, f.result, f.name, ts.drop (i + 3)⟩) hf.signature rfl
  exact Except.ok.inj ((hread.2 hf).symm.trans (hread.2 hg))

/-- The signatures from a place on are those that begin at it or behind it. -/
theorem mem_signaturesFrom {ts : List Token} {start : Nat} {s : Signature} :
    s ∈ signaturesFrom start ts ↔ ∃ k, s.index = start + k ∧
      ts.drop k = .type s.result :: .ident s.name :: .operator .openParen :: s.rest := by
  induction ts generalizing start with
  | nil => simp [signaturesFrom]
  | cons t ts ih =>
      rw [signaturesFrom, List.mem_append, Option.mem_toList, Signature.at?_eq_some_iff, ih]
      constructor
      · rintro (⟨hi, hts⟩ | ⟨k, hi, hts⟩)
        · exact ⟨0, hi, hts⟩
        · exact ⟨k + 1, by omega, hts⟩
      · rintro ⟨- | k, hi, hts⟩
        · exact Or.inl ⟨hi, hts⟩
        · exact Or.inr ⟨k, by omega, hts⟩

/-- **The signatures of a stream are all that there are**, each with what follows it. -/
theorem mem_signatures {ts : List Token} {s : Signature} :
    s ∈ signatures ts ↔
      SignatureAt ts s.index s.result s.name ∧ s.rest = ts.drop (s.index + 3) := by
  rw [signatures, mem_signaturesFrom]
  constructor
  · rintro ⟨k, hi, hts⟩
    obtain rfl : s.index = k := by omega
    obtain ⟨htype, hts⟩ := getElem?_eq_of_drop_eq hts
    obtain ⟨hident, hts⟩ := getElem?_eq_of_drop_eq hts
    obtain ⟨hparen, hts⟩ := getElem?_eq_of_drop_eq hts
    exact ⟨⟨htype, hident, hparen⟩, hts.symm⟩
  · rintro ⟨⟨htype, hident, hparen⟩, hrest⟩
    refine ⟨s.index, by omega, ?_⟩
    rw [drop_eq_of_getElem? htype, drop_eq_of_getElem? hident, drop_eq_of_getElem? hparen, hrest]

/-- The signatures of a stream are in the order of their places. -/
theorem pairwise_signaturesFrom (ts : List Token) (start : Nat) :
    (signaturesFrom start ts).Pairwise fun s s' => s.index < s'.index := by
  induction ts generalizing start with
  | nil => exact List.Pairwise.nil
  | cons t ts ih =>
      rw [signaturesFrom, List.pairwise_append]
      refine ⟨?_, ih (start + 1), fun s hs s' hs' => ?_⟩
      · cases Signature.at? start (t :: ts) with
        | none => exact List.Pairwise.nil
        | some s => exact List.pairwise_singleton _ s
      · rw [Option.mem_toList, Signature.at?_eq_some_iff] at hs
        obtain ⟨k, hk, -⟩ := mem_signaturesFrom.1 hs'
        omega

/-! ### The whole program -/

/-- Reading one after another succeeds exactly if each of them does, and gives what they give. -/
theorem mapM_eq_ok_iff {α β : Type} {g : α → Except Misfit β} {as : List α} {bs : List β} :
    as.mapM g = .ok bs ↔ List.Forall₂ (fun a b => g a = .ok b) as bs := by
  induction as generalizing bs with
  | nil =>
      rw [List.mapM_nil, List.forall₂_nil_left_iff]
      constructor
      · rintro ⟨⟩
        rfl
      · rintro rfl
        rfl
  | cons a as ih =>
      rw [List.mapM_cons, bind_eq_ok_iff, List.forall₂_cons_left_iff]
      constructor
      · rintro ⟨b, hb, h⟩
        obtain ⟨bs', hbs', ⟨⟩⟩ := bind_eq_ok_iff.1 h
        exact ⟨b, bs', hb, ih.1 hbs', rfl⟩
      · rintro ⟨b, bs', hb, hbs', rfl⟩
        exact ⟨b, hb, bind_eq_ok_iff.2 ⟨bs', ih.2 hbs', rfl⟩⟩

/-- All functions that are declared in a stream, with their places, in order. -/
structure Declarations (ts : List Token) (ds : List (Nat × Function)) : Prop where
  /-- Each of them is declared where it is said to be. -/
  sound : ∀ d ∈ ds, DeclaredAt ts d.1 d.2
  /-- Each signature is one of theirs. -/
  complete : ∀ i result name, SignatureAt ts i result name → ∃ f, (i, f) ∈ ds
  /-- The first place comes first. -/
  ordered : ds.Pairwise fun d e => d.1 < e.1

/-- Functions that were read from signatures, each with the place of its signature. -/
theorem exists_placed {ss : List Signature} {fs : List Function}
    (h : List.Forall₂ (fun s f => s.read = .ok f) ss fs) :
    ∃ ds : List (Nat × Function), ds.map Prod.snd = fs ∧
      ds.map Prod.fst = ss.map Signature.index ∧
      ∀ d ∈ ds, ∃ s ∈ ss, s.index = d.1 ∧ s.read = .ok d.2 := by
  induction h with
  | nil => exact ⟨[], rfl, rfl, by rintro _ ⟨⟩⟩
  | @cons s f ss fs hs _ ih =>
      obtain ⟨ds, hsnd, hfst, hds⟩ := ih
      refine ⟨(s.index, f) :: ds, by rw [List.map_cons, hsnd], by rw [List.map_cons, hfst]; rfl, ?_⟩
      intro d hd
      rcases List.mem_cons.1 hd with rfl | hd
      · exact ⟨s, List.mem_cons_self, rfl, hs⟩
      · obtain ⟨s', hs', hd'⟩ := hds d hd
        exact ⟨s', List.mem_cons_of_mem s hs', hd'⟩

/-- The functions that are read are the declarations of the stream. -/
theorem exists_declarations {ts : List Token} {fs : List Function}
    (h : (signatures ts).mapM Signature.read = .ok fs) :
    ∃ ds, Declarations ts ds ∧ ds.map Prod.snd = fs := by
  obtain ⟨ds, hsnd, hfst, hds⟩ := exists_placed (mapM_eq_ok_iff.1 h)
  refine ⟨ds, ⟨fun d hd => ?_, fun i result name hsig => ?_, ?_⟩, hsnd⟩
  · obtain ⟨s, hs, hi, hread⟩ := hds d hd
    obtain ⟨hsig, hrest⟩ := mem_signatures.1 hs
    rw [← hi]
    exact (Signature.read_eq_ok_iff hsig hrest).1 hread
  · have hs : Signature.mk i result name (ts.drop (i + 3)) ∈ signatures ts :=
      mem_signatures.2 ⟨hsig, rfl⟩
    have hi : i ∈ ds.map Prod.fst := hfst ▸ List.mem_map_of_mem (f := Signature.index) hs
    obtain ⟨⟨_, f⟩, hd, rfl⟩ := List.mem_map.1 hi
    exact ⟨f, hd⟩
  · have hplaces : (ds.map Prod.fst).Pairwise (· < ·) := by
      rw [hfst, List.pairwise_map]
      exact pairwise_signaturesFrom ts 0
    exact List.pairwise_map.1 hplaces

/-- If each signature declares a function, all of them are read. -/
theorem exists_mapM_read {ts : List Token}
    (h : ∀ i result name, SignatureAt ts i result name → ∃ f, DeclaredAt ts i f) :
    ∃ fs, (signatures ts).mapM Signature.read = .ok fs := by
  have hread : ∀ s ∈ signatures ts, ∃ f, s.read = .ok f := by
    intro s hs
    obtain ⟨hsig, hrest⟩ := mem_signatures.1 hs
    obtain ⟨f, hf⟩ := h _ _ _ hsig
    exact ⟨f, (Signature.read_eq_ok_iff hsig hrest).2 hf⟩
  simp only [mapM_eq_ok_iff]
  generalize signatures ts = ss at hread
  induction ss with
  | nil => exact ⟨[], .nil⟩
  | cons s ss ih =>
      obtain ⟨f, hf⟩ := hread s List.mem_cons_self
      obtain ⟨fs, hfs⟩ := ih fun s' hs' => hread s' (List.mem_cons_of_mem s hs')
      exact ⟨f :: fs, .cons hf hfs⟩

/-- A program is the global region and the declarations of its stream, the functions added by
place. -/
theorem segment_eq_ok {ts : List Token} {p : Program} (h : segment ts = .ok p) :
    ∃ gs ds, GlobalTokens ts gs ∧ Declarations ts ds ∧
      p = Program.addAll { globals := gs } (ds.map Prod.snd) := by
  obtain ⟨region, hregion, h⟩ := bind_eq_ok_iff.1 h
  obtain ⟨fs, hfs, ⟨⟩⟩ := bind_eq_ok_iff.1 h
  obtain ⟨ds, hds, rfl⟩ := exists_declarations hfs
  exact ⟨_, ds, globalRegion_eq_ok_iff.1 ⟨region, hregion, rfl⟩, hds, rfl⟩

/-- The name is that of a signature at the place, and of none before. -/
structure FirstSignature (ts : List Token) (name : Text) (i : Nat) : Prop where
  /-- There is one. -/
  here : ∃ result, SignatureAt ts i result name
  /-- None is before. -/
  least : ∀ k < i, ∀ result, ¬ SignatureAt ts k result name

namespace Declarations

variable {ts : List Token} {ds : List (Nat × Function)}

/-- A function is among the declarations exactly if it is declared. -/
theorem mem_iff (hds : Declarations ts ds) {i : Nat} {f : Function} :
    (i, f) ∈ ds ↔ DeclaredAt ts i f := by
  constructor
  · exact hds.sound (i, f)
  · intro hf
    obtain ⟨g, hg⟩ := hds.complete i _ _ hf.signature
    rw [hf.unique (hds.sound _ hg)]
    exact hg

/-- A name has a signature at a place exactly if a function of that name is declared there. -/
theorem exists_signature_iff (hds : Declarations ts ds) {i : Nat} {name : Text} :
    (∃ result, SignatureAt ts i result name) ↔ ∃ f, (i, f) ∈ ds ∧ f.name = name := by
  constructor
  · rintro ⟨result, hsig⟩
    obtain ⟨f, hf⟩ := hds.complete i result name hsig
    have hident := (hds.sound _ hf).signature.ident
    exact ⟨f, hf, Token.ident.inj (Option.some.inj (hident.symm.trans hsig.ident))⟩
  · rintro ⟨f, hf, rfl⟩
    exact ⟨f.result, (hds.sound _ hf).signature⟩

/-- The first declaration of a name is at the place of its first signature. -/
theorem firstSignature (hds : Declarations ts ds) {name : Text} {i : Nat}
    (h : Program.FirstAt ds name i) : FirstSignature ts name i := by
  refine ⟨hds.exists_signature_iff.2 h.mem, fun k hk result hsig => ?_⟩
  obtain ⟨g, hg, hname⟩ := hds.exists_signature_iff.1 ⟨result, hsig⟩
  exact absurd (h.least _ hg hname) (Nat.not_le_of_lt hk)

/-- The names of the declarations are those of the signatures. -/
theorem exists_name_iff (hds : Declarations ts ds) {name : Text} :
    (∃ f ∈ ds.map Prod.snd, f.name = name) ↔ ∃ i result, SignatureAt ts i result name := by
  simp only [hds.exists_signature_iff, List.mem_map]
  constructor
  · rintro ⟨_, ⟨⟨i, f⟩, hd, rfl⟩, hname⟩
    exact ⟨i, f, hd, hname⟩
  · rintro ⟨i, f, hd, hname⟩
    exact ⟨f, ⟨(i, f), hd, rfl⟩, hname⟩

/-- The last declaration of a name is at the place of its last signature. -/
theorem forall_name_ne_iff (hds : Declarations ts ds) {name : Text} {i : Nat} :
    (∀ d ∈ ds, i < d.1 → d.2.name ≠ name) ↔
      ∀ k result, i < k → ¬ SignatureAt ts k result name := by
  constructor
  · intro h k result hk hsig
    obtain ⟨g, hg, hname⟩ := hds.exists_signature_iff.1 ⟨result, hsig⟩
    exact h _ hg hk hname
  · intro h d hd hk hname
    obtain ⟨result, hsig⟩ := hds.exists_signature_iff.2 ⟨d.2, hd, hname⟩
    exact h d.1 result hk hsig

end Declarations

/-- A stream is accepted exactly if its global region and its functions are complete. -/
theorem exists_segment_eq_ok_iff {ts : List Token} :
    (∃ p, segment ts = .ok p) ↔
      (.keyword .globals ∉ ts ∨ ∃ i close, FirstGlobal ts i ∧ Matches ts (i + 1) close) ∧
      ∀ i result name, SignatureAt ts i result name →
        ∃ parameters close finish, RegionsAt ts i parameters close finish := by
  constructor
  · rintro ⟨p, h⟩
    obtain ⟨gs, ds, hgs, hds, -⟩ := segment_eq_ok h
    refine ⟨?_, fun i result name hsig => ?_⟩
    · cases hgs with
      | absent h => exact Or.inl h
      | region hi hm => exact Or.inr ⟨_, _, hi, hm⟩
    · obtain ⟨f, hf⟩ := hds.complete i result name hsig
      obtain ⟨close, finish, hregions, -⟩ := (hds.sound _ hf).regions
      exact ⟨f.parameters, close, finish, hregions⟩
  · rintro ⟨hglobal, hfunctions⟩
    obtain ⟨gs, hgs⟩ : ∃ gs, GlobalTokens ts gs := by
      rcases hglobal with h | ⟨i, close, hi, hm⟩
      · exact ⟨_, .absent h⟩
      · exact ⟨_, .region hi hm⟩
    obtain ⟨region, hregion, -⟩ := globalRegion_eq_ok_iff.2 hgs
    obtain ⟨fs, hfs⟩ : ∃ fs, (signatures ts).mapM Signature.read = .ok fs := by
      refine exists_mapM_read fun i result name hsig => ?_
      obtain ⟨parameters, close, finish, hregions⟩ := hfunctions i result name hsig
      have hps := hregions.parameters
      rw [← parameterTokens_atZero] at hps
      exact ⟨⟨result, name, atZero parameters, between ts (close + 1) finish⟩, hsig,
        ⟨close, finish, ⟨hregions.closeParen, hps, hregions.body⟩, rfl⟩, default_of_mem_atZero⟩
    exact ⟨_, bind_eq_ok_iff.2 ⟨region, hregion, bind_eq_ok_iff.2 ⟨fs, hfs, rfl⟩⟩⟩

/-- **Segmentation accepts exactly the well-formed streams, and finds the declared regions**: the
tokens of the global region, the names of the functions by their first signatures, and under each
name the function of the last signature with it. -/
theorem segment_spec (ts : List Token) :
    ((∃ p, segment ts = .ok p) ↔
      (.keyword .globals ∉ ts ∨ ∃ i close, FirstGlobal ts i ∧ Matches ts (i + 1) close) ∧
      ∀ i result name, SignatureAt ts i result name →
        ∃ parameters close finish, RegionsAt ts i parameters close finish) ∧
    ∀ p, segment ts = .ok p →
      GlobalTokens ts p.globals ∧
      (∀ name, name ∈ p.order ↔ ∃ i result, SignatureAt ts i result name) ∧
      (p.order.Pairwise fun a b =>
        ∃ i j, FirstSignature ts a i ∧ FirstSignature ts b j ∧ i < j) ∧
      ∀ name f, p.get? name = some f ↔ f.name = name ∧
        ∃ i, DeclaredAt ts i f ∧ ∀ k result, i < k → ¬ SignatureAt ts k result name := by
  refine ⟨exists_segment_eq_ok_iff, fun p h => ?_⟩
  obtain ⟨gs, ds, hgs, hds, rfl⟩ := segment_eq_ok h
  refine ⟨?_, fun name => ?_, ?_, fun name f => ?_⟩
  · rw [Program.globals_addAll]
    exact hgs
  · rw [Program.mem_order_addAll (Program.holds_nil gs), hds.exists_name_iff]
  · exact (Program.pairwise_order_addAll (Program.holds_nil gs) hds.ordered).2.imp
      fun ⟨i, j, ha, hb, hij⟩ => ⟨i, j, hds.firstSignature ha, hds.firstSignature hb, hij⟩
  · rw [Program.get?_addAll_eq_some_iff (Program.holds_nil gs) hds.ordered]
    simp only [hds.forall_name_ne_iff]
    simp only [hds.mem_iff]

/-- A stream with an empty global region and two functions of one name. -/
def redeclared : List Token :=
  [.keyword .globals, .operator .openBrace, .operator .closeBrace,
    .type .int, .ident "f", .operator .openParen, .type .real, .ident "x", .operator .closeParen,
    .operator .openBrace, .operator .openBrace, .operator .closeBrace, .operator .closeBrace,
    .type .bool, .ident "f", .operator .openParen, .operator .closeParen,
    .operator .openBrace, .keyword .ret, .operator .closeBrace]

/-- Two functions of one name take one place, and the second is the one that is held. -/
theorem segment_redeclared :
    ∃ p, segment redeclared = .ok p ∧ GlobalTokens redeclared p.globals ∧ p.order = ["f"] ∧
      ∃ i, DeclaredAt redeclared i ⟨.bool, "f", [], [.keyword .ret]⟩ ∧
        ∀ k result, i < k → ¬ SignatureAt redeclared k result "f" := by
  refine ⟨_, rfl, ((segment_spec redeclared).2 _ rfl).1, rfl, ?_⟩
  exact ((((segment_spec redeclared).2 _ rfl).2.2.2 "f" _).1 rfl).2

end IntLang
