import IntLang.Proofs.Program.Nesting

/-!
# Where segmentation fails

A stream that is not accepted has a first flaw, and segmentation names it. The relations here say by
places alone what is wrong with a scope (`ScopeMisfit`), with the parameters of a function
(`ParameterMisfit`), with the global region (`GlobalMisfit`) and with a function
(`SignatureMisfit`), and which misfit tells of it. A flaw is looked for in the global region first
and then in the functions by place, so the misfit is that of the global region, or that of the first
function that is not complete.

A stream has at most one such misfit (`FirstMisfit.unique`), so the relations leave nothing open.

Every misfit points at a token of the stream or right behind the last one, and what it says was
found is what stands there, or the end of the stream (`Misfit.Placed`).

## Main results

* `segment_eq_error_iff`: which misfit is reported;
* `FirstMisfit.placed`: where it points.
-/

namespace IntLang

/-! ### Flaws, by place -/

/-- What is wrong with the scope that should begin at a place. -/
inductive ScopeMisfit (ts : List Token) (start : Nat) (opening : Expected) : Misfit → Prop
  /-- No brace is there. -/
  | missing (h : ts[start]? ≠ some (.operator .openBrace)) :
      ScopeMisfit ts start opening ⟨start, opening, ts[start]?⟩
  /-- The brace that is there has no match. -/
  | unclosed (ho : ts[start]? = some (.operator .openBrace))
      (h : ∀ close, ¬ Matches ts start close) :
      ScopeMisfit ts start opening ⟨start, .scopeEnd, none⟩

/-- What is wrong with the scope behind the first word `global`. -/
def GlobalMisfit (ts : List Token) (m : Misfit) : Prop :=
  ∃ i, FirstGlobal ts i ∧ ScopeMisfit ts (i + 1) .globalScope m

/-- What is wrong with the parameters between two parentheses: commas aside, the tokens up to a
place are pairs of a type and a name, and what is at the place does not go on with them. -/
inductive ParameterMisfit (ts : List Token) (start close : Nat) : Misfit → Prop
  /-- A type should be there. -/
  | type {k : Nat} {t : Token} {ps : List Parameter} (hstart : start < k) (hclose : k < close)
      (ht : ts[k]? = some t) (hcomma : t ≠ .operator .comma) (h : ∀ type, t ≠ .type type)
      (hbefore : (between ts start k).filter (· ≠ .operator .comma) = parameterTokens ps) :
      ParameterMisfit ts start close ⟨k, .parameterType, some t⟩
  /-- A name should be there, behind a type. The closing parenthesis may stand in its place. -/
  | name {k : Nat} {t : Token} {type : ValueType} {ps : List Parameter} (hstart : start < k)
      (hclose : k ≤ close) (ht : ts[k]? = some t) (hcomma : t ≠ .operator .comma)
      (h : ∀ name, t ≠ .ident name)
      (hbefore : (between ts start k).filter (· ≠ .operator .comma)
        = parameterTokens ps ++ [.type type]) :
      ParameterMisfit ts start close ⟨k, .parameterName, some t⟩

/-- What is wrong with the function of a signature. -/
inductive SignatureMisfit (ts : List Token) (i : Nat) (name : Text) : Misfit → Prop
  /-- The parameters have no end. -/
  | unclosed (h : ∀ close, ¬ FirstClose ts (i + 2) close) :
      SignatureMisfit ts i name ⟨i + 2, .parametersEnd name, none⟩
  /-- They end, and one of them is not complete. -/
  | parameters {close : Nat} {m : Misfit} (hclose : FirstClose ts (i + 2) close)
      (h : ParameterMisfit ts (i + 2) close m) : SignatureMisfit ts i name m
  /-- They are complete, and the body is not. -/
  | body {close : Nat} {parameters : List Parameter} {m : Misfit}
      (hclose : FirstClose ts (i + 2) close)
      (hps : (between ts (i + 2) close).filter (· ≠ .operator .comma) = parameterTokens parameters)
      (h : ScopeMisfit ts (close + 1) (.body name) m) : SignatureMisfit ts i name m

/-- The flaw that comes first: that of the global region if it is not complete, and otherwise that
of the first function that is not. -/
inductive FirstMisfit (ts : List Token) (m : Misfit) : Prop
  | globals (hno : ∀ gs, ¬ GlobalTokens ts gs) (h : GlobalMisfit ts m)
  | function {i : Nat} {result : ValueType} {name : Text} (hglobals : ∃ gs, GlobalTokens ts gs)
      (hs : SignatureAt ts i result name) (hno : ∀ f, ¬ DeclaredAt ts i f)
      (h : SignatureMisfit ts i name m)
      (hleast : ∀ k < i, ∀ result name, SignatureAt ts k result name → ∃ f, DeclaredAt ts k f)

/-! ### Scopes -/

/-- A scope that is not read has a flaw. -/
theorem scopeMisfit_of_readScope {ts : List Token} {start : Nat} {opening : Expected} {m : Misfit}
    (h : readScope start opening (ts.drop start) = .error m) : ScopeMisfit ts start opening m := by
  by_cases ho : ts[start]? = some (.operator .openBrace)
  · have hopen : ∀ close, ¬ Matches ts start close := by
      intro close hm
      rw [readScope_eq_ok_iff.2 ⟨close, hm, rfl⟩] at h
      cases h
    rw [drop_eq_of_getElem? ho, readScope] at h
    split at h
    · cases h
    · cases h
      exact .unclosed ho hopen
  · rw [readScope] at h
    · cases h
      rw [List.head?_drop]
      exact .missing ho
    · intro inner hdrop
      exact ho (getElem?_eq_of_drop_eq hdrop).1

/-- A global region that is not read has a flaw. -/
theorem globalMisfit_of_globalRegion {ts : List Token} {m : Misfit}
    (h : globalRegion ts = .error m) : GlobalMisfit ts m := by
  rw [globalRegion] at h
  split at h
  · next hlt =>
      have hfirst := (findIdx_eq_iff (t := .keyword .globals) (by simp [Token.isKeyword])).1
        ⟨rfl, hlt⟩
      refine ⟨_, ⟨hfirst.1, hfirst.2⟩, scopeMisfit_of_readScope ?_⟩
      cases hscope : readScope (ts.findIdx (·.isKeyword .globals) + 1) .globalScope
          (ts.drop (ts.findIdx (·.isKeyword .globals) + 1)) with
      | ok body =>
          rw [hscope] at h
          cases h
      | error m' =>
          rw [hscope] at h
          cases h
          rfl
  · cases h

/-! ### Parameters -/

/-- Tokens that carry their places, commas aside: one of them, those before it, and where it is. -/
theorem getElem?_of_filter_zipIdx {ts : List Token} {start k : Nat} {t : Token}
    {before behind : List (Token × Nat)}
    (h : (ts.zipIdx start).filter (fun item => !item.1.isOperator .comma)
      = before ++ (t, k) :: behind) :
    ∃ n, k = start + n ∧ ts[n]? = some t ∧ t ≠ .operator .comma ∧
      (ts.take n).filter (· ≠ .operator .comma) = before.map Prod.fst := by
  induction ts generalizing start before with
  | nil => simp at h
  | cons u ts ih =>
      rw [List.zipIdx_cons] at h
      by_cases hu : u = .operator .comma
      · rw [List.filter_cons_of_neg (by simp [hu, Token.isOperator])] at h
        obtain ⟨n, rfl, ht, hcomma, hbefore⟩ := ih h
        exact ⟨n + 1, by omega, ht, hcomma, by simpa [hu] using hbefore⟩
      · rw [List.filter_cons_of_pos (by simpa [Token.isOperator] using hu)] at h
        cases before with
        | nil =>
            cases h
            exact ⟨0, rfl, rfl, hu, rfl⟩
        | cons item before =>
            rw [List.cons_append, List.cons.injEq] at h
            obtain ⟨rfl, h⟩ := h
            obtain ⟨n, rfl, ht, hcomma, hbefore⟩ := ih h
            exact ⟨n + 1, by omega, ht, hcomma, by simpa [hu] using hbefore⟩

/-- The same, for the tokens between two places of a stream. -/
theorem getElem?_of_filter_between {ts : List Token} {start finish k : Nat} {t : Token}
    {before behind : List (Token × Nat)} (hle : start + 1 ≤ finish)
    (h : ((between ts start finish).zipIdx (start + 1)).filter
      (fun item => !item.1.isOperator .comma) = before ++ (t, k) :: behind) :
    start < k ∧ k < finish ∧ ts[k]? = some t ∧ t ≠ .operator .comma ∧
      (between ts start k).filter (· ≠ .operator .comma) = before.map Prod.fst := by
  obtain ⟨size, rfl⟩ := Nat.exists_eq_add_of_le hle
  rw [between_add] at h
  obtain ⟨n, rfl, ht, hcomma, hbefore⟩ := getElem?_of_filter_zipIdx h
  obtain ⟨hn, hget⟩ := List.getElem?_eq_some_iff.1 ht
  have hsize : n < size := Nat.lt_of_lt_of_le hn (List.length_take_le _ _)
  rw [List.getElem?_take_of_lt hsize, List.getElem?_drop] at ht
  rw [List.take_take, Nat.min_eq_left (Nat.le_of_lt hsize), ← between_add] at hbefore
  exact ⟨by omega, by omega, ht, hcomma, hbefore⟩

/-- **Parameters that are not read have a flaw**: the first token that does not go on with the pairs
before it. Behind the last type the end of the parameters is such a token. -/
theorem exists_of_readParameters {close : Nat} {items : List (Token × Nat)} {m : Misfit}
    (h : readParameters (close, some (.operator .closeParen)) items = .error m) :
    ∃ before t k behind ps,
      items = before ++ (t, k) :: behind ∧ (∀ type, t ≠ .type type) ∧
        before.map Prod.fst = parameterTokens ps ∧ m = ⟨k, .parameterType, some t⟩ ∨
      ∃ type, items ++ [(.operator .closeParen, close)] = before ++ (t, k) :: behind ∧
        (∀ name, t ≠ .ident name) ∧
        before.map Prod.fst = parameterTokens ps ++ [.type type] ∧
        m = ⟨k, .parameterName, some t⟩ := by
  fun_induction readParameters (close, some (.operator .closeParen)) items with
  | case1 => cases h
  | case2 type place =>
      cases h
      exact ⟨[(.type type, place)], _, _, [], [], .inr ⟨type, rfl, by rintro _ ⟨⟩, rfl, rfl⟩⟩
  | case3 type place name place' rest ih =>
      rcases bind_eq_error_iff.1 h with h | ⟨others, -, ⟨⟩⟩
      obtain ⟨before, t, k, behind, ps, hflaw⟩ := ih h
      refine ⟨(.type type, place) :: (.ident name, place') :: before, t, k, behind,
        ⟨type, name, type.zero⟩ :: ps, ?_⟩
      rcases hflaw with ⟨hrest, ht, hbefore, hm⟩ | ⟨type', hrest, ht, hbefore, hm⟩
      · refine .inl ⟨by rw [hrest]; rfl, ht, ?_, hm⟩
        rw [parameterTokens_cons, ← hbefore]
        rfl
      · refine .inr ⟨type', by rw [List.cons_append, List.cons_append, hrest]; rfl, ht, ?_, hm⟩
        rw [parameterTokens_cons, List.cons_append, List.cons_append, ← hbefore]
        rfl
  | case4 type place other place' rest hother =>
      cases h
      exact ⟨[(.type type, place)], other, place', rest ++ [(.operator .closeParen, close)], [],
        .inr ⟨type, rfl, fun name ht => hother name ht, rfl, rfl⟩⟩
  | case5 other place rest hother =>
      cases h
      exact ⟨[], other, place, rest, [], .inl ⟨rfl, fun type ht => hother type ht, rfl, rfl⟩⟩

/-- The same, by place. -/
theorem parameterMisfit_of_readParameters {ts : List Token} {start close : Nat} {m : Misfit}
    (hclose : FirstClose ts start close)
    (h : readParameters (close, some (.operator .closeParen))
      (((between ts start close).zipIdx (start + 1)).filter
        fun item => !item.1.isOperator .comma) = .error m) :
    ParameterMisfit ts start close m := by
  obtain ⟨before, t, k, behind, ps, hflaw⟩ := exists_of_readParameters h
  rcases hflaw with ⟨hitems, ht, hbefore, rfl⟩ | ⟨type, hitems, ht, hbefore, rfl⟩
  · obtain ⟨hstart, hk, hget, hcomma, hpairs⟩ := getElem?_of_filter_between hclose.lt hitems
    exact .type hstart hk hget hcomma ht (hpairs.trans hbefore)
  · -- With the closing parenthesis the items are those up to the place behind it.
    have hend : between ts start (close + 1)
        = between ts start close ++ [.operator .closeParen] := by
      rw [between_eq_append hclose.here hclose.lt (Nat.lt_succ_self close)]
      simp [between]
    have hplace : start + 1 + (between ts start close).length = close := by
      have hlt := (List.getElem?_eq_some_iff.1 hclose.here).1
      have := hclose.lt
      simp only [between, List.length_drop, List.length_take]
      omega
    have hall : ((between ts start (close + 1)).zipIdx (start + 1)).filter
        (fun item => !item.1.isOperator .comma) = before ++ (t, k) :: behind := by
      rw [← hitems, hend, List.zipIdx_append, List.filter_append, hplace]
      rfl
    obtain ⟨hstart, hk, hget, hcomma, hpairs⟩ :=
      getElem?_of_filter_between (Nat.le_succ_of_le hclose.lt) hall
    exact .name hstart (Nat.le_of_lt_succ hk) hget hcomma ht (hpairs.trans hbefore)

/-! ### Functions -/

/-- **A function that is not read has a flaw**, and its flaws are looked for from left to right. -/
theorem signatureMisfit_of_read {ts : List Token} {s : Signature} {m : Misfit}
    (hrest : s.rest = ts.drop (s.index + 3)) (h : s.read = .error m) :
    SignatureMisfit ts s.index s.name m := by
  by_cases hlt : s.rest.findIdx (·.isOperator .closeParen) < s.rest.length
  · have hclose := firstClose_iff.2 ⟨rfl, hrest ▸ hlt⟩
    rw [Signature.read_of_firstClose hrest hclose] at h
    rcases bind_eq_error_iff.1 h with hps | ⟨parameters, hps, h⟩
    · exact .parameters hclose (parameterMisfit_of_readParameters hclose hps)
    rw [readParameters_eq_ok_iff, Signature.map_fst_filter_zipIdx] at hps
    rcases bind_eq_error_iff.1 h with hbody | ⟨body, -, ⟨⟩⟩
    exact .body hclose hps.1 (scopeMisfit_of_readScope hbody)
  · rw [Signature.read_of_not_lt hlt] at h
    cases h
    refine .unclosed fun close hclose => hlt ?_
    obtain ⟨n, rfl⟩ := Nat.exists_eq_add_of_le (Nat.succ_le_of_lt hclose.lt)
    obtain ⟨hn, hlt⟩ := firstClose_iff.1 hclose
    rw [hrest]
    exact hn ▸ hlt

/-- Reading one after another fails with the first that fails. -/
theorem mapM_eq_error {α β : Type} {g : α → Except Misfit β} {as : List α} {m : Misfit}
    (h : as.mapM g = .error m) :
    ∃ before a behind, as = before ++ a :: behind ∧ (∀ b ∈ before, ∃ y, g b = .ok y) ∧
      g a = .error m := by
  induction as with
  | nil => cases h
  | cons a as ih =>
      rw [List.mapM_cons] at h
      rcases bind_eq_error_iff.1 h with ha | ⟨b, hb, h⟩
      · exact ⟨[], a, as, rfl, by rintro _ ⟨⟩, ha⟩
      rcases bind_eq_error_iff.1 h with has | ⟨bs, -, ⟨⟩⟩
      obtain ⟨before, a', behind, rfl, hbefore, ha'⟩ := ih has
      refine ⟨a :: before, a', behind, rfl, ?_, ha'⟩
      rintro c (_ | ⟨_, hc⟩)
      · exact ⟨b, hb⟩
      · exact hbefore c hc

/-- The functions of a stream that are not all read have a first that is not. -/
theorem exists_signatureMisfit {ts : List Token} {m : Misfit}
    (h : (signatures ts).mapM Signature.read = .error m) :
    ∃ i result name, SignatureAt ts i result name ∧ (∀ f, ¬ DeclaredAt ts i f) ∧
      SignatureMisfit ts i name m ∧
      ∀ k < i, ∀ result name, SignatureAt ts k result name → ∃ f, DeclaredAt ts k f := by
  obtain ⟨before, s, behind, hsplit, hbefore, hs⟩ := mapM_eq_error h
  have hmem : s ∈ signatures ts := by
    rw [hsplit]
    exact List.mem_append_right before List.mem_cons_self
  obtain ⟨hsig, hrest⟩ := mem_signatures.1 hmem
  refine ⟨s.index, s.result, s.name, hsig, fun f hf => ?_, signatureMisfit_of_read hrest hs, ?_⟩
  · rw [(Signature.read_eq_ok_iff hsig hrest).2 hf] at hs
    cases hs
  · intro k hk result name hsig'
    have hmem' : Signature.mk k result name (ts.drop (k + 3)) ∈ signatures ts :=
      mem_signatures.2 ⟨hsig', rfl⟩
    -- The signatures are in order, so one that begins before `s` comes before it.
    have hpairwise := pairwise_signaturesFrom ts 0
    rw [← signatures, hsplit, List.pairwise_append] at hpairwise
    rw [hsplit, List.mem_append, List.mem_cons] at hmem'
    rcases hmem' with hb | rfl | hb
    · obtain ⟨f, hf⟩ := hbefore _ hb
      exact ⟨f, (Signature.read_eq_ok_iff hsig' rfl).1 hf⟩
    · exact absurd hk (Nat.lt_irrefl k)
    · exact absurd ((List.pairwise_cons.1 hpairwise.2.1).1 _ hb) (Nat.lt_asymm hk)

/-! ### The whole program -/

/-- What segmentation reports is the flaw that comes first. -/
theorem firstMisfit_of_segment {ts : List Token} {m : Misfit} (h : segment ts = .error m) :
    FirstMisfit ts m := by
  rcases bind_eq_error_iff.1 h with hregion | ⟨region, hregion, h⟩
  · refine .globals (fun gs hgs => ?_) (globalMisfit_of_globalRegion hregion)
    obtain ⟨region, hok, -⟩ := globalRegion_eq_ok_iff.2 hgs
    rw [hok] at hregion
    cases hregion
  · rcases bind_eq_error_iff.1 h with hfunctions | ⟨fs, -, ⟨⟩⟩
    obtain ⟨i, result, name, hs, hno, hm, hleast⟩ := exists_signatureMisfit hfunctions
    exact .function ⟨_, globalRegion_eq_ok_iff.1 ⟨region, hregion, rfl⟩⟩ hs hno hm hleast

/-! ### One misfit for each stream -/

theorem length_parameterTokens (ps : List Parameter) :
    (parameterTokens ps).length = 2 * ps.length := by
  induction ps with
  | nil => rfl
  | cons p ps ih =>
      rw [parameterTokens_cons, List.length_cons, List.length_cons, ih, List.length_cons]
      omega

/-- Pairs are not pairs and one type more. -/
theorem parameterTokens_ne_concat {ps qs : List Parameter} {type : ValueType} :
    parameterTokens ps ≠ parameterTokens qs ++ [.type type] := by
  intro h
  have hlength := congrArg List.length h
  rw [List.length_append, length_parameterTokens, length_parameterTokens,
    List.length_singleton] at hlength
  omega

/-- Whether tokens are pairs of a type and a name, the last of which may lack its name. -/
def ArePairs (ts : List Token) : Prop :=
  ∃ ps, ts = parameterTokens ps ∨ ∃ type, ts = parameterTokens ps ++ [.type type]

/-- What goes on behind pairs is a type, and behind this a name. -/
theorem ArePairs.of_append {ps : List Parameter} {us : List Token}
    (h : ArePairs (parameterTokens ps ++ us)) : ArePairs us := by
  induction ps with
  | nil => exact h
  | cons p ps ih =>
      refine ih ?_
      obtain ⟨- | ⟨q, qs⟩, h | ⟨type, h⟩⟩ := h
      · cases h
      · cases h
      · exact ⟨qs, .inl (List.cons.inj (List.cons.inj h).2).2⟩
      · exact ⟨qs, .inr ⟨type, (List.cons.inj (List.cons.inj h).2).2⟩⟩

theorem ArePairs.exists_type {t : Token} {us : List Token} (h : ArePairs (t :: us)) :
    ∃ type, t = .type type := by
  obtain ⟨- | ⟨p, ps⟩, h | ⟨type, h⟩⟩ := h
  · cases h
  · exact ⟨type, (List.cons.inj h).1⟩
  · exact ⟨p.type, (List.cons.inj h).1⟩
  · exact ⟨p.type, (List.cons.inj h).1⟩

theorem ArePairs.exists_name {t u : Token} {us : List Token} (h : ArePairs (t :: u :: us)) :
    ∃ name, u = .ident name := by
  obtain ⟨- | ⟨p, ps⟩, h | ⟨type, h⟩⟩ := h
  · cases h
  · cases h
  · exact ⟨p.name, (List.cons.inj (List.cons.inj h).2).1⟩
  · exact ⟨p.name, (List.cons.inj (List.cons.inj h).2).1⟩

namespace ParameterMisfit

variable {ts : List Token} {start close : Nat} {m m' : Misfit}

/-- Before the flaw there are pairs. -/
theorem arePairs (h : ParameterMisfit ts start close m) :
    ArePairs ((between ts start m.index).filter (· ≠ .operator .comma)) := by
  cases h with
  | type _ _ _ _ _ hbefore => exact ⟨_, .inl hbefore⟩
  | name _ _ _ _ _ hbefore => exact ⟨_, .inr ⟨_, hbefore⟩⟩

/-- Behind it there are none. -/
theorem not_arePairs (h : ParameterMisfit ts start close m) {k : Nat} (hk : m.index < k) :
    ¬ ArePairs ((between ts start k).filter (· ≠ .operator .comma)) := by
  have hsplit {i : Nat} {t : Token} (hstart : start < i) (hi : i < k) (ht : ts[i]? = some t)
      (hcomma : t ≠ .operator .comma) :
      (between ts start k).filter (· ≠ .operator .comma)
        = (between ts start i).filter (· ≠ .operator .comma)
          ++ t :: (between ts i k).filter (· ≠ .operator .comma) := by
    rw [between_eq_append ht hstart hi, List.filter_append,
      List.filter_cons_of_pos (by simpa using hcomma)]
  intro hpairs
  cases h with
  | type hstart _ ht hcomma hno hbefore =>
      rw [hsplit hstart hk ht hcomma, hbefore] at hpairs
      obtain ⟨type, htype⟩ := hpairs.of_append.exists_type
      exact hno type htype
  | name hstart _ ht hcomma hno hbefore =>
      rw [hsplit hstart hk ht hcomma, hbefore, List.append_assoc] at hpairs
      obtain ⟨name, hname⟩ := hpairs.of_append.exists_name
      exact hno name hname

/-- With a flaw the parameters are not complete. -/
theorem ne_parameterTokens (h : ParameterMisfit ts start close m) (ps : List Parameter) :
    (between ts start close).filter (· ≠ .operator .comma) ≠ parameterTokens ps := by
  intro hps
  by_cases hlt : m.index < close
  · exact h.not_arePairs hlt ⟨ps, .inl hps⟩
  · cases h with
    | type _ hclose _ _ _ _ => exact hlt hclose
    | name _ hclose _ _ _ hbefore =>
        obtain rfl := Nat.le_antisymm hclose (Nat.not_lt.1 hlt)
        exact parameterTokens_ne_concat (hps.symm.trans hbefore)

/-- Parameters have at most one flaw that comes first. -/
theorem unique (h : ParameterMisfit ts start close m) (h' : ParameterMisfit ts start close m') :
    m = m' := by
  rcases Nat.lt_trichotomy m.index m'.index with hlt | heq | hlt
  · exact absurd h'.arePairs (h.not_arePairs hlt)
  · cases h with
    | type _ _ ht _ _ hbefore =>
        cases h' with
        | type _ _ ht' _ _ _ =>
            obtain rfl : _ = _ := heq
            rw [Option.some.inj (ht.symm.trans ht')]
        | name _ _ _ _ _ hbefore' =>
            obtain rfl : _ = _ := heq
            exact absurd (hbefore.symm.trans hbefore') parameterTokens_ne_concat
    | name _ _ ht _ _ hbefore =>
        cases h' with
        | type _ _ _ _ _ hbefore' =>
            obtain rfl : _ = _ := heq
            exact absurd (hbefore'.symm.trans hbefore) parameterTokens_ne_concat
        | name _ _ ht' _ _ _ =>
            obtain rfl : _ = _ := heq
            rw [Option.some.inj (ht.symm.trans ht')]
  · exact absurd h.arePairs (h'.not_arePairs hlt)

end ParameterMisfit

theorem ScopeMisfit.unique {ts : List Token} {start : Nat} {opening : Expected} {m m' : Misfit}
    (h : ScopeMisfit ts start opening m) (h' : ScopeMisfit ts start opening m') : m = m' := by
  cases h with
  | missing hno =>
      cases h' with
      | missing _ => rfl
      | unclosed ho _ => exact absurd ho hno
  | unclosed ho _ =>
      cases h' with
      | missing hno => exact absurd ho hno
      | unclosed _ _ => rfl

theorem SignatureMisfit.unique {ts : List Token} {i : Nat} {name : Text} {m m' : Misfit}
    (h : SignatureMisfit ts i name m) (h' : SignatureMisfit ts i name m') : m = m' := by
  cases h with
  | unclosed hno =>
      cases h' with
      | unclosed _ => rfl
      | parameters hclose _ | body hclose _ _ => exact absurd hclose (hno _)
  | parameters hclose hps =>
      cases h' with
      | unclosed hno => exact absurd hclose (hno _)
      | parameters hclose' hps' =>
          obtain rfl := hclose.unique hclose'
          exact hps.unique hps'
      | body hclose' hall _ =>
          obtain rfl := hclose.unique hclose'
          exact absurd hall (hps.ne_parameterTokens _)
  | body hclose hall hscope =>
      cases h' with
      | unclosed hno => exact absurd hclose (hno _)
      | parameters hclose' hps' =>
          obtain rfl := hclose.unique hclose'
          exact absurd hall (hps'.ne_parameterTokens _)
      | body hclose' _ hscope' =>
          obtain rfl := hclose.unique hclose'
          exact hscope.unique hscope'

/-- **A stream has at most one flaw that comes first.** -/
theorem FirstMisfit.unique {ts : List Token} {m m' : Misfit} (h : FirstMisfit ts m)
    (h' : FirstMisfit ts m') : m = m' := by
  cases h with
  | globals hno h =>
      cases h' with
      | globals _ h' =>
          obtain ⟨i, hi, hscope⟩ := h
          obtain ⟨i', hi', hscope'⟩ := h'
          obtain rfl := hi.unique hi'
          exact hscope.unique hscope'
      | function hglobals _ _ _ _ =>
          obtain ⟨gs, hgs⟩ := hglobals
          exact absurd hgs (hno gs)
  | @function i result name hglobals hs hno h hleast =>
      cases h' with
      | globals hno' _ =>
          obtain ⟨gs, hgs⟩ := hglobals
          exact absurd hgs (hno' gs)
      | @function i' result' name' _ hs' hno' h' hleast' =>
          obtain rfl : i = i' := by
            rcases Nat.lt_trichotomy i i' with hlt | heq | hlt
            · obtain ⟨f, hf⟩ := hleast' i hlt _ _ hs
              exact absurd hf (hno f)
            · exact heq
            · obtain ⟨f, hf⟩ := hleast i' hlt _ _ hs'
              exact absurd hf (hno' f)
          obtain rfl : name = name' :=
            Token.ident.inj (Option.some.inj (hs.ident.symm.trans hs'.ident))
          exact h.unique h'

/-- **Segmentation fails exactly with the flaw that comes first.** -/
theorem segment_eq_error_iff {ts : List Token} {m : Misfit} :
    segment ts = .error m ↔ FirstMisfit ts m := by
  refine ⟨firstMisfit_of_segment, fun h => ?_⟩
  cases hs : segment ts with
  | error m' => rw [h.unique (firstMisfit_of_segment hs)]
  | ok p =>
      obtain ⟨gs, ds, hgs, hds, -⟩ := segment_eq_ok hs
      cases h with
      | globals hno _ => exact absurd hgs (hno gs)
      | function _ hsig hno _ _ =>
          obtain ⟨f, hf⟩ := hds.complete _ _ _ hsig
          exact absurd (hds.sound _ hf) (hno f)

/-! ### Where misfits point -/

/-- A misfit points at a token or right behind the last one, and tells what is there if it does not
tell of the end. -/
structure Misfit.Placed (ts : List Token) (m : Misfit) : Prop where
  /-- The place. -/
  le : m.index ≤ ts.length
  /-- What is there. -/
  found : ∀ t, m.found = some t → ts[m.index]? = some t

/-- The misfit of a scope is where the scope should begin. -/
theorem ScopeMisfit.placed {ts : List Token} {start : Nat} {opening : Expected} {m : Misfit}
    (h : ScopeMisfit ts start opening m) (hstart : start ≤ ts.length) : m.Placed ts := by
  cases h with
  | missing _ => exact ⟨hstart, fun t ht => ht⟩
  | unclosed _ _ => exact ⟨hstart, by rintro _ ⟨⟩⟩

theorem ParameterMisfit.placed {ts : List Token} {start close : Nat} {m : Misfit}
    (h : ParameterMisfit ts start close m) : m.Placed ts := by
  cases h with
  | type _ _ ht _ _ _ | name _ _ ht _ _ _ =>
      refine ⟨Nat.le_of_lt (List.getElem?_eq_some_iff.1 ht).1, ?_⟩
      rintro _ ⟨⟩
      exact ht

theorem SignatureMisfit.placed {ts : List Token} {i : Nat} {result : ValueType} {name : Text}
    {m : Misfit} (h : SignatureMisfit ts i name m) (hs : SignatureAt ts i result name) :
    m.Placed ts := by
  cases h with
  | unclosed _ =>
      exact ⟨Nat.le_of_lt (List.getElem?_eq_some_iff.1 hs.openParen).1, by rintro _ ⟨⟩⟩
  | parameters _ h => exact h.placed
  | body hclose _ h => exact h.placed (List.getElem?_eq_some_iff.1 hclose.here).1

/-- **Every misfit points into the stream.** -/
theorem FirstMisfit.placed {ts : List Token} {m : Misfit} (h : FirstMisfit ts m) :
    m.Placed ts := by
  cases h with
  | globals _ h =>
      obtain ⟨i, hi, hscope⟩ := h
      exact hscope.placed (List.getElem?_eq_some_iff.1 hi.here).1
  | function _ hs _ h _ => exact h.placed hs

end IntLang
