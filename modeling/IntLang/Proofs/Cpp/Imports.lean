import IntLang.Cpp.Unit
import IntLang.Proofs.Program.Segmentation

/-!
# Imports, by place

The global region is gone over with steps of one, two or three tokens: an `import` takes the name
behind it with it, and a semicolon behind that. Here the same is told for each place on its own.
`importAt?` says which name is imported at a place, by the token there and the next one, and
`itemAt?` what becomes of the token: it is the beginning of an import, it belongs to one that begins
before it, or it stays as it is.

A resolver that answers by a function is run with a record of the names it was asked for
(`Resolver.recorded`), so that an answer comes with the calls it took.

## Main results

* `items_eq_filterMap`: the steps leave out no place and take none twice;
* `headers_items`: the names that are asked for are those that follow the word `import`;
* `Resolver.spliced_recorded_ok` and `Resolver.spliced_recorded_error`: each of them is asked for
  once, in order, up to the first that fails.
-/

namespace IntLang

/-! ### Places of the global region -/

/-- The name that is imported at a place: the word `import` is there, and right behind it the
name. -/
def importAt? (gs : List Token) (i : Nat) : Option Text :=
  match gs[i]?, gs[i + 1]? with
  | some (.keyword .importHeader), some (.ident name) => some name
  | _, _ => none

/-- Whether the token at a place belongs to an import that begins before it: as its name, or as the
semicolon right behind its name. -/
def takenAt (gs : List Token) (i : Nat) : Bool :=
  (1 ≤ i && (importAt? gs (i - 1)).isSome)
    || (2 ≤ i && (importAt? gs (i - 2)).isSome && gs[i]? = some (.operator .semicolon))

/-- What becomes of the token at a place. -/
def itemAt? (gs : List Token) (i : Nat) : Option Item :=
  match importAt? gs i with
  | some name => some (.header name)
  | none => if takenAt gs i then none else (gs[i]?).map .token

/-- The names that stand right behind the word `import`, in order. -/
def importedNames (gs : List Token) : List Text := (List.range gs.length).filterMap (importAt? gs)

/-- A place is taken by the import one place before it, or two places before it if a semicolon is
there. -/
theorem takenAt_iff {gs : List Token} {i : Nat} :
    takenAt gs i = true ↔ (∃ k, i = k + 1 ∧ (importAt? gs k).isSome = true) ∨
      ∃ k, i = k + 2 ∧ (importAt? gs k).isSome = true ∧
        gs[i]? = some (.operator .semicolon) := by
  simp only [takenAt, Bool.or_eq_true, Bool.and_eq_true, decide_eq_true_eq, and_assoc]
  constructor
  · rintro (⟨hi, h⟩ | ⟨hi, h⟩)
    · exact Or.inl ⟨i - 1, by omega, h⟩
    · exact Or.inr ⟨i - 2, by omega, h⟩
  · rintro (⟨k, rfl, h⟩ | ⟨k, rfl, h⟩)
    · exact Or.inl ⟨by omega, h⟩
    · exact Or.inr ⟨by omega, h⟩

/-- Only at the word `import` a name is imported. -/
theorem importAt?_eq_none {gs : List Token} {i : Nat}
    (h : gs[i]? ≠ some (.keyword .importHeader)) : importAt? gs i = none := by
  unfold importAt?
  split
  · next hi _ => exact absurd hi h
  · rfl

/-- At a word `import` the name behind it is imported. -/
theorem importAt?_eq_some_iff {gs : List Token} {i : Nat} {name : Text} :
    importAt? gs i = some name ↔
      gs[i]? = some (.keyword .importHeader) ∧ gs[i + 1]? = some (.ident name) := by
  unfold importAt?
  constructor
  · intro h
    split at h
    · next hi hn =>
        cases h
        exact ⟨hi, hn⟩
    · cases h
  · rintro ⟨hi, hn⟩
    rw [hi, hn]

/-- A place is not taken if no import begins before it that reaches there. -/
theorem takenAt_eq_false {gs : List Token} {i : Nat} (h1 : ∀ k, i = k + 1 → importAt? gs k = none)
    (h2 : ∀ k, i = k + 2 → importAt? gs k ≠ none → gs[i]? ≠ some (.operator .semicolon)) :
    takenAt gs i = false := by
  rw [← Bool.not_eq_true, takenAt_iff]
  rintro (⟨k, hk, hs⟩ | ⟨k, hk, hs, hi⟩)
  · rw [h1 k hk] at hs
    cases hs
  · exact h2 k hk (fun hnone => by rw [hnone] at hs; cases hs) hi

/-- At an import there is its header. -/
theorem itemAt?_of_import {gs : List Token} {i : Nat} {name : Text}
    (h : importAt? gs i = some name) : itemAt? gs i = some (.header name) := by
  rw [itemAt?, h]

/-- At a place that an import before it takes there is nothing more. -/
theorem itemAt?_of_taken {gs : List Token} {i : Nat} (h : importAt? gs i = none)
    (ht : takenAt gs i = true) : itemAt? gs i = none := by
  rw [itemAt?, h]
  exact if_pos ht

/-- At any other place there is the token. -/
theorem itemAt?_of_token {gs : List Token} {i : Nat} {t : Token} (h : importAt? gs i = none)
    (ht : takenAt gs i = false) (hi : gs[i]? = some t) : itemAt? gs i = some (.token t) := by
  rw [itemAt?, h, ht, hi]
  rfl

/-- The name of an import is taken by it, and begins no other. -/
theorem takenAt_succ_of_import {gs : List Token} {i : Nat} {name : Text}
    (h : importAt? gs i = some name) :
    importAt? gs (i + 1) = none ∧ takenAt gs (i + 1) = true := by
  refine ⟨importAt?_eq_none ?_, takenAt_iff.2 (Or.inl ⟨i, rfl, by rw [h]; rfl⟩)⟩
  rw [(importAt?_eq_some_iff.1 h).2]
  rintro ⟨⟩

/-- From a place on that no import takes, the steps are told by the places. -/
theorem items_eq_range' {gs rest : List Token} {i : Nat} (hrest : gs.drop i = rest)
    (h : takenAt gs i = false) :
    items rest = (List.range' i rest.length).filterMap (itemAt? gs) := by
  -- `i` is the place that the steps have come to. One case for each kind of step: it leads to a
  -- place that no import takes either.
  fun_induction items rest generalizing i with
  | case1 => rfl
  | case2 name rest ih =>
      obtain ⟨h0, hrest⟩ := getElem?_eq_of_drop_eq hrest
      obtain ⟨h1, hrest⟩ := getElem?_eq_of_drop_eq hrest
      obtain ⟨h2, hrest⟩ := getElem?_eq_of_drop_eq hrest
      have himport : importAt? gs i = some name := importAt?_eq_some_iff.2 ⟨h0, h1⟩
      obtain ⟨hname, htaken⟩ := takenAt_succ_of_import himport
      have hsemi : importAt? gs (i + 1 + 1) = none := importAt?_eq_none (by rw [h2]; rintro ⟨⟩)
      have htaken' : takenAt gs (i + 1 + 1) = true :=
        takenAt_iff.2 (Or.inr ⟨i, rfl, by rw [himport]; rfl, h2⟩)
      have hnext : takenAt gs (i + 1 + 1 + 1) = false := by
        refine takenAt_eq_false (fun k hk => ?_) fun k hk hne => absurd ?_ hne
        · obtain rfl : i + 1 + 1 = k := by omega
          exact hsemi
        · obtain rfl : i + 1 = k := by omega
          exact hname
      simp only [List.length_cons, List.range'_succ]
      rw [List.filterMap_cons_some (itemAt?_of_import himport),
        List.filterMap_cons_none (itemAt?_of_taken hname htaken),
        List.filterMap_cons_none (itemAt?_of_taken hsemi htaken'), ih hrest hnext]
  | case3 name rest hsemi ih =>
      obtain ⟨h0, hrest⟩ := getElem?_eq_of_drop_eq hrest
      obtain ⟨h1, hrest⟩ := getElem?_eq_of_drop_eq hrest
      have himport : importAt? gs i = some name := importAt?_eq_some_iff.2 ⟨h0, h1⟩
      obtain ⟨hname, htaken⟩ := takenAt_succ_of_import himport
      have hnext : takenAt gs (i + 1 + 1) = false := by
        refine takenAt_eq_false (fun k hk => ?_) fun k _ _ h2 => ?_
        · obtain rfl : i + 1 = k := by omega
          exact hname
        · exact hsemi _ (hrest.symm.trans (drop_eq_of_getElem? h2))
      simp only [List.length_cons, List.range'_succ]
      rw [List.filterMap_cons_some (itemAt?_of_import himport),
        List.filterMap_cons_none (itemAt?_of_taken hname htaken), ih hrest hnext]
  | case4 t rest hstep hstep' ih =>
      obtain ⟨h0, hrest⟩ := getElem?_eq_of_drop_eq hrest
      have hnone : importAt? gs i = none := by
        rw [Option.eq_none_iff_forall_ne_some]
        intro name himport
        obtain ⟨hi, hn⟩ := importAt?_eq_some_iff.1 himport
        exact hstep' name _ (Option.some.inj (h0.symm.trans hi))
          (hrest.symm.trans (drop_eq_of_getElem? hn))
      have hnext : takenAt gs (i + 1) = false := by
        refine takenAt_eq_false (fun k hk => ?_) fun k hk hne => absurd ?_ hne
        · obtain rfl : i = k := by omega
          exact hnone
        · -- An import one place before `i` would take it.
          obtain rfl : i = k + 1 := by omega
          rw [← Option.not_isSome_iff_eq_none]
          intro hs
          rw [takenAt_iff.2 (Or.inl ⟨k, rfl, hs⟩)] at h
          cases h
      rw [List.length_cons, List.range'_succ,
        List.filterMap_cons_some (itemAt?_of_token hnone h h0), ih hrest hnext]

/-- **The steps leave out no place and take none twice.** -/
theorem items_eq_filterMap (gs : List Token) :
    items gs = (List.range gs.length).filterMap (itemAt? gs) := by
  have h : takenAt gs 0 = false :=
    takenAt_eq_false (fun k hk => by omega) fun k hk => by omega
  rw [items_eq_range' List.drop_zero h, List.range_eq_range']

/-- **The names that are asked for are those that follow the word `import`.** -/
theorem headers_items (gs : List Token) : Item.headers (items gs) = importedNames gs := by
  rw [items_eq_filterMap, Item.headers, List.filterMap_filterMap, importedNames]
  refine List.filterMap_congr fun i _ => ?_
  rw [itemAt?]
  cases importAt? gs i with
  | some name => rfl
  | none =>
      cases takenAt gs i with
      | true => rfl
      | false => cases gs[i]? <;> rfl

/-! ### Resolvers with a record -/

/-- The text of a piece of the global region, given the texts of the headers. -/
def Item.text (text : Text → Text) : Item → Text
  | .header name => text name
  | .token t => Cpp.token t

namespace Resolver

variable {ε : Type}

/-- The answer for a name: a text, or why there is none. -/
def answer : Resolver Id ε → Text → Except (ImportCause ε) Text
  | .absent, _ => .error .noResolver
  | .ask resolve, name =>
    match resolve name with
    | .ok text => .ok text
    | .error cause => .error (.refused cause)

/-- The same resolver, with a record of the names it is asked for. -/
def recorded : Resolver Id ε → Resolver (StateM (List Text)) ε
  | .absent => .absent
  | .ask resolve => .ask fun name => do
    modify (· ++ [name])
    return resolve name

/-- The record of names that were looked for: where there are no headers, no one is asked. -/
def calls : Resolver Id ε → List Text → List Text
  | .absent, _ => []
  | .ask _, names => names

/-- The record of names that were looked for one after another. -/
theorem calls_append (r : Resolver Id ε) (names more : List Text) :
    r.calls (names ++ more) = r.calls names ++ r.calls more := by
  cases r <;> rfl

/-- Looking for one header adds its name to the record. -/
theorem header_recorded (r : Resolver Id ε) (name : Text) (record : List Text) :
    (r.recorded.header name).run record
      = ((r.answer name).mapError (ImportError.mk name), record ++ r.calls [name]) := by
  cases r with
  | absent =>
      rw [calls, List.append_nil]
      rfl
  | ask resolve =>
      cases h : resolve name with
      | ok text =>
          simp only [recorded, header, answer, h]
          rfl
      | error cause =>
          simp only [recorded, header, answer, h]
          rfl

/-- The text of a piece and then that of others, if both are found. -/
theorem spliced_cons_ok {r : Resolver (StateM (List Text)) ε} {i : Item} {is : List Item}
    {record record' : List Text} {text : Text} (hi : (r.item i).run record = (.ok text, record')) :
    (r.spliced (i :: is)).run record
      = (((r.spliced is).run record').1.map (text ++ ·), ((r.spliced is).run record').2) := by
  rw [spliced, StateT.run_bind, hi]
  show (r.spliced is >>= _).run record' = _
  rw [StateT.run_bind]
  rcases (r.spliced is).run record' with ⟨_ | rest, record''⟩ <;> rfl

/-- Behind a piece that fails nothing is looked for. -/
theorem spliced_cons_error {r : Resolver (StateM (List Text)) ε} {i : Item} {is : List Item}
    {record record' : List Text} {e : ImportError ε}
    (hi : (r.item i).run record = (.error e, record')) :
    (r.spliced (i :: is)).run record = (.error e, record') := by
  rw [spliced, StateT.run_bind, hi]
  rfl

/-- **If all headers are found, each was asked for once, in order**, and the text is that of the
pieces with the headers put in. -/
theorem spliced_recorded_ok {r : Resolver Id ε} {text : Text → Text} {is : List Item}
    (h : ∀ name ∈ Item.headers is, r.answer name = .ok (text name)) (record : List Text) :
    (r.recorded.spliced is).run record
      = (.ok (.concat (is.map (Item.text text))), record ++ r.calls (Item.headers is)) := by
  induction is generalizing record with
  | nil =>
      have hnil : r.calls (Item.headers []) = [] := by cases r <;> rfl
      rw [hnil, List.append_nil]
      rfl
  | cons i is ih =>
      cases i with
      | token t =>
          have htoken : (r.recorded.item (.token t)).run record = (.ok (Cpp.token t), record) := rfl
          rw [spliced_cons_ok htoken, ih h]
          rfl
      | header name =>
          have hheaders : Item.headers (.header name :: is) = [name] ++ Item.headers is := rfl
          rw [hheaders] at h
          have hname : (r.recorded.item (.header name)).run record
              = (.ok (text name), record ++ r.calls [name]) := by
            rw [item, header_recorded, h name List.mem_cons_self]
            rfl
          rw [spliced_cons_ok hname, ih fun n hn => h n (List.mem_cons_of_mem name hn), hheaders,
            calls_append, List.append_assoc]
          rfl

/-- **If a header is not found, those up to it were asked for once, in order**, and no other. -/
theorem spliced_recorded_error {r : Resolver Id ε} {is : List Item} {before behind : List Text}
    {name : Text} {cause : ImportCause ε} (his : Item.headers is = before ++ name :: behind)
    (hbefore : ∀ n ∈ before, ∃ text, r.answer n = .ok text) (hname : r.answer name = .error cause)
    (record : List Text) :
    (r.recorded.spliced is).run record
      = (.error ⟨name, cause⟩, record ++ r.calls (before ++ [name])) := by
  induction is generalizing before record with
  | nil => cases List.append_eq_nil_iff.1 his.symm |>.2
  | cons i is ih =>
      cases i with
      | token t =>
          have htoken : (r.recorded.item (.token t)).run record = (.ok (Cpp.token t), record) := rfl
          rw [spliced_cons_ok htoken, ih his hbefore]
          rfl
      | header n =>
          have hheaders : Item.headers (.header n :: is) = n :: Item.headers is := rfl
          rw [hheaders] at his
          have hrun : (r.recorded.item (.header n)).run record
              = ((r.answer n).mapError (ImportError.mk n), record ++ r.calls [n]) :=
            header_recorded r n record
          cases before with
          | nil =>
              obtain ⟨rfl, -⟩ := List.cons.inj his
              rw [hname] at hrun
              rw [spliced_cons_error hrun]
              rfl
          | cons b before =>
              obtain ⟨rfl, htail⟩ := List.cons.inj his
              obtain ⟨text, htext⟩ := hbefore n List.mem_cons_self
              rw [htext] at hrun
              rw [spliced_cons_ok hrun, ih htail fun m hm => hbefore m (List.mem_cons_of_mem n hm),
                List.append_assoc, ← calls_append]
              rfl

end Resolver

end IntLang
