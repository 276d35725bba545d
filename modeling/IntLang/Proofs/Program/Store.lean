import IntLang.Program
import Mathlib.Data.List.Induction
import Mathlib.Data.List.Nodup

/-!
# Functions under their names

A program keeps two things: what is declared under each name, and the order of the names. The
second is changed only if the first has nothing under the name. `Program.Holds p fs` says that both
of them come from one list of functions, no two of which have one name. Then every name of the order
leads to a function, which has that name, and nothing else is held.

Adding a function to such a program is adding it to the list (`Program.Holds.add`), where it takes
the place of the one that has its name, or else a place of its own at the end. An empty program
holds the empty list, so that a program to which functions were added holds what the list came to
(`Program.Holds.addAll`).

Functions are added by their places in a stream, so that what a program holds in the end can be
told from the places alone: of the functions of one name the last is found
(`Program.get?_addAll_eq_some_iff`), and the names are in the order of their first places
(`Program.pairwise_order_addAll`).
-/

namespace IntLang

/-! ### A list of functions -/

/-- Puts a function in the place of the one that has its name, or else at the end. -/
def addFunction (f : Function) : List Function → List Function
  | [] => [f]
  | g :: gs => if g.name = f.name then f :: gs else g :: addFunction f gs

/-- The names in a list to which a function was added. -/
theorem map_name_addFunction (f : Function) (fs : List Function) :
    (addFunction f fs).map Function.name
      = if f.name ∈ fs.map Function.name then fs.map Function.name
        else fs.map Function.name ++ [f.name] := by
  induction fs with
  | nil => rfl
  | cons g fs ih =>
      rw [addFunction]
      by_cases h : g.name = f.name
      · simp [h]
      · have h' : ¬ f.name = g.name := fun he => h he.symm
        rw [if_neg h, List.map_cons, ih]
        by_cases hmem : f.name ∈ fs.map Function.name <;> simp [hmem, h']

/-- In a list to which a function was added there is only that function and what was there. -/
theorem mem_addFunction {f g : Function} {fs : List Function} (h : f ∈ addFunction g fs) :
    f = g ∨ f ∈ fs := by
  induction fs with
  | nil => exact Or.inl (List.mem_singleton.1 h)
  | cons k fs ih =>
      rw [addFunction] at h
      split at h
      · exact (List.mem_cons.1 h).imp_right (List.mem_cons_of_mem k)
      · rcases List.mem_cons.1 h with rfl | h
        · exact Or.inr List.mem_cons_self
        · exact (ih h).imp_right (List.mem_cons_of_mem k)

/-- If no two functions of a list have one name, no two have one with one more added to it. -/
theorem nodup_map_name_addFunction (f : Function) {fs : List Function}
    (h : (fs.map Function.name).Nodup) : ((addFunction f fs).map Function.name).Nodup := by
  rw [map_name_addFunction]
  split
  · exact h
  · next hnew =>
      rw [← List.concat_eq_append]
      exact h.concat hnew

/-- If no two functions have one name, each is the one found under its name. -/
theorem map_find?_name {fs : List Function} (h : (fs.map Function.name).Nodup) :
    (fs.map Function.name).map (fun name => fs.find? (·.name = name)) = fs.map some := by
  induction fs with
  | nil => rfl
  | cons f fs ih =>
      obtain ⟨hf, hfs⟩ := List.nodup_cons.1 h
      have hfirst : (f :: fs).find? (·.name = f.name) = some f := by simp
      have hothers : (fs.map Function.name).map (fun name => (f :: fs).find? (·.name = name))
          = (fs.map Function.name).map (fun name => fs.find? (·.name = name)) := by
        refine List.map_congr_left fun name hname => List.find?_cons_of_neg ?_
        rw [decide_eq_true_eq]
        rintro rfl
        exact hf hname
      rw [List.map_cons, List.map_cons, hfirst, hothers, ih hfs, List.map_cons]

/-! ### Tables -/

/-- Functions under their names. -/
def namedTable (fs : List Function) : List (Text × Function) := fs.map fun f => (f.name, f)

/-- What is found in a table is what its first row has under the name, or else what is found in the
others. -/
theorem lookup_row (key name : Text) (f : Function) (items : List (Text × Function)) :
    ((key, f) :: items).lookup name = if key = name then some f else items.lookup name := by
  rw [List.lookup_cons]
  by_cases h : key = name
  · simp [h]
  · simp [h, beq_eq_false_iff_ne.2 (Ne.symm h)]

/-- What is found in a table to which a function was added. -/
theorem lookup_enter (key name : Text) (f : Function) (items : List (Text × Function)) :
    (enter key f items).lookup name = if key = name then some f else items.lookup name := by
  induction items with
  | nil => exact lookup_row key name f []
  | cons item items ih =>
      obtain ⟨other, g⟩ := item
      rw [enter, lookup_row other]
      by_cases hother : other = key
      · rw [if_pos hother, lookup_row, hother]
        split <;> rfl
      · rw [if_neg hother, lookup_row, ih]
        by_cases hname : other = name
        · rw [if_pos hname, if_pos hname, if_neg fun h => hother (hname.trans h.symm)]
        · rw [if_neg hname, if_neg hname]

/-- Among functions under their names the first of a name is found. -/
theorem lookup_namedTable (fs : List Function) (name : Text) :
    (namedTable fs).lookup name = fs.find? (·.name = name) := by
  induction fs with
  | nil => rfl
  | cons f fs ih =>
      rw [namedTable, List.map_cons, lookup_row, List.find?_cons, ← namedTable, ih]
      by_cases h : f.name = name <;> simp [h]

/-- A function that is put under its own name is added to the functions. -/
theorem enter_namedTable (f : Function) (fs : List Function) :
    enter f.name f (namedTable fs) = namedTable (addFunction f fs) := by
  induction fs with
  | nil => rfl
  | cons g fs ih =>
      rw [namedTable, List.map_cons, enter, addFunction, ← namedTable, ih]
      split <;> rfl

namespace Program

/-! ### What a program holds -/

/-- A program holds just the functions of a list, each under its name, the names in their order. -/
structure Holds (p : Program) (fs : List Function) : Prop where
  /-- What is declared under the names. -/
  table : p.table = namedTable fs
  /-- The order of the names. -/
  order : p.order = fs.map Function.name
  /-- No two functions have one name. -/
  nodup : (fs.map Function.name).Nodup

/-- An empty program holds nothing. -/
theorem holds_nil (gs : List Token) : Holds { globals := gs } [] :=
  ⟨rfl, rfl, List.nodup_nil⟩

namespace Holds

variable {p q : Program} {fs : List Function}

/-- The function found under a name is the one of that name. -/
theorem get? (h : p.Holds fs) (name : Text) : p.get? name = fs.find? (·.name = name) := by
  rw [Program.get?, h.table, lookup_namedTable]

/-- Exactly the names of the functions lead to one of them. -/
theorem isSome_get? (h : p.Holds fs) {name : Text} :
    (p.get? name).isSome = true ↔ name ∈ p.order := by
  rw [h.get?, List.find?_isSome, h.order]
  simp

/-- Under the names, in their order, are the functions. -/
theorem ordered (h : p.Holds fs) : p.ordered = fs.map some := by
  rw [Program.ordered, funext h.get?, h.order, map_find?_name h.nodup]

/-- The functions of a program are what it holds. -/
theorem functions (h : p.Holds fs) : p.functions = fs := by
  rw [Program.functions, h.ordered, List.filterMap_map]
  exact List.filterMap_some

/-- Two programs that hold the same, and have one global region, are one. -/
theorem ext (hp : p.Holds fs) (hq : q.Holds fs) (hglobals : p.globals = q.globals) : p = q := by
  cases p
  cases q
  obtain ⟨rfl, rfl, -⟩ := hp
  obtain ⟨rfl, rfl, -⟩ := hq
  cases hglobals
  rfl

/-- **Adding a function to a program adds it to what the program holds.** -/
theorem add (h : p.Holds fs) (f : Function) : (p.add f).Holds (addFunction f fs) := by
  refine ⟨?_, ?_, nodup_map_name_addFunction f h.nodup⟩
  · rw [Program.add, h.table, enter_namedTable]
  · simp only [Program.add, h.isSome_get?, map_name_addFunction, h.order]

/-- Adding functions one after another adds each of them. -/
theorem addAll (h : p.Holds fs) (gs : List Function) :
    (p.addAll gs).Holds (gs.foldl (fun fs g => addFunction g fs) fs) := by
  induction gs generalizing p fs with
  | nil => exact h
  | cons g gs ih => exact ih (h.add g)

end Holds

/-- What a program holds is the list of its functions. -/
theorem holds_functions_addAll {p : Program} {hs : List Function} (hp : p.Holds hs)
    (fs : List Function) : (p.addAll fs).Holds (p.addAll fs).functions := by
  have h := hp.addAll fs
  rwa [← h.functions] at h

/-- The functions of a program are what is declared under its names. -/
theorem functions_eq_filterMap (p : Program) : p.functions = p.order.filterMap p.get? :=
  List.filterMap_map ..

/-- A new name comes last. -/
theorem order_add {p : Program} {fs : List Function} (hp : p.Holds fs) (f : Function) :
    (p.add f).order = if f.name ∈ p.order then p.order else p.order ++ [f.name] := by
  simp only [add, hp.isSome_get?]

/-- The names are the old ones and the new one. -/
theorem mem_order_add {p : Program} {fs : List Function} (hp : p.Holds fs) {f : Function}
    {name : Text} : name ∈ (p.add f).order ↔ name ∈ p.order ∨ f.name = name := by
  rw [order_add hp]
  by_cases h : f.name ∈ p.order
  · rw [if_pos h]
    constructor
    · exact Or.inl
    · rintro (hn | rfl)
      · exact hn
      · exact h
  · rw [if_neg h, List.mem_append, List.mem_singleton, eq_comm (a := name)]

/-- The function that was added last is the one found under its name. -/
theorem get?_add (p : Program) (f : Function) (name : Text) :
    (p.add f).get? name = if f.name = name then some f else p.get? name :=
  lookup_enter f.name name f p.table

/-! ### Functions by place -/

/-- Adding some functions and then one more. -/
theorem addAll_concat (p : Program) (fs : List Function) (f : Function) :
    p.addAll (fs ++ [f]) = (p.addAll fs).add f := by
  rw [addAll, List.foldl_append]
  rfl

/-- Adding functions leaves the global region as it was. -/
theorem globals_addAll (p : Program) (fs : List Function) :
    (p.addAll fs).globals = p.globals := by
  induction fs using List.reverseRecOn with
  | nil => rfl
  | append_singleton fs f ih =>
      rw [addAll_concat]
      exact ih

/-- The names are those of the functions that were added. -/
theorem mem_order_addAll {p : Program} (hp : p.Holds []) {fs : List Function}
    {name : Text} : name ∈ (p.addAll fs).order ↔ ∃ f ∈ fs, f.name = name := by
  induction fs using List.reverseRecOn with
  | nil => simp [addAll, hp.order]
  | append_singleton fs f ih =>
      rw [addAll_concat, mem_order_add (hp.addAll fs), ih]
      simp [or_and_right, exists_or]

/-- No two functions have one name. -/
theorem nodup_order_addAll {p : Program} (hp : p.Holds []) (fs : List Function) :
    (p.addAll fs).order.Nodup := by
  rw [(hp.addAll fs).order]
  exact (hp.addAll fs).nodup

/-- No function is held that was not added. -/
theorem mem_functions_addAll {p : Program} (hp : p.Holds []) {fs : List Function}
    {f : Function} (h : f ∈ (p.addAll fs).functions) : f ∈ fs := by
  induction fs using List.reverseRecOn with
  | nil =>
      rw [addAll, List.foldl_nil, hp.functions] at h
      cases h
  | append_singleton fs g ih =>
      have hheld := holds_functions_addAll hp fs
      rw [addAll_concat, (hheld.add g).functions] at h
      rcases mem_addFunction h with rfl | h
      · exact List.mem_append_right _ (List.mem_singleton_self f)
      · exact List.mem_append_left _ (ih h)

/-- The place of the first function of a name, among functions with their places. -/
structure FirstAt (ds : List (Nat × Function)) (name : Text) (i : Nat) : Prop where
  /-- There is one of that name. -/
  mem : ∃ f, (i, f) ∈ ds ∧ f.name = name
  /-- None of that name comes before. -/
  least : ∀ d ∈ ds, d.2.name = name → i ≤ d.1

/-- The first function of a name stays the first when others come later. -/
theorem FirstAt.concat {ds : List (Nat × Function)} {d : Nat × Function}
    (hd : ∀ e ∈ ds, e.1 < d.1) {name : Text} {i : Nat} (h : FirstAt ds name i) :
    FirstAt (ds ++ [d]) name i := by
  obtain ⟨f, hf, hname⟩ := h.mem
  refine ⟨⟨f, List.mem_append_left _ hf, hname⟩, fun e he hn => ?_⟩
  rcases List.mem_append.1 he with he | he
  · exact h.least e he hn
  · rw [List.mem_singleton.1 he]
    exact Nat.le_of_lt (hd _ hf)

/-- A function whose name is new is the first of its name. -/
theorem firstAt_concat {ds : List (Nat × Function)} {d : Nat × Function}
    (hd : ∀ e ∈ ds, e.2.name ≠ d.2.name) : FirstAt (ds ++ [d]) d.2.name d.1 := by
  refine ⟨⟨d.2, by simp, rfl⟩, fun e he hn => ?_⟩
  rcases List.mem_append.1 he with he | he
  · exact absurd hn (hd e he)
  · exact Nat.le_of_eq (congrArg Prod.fst (List.mem_singleton.1 he)).symm

/-- **The names are in the order of their first places.** -/
theorem pairwise_order_addAll {p : Program} (hp : p.Holds []) {ds : List (Nat × Function)}
    (hds : ds.Pairwise fun d e => d.1 < e.1) :
    (∀ name ∈ (p.addAll (ds.map Prod.snd)).order, ∃ i, FirstAt ds name i) ∧
    (p.addAll (ds.map Prod.snd)).order.Pairwise fun a b =>
      ∃ i j, FirstAt ds a i ∧ FirstAt ds b j ∧ i < j := by
  induction ds using List.reverseRecOn with
  | nil => simp [addAll, hp.order]
  | append_singleton ds d ih =>
      obtain ⟨hds, -, hlast⟩ := List.pairwise_append.1 hds
      have hlt : ∀ e ∈ ds, e.1 < d.1 := fun e he => hlast e he d (List.mem_singleton_self d)
      obtain ⟨hfirst, hpairs⟩ := ih hds
      have hfirst' : ∀ name ∈ (p.addAll (ds.map Prod.snd)).order,
          ∃ i, FirstAt (ds ++ [d]) name i := fun name hn => (hfirst name hn).imp fun _ =>
        .concat hlt
      have hpairs' : (p.addAll (ds.map Prod.snd)).order.Pairwise fun a b =>
          ∃ i j, FirstAt (ds ++ [d]) a i ∧ FirstAt (ds ++ [d]) b j ∧ i < j :=
        hpairs.imp fun ⟨i, j, ha, hb, hij⟩ => ⟨i, j, ha.concat hlt, hb.concat hlt, hij⟩
      rw [List.map_append, List.map_singleton, addAll_concat, order_add (hp.addAll _)]
      by_cases hnew : d.2.name ∈ (p.addAll (ds.map Prod.snd)).order
      · rw [if_pos hnew]
        exact ⟨hfirst', hpairs'⟩
      · rw [if_neg hnew]
        have hd : FirstAt (ds ++ [d]) d.2.name d.1 := by
          refine firstAt_concat fun e he hn => hnew ?_
          rw [mem_order_addAll hp]
          exact ⟨e.2, List.mem_map_of_mem he, hn⟩
        refine ⟨fun name hn => ?_,
          List.pairwise_append.2 ⟨hpairs', List.pairwise_singleton _ _, ?_⟩⟩
        · rcases List.mem_append.1 hn with hn | hn
          · exact hfirst' name hn
          · rw [List.mem_singleton.1 hn]
            exact ⟨d.1, hd⟩
        · intro a ha b hb
          obtain ⟨i, hi⟩ := hfirst a ha
          obtain ⟨f, hf, -⟩ := hi.mem
          rw [List.mem_singleton.1 hb]
          exact ⟨i, d.1, hi.concat hlt, hd, hlt _ hf⟩

/-- **Of the functions of one name the last is found.** -/
theorem get?_addAll_eq_some_iff {p : Program} (hp : p.Holds [])
    {ds : List (Nat × Function)} (hds : ds.Pairwise fun d e => d.1 < e.1) {name : Text}
    {f : Function} :
    (p.addAll (ds.map Prod.snd)).get? name = some f ↔
      f.name = name ∧ ∃ i, (i, f) ∈ ds ∧ ∀ d ∈ ds, i < d.1 → d.2.name ≠ name := by
  induction ds using List.reverseRecOn with
  | nil => simp [addAll, hp.get?]
  | append_singleton ds d ih =>
      obtain ⟨hds, -, hlast⟩ := List.pairwise_append.1 hds
      have hlt : ∀ e ∈ ds, e.1 < d.1 := fun e he => hlast e he d (List.mem_singleton_self d)
      rw [List.map_append, List.map_singleton, addAll_concat, get?_add]
      by_cases hd : d.2.name = name
      · rw [if_pos hd]
        constructor
        · rintro ⟨⟩
          refine ⟨hd, d.1, by simp, fun e he hi => ?_⟩
          rcases List.mem_append.1 he with he | he
          · exact absurd (hlt e he) (Nat.lt_asymm hi)
          · rw [List.mem_singleton.1 he] at hi
            exact absurd hi (Nat.lt_irrefl _)
        · rintro ⟨-, i, hi, hleast⟩
          rcases List.mem_append.1 hi with hi | hi
          · exact absurd hd (hleast d (by simp) (hlt _ hi))
          · rw [← List.mem_singleton.1 hi]
      · rw [if_neg hd, ih hds]
        constructor
        · rintro ⟨hname, i, hi, hleast⟩
          refine ⟨hname, i, List.mem_append_left _ hi, fun e he => ?_⟩
          rcases List.mem_append.1 he with he | he
          · exact hleast e he
          · rw [List.mem_singleton.1 he]
            exact fun _ => hd
        · rintro ⟨hname, i, hi, hleast⟩
          rcases List.mem_append.1 hi with hi | hi
          · exact ⟨hname, i, hi, fun e he => hleast e (List.mem_append_left _ he)⟩
          · rw [← List.mem_singleton.1 hi] at hd
            exact absurd hname hd

end Program

end IntLang
