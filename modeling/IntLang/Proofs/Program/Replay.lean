import IntLang.Proofs.Program.Store
import Mathlib.Data.List.Basic

/-!
# Adding functions again

What a program holds depends on the functions that were added, and on their order, only through the
first place and the last content of each name. So a list of functions may be replaced by what it
comes to in an empty program, whatever the program holds that it is added to
(`Program.addAll_functions_addAll`).

The two facts behind this are about two functions at a time: of two with one name the second is
enough (`addFunction_absorb`), and a function whose place is fixed already may be added before or
after any function of another name (`addFunction_comm`).
-/

namespace IntLang

/-! ### Two functions -/

/-- Of two functions of one name that are added one after the other, the second is enough. -/
theorem addFunction_absorb {f g : Function} (h : g.name = f.name) (fs : List Function) :
    addFunction f (addFunction g fs) = addFunction f fs := by
  induction fs with
  | nil => simp [addFunction, h]
  | cons k fs ih =>
      by_cases hk : k.name = f.name
      · simp [addFunction, hk, h]
      · simp [addFunction, hk, h, ih]

/-- A function whose name has its place may be added before or after one of another name. -/
theorem addFunction_comm {f g : Function} (h : g.name ≠ f.name) {fs : List Function}
    (hmem : f.name ∈ fs.map Function.name) :
    addFunction f (addFunction g fs) = addFunction g (addFunction f fs) := by
  induction fs with
  | nil => simp at hmem
  | cons k fs ih =>
      by_cases hf : k.name = f.name
      · simp [addFunction, hf, h.symm]
      · have hrest : f.name ∈ fs.map Function.name := by
          rw [List.map_cons, List.mem_cons] at hmem
          exact hmem.resolve_left fun he => hf he.symm
        by_cases hg : k.name = g.name
        · simp [addFunction, hg, h]
        · simp [addFunction, hf, hg, ih hrest]

namespace Program

/-! ### Replaying -/

/-- Adding one function and then others. -/
theorem addAll_cons (p : Program) (f : Function) (fs : List Function) :
    p.addAll (f :: fs) = (p.add f).addAll fs := rfl

/-- Of two functions of one name the second is enough, in a program as in a list. -/
theorem add_absorb {p : Program} {hs : List Function} (hp : p.Holds hs) {f g : Function}
    (h : g.name = f.name) : (p.add g).add f = p.add f := by
  refine Holds.ext ?_ (hp.add f) rfl
  rw [← addFunction_absorb h]
  exact (hp.add g).add f

/-- A function whose name has its place may be added before or after functions of other names. -/
theorem addAll_add_comm {p : Program} {hs : List Function} (hp : p.Holds hs) {f : Function}
    (hf : f.name ∈ p.order) {fs : List Function} (hfs : f.name ∉ fs.map Function.name) :
    (p.addAll fs).add f = (p.add f).addAll fs := by
  induction fs generalizing p hs with
  | nil => rfl
  | cons g fs ih =>
      rw [List.map_cons, List.mem_cons, not_or] at hfs
      obtain ⟨hg, hrest⟩ := hfs
      have hcomm : (p.add g).add f = (p.add f).add g := by
        refine Holds.ext ((hp.add g).add f) ?_ rfl
        rw [addFunction_comm (Ne.symm hg) (hp.order ▸ hf)]
        exact (hp.add f).add g
      rw [addAll_cons, addAll_cons,
        ih (hp.add g) ((mem_order_add hp).2 (Or.inl hf)) hrest, hcomm]

/-- A function may be added to a list of functions, or behind them: no two of them have one name, so
that only its own content is lost. -/
theorem addAll_addFunction {p : Program} {hs : List Function} (hp : p.Holds hs) (f : Function)
    {fs : List Function} (hfs : (fs.map Function.name).Nodup) :
    p.addAll (addFunction f fs) = (p.addAll fs).add f := by
  induction fs generalizing p hs with
  | nil => rfl
  | cons g fs ih =>
      obtain ⟨hg, hrest⟩ := List.nodup_cons.1 hfs
      rw [addFunction]
      by_cases h : g.name = f.name
      · rw [if_pos h, addAll_cons, addAll_cons, addAll_add_comm (hp.add g)
          ((mem_order_add hp).2 (Or.inr h)) (h ▸ hg), add_absorb hp h]
      · rw [if_neg h, addAll_cons, addAll_cons, ih (hp.add g) hrest]

/-- Functions may be replaced by what they come to in an empty program. -/
theorem addAll_functions_addAll {p q : Program} {hs : List Function} (hp : p.Holds hs)
    (hq : q.Holds []) (fs : List Function) :
    p.addAll (q.addAll fs).functions = p.addAll fs := by
  induction fs using List.reverseRecOn with
  | nil => rw [addAll, addAll, addAll, List.foldl_nil, hq.functions]
  | append_singleton fs f ih =>
      have hheld := holds_functions_addAll hq fs
      rw [addAll_concat, addAll_concat, ← ih, (hheld.add f).functions]
      exact addAll_addFunction hp f hheld.nodup

/-! ### What a program holds -/

/-- The function found under a name is the last that was added under it, or else the one that was
there. -/
theorem get?_addAll (p : Program) (fs : List Function) (name : Text) :
    (p.addAll fs).get? name = (fs.reverse.find? (·.name = name)).or (p.get? name) := by
  induction fs using List.reverseRecOn with
  | nil => rfl
  | append_singleton fs f ih =>
      rw [addAll_concat, get?_add, ih, List.reverse_append, List.reverse_singleton,
        List.singleton_append]
      by_cases h : f.name = name <;> simp [h]

/-- In an empty program the function found under a name is the last of that name. -/
theorem get?_addAll_eq_some_iff_append {p : Program} (hp : p.Holds []) {fs : List Function}
    {name : Text} {f : Function} : (p.addAll fs).get? name = some f ↔ f.name = name ∧
      ∃ before behind, fs = before ++ f :: behind ∧ ∀ g ∈ behind, g.name ≠ name := by
  have hnone : p.get? name = none := hp.get? name
  rw [get?_addAll, hnone, Option.or_none, List.find?_eq_some_iff_append, decide_eq_true_eq]
  refine and_congr_right fun _ => ?_
  constructor
  · rintro ⟨behind, before, hfs, hbehind⟩
    refine ⟨before.reverse, behind.reverse, ?_, ?_⟩
    · rw [← List.reverse_reverse fs, hfs]
      simp
    · intro g hg
      simpa using hbehind g (List.mem_reverse.1 hg)
  · rintro ⟨before, behind, rfl, hbehind⟩
    refine ⟨behind.reverse, before.reverse, by simp, ?_⟩
    intro g hg
    simpa using hbehind g (List.mem_reverse.1 hg)

/-- The names are in the order in which they were added first. -/
theorem pairwise_idxOf_order_addAll {p : Program} (hp : p.Holds []) (fs : List Function) :
    (p.addAll fs).order.Pairwise fun a b =>
      (fs.map Function.name).idxOf a < (fs.map Function.name).idxOf b := by
  induction fs using List.reverseRecOn with
  | nil => simp [addAll, hp.order]
  | append_singleton fs f ih =>
      have hold : ∀ a ∈ (p.addAll fs).order, a ∈ fs.map Function.name := by
        intro a ha
        simpa using (mem_order_addAll hp).1 ha
      have hkept : (p.addAll fs).order.Pairwise fun a b =>
          ((fs ++ [f]).map Function.name).idxOf a < ((fs ++ [f]).map Function.name).idxOf b := by
        refine ih.imp_of_mem fun ha hb hab => ?_
        rwa [List.map_append, List.idxOf_append_of_mem (hold _ ha),
          List.idxOf_append_of_mem (hold _ hb)]
      rw [addAll_concat, order_add (hp.addAll fs)]
      split
      · exact hkept
      · next hnew =>
          refine List.pairwise_append.2 ⟨hkept, List.pairwise_singleton _ _, ?_⟩
          intro a ha b hb
          have hfresh : f.name ∉ fs.map Function.name := by
            intro hf
            exact hnew ((mem_order_addAll hp).2 (by simpa using hf))
          rw [List.mem_singleton.1 hb, List.map_append, List.idxOf_append_of_mem (hold a ha),
            List.idxOf_append_of_notMem hfresh]
          exact Nat.lt_of_lt_of_le (List.idxOf_lt_length_of_mem (hold a ha)) (Nat.le_add_right _ _)

/-- **A program keeps functions under their names, the last of each, in the order of the first.**
Of the functions that are added to an empty program each name is listed once, by its first place
among them; exactly the names listed lead to a function, which has that name and is the last that
was added under it; and so nothing is missing when the functions are taken in the order of the
names. Moreover, behind any functions `fs`, functions `gs` may be replaced by those of the program
that they make, taken in its order: the outcome is the same. -/
theorem addAll_store (fs gs : List Function) :
    let p := ({} : Program).addAll fs
    let q := ({} : Program).addAll gs
    p.order.Nodup ∧
    (∀ name, name ∈ p.order ↔ ∃ f, p.get? name = some f) ∧
    (∀ name f, p.get? name = some f → f.name = name) ∧
    ((∀ name, name ∈ p.order ↔ name ∈ fs.map Function.name) ∧
      p.order.Pairwise fun a b =>
        (fs.map Function.name).idxOf a < (fs.map Function.name).idxOf b) ∧
    (∀ name f, p.get? name = some f ↔ f.name = name ∧
      ∃ before behind, fs = before ++ f :: behind ∧ ∀ g ∈ behind, g.name ≠ name) ∧
    none ∉ p.ordered ∧
    q.ordered = q.functions.map some ∧ p.addAll q.functions = p.addAll gs := by
  intro p q
  have hp : p.Holds p.functions := holds_functions_addAll (holds_nil []) fs
  have hq : q.Holds q.functions := holds_functions_addAll (holds_nil []) gs
  have hmem : ∀ name, name ∈ p.order ↔ name ∈ fs.map Function.name := by
    intro name
    simpa using mem_order_addAll (holds_nil [])
  have hlast : ∀ name f, p.get? name = some f ↔ f.name = name ∧
      ∃ before behind, fs = before ++ f :: behind ∧ ∀ g ∈ behind, g.name ≠ name :=
    fun name f => get?_addAll_eq_some_iff_append (holds_nil [])
  refine ⟨nodup_order_addAll (holds_nil []) fs, fun name => ?_, ?_,
    ⟨hmem, pairwise_idxOf_order_addAll (holds_nil []) fs⟩, hlast, ?_, hq.ordered,
    addAll_functions_addAll hp (holds_nil []) gs⟩
  · rw [← hp.isSome_get?, Option.isSome_iff_exists]
  · intro name f hf
    exact ((hlast name f).1 hf).1
  · rw [hp.ordered]
    simp

example : (({} : Program).addAll
    [⟨.int, "f", [], []⟩, ⟨.int, "g", [], []⟩, ⟨.real, "f", [], []⟩]).ordered
      = [some ⟨.real, "f", [], []⟩, some ⟨.int, "g", [], []⟩] := by decide

end Program

end IntLang
