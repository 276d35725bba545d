import IntLang.Proofs.Compile.Context
import Mathlib.Algebra.Order.Ring.Int

/-!
# Listings of tokens

The listing around a place has one line for each place from two before it to two behind it, as far
as there are such places, the one behind the last token included. The numbers stand at the right of
one column, and the place is marked (`Lists`).

Around a place before the first token, or so far behind the last one that nothing can be shown or
the sums wrap, the listing is empty. It is not empty around the two places next behind the end of
the tokens: these have no line of their own, but still show the last places before them, and nothing
is marked (`errorContext_lists`).
-/

namespace IntLang

/-! ### Listings -/

/-- A listing of the places from `first` to `last`, one a line, with `marks` lines marked. -/
def Lists (ts : List Token) (first last mark marks : Nat) (t : Text) : Prop :=
  ∃ width ls, t.splitOn 0x0A = ls ++ [.empty] ∧
    List.Forall₂ (IsLine ts mark width) (List.range' first (last + 1 - first)) ls ∧
    ls.countP (Text.startsWith "> ") = marks

/-- How often the place in question is among those that are shown. -/
theorem countP_contextPlaces (size index : Nat) :
    (contextPlaces size index).countP (fun i => decide (i = index))
      = if index ≤ size then 1 else 0 := by
  rw [List.countP_eq_length_filter]
  split
  · next h => rw [filter_contextPlaces h, List.length_singleton]
  · next h =>
    rw [List.length_eq_zero_iff, List.filter_eq_nil_iff]
    intro i hi
    rw [contextPlaces_eq_range', List.mem_range'_1] at hi
    rw [decide_eq_true_eq]
    omega

/-- **The listing around a place** shows it marked, if it is there. -/
theorem lists_contextAt (source : Text) {index : Nat} (h : index ≤ (tokenize source).length + 2) :
    Lists (tokenize source) (index - 2) (min (index + 2) (tokenize source).length) index
      (if index ≤ (tokenize source).length then 1 else 0) (contextAt (tokenize source) index) := by
  refine ⟨contextWidth (tokenize source).length index, _, splitOn_contextAt source index, ?_, ?_⟩
  · rw [← contextPlaces_eq_range']
    exact forall₂_isLine_contextLine (tokenize source) h
  · rw [List.countP_map, marked_comp_contextLine, countP_contextPlaces]

theorem contextAt_eq_empty {ts : List Token} {index : Nat} (h : ts.length + 2 < index) :
    contextAt ts index = "" := by
  have hplaces : contextPlaces ts.length index = [] := by
    rw [contextPlaces_eq_range', List.range'_eq_nil_iff]
    omega
  rw [contextAt, hplaces]
  rfl

/-! ### Places of 64 bits -/

/-- Only with the last three numbers of 64 bits does the sum with three wrap. -/
theorem add_three_neg_iff {index : Int64} (h : 0 ≤ index.toInt) :
    index + 3 < 0 ↔ 2 ^ 63 ≤ index.toInt + 3 := by
  have hlt := index.toInt_lt
  have hzero : (0 : Int64).toInt = 0 := rfl
  have hthree : (3 : Int64).toInt = 3 := rfl
  rw [Int64.lt_iff_toInt_lt, Int64.toInt_add, hzero, hthree]
  simp only [Int.bmod]
  omega

theorem errorContext_eq_ite (ts : List Token) (index : Int64) :
    errorContext ts index
      = if index.toInt < 0 ∨ 2 ^ 63 ≤ index.toInt + 3 then .empty
        else contextAt ts index.toInt.toNat := by
  have hneg : index < 0 ↔ index.toInt < 0 := Int64.lt_iff_toInt_lt
  have hguard : (decide (index < 0) || decide (index + 3 < 0)) = true
      ↔ index.toInt < 0 ∨ 2 ^ 63 ≤ index.toInt + 3 := by
    rw [Bool.or_eq_true, decide_eq_true_iff, decide_eq_true_iff, hneg]
    exact or_congr_right' fun h => add_three_neg_iff (Int.not_lt.1 h)
  rw [errorContext]
  exact if_congr hguard rfl rfl

/-- **What is shown around a place.** Each place of the tokens, the one behind the last of them
included, is shown marked and with two places on each side, as far as there are any. The next two
places are shown no more, and nothing is marked, but what comes up to two places before them is
still shown. Around any other number of 64 bits, and around one to which three cannot be added,
nothing is shown. -/
theorem errorContext_lists (source : Text) (index : Int64) :
    (index.toInt < 0 ∨ (tokenize source).length + 2 < index.toInt ∨ 2 ^ 63 ≤ index.toInt + 3 →
      errorContext (tokenize source) index = "") ∧
    ∀ i : Nat, index.toInt = i → index.toInt + 3 < 2 ^ 63 →
      (i ≤ (tokenize source).length →
        Lists (tokenize source) (i - 2) (min (i + 2) (tokenize source).length) i 1
          (errorContext (tokenize source) index)) ∧
      ((tokenize source).length < i → i ≤ (tokenize source).length + 2 →
        Lists (tokenize source) (i - 2) (tokenize source).length i 0
          (errorContext (tokenize source) index)) := by
  rw [errorContext_eq_ite]
  constructor
  · intro h
    split
    · rfl
    · refine contextAt_eq_empty ?_
      omega
  · intro i hi hlt
    rw [if_neg (by omega), hi, Int.toNat_natCast]
    constructor
    · intro hle
      have hlists := lists_contextAt source (by omega : i ≤ (tokenize source).length + 2)
      rwa [if_pos hle] at hlists
    · intro hlt' hle
      have hlists := lists_contextAt source hle
      rwa [if_neg (by omega), Nat.min_eq_right (by omega)] at hlists

/-- A place past the end of an empty source, around which something is shown. -/
theorem errorContext_past_end :
    (tokenize "").length = 0 ∧ errorContext (tokenize "") 1 = "  0 | end of input\n" :=
  ⟨rfl, rfl⟩

end IntLang
