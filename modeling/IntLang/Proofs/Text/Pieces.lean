import IntLang.Text
import Mathlib.Data.List.TakeDrop
import Mathlib.Data.List.TakeWhile

/-!
# The pieces of a text

A text is cut at a byte as a list is, so that what holds of lists carries over: pieces that are put
together with the byte between them come out again (`splitOn_intercalate`).
-/

namespace IntLang.Text

theorem append_empty (t : Text) : t ++ .empty = t := Text.ext (List.append_nil _)

theorem isEmpty_eq_true_iff {t : Text} : t.isEmpty = true ↔ t = "" := by
  rw [isEmpty, List.isEmpty_iff]
  constructor
  · exact fun h => Text.ext h
  · rintro rfl
    rfl

theorem isEmpty_eq_false_iff {t : Text} : t.isEmpty = false ↔ t ≠ "" := by
  rw [← Bool.not_eq_true, isEmpty_eq_true_iff]

theorem concat_append (ss ts : List Text) : concat (ss ++ ts) = concat ss ++ concat ts :=
  Text.ext List.flatMap_append

theorem ofChars_append (cs ds : List Char) : ofChars (cs ++ ds) = ofChars cs ++ ofChars ds :=
  Text.ext List.flatMap_append

/-- What stands between the same two texts is the same. -/
theorem enclosed_inj {p s t q : Text} : p ++ s ++ q = p ++ t ++ q ↔ s = t := by
  constructor
  · intro h
    have hbytes := congrArg bytes h
    simp only [bytes_append, List.append_cancel_right_eq, List.append_cancel_left_eq] at hbytes
    exact Text.ext hbytes
  · rintro rfl
    rfl

/-- A list is cut where a property ends. -/
theorem span_append {α : Type} {p : α → Bool} {as bs : List α} (has : ∀ a ∈ as, p a = true)
    (hbs : ∀ b ∈ bs.head?, p b = false) : (as ++ bs).span p = (as, bs) := by
  rw [List.span_eq_takeWhile_dropWhile, List.takeWhile_append_of_pos has,
    List.dropWhile_append_of_pos has]
  cases bs with
  | nil => simp
  | cons b bs =>
      have hb : ¬p b = true := by simp [hbs b rfl]
      rw [List.takeWhile_cons_of_neg hb, List.dropWhile_cons_of_neg hb, List.append_nil]

theorem eq_append_of_span {α : Type} {p : α → Bool} {l as bs : List α}
    (h : l.span p = (as, bs)) :
    l = as ++ bs ∧ (∀ a ∈ as, p a = true) ∧ ∀ b ∈ bs.head?, p b = false := by
  rw [List.span_eq_takeWhile_dropWhile, Prod.mk.injEq] at h
  obtain ⟨rfl, rfl⟩ := h
  refine ⟨List.takeWhile_append_dropWhile.symm, fun a => List.mem_takeWhile_imp, fun b hb => ?_⟩
  have hhead := List.head?_dropWhile_not p l
  rw [Option.mem_def.1 hb] at hhead
  exact hhead

theorem splitOn_eq_map (b : UInt8) (t : Text) : t.splitOn b = (t.bytes.splitOn b).map Text.mk := by
  have hgo (bs : List UInt8) : splitOn.go b bs = bs.splitOn b := by
    induction bs with
    | nil => rfl
    | cons c cs ih =>
      rw [splitOn.go, List.splitOn_cons_eq_if_modifyHead, ih]
      by_cases hc : c = b
      · simp [hc]
      · obtain ⟨p, ps, hps⟩ := List.exists_cons_of_ne_nil (List.splitOn_ne_nil b cs)
        simp [hc, hps]
  rw [splitOn, hgo]

/-- What stands before the first `b` is the first piece. -/
theorem splitOn_append_cons {b : UInt8} {t : Text} (h : b ∉ t.bytes) (bs : List UInt8) :
    splitOn b ⟨t.bytes ++ b :: bs⟩ = t :: splitOn b ⟨bs⟩ := by
  rw [splitOn_eq_map, splitOn_eq_map, List.splitOn_append_cons_self_of_not_mem h]
  rfl

/-- Cutting at a `b` wherever it is cuts what is before it and what is behind. -/
theorem splitOn_append_cons_self (b : UInt8) (t : Text) (bs : List UInt8) :
    splitOn b ⟨t.bytes ++ b :: bs⟩ = splitOn b t ++ splitOn b ⟨bs⟩ := by
  rw [splitOn_eq_map, splitOn_eq_map, splitOn_eq_map, List.splitOn_append_cons_self,
    List.map_append]

/-- A piece has no bytes but those of the text. -/
theorem mem_of_mem_splitOn {b c : UInt8} {t piece : Text} (h : piece ∈ t.splitOn b)
    (hc : c ∈ piece.bytes) : c ∈ t.bytes := by
  have hjoined (ps : List (List UInt8)) (p : List UInt8) (hp : p ∈ ps) (hcp : c ∈ p) :
      c ∈ [b].intercalate ps := by
    induction ps with
    | nil => exact absurd hp List.not_mem_nil
    | cons q qs ih =>
      rcases List.mem_cons.1 hp with rfl | hp
      · cases qs <;> simp [hcp]
      · obtain ⟨r, rs, rfl⟩ := List.exists_cons_of_ne_nil (List.ne_nil_of_mem hp)
        rw [List.intercalate_cons_cons]
        exact List.mem_append_right _ (ih hp)
  obtain ⟨p, hp, rfl⟩ := List.mem_map.1 (splitOn_eq_map b t ▸ h)
  have hbytes : [b].intercalate (t.bytes.splitOn b) = t.bytes := List.intercalate_splitOn b
  rw [← hbytes]
  exact hjoined _ p hp hc

/-- No piece has the byte that the text was cut at. -/
theorem notMem_of_mem_splitOn {b : UInt8} {t piece : Text} (h : piece ∈ t.splitOn b) :
    b ∉ piece.bytes := by
  have hpieces (bs : List UInt8) : ∀ p ∈ bs.splitOn b, b ∉ p := by
    induction bs with
    | nil => simp
    | cons c cs ih =>
      intro p hp
      rw [List.splitOn_cons_eq_if_modifyHead] at hp
      obtain ⟨q, qs, hqs⟩ := List.exists_cons_of_ne_nil (List.splitOn_ne_nil b cs)
      rw [hqs] at hp ih
      by_cases hc : c = b
      · simp only [hc, beq_self_eq_true, if_true] at hp
        rcases List.mem_cons.1 hp with rfl | hp
        · exact List.not_mem_nil
        · exact ih p hp
      · simp only [beq_iff_eq, hc, if_false, List.modifyHead_cons] at hp
        rcases List.mem_cons.1 hp with rfl | hp
        · intro hb
          rcases List.mem_cons.1 hb with rfl | hb
          · exact hc rfl
          · exact ih q List.mem_cons_self hb
        · exact ih p (List.mem_cons_of_mem q hp)
  rw [splitOn_eq_map] at h
  obtain ⟨p, hp, rfl⟩ := List.mem_map.1 h
  exact hpieces t.bytes p hp

/-- Any other byte is in a piece. -/
theorem exists_mem_splitOn {b c : UInt8} {t : Text} (h : c ∈ t.bytes) (hne : c ≠ b) :
    ∃ piece ∈ t.splitOn b, c ∈ piece.bytes := by
  have hpieces (bs : List UInt8) (hc : c ∈ bs) : ∃ p ∈ bs.splitOn b, c ∈ p := by
    induction bs with
    | nil => exact absurd hc List.not_mem_nil
    | cons d ds ih =>
      rw [List.splitOn_cons_eq_if_modifyHead]
      obtain ⟨q, qs, hqs⟩ := List.exists_cons_of_ne_nil (List.splitOn_ne_nil b ds)
      rw [hqs] at ih ⊢
      by_cases hd : d = b
      · obtain ⟨p, hp, hcp⟩ := ih ((List.mem_cons.1 hc).resolve_left (hd ▸ hne))
        simp only [hd, beq_self_eq_true, if_true]
        exact ⟨p, List.mem_cons_of_mem _ hp, hcp⟩
      · simp only [beq_iff_eq, hd, if_false, List.modifyHead_cons]
        rcases List.mem_cons.1 hc with rfl | hc
        · exact ⟨_, List.mem_cons_self, List.mem_cons_self⟩
        · obtain ⟨p, hp, hcp⟩ := ih hc
          rcases List.mem_cons.1 hp with rfl | hp
          · exact ⟨_, List.mem_cons_self, List.mem_cons_of_mem _ hcp⟩
          · exact ⟨p, List.mem_cons_of_mem _ hp, hcp⟩
  obtain ⟨p, hp, hc⟩ := hpieces t.bytes h
  rw [splitOn_eq_map]
  exact ⟨⟨p⟩, List.mem_map_of_mem hp, hc⟩

/-- A text without the byte is all before it. -/
theorem before_after?_of_notMem {b : UInt8} {t : Text} (h : b ∉ t.bytes) :
    t.before b = t ∧ t.after? b = none := by
  have hne : ∀ c ∈ t.bytes, (c != b) = true := fun c hc => bne_iff_ne.2 fun he => h (he ▸ hc)
  refine ⟨Text.ext (List.takeWhile_eq_self_iff.2 hne), ?_⟩
  rw [after?, List.dropWhile_eq_nil_iff.2 hne]

theorem before_after?_append {b : UInt8} {s : Text} (h : b ∉ s.bytes) (u : Text) :
    before b (s ++ (singleton b ++ u)) = s ∧ after? b (s ++ (singleton b ++ u)) = some u := by
  have hne : ∀ c ∈ s.bytes, (c != b) = true := fun c hc => bne_iff_ne.2 fun he => h (he ▸ hc)
  have hbytes : (s ++ (singleton b ++ u)).bytes = s.bytes ++ b :: u.bytes := rfl
  refine ⟨Text.ext ?_, ?_⟩
  · rw [before, hbytes, List.takeWhile_append_of_pos hne, List.takeWhile_cons_of_neg (by simp),
      List.append_nil]
  · rw [after?, hbytes, List.dropWhile_append_of_pos hne, List.dropWhile_cons_of_neg (by simp)]

/-- A text is cut at the first byte `b`, if there is one. -/
theorem before_after?_cases (b : UInt8) (t : Text) :
    (t.before b = t ∧ t.after? b = none) ∨
      ∃ s u, t = s ++ (singleton b ++ u) ∧ t.before b = s ∧ t.after? b = some u := by
  by_cases h : b ∈ t.bytes
  · obtain ⟨bs, cs, hbytes, hbs⟩ := List.eq_append_cons_of_mem h
    obtain rfl : t = ⟨bs⟩ ++ (singleton b ++ ⟨cs⟩) := Text.ext hbytes
    exact .inr ⟨⟨bs⟩, ⟨cs⟩, rfl, before_after?_append hbs ⟨cs⟩⟩
  · exact .inl (before_after?_of_notMem h)

theorem bytes_intercalate (sep : Text) (ts : List Text) :
    (intercalate sep ts).bytes = sep.bytes.intercalate (ts.map bytes) := by
  fun_induction intercalate sep ts with
  | case1 => rfl
  | case2 t => simp
  | case3 t u ts ih =>
    simp only [bytes_append, ih, List.map_cons, List.intercalate_cons_cons, List.append_assoc]

theorem intercalate_concat (sep : Text) {ts : List Text} (h : ts ≠ []) (t : Text) :
    intercalate sep (ts ++ [t]) = intercalate sep ts ++ sep ++ t := by
  induction ts with
  | nil => exact absurd rfl h
  | cons s ts ih =>
    cases ts with
    | nil => rfl
    | cons u ts =>
      have ih := ih (List.cons_ne_nil u ts)
      rw [List.cons_append] at ih
      refine Text.ext ?_
      simp [intercalate, ih]

/-- Pieces that are put together come out again. -/
theorem splitOn_intercalate {b : UInt8} {ts : List Text} (h : ∀ t ∈ ts, b ∉ t.bytes)
    (hne : ts ≠ []) : splitOn b (intercalate ⟨[b]⟩ ts) = ts := by
  have hbytes : ∀ bs ∈ ts.map bytes, b ∉ bs := by simpa using h
  rw [splitOn_eq_map, bytes_intercalate,
    List.splitOn_intercalate b hbytes (by simpa using hne), List.map_map]
  exact List.map_id ts

end IntLang.Text
