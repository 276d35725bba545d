import IntLang.Proofs.Compile.Phases
import IntLang.Proofs.Log.Lines
import IntLang.Proofs.Program.Misfits
import IntLang.Proofs.Text.Decimal
import IntLang.Proofs.Token.Stream
import Mathlib.Data.List.Forall2

/-!
# Errors in context

A source that cannot be segmented is reported with the tokens around its first flaw. The listing has
a line for each place of a window, which reaches two places to each side of the flaw as far as the
stream does, the place behind its last token included. A line has the number of its place, at the
right of a column, and the token that is there (`IsLine`). Since no token is written with a line end
in it (`Stream.withinLine_describe`), the lines of the listing are the lines of its text.

## Main results

* `window_contextAt`: what the listing shows;
* `compile_of_misfit`: what is reported, and how.
-/

namespace IntLang

/-! ### Tokens are written within a line -/

theorem withinLine_unknownName : unknownName.WithinLine := by decide

theorem Operator.withinLine_symbol (o : Operator) : o.symbol.WithinLine := by
  cases o with
  | unassigned _ => exact withinLine_unknownName
  | _ => decide

theorem ValueType.withinLine_name (t : ValueType) : t.name.WithinLine := by
  cases t with
  | unassigned _ => exact withinLine_unknownName
  | _ => decide

theorem Keyword.withinLine_name (k : Keyword) : k.name.WithinLine := by
  cases k with
  | unassigned _ => exact withinLine_unknownName
  | _ => decide

/-- A token is written within a line, if it is not an identifier with a line end. -/
theorem Token.withinLine_describe {t : Token} (h : ∀ name, t = .ident name → name.WithinLine) :
    t.describe.WithinLine := by
  cases t with
  | operator o => exact .append (.append (by decide) o.withinLine_symbol) (by decide)
  | type t => exact .append (.append (by decide) t.withinLine_name) (by decide)
  | ident name => exact .append (.append (by decide) (h name rfl)) (by decide)
  | keyword k => exact .append (.append (by decide) k.withinLine_name) (by decide)
  | literal l =>
      exact .append (.append (.append (.append (by decide) l.type.withinLine_name) (by decide))
        l.text.withinLine_quote) (by decide)
  | unassigned _ => exact withinLine_unknownName

/-- The identifiers of a stream are words, and no line end is in a word. -/
theorem Stream.withinLine_ident {m m' : Mode} {ts : List Token} (h : Stream m ts m') {name : Text}
    (hname : .ident name ∈ ts) : name.WithinLine := by
  obtain ⟨w, hw, hl, hc⟩ := h.exists_word hname rfl
  rw [eq_of_classify_eq_ident hc.symm]
  exact not_mem_bytes hw hl (by decide) (by decide)

/-- **The tokens of a text are written within a line**, and so is the end of the text. -/
theorem withinLine_describeAt (source : Text) (i : Nat) :
    (Token.describeAt (tokenize source) i).WithinLine := by
  rw [Token.describeAt]
  split
  · next t ht =>
      refine Token.withinLine_describe fun name hname => ?_
      subst hname
      exact (stream_lex source).withinLine_ident (List.mem_of_getElem? ht)
  · decide

/-! ### The window -/

/-- The places that are shown: up to two before the one in question, that one, and up to two behind
it. -/
theorem contextPlaces_eq {size index : Nat} (h : index ≤ size) :
    contextPlaces size index = List.range' (index - 2) (min index 2)
      ++ index :: List.range' (index + 1) (min (size - index) 2) := by
  have hcount : min (size + 1) (index + 3) - (index - 2)
      = min index 2 + (min (size - index) 2 + 1) := by omega
  have hplace : index - 2 + min index 2 = index := by omega
  rw [contextPlaces, hcount, ← List.range'_append_1, hplace, List.range'_succ]

/-- The place in question is shown once. -/
theorem filter_contextPlaces {size index : Nat} (h : index ≤ size) :
    (contextPlaces size index).filter (fun i => decide (i = index)) = [index] := by
  have hnone (start count : Nat) (hne : start + count ≤ index ∨ index < start) :
      (List.range' start count).filter (fun i => decide (i = index)) = [] := by
    refine List.filter_eq_nil_iff.2 fun i hi => ?_
    rw [List.mem_range'_1] at hi
    rw [decide_eq_true_eq]
    omega
  rw [contextPlaces_eq h, List.filter_append, List.filter_cons_of_pos (by simp),
    hnone _ _ (.inl (by omega)), hnone _ _ (.inr (by omega)), List.nil_append]

/-- The places that are shown reach to the second behind the one in question or to the end. -/
theorem contextPlaces_eq_range' (size index : Nat) :
    contextPlaces size index
      = List.range' (index - 2) (min (index + 2) size + 1 - (index - 2)) := by
  rw [contextPlaces]
  congr 1
  omega

/-- The width of the column of numbers: that of the last one. -/
def contextWidth (size index : Nat) : Nat :=
  ((contextPlaces size index).getLast?.map fun i => (Text.ofNat i).size).getD 0

theorem contextWidth_eq {size index : Nat} (h : index ≤ size + 2) :
    contextWidth size index = (Text.ofNat (min (index + 2) size)).size := by
  have hcount : min (index + 2) size + 1 - (index - 2)
      = min (index + 2) size - (index - 2) + 1 := by omega
  have hlast : index - 2 + (min (index + 2) size - (index - 2)) = min (index + 2) size := by omega
  rw [contextWidth, contextPlaces_eq_range', hcount, List.range'_concat, List.getLast?_concat,
    Nat.one_mul, hlast]
  rfl

/-! ### Lines -/

/-- The line of the place `i`: the mark or none, the number at the right of its column, and what is
there. -/
def IsLine (ts : List Token) (mark width i : Nat) (l : Text) : Prop :=
  ∃ blanks, blanks + (Text.ofNat i).size = width ∧
    l = (if i = mark then "> " else "  ") ++ (.replicate blanks 0x20 ++ .ofNat i) ++ " | "
      ++ Token.describeAt ts i

/-- Each place that is shown has its line: no number is wider than the last. -/
theorem forall₂_isLine_contextLine (ts : List Token) {size index : Nat} (h : index ≤ size + 2) :
    List.Forall₂ (IsLine ts index (contextWidth size index)) (contextPlaces size index)
      ((contextPlaces size index).map (contextLine ts index (contextWidth size index))) := by
  rw [List.forall₂_map_right_iff, List.forall₂_same]
  intro i hi
  rw [contextPlaces_eq_range', List.mem_range'_1] at hi
  have hwidth : (Text.ofNat i).size ≤ contextWidth size index := by
    rw [contextWidth_eq h]
    exact Text.size_ofNat_mono (by omega)
  exact ⟨contextWidth size index - (Text.ofNat i).size, Nat.sub_add_cancel hwidth, rfl⟩

/-- The lines that show the tokens around a place, in columns of a width. -/
structure Window (ts : List Token) (index width : Nat) (ls : List Text) : Prop where
  /-- There are up to two lines on each side. -/
  length : ls.length = min index 2 + 1 + min (ts.length - index) 2
  /-- The lines are numbered one after another, and each has what is at its place. -/
  line : List.Forall₂ (IsLine ts index width) (List.range' (index - 2) ls.length) ls
  /-- Only the line of the place is marked. -/
  marked : ls.filter (Text.startsWith "> ")
    = ["> " ++ (Text.ofNat index).padLeft width ++ " | " ++ Token.describeAt ts index]

/-- The mark is on the line of the place, and on no other. -/
theorem startsWith_contextLine (ts : List Token) (index width i : Nat) :
    Text.startsWith "> " (contextLine ts index width i) = decide (i = index) := by
  rw [contextLine]
  split
  · next h =>
      rw [decide_eq_true h]
      rfl
  · next h =>
      rw [decide_eq_false h]
      rfl

/-- **The lines of a listing are the lines of its text.** -/
theorem splitOn_contextAt (source : Text) (index : Nat) :
    (contextAt (tokenize source) index).splitOn 0x0A
      = (contextPlaces (tokenize source).length index).map (contextLine (tokenize source) index
          (contextWidth (tokenize source).length index)) ++ [.empty] := by
  apply Text.splitOn_lines
  intro l hl
  obtain ⟨i, -, rfl⟩ := List.mem_map.1 hl
  refine .append (.append (.append ?_ ?_) (by decide)) (withinLine_describeAt source i)
  · split <;> decide
  · exact Text.withinLine_padLeft _ (Text.withinLine_ofNat i)

/-- The marks on lines are those of their places. -/
theorem marked_comp_contextLine (ts : List Token) (index width : Nat) :
    Text.startsWith "> " ∘ contextLine ts index width = fun i => decide (i = index) := by
  funext i
  exact startsWith_contextLine ts index width i

/-- **The listing shows a window.** -/
theorem window_contextAt (source : Text) {index : Nat} (h : index ≤ (tokenize source).length) :
    ∃ width ls, (contextAt (tokenize source) index).splitOn 0x0A = ls ++ [.empty] ∧
      Window (tokenize source) index width ls := by
  have hplaces : List.range' (index - 2) (contextPlaces (tokenize source).length index).length
      = contextPlaces (tokenize source).length index := by
    rw [contextPlaces, List.length_range']
  refine ⟨contextWidth (tokenize source).length index, _, splitOn_contextAt source index,
    ?_, ?_, ?_⟩
  · rw [List.length_map, contextPlaces_eq h]
    simp only [List.length_append, List.length_cons, List.length_range']
    omega
  · rw [List.length_map, hplaces]
    exact forall₂_isLine_contextLine (tokenize source) (by omega)
  · rw [List.filter_map, marked_comp_contextLine, filter_contextPlaces h, List.map_singleton,
      contextLine, if_pos rfl]

/-! ### Reports -/

/-- **A source that cannot be segmented is reported at its first flaw**, wherever logs go and
headers come from. The one misfit that comes first is that of the global region if this is not
complete, and else that of the first function that is not. It points at a token, or right behind the
last one, and tells what is there or that the text has come to its end. Compiling fails with it and
shows the places around it, of which the one in question is marked. -/
theorem compile_of_misfit {m : Type → Type} [Monad m] {ε : Type} (log : Log.Record → m Unit)
    (headers : Resolver m ε) {source : Text} {misfit : Misfit}
    (h : segment (tokenize source) = .error misfit) :
    (∀ flaw, FirstMisfit (tokenize source) flaw ↔ flaw = misfit) ∧
    misfit.index ≤ (tokenize source).length ∧
    (misfit.foundText = "end of input" ∨
      ∃ t, (tokenize source)[misfit.index]? = some t ∧ misfit.foundText = t.describe) ∧
    ∃ record e, compile log headers source = (do log record; return .error e) ∧
      e.phase = "parser" ∧ e.index? = some misfit.index ∧
      (∀ wording, e.causeMessage wording = misfit.message) ∧
      ∃ width ls, e.context.splitOn 0x0A = ls ++ [.empty] ∧
        Window (tokenize source) misfit.index width ls := by
  have hfirst := segment_eq_error_iff.1 h
  obtain ⟨hle, hfound⟩ := hfirst.placed
  refine ⟨fun flaw => ⟨fun hflaw => hflaw.unique hfirst, ?_⟩, hle, ?_, ?_⟩
  · rintro rfl
    exact hfirst
  · cases ht : misfit.found with
    | none => exact .inl (by rw [Misfit.foundText, ht])
    | some t => exact .inr ⟨t, hfound t ht, by rw [Misfit.foundText, ht]⟩
  · obtain ⟨record, hrun⟩ := compile_of_error log headers h
    exact ⟨record, _, hrun, rfl, rfl, fun _ => rfl, window_contextAt source hle⟩

/-- A source whose second function has a parameter without a name. -/
def nameless : Text := "int f() \x7b \x7d real g(int, bool b) \x7b \x7d"

/-- The type that stands where the name should be is shown between two tokens on each side, in lines
with the numbers from 9 to 13. -/
theorem compile_of_misfit_nameless :
    segment (tokenize nameless) = .error ⟨11, .parameterName, some (.type .bool)⟩ ∧
    ∃ e, compile (fun _ => pure ()) withoutB nameless = .error e ∧ e.phase = "parser" ∧
      e.index? = some 11 ∧
      ∃ width ls, e.context.splitOn 0x0A = ls ++ [.empty] ∧
        List.Forall₂ (IsLine (tokenize nameless) 11 width) [9, 10, 11, 12, 13] ls ∧
        ls.filter (Text.startsWith "> ")
          = ["> " ++ (Text.ofNat 11).padLeft width ++ " | " ++ "TYPE(bool)"] := by
  have h : segment (tokenize nameless) = .error ⟨11, .parameterName, some (.type .bool)⟩ := by
    decide +kernel
  have hlength : (tokenize nameless).length = 16 := by decide +kernel
  have hshown : Token.describeAt (tokenize nameless) 11 = "TYPE(bool)" := by decide +kernel
  obtain ⟨-, -, -, record, e, hrun, hphase, hindex, -, width, ls, hls, hwindow⟩ :=
    compile_of_misfit (fun _ => pure ()) withoutB h
  have hlines := hwindow.line
  rw [hwindow.length, hlength] at hlines
  refine ⟨h, e, hrun, hphase, hindex, width, ls, hls, hlines, ?_⟩
  rw [hwindow.marked, hshown]

end IntLang
