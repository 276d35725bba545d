import IntLang.Proofs.Cpp.Imports
import IntLang.Proofs.Token.Contents

/-!
# What strings have to do with the structure

The *skeleton* of a stream is what is left of it without the pieces of strings. The quotes stay, and
since all pieces stand behind quotes, no reader of segmentation can tell a stream from its skeleton:
one that comes upon a string meets the quote before the pieces. Places differ, and so do the tokens
of the bodies and of the global region, but the answers are alike (`Alike`): they agree about what
was expected where something is missing, and about what was found there.

## Main results

* `segment_skeleton`: the program of a skeleton is the skeleton of the program;
* `segment_withString`: what is between two quotes has no influence on the structure of a program.
-/

namespace IntLang

/-! ### Skeletons -/

/-- The tokens that are not pieces of strings. -/
def skeleton (ts : List Token) : List Token := ts.filter (!·.isPiece)

/-- A piece is left out. -/
theorem skeleton_cons_of_piece {t : Token} (ht : t.isPiece = true) (ts : List Token) :
    skeleton (t :: ts) = skeleton ts :=
  List.filter_cons_of_neg (by rw [ht]; decide)

/-- Any other token stays. -/
theorem skeleton_cons {t : Token} (ht : t.isPiece = false) (ts : List Token) :
    skeleton (t :: ts) = t :: skeleton ts :=
  List.filter_cons_of_pos (by rw [ht]; rfl)

/-- The skeleton of two streams in a row. -/
theorem skeleton_append (ts us : List Token) :
    skeleton (ts ++ us) = skeleton ts ++ skeleton us :=
  List.filter_append ts us

/-- Nothing is left of pieces. -/
theorem skeleton_eq_nil {ts : List Token} (h : ∀ t ∈ ts, t.isPiece = true) : skeleton ts = [] := by
  rw [skeleton, List.filter_eq_nil_iff]
  intro t ht
  rw [h t ht]
  decide

/-- A skeleton holds no token that the stream does not hold. -/
theorem not_mem_skeleton {t : Token} {ts : List Token} (h : t ∉ ts) : t ∉ skeleton ts :=
  fun hmem => h (List.mem_of_mem_filter hmem)

/-- Behind a token that is neither a quote nor a piece no piece comes first. -/
theorem quoted_of_isChain_cons {t : Token} {ts : List Token} (h : (t :: ts).IsChain MayFollow)
    (hquote : t ≠ .operator .quote) (hpiece : t.isPiece = false) : Quoted ts := by
  refine ⟨fun u hu => ?_, h.tail⟩
  rw [← Bool.not_eq_true]
  intro hup
  rcases (List.isChain_cons.1 h).1 u hu hup with ht | ht
  · exact hquote ht
  · rw [ht] at hpiece
    cases hpiece

/-- The first token of a skeleton is the first of the stream. -/
theorem Quoted.head?_skeleton {ts : List Token} (h : Quoted ts) :
    (skeleton ts).head? = ts.head? := by
  cases ts with
  | nil => rfl
  | cons t ts =>
      rw [skeleton_cons (h.head t rfl)]
      rfl

/-- What a skeleton begins with, the stream begins with too. -/
theorem Quoted.eq_cons_of_skeleton {ts us : List Token} {t : Token} (h : Quoted ts)
    (hs : skeleton ts = t :: us) : ∃ rest, ts = t :: rest ∧ skeleton rest = us := by
  cases ts with
  | nil => cases hs
  | cons u rest =>
      rw [skeleton_cons (h.head u rfl)] at hs
      obtain ⟨rfl, hrest⟩ := List.cons.inj hs
      exact ⟨rest, rfl, hrest⟩

/-! ### Answers that are alike -/

/-- Two answers are alike if both are results, and these are related, or if both are misfits that
differ in their places only. -/
inductive Alike {α β : Type} (R : α → β → Prop) : Except Misfit α → Except Misfit β → Prop
  | ok {a : α} {b : β} (h : R a b) : Alike R (.ok a) (.ok b)
  | error {m n : Misfit} (hexpected : m.expected = n.expected) (hfound : m.found = n.found) :
      Alike R (.error m) (.error n)

namespace Alike

variable {α β γ δ : Type} {R : α → β → Prop} {S : γ → δ → Prop}

/-- Going on alike from answers that are alike. -/
theorem bind {x : Except Misfit α} {y : Except Misfit β} {f : α → Except Misfit γ}
    {g : β → Except Misfit δ} (h : Alike R x y) (hfg : ∀ a b, R a b → Alike S (f a) (g b)) :
    Alike S (x >>= f) (y >>= g) := by
  cases h with
  | ok hab => exact hfg _ _ hab
  | error hexpected hfound => exact .error hexpected hfound

/-- Results of answers that are alike, taken further. -/
theorem map {x : Except Misfit α} {y : Except Misfit β} {f : α → γ} {g : β → δ} (h : Alike R x y)
    (hfg : ∀ a b, R a b → S (f a) (g b)) : Alike S (x.map f) (y.map g) := by
  cases h with
  | ok hab => exact .ok (hfg _ _ hab)
  | error hexpected hfound => exact .error hexpected hfound

/-- Two answers that are alike to a third. -/
theorem join {x : Except Misfit α} {y : Except Misfit γ} {z : Except Misfit β} {S : γ → β → Prop}
    (hx : Alike R x z) (hy : Alike S y z) : Alike (fun a c => ∃ b, R a b ∧ S c b) x y := by
  cases hx with
  | ok hab =>
      cases hy with
      | ok hcb => exact .ok ⟨_, hab, hcb⟩
  | error hexpected hfound =>
      cases hy with
      | error hexpected' hfound' =>
          exact .error (hexpected.trans hexpected'.symm) (hfound.trans hfound'.symm)

/-- Reading one after another, from things in pairs. -/
theorem mapM {as : List α} {bs : List β} {f : α → Except Misfit γ} {g : β → Except Misfit δ}
    (h : List.Forall₂ R as bs) (hfg : ∀ a b, R a b → Alike S (f a) (g b)) :
    Alike (List.Forall₂ S) (as.mapM f) (bs.mapM g) := by
  induction h with
  | nil => exact .ok .nil
  | cons hab _ ih =>
      rw [List.mapM_cons, List.mapM_cons]
      refine (hfg _ _ hab).bind fun c d hcd => ?_
      exact ih.bind fun cs ds hcds => .ok (.cons hcd hcds)

end Alike

/-! ### Scopes -/

/-- The tokens up to the brace that closes a scope, in a skeleton. -/
theorem map_take_closing?_skeleton (depth : Nat) (ts : List Token) :
    (closing? depth (skeleton ts)).map (skeleton ts).take
      = (closing? depth ts).map fun n => skeleton (ts.take n) := by
  -- One token more in front of the scope comes out in front of what is inside.
  have hcons {t : Token} {ts : List Token} {depth : Nat} (ht : t.isPiece = false)
      (ih : (closing? depth (skeleton ts)).map (skeleton ts).take
        = (closing? depth ts).map fun n => skeleton (ts.take n)) :
      ((closing? depth (skeleton ts)).map (· + 1)).map (t :: skeleton ts).take
        = ((closing? depth ts).map (· + 1)).map fun n => skeleton ((t :: ts).take n) := by
    have h := congrArg (Option.map (t :: ·)) ih
    simpa [Function.comp_def, skeleton_cons ht] using h
  induction ts generalizing depth with
  | nil => rfl
  | cons t ts ih =>
      by_cases ho : t = .operator .openBrace
      · subst ho
        exact hcons rfl (ih (depth + 1))
      by_cases hc : t = .operator .closeBrace
      · subst hc
        cases depth with
        | zero => rfl
        | succ depth => exact hcons rfl (ih depth)
      · rw [closing?_cons ho hc]
        cases ht : t.isPiece with
        | true =>
            rw [skeleton_cons_of_piece ht, ih depth, Option.map_map]
            simp [Function.comp_def, skeleton_cons_of_piece ht]
        | false =>
            rw [skeleton_cons ht, closing?_cons ho hc]
            exact hcons ht (ih depth)

/-- A scope in a skeleton is read like the scope. -/
theorem readScope_skeleton {ts : List Token} (h : ∀ t ∈ ts.head?, t.isPiece = false)
    (i j : Nat) (opening : Expected) :
    Alike (fun a b => b = skeleton a) (readScope i opening ts)
      (readScope j opening (skeleton ts)) := by
  cases ts with
  | nil => exact .error rfl rfl
  | cons t inner =>
      rw [skeleton_cons (h t rfl)]
      by_cases ht : t = .operator .openBrace
      · subst ht
        have hclose := map_take_closing?_skeleton 0 inner
        simp only [readScope]
        cases hn : closing? 0 inner with
        | none =>
            rw [hn, Option.map_none, Option.map_eq_none_iff] at hclose
            rw [hclose]
            exact .error rfl rfl
        | some n =>
            rw [hn, Option.map_some, Option.map_eq_some_iff] at hclose
            obtain ⟨k, hk, htake⟩ := hclose
            rw [hk]
            exact .ok htake
      · rw [readScope, readScope]
        · exact .error rfl rfl
        · rintro _ ⟨⟩
          exact ht rfl
        · rintro _ ⟨⟩
          exact ht rfl

/-- The global region is read behind the first word `global`. -/
theorem globalRegion_append {before : List Token} (h : .keyword .globals ∉ before)
    (behind : List Token) :
    globalRegion (before ++ .keyword .globals :: behind)
      = (readScope (before.length + 1) .globalScope behind).map some := by
  have hidx : (before ++ .keyword .globals :: behind).findIdx (·.isKeyword .globals)
      = before.length := findIdx_append_cons (by simp [Token.isKeyword]) h behind
  have hdrop : (before ++ .keyword .globals :: behind).drop (before.length + 1) = behind := by
    rw [← List.drop_drop, List.drop_left]
    rfl
  rw [globalRegion, hidx, if_pos (by simp), hdrop]

/-- The global region of a skeleton is read like the global region. -/
theorem globalRegion_skeleton {ts : List Token} (h : ts.IsChain MayFollow) :
    Alike (fun a b => b = a.map skeleton) (globalRegion ts) (globalRegion (skeleton ts)) := by
  by_cases hmem : .keyword .globals ∈ ts
  · obtain ⟨before, behind, rfl, hbefore⟩ := List.eq_append_cons_of_mem hmem
    have hbehind : Quoted behind :=
      quoted_of_isChain_cons h.right_of_append (by rintro ⟨⟩) rfl
    rw [skeleton_append, skeleton_cons rfl, globalRegion_append hbefore,
      globalRegion_append (not_mem_skeleton hbefore)]
    exact (readScope_skeleton hbehind.head _ _ .globalScope).map fun _ _ => congrArg some
  · rw [globalRegion_of_not_mem hmem, globalRegion_of_not_mem (not_mem_skeleton hmem)]
    exact .ok rfl

/-! ### Parameters -/

/-- No piece of a string stands before the first quote. -/
inductive QuoteFirst : List Token → Prop
  | nil : QuoteFirst []
  | quote (ts : List Token) : QuoteFirst (.operator .quote :: ts)
  | cons {t : Token} {ts : List Token} (ht : t.isPiece = false) (h : QuoteFirst ts) :
      QuoteFirst (t :: ts)

namespace QuoteFirst

variable {ts : List Token}

/-- The first token is not a piece. -/
theorem isPiece_head {t : Token} (h : QuoteFirst (t :: ts)) : t.isPiece = false := by
  cases h with
  | quote => rfl
  | cons ht _ => exact ht

/-- Behind a token that is not a quote the same holds. -/
theorem tail {t : Token} (h : QuoteFirst (t :: ts)) (ht : t ≠ .operator .quote) :
    QuoteFirst ts := by
  cases h with
  | quote => exact absurd rfl ht
  | cons _ h => exact h

/-- It holds of the first tokens. -/
theorem left {us : List Token} (h : QuoteFirst (ts ++ us)) : QuoteFirst ts := by
  induction ts with
  | nil => exact .nil
  | cons t ts ih =>
      by_cases ht : t = .operator .quote
      · subst ht
        exact .quote ts
      · exact .cons h.isPiece_head (ih (h.tail ht))

/-- It holds when tokens are left out, the quotes apart. -/
theorem filter {p : Token → Bool} (hp : p (.operator .quote) = true) (h : QuoteFirst ts) :
    QuoteFirst (ts.filter p) := by
  induction h with
  | nil => exact .nil
  | quote ts =>
      rw [List.filter_cons_of_pos hp]
      exact .quote _
  | @cons t ts ht _ ih =>
      rw [List.filter_cons]
      split
      · exact .cons ht ih
      · exact ih

end QuoteFirst

/-- If all pieces stand behind quotes, none stands before the first. -/
theorem Quoted.quoteFirst {ts : List Token} (h : Quoted ts) : QuoteFirst ts := by
  induction ts with
  | nil => exact .nil
  | cons t ts ih =>
      have ht : t.isPiece = false := h.head t rfl
      by_cases hquote : t = .operator .quote
      · subst hquote
        exact .quote ts
      · exact .cons ht (ih (quoted_of_isChain_cons h.chain hquote ht))

/-- What tokens with places begin with, if the tokens are a skeleton. -/
theorem eq_cons_of_map_fst_eq {t : Token} {ts : List Token} {items : List (Token × Nat)}
    (ht : t.isPiece = false) (h : items.map Prod.fst = skeleton (t :: ts)) :
    ∃ place rest, items = (t, place) :: rest ∧ rest.map Prod.fst = skeleton ts := by
  rw [skeleton_cons ht] at h
  obtain ⟨⟨_, place⟩, rest, rfl, rfl, hrest⟩ := List.map_eq_cons_iff.1 h
  exact ⟨place, rest, rfl, hrest⟩

/-- Parameters in a skeleton are read like parameters. The reader stops at a quote, so that it
never sees a piece. -/
theorem readParameters_skeleton {items items' : List (Token × Nat)}
    (hitems : items'.map Prod.fst = skeleton (items.map Prod.fst))
    (h : QuoteFirst (items.map Prod.fst)) (i j : Nat) (close : Option Token) :
    Alike Eq (readParameters (i, close) items) (readParameters (j, close) items') := by
  fun_induction readParameters (i, close) items generalizing items' with
  | case1 =>
      obtain rfl : items' = [] := List.map_eq_nil_iff.1 hitems
      exact .ok rfl
  | case2 type _ =>
      obtain ⟨_, rest', rfl, hrest⟩ := eq_cons_of_map_fst_eq rfl hitems
      obtain rfl : rest' = [] := List.map_eq_nil_iff.1 hrest
      exact .error rfl rfl
  | case3 type _ name _ rest ih =>
      obtain ⟨_, rest₁, rfl, hrest₁⟩ := eq_cons_of_map_fst_eq rfl hitems
      obtain ⟨_, rest₂, rfl, hrest₂⟩ := eq_cons_of_map_fst_eq rfl hrest₁
      have hq : QuoteFirst (rest.map Prod.fst) := (h.tail (by rintro ⟨⟩)).tail (by rintro ⟨⟩)
      exact (ih hrest₂ hq).bind fun ps ps' hps => .ok (congrArg (⟨type, name, type.zero⟩ :: ·) hps)
  | case4 type _ other _ rest hother =>
      have hpiece : other.isPiece = false := (h.tail (by rintro ⟨⟩)).isPiece_head
      obtain ⟨_, rest', rfl, hrest⟩ := eq_cons_of_map_fst_eq rfl hitems
      obtain ⟨_, rest', rfl, -⟩ := eq_cons_of_map_fst_eq hpiece hrest
      rw [readParameters]
      · exact .error rfl rfl
      · exact hother
  | case5 other _ rest hother =>
      obtain ⟨_, rest', rfl, -⟩ := eq_cons_of_map_fst_eq h.isPiece_head hitems
      rw [readParameters]
      · exact .error rfl rfl
      · exact hother

/-! ### Functions -/

namespace Signature

/-- With a closing parenthesis, the parameters are read before it and the body behind it. -/
theorem read_append {s : Signature} {before behind : List Token}
    (h : .operator .closeParen ∉ before)
    (hrest : s.rest = before ++ .operator .closeParen :: behind) :
    s.read = do
      let parameters ← readParameters (s.index + 3 + before.length, some (.operator .closeParen))
        ((before.zipIdx (s.index + 3)).filter fun item => !item.1.isOperator .comma)
      let body ← readScope (s.index + 3 + before.length + 1) (.body s.name) behind
      return { result := s.result, name := s.name, parameters, body } := by
  have hidx : s.rest.findIdx (·.isOperator .closeParen) = before.length := by
    rw [hrest]
    exact findIdx_append_cons (by simp [Token.isOperator]) h behind
  rw [read, hidx, hrest, List.drop_left, List.take_left]

/-- A signature of a stream and the same one in the skeleton. -/
structure Reduces (s s' : Signature) : Prop where
  /-- The results are of one type. -/
  result : s'.result = s.result
  /-- The names are the same. -/
  name : s'.name = s.name
  /-- What is behind is the skeleton of what was behind. -/
  rest : s'.rest = skeleton s.rest
  /-- And there all pieces stand behind quotes. -/
  quoted : Quoted s.rest

end Signature

/-- The function with the skeleton of its body. -/
def Function.skeleton (f : Function) : Function := { f with body := IntLang.skeleton f.body }

/-- A function is read from a skeleton like the function. -/
theorem Signature.Reduces.read {s s' : Signature} (h : s.Reduces s') :
    Alike (fun f g => g = f.skeleton) s.read s'.read := by
  have hrest' := h.rest
  by_cases hmem : .operator .closeParen ∈ s.rest
  · obtain ⟨before, behind, hrest, hbefore⟩ := List.eq_append_cons_of_mem hmem
    rw [hrest, skeleton_append, skeleton_cons rfl] at hrest'
    rw [read_append hbefore hrest, read_append (not_mem_skeleton hbefore) hrest', h.name, h.result]
    have hq := h.quoted
    rw [hrest] at hq
    have hbehind : Quoted behind :=
      quoted_of_isChain_cons hq.chain.right_of_append (by rintro ⟨⟩) rfl
    refine (readParameters_skeleton ?_ ?_ _ _ _).bind fun ps ps' hps => ?_
    · -- Pieces and commas can be left out in either order.
      rw [map_fst_filter_zipIdx, map_fst_filter_zipIdx, skeleton, skeleton, List.filter_filter,
        List.filter_filter]
      exact List.filter_congr fun t _ => Bool.and_comm _ _
    · rw [map_fst_filter_zipIdx]
      exact hq.quoteFirst.left.filter (by decide)
    · refine (readScope_skeleton hbehind.head _ _ _).bind fun body body' hbody => .ok ?_
      rw [hbody, ← hps]
      rfl
  · have hlt {ts : List Token} (h : .operator .closeParen ∉ ts) :
        ¬ ts.findIdx (·.isOperator .closeParen) < ts.length :=
      not_findIdx_lt (by simp [Token.isOperator]) h
    have hmem' : .operator .closeParen ∉ s'.rest := by
      rw [hrest']
      exact not_mem_skeleton hmem
    rw [read_of_not_lt (hlt hmem), read_of_not_lt (hlt hmem'), h.name]
    exact .error rfl rfl

/-- The signature at a place of a skeleton is the one at the place in the stream. -/
theorem Signature.at?_skeleton {t : Token} {ts : List Token} (h : (t :: ts).IsChain MayFollow)
    (ht : t.isPiece = false) (i j : Nat) :
    List.Forall₂ Reduces (at? i (t :: ts)).toList (at? j (t :: skeleton ts)).toList := by
  cases hs' : at? j (t :: skeleton ts) with
  | some s' =>
      obtain ⟨-, hts⟩ := at?_eq_some_iff.1 hs'
      obtain ⟨rfl, hident⟩ := List.cons.inj hts
      have hq : Quoted ts := quoted_of_isChain_cons h (by rintro ⟨⟩) rfl
      obtain ⟨ts₁, rfl, hparen⟩ := hq.eq_cons_of_skeleton hident
      have hq₁ : Quoted ts₁ := quoted_of_isChain_cons hq.chain (by rintro ⟨⟩) rfl
      obtain ⟨ts₂, rfl, hrest⟩ := hq₁.eq_cons_of_skeleton hparen
      have hq₂ : Quoted ts₂ := quoted_of_isChain_cons hq₁.chain (by rintro ⟨⟩) rfl
      exact .cons ⟨rfl, rfl, hrest.symm, hq₂⟩ .nil
  | none =>
      cases hs : at? i (t :: ts) with
      | none => exact .nil
      | some s =>
          obtain ⟨-, hts⟩ := at?_eq_some_iff.1 hs
          obtain ⟨rfl, rfl⟩ := List.cons.inj hts
          cases hs'

/-- The signatures of a skeleton are those of the stream, one by one. -/
theorem signaturesFrom_skeleton {ts : List Token} (h : ts.IsChain MayFollow) (i j : Nat) :
    List.Forall₂ Signature.Reduces (signaturesFrom i ts) (signaturesFrom j (skeleton ts)) := by
  induction ts generalizing i j with
  | nil => exact .nil
  | cons t ts ih =>
      cases ht : t.isPiece with
      | true =>
          have hnone : Signature.at? i (t :: ts) = none := by
            rw [Option.eq_none_iff_forall_ne_some]
            intro s hs
            obtain ⟨-, hts⟩ := Signature.at?_eq_some_iff.1 hs
            obtain ⟨rfl, -⟩ := List.cons.inj hts
            cases ht
          rw [skeleton_cons_of_piece ht, signaturesFrom, hnone]
          exact ih h.tail (i + 1) j
      | false =>
          rw [skeleton_cons ht, signaturesFrom, signaturesFrom]
          exact List.rel_append (Signature.at?_skeleton h ht i j) (ih h.tail (i + 1) (j + 1))

/-! ### The whole program -/

/-- The program with the skeletons of its bodies and of its global region. -/
def Program.skeleton (p : Program) : Program where
  table := p.table.map fun item => (item.1, item.2.skeleton)
  order := p.order
  globals := IntLang.skeleton p.globals

/-- A function takes the same place among skeletons. -/
theorem map_skeleton_enter (name : Text) (f : Function) (items : List (Text × Function)) :
    (enter name f items).map (fun item => (item.1, item.2.skeleton))
      = enter name f.skeleton (items.map fun item => (item.1, item.2.skeleton)) := by
  induction items with
  | nil => rfl
  | cons item items ih =>
      rw [enter, List.map_cons, enter, ← ih]
      split <;> rfl

namespace Program

/-- The function of a name. -/
theorem get?_skeleton (p : Program) (name : Text) :
    p.skeleton.get? name = (p.get? name).map Function.skeleton := by
  rw [get?, get?, skeleton]
  induction p.table with
  | nil => rfl
  | cons item items ih =>
      rw [List.map_cons, lookup_row, ih, lookup_row]
      split <;> rfl

/-- Functions that are added one after another. -/
theorem skeleton_addAll (p : Program) (fs : List Function) :
    (p.addAll fs).skeleton = p.skeleton.addAll (fs.map Function.skeleton) := by
  induction fs generalizing p with
  | nil => rfl
  | cons f fs ih =>
      have hadd : (p.add f).skeleton = p.skeleton.add f.skeleton := by
        have hname : f.skeleton.name = f.name := rfl
        simp only [add, hname, get?_skeleton, Option.isSome_map]
        simp only [skeleton, map_skeleton_enter]
      rw [List.map_cons]
      change ((p.add f).addAll fs).skeleton = (p.skeleton.add f.skeleton).addAll _
      rw [ih, hadd]

end Program

/-- **The program of a skeleton is the skeleton of the program**, and misfits differ in their places
only. -/
theorem segment_skeleton {ts : List Token} (h : ts.IsChain MayFollow) :
    Alike (fun p q => q = p.skeleton) (segment ts) (segment (skeleton ts)) := by
  refine (globalRegion_skeleton h).bind fun region region' hregion => ?_
  refine (Alike.mapM (signaturesFrom_skeleton h 0 0) fun _ _ => Signature.Reduces.read).bind ?_
  intro fs fs' hfs
  obtain rfl : fs' = fs.map Function.skeleton := by
    induction hfs with
    | nil => rfl
    | cons hf _ ih => rw [List.map_cons, hf, ih]
  refine .ok ?_
  rw [Program.skeleton_addAll, hregion]
  cases region <;> rfl

/-! ### Imports -/

/-- The names that are imported: the first, if it is at the first place, and the others. -/
theorem importedNames_cons (t : Token) (gs : List Token) :
    importedNames (t :: gs) = (importAt? (t :: gs) 0).toList ++ importedNames gs := by
  have hsucc : importAt? (t :: gs) ∘ Nat.succ = importAt? gs := rfl
  rw [importedNames, List.length_cons, List.range_succ_eq_map, List.filterMap_cons,
    List.filterMap_map, hsucc]
  cases importAt? (t :: gs) 0 <;> rfl

/-- A skeleton imports the same names. -/
theorem importedNames_skeleton {gs : List Token} (h : gs.IsChain MayFollow) :
    importedNames (skeleton gs) = importedNames gs := by
  induction gs with
  | nil => rfl
  | cons t gs ih =>
      rw [importedNames_cons t gs, ← ih h.tail]
      -- The next token matters behind the word `import` only, and there it is not a piece.
      by_cases ht : t = .keyword .importHeader
      · subst ht
        have hq : Quoted gs := quoted_of_isChain_cons h (by rintro ⟨⟩) rfl
        have hhead : importAt? (.keyword .importHeader :: skeleton gs) 0
            = importAt? (.keyword .importHeader :: gs) 0 := by
          simp only [importAt?, List.getElem?_cons_succ, ← List.head?_eq_getElem?, List.head?_cons,
            hq.head?_skeleton]
        rw [skeleton_cons rfl, importedNames_cons, hhead]
      · have hnone (us : List Token) : importAt? (t :: us) 0 = none :=
          importAt?_eq_none fun h => ht (Option.some.inj h)
        rw [hnone]
        cases hpiece : t.isPiece with
        | true => rw [skeleton_cons_of_piece hpiece]; rfl
        | false => rw [skeleton_cons hpiece, importedNames_cons, hnone]

/-! ### What is between two quotes -/

/-- Two programs of one structure: they have functions of the same names, in the same order and with
the same signatures, and they import the same headers. -/
structure SameStructure (a b : Program) : Prop where
  /-- The names of the functions are the same. -/
  order : a.order = b.order
  /-- Functions of one name have the same result and the same parameters. -/
  signature : ∀ name, (a.get? name).map (fun f => (f.result, f.parameters))
    = (b.get? name).map fun f => (f.result, f.parameters)
  /-- The imports are the same. -/
  imports : importedNames a.globals = importedNames b.globals

/-- In the global region of a program, too, pieces stand behind quotes or pieces. -/
theorem isChain_globals {ts : List Token} (hts : ts.IsChain MayFollow) {p : Program}
    (h : segment ts = .ok p) : p.globals.IsChain MayFollow := by
  obtain ⟨gs, ds, hgs, -, rfl⟩ := segment_eq_ok h
  rw [Program.globals_addAll]
  cases hgs with
  | absent => exact .nil
  | region => exact (hts.take _).drop _

/-- Programs with one skeleton have one structure. -/
theorem sameStructure_of_skeleton_eq {a b : Program} (ha : a.globals.IsChain MayFollow)
    (hb : b.globals.IsChain MayFollow) (h : a.skeleton = b.skeleton) : SameStructure a b := by
  refine ⟨?_, fun name => ?_, ?_⟩
  · have horder : a.skeleton.order = b.skeleton.order := congrArg Program.order h
    exact horder
  · have hget := congrArg (fun p => (p.get? name).map fun f => (f.result, f.parameters)) h
    simp only [Program.get?_skeleton, Option.map_map] at hget
    exact hget
  · have hglobals : skeleton a.globals = skeleton b.globals := congrArg Program.globals h
    rw [← importedNames_skeleton ha, hglobals, importedNames_skeleton hb]

/-- The skeleton of the tokens of a text does not depend on what is between two quotes. -/
theorem skeleton_tokenize_withString {p u : Text} (hp : (lex p).1 = .normal) (hu : IsContent u)
    (t : Text) :
    skeleton (tokenize (withString p u t))
      = skeleton (tokenize p ++ .operator .quote :: .operator .quote :: tokenize t) := by
  have hcontent : skeleton (contentTokens u.glyphs) = [] := by
    refine skeleton_eq_nil fun t ht => ?_
    obtain ⟨_, -, rfl⟩ := List.mem_map.1 ht
    rfl
  rw [tokenize_withString hp hu, skeleton_append, skeleton_append, skeleton_cons rfl,
    skeleton_cons rfl, skeleton_append, hcontent, List.nil_append]

/-- **What is between two quotes has no influence on the structure of a program.** Whether a text is
accepted is the same for all contents of a string in it. So are the names of the functions, their
signatures and the imports, and else what was expected and what was found. -/
theorem segment_withString {p u v : Text} (hp : (lex p).1 = .normal) (hu : IsContent u)
    (hv : IsContent v) (t : Text) :
    ((∃ a, segment (tokenize (withString p u t)) = .ok a) ↔
      ∃ b, segment (tokenize (withString p v t)) = .ok b) ∧
    (∀ a b, segment (tokenize (withString p u t)) = .ok a →
      segment (tokenize (withString p v t)) = .ok b → SameStructure a b) ∧
    ∀ m n, segment (tokenize (withString p u t)) = .error m →
      segment (tokenize (withString p v t)) = .error n →
      m.expected.text = n.expected.text ∧ m.foundText = n.foundText := by
  have hchain (s : Text) : (tokenize s).IsChain MayFollow := (quoted_tokenize s).chain
  have hskeleton :
      skeleton (tokenize (withString p u t)) = skeleton (tokenize (withString p v t)) :=
    (skeleton_tokenize_withString hp hu t).trans (skeleton_tokenize_withString hp hv t).symm
  -- Both answers are alike to that for the skeleton, which the two texts have in common.
  have halike := segment_skeleton (hchain (withString p u t))
  rw [hskeleton] at halike
  have hjoin := halike.join (segment_skeleton (hchain (withString p v t)))
  generalize hx : segment (tokenize (withString p u t)) = x at hjoin
  generalize hy : segment (tokenize (withString p v t)) = y at hjoin
  cases hjoin with
  | @ok a b h =>
      obtain ⟨_, ha, hb⟩ := h
      refine ⟨⟨fun _ => ⟨b, rfl⟩, fun _ => ⟨a, rfl⟩⟩, ?_, by rintro _ _ ⟨⟩⟩
      rintro _ _ ⟨⟩ ⟨⟩
      exact sameStructure_of_skeleton_eq (isChain_globals (hchain _) hx)
        (isChain_globals (hchain _) hy) (ha.symm.trans hb)
  | error hexpected hfound =>
      refine ⟨⟨by rintro ⟨_, ⟨⟩⟩, by rintro ⟨_, ⟨⟩⟩⟩, by rintro _ _ ⟨⟩, ?_⟩
      rintro _ _ ⟨⟩ ⟨⟩
      exact ⟨congrArg Expected.text hexpected, by rw [Misfit.foundText, Misfit.foundText, hfound]⟩

/-- The content of a string that looks like a part of a program. -/
def disguised : Text := "\x7d global \x7b import b; \x7d int g( \\\""

/-- A string that looks like a part of a program leaves the structure as an empty one does. Among
parameters it is refused for its quote. -/
theorem segment_withString_disguised :
    (lex "global\x7bimport a;").1 = .normal ∧ (lex "int f(").1 = .normal ∧ IsContent disguised ∧
    (∃ a, segment (tokenize (withString "global\x7bimport a;" disguised "\x7d int f()\x7b\x7d"))
        = .ok a ∧
      SameStructure a
        { table := [("f", ⟨.int, "f", [], []⟩)]
          order := ["f"]
          globals := [.keyword .importHeader, .ident "a", .operator .semicolon, .operator .quote,
            .operator .quote] }) ∧
    ∃ m, segment (tokenize (withString "int f(" disguised ")\x7b\x7d")) = .error m ∧
      m.expected.text = "parameter type" ∧ m.foundText = "OP(\")" := by
  have hp : (lex "global\x7bimport a;").1 = .normal := by decide +kernel
  have hp' : (lex "int f(").1 = .normal := by decide +kernel
  have hu : IsContent disguised := by decide
  refine ⟨hp, hp', hu, ?_, ?_⟩
  · have hempty : segment (tokenize (withString "global\x7bimport a;" "" "\x7d int f()\x7b\x7d"))
        = .ok { table := [("f", ⟨.int, "f", [], []⟩)]
                order := ["f"]
                globals := [.keyword .importHeader, .ident "a", .operator .semicolon,
                  .operator .quote, .operator .quote] } := by
      decide +kernel
    obtain ⟨hiff, hsame, -⟩ := segment_withString hp hu (v := "") rfl "\x7d int f()\x7b\x7d"
    obtain ⟨a, ha⟩ := hiff.2 ⟨_, hempty⟩
    exact ⟨a, ha, hsame a _ ha hempty⟩
  · have hempty : segment (tokenize (withString "int f(" "" ")\x7b\x7d"))
        = .error ⟨3, .parameterType, some (.operator .quote)⟩ := by
      decide +kernel
    obtain ⟨hiff, -, hmisfit⟩ := segment_withString hp' hu (v := "") rfl ")\x7b\x7d"
    cases hm : segment (tokenize (withString "int f(" disguised ")\x7b\x7d")) with
    | ok a =>
        obtain ⟨b, hb⟩ := hiff.1 ⟨a, hm⟩
        rw [hempty] at hb
        cases hb
    | error m => exact ⟨m, rfl, hmisfit m _ hm hempty⟩

end IntLang
