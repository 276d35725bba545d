import IntLang.Program.Segment

/-!
# Matching braces

The brace that closes a scope is the first one behind its beginning that is level with it: between
the two there are as many opening braces as closing ones (`Matches`). `closing?` walks along the
tokens and counts how many scopes are open; it finds the matching brace if there is one, and only
then (`closing?_eq_some_iff`).

What stands between two matching braces is balanced, and balanced tokens between two braces make
these match (`matches_iff_balanced`). So a scope ends at the brace that leaves balanced tokens
inside of it, and if there is none, the scope is never closed (`scopeEnd_spec`).
-/

namespace IntLang

/-! ### Counting -/

/-- The number of opening braces. -/
def openCount (ts : List Token) : Nat := ts.count (.operator .openBrace)

/-- The number of closing braces. -/
def closeCount (ts : List Token) : Nat := ts.count (.operator .closeBrace)

/-- An opening brace counts. -/
@[simp]
theorem openCount_openBrace (ts : List Token) :
    openCount (.operator .openBrace :: ts) = openCount ts + 1 :=
  List.count_cons_self

/-- An opening brace is no closing one. -/
@[simp]
theorem closeCount_openBrace (ts : List Token) :
    closeCount (.operator .openBrace :: ts) = closeCount ts :=
  List.count_cons_of_ne (by decide)

/-- A closing brace is no opening one. -/
@[simp]
theorem openCount_closeBrace (ts : List Token) :
    openCount (.operator .closeBrace :: ts) = openCount ts :=
  List.count_cons_of_ne (by decide)

/-- A closing brace counts. -/
@[simp]
theorem closeCount_closeBrace (ts : List Token) :
    closeCount (.operator .closeBrace :: ts) = closeCount ts + 1 :=
  List.count_cons_self

/-- The opening braces of two lists in a row. -/
@[simp]
theorem openCount_append (ts us : List Token) :
    openCount (ts ++ us) = openCount ts + openCount us :=
  List.count_append

/-- The closing braces of two lists in a row. -/
@[simp]
theorem closeCount_append (ts us : List Token) :
    closeCount (ts ++ us) = closeCount ts + closeCount us :=
  List.count_append

/-- Whether the braces among tokens are balanced: there are as many closing as opening ones, and at
no place more of them have come before it. -/
structure Balanced (ts : List Token) : Prop where
  /-- All scopes are closed. -/
  level : openCount ts = closeCount ts
  /-- None is closed that was not opened. -/
  low : ∀ p, p <+: ts → closeCount p ≤ openCount p

/-- The tokens strictly between two places. -/
def between (ts : List Token) (i j : Nat) : List Token := (ts.take j).drop (i + 1)

/-- Whether there is a closing brace at `close`, behind `start` and level with it. -/
def IsLevel (ts : List Token) (start close : Nat) : Prop :=
  start < close ∧ ts[close]? = some (.operator .closeBrace) ∧
    openCount (between ts start close) = closeCount (between ts start close)

/-- The brace at `close` matches the one at `start`: it is the first that is level with it. -/
structure Matches (ts : List Token) (start close : Nat) : Prop where
  /-- A scope begins. -/
  opening : ts[start]? = some (.operator .openBrace)
  /-- The two braces are level. -/
  level : IsLevel ts start close
  /-- No brace before is. -/
  least : ∀ k < close, ¬ IsLevel ts start k

/-! ### The walk -/

/-- Whether there is a closing brace at `n` that is level with the beginning, where `depth` inner
scopes are open. -/
def LevelAt (depth : Nat) (ts : List Token) (n : Nat) : Prop :=
  ts[n]? = some (.operator .closeBrace) ∧
    openCount (ts.take n) + depth = closeCount (ts.take n)

/-- The first token is level if it is a closing brace and no inner scope is open. -/
theorem levelAt_cons_zero {depth : Nat} {t : Token} {ts : List Token} :
    LevelAt depth (t :: ts) 0 ↔ t = .operator .closeBrace ∧ depth = 0 := by
  simp [LevelAt, openCount, closeCount]

/-- Behind an opening brace one more scope is open. -/
theorem levelAt_openBrace {depth n : Nat} {ts : List Token} :
    LevelAt depth (.operator .openBrace :: ts) (n + 1) ↔ LevelAt (depth + 1) ts n := by
  simp only [LevelAt, List.getElem?_cons_succ, List.take_succ_cons, openCount_openBrace,
    closeCount_openBrace, Nat.add_assoc, Nat.add_comm 1]

/-- Behind a closing brace one scope less is open. -/
theorem levelAt_closeBrace {depth n : Nat} {ts : List Token} :
    LevelAt (depth + 1) (.operator .closeBrace :: ts) (n + 1) ↔ LevelAt depth ts n := by
  simp only [LevelAt, List.getElem?_cons_succ, List.take_succ_cons, openCount_closeBrace,
    closeCount_closeBrace, ← Nat.add_assoc, Nat.add_right_cancel_iff]

/-- Behind any other token as many scopes are open as before it. -/
theorem levelAt_cons {depth n : Nat} {t : Token} {ts : List Token}
    (ho : t ≠ .operator .openBrace) (hc : t ≠ .operator .closeBrace) :
    LevelAt depth (t :: ts) (n + 1) ↔ LevelAt depth ts n := by
  simp only [LevelAt, List.getElem?_cons_succ, List.take_succ_cons, openCount, closeCount,
    List.count_cons_of_ne ho, List.count_cons_of_ne hc]

/-- The first number with a property, found one step later, is the first one with the property
moved by one, if zero does not have it. -/
theorem map_succ_eq_some_iff {P Q : Nat → Prop} {found : Option Nat} (h0 : ¬ P 0)
    (hs : ∀ n, P (n + 1) ↔ Q n)
    (hf : ∀ n, found = some n ↔ Q n ∧ ∀ k < n, ¬ Q k) (n : Nat) :
    found.map (· + 1) = some n ↔ P n ∧ ∀ k < n, ¬ P k := by
  rw [Option.map_eq_some_iff]
  constructor
  · rintro ⟨m, hm, rfl⟩
    obtain ⟨hq, hleast⟩ := (hf m).1 hm
    refine ⟨(hs m).2 hq, fun k hk => ?_⟩
    cases k with
    | zero => exact h0
    | succ k => exact fun hp => hleast k (by omega) ((hs k).1 hp)
  · rintro ⟨hp, hleast⟩
    cases n with
    | zero => exact absurd hp h0
    | succ m =>
        refine ⟨m, (hf m).2 ⟨(hs m).1 hp, fun k hk hq => ?_⟩, rfl⟩
        exact hleast (k + 1) (by omega) ((hs k).2 hq)

/-- The walk goes past a token that is no brace. -/
theorem closing?_cons {depth : Nat} {t : Token} {ts : List Token}
    (ho : t ≠ .operator .openBrace) (hc : t ≠ .operator .closeBrace) :
    closing? depth (t :: ts) = (closing? depth ts).map (· + 1) := by
  simp only [closing?, Token.isOperator, ho, hc, decide_false, Bool.false_eq_true, if_false]

/-- **The walk finds the first closing brace that is level with the beginning.** -/
theorem closing?_eq_some_iff {depth : Nat} {ts : List Token} (n : Nat) :
    closing? depth ts = some n ↔ LevelAt depth ts n ∧ ∀ k < n, ¬ LevelAt depth ts k := by
  induction ts generalizing depth n with
  | nil => simp [closing?, LevelAt]
  | cons t ts ih =>
      by_cases ho : t = .operator .openBrace
      · subst ho
        refine map_succ_eq_some_iff ?_ (fun _ => levelAt_openBrace) (fun n => ih n) n
        rw [levelAt_cons_zero]
        rintro ⟨⟨⟩, -⟩
      by_cases hc : t = .operator .closeBrace
      · subst hc
        cases depth with
        | zero =>
            have h0 : LevelAt 0 (.operator .closeBrace :: ts) 0 := levelAt_cons_zero.2 ⟨rfl, rfl⟩
            constructor
            · rintro ⟨⟩
              exact ⟨h0, by omega⟩
            · rintro ⟨-, hleast⟩
              cases n with
              | zero => rfl
              | succ n => exact absurd h0 (hleast 0 (by omega))
        | succ depth =>
            refine map_succ_eq_some_iff ?_ (fun _ => levelAt_closeBrace) (fun n => ih n) n
            rw [levelAt_cons_zero]
            rintro ⟨-, ⟨⟩⟩
      · rw [closing?_cons ho hc]
        refine map_succ_eq_some_iff ?_ (fun _ => levelAt_cons ho hc) (fun n => ih n) n
        rw [levelAt_cons_zero]
        exact fun h => hc h.1

/-! ### Matching -/

/-- Places of a stream, counted from behind its `start`. -/
theorem between_add (ts : List Token) (start n : Nat) :
    between ts start (start + 1 + n) = (ts.drop (start + 1)).take n := by
  rw [between, List.drop_take, Nat.add_sub_cancel_left]

/-- Braces that are level in a stream are level behind the first of them. -/
theorem isLevel_iff {ts : List Token} {start n : Nat} :
    IsLevel ts start (start + 1 + n) ↔ LevelAt 0 (ts.drop (start + 1)) n := by
  rw [IsLevel, LevelAt, between_add, List.getElem?_drop, Nat.add_zero]
  constructor
  · rintro ⟨-, h⟩
    exact h
  · intro h
    exact ⟨by omega, h⟩

/-- **The walk finds the matching brace.** -/
theorem closing?_drop_eq_some_iff {ts : List Token} {start n : Nat}
    (ho : ts[start]? = some (.operator .openBrace)) :
    closing? 0 (ts.drop (start + 1)) = some n ↔ Matches ts start (start + 1 + n) := by
  rw [closing?_eq_some_iff]
  constructor
  · rintro ⟨hn, hleast⟩
    refine ⟨ho, isLevel_iff.2 hn, fun k hk hlevel => ?_⟩
    obtain ⟨j, rfl⟩ := Nat.exists_eq_add_of_le (Nat.succ_le_of_lt hlevel.1)
    exact hleast j (by omega) (isLevel_iff.1 hlevel)
  · rintro ⟨-, hlevel, hleast⟩
    exact ⟨isLevel_iff.1 hlevel, fun k hk h => hleast _ (by omega) (isLevel_iff.2 h)⟩

/-! ### Balance -/

/-- Behind a brace that no brace is level with, as long as none is, not more scopes are closed than
opened. -/
theorem closeCount_le_of_not_levelAt {ts : List Token} {n : Nat} (h : ∀ k < n, ¬ LevelAt 0 ts k) :
    closeCount (ts.take n) ≤ openCount (ts.take n) := by
  induction n with
  | zero => exact Nat.le_refl _
  | succ n ih =>
      have ih := ih fun k hk => h k (by omega)
      rw [List.take_add_one, openCount_append, closeCount_append]
      cases ht : ts[n]? with
      | none => exact ih
      | some t =>
          by_cases hc : t = .operator .closeBrace
          · subst hc
            -- The next one closes a scope, so one must be open: else it were level.
            have hne : openCount (ts.take n) ≠ closeCount (ts.take n) := fun he =>
              h n (Nat.lt_succ_self n) ⟨ht, he⟩
            have : closeCount [.operator .closeBrace] = 1 := rfl
            simp only [Option.toList_some]
            omega
          · have : closeCount [t] = 0 := List.count_eq_zero.2 (by simpa using Ne.symm hc)
            simp only [Option.toList_some]
            omega

/-- **What stands between matching braces is balanced.** -/
theorem Matches.balanced {ts : List Token} {start close : Nat} (h : Matches ts start close) :
    Balanced (between ts start close) := by
  obtain ⟨n, rfl⟩ := Nat.exists_eq_add_of_le (Nat.succ_le_of_lt h.level.1)
  refine ⟨h.level.2.2, fun p hp => ?_⟩
  rw [between_add] at hp
  have hlen : p.length ≤ n := Nat.le_trans hp.length_le (List.length_take_le n _)
  have htake : p = (ts.drop (start + 1)).take p.length := by
    rw [List.prefix_iff_eq_take.1 (hp.trans (List.take_prefix n _))]
    simp
  rw [htake]
  refine closeCount_le_of_not_levelAt fun k hk hlevel => ?_
  exact h.least _ (by omega) (isLevel_iff.2 hlevel)

/-- **Braces around balanced tokens match.** -/
theorem matches_of_balanced {inner : List Token} (h : Balanced inner)
    (before behind : List Token) :
    Matches (before ++ .operator .openBrace :: (inner ++ .operator .closeBrace :: behind))
      before.length (before.length + 1 + inner.length) := by
  have hdrop : (before ++ .operator .openBrace :: (inner ++ .operator .closeBrace :: behind)).drop
      (before.length + 1) = inner ++ .operator .closeBrace :: behind := by
    rw [← List.drop_drop, List.drop_left]
    rfl
  refine (closing?_drop_eq_some_iff (by simp)).1 ?_
  rw [hdrop, closing?_eq_some_iff]
  refine ⟨⟨?_, ?_⟩, ?_⟩
  · rw [List.getElem?_append_right (Nat.le_refl _), Nat.sub_self]
    rfl
  · rw [List.take_left, Nat.add_zero]
    exact h.level
  · rintro k hk ⟨hclose, hlevel⟩
    -- A brace inside that were level would close one scope too many.
    rw [List.getElem?_append_left hk] at hclose
    rw [List.take_append_of_le_length (Nat.le_of_lt hk), Nat.add_zero] at hlevel
    have hlow := h.low _ (List.take_prefix (k + 1) inner)
    rw [List.take_add_one, hclose, openCount_append, closeCount_append] at hlow
    have ho : openCount [.operator .closeBrace] = 0 := rfl
    have hc : closeCount [.operator .closeBrace] = 1 := rfl
    simp only [Option.toList_some] at hlow
    omega

/-- Two tokens and what stands between them are cut out of their stream. -/
theorem eq_append_between {ts : List Token} {i j : Nat} {t u : Token} (hi : ts[i]? = some t)
    (hlt : i < j) (hj : ts[j]? = some u) :
    ts = ts.take i ++ t :: (between ts i j ++ u :: ts.drop (j + 1)) := by
  obtain ⟨n, rfl⟩ := Nat.exists_eq_add_of_le (Nat.succ_le_of_lt hlt)
  obtain ⟨hlti, hi⟩ := List.getElem?_eq_some_iff.1 hi
  rw [← List.getElem?_drop] at hj
  obtain ⟨hltj, hj⟩ := List.getElem?_eq_some_iff.1 hj
  have hdrop : ts.drop (i + 1 + n + 1) = (ts.drop (i + 1)).drop (n + 1) := by
    rw [List.drop_drop, Nat.add_assoc (i + 1)]
  rw [between_add, hdrop, ← hj, ← List.drop_eq_getElem_cons hltj, List.take_append_drop, ← hi,
    ← List.drop_eq_getElem_cons hlti, List.take_append_drop]

/-- The scope of two matching braces is cut out of its stream. -/
theorem Matches.exists_append {ts : List Token} {start close : Nat} (h : Matches ts start close) :
    ∃ before behind, ts = before ++ .operator .openBrace
      :: (between ts start close ++ .operator .closeBrace :: behind) :=
  ⟨_, _, eq_append_between h.opening h.level.1 h.level.2.1⟩

/-- **Two braces match exactly if what stands between them is balanced.** -/
theorem matches_iff_balanced {ts : List Token} {start close : Nat}
    (ho : ts[start]? = some (.operator .openBrace)) :
    Matches ts start close ↔ start < close ∧ ts[close]? = some (.operator .closeBrace) ∧
      Balanced (between ts start close) := by
  constructor
  · intro h
    exact ⟨h.level.1, h.level.2.1, h.balanced⟩
  · rintro ⟨hlt, hc, hbalanced⟩
    have hm := matches_of_balanced hbalanced (ts.take start) (ts.drop (close + 1))
    rw [← eq_append_between ho hlt hc] at hm
    have hclose := (List.getElem?_eq_some_iff.1 hc).1
    have hstart : (ts.take start).length = start := by
      rw [List.length_take]
      omega
    have hinner : (between ts start close).length = close - (start + 1) := by
      rw [between, List.length_drop, List.length_take]
      omega
    rw [hstart, hinner] at hm
    rwa [Nat.add_sub_cancel' hlt] at hm

/-- Tokens without braces are balanced. -/
theorem balanced_of_not_mem {ts : List Token} (ho : .operator .openBrace ∉ ts)
    (hc : .operator .closeBrace ∉ ts) : Balanced ts := by
  refine ⟨?_, fun p hp => ?_⟩
  · rw [openCount, closeCount, List.count_eq_zero.2 ho, List.count_eq_zero.2 hc]
  · rw [closeCount, List.count_eq_zero.2 fun h => hc (hp.subset h)]
    exact Nat.zero_le _

/-- Balanced tokens in a row are balanced. -/
theorem Balanced.append {ts us : List Token} (hts : Balanced ts) (hus : Balanced us) :
    Balanced (ts ++ us) := by
  have hlevel := hts.level
  refine ⟨by rw [openCount_append, closeCount_append, hts.level, hus.level], fun p hp => ?_⟩
  rcases List.prefix_or_prefix_of_prefix hp (List.prefix_append ts us) with hp' | ⟨q, rfl⟩
  · exact hts.low p hp'
  · have hq := hus.low q ((List.prefix_append_right_inj ts).1 hp)
    rw [openCount_append, closeCount_append]
    omega

/-- A scope around balanced tokens is balanced. -/
theorem Balanced.scope {ts : List Token} (h : Balanced ts) :
    Balanced (.operator .openBrace :: (ts ++ [.operator .closeBrace])) := by
  have hlevel := h.level
  have hclose : openCount [.operator .closeBrace] = 0 ∧ closeCount [.operator .closeBrace] = 1 :=
    ⟨rfl, rfl⟩
  refine ⟨?_, fun p hp => ?_⟩
  · simp only [openCount_openBrace, closeCount_openBrace, openCount_append, closeCount_append]
    omega
  · rcases List.prefix_cons_iff.1 hp with rfl | ⟨q, rfl, hq⟩
    · exact Nat.le_refl _
    rw [openCount_openBrace, closeCount_openBrace]
    rcases List.prefix_concat_iff.1 hq with rfl | hq
    · rw [openCount_append, closeCount_append]
      omega
    · have := h.low q hq
      omega

/-! ### Where a scope ends -/

/-- The place of the brace that closes the scope which opens at `start`. -/
def scopeEnd? (ts : List Token) (start : Nat) : Option Nat :=
  (closing? 0 (ts.drop (start + 1))).map (start + 1 + ·)

/-- The end of a scope is the brace that matches its beginning. -/
theorem scopeEnd?_eq_some_iff {ts : List Token} {start close : Nat}
    (ho : ts[start]? = some (.operator .openBrace)) :
    scopeEnd? ts start = some close ↔ Matches ts start close := by
  rw [scopeEnd?, Option.map_eq_some_iff]
  constructor
  · rintro ⟨n, hn, rfl⟩
    exact (closing?_drop_eq_some_iff ho).1 hn
  · intro h
    obtain ⟨n, rfl⟩ := Nat.exists_eq_add_of_le (Nat.succ_le_of_lt h.level.1)
    exact ⟨n, (closing?_drop_eq_some_iff ho).2 h, rfl⟩

/-- A walk that finds nothing has met no brace that is level with the beginning. -/
theorem not_levelAt_of_closing?_eq_none {depth : Nat} {ts : List Token}
    (h : closing? depth ts = none) (n : Nat) : ¬ LevelAt depth ts n := by
  -- The first such brace would have been found.
  induction n using Nat.strongRecOn with
  | ind n ih =>
      intro hn
      rw [(closing?_eq_some_iff n).2 ⟨hn, ih⟩] at h
      cases h

/-- **Behind a brace without a match no more scopes are closed than opened**, however far the stream
goes on. -/
theorem closeCount_le_of_scopeEnd?_eq_none {ts : List Token} {start : Nat}
    (h : scopeEnd? ts start = none) {p : List Token} (hp : p <+: ts.drop (start + 1)) :
    closeCount p ≤ openCount p := by
  rw [scopeEnd?, Option.map_eq_none_iff] at h
  rw [List.prefix_iff_eq_take.1 hp]
  exact closeCount_le_of_not_levelAt fun k _ => not_levelAt_of_closing?_eq_none h k

/-- A scope is read up to its end; without one, the misfit is at its beginning. -/
theorem readScope_of_scopeEnd? {ts : List Token} {start : Nat}
    (ho : ts[start]? = some (.operator .openBrace)) (opening : Expected) :
    (∀ close, scopeEnd? ts start = some close →
      readScope start opening (ts.drop start) = .ok (between ts start close)) ∧
    (scopeEnd? ts start = none →
      readScope start opening (ts.drop start) = .error ⟨start, .scopeEnd, none⟩) := by
  obtain ⟨hlt, hopen⟩ := List.getElem?_eq_some_iff.1 ho
  rw [List.drop_eq_getElem_cons hlt, hopen]
  simp only [readScope, scopeEnd?]
  cases closing? 0 (ts.drop (start + 1)) with
  | none => exact ⟨by rintro _ ⟨⟩, fun _ => rfl⟩
  | some n =>
      refine ⟨?_, by rintro ⟨⟩⟩
      rintro _ ⟨⟩
      rw [between_add]

/-- **A scope ends at the brace that leaves balanced tokens inside it, and at no other.** There is
no end exactly if there is no such brace, and then everything behind the beginning, as far as one
may read, closes no more scopes than it opens. The scope is read accordingly: what is inside of it,
or the complaint that its beginning has no match. -/
theorem scopeEnd_spec (ts : List Token) (start : Nat)
    (ho : ts[start]? = some (.operator .openBrace)) :
    (∀ close, scopeEnd? ts start = some close ↔
      start < close ∧ ts[close]? = some (.operator .closeBrace) ∧
        Balanced (between ts start close)) ∧
    (scopeEnd? ts start = none ↔ ¬ ∃ close, start < close ∧
      ts[close]? = some (.operator .closeBrace) ∧ Balanced (between ts start close)) ∧
    (scopeEnd? ts start = none → ∀ p, p <+: ts.drop (start + 1) → closeCount p ≤ openCount p) ∧
    ∀ opening,
      (∀ close, scopeEnd? ts start = some close →
        readScope start opening (ts.drop start) = .ok (between ts start close)) ∧
      (scopeEnd? ts start = none →
        readScope start opening (ts.drop start) = .error ⟨start, .scopeEnd, none⟩) := by
  have hiff (close : Nat) : scopeEnd? ts start = some close ↔
      start < close ∧ ts[close]? = some (.operator .closeBrace) ∧
        Balanced (between ts start close) := by
    rw [scopeEnd?_eq_some_iff ho, matches_iff_balanced ho]
  refine ⟨hiff, ?_, fun h p hp => closeCount_le_of_scopeEnd?_eq_none h hp,
    readScope_of_scopeEnd? ho⟩
  rw [Option.eq_none_iff_forall_ne_some, not_exists]
  exact forall_congr' fun close => not_congr (hiff close)

/-- Scopes side by side and inside one another are passed over; and one that is never closed has no
end, though a brace closes the scope inside it. -/
theorem scopeEnd_spec_nested :
    let nested : List Token := [.operator .openBrace, .operator .openBrace, .operator .closeBrace,
      .operator .openBrace, .operator .closeBrace, .operator .closeBrace, .operator .closeBrace]
    let unclosed : List Token := [.operator .openBrace, .operator .openBrace, .operator .closeBrace]
    (scopeEnd? nested 0 = some 5 ∧ Balanced (between nested 0 5)) ∧
      ∀ p, p <+: unclosed.drop 1 → closeCount p ≤ openCount p := by
  intro nested unclosed
  have hend := ((scopeEnd_spec nested 0 rfl).1 5).1 rfl
  exact ⟨⟨rfl, hend.2.2⟩, (scopeEnd_spec unclosed 0 rfl).2.2.1 rfl⟩

end IntLang
