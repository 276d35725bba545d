/-!
# Answers of computations

When a computation made of two gives an answer: one that may fail, if both of them give one; one
with a state, always, and the second goes on from the state that the first leaves.
-/

namespace IntLang

/-- A computation that continues another gives an answer if the two of them do. -/
theorem bind_eq_ok_iff {ε α β : Type} {x : Except ε α} {g : α → Except ε β} {b : β} :
    x >>= g = .ok b ↔ ∃ a, x = .ok a ∧ g a = .ok b := by
  cases x with
  | error e => simp [bind, Except.bind]
  | ok a => simp [bind, Except.bind]

/-- A computation that continues another fails if the other does, or if it does behind it. -/
theorem bind_eq_error_iff {ε α β : Type} {x : Except ε α} {g : α → Except ε β} {e : ε} :
    x >>= g = .error e ↔ x = .error e ∨ ∃ a, x = .ok a ∧ g a = .error e := by
  cases x with
  | error e' => simp [bind, Except.bind]
  | ok a => simp [bind, Except.bind]

/-- An answer is the same whatever is made of failures. -/
theorem mapError_eq_ok_iff {ε ε' α : Type} {x : Except ε α} {f : ε → ε'} {a : α} :
    x.mapError f = .ok a ↔ x = .ok a := by
  cases x with
  | error e => exact iff_of_false (by rintro ⟨⟩) (by rintro ⟨⟩)
  | ok b => exact ⟨fun h => congrArg Except.ok (Except.ok.inj h), fun h => congrArg Except.ok
      (Except.ok.inj h)⟩

/-- An answer, if there is one, has a property. -/
def IfOk {ε α : Type} (P : α → Prop) (x : Except ε α) : Prop := ∀ a, x = .ok a → P a

theorem ifOk_error {ε α : Type} {P : α → Prop} (e : ε) : IfOk P (.error e) := by
  rintro _ ⟨⟩

theorem ifOk_ok {ε α : Type} {P : α → Prop} {a : α} (h : P a) :
    IfOk P (.ok a : Except ε α) := by
  rintro _ ⟨⟩
  exact h

/-- A computation that continues another begins in the state that the other leaves. -/
theorem run_bind_of_eq {σ α β : Type} {x : StateM σ α} {s s' : σ} {a : α}
    (h : x.run s = (a, s')) (f : α → StateM σ β) : (x >>= f).run s = (f a).run s' := by
  rw [StateT.run_bind, h]
  rfl

end IntLang
