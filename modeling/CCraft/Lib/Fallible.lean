import Mathlib.Tactic

/-!
# Computations that may fail

How a result of a sequence of fallible steps arises: the first step succeeds and the
rest gives the result, or, for a failure, a step fails.  A computation goes along with
another one when it differs from it only after a given failure of that one.
-/

namespace Fallible

variable {ε α β : Type} {x : Except ε α} {f : α → Except ε β}

@[simp]
theorem ok_bind (a : α) (f : α → Except ε β) : (Except.ok a >>= f) = f a :=
  rfl

@[simp]
theorem error_bind (e : ε) (f : α → Except ε β) :
    ((Except.error e : Except ε α) >>= f) = .error e :=
  rfl

/-- A sequence succeeds when both parts do. -/
theorem bind_eq_ok {r : β} : (x >>= f) = .ok r ↔ ∃ a, x = .ok a ∧ f a = .ok r := by
  cases x <;> simp

/-- A sequence fails when its first part does, or when the rest does after it. -/
theorem bind_eq_error {e : ε} :
    (x >>= f) = .error e ↔ x = .error e ∨ ∃ a, x = .ok a ∧ f a = .error e := by
  cases x <;> simp

/-- A function applied to the result gives one exactly when there was one. -/
theorem map_eq_ok {g : α → β} {r : β} : x.map g = .ok r ↔ ∃ a, x = .ok a ∧ g a = r := by
  cases x <;> simp [Except.map]

/-! ## Computations that differ after one failure -/

/-- The first computation fails with the given error, or the second one gives the same. -/
def GoesAlong (e : ε) (x y : Except ε α) : Prop :=
  x = .error e ∨ y = x

theorem GoesAlong.refl (e : ε) (x : Except ε α) : GoesAlong e x x :=
  .inr rfl

theorem GoesAlong.bind {e : ε} {y : Except ε α} {g : α → Except ε β} (h : GoesAlong e x y)
    (hrest : ∀ a, GoesAlong e (f a) (g a)) : GoesAlong e (x >>= f) (y >>= g) := by
  rcases h with rfl | rfl
  · exact .inl rfl
  · cases y with
    | ok a => exact hrest a
    | error e' => exact .inr rfl

theorem GoesAlong.map {e : ε} {y : Except ε α} (h : GoesAlong e x y) (g : α → β) :
    GoesAlong e (x.map g) (y.map g) := by
  rcases h with rfl | rfl
  · exact .inl rfl
  · exact .inr rfl

end Fallible
