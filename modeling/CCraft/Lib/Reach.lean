import CCraft.Lib.Run

/-!
# Reachable states

The states that some list of labels leads to, and two systems that are related by a function on
their states: every step of the first one is a step of the second, and every step of the second one
from the image of a state comes from a step of the first.

Main results:

- Theorem {lit}`Reaches.transfer`: a phase that is repeated.
- Theorem {lit}`Reaches.invariant`: what every step keeps holds in every reachable state.
- Theorem {lit}`Reaches.map`: reachable states go to reachable states.
- Theorem {lit}`Reaches.lift`: reachable states come from reachable states.
-/

namespace Runs

variable {σ τ α β : Type*} {step : σ → α → Option σ} {step' : τ → β → Option τ} {s s' t u : σ}
  {a : α}

/-- Some list of labels leads from the first state to the second. -/
def Reaches (step : σ → α → Option σ) (s t : σ) : Prop :=
  ∃ as, run step s as = some t

theorem Reaches.refl (step : σ → α → Option σ) (s : σ) : Reaches step s s :=
  ⟨[], rfl⟩

theorem Reaches.head (h : step s a = some s') (h' : Reaches step s' t) : Reaches step s t := by
  obtain ⟨as, hrun⟩ := h'
  exact ⟨a :: as, run_cons_eq_some.2 ⟨s', h, hrun⟩⟩

theorem Reaches.single (h : step s a = some s') : Reaches step s s' :=
  .head h (.refl step s')

theorem Reaches.trans (h : Reaches step s t) (h' : Reaches step t u) : Reaches step s u := by
  obtain ⟨as, hrun⟩ := h
  induction as generalizing s with
  | nil =>
    cases hrun
    exact h'
  | cons a as ih =>
    obtain ⟨s', hstep, hrest⟩ := run_cons_eq_some.1 hrun
    exact .head hstep (ih hrest)

/-- A phase that is repeated, with what is left of it and what has been done. -/
theorem Reaches.transfer (f : Nat → Nat → σ)
    (h : ∀ left done, Reaches step (f (left + 1) done) (f left (done + 1))) (n done : Nat) :
    Reaches step (f n done) (f 0 (done + n)) := by
  induction n generalizing done with
  | zero => exact .refl step _
  | succ n ih =>
    have hrest := ih (done + 1)
    rw [Nat.add_assoc, Nat.add_comm 1 n] at hrest
    exact (h n done).trans hrest

/-- What every step keeps holds in every reachable state. -/
theorem Reaches.invariant {I : σ → Prop} (hkeep : ∀ s a s', I s → step s a = some s' → I s')
    (h : Reaches step s t) (hinit : I s) : I t := by
  obtain ⟨as, hrun⟩ := h
  induction as generalizing s with
  | nil =>
    cases hrun
    exact hinit
  | cons a as ih =>
    obtain ⟨s', hstep, hrest⟩ := run_cons_eq_some.1 hrun
    exact ih (hkeep s a s' hinit hstep) hrest

/-- If every step is a step of the other system, reachable states go to reachable states. -/
theorem Reaches.map {I : σ → Prop} (f : σ → τ)
    (hkeep : ∀ s a s', I s → step s a = some s' → I s')
    (hsim : ∀ s a s', I s → step s a = some s' → ∃ b, step' (f s) b = some (f s'))
    (h : Reaches step s t) (hinit : I s) : Reaches step' (f s) (f t) := by
  obtain ⟨as, hrun⟩ := h
  induction as generalizing s with
  | nil =>
    cases hrun
    exact .refl step' _
  | cons a as ih =>
    obtain ⟨s', hstep, hrest⟩ := run_cons_eq_some.1 hrun
    obtain ⟨b, hstep'⟩ := hsim s a s' hinit hstep
    exact .head hstep' (ih (hkeep s a s' hinit hstep) hrest)

/-- If every step of the other system comes from a step, its reachable states come from reachable
states. -/
theorem Reaches.lift {I : σ → Prop} (f : σ → τ)
    (hkeep : ∀ s a s', I s → step s a = some s' → I s')
    (hsim : ∀ s b y, I s → step' (f s) b = some y → ∃ a s', step s a = some s' ∧ f s' = y)
    {y : τ} (h : Reaches step' (f s) y) (hinit : I s) : ∃ t, Reaches step s t ∧ f t = y := by
  obtain ⟨bs, hrun⟩ := h
  induction bs generalizing s with
  | nil =>
    cases hrun
    exact ⟨_, .refl step _, rfl⟩
  | cons b bs ih =>
    obtain ⟨z, hstep', hrest⟩ := run_cons_eq_some.1 hrun
    obtain ⟨a, s', hstep, rfl⟩ := hsim s b z hinit hstep'
    obtain ⟨t, hreach, hy⟩ := ih (hkeep s a s' hinit hstep) hrest
    exact ⟨t, .head hstep hreach, hy⟩

end Runs
