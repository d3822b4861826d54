import Mathlib.Computability.StateTransition

/-!
# Chains of calls

A call that hands its work to another call is a step of a transition function, and the call
that does the work itself is where the chain ends.  Mathlib's `StateTransition.eval` is the
end of a chain, if it has one.

Main results:

- Theorem {lit}`mem_eval_of_step`: a chain ends where the next call of it ends.
- Theorem {lit}`not_dom_of_forwarding`: a chain through a set of calls that all hand on to
  calls in the set has no end.
-/

namespace Delegation

open StateTransition

variable {σ : Type*} {f : σ → Option σ} {a b c : σ}

/-- A call that hands on ends where the call behind it ends. -/
theorem mem_eval_of_step (hstep : f a = some b) : c ∈ eval f a ↔ c ∈ eval f b := by
  rw [reaches_eval (Relation.ReflTransGen.single hstep)]

/-- A call that hands nothing on is the end of its chain. -/
theorem mem_eval_self (hend : f a = none) : c ∈ eval f a ↔ c = a := by
  have hself : a ∈ eval f a := mem_eval.2 ⟨Relation.ReflTransGen.refl, hend⟩
  constructor
  · intro hc
    exact Part.mem_unique hc hself
  · rintro rfl
    exact hself

/-- A chain has no end when it stays among calls that hand on. -/
theorem not_dom_of_forwarding {I : σ → Prop}
    (hforward : ∀ s, I s → ∃ s', f s = some s' ∧ I s') (ha : I a) : ¬ (eval f a).Dom := by
  intro hdom
  obtain ⟨b, hb⟩ := Part.dom_iff_mem.1 hdom
  obtain ⟨hreach, hend⟩ := mem_eval.1 hb
  have hI : I b := by
    clear hb hend
    induction hreach with
    | refl => exact ha
    | tail _ hstep ih =>
      obtain ⟨s', hs', hI⟩ := hforward _ ih
      rw [Option.mem_unique hstep hs']
      exact hI
  obtain ⟨s', hs', -⟩ := hforward b hI
  rw [hend] at hs'
  cases hs'

end Delegation
