import Mathlib.Data.Set.Basic
import Mathlib.Tactic

/-!
# Deadlocks

Threads hold locks and wait for locks.  A set of threads is deadlocked when each of them waits
for a lock that one of the set holds, which may be the thread itself.

Main results:

- Theorem {lit}`not_deadlocked_of_order`: threads that take locks in one order are never
  deadlocked.
- Theorem {lit}`deadlocked_pair`: two threads that each wait for a lock of the other are.
-/

namespace Locking

variable {τ L : Type*} {holder : L → Option τ} {waits : τ → Option L} {S : Set τ}

/-- Each thread of the set waits for a lock that a thread of the set holds. -/
def Deadlocked (holder : L → Option τ) (waits : τ → Option L) (S : Set τ) : Prop :=
  S.Nonempty ∧ ∀ t ∈ S, ∃ x, waits t = some x ∧ ∃ u ∈ S, holder x = some u

/-- When every thread waits only for locks that come after those it holds, no set of threads
is deadlocked. -/
theorem not_deadlocked_of_order (rank : L → Nat) (bound : Nat) (hbound : ∀ x, rank x < bound)
    (horder : ∀ t x y, holder x = some t → waits t = some y → rank x < rank y) :
    ¬ Deadlocked holder waits S := by
  rintro ⟨⟨t, ht⟩, hall⟩
  -- follow the holders: the locks that are waited for come later and later
  have hgrows : ∀ k, ∃ t ∈ S, ∃ x, waits t = some x ∧ k ≤ rank x := by
    intro k
    induction k with
    | zero =>
      obtain ⟨x, hx, -⟩ := hall t ht
      exact ⟨t, ht, x, hx, Nat.zero_le _⟩
    | succ k ih =>
      obtain ⟨u, hu, x, hx, hk⟩ := ih
      obtain ⟨x', hx', v, hv, hholder⟩ := hall u hu
      obtain ⟨y, hy, -⟩ := hall v hv
      rw [hx] at hx'
      cases hx'
      have hlt := horder v x y hholder hy
      exact ⟨v, hv, y, hy, by omega⟩
  obtain ⟨u, -, x, -, hx⟩ := hgrows bound
  have := hbound x
  omega

/-- Two threads that each wait for a lock that the other one holds. -/
theorem deadlocked_pair {t u : τ} {x y : L} (hx : holder x = some u) (ht : waits t = some x)
    (hy : holder y = some t) (hu : waits u = some y) : Deadlocked holder waits {t, u} := by
  refine ⟨⟨t, by simp⟩, ?_⟩
  rintro v (rfl | rfl)
  · exact ⟨x, ht, u, by simp, hx⟩
  · exact ⟨y, hu, t, by simp, hy⟩

end Locking
