import Mathlib.Data.Finset.Basic
import Mathlib.Data.List.Perm.Basic

/-!
# Tickets in flight

Tickets are numbered in the order in which they are issued.  A ticket that was issued is either
in flight, in one place only, or it is finished; where the tickets in flight are does not matter
for this account, so they are a list up to its order.

Main results:

- Theorems {lit}`Balanced.perm`, {lit}`Balanced.issue` and {lit}`Balanced.finish`: moving,
  issuing and finishing a ticket keep the account.
- Theorem {lit}`Balanced.finished_below_iff`: the first tickets are all finished exactly when
  none of them is in flight.
-/

namespace Tickets

variable {issued id m : Nat} {finished : Finset Nat} {inFlight places : List Nat}

/-- Every issued ticket is either in flight, once, or finished. -/
structure Balanced (issued : Nat) (finished : Finset Nat) (inFlight : List Nat) : Prop where
  nodup : inFlight.Nodup
  unfinished : ∀ id ∈ inFlight, id ∉ finished
  complete : ∀ id, id < issued ↔ id ∈ finished ∨ id ∈ inFlight

namespace Balanced

/-- Before the first ticket is issued. -/
theorem empty : Balanced 0 ∅ [] where
  nodup := List.nodup_nil
  unfinished := by simp
  complete := by simp

/-- A ticket in flight may go from one place to another. -/
theorem perm (h : Balanced issued finished inFlight) (hperm : inFlight.Perm places) :
    Balanced issued finished places where
  nodup := hperm.nodup_iff.1 h.nodup
  unfinished := fun id hid => h.unfinished id (hperm.mem_iff.2 hid)
  complete := fun id => (h.complete id).trans (or_congr_right hperm.mem_iff)

/-- The next ticket gets the next number. -/
theorem issue (h : Balanced issued finished inFlight) :
    Balanced (issued + 1) finished (issued :: inFlight) where
  nodup := by
    refine List.nodup_cons.2 ⟨?_, h.nodup⟩
    intro hmem
    exact absurd ((h.complete issued).2 (.inr hmem)) (Nat.lt_irrefl issued)
  unfinished := by
    intro id hid hfinished
    rcases List.mem_cons.1 hid with rfl | hid
    · exact absurd ((h.complete id).2 (.inl hfinished)) (Nat.lt_irrefl id)
    · exact h.unfinished id hid hfinished
  complete := by
    intro id
    rw [Nat.lt_succ_iff_lt_or_eq, h.complete id, List.mem_cons]
    tauto

/-- A ticket that is finished is in flight no more. -/
theorem finish (h : Balanced issued finished (id :: inFlight)) :
    Balanced issued (insert id finished) inFlight where
  nodup := (List.nodup_cons.1 h.nodup).2
  unfinished := by
    intro other hother hmem
    rcases Finset.mem_insert.1 hmem with rfl | hmem
    · exact (List.nodup_cons.1 h.nodup).1 hother
    · exact h.unfinished other (List.mem_cons_of_mem id hother) hmem
  complete := by
    intro other
    rw [h.complete other, List.mem_cons, Finset.mem_insert]
    tauto

/-- The first tickets are all finished exactly when none of them is in flight. -/
theorem finished_below_iff (h : Balanced issued finished inFlight) (hm : m ≤ issued) :
    (∀ id < m, id ∈ finished) ↔ ∀ id ∈ inFlight, m ≤ id := by
  constructor
  · intro hall id hid
    by_contra hlt
    exact h.unfinished id hid (hall id (by omega))
  · intro hnone id hid
    rcases (h.complete id).1 (by omega) with hfinished | hflight
    · exact hfinished
    · exact absurd (hnone id hflight) (by omega)

end Balanced

end Tickets
