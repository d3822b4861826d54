import CCraft.Lib.Run
import Mathlib.Data.Nat.Bits
import Mathlib.Tactic

/-!
# Reference counting of event handlers

`AFileEventHandler` counts its references with a `ReferenceCounter` and queues
itself for deletion when the count has dropped to zero.  `Release` decrements the
counter and then reads it in a second atomic step, and the read goes through
`atomic_fetch`, which clears all bits of the counter but the lowest.  So the
counter is right only as long as it is read with at most one reference
outstanding, and the handler is queued once only if the last `Release` overlaps
no other one.

Main results:

- Theorem {lit}`refStep_inv`: steps of that kind keep the counter equal to the number
  of references.
- Theorem {lit}`handler_deleted_once`: in runs of such steps a handler is queued
  exactly once, when no reference is outstanding; every other run has a beginning
  that can go wrong.
-/

namespace CCraft
namespace Net

/-! ## The counter -/

/-- `atomic_addone_and_fetch`. -/
def atomicAddoneAndFetch (v : BitVec 32) : BitVec 32 :=
  v + 1

/-- `atomic_subone_and_fetch`. -/
def atomicSuboneAndFetch (v : BitVec 32) : BitVec 32 :=
  v - 1

/-- `atomic_fetch`, which is `__sync_fetch_and_and` with 1: the value that was read and
the value that is left behind. -/
def atomicFetch (v : BitVec 32) : BitVec 32 × BitVec 32 :=
  (v, v &&& 1)

theorem atomicFetch_ofNat (r : Nat) :
    (atomicFetch (BitVec.ofNat 32 r)).2 = BitVec.ofNat 32 (r % 2) := by
  refine BitVec.eq_of_toNat_eq ?_
  simp only [atomicFetch, BitVec.toNat_and, BitVec.toNat_ofNat]
  rw [show (1 : BitVec 32).toNat = 1 from rfl, Nat.and_one_is_mod]
  omega

/-! ## One handler and its users -/

/-- A handler with its users: the counter, whether the handler has an event worker, the
number of references that are really outstanding, the number of threads between the
two steps of `Release`, and, for each call of `AddExternalEpDelEvent`, the number of
references outstanding at that moment. -/
structure Handler where
  ref : BitVec 32
  ownEvWorker : Bool
  outstanding : Nat
  releasing : Nat
  deletions : List Nat
deriving DecidableEq, Repr

/-- A new handler that belongs to a worker. -/
def Handler.new : Handler :=
  ⟨1, true, 1, 0, []⟩

/-- The atomic steps of `AddRef` and `Release`. -/
inductive RefLabel where
  | addRef
  | release
  | getRef
deriving DecidableEq, Repr

/-- A thread adds a reference to one that exists, or gives one back that it has taken,
or reads the counter after that. -/
def refStep (s : Handler) : RefLabel → Option Handler
  | .addRef =>
    if 1 ≤ s.outstanding then
      some { s with ref := atomicAddoneAndFetch s.ref, outstanding := s.outstanding + 1 }
    else none
  | .release =>
    if 1 ≤ s.outstanding then
      some { s with
        ref := atomicSuboneAndFetch s.ref
        outstanding := s.outstanding - 1
        releasing := s.releasing + 1 }
    else none
  | .getRef =>
    if 1 ≤ s.releasing then
      let (val, ref) := atomicFetch s.ref
      some { s with
        ref := ref
        releasing := s.releasing - 1
        deletions :=
          if val = 0 ∧ s.ownEvWorker then s.deletions ++ [s.outstanding] else s.deletions }
    else none

/-- The handler is queued for deletion at most once and only without references, and it
has been queued when all its references are given back. -/
structure DeletedOnce (s : Handler) : Prop where
  unreferenced : ∀ r ∈ s.deletions, r = 0
  at_most_once : s.deletions.length ≤ 1
  exactly_once : s.outstanding = 0 → s.releasing = 0 → s.deletions.length = 1

/-- The counter is read with at most one reference outstanding, and the last reference is
given back while no other `Release` is under way. -/
def Unhurried (s : Handler) : RefLabel → Prop
  | .addRef => True
  | .release => s.outstanding = 1 → s.releasing = 0
  | .getRef => s.outstanding ≤ 1

/-- The invariant of unhurried runs: the counter is right, and the handler is queued
between the last decrement and the end of its `Release`. -/
structure RefInv (s : Handler) : Prop where
  ref_eq : s.ref = BitVec.ofNat 32 s.outstanding
  owned : s.ownEvWorker = true
  held : 1 ≤ s.outstanding → s.deletions = []
  given : s.outstanding = 0 →
    (s.releasing = 1 ∧ s.deletions = []) ∨ (s.releasing = 0 ∧ s.deletions = [0])

section Runs

open Runs

variable {s s' : Handler} {a : RefLabel}

theorem new_refInv : RefInv Handler.new :=
  ⟨rfl, rfl, fun _ => rfl, by simp [Handler.new]⟩

theorem RefInv.deletedOnce (h : RefInv s) : DeletedOnce s := by
  rcases Nat.eq_zero_or_pos s.outstanding with hzero | hpos
  · rcases h.given hzero with ⟨hreleasing, hnil⟩ | ⟨-, hone⟩
    · exact ⟨by simp [hnil], by simp [hnil], by omega⟩
    · exact ⟨by simp [hone], by simp [hone], by simp [hone]⟩
  · have hnil := h.held hpos
    exact ⟨by simp [hnil], by simp [hnil], by omega⟩

theorem subone_ofNat {r : Nat} (hr : 1 ≤ r) :
    atomicSuboneAndFetch (BitVec.ofNat 32 r) = BitVec.ofNat 32 (r - 1) := by
  obtain ⟨r, rfl⟩ := Nat.exists_eq_add_of_le' hr
  rw [atomicSuboneAndFetch, Nat.add_sub_cancel, BitVec.ofNat_add]
  exact BitVec.add_sub_cancel _ _

theorem addone_ofNat (r : Nat) :
    atomicAddoneAndFetch (BitVec.ofNat 32 r) = BitVec.ofNat 32 (r + 1) := by
  simp [atomicAddoneAndFetch, BitVec.ofNat_add]

/-- Unhurried steps keep the invariant. -/
theorem refStep_inv (h : RefInv s) (ha : Unhurried s a) (hstep : refStep s a = some s') :
    RefInv s' := by
  cases a with
  | addRef =>
    obtain ⟨hpos, ⟨⟩⟩ := Option.ite_none_right_eq_some.1 hstep
    exact ⟨by simp only [h.ref_eq, addone_ofNat], h.owned, fun _ => h.held hpos, by simp⟩
  | release =>
    obtain ⟨hpos, ⟨⟩⟩ := Option.ite_none_right_eq_some.1 hstep
    refine ⟨by simp only [h.ref_eq, subone_ofNat hpos], h.owned, fun _ => h.held hpos, ?_⟩
    intro hlast
    have hone : s.outstanding = 1 := by simp only at hlast; omega
    exact .inl ⟨by simp only [ha hone], h.held hpos⟩
  | getRef =>
    obtain ⟨hpos, ⟨⟩⟩ := Option.ite_none_right_eq_some.1 hstep
    have hle : s.outstanding = 0 ∨ s.outstanding = 1 := by simp only [Unhurried] at ha; omega
    rcases hle with hzero | hone
    · rcases h.given hzero with ⟨hreleasing, hnil⟩ | ⟨hreleasing, -⟩
      · refine ⟨?_, h.owned, by simp [hzero], fun _ => .inr ⟨by simp [hreleasing], ?_⟩⟩
        · simp [h.ref_eq, hzero]
        · simp [h.ref_eq, hzero, hnil, h.owned]
      · omega
    · have hnil := h.held (by omega)
      refine ⟨?_, h.owned, fun _ => ?_, by simp [hone]⟩
      · simp [h.ref_eq, hone]
      · simp [h.ref_eq, hone, hnil]

/-! ## What a hurried step leads to -/

/-- A counter that reads zero while references are outstanding queues the handler. -/
theorem run_getRef_early (hown : s.ownEvWorker = true) (hreleasing : 1 ≤ s.releasing)
    (href : s.ref = 0) (hpos : 1 ≤ s.outstanding) :
    ∃ t, run refStep s [.getRef] = some t ∧ ¬ DeletedOnce t := by
  refine ⟨_, by simp only [run, refStep, hreleasing, if_true, Option.bind_some]; rfl, ?_⟩
  intro hdel
  have hmem : s.outstanding = 0 := hdel.unreferenced s.outstanding (by
    simp [href, hown, atomicFetch])
  omega

/-- After the counter was read with an even number of references outstanding, another
`AddRef` and `Release` reads zero. -/
theorem run_even (hown : s.ownEvWorker = true) (href : s.ref = 0) (hpos : 1 ≤ s.outstanding) :
    ∃ t, run refStep s [.addRef, .release, .getRef] = some t ∧ ¬ DeletedOnce t := by
  obtain ⟨t, hrun, hbad⟩ := run_getRef_early (s := { s with
    ref := atomicSuboneAndFetch (atomicAddoneAndFetch s.ref)
    outstanding := s.outstanding + 1 - 1
    releasing := s.releasing + 1 }) hown (by simp)
    (by simp only [href]; decide) (by simpa using hpos)
  refine ⟨t, ?_, hbad⟩
  rw [← hrun]
  simp [run, refStep, hpos]

/-- After it was read with an odd number of references outstanding, the next `Release`
reads zero. -/
theorem run_odd (hown : s.ownEvWorker = true) (href : s.ref = 1) (hpos : 2 ≤ s.outstanding) :
    ∃ t, run refStep s [.release, .getRef] = some t ∧ ¬ DeletedOnce t := by
  obtain ⟨t, hrun, hbad⟩ := run_getRef_early (s := { s with
    ref := atomicSuboneAndFetch s.ref
    outstanding := s.outstanding - 1
    releasing := s.releasing + 1 }) hown (by simp) (by simp only [href]; decide)
    (by simp only; omega)
  refine ⟨t, ?_, hbad⟩
  rw [← hrun]
  simp [run, refStep, show 1 ≤ s.outstanding by omega]

/-- When the last reference is given back and two `Release` are under way, both of them
read zero. -/
theorem run_twice (hown : s.ownEvWorker = true) (href : s.ref = 0) (hpos : 2 ≤ s.releasing) :
    ∃ t, run refStep s [.getRef, .getRef] = some t ∧ ¬ DeletedOnce t := by
  refine ⟨_, by
    simp only [run, refStep, show 1 ≤ s.releasing by omega, show 1 ≤ s.releasing - 1 by omega,
      if_true, Option.bind_some]
    rfl, ?_⟩
  intro hdel
  have hlen := hdel.at_most_once
  simp [href, hown, atomicFetch] at hlen

/-- Every hurried step can be continued to a state in which the handler is queued too
early or twice. -/
theorem refStep_hurried (h : RefInv s) (ha : ¬ Unhurried s a) (hstep : refStep s a = some s') :
    ∃ more t, run refStep s' more = some t ∧ ¬ DeletedOnce t := by
  cases a with
  | addRef => exact absurd trivial ha
  | release =>
    obtain ⟨hpos, ⟨⟩⟩ := Option.ite_none_right_eq_some.1 hstep
    simp only [Unhurried, Classical.not_imp] at ha
    obtain ⟨hone, hreleasing⟩ := ha
    exact ⟨_, run_twice h.owned (by simp only [h.ref_eq, hone]; decide) (by simp only; omega)⟩
  | getRef =>
    obtain ⟨hpos, ⟨⟩⟩ := Option.ite_none_right_eq_some.1 hstep
    simp only [Unhurried, not_le] at ha
    have href := atomicFetch_ofNat s.outstanding
    rw [← h.ref_eq] at href
    rcases Nat.mod_two_eq_zero_or_one s.outstanding with heven | hodd
    · exact ⟨_, run_even h.owned (href.trans (by rw [heven]; rfl)) (by simp only; omega)⟩
    · exact ⟨_, run_odd h.owned (href.trans (by rw [hodd]; rfl)) ha⟩

/-- In every run whose steps are unhurried the handler is queued for deletion exactly
once, when no reference is outstanding.  Every other run has a beginning that can be
continued to a state in which the handler is queued too early or twice. -/
theorem handler_deleted_once (labels : List RefLabel) (t : Handler)
    (hrun : run refStep Handler.new labels = some t) :
    (Guarded refStep Unhurried Handler.new labels →
      Always refStep DeletedOnce Handler.new labels) ∧
    (¬ Guarded refStep Unhurried Handler.new labels →
      ∃ labels' more u, labels' <+: labels ∧
        run refStep Handler.new (labels' ++ more) = some u ∧ ¬ DeletedOnce u) := by
  constructor
  · intro hguard
    have halways : Always refStep RefInv Handler.new labels :=
      always_of_guarded (fun _ _ _ h ha hstep => refStep_inv h ha hstep) new_refInv hguard
    exact halways.mono fun _ h => h.deletedOnce
  · exact exists_violation (I := RefInv) (fun _ _ _ h ha hstep => refStep_inv h ha hstep)
      (fun _ _ _ h ha hstep => refStep_hurried h ha hstep) new_refInv hrun

/-- Two users take references one after the other and give them back. -/
theorem handler_deleted_once_two_users :
    Always refStep DeletedOnce Handler.new
      [.addRef, .release, .getRef, .addRef, .release, .getRef, .release, .getRef] := by
  refine (handler_deleted_once _ ⟨0, true, 0, 0, [0]⟩ (by decide)).1 ?_
  simp [Guarded, refStep, Unhurried, Handler.new, atomicAddoneAndFetch, atomicSuboneAndFetch,
    atomicFetch]

/-- With four references outstanding the second `Release` queues the handler while two
are left; with two references given back at the same time it is queued twice. -/
theorem handler_queued_early_and_twice :
    (∃ t, run refStep Handler.new
        [.addRef, .addRef, .addRef, .release, .getRef, .release, .getRef] = some t ∧
      t.deletions = [2] ∧ ¬ DeletedOnce t) ∧
    ∃ t, run refStep Handler.new [.addRef, .release, .release, .getRef, .getRef] = some t ∧
      t.deletions = [0, 0] ∧ ¬ DeletedOnce t := by
  refine ⟨⟨⟨0, true, 2, 0, [2]⟩, by decide, rfl, ?_⟩, ⟨⟨0, true, 0, 0, [0, 0]⟩, by decide, rfl, ?_⟩⟩
  · intro hdel
    exact absurd (hdel.unreferenced 2 (by simp)) (by decide)
  · intro hdel
    exact absurd hdel.at_most_once (by decide)

end Runs

end Net
end CCraft
