import CCraft.Lib.Run
import CCraft.Server.Dispatch
import Mathlib.Data.Nat.ModEq

/-!
# Message ids

`SndMessage::GetNewId` draws the ids of all messages of a process from one counter of 64 bits.
A call holds the spin lock `s_idLock` from its first statement until after the result has been
copied: it increments the counter, sets it back to 1 when it has reached `UINT64_MAX`, and
returns it.  The calls of any number of threads are interleaved statement by statement.

Main results:

- Theorem {lit}`getNewIdStep_inv`: only one thread is inside, and the ids drawn so far are the
  values that {lit}`getNewId` runs through from 0 on.
- Theorem {lit}`iterate_getNewId`: these values go round through 1 to `UINT64_MAX - 1`.
- Theorem {lit}`consecutive_ids_distinct`: no id is drawn twice in a whole round, and
  `INVALID_MSG_ID` never.
-/

namespace CCraft
namespace Net

open Runs Server

/-! ## The calls -/

/-- `INVALID_MSG_ID`. -/
def invalidMsgId : Nat := 0

/-- The next statement of a thread: it is outside of `GetNewId`, before the increment, before
the test for the end of the range, before the copy of the result, or before the unlock. -/
inductive GetNewIdPc where
  | outside
  | increment
  | test
  | copy
  | unlock
deriving DecidableEq, Repr

/-- `s_idLock`, `s_lastId`, the threads, and the ids returned so far. -/
structure IdState (Thread : Type) where
  idLock : Bool
  lastId : Nat
  pc : Thread → GetNewIdPc
  returned : List Nat

/-- A statement of `GetNewId` with the thread that executes it. -/
inductive IdLabel (Thread : Type) where
  | lock (t : Thread)
  | increment (t : Thread)
  | test (t : Thread)
  | copy (t : Thread)
  | unlock (t : Thread)
deriving DecidableEq, Repr

variable {Thread : Type}

namespace IdState

def start : IdState Thread := ⟨false, 0, fun _ => .outside, []⟩

end IdState

/-- One statement of `GetNewId`. -/
def getNewIdStep [DecidableEq Thread] (s : IdState Thread) :
    IdLabel Thread → Option (IdState Thread)
  | .lock t =>
    if s.pc t = .outside ∧ s.idLock = false then
      some { s with idLock := true, pc := Function.update s.pc t .increment }
    else none
  | .increment t =>
    if s.pc t = .increment then
      some { s with
        lastId := (s.lastId + 1) % 2 ^ 64
        pc := Function.update s.pc t .test }
    else none
  | .test t =>
    if s.pc t = .test then
      some { s with
        lastId := if s.lastId = 2 ^ 64 - 1 then 1 else s.lastId
        pc := Function.update s.pc t .copy }
    else none
  | .copy t =>
    if s.pc t = .copy then
      some { s with
        returned := s.returned ++ [s.lastId]
        pc := Function.update s.pc t .unlock }
    else none
  | .unlock t =>
    if s.pc t = .unlock then
      some { s with idLock := false, pc := Function.update s.pc t .outside }
    else none

/-! ## The values of the counter -/

/-- The counter goes round through 1 to `UINT64_MAX - 1`. -/
theorem iterate_getNewId (k : Nat) : getNewId^[k + 1] 0 = k % (2 ^ 64 - 2) + 1 := by
  induction k with
  | zero => rfl
  | succ k ih =>
    rw [Function.iterate_succ_apply', ih]
    simp only [getNewId]
    split_ifs <;> omega

/-- The ids that the first `n` calls get. -/
def firstIds (n : Nat) : List Nat :=
  (List.range n).map fun k => getNewId^[k + 1] 0

theorem firstIds_succ (n : Nat) : firstIds (n + 1) = firstIds n ++ [getNewId^[n + 1] 0] := by
  simp [firstIds, List.range_succ]

/-- A stretch of the ids that is not longer than the round has no id twice. -/
theorem nodup_of_infix_firstIds {ids : List Nat} {n : Nat} (hids : ids <:+: firstIds n)
    (hlen : ids.length ≤ 2 ^ 64 - 2) : ids.Nodup := by
  obtain ⟨before, after, hsplit⟩ := hids
  have hget : ∀ i (hi : i < ids.length),
      ids[i] = (before.length + i) % (2 ^ 64 - 2) + 1 := by
    intro i hi
    have hat := congrArg (fun l => l[before.length + i]?) hsplit
    have hin : before.length + i < n := by
      have := congrArg List.length hsplit
      simp only [firstIds, List.length_append, List.length_map, List.length_range] at this
      omega
    simp only [firstIds, List.append_assoc, List.getElem?_map, List.getElem?_range hin,
      Option.map_some, iterate_getNewId] at hat
    rw [List.getElem?_append_right (Nat.le_add_right _ _), Nat.add_sub_cancel_left,
      List.getElem?_append_left hi, List.getElem?_eq_getElem hi] at hat
    exact Option.some.inj hat
  rw [List.nodup_iff_injective_getElem]
  intro i j hij
  simp only [hget] at hij
  have hmod : before.length + i ≡ before.length + j [MOD 2 ^ 64 - 2] := Nat.succ_injective hij
  apply Fin.ext
  exact Nat.ModEq.eq_of_lt_of_lt (Nat.ModEq.add_left_cancel' _ hmod)
    (i.isLt.trans_le hlen) (j.isLt.trans_le hlen)

/-! ## Interleaved calls -/

/-- What `s_lastId` is while a thread is before the given statement, when `n` ids have been
returned. -/
def Counted : GetNewIdPc → Nat → Nat → Prop
  | .test, lastId, n => lastId = (getNewId^[n] 0 + 1) % 2 ^ 64
  | .copy, lastId, n => lastId = getNewId^[n + 1] 0
  | _, lastId, n => lastId = getNewId^[n] 0

/-- Nobody is inside while the lock is free, and one thread while it is taken; the calls so far
have got the first values of the counter, which stands at the last of them or on the way to the
next one. -/
structure IdInv (s : IdState Thread) : Prop where
  ids : s.returned = firstIds s.returned.length
  free : s.idLock = false → (∀ t, s.pc t = .outside) ∧
    Counted .outside s.lastId s.returned.length
  held : s.idLock = true → ∃ t, (∀ u, u ≠ t → s.pc u = .outside) ∧ s.pc t ≠ .outside ∧
    Counted (s.pc t) s.lastId s.returned.length

theorem start_idInv : IdInv (.start : IdState Thread) :=
  ⟨rfl, fun _ => ⟨fun _ => rfl, rfl⟩, nofun⟩

section Step

variable [DecidableEq Thread] {s s' : IdState Thread} {a : IdLabel Thread} {t : Thread}

/-- A thread inside has the lock and is alone there. -/
theorem IdInv.holder (h : IdInv s) (hinside : s.pc t ≠ .outside) :
    s.idLock = true ∧ (∀ u, u ≠ t → s.pc u = .outside) ∧
      Counted (s.pc t) s.lastId s.returned.length := by
  cases hlock : s.idLock with
  | false => exact absurd ((h.free hlock).1 t) hinside
  | true =>
    obtain ⟨t', halone, -, hcounted⟩ := h.held hlock
    have heq : t = t' := by
      by_contra hne
      exact hinside (halone t hne)
    subst heq
    exact ⟨rfl, halone, hcounted⟩

/-- The only thread inside goes on to another statement inside. -/
theorem idInv_goto {pc : GetNewIdPc} {locked : Bool} {lastId : Nat} {returned : List Nat}
    (hlocked : locked = true) (halone : ∀ u, u ≠ t → s.pc u = .outside) (hpc : pc ≠ .outside)
    (hids : returned = firstIds returned.length) (hcounted : Counted pc lastId returned.length) :
    IdInv ⟨locked, lastId, Function.update s.pc t pc, returned⟩ := by
  subst hlocked
  refine ⟨hids, nofun, fun _ => ⟨t, ?_, ?_, ?_⟩⟩
  · intro u hu
    exact (Function.update_of_ne hu _ _).trans (halone u hu)
  · simpa using hpc
  · simpa using hcounted

/-- A statement of `GetNewId` keeps the invariant. -/
theorem getNewIdStep_inv (h : IdInv s) (hstep : getNewIdStep s a = some s') : IdInv s' := by
  cases a with
  | lock t =>
    obtain ⟨⟨-, hfree⟩, ⟨⟩⟩ := Option.ite_none_right_eq_some.1 hstep
    obtain ⟨houtside, hcounted⟩ := h.free hfree
    exact idInv_goto rfl (fun u _ => houtside u) (by decide) h.ids hcounted
  | increment t =>
    obtain ⟨hpc, ⟨⟩⟩ := Option.ite_none_right_eq_some.1 hstep
    obtain ⟨hlocked, halone, hcounted⟩ := h.holder (t := t) (by simp [hpc])
    simp only [hpc, Counted] at hcounted
    refine idInv_goto hlocked halone (by decide) h.ids ?_
    simp only [Counted, hcounted]
  | test t =>
    obtain ⟨hpc, ⟨⟩⟩ := Option.ite_none_right_eq_some.1 hstep
    obtain ⟨hlocked, halone, hcounted⟩ := h.holder (t := t) (by simp [hpc])
    simp only [hpc, Counted] at hcounted
    refine idInv_goto hlocked halone (by decide) h.ids ?_
    simp only [Counted, hcounted, Function.iterate_succ_apply', getNewId]
  | copy t =>
    obtain ⟨hpc, ⟨⟩⟩ := Option.ite_none_right_eq_some.1 hstep
    obtain ⟨hlocked, halone, hcounted⟩ := h.holder (t := t) (by simp [hpc])
    simp only [hpc, Counted] at hcounted
    have hlength : (s.returned ++ [s.lastId]).length = s.returned.length + 1 := by simp
    refine idInv_goto hlocked halone (by decide) ?_ ?_
    · rw [hlength, firstIds_succ, ← h.ids, hcounted]
    · simpa only [Counted, hlength] using hcounted
  | unlock t =>
    obtain ⟨hpc, ⟨⟩⟩ := Option.ite_none_right_eq_some.1 hstep
    obtain ⟨-, halone, hcounted⟩ := h.holder (t := t) (by simp [hpc])
    refine ⟨h.ids, fun _ => ⟨?_, ?_⟩, nofun⟩
    · intro u
      by_cases hu : u = t
      · subst hu
        exact Function.update_self _ _ _
      · exact (Function.update_of_ne hu _ _).trans (halone u hu)
    · simpa only [hpc, Counted] using hcounted

/-- In every run the calls get the values of the counter in turn. -/
theorem returned_eq_firstIds {as : List (IdLabel Thread)}
    (hrun : run getNewIdStep .start as = some s) : s.returned = firstIds s.returned.length := by
  have halways : Always getNewIdStep IdInv (.start : IdState Thread) as :=
    always_of_forall (Q := fun _ => True) (fun _ _ _ h _ => getNewIdStep_inv h) start_idInv
      (fun _ _ => trivial)
  exact (halways.last hrun).ids

end Step

/-- Whatever the interleaving of the calls, and wherever the counter stands before them, up to
`2 ^ 64 - 2` calls in a row get different ids, and none gets `INVALID_MSG_ID`. -/
theorem consecutive_ids_distinct [DecidableEq Thread] (as : List (IdLabel Thread))
    {s : IdState Thread} (hrun : run getNewIdStep .start as = some s) {ids : List Nat}
    (hids : ids <:+: s.returned) (hlen : ids.length ≤ 2 ^ 64 - 2) :
    ids.Nodup ∧ invalidMsgId ∉ ids := by
  rw [returned_eq_firstIds hrun] at hids
  refine ⟨nodup_of_infix_firstIds hids hlen, ?_⟩
  intro hmem
  obtain ⟨k, -, hk⟩ := List.mem_map.1 (hids.subset hmem)
  rw [iterate_getNewId] at hk
  exact Nat.succ_ne_zero _ hk

/-- Two threads draw an id each, and the second is still to unlock. -/
theorem consecutive_ids_distinct_two_threads :
    ∃ s, run getNewIdStep (.start : IdState Bool) [.lock false, .increment false, .test false,
        .copy false, .unlock false, .lock true, .increment true, .test true, .copy true] = some s ∧
      s.returned = [1, 2] ∧ ([1, 2] : List Nat).Nodup ∧ invalidMsgId ∉ [1, 2] :=
  ⟨_, rfl, rfl, consecutive_ids_distinct [.lock false, .increment false, .test false, .copy false,
    .unlock false, .lock true, .increment true, .test true, .copy true] rfl List.infix_rfl
    (by decide)⟩

end Net
end CCraft
