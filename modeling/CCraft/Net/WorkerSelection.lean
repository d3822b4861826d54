import CCraft.Lib.Run
import Mathlib.Tactic

/-!
# The selection of event workers

`PosixEventManager::AddEvent` gives a connection to the event workers in turn.  It moves the
index of the worker on under a spin lock, with `++` and then `%=` by the number of the workers,
and reads the index again behind the lock.  The number of the workers comes from a flag whose
default is 0; it is cast to 16 bits and handed through `ServerRpcService`, the messenger and
`NBSocketService::Start` without a look at it.

The calls of any number of threads are interleaved statement by statement.

Main results:

- Theorem {lit}`selectStep_inv`: the index is past the last worker only while the lock is taken.
- Theorem {lit}`worker_selected_iff`: every call finds a worker exactly when no modulo is taken by
  zero and no call reads the index while it stands at the number of the workers.
-/

namespace CCraft
namespace Net

open Runs

/-! ## The calls -/

/-- The default of the flag `internal_rpc_io_threads_cnt`. -/
def internalRpcIoThreadsCnt : Int := 0

/-- The count that reaches `NBSocketService::Start` for a value of the flag: the cast to
`uint16_t` in the constructor of `ServerRpcService`. -/
def ioThreadsCnt (flag : Int) : Fin (2 ^ 16) :=
  Fin.ofNat (2 ^ 16) (flag % 2 ^ 16).toNat

/-- The next statement of a thread: it is outside of `AddEvent`, between the two statements
under the lock, or before the read of the index. -/
inductive SelectPc where
  | outside
  | counted
  | selected
deriving DecidableEq, Repr

/-- `m_iCurWorkerIdx`, `m_slSelectEvents` and the threads. -/
structure SelectState (Thread : Type) where
  curWorkerIdx : Int
  slSelectEvents : Bool
  pc : Thread → SelectPc

/-- The statements of `AddEvent`: `++`, `%=`, and the read of the index behind the lock. -/
inductive SelectLabel (Thread : Type) where
  | count (t : Thread)
  | wrap (t : Thread)
  | read (t : Thread)
deriving DecidableEq, Repr

variable {Thread : Type}

def SelectState.start : SelectState Thread := ⟨-1, false, fun _ => .outside⟩

section Step

variable [DecidableEq Thread]

/-- One statement of `AddEvent` with a number of workers; the index is converted to the unsigned
type of the number for the modulo, and nothing goes on after a modulo by zero. -/
def selectStep (connWorkersCnt : Fin (2 ^ 16)) (s : SelectState Thread) :
    SelectLabel Thread → Option (SelectState Thread)
  | .count t =>
    if s.pc t = .outside ∧ s.slSelectEvents = false then
      some ⟨s.curWorkerIdx + 1, true, Function.update s.pc t .counted⟩
    else none
  | .wrap t =>
    if s.pc t = .counted ∧ connWorkersCnt ≠ 0 then
      some ⟨s.curWorkerIdx % 2 ^ 32 % connWorkersCnt.val, false,
        Function.update s.pc t .selected⟩
    else none
  | .read t =>
    if s.pc t = .selected then some { s with pc := Function.update s.pc t .outside } else none

/-- The modulo is not taken by zero, and the index that is read is the one of a worker. -/
def SelectsWorker (connWorkersCnt : Fin (2 ^ 16)) (s : SelectState Thread) :
    SelectLabel Thread → Prop
  | .count _ => True
  | .wrap t => s.pc t = .counted → connWorkersCnt ≠ 0
  | .read t => s.pc t = .selected → 0 ≤ s.curWorkerIdx ∧ s.curWorkerIdx < connWorkersCnt.val

/-- No call comes to the modulo when there are no workers, and none reads the index while
another one has moved it past the last worker and not back yet. -/
def NotBetween (connWorkersCnt : Fin (2 ^ 16)) (s : SelectState Thread) :
    SelectLabel Thread → Prop
  | .count _ => True
  | .wrap t => s.pc t = .counted → connWorkersCnt ≠ 0
  | .read t => s.pc t = .selected →
      ¬ (s.slSelectEvents = true ∧ s.curWorkerIdx = connWorkersCnt.val)

instance (connWorkersCnt : Fin (2 ^ 16)) (s : SelectState Thread) :
    ∀ a, Decidable (NotBetween connWorkersCnt s a)
  | .count _ => isTrue trivial
  | .wrap t => inferInstanceAs (Decidable (s.pc t = .counted → connWorkersCnt ≠ 0))
  | .read t => inferInstanceAs (Decidable (s.pc t = .selected →
      ¬ (s.slSelectEvents = true ∧ s.curWorkerIdx = connWorkersCnt.val)))

/-! ## The index -/

variable {cnt : Fin (2 ^ 16)} {s s' : SelectState Thread} {a : SelectLabel Thread}

/-- The index is between -1 and the number of the workers, it is below the number while the lock
is free, and it is not negative once a call is inside. -/
structure SelectInv (cnt : Fin (2 ^ 16)) (s : SelectState Thread) : Prop where
  ge : -1 ≤ s.curWorkerIdx
  le : s.curWorkerIdx ≤ cnt.val
  free : s.slSelectEvents = false → s.curWorkerIdx < cnt.val
  inside : ∀ t, s.pc t ≠ .outside → 0 ≤ s.curWorkerIdx

omit [DecidableEq Thread] in
theorem start_selectInv (cnt : Fin (2 ^ 16)) : SelectInv cnt (.start : SelectState Thread) := by
  refine ⟨le_refl _, ?_, ?_, fun t ht => absurd rfl ht⟩
  · simp only [SelectState.start]
    omega
  · intro _
    simp only [SelectState.start]
    omega

/-- A statement of `AddEvent` keeps the index in its range. -/
theorem selectStep_inv (h : SelectInv cnt s) (hstep : selectStep cnt s a = some s') :
    SelectInv cnt s' := by
  have hge := h.ge
  cases a with
  | count t =>
    obtain ⟨⟨-, hfree⟩, ⟨⟩⟩ := Option.ite_none_right_eq_some.1 hstep
    have hlt := h.free hfree
    exact ⟨by simp only; omega, by simp only; omega, nofun, fun _ _ => by simp only; omega⟩
  | wrap t =>
    obtain ⟨⟨-, hcnt⟩, ⟨⟩⟩ := Option.ite_none_right_eq_some.1 hstep
    have hpos : (0 : Int) < cnt.val := by
      have : cnt.val ≠ 0 := fun hzero => hcnt (Fin.ext hzero)
      omega
    have hnonneg := Int.emod_nonneg (s.curWorkerIdx % 2 ^ 32) hpos.ne'
    have hlt := Int.emod_lt_of_pos (s.curWorkerIdx % 2 ^ 32) hpos
    exact ⟨by simp only; omega, le_of_lt hlt, fun _ => hlt, fun _ _ => hnonneg⟩
  | read t =>
    obtain ⟨hpc, ⟨⟩⟩ := Option.ite_none_right_eq_some.1 hstep
    exact ⟨h.ge, h.le, h.free, fun _ _ => h.inside t (by simp [hpc])⟩

omit [DecidableEq Thread] in
/-- Under the invariant a call finds a worker exactly when it does not read in between. -/
theorem SelectInv.selectsWorker_iff (h : SelectInv cnt s) :
    SelectsWorker cnt s a ↔ NotBetween cnt s a := by
  cases a with
  | count | wrap => exact Iff.rfl
  | read t =>
    refine forall_congr' fun hpc => ?_
    have hge := h.inside t (by simp [hpc])
    have hle := h.le
    constructor
    · rintro ⟨-, hlt⟩ ⟨-, heq⟩
      omega
    · intro hbetween
      refine ⟨hge, ?_⟩
      cases hlock : s.slSelectEvents with
      | false => exact h.free hlock
      | true =>
        have hne : s.curWorkerIdx ≠ cnt.val := fun heq => hbetween ⟨hlock, heq⟩
        omega

end Step

/-! ## Whole runs -/

/-- For every count that `NBSocketService::Start` takes and in every interleaving, the modulo is
never taken by zero and every index that is used is the one of a worker, exactly when no call
comes to the modulo with a count of zero and none reads the index between the two statements of
another call that move it past the last worker and back. -/
theorem worker_selected_iff [DecidableEq Thread] (cnt : Fin (2 ^ 16))
    (labels : List (SelectLabel Thread)) :
    Guarded (selectStep cnt) (SelectsWorker cnt) .start labels ↔
      Guarded (selectStep cnt) (NotBetween cnt) .start labels := by
  refine guarded_congr (I := SelectInv cnt) ?_ (fun s a h => h.selectsWorker_iff)
    (start_selectInv cnt)
  intro s a s' h _ hstep
  exact selectStep_inv h hstep

/-- Three calls one after the other, with two workers. -/
theorem worker_selected_in_turn :
    Guarded (selectStep 2) (SelectsWorker 2) (.start : SelectState Bool)
      [.count false, .wrap false, .read false, .count true, .wrap true, .read true,
        .count false, .wrap false, .read false] :=
  (worker_selected_iff 2 _).2 (by decide +kernel)

/-- With the default of the flag the first call takes the modulo by zero, and with one worker a
call reads the index 1 between the two statements of another call. -/
theorem worker_selection_fails :
    (∃ s, run (selectStep (ioThreadsCnt internalRpcIoThreadsCnt)) (.start : SelectState Bool)
        [.count false] = some s ∧
      ¬ SelectsWorker (ioThreadsCnt internalRpcIoThreadsCnt) s (.wrap false)) ∧
    ∃ s, run (selectStep 1) (.start : SelectState Bool)
        [.count false, .wrap false, .count true] = some s ∧
      s.curWorkerIdx = 1 ∧ ¬ SelectsWorker 1 s (.read false) := by
  refine ⟨⟨_, rfl, ?_⟩, _, rfl, rfl, ?_⟩
  · intro hselects
    exact hselects rfl rfl
  · intro hselects
    exact absurd (hselects rfl).2 (by decide)

end Net
end CCraft
