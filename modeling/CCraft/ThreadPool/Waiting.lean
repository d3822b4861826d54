import CCraft.Common.BlockingQueue
import CCraft.Lib.Tickets
import Mathlib.Data.BitVec

/-!
# Waiting for the tasks of a thread pool

The workers of a `ThreadPool` take tasks from a blocking queue, count themselves as active
while they run one, and notify the threads that wait in `WaitAll` or in `WaitAllUntilTimeAt`.
Those look at the queue first and at the count of active workers afterwards, under a mutex that
no worker ever takes.

The tasks that have an action are numbered in the order of `AddTask`.  A wait on the condition
variable may end at any time: it is notified, or its time is over, or it ends for no reason.
The clock is read from the labels.

Main results:

- Theorems {lit}`workerStep_pop` and {lit}`addTask_push`: the list of tasks is the blocking queue.
- Theorem {lit}`poolInv_always`: no task is lost or run twice while the pool is in use, and the
  counter is the number of workers that are running a task.
- Theorem {lit}`waiting_means_finished_iff`: when the tasks of before the call are finished at
  the end of every wait.
-/

namespace CCraft
namespace ThreadPool

open Runs Tickets

/-! ## The pool -/

/-- A task: the number of its action, if it has one. -/
structure Task where
  action : Option Nat
deriving DecidableEq, Repr

/-- Where a worker is in the loop of `proc`. -/
inductive Worker
  | popping
  | popped (task : Task)
  | entering (action : Nat)
  | running (action : Nat)
  | ran
  | notifying
  | exited
deriving DecidableEq, Repr

/-- The action that a worker took out of the queue and that is not finished. -/
def Worker.held : Worker → Option Nat
  | .popped task => task.action
  | .entering action => some action
  | .running action => some action
  | _ => none

/-- The action of a worker between `Pop` and the increment of the counter. -/
def Worker.uncounted : Worker → Option Nat
  | .popped task => task.action
  | .entering action => some action
  | _ => none

/-- Whether the worker is between the increment and the decrement of the counter. -/
def Worker.counted : Worker → Bool
  | .running _ => true
  | .ran => true
  | _ => false

/-- A call of one of the waiting methods; a deadline is in nanoseconds since the epoch. -/
inductive WaitCall
  | waitAll
  | waitAllUntilTimeAt (deadline : Int)
deriving DecidableEq, Repr

/-- Whether a call that returns at this time returns before its deadline. -/
def WaitCall.inTime : WaitCall → Int → Bool
  | .waitAll, _ => true
  | .waitAllUntilTimeAt deadline, now => decide (now < deadline)

/-- Where a waiting call is. -/
inductive WaitPhase
  | locking
  | checkingQueue
  | checkingCount
  | waiting
  | returned
deriving DecidableEq, Repr

/-- Whether the call has the mutex. -/
def WaitPhase.locked : WaitPhase → Bool
  | .checkingQueue => true
  | .checkingCount => true
  | _ => false

/-- A waiting call; the actions with numbers below `before` were added before it. -/
structure Waiter where
  call : WaitCall
  before : Nat
  phase : WaitPhase
deriving DecidableEq, Repr

/-- A thread pool, with the calls that wait on it, the number of actions that were added and
the actions that are finished. -/
structure Pool where
  stopping : Bool
  tasks : List Task
  workers : List Worker
  activeWorkersCnt : BitVec 32
  mutex : Option Nat
  waiters : List Waiter
  added : Nat
  finished : Finset Nat

/-- The constructor. -/
def Pool.construct (threadsCnt nprocs : BitVec 32) : Pool :=
  let threads := if threadsCnt = 0 then nprocs * 2 else threadsCnt
  ⟨false, [], List.replicate threads.toNat .popping, 0, none, [], 0, ∅⟩

/-- One step of the system: `AddTask` with or without an action, the next step of a worker, the
beginning of a waiting call, the next step of one at the given time, the beginning of the
destructor. -/
inductive Label
  | addTask (action : Bool)
  | worker (i : Nat)
  | call (c : WaitCall)
  | waiter (i : Nat) (now : Int)
  | destroy
deriving DecidableEq, Repr

/-- `AddTask`; the queue has no maximum size. -/
def addTask (s : Pool) (action : Bool) : Pool :=
  if action then { s with tasks := s.tasks ++ [⟨some s.added⟩], added := s.added + 1 }
  else { s with tasks := s.tasks ++ [⟨none⟩] }

/-- The next step of a worker in `proc`. -/
def workerStep (s : Pool) (i : Nat) : Option Pool :=
  match s.workers[i]? with
  | none => none
  | some .popping =>
    match s.tasks with
    | [] => none
    | task :: tasks => some { s with tasks, workers := s.workers.set i (.popped task) }
  | some (.popped task) =>
    if s.stopping then some { s with workers := s.workers.set i .exited }
    else match task.action with
      | none => some { s with workers := s.workers.set i .notifying }
      | some action => some { s with workers := s.workers.set i (.entering action) }
  | some (.entering action) =>
    some { s with
      workers := s.workers.set i (.running action)
      activeWorkersCnt := s.activeWorkersCnt + 1 }
  | some (.running action) =>
    some { s with
      workers := s.workers.set i .ran
      finished := insert action s.finished }
  | some .ran =>
    some { s with
      workers := s.workers.set i .notifying
      activeWorkersCnt := s.activeWorkersCnt - 1 }
  -- whoever is notified may go on, but so may everyone who waits
  | some .notifying => some { s with workers := s.workers.set i .popping }
  | some .exited => none

/-- Where a waiting call goes next.  `WaitAll` waits while the queue is not empty or a worker is
active; `WaitAllUntilTimeAt` waits once, if the queue is not empty and a worker is active. -/
def Pool.next (s : Pool) (w : Waiter) : Option WaitPhase :=
  match w.phase, w.call with
  | .locking, _ => if s.mutex = none then some .checkingQueue else none
  | .checkingQueue, .waitAll => some (if s.tasks = [] then .checkingCount else .waiting)
  | .checkingQueue, .waitAllUntilTimeAt _ =>
    some (if s.tasks = [] then .returned else .checkingCount)
  | .checkingCount, _ => some (if s.activeWorkersCnt = 0 then .returned else .waiting)
  | .waiting, .waitAll => if s.mutex = none then some .checkingQueue else none
  | .waiting, .waitAllUntilTimeAt _ => if s.mutex = none then some .returned else none
  | .returned, _ => none

/-- The next step of a waiting call. -/
def waiterStep (s : Pool) (i : Nat) : Option Pool :=
  match s.waiters[i]? with
  | none => none
  | some w =>
    match s.next w with
    | none => none
    | some phase =>
      some { s with
        mutex := if phase.locked then some i else none
        waiters := s.waiters.set i { w with phase } }

/-- One step of the pool.  Nobody may call a method of a pool that is being destroyed, and
nobody may destroy one while a call is under way; the empty tasks of the destructor are
added with `addTask`. -/
def step (s : Pool) : Label → Option Pool
  | .addTask action => some (addTask s action)
  | .worker i => workerStep s i
  | .call c =>
    if s.stopping then none
    else some { s with waiters := s.waiters ++ [⟨c, s.added, .locking⟩] }
  | .waiter i _ => waiterStep s i
  | .destroy =>
    if ∀ w ∈ s.waiters, w.phase = .returned then some { s with stopping := true } else none

/-! ## The queue of the tasks -/

section Queue

open Common

variable {P C : Type} [DecidableEq P] [DecidableEq C] [Fintype P] [Fintype C] {s s' : Pool}
  {q q' : BlockingQueue Task P C}

/-- A worker gets its task with a `Pop` of the blocking queue that does not wait. -/
theorem workerStep_pop {i : Nat} (hq : q.queue = s.tasks) (hi : s.workers[i]? = some .popping)
    (hstep : workerStep s i = some s') (j : C) :
    ∃ q' task, q.pop 0 j none = some q' ∧ q'.queue = s'.tasks ∧
      q'.returned = q.returned ++ [(j, task)] ∧ s'.workers = s.workers.set i (.popped task) := by
  cases htasks : s.tasks with
  | nil => simp [workerStep, hi, htasks] at hstep
  | cons task tasks =>
    simp only [workerStep, hi, htasks] at hstep
    cases hstep
    rw [htasks] at hq
    exact ⟨_, task, by simp only [BlockingQueue.pop, hq]; rfl, rfl, rfl, rfl⟩

/-- `AddTask` is a `Push`, which never waits at a queue without a maximum size. -/
theorem addTask_push {i : P} {wake : Option (P ⊕ C)} (hq : q.queue = s.tasks) (action : Bool)
    (hpush : q.push 0 i ⟨if action then some s.added else none⟩ wake = some q') :
    q'.queue = (addTask s action).tasks := by
  simp only [BlockingQueue.push, BlockingQueue.full, bne_self_eq_false, Bool.false_and,
    Bool.false_eq_true, if_false] at hpush
  rw [(BlockingQueue.notifyOne_counts hpush).1, hq]
  cases action <;> rfl

end Queue

/-! ## The account of the tasks -/

/-- The actions in the queue. -/
def Pool.queued (s : Pool) : List Nat :=
  s.tasks.filterMap Task.action

/-- The actions that the workers have in their hands. -/
def Pool.held (s : Pool) : List Nat :=
  s.workers.filterMap Worker.held

/-- While the pool is in use every action is queued, held or finished; the counter is the number
of active workers; between its two checks `WaitAll` has seen its tasks leave the queue. -/
structure PoolInv (s : Pool) : Prop where
  threads : s.workers.length < 2 ^ 32
  counted : s.activeWorkersCnt = BitVec.ofNat 32 (s.workers.countP Worker.counted)
  balanced : s.stopping = false → Balanced s.added s.finished (s.queued ++ s.held)
  all_returned : s.stopping = true → ∀ w ∈ s.waiters, w.phase = .returned
  before_le : ∀ w ∈ s.waiters, w.before ≤ s.added
  left_queue : ∀ w ∈ s.waiters, w.call = .waitAll → w.phase = .checkingCount →
    ∀ id ∈ s.queued, w.before ≤ id

section Account

variable {s s' : Pool} {i : Nat} {x y : Worker} {w : Waiter} {a : Label}

theorem construct_poolInv (threadsCnt nprocs : BitVec 32) :
    PoolInv (Pool.construct threadsCnt nprocs) where
  threads := by simp only [Pool.construct, List.length_replicate, BitVec.isLt]
  counted := by simp [Pool.construct, Worker.counted, List.countP_replicate]
  balanced := by
    intro _
    have hheld : (Pool.construct threadsCnt nprocs).held = [] := by
      refine List.filterMap_eq_nil_iff.2 fun x hx => ?_
      rw [List.eq_of_mem_replicate hx]
      rfl
    rw [hheld]
    exact Balanced.empty
  all_returned := by simp [Pool.construct]
  before_le := by simp [Pool.construct]
  left_queue := by simp [Pool.construct]

theorem addTask_poolInv (h : PoolInv s) (action : Bool) : PoolInv (addTask s action) := by
  cases action with
  | false =>
    have hqueued : (addTask s false).queued = s.queued := by simp [addTask, Pool.queued]
    refine ⟨h.threads, h.counted, ?_, h.all_returned, h.before_le, ?_⟩
    · rw [hqueued]
      exact h.balanced
    · rw [hqueued]
      exact h.left_queue
  | true =>
    have hqueued : (addTask s true).queued = s.queued ++ [s.added] := by
      simp [addTask, Pool.queued]
    refine ⟨h.threads, h.counted, ?_, h.all_returned, ?_, ?_⟩
    · intro hstop
      refine (h.balanced hstop).issue.perm ?_
      rw [hqueued, List.append_assoc]
      exact List.perm_middle.symm
    · intro w hw
      exact Nat.le_succ_of_le (h.before_le w hw)
    · intro w hw hcall hphase id hid
      rw [hqueued, List.mem_append, List.mem_singleton] at hid
      rcases hid with hid | rfl
      · exact h.left_queue w hw hcall hphase id hid
      · exact h.before_le w hw

/-- What a list of workers holds, with one of them set apart. -/
theorem held_cons (x : Worker) (others : List Worker) :
    (x :: others).filterMap Worker.held = x.held.toList ++ others.filterMap Worker.held := by
  cases hx : x.held <;> simp [hx]

theorem countP_counted_cons (x : Worker) (others : List Worker) :
    BitVec.ofNat 32 ((x :: others).countP Worker.counted) =
      BitVec.ofNat 32 (others.countP Worker.counted) + BitVec.ofNat 32 x.counted.toNat := by
  rw [← BitVec.ofNat_add, List.countP_cons]
  cases x.counted <;> rfl

/-- A step of one worker keeps the account if it does so whatever the other workers hold, and
if the counter follows the worker. -/
theorem PoolInv.move {tasks : List Task} {cnt : BitVec 32} {finished : Finset Nat}
    (h : PoolInv s) (hx : s.workers[i]? = some x)
    (hqueue : ∀ id ∈ tasks.filterMap Task.action, id ∈ s.queued)
    (hcnt : cnt + BitVec.ofNat 32 x.counted.toNat =
      s.activeWorkersCnt + BitVec.ofNat 32 y.counted.toNat)
    (hbalanced : s.stopping = false → ∀ others,
      Balanced s.added s.finished (s.queued ++ (x.held.toList ++ others)) →
      Balanced s.added finished (tasks.filterMap Task.action ++ (y.held.toList ++ others))) :
    PoolInv { s with tasks, finished, workers := s.workers.set i y, activeWorkersCnt := cnt } := by
  obtain ⟨hi, rfl⟩ := List.getElem?_eq_some_iff.1 hx
  have hold := (List.getElem_cons_eraseIdx_perm hi).symm
  have hnew := List.set_perm_cons_eraseIdx hi y
  refine ⟨?_, ?_, ?_, h.all_returned, h.before_le, ?_⟩
  · simpa using h.threads
  · rw [h.counted, hold.countP_eq, countP_counted_cons, add_right_comm] at hcnt
    rw [hnew.countP_eq, countP_counted_cons]
    exact add_right_cancel hcnt
  · intro hstop
    have hheld := (hold.filterMap Worker.held).append_left s.queued
    rw [held_cons] at hheld
    have hmoved := hbalanced hstop _ ((h.balanced hstop).perm hheld)
    rw [← held_cons] at hmoved
    exact hmoved.perm ((hnew.filterMap Worker.held).symm.append_left _)
  · intro w hw hcall hphase id hid
    exact h.left_queue w hw hcall hphase id (hqueue id hid)

theorem workerStep_poolInv (h : PoolInv s) (hstep : workerStep s i = some s') : PoolInv s' := by
  unfold workerStep at hstep
  split at hstep
  · cases hstep
  · -- `Pop` moves the first task from the queue into the hand of the worker
    rename_i hx
    split at hstep
    · cases hstep
    · rename_i task tasks htasks
      cases hstep
      have hqueued : s.queued = task.action.toList ++ tasks.filterMap Task.action := by
        cases haction : task.action <;> simp [Pool.queued, htasks, haction]
      refine h.move hx ?_ rfl ?_
      · intro id hid
        rw [hqueued]
        exact List.mem_append_right _ hid
      · intro _ others hbalanced
        refine hbalanced.perm ?_
        rw [hqueued, List.append_assoc]
        exact List.perm_append_comm_assoc _ _ _
  · rename_i task hx
    split at hstep
    · -- the task is dropped, but nobody counts on it any more
      rename_i hstop
      cases hstep
      refine h.move hx (fun _ hid => hid) rfl ?_
      intro hgoing
      rw [hgoing] at hstop
      cases hstop
    · split at hstep
      all_goals
        rename_i haction
        cases hstep
        refine h.move hx (fun _ hid => hid) rfl ?_
        intro _ others hbalanced
        simpa [Pool.queued, Worker.held, haction] using hbalanced
  · rename_i action hx
    cases hstep
    exact h.move hx (fun _ hid => hid) (add_zero _) fun _ _ hbalanced => hbalanced
  · -- the action of the worker is finished
    rename_i action hx
    cases hstep
    refine h.move hx (fun _ hid => hid) rfl ?_
    intro _ others hbalanced
    exact (hbalanced.perm List.perm_middle).finish
  · rename_i hx
    cases hstep
    refine h.move hx (fun _ hid => hid) ?_ fun _ _ hbalanced => hbalanced
    exact (sub_add_cancel _ _).trans (add_zero _).symm
  · rename_i hx
    cases hstep
    exact h.move hx (fun _ hid => hid) rfl fun _ _ hbalanced => hbalanced
  · cases hstep

/-- What a step of a waiting call is. -/
theorem waiterStep_eq_some (hstep : waiterStep s i = some s') :
    ∃ w phase, s.waiters[i]? = some w ∧ s.next w = some phase ∧
      s' = { s with
        mutex := if phase.locked then some i else none
        waiters := s.waiters.set i { w with phase } } := by
  unfold waiterStep at hstep
  split at hstep
  · cases hstep
  · rename_i w hw
    split at hstep
    · cases hstep
    · rename_i phase hnext
      exact ⟨w, phase, hw, hnext, (Option.some.inj hstep).symm⟩

/-- `WaitAll` goes on to the counter only when the queue is empty. -/
theorem next_waitAll (hcall : w.call = .waitAll) (hnext : s.next w = some .checkingCount) :
    s.tasks = [] := by
  cases hphase : w.phase with
  | checkingQueue =>
    simp only [Pool.next, hphase, hcall, Option.some.injEq] at hnext
    split_ifs at hnext with hempty
    exact hempty
  | checkingCount =>
    simp only [Pool.next, hphase, Option.some.injEq] at hnext
    split_ifs at hnext
  | locking | returned => simp [Pool.next, hphase] at hnext
  | waiting => simp [Pool.next, hphase, hcall] at hnext

theorem waiterStep_poolInv (h : PoolInv s) (hstep : waiterStep s i = some s') : PoolInv s' := by
  obtain ⟨w, phase, hw, hnext, rfl⟩ := waiterStep_eq_some hstep
  have hmem : w ∈ s.waiters := List.mem_of_getElem? hw
  refine ⟨h.threads, h.counted, h.balanced, ?_, ?_, ?_⟩
  · intro hstop
    have hreturned := h.all_returned hstop w hmem
    simp [Pool.next, hreturned] at hnext
  · intro v hv
    rcases List.mem_or_eq_of_mem_set hv with hv | rfl
    · exact h.before_le v hv
    · exact h.before_le w hmem
  · intro v hv hcall hphase id hid
    rcases List.mem_or_eq_of_mem_set hv with hv | rfl
    · exact h.left_queue v hv hcall hphase id hid
    · obtain rfl : phase = .checkingCount := hphase
      have hempty : s.tasks = [] := next_waitAll (w := w) hcall hnext
      simp [Pool.queued, hempty] at hid

theorem step_poolInv (h : PoolInv s) (hstep : step s a = some s') : PoolInv s' := by
  cases a with
  | addTask action =>
    cases hstep
    exact addTask_poolInv h action
  | worker i => exact workerStep_poolInv h hstep
  | call c =>
    simp only [step] at hstep
    split at hstep
    · cases hstep
    · rename_i hgoing
      cases hstep
      exact ⟨h.threads, h.counted, h.balanced, fun hstop => absurd hstop hgoing,
        List.forall_mem_append.2 ⟨h.before_le, List.forall_mem_singleton.2 le_rfl⟩,
        List.forall_mem_append.2 ⟨h.left_queue, List.forall_mem_singleton.2 fun _ => nofun⟩⟩
  | waiter i now => exact waiterStep_poolInv h hstep
  | destroy =>
    simp only [step] at hstep
    split at hstep
    · rename_i hreturned
      cases hstep
      exact ⟨h.threads, h.counted, nofun, fun _ => hreturned, h.before_le, h.left_queue⟩
    · cases hstep

/-- No task is lost or run twice, and the counter counts the active workers. -/
theorem poolInv_always (threadsCnt nprocs : BitVec 32) (labels : List Label) :
    Always step PoolInv (Pool.construct threadsCnt nprocs) labels := by
  refine always_of_forall (Q := fun _ => True) ?_ (construct_poolInv threadsCnt nprocs) ?_
  · intro s a s' h _ hstep
    exact step_poolInv h hstep
  · simp

end Account

/-! ## The end of a wait -/

/-- When a call returns before its deadline, the actions that were added before it are
finished. -/
def FinishedAtReturn (s : Pool) : Label → Prop
  | .waiter i now => ∀ w ∈ s.waiters[i]?, s.next w = some .returned → w.call.inTime now = true →
      ∀ id < w.before, id ∈ s.finished
  | _ => True

/-- The actions in the places that the read on which a call returns says nothing about.  An empty
queue says nothing about the workers; a counter of zero nothing about the workers in front of the
increment, nor about the queue, which only `WaitAll` has found empty before; and behind its wait
`WaitAllUntilTimeAt` reads nothing. -/
def Pool.unseen (s : Pool) (w : Waiter) : List Nat :=
  match w.phase, w.call with
  | .checkingQueue, _ => s.held
  | .checkingCount, .waitAll => s.workers.filterMap Worker.uncounted
  | .checkingCount, .waitAllUntilTimeAt _ => s.queued ++ s.workers.filterMap Worker.uncounted
  | _, _ => s.queued ++ s.held

/-- When a call returns before its deadline, no action of before the call is in a place that it
has not looked at. -/
def SeenAtReturn (s : Pool) : Label → Prop
  | .waiter i now => ∀ w ∈ s.waiters[i]?, s.next w = some .returned → w.call.inTime now = true →
      ∀ id ∈ s.unseen w, w.before ≤ id
  | _ => True

instance decidableSeenAtReturn (s : Pool) : ∀ a, Decidable (SeenAtReturn s a)
  | .waiter i now => inferInstanceAs (Decidable (∀ w ∈ s.waiters[i]?,
      s.next w = some .returned → w.call.inTime now = true → ∀ id ∈ s.unseen w, w.before ≤ id))
  | .addTask _ | .worker _ | .call _ | .destroy => inferInstanceAs (Decidable True)

section Returns

variable {s : Pool} {w : Waiter} {a : Label}

/-- A worker that is not counted holds its action between `Pop` and the increment. -/
theorem held_eq_uncounted {x : Worker} (h : x.counted = false) : x.held = x.uncounted := by
  cases x with
  | running action => cases h
  | _ => rfl

/-- A counter of zero means that no worker is active: there are less than `2 ^ 32` of them. -/
theorem PoolInv.counted_eq_false (h : PoolInv s) (hzero : s.activeWorkersCnt = 0) :
    ∀ x ∈ s.workers, x.counted = false := by
  have hle := List.countP_le_length (p := Worker.counted) (l := s.workers)
  have hcnt := congrArg BitVec.toNat (h.counted.symm.trans hzero)
  rw [BitVec.toNat_ofNat, Nat.mod_eq_of_lt (hle.trans_lt h.threads)] at hcnt
  have hnone : s.workers.countP Worker.counted = 0 := hcnt
  intro x hx
  simpa using List.countP_eq_zero.1 hnone x hx

theorem PoolInv.held_eq (h : PoolInv s) (hzero : s.activeWorkersCnt = 0) :
    s.held = s.workers.filterMap Worker.uncounted := by
  refine List.filterMap_congr fun x hx => ?_
  exact held_eq_uncounted (h.counted_eq_false hzero x hx)

/-- When a call returns, what it has read settles all places but the unseen ones. -/
theorem PoolInv.unseen_iff (h : PoolInv s) (hw : w ∈ s.waiters)
    (hnext : s.next w = some .returned) :
    (∀ id ∈ s.unseen w, w.before ≤ id) ↔ ∀ id ∈ s.queued ++ s.held, w.before ≤ id := by
  cases hphase : w.phase with
  | locking | returned | waiting => simp only [Pool.unseen, hphase]
  | checkingQueue =>
    have hempty : s.tasks = [] := by
      cases hcall : w.call with
      | waitAll =>
        simp only [Pool.next, hphase, hcall, Option.some.injEq] at hnext
        split_ifs at hnext
      | waitAllUntilTimeAt deadline =>
        simp only [Pool.next, hphase, hcall, Option.some.injEq] at hnext
        split_ifs at hnext with hempty
        exact hempty
    simp only [Pool.unseen, hphase, Pool.queued, hempty, List.filterMap_nil, List.nil_append]
  | checkingCount =>
    have hzero : s.activeWorkersCnt = 0 := by
      simp only [Pool.next, hphase, Option.some.injEq] at hnext
      split_ifs at hnext with hzero
      exact hzero
    rw [h.held_eq hzero]
    cases hcall : w.call with
    | waitAllUntilTimeAt deadline => simp only [Pool.unseen, hphase, hcall]
    | waitAll =>
      simp only [Pool.unseen, hphase, hcall, List.forall_mem_append]
      exact (and_iff_right (h.left_queue w hw hcall hphase)).symm

theorem finishedAtReturn_iff (h : PoolInv s) : FinishedAtReturn s a ↔ SeenAtReturn s a := by
  cases a with
  | waiter i now =>
    refine forall₄_congr fun w hw hnext _ => ?_
    have hmem : w ∈ s.waiters := List.mem_of_getElem? hw
    have hgoing : s.stopping = false := by
      by_contra hstop
      have hreturned := h.all_returned (eq_true_of_ne_false hstop) w hmem
      simp [Pool.next, hreturned] at hnext
    rw [h.unseen_iff hmem hnext]
    exact (h.balanced hgoing).finished_below_iff (h.before_le w hmem)
  | _ => exact Iff.rfl

end Returns

/-- Whatever the number of workers, and in every interleaving, the actions of before a call are
finished when `WaitAll` returns and when `WaitAllUntilTimeAt` returns before its deadline
exactly when at every such return none of them is in a place that the call has not looked at. -/
theorem waiting_means_finished_iff (threadsCnt nprocs : BitVec 32) (labels : List Label) :
    Guarded step FinishedAtReturn (Pool.construct threadsCnt nprocs) labels ↔
      Guarded step SeenAtReturn (Pool.construct threadsCnt nprocs) labels := by
  refine guarded_congr (I := PoolInv) ?_ ?_ (construct_poolInv threadsCnt nprocs)
  · intro s a s' h _ hstep
    exact step_poolInv h hstep
  · intro s a h
    exact finishedAtReturn_iff h

/-- One worker and one task, and two calls while it runs: `WaitAll` goes to sleep and returns
when the counter is back to zero, and the other call begins to look after that. -/
theorem waiting_means_finished_iff_one_task :
    let labels : List Label := [.addTask true, .worker 0, .worker 0, .worker 0, .call .waitAll,
      .call (.waitAllUntilTimeAt 100), .waiter 0 1, .waiter 0 1, .waiter 0 1, .worker 0, .worker 0,
      .worker 0, .waiter 0 2, .waiter 0 2, .waiter 0 2, .waiter 1 3, .waiter 1 3]
    Guarded step FinishedAtReturn (Pool.construct 1 4) labels ∧
      ∃ t, run step (Pool.construct 1 4) labels = some t ∧
        t.waiters = [⟨.waitAll, 1, .returned⟩, ⟨.waitAllUntilTimeAt 100, 1, .returned⟩] := by
  intro labels
  exact ⟨(waiting_means_finished_iff 1 4 labels).2 (by decide +kernel), _, rfl, rfl⟩

/-- `WaitAll` finds an empty queue and no active worker while the only worker has the task in its
hand; `WaitAllUntilTimeAt` returns at once while the task is still in the queue. -/
theorem wait_returns_too_early :
    (∃ t, run step (Pool.construct 1 4) [.addTask true, .worker 0, .call .waitAll, .waiter 0 1,
        .waiter 0 1, .waiter 0 1] = some t ∧
      t.waiters = [⟨.waitAll, 1, .returned⟩] ∧ t.workers = [.popped ⟨some 0⟩] ∧
      0 ∉ t.finished) ∧
    ∃ t, run step (Pool.construct 1 4) [.addTask true, .call (.waitAllUntilTimeAt 100),
        .waiter 0 1, .waiter 0 1, .waiter 0 1] = some t ∧
      t.waiters = [⟨.waitAllUntilTimeAt 100, 1, .returned⟩] ∧ t.tasks = [⟨some 0⟩] ∧
      0 ∉ t.finished := by
  exact ⟨⟨_, rfl, rfl, rfl, Finset.notMem_empty 0⟩, _, rfl, rfl, rfl, Finset.notMem_empty 0⟩

end ThreadPool
end CCraft
