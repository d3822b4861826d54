import CCraft.Lib.BoundedBuffer

/-!
# The blocking queue

`BlockingQueue` has one mutex and one condition variable for the threads that call `Push` and for
those that call `Pop`.  A call holds the mutex from its beginning to its end, or until it waits, and
a woken call holds it again from its test on: each of these stretches is one step.  Every item that
is pushed or popped wakes one of the waiting threads, and the label says which one.  So the wake-up
for an item can go to a thread that waits for a place, and the other way round.

Main results:

- Theorem {lit}`step_counts` and {lit}`exists_step`: the numbers of the items and of the threads at
  each place go the way of a bounded buffer with one condition variable, and every way it can go.
- Theorem {lit}`queue_does_not_stall_iff`: for which maximum sizes and numbers of threads the queue
  does not stall.
- Theorem {lit}`queue_stalls`: a producer and a consumer that both wait at the empty queue.
-/

namespace CCraft
namespace Common

open Runs ThreadGroups BoundedBuffer

/-! ## The queue -/

/-- `m_queue`, the producers with the items they push and the consumers, and what `Pop` has
returned. -/
structure BlockingQueue (T P C : Type) where
  queue : List T
  producers : P → Place T
  consumers : C → Place Unit
  returned : List (C × T)

/-- A thread calls `Push` or `Pop`, or goes on in it after it has been woken.  The last argument is
the thread that `notify_one` wakes. -/
inductive QueueLabel (T P C : Type) where
  | callPush (i : P) (x : T) (wake : Option (P ⊕ C))
  | resumePush (i : P) (wake : Option (P ⊕ C))
  | callPop (j : C) (wake : Option (P ⊕ C))
  | resumePop (j : C) (wake : Option (P ⊕ C))

namespace BlockingQueue

variable {T P C : Type}

/-- A queue that nothing has been pushed to. -/
def new : BlockingQueue T P C :=
  ⟨[], fun _ => .outside, fun _ => .outside, []⟩

/-- `m_iQueueMaxSize != 0 && m_queue.size() >= m_iQueueMaxSize`. -/
def full (maxSize : Nat) (queue : List T) : Bool :=
  maxSize != 0 && decide (maxSize ≤ queue.length)

/-- Nothing is left to do but what has been done, and no thread is woken. -/
def unwoken (s : BlockingQueue T P C) : Option (P ⊕ C) → Option (BlockingQueue T P C)
  | none => some s
  | some _ => none

section Steps

variable [DecidableEq P] [DecidableEq C] [Fintype P] [Fintype C]

/-- No thread waits. -/
def NobodyWaits (s : BlockingQueue T P C) : Prop :=
  (∀ i, (s.producers i).isWaiting = false) ∧ ∀ j, (s.consumers j).isWaiting = false

instance (s : BlockingQueue T P C) : Decidable s.NobodyWaits :=
  inferInstanceAs (Decidable (_ ∧ _))

/-- `m_cond.notify_one()`: a waiting thread is woken, if there is one. -/
def notifyOne (s : BlockingQueue T P C) : Option (P ⊕ C) → Option (BlockingQueue T P C)
  | none => if s.NobodyWaits then some s else none
  | some (.inl i) =>
    match s.producers i with
    | .waiting x => some { s with producers := Function.update s.producers i (.woken x) }
    | _ => none
  | some (.inr j) =>
    match s.consumers j with
    | .waiting x => some { s with consumers := Function.update s.consumers j (.woken x) }
    | _ => none

/-- `Push` from the test on. -/
def push (maxSize : Nat) (s : BlockingQueue T P C) (i : P) (x : T) (wake : Option (P ⊕ C)) :
    Option (BlockingQueue T P C) :=
  if full maxSize s.queue then
    unwoken { s with producers := Function.update s.producers i (.waiting x) } wake
  else
    notifyOne { s with
      queue := s.queue ++ [x], producers := Function.update s.producers i .outside } wake

/-- `Pop` from the test on. -/
def pop (maxSize : Nat) (s : BlockingQueue T P C) (j : C) (wake : Option (P ⊕ C)) :
    Option (BlockingQueue T P C) :=
  match s.queue with
  | [] => unwoken { s with consumers := Function.update s.consumers j (.waiting ()) } wake
  | x :: rest =>
    if maxSize ≠ 0 then
      notifyOne ⟨rest, s.producers, Function.update s.consumers j .outside,
        s.returned ++ [(j, x)]⟩ wake
    else
      unwoken ⟨rest, s.producers, Function.update s.consumers j .outside,
        s.returned ++ [(j, x)]⟩ wake

/-- One step. -/
def step (maxSize : Nat) (s : BlockingQueue T P C) :
    QueueLabel T P C → Option (BlockingQueue T P C)
  | .callPush i x wake =>
    match s.producers i with
    | .outside => s.push maxSize i x wake
    | _ => none
  | .resumePush i wake =>
    match s.producers i with
    | .woken x => s.push maxSize i x wake
    | _ => none
  | .callPop j wake =>
    match s.consumers j with
    | .outside => s.pop maxSize j wake
    | _ => none
  | .resumePop j wake =>
    match s.consumers j with
    | .woken _ => s.pop maxSize j wake
    | _ => none

end Steps

/-- When no woken thread is left, no consumer waits at a queue that is not empty, no producer waits
at one that is not full, and a producer and a consumer do not wait at the same time. -/
def NoStall (maxSize : Nat) (s : BlockingQueue T P C) : Prop :=
  (∀ i, (s.producers i).isWoken = false) → (∀ j, (s.consumers j).isWoken = false) →
    (∀ j, (s.consumers j).isWaiting = true → s.queue = []) ∧
    (∀ i, (s.producers i).isWaiting = true → maxSize ≤ s.queue.length) ∧
    ¬ ((∃ i, (s.producers i).isWaiting = true) ∧ ∃ j, (s.consumers j).isWaiting = true)

/-! ## Counting -/

variable [DecidableEq P] [DecidableEq C] [Fintype P] [Fintype C] {m : Nat}
  {s s' : BlockingQueue T P C} {i : P} {j : C} {x : T} {wake : Option (P ⊕ C)} {again : Bool}
  {w : Wake} {l : QueueLabel T P C}

/-- The items, the free places and the threads at each place. -/
def counts (m : Nat) (s : BlockingQueue T P C) : Counts :=
  ⟨s.queue.length, m - s.queue.length, group s.consumers, group s.producers⟩

/-- Whom a consumer wakes. -/
def wakeKind : Option (P ⊕ C) → Wake
  | none => .nobody
  | some (.inl _) => .other
  | some (.inr _) => .own

omit [DecidableEq P] [DecidableEq C] in
theorem nobodyWaits_iff :
    s.NobodyWaits ↔ (group s.consumers).waiting = 0 ∧ (group s.producers).waiting = 0 := by
  rw [waiting_eq_zero, waiting_eq_zero, NobodyWaits, and_comm]

/-- `notify_one` wakes a thread of one of the two groups. -/
theorem notifyOne_counts (h : s.notifyOne wake = some s') :
    s'.queue = s.queue ∧ notify (group s.consumers) (group s.producers) (wakeKind wake) =
      some (group s'.consumers, group s'.producers) := by
  match wake with
  | none =>
    obtain ⟨hnobody, ⟨⟩⟩ := Option.ite_none_right_eq_some.1 h
    exact ⟨rfl, if_pos (nobodyWaits_iff.1 hnobody)⟩
  | some (.inl i) =>
    cases hplace : s.producers i with
    | outside | woken => simp [notifyOne, hplace] at h
    | waiting x =>
      simp only [notifyOne, hplace] at h
      cases h
      exact ⟨rfl, by simp [notify, wakeKind, wake_group hplace]⟩
  | some (.inr j) =>
    cases hplace : s.consumers j with
    | outside | woken => simp [notifyOne, hplace] at h
    | waiting x =>
      simp only [notifyOne, hplace] at h
      cases h
      exact ⟨rfl, by simp [notify, wakeKind, wake_group hplace]⟩

/-- Whatever group a thread can be woken from, `notify_one` can wake one of it. -/
theorem exists_notifyOne {gs : Group × Group}
    (h : notify (group s.consumers) (group s.producers) w = some gs) :
    ∃ wake s', s.notifyOne wake = some s' ∧ wakeKind wake = w := by
  cases w with
  | nobody =>
    have hnobody := nobodyWaits_iff.2 (Option.ite_none_right_eq_some.1 h).1
    exact ⟨none, s, if_pos hnobody, rfl⟩
  | own =>
    obtain ⟨g, hwake, -⟩ := Option.map_eq_some_iff.1 h
    obtain ⟨j, x, hplace⟩ := exists_of_wake hwake
    exact ⟨some (.inr j), _, by rw [notifyOne, hplace], rfl⟩
  | other =>
    obtain ⟨g, hwake, -⟩ := Option.map_eq_some_iff.1 h
    obtain ⟨i, x, hplace⟩ := exists_of_wake hwake
    exact ⟨some (.inl i), _, by rw [notifyOne, hplace], rfl⟩

/-- `Pop` takes an item. -/
theorem pop_counts (hm : 0 < m) (hbound : s.queue.length ≤ m)
    (hstart : (s.consumers j).starts again = true) (h : s.pop m j wake = some s') :
    take (counts m s) again (wakeKind wake) = some (counts m s') := by
  obtain ⟨g, hg, hwait, hout⟩ := start_group hstart ()
  cases hqueue : s.queue with
  | nil =>
    rw [pop, hqueue] at h
    cases wake with
    | some t => cases h
    | none =>
      cases h
      simp [take, counts, hg, hqueue, wakeKind, hwait]
  | cons x rest =>
    rw [pop, hqueue] at h
    obtain ⟨hsame, hnotify⟩ := notifyOne_counts ((if_pos hm.ne').symm.trans h)
    dsimp only at hsame hnotify
    rw [hqueue, List.length_cons] at hbound
    have hroom : m - (rest.length + 1) + 1 = m - rest.length := by omega
    simp [take, counts, hg, hqueue, hsame, ← hout, hnotify, hroom]

/-- A queue with a maximum size is full if no place is left. -/
theorem full_iff {queue : List T} (hm : 0 < m) : full m queue = true ↔ m - queue.length = 0 := by
  simp only [full, Bool.and_eq_true, bne_iff_ne, decide_eq_true_eq]
  omega

/-- `Push` takes a place. -/
theorem push_counts (hm : 0 < m) (hstart : (s.producers i).starts again = true)
    (h : s.push m i x wake = some s') :
    take (counts m s).mirror again (wakeKind wake).swap = some (counts m s').mirror := by
  obtain ⟨g, hg, hwait, hout⟩ := start_group hstart x
  by_cases hroom : m - s.queue.length = 0
  · rw [push, if_pos ((full_iff hm).2 hroom)] at h
    cases wake with
    | some t => cases h
    | none =>
      cases h
      simp [take, counts, Counts.mirror, hg, hroom, wakeKind, Wake.swap, hwait]
  · rw [push, if_neg (mt (full_iff hm).1 hroom)] at h
    obtain ⟨hsame, hnotify⟩ := notifyOne_counts h
    dsimp only at hsame hnotify
    have hless : m - s.queue.length - 1 = m - (s.queue.length + 1) := by omega
    simp [take, counts, Counts.mirror, hg, hroom, hsame, ← hout, notify_swap, hnotify, hless]

/-! ## Steps of the bounded buffer -/

/-- A step is `Push` or `Pop` of a thread that can start. -/
theorem step_eq_some (h : s.step m l = some s') :
    (∃ i x again wake, (s.producers i).starts again = true ∧ s.push m i x wake = some s') ∨
      ∃ j again wake, (s.consumers j).starts again = true ∧ s.pop m j wake = some s' := by
  cases l with
  | callPush i x wake =>
    simp only [step] at h
    split at h
    · next hplace => exact .inl ⟨i, x, false, wake, Place.starts_false.2 hplace, h⟩
    · cases h
  | resumePush i wake =>
    simp only [step] at h
    split at h
    · next x hplace => exact .inl ⟨i, x, true, wake, Place.starts_true.2 ⟨x, hplace⟩, h⟩
    · cases h
  | callPop j wake =>
    simp only [step] at h
    split at h
    · next hplace => exact .inr ⟨j, false, wake, Place.starts_false.2 hplace, h⟩
    · cases h
  | resumePop j wake =>
    simp only [step] at h
    split at h
    · next x hplace => exact .inr ⟨j, true, wake, Place.starts_true.2 ⟨x, hplace⟩, h⟩
    · cases h

/-- A producer that can start takes a step with some item. -/
theorem step_of_push [Inhabited T] (hstart : (s.producers i).starts again = true) :
    ∃ x, ∀ wake, ∃ l, s.step m l = s.push m i x wake := by
  cases again with
  | false =>
    have hplace := Place.starts_false.1 hstart
    exact ⟨default, fun wake => ⟨.callPush i default wake, by simp only [step, hplace]⟩⟩
  | true =>
    obtain ⟨x, hplace⟩ := Place.starts_true.1 hstart
    exact ⟨x, fun wake => ⟨.resumePush i wake, by simp only [step, hplace]⟩⟩

theorem step_of_pop (hstart : (s.consumers j).starts again = true) (wake : Option (P ⊕ C)) :
    ∃ l, s.step m l = s.pop m j wake := by
  cases again with
  | false =>
    have hplace := Place.starts_false.1 hstart
    exact ⟨.callPop j wake, by simp only [step, hplace]⟩
  | true =>
    obtain ⟨x, hplace⟩ := Place.starts_true.1 hstart
    exact ⟨.resumePop j wake, by simp only [step, hplace]⟩

/-- Every step is a step of the bounded buffer. -/
theorem step_counts (hm : 0 < m) (hbound : s.queue.length ≤ m) (h : s.step m l = some s') :
    ∃ b, BoundedBuffer.step (counts m s) b = some (counts m s') := by
  obtain ⟨i, x, again, wake, hstart, hpush⟩ | ⟨j, again, wake, hstart, hpop⟩ := step_eq_some h
  · refine ⟨.put again (wakeKind wake).swap, ?_⟩
    rw [BoundedBuffer.step, push_counts hm hstart hpush]
    rfl
  · exact ⟨.take again (wakeKind wake), pop_counts hm hbound hstart hpop⟩

/-- The queue does not get longer than its maximum size. -/
theorem step_bound (hm : 0 < m) (hbound : s.queue.length ≤ m) (h : s.step m l = some s') :
    s'.queue.length ≤ m := by
  obtain ⟨b, hstep⟩ := step_counts hm hbound h
  have hsized : Sized m _ _ (counts m s) := ⟨by simp only [counts]; omega, rfl, rfl⟩
  have hplaces : s'.queue.length + (m - s'.queue.length) = m := (hsized.step hstep).places
  omega

/-- When an item can be taken, some consumer can take it. -/
theorem exists_pop {y : Counts} (hm : 0 < m) (hbound : s.queue.length ≤ m)
    (h : take (counts m s) again w = some y) :
    ∃ l s', s.step m l = some s' ∧ counts m s' = y := by
  obtain ⟨g, hg, hrest⟩ := Option.bind_eq_some_iff.1 h
  obtain ⟨j, hstart⟩ := exists_of_start hg
  obtain ⟨g', hg', -, hout⟩ := start_group hstart ()
  cases hg.symm.trans hg'
  obtain ⟨wake, s', hpop, rfl⟩ : ∃ wake s', s.pop m j wake = some s' ∧ wakeKind wake = w := by
    cases hqueue : s.queue with
    | nil =>
      have hitems : (counts m s).items = 0 := by simp [counts, hqueue]
      rw [if_pos hitems] at hrest
      cases w with
      | nobody => exact ⟨none, _, by rw [pop, hqueue]; rfl, rfl⟩
      | own | other => cases hrest
    | cons x rest =>
      have hitems : ¬ (counts m s).items = 0 := by simp [counts, hqueue]
      rw [if_neg hitems, ← hout] at hrest
      obtain ⟨gs, hnotify, -⟩ := Option.map_eq_some_iff.1 hrest
      obtain ⟨wake, s', hone, hw⟩ := exists_notifyOne
        (s := ⟨rest, s.producers, Function.update s.consumers j .outside, s.returned ++ [(j, x)]⟩)
        hnotify
      exact ⟨wake, s', by rw [pop, hqueue]; exact (if_pos hm.ne').trans hone, hw⟩
  obtain ⟨l, hl⟩ := step_of_pop hstart wake
  have hy := (pop_counts hm hbound hstart hpop).symm.trans h
  exact ⟨l, s', hl.trans hpop, Option.some.inj hy⟩

/-- When a place can be taken, some producer can take it. -/
theorem exists_push [Inhabited T] {y : Counts} (hm : 0 < m)
    (h : take (counts m s).mirror again w = some y) :
    ∃ l s', s.step m l = some s' ∧ (counts m s').mirror = y := by
  obtain ⟨g, hg, hrest⟩ := Option.bind_eq_some_iff.1 h
  obtain ⟨i, hstart⟩ := exists_of_start hg
  obtain ⟨x, hstep⟩ := step_of_push (m := m) hstart
  obtain ⟨g', hg', -, hout⟩ := start_group hstart x
  cases hg.symm.trans hg'
  obtain ⟨wake, s', hpush, rfl⟩ : ∃ wake s', s.push m i x wake = some s' ∧
      (wakeKind wake).swap = w := by
    by_cases hroom : m - s.queue.length = 0
    · have hitems : (counts m s).mirror.items = 0 := hroom
      rw [if_pos hitems] at hrest
      cases w with
      | nobody => exact ⟨none, _, by rw [push, if_pos ((full_iff hm).2 hroom)]; rfl, rfl⟩
      | own | other => cases hrest
    · have hitems : ¬ (counts m s).mirror.items = 0 := hroom
      rw [if_neg hitems, ← hout] at hrest
      obtain ⟨gs, hnotify, -⟩ := Option.map_eq_some_iff.1 hrest
      rw [← w.swap_swap, notify_swap] at hnotify
      obtain ⟨gs', hnotify', -⟩ := Option.map_eq_some_iff.1 hnotify
      obtain ⟨wake, s', hone, hw⟩ := exists_notifyOne
        (s := { s with
          queue := s.queue ++ [x], producers := Function.update s.producers i .outside }) hnotify'
      refine ⟨wake, s', ?_, by rw [hw, w.swap_swap]⟩
      rw [push, if_neg (mt (full_iff hm).1 hroom), hone]
  obtain ⟨l, hl⟩ := hstep wake
  have hy := (push_counts hm hstart hpush).symm.trans h
  exact ⟨l, s', hl.trans hpush, Option.some.inj hy⟩

/-- Every step of the bounded buffer is a step of the queue. -/
theorem exists_step [Inhabited T] {b : Label} {y : Counts} (hm : 0 < m)
    (hbound : s.queue.length ≤ m) (h : BoundedBuffer.step (counts m s) b = some y) :
    ∃ l s', s.step m l = some s' ∧ counts m s' = y := by
  cases b with
  | take again w => exact exists_pop hm hbound h
  | put again w =>
    obtain ⟨z, htake, rfl⟩ := Option.map_eq_some_iff.1 h
    obtain ⟨l, s', hstep, rfl⟩ := exists_push hm htake
    exact ⟨l, s', hstep, rfl⟩

/-! ## Stalls -/

omit [DecidableEq P] [DecidableEq C] in
/-- A stall is one of the numbers. -/
theorem noStall_counts (hbound : s.queue.length ≤ m) :
    BoundedBuffer.NoStall (counts m s) ↔ NoStall m s := by
  have hfull : m - s.queue.length = 0 ↔ m ≤ s.queue.length := by omega
  unfold BoundedBuffer.NoStall NoStall
  simp only [counts, woken_eq_zero, waiting_pos, List.length_eq_zero_iff, hfull]
  constructor
  · intro h hproducers hconsumers
    obtain ⟨htake, hput, hboth⟩ := h hconsumers hproducers
    exact ⟨fun j hj => htake ⟨j, hj⟩, fun i hi => hput ⟨i, hi⟩, fun ⟨hi, hj⟩ => hboth ⟨hj, hi⟩⟩
  · intro h hconsumers hproducers
    obtain ⟨htake, hput, hboth⟩ := h hproducers hconsumers
    exact ⟨fun ⟨j, hj⟩ => htake j hj, fun ⟨i, hi⟩ => hput i hi, fun ⟨hj, hi⟩ => hboth ⟨hi, hj⟩⟩

/-- A queue with a maximum size does not stall, whatever the interleaving, exactly if there are no
producers or no consumers, if there are at most as many of each as the maximum size, or if there is
one of one kind and there are less than twice as many of the other as the maximum size. -/
theorem queue_does_not_stall_iff [Inhabited T] (m : Nat) (hm : 1 ≤ m) :
    (∀ (ls : List (QueueLabel T P C)) (s : BlockingQueue T P C),
        run (step m) new ls = some s → NoStall m s) ↔
      Fintype.card P = 0 ∨ Fintype.card C = 0 ∨
      Fintype.card P ≤ m ∧ Fintype.card C ≤ m ∨
      Fintype.card P = 1 ∧ Fintype.card C < 2 * m ∨
      Fintype.card C = 1 ∧ Fintype.card P < 2 * m := by
  have hnew : counts m (new : BlockingQueue T P C) =
      empty m (Fintype.card C) (Fintype.card P) := by
    simp [counts, new, empty, group_outside]
  have hkeep : ∀ (s : BlockingQueue T P C) l s', s.queue.length ≤ m → s.step m l = some s' →
      s'.queue.length ≤ m := fun s l s' hbound hstep => step_bound hm hbound hstep
  have hinit : (new : BlockingQueue T P C).queue.length ≤ m := Nat.zero_le m
  rw [← noStall_iff hm, ← hnew]
  constructor
  · intro hall y hreach
    obtain ⟨s, ⟨ls, hrun⟩, rfl⟩ := hreach.lift (counts m) hkeep
      (fun s b y hbound hstep => exists_step hm hbound hstep) hinit
    have hbound := Reaches.invariant hkeep ⟨ls, hrun⟩ hinit
    exact (noStall_counts hbound).2 (hall ls s hrun)
  · intro hall ls s hrun
    have hreach : Reaches (step m) new s := ⟨ls, hrun⟩
    have hbound := hreach.invariant hkeep hinit
    refine (noStall_counts hbound).1 (hall _ (hreach.map (counts m) hkeep ?_ hinit))
    exact fun s l s' hbound hstep => step_counts hm hbound hstep

/-- Two producers and two consumers at a queue of size 2. -/
theorem queue_does_not_stall_two_of_each :
    Fintype.card (Fin 2) ≤ 2 ∧ ∀ (ls : List (QueueLabel Nat (Fin 2) (Fin 2)))
      (s : BlockingQueue Nat (Fin 2) (Fin 2)), run (step 2) new ls = some s → NoStall 2 s :=
  ⟨by decide, (queue_does_not_stall_iff 2 (by decide)).2 (by decide)⟩

/-- Two consumers wait at a queue of size 1.  The producer pushes 7, which wakes the first one, and
waits to push 8.  The first consumer pops 7 and wakes the second, which finds the queue empty. -/
theorem queue_stalls :
    ∃ s : BlockingQueue Nat Unit Bool,
      run (step 1) new [.callPop false none, .callPop true none,
        .callPush () 7 (some (.inr false)), .callPush () 8 none,
        .resumePop false (some (.inr true)), .resumePop true none] = some s ∧
      s.queue = [] ∧ s.producers () = .waiting 8 ∧ s.consumers true = .waiting () ∧
      ¬ NoStall 1 s := by
  refine ⟨_, rfl, rfl, rfl, rfl, ?_⟩
  intro h
  have hfull := (h (fun _ => rfl) (Bool.forall_bool.2 ⟨rfl, rfl⟩)).2.1 () rfl
  exact absurd hfull (by decide)

end BlockingQueue

end Common
end CCraft
