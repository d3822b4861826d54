import CCraft.Lib.Run
import Mathlib.Data.Finset.Sort

/-!
# The loop of an event worker

User threads put additions and deletions of event handlers into two queues of an
`EventWorker`.  `worker_loop` fetches the deletions, processes events, deletes the
handlers and only then fetches the additions, so a handler whose addition is still
queued when its deletion is fetched is deleted first and added afterwards.

The worker takes one small step at a time; between any two of them user threads may
add, delete or post events.

Main results:

- Theorem {lit}`workerStep_inv`: as long as that does not happen, no deleted handler is
  in the addition queue or among the additions that were fetched.
- Theorem {lit}`deleted_never_added`: then no deleted handler is ever added; every other
  run has a beginning that the worker, left alone, takes to such an addition.
-/

namespace CCraft
namespace Net

/-! ## Queues and the loop -/

/-- `NetEvent`: a handler and the mask of the event. -/
structure NetEvent where
  eh : Nat
  mask : Nat
deriving DecidableEq, Repr

/-- `EpollAddEvent`. -/
structure EpollAddEvent where
  socketEventHandler : Nat
  curMask : Nat
  mask : Nat
deriving DecidableEq, Repr

/-- Where `worker_loop` stands, with what is left of the list it walks through. -/
inductive LoopPc where
  | waiting
  | fetchDeletions (events : List NetEvent)
  | unregister (events : List NetEvent) (todo : List Nat)
  | internal (events : List NetEvent)
  | external (events : List NetEvent)
  | delete (todo : List Nat)
  | add (todo : List EpollAddEvent)
  | stopped
deriving DecidableEq, Repr

/-- An event worker with its loop: the three queues, the handlers that the driver has
registered, the local state of the loop, and, for the record, the handlers that were
ever added and those that have lost their last reference, the events processed, the
handlers deleted so far and those that were added after that. -/
structure EventWorker where
  rwOpExtEvents : List NetEvent
  addEpExtEvents : List EpollAddEvent
  delEpExtEvents : Finset Nat
  driver : Finset Nat
  stop : Bool
  pc : LoopPc
  pendingDelete : Finset Nat
  known : Finset Nat
  released : Finset Nat
  processed : List NetEvent
  deleted : Finset Nat
  readded : List Nat

def EventWorker.new : EventWorker :=
  ⟨[], [], ∅, ∅, false, .waiting, ∅, ∅, ∅, [], ∅, []⟩

/-- One step of `worker_loop`; `events` is what the driver returns when the worker is
waiting. -/
def EventWorker.work (s : EventWorker) (events : List NetEvent) : Option EventWorker :=
  match s.pc with
  | .waiting =>
    if s.stop then some { s with pc := .stopped }
    else some { s with pc := .fetchDeletions events }
  | .fetchDeletions events =>
    if s.stop then some { s with pc := .stopped }
    else
      some { s with
        delEpExtEvents := ∅
        pendingDelete := s.delEpExtEvents
        pc := .unregister events (s.delEpExtEvents.sort (· ≤ ·)) }
  | .unregister events (de :: todo) =>
    some { s with driver := s.driver.erase de, pc := .unregister events todo }
  | .unregister events [] => some { s with pc := .internal events }
  | .internal (e :: events) =>
    some { s with
      processed := if e.eh ∉ s.pendingDelete then s.processed ++ [e] else s.processed
      pc := .internal events }
  | .internal [] => some { s with rwOpExtEvents := [], pc := .external s.rwOpExtEvents }
  | .external (e :: events) =>
    some { s with
      processed := if e.eh ∉ s.pendingDelete then s.processed ++ [e] else s.processed
      pc := .external events }
  | .external [] => some { s with pc := .delete (s.pendingDelete.sort (· ≤ ·)) }
  | .delete (de :: todo) =>
    some { s with deleted := insert de s.deleted, pc := .delete todo }
  | .delete [] =>
    some { s with
      pendingDelete := ∅
      addEpExtEvents := []
      pc := .add s.addEpExtEvents }
  | .add (ev :: todo) =>
    -- a call with a deleted handler is on the record; what the driver makes of it is left out
    some { s with
      driver := insert ev.socketEventHandler s.driver
      readded :=
        if ev.socketEventHandler ∈ s.deleted then s.readded ++ [ev.socketEventHandler]
        else s.readded
      pc := .add todo }
  | .add [] => some { s with pc := .waiting }
  | .stopped => none

/-- The steps of the users and of the worker. -/
inductive WorkerLabel where
  | addEvent (ev : EpollAddEvent)
  | delEvent (h : Nat)
  | rwOpEvent (e : NetEvent)
  | requestStop
  | work (events : List NetEvent)

/-- A user adds a handler that it holds a reference to.  A handler that was added may
lose its last reference, once, and is then put into the deletion queue. -/
def workerStep (s : EventWorker) : WorkerLabel → Option EventWorker
  | .addEvent ev =>
    if ev.socketEventHandler ∉ s.released then
      some { s with
        addEpExtEvents := s.addEpExtEvents ++ [ev]
        known := insert ev.socketEventHandler s.known }
    else none
  | .delEvent h =>
    if h ∈ s.known ∧ h ∉ s.released then
      some { s with
        delEpExtEvents := insert h s.delEpExtEvents
        released := insert h s.released }
    else none
  | .rwOpEvent e =>
    if e.eh ∉ s.released then some { s with rwOpExtEvents := s.rwOpExtEvents ++ [e] } else none
  | .requestStop => some { s with stop := true }
  | .work events => s.work events

/-! ## No deleted handler is added -/

/-- The worker has added no handler after deleting it. -/
def NeverReadded (s : EventWorker) : Prop :=
  s.readded = []

/-- When the worker fetches the deletions, no handler in the deletion queue is still in
the addition queue. -/
def AdditionsFirst (s : EventWorker) : WorkerLabel → Prop
  | .work _ =>
    match s.pc with
    | .fetchDeletions _ =>
      s.stop = false → ∀ ev ∈ s.addEpExtEvents, ev.socketEventHandler ∉ s.delEpExtEvents
    | _ => True
  | _ => True

instance (s : EventWorker) (a : WorkerLabel) : Decidable (AdditionsFirst s a) := by
  unfold AdditionsFirst
  split
  · split <;> infer_instance
  · infer_instance

/-- The invariant: handlers on their way out have lost their last reference, their
additions are not queued any more, and no deleted handler is about to be added. -/
structure WorkerInv (s : EventWorker) : Prop where
  del_released : s.delEpExtEvents ⊆ s.released
  pending_released : s.pendingDelete ⊆ s.released
  deleted_released : s.deleted ⊆ s.released
  todo_pending : ∀ todo, s.pc = .delete todo → ∀ h ∈ todo, h ∈ s.pendingDelete
  queue_pending : ∀ ev ∈ s.addEpExtEvents, ev.socketEventHandler ∉ s.pendingDelete
  queue_deleted : ∀ ev ∈ s.addEpExtEvents, ev.socketEventHandler ∉ s.deleted
  adding : ∀ todo, s.pc = .add todo → ∀ ev ∈ todo, ev.socketEventHandler ∉ s.deleted
  readded : s.readded = []

section Runs

open Runs

variable {s s' : EventWorker} {a : WorkerLabel}

theorem new_workerInv : WorkerInv EventWorker.new := by
  constructor <;> simp [EventWorker.new]

/-- The steps of the worker keep the invariant, if the additions of the handlers that it
is going to delete are not queued any more. -/
theorem work_inv {events : List NetEvent} (h : WorkerInv s)
    (ha : AdditionsFirst s (.work events)) (hstep : s.work events = some s') : WorkerInv s' := by
  unfold EventWorker.work at hstep
  split at hstep
  case h_1 hpc =>
    split_ifs at hstep <;> cases hstep <;>
      exact { h with todo_pending := by simp, adding := by simp }
  case h_2 evs hpc =>
    split_ifs at hstep with hstop
    · cases hstep
      exact { h with todo_pending := by simp, adding := by simp }
    · cases hstep
      simp only [AdditionsFirst, hpc] at ha
      have hfirst := ha (by simpa using hstop)
      exact { h with
        del_released := by simp
        pending_released := h.del_released
        todo_pending := by simp
        queue_pending := hfirst
        adding := by simp }
  case h_9 de todo hpc =>
    cases hstep
    have hde : de ∈ s.pendingDelete := h.todo_pending _ hpc de (by simp)
    refine { h with
      deleted_released := ?_
      todo_pending := ?_
      queue_deleted := ?_
      adding := by simp }
    · exact Finset.insert_subset (h.pending_released hde) h.deleted_released
    · intro todo' htodo' x hx
      cases htodo'
      exact h.todo_pending _ hpc x (by simp [hx])
    · intro ev hev
      rw [Finset.mem_insert, not_or]
      exact ⟨fun heq => h.queue_pending ev hev (heq ▸ hde), h.queue_deleted ev hev⟩
  case h_10 hpc =>
    cases hstep
    exact { h with
      pending_released := by simp
      todo_pending := by simp
      queue_pending := by simp
      queue_deleted := by simp
      adding := fun todo htodo => by cases htodo; exact h.queue_deleted }
  case h_11 ev todo hpc =>
    cases hstep
    have hev := h.adding _ hpc ev (by simp)
    refine { h with todo_pending := by simp, adding := ?_, readded := ?_ }
    · intro todo' htodo' x hx
      cases htodo'
      exact h.adding _ hpc x (by simp [hx])
    · simp only [hev, if_false]
      exact h.readded
  case h_8 hpc =>
    cases hstep
    exact { h with
      todo_pending := fun todo htodo x hx => by cases htodo; simpa using hx
      adding := by simp }
  -- The other steps touch neither the queues nor what is going to be deleted or added.
  all_goals
    cases hstep <;> exact { h with todo_pending := by simp, adding := by simp }

/-- Every step whose additions come first keeps the invariant. -/
theorem workerStep_inv (h : WorkerInv s) (ha : AdditionsFirst s a)
    (hstep : workerStep s a = some s') : WorkerInv s' := by
  cases a with
  | addEvent ev =>
    obtain ⟨hheld, ⟨⟩⟩ := Option.ite_none_right_eq_some.1 hstep
    refine { h with
      queue_pending := List.forall_mem_append.2 ⟨h.queue_pending, ?_⟩
      queue_deleted := List.forall_mem_append.2 ⟨h.queue_deleted, ?_⟩ }
    · exact List.forall_mem_singleton.2 fun hin => hheld (h.pending_released hin)
    · exact List.forall_mem_singleton.2 fun hin => hheld (h.deleted_released hin)
  | delEvent x =>
    obtain ⟨_, ⟨⟩⟩ := Option.ite_none_right_eq_some.1 hstep
    have hsub := Finset.subset_insert x s.released
    exact { h with
      del_released := Finset.insert_subset_insert x h.del_released
      pending_released := h.pending_released.trans hsub
      deleted_released := h.deleted_released.trans hsub }
  | rwOpEvent e =>
    obtain ⟨_, ⟨⟩⟩ := Option.ite_none_right_eq_some.1 hstep
    exact { h with }
  | requestStop =>
    cases hstep
    exact { h with }
  | work events => exact work_inv h ha hstep

/-! ## A deletion that overtakes its addition -/

/-- The worker, perhaps after other steps, adds a handler that it has deleted. -/
def LeadsToReadded (s : EventWorker) : Prop :=
  ∃ more u, run workerStep s more = some u ∧ ¬ NeverReadded u

theorem leads_of_readded (hbad : s.readded ≠ []) : LeadsToReadded s :=
  ⟨[], s, rfl, hbad⟩

theorem leads_of_work (h : ∃ t, s.work [] = some t ∧ LeadsToReadded t) : LeadsToReadded s := by
  obtain ⟨t, hstep, more, u, hrun, hbad⟩ := h
  refine ⟨.work [] :: more, u, ?_, hbad⟩
  rw [run_cons_eq_some]
  exact ⟨t, hstep, hrun⟩

/-- The loop over the additions reaches one of a deleted handler. -/
theorem leads_of_add (todo : List EpollAddEvent) {ev : EpollAddEvent} :
    ∀ {s : EventWorker}, s.pc = .add todo → ev ∈ todo → ev.socketEventHandler ∈ s.deleted →
      LeadsToReadded s := by
  induction todo with
  | nil => simp
  | cons first todo ih =>
    intro s hpc hmem hdel
    refine leads_of_work ⟨_, by simp only [EventWorker.work, hpc]; rfl, ?_⟩
    rcases List.mem_cons.1 hmem with rfl | htail
    · exact leads_of_readded (by simp [hdel])
    · exact ih rfl htail hdel

/-- The handlers that are being deleted have an addition in the queue. -/
theorem leads_of_delete (todo : List Nat) {ev : EpollAddEvent} :
    ∀ {s : EventWorker}, s.pc = .delete todo → ev ∈ s.addEpExtEvents →
      ev.socketEventHandler ∈ todo ∨ ev.socketEventHandler ∈ s.deleted → LeadsToReadded s := by
  induction todo with
  | nil =>
    intro s hpc hev hdel
    refine leads_of_work ⟨_, by simp only [EventWorker.work, hpc]; rfl, ?_⟩
    exact leads_of_add _ rfl hev (by simpa using hdel)
  | cons first todo ih =>
    intro s hpc hev hdel
    refine leads_of_work ⟨_, by simp only [EventWorker.work, hpc]; rfl, ?_⟩
    refine ih rfl hev ?_
    simp only [List.mem_cons, Finset.mem_insert] at hdel ⊢
    tauto

/-- A handler that is about to be deleted has an addition in the queue. -/
def Overtaken (s : EventWorker) (ev : EpollAddEvent) : Prop :=
  ev ∈ s.addEpExtEvents ∧ ev.socketEventHandler ∈ s.pendingDelete

/-- A loop over a list that leaves the two queues alone hands an overtaken addition on to
what follows it. -/
theorem leads_of_walk {β : Type} {pc : List β → LoopPc} {ev : EpollAddEvent}
    (hround : ∀ {s : EventWorker} {x : β} {xs : List β}, s.pc = pc (x :: xs) →
      Overtaken s ev → ∃ t, s.work [] = some t ∧ t.pc = pc xs ∧ Overtaken t ev)
    (hend : ∀ {s : EventWorker}, s.pc = pc [] → Overtaken s ev → LeadsToReadded s)
    (todo : List β) : ∀ {s : EventWorker}, s.pc = pc todo → Overtaken s ev → LeadsToReadded s := by
  induction todo with
  | nil =>
    intro s hpc hover
    exact hend hpc hover
  | cons x todo ih =>
    intro s hpc hover
    obtain ⟨t, hwork, htodo, hover'⟩ := hround hpc hover
    exact leads_of_work ⟨t, hwork, ih htodo hover'⟩

theorem leads_of_external (events : List NetEvent) {ev : EpollAddEvent} :
    ∀ {s : EventWorker}, s.pc = .external events → Overtaken s ev → LeadsToReadded s := by
  refine leads_of_walk ?_ ?_ events
  · intro s e events hpc hover
    refine ⟨_, by simp only [EventWorker.work, hpc]; rfl, ?_⟩
    exact ⟨rfl, hover⟩
  · intro s hpc hover
    refine leads_of_work ⟨_, by simp only [EventWorker.work, hpc]; rfl, ?_⟩
    exact leads_of_delete _ rfl hover.1 (Or.inl (by simpa using hover.2))

theorem leads_of_internal (events : List NetEvent) {ev : EpollAddEvent} :
    ∀ {s : EventWorker}, s.pc = .internal events → Overtaken s ev → LeadsToReadded s := by
  refine leads_of_walk ?_ ?_ events
  · intro s e events hpc hover
    refine ⟨_, by simp only [EventWorker.work, hpc]; rfl, ?_⟩
    exact ⟨rfl, hover⟩
  · intro s hpc hover
    refine leads_of_work ⟨_, by simp only [EventWorker.work, hpc]; rfl, ?_⟩
    exact leads_of_external _ rfl hover

theorem leads_of_unregister (events : List NetEvent) (todo : List Nat) {ev : EpollAddEvent} :
    ∀ {s : EventWorker}, s.pc = .unregister events todo → Overtaken s ev → LeadsToReadded s := by
  refine leads_of_walk ?_ ?_ todo
  · intro s de todo hpc hover
    refine ⟨_, by simp only [EventWorker.work, hpc]; rfl, ?_⟩
    exact ⟨rfl, hover⟩
  · intro s hpc hover
    refine leads_of_work ⟨_, by simp only [EventWorker.work, hpc]; rfl, ?_⟩
    exact leads_of_internal _ rfl hover

/-- Once a deletion is fetched before its addition, the worker alone goes on to add the
handler that it deletes. -/
theorem workerStep_overtaken (ha : ¬ AdditionsFirst s a) (hstep : workerStep s a = some s') :
    LeadsToReadded s' := by
  cases a with
  | work events =>
    simp only [AdditionsFirst] at ha
    split at ha
    case h_2 => exact absurd trivial ha
    rename_i evs hpc
    simp only [not_forall, not_not] at ha
    obtain ⟨hstop, ev, hev, hdel⟩ := ha
    simp only [workerStep, EventWorker.work, hpc, hstop, Bool.false_eq_true, if_false] at hstep
    cases hstep
    exact leads_of_unregister _ _ rfl ⟨hev, hdel⟩
  | addEvent | delEvent | rwOpEvent | requestStop => exact absurd trivial ha

/-- In every run in which no deletion is fetched while an addition of its handler is
queued, the worker never adds a deleted handler.  Every other run has a beginning that
can be continued to such an addition. -/
theorem deleted_never_added (labels : List WorkerLabel) (t : EventWorker)
    (hrun : run workerStep EventWorker.new labels = some t) :
    (Guarded workerStep AdditionsFirst EventWorker.new labels →
      Always workerStep NeverReadded EventWorker.new labels) ∧
    (¬ Guarded workerStep AdditionsFirst EventWorker.new labels →
      ∃ labels' more u, labels' <+: labels ∧
        run workerStep EventWorker.new (labels' ++ more) = some u ∧ ¬ NeverReadded u) := by
  constructor
  · intro hguard
    have halways : Always workerStep WorkerInv EventWorker.new labels :=
      always_of_guarded (fun _ _ _ h ha hstep => workerStep_inv h ha hstep) new_workerInv hguard
    exact halways.mono fun _ h => h.readded
  · exact exists_violation (I := WorkerInv) (fun _ _ _ h ha hstep => workerStep_inv h ha hstep)
      (fun _ _ _ _ ha hstep => workerStep_overtaken ha hstep) new_workerInv hrun

/-- A handler is added, and deleted in a later iteration. -/
theorem deleted_never_added_later :
    Always workerStep NeverReadded EventWorker.new
      ([.addEvent ⟨1, 0, 1⟩] ++ List.replicate 8 (.work []) ++ [.delEvent 1] ++
        List.replicate 9 (.work [])) :=
  (deleted_never_added _ _ (Option.some_get (by decide +kernel)).symm).1 (by decide +kernel)

/-- A handler that is added and loses its last reference while the worker waits is
deleted first and added afterwards. -/
theorem deleted_handler_added :
    ∃ t, run workerStep EventWorker.new
        ([.work [], .addEvent ⟨1, 0, 1⟩, .delEvent 1] ++ List.replicate 9 (.work [])) = some t ∧
      1 ∈ t.deleted ∧ t.readded = [1] ∧ ¬ NeverReadded t := by
  obtain ⟨t, hrun, hdeleted, hreadded⟩ : ∃ t ∈ run workerStep EventWorker.new
      ([.work [], .addEvent ⟨1, 0, 1⟩, .delEvent 1] ++ List.replicate 9 (.work [])),
        1 ∈ t.deleted ∧ t.readded = [1] := by
    decide +kernel
  exact ⟨t, hrun, hdeleted, hreadded, by simp [NeverReadded, hreadded]⟩

end Runs

end Net
end CCraft
