import CCraft.Net.EventWorker

/-!
# No event reaches a deleted handler

The driver reports events of the handlers that it has registered, and users post events
of handlers that they hold a reference to.  Between the fetch of an event and its
processing the handler may lose its last reference and may be waiting for its deletion,
but the worker processes no event of a handler that it has already deleted.

The argument follows one handler {lit}`h`.  Once its deletion is requested nobody posts an
event for it, so the external queue that is drained after the deletions were fetched holds
the last of its events, and these are skipped.

Main results:

- Theorem {lit}`workerStep_eventInv`: every step keeps the invariant for {lit}`h`.
- Theorem {lit}`never_processes_deleted`: no reachable state is about to process an event
  of a deleted handler.
-/

namespace CCraft
namespace Net

open Runs

/-! ## What is processed next -/

/-- The event that the next step of the worker passes to `process_event`. -/
def EventWorker.processing (s : EventWorker) : Option NetEvent :=
  match s.pc with
  | .internal (e :: _) => if e.eh ∉ s.pendingDelete then some e else none
  | .external (e :: _) => if e.eh ∉ s.pendingDelete then some e else none
  | _ => none

/-- The worker is not about to process an event of {lit}`h` after deleting it. -/
def NotStale (h : Nat) (s : EventWorker) : Prop :=
  ∀ e, s.processing = some e → e.eh = h → h ∉ s.deleted

/-- The driver reports registered handlers only, and when the deletion of {lit}`h` is
requested every addition of it has been applied. -/
def RegisteredFirst (h : Nat) (s : EventWorker) : WorkerLabel → Prop
  | .work events =>
    match s.pc with
    | .waiting => ∀ e ∈ events, e.eh ∈ s.driver
    | _ => True
  | .delEvent x =>
    x = h → (∀ ev ∈ s.addEpExtEvents, ev.socketEventHandler ≠ h) ∧
      match s.pc with
      | .add todo => ∀ ev ∈ todo, ev.socketEventHandler ≠ h
      | _ => True
  | _ => True

/-! ## The invariant of one handler -/

/-- The events that the loop has fetched and not yet passed by. -/
def LoopPc.events : LoopPc → List NetEvent
  | .fetchDeletions events => events
  | .unregister events _ => events
  | .internal events => events
  | .external events => events
  | _ => []

/-- The additions that the loop has fetched and not yet applied. -/
def LoopPc.additions : LoopPc → List EpollAddEvent
  | .add todo => todo
  | _ => []

theorem registeredFirst_work {h : Nat} {s : EventWorker} {events : List NetEvent} :
    RegisteredFirst h s (.work events) ↔ (s.pc = .waiting → ∀ e ∈ events, e.eh ∈ s.driver) := by
  cases hpc : s.pc <;> simp [RegisteredFirst, hpc]

theorem registeredFirst_delEvent {h x : Nat} {s : EventWorker} :
    RegisteredFirst h s (.delEvent x) ↔
      (x = h → (∀ ev ∈ s.addEpExtEvents, ev.socketEventHandler ≠ h) ∧
        ∀ ev ∈ s.pc.additions, ev.socketEventHandler ≠ h) := by
  cases hpc : s.pc <;> simp [RegisteredFirst, LoopPc.additions, hpc]

instance (h : Nat) (s : EventWorker) (a : WorkerLabel) : Decidable (RegisteredFirst h s a) :=
  match a with
  | .work _ => decidable_of_iff _ registeredFirst_work.symm
  | .delEvent _ => decidable_of_iff _ registeredFirst_delEvent.symm
  | .addEvent _ | .rwOpEvent _ | .requestStop => isTrue trivial

/-- The loop may still have to take {lit}`h`, which is going to be deleted, out of the
driver. -/
def LoopPc.MayUnregister (h : Nat) : LoopPc → Prop
  | .unregister _ todo => h ∈ todo
  | .internal _ => False
  | .external _ => False
  | .delete _ => False
  | _ => True

/-- The external queue has been drained after the deletions were fetched. -/
def LoopPc.Drained : LoopPc → Prop
  | .external _ => True
  | .delete _ => True
  | _ => False

/-- The invariant of the handler {lit}`h`. -/
structure EventInv (h : Nat) (s : EventWorker) : Prop where
  released_of_del : h ∈ s.delEpExtEvents → h ∈ s.released
  released_of_pending : h ∈ s.pendingDelete → h ∈ s.released
  released_of_deleted : h ∈ s.deleted → h ∈ s.released
  queue : h ∈ s.released → ∀ ev ∈ s.addEpExtEvents, ev.socketEventHandler ≠ h
  additions : h ∈ s.released → ∀ ev ∈ s.pc.additions, ev.socketEventHandler ≠ h
  driver_deleted : h ∈ s.deleted → h ∉ s.driver
  driver_pending : h ∈ s.pendingDelete → h ∈ s.driver → s.pc.MayUnregister h
  todo : ∀ todo, s.pc = .delete todo → h ∈ todo → h ∈ s.pendingDelete
  fetched : h ∈ s.deleted → ∀ e ∈ s.pc.events, e.eh ≠ h
  posted : h ∈ s.deleted → ∀ e ∈ s.rwOpExtEvents, e.eh ≠ h
  posted_pending : s.pc.Drained → h ∈ s.pendingDelete → ∀ e ∈ s.rwOpExtEvents, e.eh ≠ h

section Step

variable {h : Nat} {s s' : EventWorker} {a : WorkerLabel}

theorem new_eventInv (h : Nat) : EventInv h EventWorker.new := by
  constructor <;> simp [EventWorker.new, LoopPc.additions, LoopPc.events]

theorem EventInv.notStale (hinv : EventInv h s) : NotStale h s := by
  intro e hnext heq hdel
  refine hinv.fetched hdel e ?_ heq
  unfold EventWorker.processing at hnext
  split at hnext
  case h_3 => cases hnext
  all_goals
    rename_i hpc
    obtain ⟨-, ⟨⟩⟩ := Option.ite_none_right_eq_some.1 hnext
    simp [hpc, LoopPc.events]

/-- The loop moves to a place where nothing is to be added. -/
theorem EventInv.moved {pc : LoopPc} {processed : List NetEvent} (hinv : EventInv h s)
    (hadditions : pc.additions = [])
    (hdriver : h ∈ s.pendingDelete → h ∈ s.driver → pc.MayUnregister h)
    (htodo : ∀ todo, pc = .delete todo → h ∈ todo → h ∈ s.pendingDelete)
    (hfetched : h ∈ s.deleted → ∀ e ∈ pc.events, e.eh ≠ h)
    (hposted : pc.Drained → h ∈ s.pendingDelete → ∀ e ∈ s.rwOpExtEvents, e.eh ≠ h) :
    EventInv h { s with pc := pc, processed := processed } :=
  { hinv with
    additions := by simp [hadditions]
    driver_pending := hdriver
    todo := htodo
    fetched := hfetched
    posted_pending := hposted }

/-- The loop waits again, or has stopped. -/
theorem EventInv.rests {pc : LoopPc} (hinv : EventInv h s) (hpc : pc = .waiting ∨ pc = .stopped) :
    EventInv h { s with pc := pc } := by
  rcases hpc with rfl | rfl <;>
    exact hinv.moved rfl (fun _ _ => trivial) (by simp) (by simp [LoopPc.events]) False.elim

/-- The deletions are fetched. -/
theorem EventInv.fetchDeletions {events : List NetEvent} (hinv : EventInv h s)
    (hpc : s.pc = .fetchDeletions events) :
    EventInv h { s with
      delEpExtEvents := ∅
      pendingDelete := s.delEpExtEvents
      pc := .unregister events (s.delEpExtEvents.sort (· ≤ ·)) } := by
  have hfetched := hinv.fetched
  rw [hpc] at hfetched
  exact { hinv with
    released_of_del := by simp
    released_of_pending := hinv.released_of_del
    additions := by simp [LoopPc.additions]
    driver_pending := fun hpending _ => by simpa [LoopPc.MayUnregister] using hpending
    todo := by simp
    fetched := hfetched
    posted_pending := False.elim }

/-- A handler that is going to be deleted is taken out of the driver. -/
theorem EventInv.unregister {events : List NetEvent} {de : Nat} {todo : List Nat}
    (hinv : EventInv h s) (hpc : s.pc = .unregister events (de :: todo)) :
    EventInv h { s with driver := s.driver.erase de, pc := .unregister events todo } := by
  have hdriver := hinv.driver_pending
  have hfetched := hinv.fetched
  rw [hpc] at hdriver hfetched
  refine { hinv with
    additions := by simp [LoopPc.additions]
    driver_deleted := fun hdel hin => hinv.driver_deleted hdel (Finset.mem_of_mem_erase hin)
    driver_pending := ?_
    todo := by simp
    fetched := hfetched
    posted_pending := False.elim }
  intro hpending hin
  have hne : h ≠ de := Finset.ne_of_mem_erase hin
  have hmem := hdriver hpending (Finset.mem_of_mem_erase hin)
  exact (List.mem_cons.1 hmem).resolve_left hne

/-- A handler is deleted. -/
theorem EventInv.delete {de : Nat} {todo : List Nat} (hinv : EventInv h s)
    (hpc : s.pc = .delete (de :: todo)) :
    EventInv h { s with deleted := insert de s.deleted, pc := .delete todo } := by
  have hdriver := hinv.driver_pending
  have hposted := hinv.posted_pending
  rw [hpc] at hdriver hposted
  have hpending : h = de → h ∈ s.pendingDelete := fun heq =>
    hinv.todo _ hpc (heq ▸ List.mem_cons_self)
  refine { hinv with
    released_of_deleted := ?_
    additions := by simp [LoopPc.additions]
    driver_deleted := ?_
    driver_pending := hdriver
    todo := ?_
    fetched := by simp [LoopPc.events]
    posted := ?_
    posted_pending := hposted }
  · intro hdel
    rcases Finset.mem_insert.1 hdel with heq | hold
    · exact hinv.released_of_pending (hpending heq)
    · exact hinv.released_of_deleted hold
  · intro hdel
    rcases Finset.mem_insert.1 hdel with heq | hold
    · exact hdriver (hpending heq)
    · exact hinv.driver_deleted hold
  · intro todo' htodo' hmem
    cases htodo'
    exact hinv.todo _ hpc (List.mem_cons_of_mem de hmem)
  · intro hdel
    rcases Finset.mem_insert.1 hdel with heq | hold
    · exact hposted trivial (hpending heq)
    · exact hinv.posted hold

/-- A handler is added to the driver. -/
theorem EventInv.add {ev : EpollAddEvent} {todo : List EpollAddEvent} {readded : List Nat}
    (hinv : EventInv h s) (hpc : s.pc = .add (ev :: todo)) :
    EventInv h { s with
      driver := insert ev.socketEventHandler s.driver
      readded := readded
      pc := .add todo } := by
  have hadditions := hinv.additions
  rw [hpc] at hadditions
  refine { hinv with
    additions := fun hrel x hx => hadditions hrel x (List.mem_cons_of_mem ev hx)
    driver_deleted := ?_
    driver_pending := fun _ _ => trivial
    todo := by simp
    fetched := by simp [LoopPc.events]
    posted_pending := False.elim }
  intro hdel hin
  rcases Finset.mem_insert.1 hin with heq | hold
  · exact hadditions (hinv.released_of_deleted hdel) ev List.mem_cons_self heq.symm
  · exact hinv.driver_deleted hdel hold

/-- The steps of the worker keep the invariant. -/
theorem work_eventInv {events : List NetEvent} (hinv : EventInv h s)
    (ha : RegisteredFirst h s (.work events)) (hstep : s.work events = some s') :
    EventInv h s' := by
  have hdriver := hinv.driver_pending
  have hfetched := hinv.fetched
  have hposted := hinv.posted_pending
  unfold EventWorker.work at hstep
  split at hstep
  case h_1 hpc =>
    have hreported := registeredFirst_work.1 ha hpc
    split_ifs at hstep <;> cases hstep
    · exact hinv.rests (.inr rfl)
    · refine hinv.moved rfl (fun _ _ => trivial) (by simp) ?_ False.elim
      exact fun hdel e he heq => hinv.driver_deleted hdel (heq ▸ hreported e he)
  case h_2 evs hpc =>
    split_ifs at hstep <;> cases hstep
    · exact hinv.rests (.inr rfl)
    · exact hinv.fetchDeletions hpc
  case h_3 evs de todo hpc =>
    cases hstep
    exact hinv.unregister hpc
  case h_4 evs hpc =>
    rw [hpc] at hdriver hfetched
    cases hstep
    refine hinv.moved rfl ?_ (by simp) hfetched False.elim
    exact fun hpending hin => absurd (hdriver hpending hin) List.not_mem_nil
  case h_5 e evs hpc =>
    rw [hpc] at hdriver hfetched
    cases hstep
    refine hinv.moved rfl hdriver (by simp) ?_ False.elim
    exact fun hdel x hx => hfetched hdel x (List.mem_cons_of_mem e hx)
  case h_6 hpc =>
    rw [hpc] at hdriver
    cases hstep
    exact { hinv with
      additions := by simp [LoopPc.additions]
      driver_pending := hdriver
      todo := by simp
      fetched := hinv.posted
      posted := by simp
      posted_pending := by simp }
  case h_7 e evs hpc =>
    rw [hpc] at hdriver hfetched hposted
    cases hstep
    refine hinv.moved rfl hdriver (by simp) ?_ hposted
    exact fun hdel x hx => hfetched hdel x (List.mem_cons_of_mem e hx)
  case h_8 hpc =>
    rw [hpc] at hdriver hposted
    cases hstep
    refine hinv.moved rfl hdriver ?_ (by simp [LoopPc.events]) hposted
    intro todo htodo hmem
    cases htodo
    simpa using hmem
  case h_9 de todo hpc =>
    cases hstep
    exact hinv.delete hpc
  case h_10 hpc =>
    cases hstep
    exact { hinv with
      released_of_pending := by simp
      queue := by simp
      additions := hinv.queue
      driver_pending := by simp
      todo := by simp
      fetched := by simp [LoopPc.events]
      posted_pending := False.elim }
  case h_11 ev todo hpc =>
    cases hstep
    exact hinv.add hpc
  case h_12 hpc =>
    cases hstep
    exact hinv.rests (.inl rfl)
  case h_13 => cases hstep

/-- Every step keeps the invariant of {lit}`h`. -/
theorem workerStep_eventInv (hinv : EventInv h s) (ha : RegisteredFirst h s a)
    (hstep : workerStep s a = some s') : EventInv h s' := by
  cases a with
  | addEvent ev =>
    obtain ⟨hheld, ⟨⟩⟩ := Option.ite_none_right_eq_some.1 hstep
    refine { hinv with queue := fun hrel => List.forall_mem_append.2 ⟨hinv.queue hrel, ?_⟩ }
    exact List.forall_mem_singleton.2 fun heq => hheld (heq ▸ hrel)
  | delEvent x =>
    have happlied := registeredFirst_delEvent.1 ha
    obtain ⟨_, ⟨⟩⟩ := Option.ite_none_right_eq_some.1 hstep
    refine { hinv with
      released_of_del := ?_
      released_of_pending := fun hin => Finset.mem_insert_of_mem (hinv.released_of_pending hin)
      released_of_deleted := fun hin => Finset.mem_insert_of_mem (hinv.released_of_deleted hin)
      queue := ?_
      additions := ?_ }
    · intro hin
      rcases Finset.mem_insert.1 hin with heq | hold
      · exact heq ▸ Finset.mem_insert_self _ _
      · exact Finset.mem_insert_of_mem (hinv.released_of_del hold)
    · intro hin
      rcases Finset.mem_insert.1 hin with heq | hold
      · exact (happlied heq.symm).1
      · exact hinv.queue hold
    · intro hin
      rcases Finset.mem_insert.1 hin with heq | hold
      · exact (happlied heq.symm).2
      · exact hinv.additions hold
  | rwOpEvent e =>
    obtain ⟨hheld, ⟨⟩⟩ := Option.ite_none_right_eq_some.1 hstep
    have hne : h ∈ s.released → e.eh ≠ h := fun hrel heq => hheld (heq ▸ hrel)
    refine { hinv with
      posted := fun hdel => List.forall_mem_append.2 ⟨hinv.posted hdel, ?_⟩
      posted_pending := fun hdrained hpending =>
        List.forall_mem_append.2 ⟨hinv.posted_pending hdrained hpending, ?_⟩ }
    · exact List.forall_mem_singleton.2 (hne (hinv.released_of_deleted hdel))
    · exact List.forall_mem_singleton.2 (hne (hinv.released_of_pending hpending))
  | requestStop =>
    cases hstep
    exact { hinv with }
  | work events => exact work_eventInv hinv ha hstep

end Step

/-! ## Whole runs -/

/-- Whatever the users do and whichever registered handlers the driver reports: no event
of a handler whose additions were applied before its deletion was requested is processed
after the handler was deleted. -/
theorem never_processes_deleted (h : Nat) (labels : List WorkerLabel)
    (hfirst : Guarded workerStep (RegisteredFirst h) EventWorker.new labels) :
    Always workerStep (NotStale h) EventWorker.new labels := by
  have halways : Always workerStep (EventInv h) EventWorker.new labels :=
    always_of_guarded (fun s a s' hs ha hstep => workerStep_eventInv hs ha hstep)
      (new_eventInv h) hfirst
  exact halways.mono fun s hs => hs.notStale

/-- A handler is registered, reported by the driver and written to while its deletion is
requested: the worker skips its events and deletes it. -/
theorem never_processes_deleted_busy :
    let ev : EpollAddEvent := ⟨4, 0, 3⟩
    let labels : List WorkerLabel :=
      [.addEvent ev] ++ List.replicate 8 (.work []) ++
        [.work [⟨4, 1⟩], .rwOpEvent ⟨4, 2⟩, .delEvent 4] ++ List.replicate 9 (.work [])
    (run workerStep EventWorker.new labels).map (fun s => (s.deleted, s.processed)) =
        some ({4}, []) ∧
      Always workerStep (NotStale 4) EventWorker.new labels := by
  refine ⟨by decide +kernel, ?_⟩
  exact never_processes_deleted 4 _ (by decide +kernel)

end Net
end CCraft
