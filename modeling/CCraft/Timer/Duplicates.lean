import CCraft.Timer.Table

/-!
# Duplicate subscriptions

One callback may be subscribed once at one time.  `SubscribeEventAt` looks for a
duplicate from the first event at that time on, and does not stop behind the last one.
It therefore also refuses an event whose callback is subscribed at a later time, provided
that some other event is subscribed at its own time.

Main results:

- Theorem {lit}`NodesInv.refuses_iff`: what is refused.
- Theorem {lit}`subscribes_once_iff`: a subscription is refused exactly as a duplicate, and
  otherwise added under an id of its own, unless its callback is subscribed at a later
  time while another one is subscribed at its time.
- Theorem {lit}`TimerInv.cancels_accepted`: when that id cancels the event again.
-/

namespace CCraft
namespace Timer

open Runs SearchTree

/-- An event with the same time and the same callback is subscribed. -/
def Duplicate (s : Tables) (when : CcTime) (callback : Nat) : Prop :=
  ∃ e ∈ s.subscribedEvents, e.when = when ∧ e.ev.callback = callback

/-- The event of the id is subscribed, and no other one has the id. -/
def Identifies (when : CcTime) (ev : Event) (eventId : EventId) (s : Tables) : Prop :=
  ∃ e ∈ s.subscribedEvents, e.when = when ∧ e.ev = ev ∧ e.id = eventId ∧
    ∀ x ∈ s.subscribedEvents, x.id = eventId → x = e

/-- `SubscribeEventAt` is refused, with an id whose time is zero and with the tables as they
were, exactly when the event is a duplicate; otherwise the event is added and its id identifies
it. -/
structure SubscribesOnce (s : Tables) (when : CcTime) (ev : Event) (tree : EntryTree) : Prop where
  refused_iff : ((s.subscribeEventAt when ev tree).1.when = ⟨0, 0⟩ ∧
    (s.subscribeEventAt when ev tree).2 = s) ↔ Duplicate s when ev.callback
  added : ¬ Duplicate s when ev.callback →
    (∃ e, (s.subscribeEventAt when ev tree).2.subscribedEvents.Perm (e :: s.subscribedEvents)) ∧
      Identifies when ev (s.subscribeEventAt when ev tree).1
        (s.subscribeEventAt when ev tree).2

/-- Another event is subscribed at the time, and the callback only at a later one. -/
def LaterOnly (s : Tables) (when : CcTime) (callback : Nat) : Prop :=
  ¬ Duplicate s when callback ∧ (∃ e ∈ s.subscribedEvents, e.when = when) ∧
    ∃ e ∈ s.subscribedEvents, when.lt e.when = true ∧ e.ev.callback = callback

section Subscribe

variable {s : Tables} {when : CcTime} {ev : Event} {e : TimerEvent} {tree : EntryTree}
  {callback : Nat}

/-- In the order of the times, the events that are left behind the earlier ones are those that
are not earlier. -/
theorem mem_dropWhile_iff {events : List TimerEvent}
    (h : events.Pairwise fun a b => b.when.lt a.when = false) :
    e ∈ events.dropWhile (fun x => x.when.lt when) ↔
      e ∈ events ∧ e.when.lt when = false := by
  induction events with
  | nil => simp
  | cons x events ih =>
    obtain ⟨hx, hrest⟩ := List.pairwise_cons.1 h
    cases hlt : x.when.lt when with
    | true =>
      rw [List.dropWhile_cons_of_pos (by simpa using hlt), ih hrest]
      have hne : e.when.lt when = false → e ≠ x := by
        rintro hnot rfl
        rw [hlt] at hnot
        cases hnot
      constructor
      · rintro ⟨hmem, hnot⟩
        exact ⟨List.mem_cons_of_mem x hmem, hnot⟩
      · rintro ⟨hmem, hnot⟩
        exact ⟨(List.mem_cons.1 hmem).resolve_left (hne hnot), hnot⟩
    | false =>
      rw [List.dropWhile_cons_of_neg (by simp [hlt])]
      refine iff_self_and.2 ?_
      intro hmem
      rcases List.mem_cons.1 hmem with rfl | hmem
      · exact hlt
      · exact CcTime.not_lt_trans hlt (hx e hmem)

/-- The events that the loop compares: all that are not earlier, provided that one is at the
time. -/
theorem NodesInv.mem_findFrom_iff (h : NodesInv s) :
    e ∈ Tables.findFrom when s.subscribedEvents ↔
      (∃ x ∈ s.subscribedEvents, x.when = when) ∧ e ∈ s.subscribedEvents ∧
        e.when.lt when = false := by
  have hdrop : ∀ e, e ∈ s.subscribedEvents.dropWhile (fun x => x.when.lt when) ↔
      e ∈ s.subscribedEvents ∧ e.when.lt when = false :=
    fun e => mem_dropWhile_iff h.chronological
  have hchronological := h.chronological.sublist
    (List.dropWhile_sublist fun x => x.when.lt when)
  unfold Tables.findFrom
  generalize s.subscribedEvents.dropWhile (fun x => x.when.lt when) = rest at hdrop hchronological
  cases rest with
  | nil =>
    refine iff_of_false (by simp) ?_
    rintro ⟨-, hmem⟩
    exact List.not_mem_nil ((hdrop e).2 hmem)
  | cons x rest =>
    obtain ⟨hx, hnot⟩ := (hdrop x).1 List.mem_cons_self
    simp only
    split_ifs with hlater
    · -- the first event that is not earlier is later, so none is at the time
      refine iff_of_false (by simp) ?_
      rintro ⟨⟨y, hy, rfl⟩, -⟩
      have hmem := (hdrop y).2 ⟨hy, CcTime.lt_irrefl _⟩
      rcases List.mem_cons.1 hmem with rfl | hmem
      · rw [CcTime.lt_irrefl] at hlater
        cases hlater
      · rw [(List.pairwise_cons.1 hchronological).1 y hmem] at hlater
        cases hlater
    · have heq : x.when = when := CcTime.eq_of_not_lt hnot (by simpa using hlater)
      rw [hdrop e]
      exact ⟨fun hmem => ⟨⟨x, hx, heq⟩, hmem⟩, fun hmem => hmem.2⟩

/-- What is refused: a callback that is subscribed at the time or later, when anything is
subscribed at the time. -/
theorem NodesInv.refuses_iff (h : NodesInv s) :
    s.refuses when callback = true ↔ (∃ x ∈ s.subscribedEvents, x.when = when) ∧
      ∃ e ∈ s.subscribedEvents, e.when.lt when = false ∧ e.ev.callback = callback := by
  simp only [Tables.refuses, List.any_eq_true, h.mem_findFrom_iff, beq_iff_eq]
  constructor
  · rintro ⟨e, ⟨hat, hmem, hnot⟩, hcallback⟩
    exact ⟨hat, e, hmem, hnot, hcallback⟩
  · rintro ⟨hat, e, hmem, hnot, hcallback⟩
    exact ⟨e, ⟨hat, hmem, hnot⟩, hcallback⟩

/-- A duplicate is refused, and nothing else but a callback of a later time. -/
theorem NodesInv.refuses_iff_duplicate (h : NodesInv s)
    (hlater : ¬ LaterOnly s when callback) :
    s.refuses when callback = true ↔ Duplicate s when callback := by
  rw [h.refuses_iff]
  constructor
  · rintro ⟨hat, e, hmem, hnot, hcallback⟩
    by_contra hdup
    cases hlt : when.lt e.when with
    | true => exact hlater ⟨hdup, hat, e, hmem, hlt, hcallback⟩
    | false => exact hdup ⟨e, hmem, CcTime.eq_of_not_lt hnot hlt, hcallback⟩
  · rintro ⟨e, hmem, rfl, hcallback⟩
    exact ⟨⟨e, hmem, rfl⟩, e, hmem, CcTime.lt_irrefl _, hcallback⟩

theorem LaterOnly.refuses (h : NodesInv s) (hlater : LaterOnly s when callback) :
    s.refuses when callback = true := by
  obtain ⟨-, hat, e, hmem, hlt, hcallback⟩ := hlater
  refine h.refuses_iff.2 ⟨hat, e, hmem, ?_, hcallback⟩
  rw [CcTime.not_lt_iff]
  rw [CcTime.lt_iff] at hlt
  omega

/-- The new event can be taken out of the multimap by its id. -/
theorem filter_insertEvent {events : List TimerEvent} (hne : ∀ x ∈ events, x.id ≠ e.id) :
    (Tables.insertEvent e events).filter (fun x => x.id ≠ e.id) = events := by
  induction events with
  | nil => simp [Tables.insertEvent]
  | cons x events ih =>
    have hkeep : ∀ y ∈ x :: events, decide (y.id ≠ e.id) = true := by
      intro y hy
      simpa using hne y hy
    simp only [Tables.insertEvent]
    split_ifs
    · rw [List.filter_cons_of_neg (by simp), List.filter_eq_self.2 hkeep]
    · rw [List.filter_cons_of_pos (by simpa using hne x List.mem_cons_self),
        ih fun y hy => hne y (List.mem_cons_of_mem x hy)]

/-- An accepted event is identified by its id. -/
theorem NodesInv.identifies (h : NodesInv s) (haccepted : s.refuses when ev.callback = false) :
    Identifies when ev (s.subscribeEventAt when ev tree).1
      (s.subscribeEventAt when ev tree).2 := by
  have hperm := insertEvent_perm ⟨s.nodes, when, ev⟩ s.subscribedEvents
  rw [subscribeEventAt_of_accepted haccepted]
  refine ⟨⟨s.nodes, when, ev⟩, hperm.mem_iff.2 List.mem_cons_self, rfl, rfl, rfl, ?_⟩
  intro x hx hid
  exact (List.mem_cons.1 (hperm.mem_iff.1 hx)).resolve_right
    fun hx => h.ne_of_accepted haccepted hx hid

/-- Where the tables agree and the id is ordered alike with the others, the id of an accepted
event cancels it: `UnsubscribeEvent` leaves the events that were there before. -/
theorem TimerInv.cancels_accepted (h : TimerInv s) (haccepted : s.refuses when ev.callback = false)
    (halike : OrderedAlike s (.subscribeAt when ev tree)) (htree : inorder tree = s.eventsEntry)
    (hcallback : ev.callback ≠ 0) {tree' : EntryTree}
    (htree' : inorder tree' = (s.subscribeEventAt when ev tree).2.eventsEntry) :
    ∃ t, (s.subscribeEventAt when ev tree).2.unsubscribeEvent
        (s.subscribeEventAt when ev tree).1 tree' = some (true, t) ∧
      t.subscribedEvents = s.subscribedEvents := by
  have hperm := insertEvent_perm ⟨s.nodes, when, ev⟩ s.subscribedEvents
  obtain ⟨hzero, hconcordant⟩ := halike haccepted
  have hinv := h.subscribe htree hcallback haccepted hzero hconcordant
  rw [subscribeEventAt_of_accepted haccepted] at hinv htree' ⊢
  have hcancel := hinv.unsubscribe_mem htree' (hperm.mem_iff.2 List.mem_cons_self)
  exact ⟨_, hcancel, filter_insertEvent (e := ⟨s.nodes, when, ev⟩)
    fun x hx => h.ne_of_accepted haccepted hx⟩

end Subscribe

/-- For all subscribed events, `SubscribeEventAt` refuses exactly duplicates and otherwise adds
the event under an id that identifies it, unless another event is subscribed at its time and its
callback only at a later one. -/
theorem subscribes_once_iff (s : Tables) (when : CcTime) (ev : Event) (tree : EntryTree)
    (hnodes : NodesInv s) :
    SubscribesOnce s when ev tree ↔ ¬ LaterOnly s when ev.callback := by
  constructor
  · intro h hlater
    refine hlater.1 (h.refused_iff.1 ?_)
    simp only [Tables.subscribeEventAt, hlater.refuses hnodes, if_true, and_self]
  · intro hlater
    have hrefuses := hnodes.refuses_iff_duplicate hlater
    have hperm := insertEvent_perm ⟨s.nodes, when, ev⟩ s.subscribedEvents
    cases hcase : s.refuses when ev.callback with
    | true =>
      have hdup := hrefuses.1 hcase
      refine ⟨iff_of_true ?_ hdup, fun hnot => absurd hdup hnot⟩
      simp only [Tables.subscribeEventAt, hcase, if_true, and_self]
    | false =>
      have hdup : ¬ Duplicate s when ev.callback := by
        intro hdup
        rw [hrefuses.2 hdup] at hcase
        cases hcase
      refine ⟨iff_of_false ?_ hdup, fun _ => ⟨⟨⟨s.nodes, when, ev⟩, ?_⟩, hnodes.identifies hcase⟩⟩
      · rintro ⟨-, hsame⟩
        have hnode := congrArg Tables.nodes hsame
        rw [subscribeEventAt_of_accepted hcase] at hnode
        simp only at hnode
        omega
      · rw [subscribeEventAt_of_accepted hcase]
        exact hperm

/-- A second event at the time of the first one. -/
theorem subscribes_once_iff_second_event :
    ∃ s, run timerStep .new [.subscribeAt ⟨10, 0⟩ ⟨0, 7⟩ .nil] = some s ∧
      SubscribesOnce s ⟨10, 0⟩ ⟨0, 8⟩ (.node (⟨⟨10, 0⟩, 7⟩, 0) .nil .nil) := by
  have hnodes : NodesInv ⟨[⟨0, ⟨10, 0⟩, ⟨0, 7⟩⟩], [(⟨⟨10, 0⟩, 7⟩, 0)], 1⟩ :=
    ⟨List.pairwise_singleton _ _, by decide, by simp⟩
  refine ⟨_, by decide +kernel, (subscribes_once_iff _ _ _ _ hnodes).2 ?_⟩
  rintro ⟨-, -, e, hmem, hlt, -⟩
  rw [List.mem_singleton.1 hmem] at hlt
  cases hlt

/-- With one callback at ten seconds and another one at twenty, the second callback is refused
at ten seconds, where it is not subscribed. -/
theorem later_callback_refused :
    ∃ s, run timerStep .new [.subscribeAt ⟨10, 0⟩ ⟨0, 7⟩ .nil,
        .subscribeAt ⟨20, 0⟩ ⟨0, 8⟩ (.node (⟨⟨10, 0⟩, 7⟩, 0) .nil .nil)] = some s ∧
      (∀ e ∈ s.subscribedEvents, ¬ (e.when = ⟨10, 0⟩ ∧ e.ev.callback = 8)) ∧
      ∀ tree, s.subscribeEventAt ⟨10, 0⟩ ⟨0, 8⟩ tree = (⟨⟨0, 0⟩, 8⟩, s) := by
  refine ⟨_, rfl, ?_, ?_⟩
  · decide +kernel
  · intro tree
    rfl

end Timer
end CCraft
