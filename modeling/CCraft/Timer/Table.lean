import CCraft.Lib.Run
import CCraft.Lib.SearchTree
import Mathlib.Data.List.TakeWhile

/-!
# The tables of the timer

`Timer` keeps its events in a multimap by time, and in a map from event ids to iterators into
the multimap.  The map compares ids with `EventId::operator<`, which is true when the time is
smaller or the callback has the smaller address.  Two ids whose times and callbacks are ordered
the other way round are each smaller than the other, and a search tree with such ids does
not find what was put into it.

The multimap is the list of its nodes in order.  The map is the list of its entries in
order; the tree that an operation searches is part of the label of the step, so that every
shape of the tree is covered.

Main results:

- Theorem {lit}`timerStep_inv`: as long as every id that is subscribed is ordered alike with the
  subscribed ones, and its time is not zero, the tables agree.
- Theorem {lit}`timer_tables_agree`: in runs of that kind the two tables agree in every state and
  every cancellation removes exactly its event; every other run has a beginning that can be
  continued to a cancellation that goes wrong.
-/

namespace CCraft
namespace Timer

open Runs SearchTree

/-! ## Times and event ids -/

/-- `cctime`. -/
@[ext]
structure CcTime where
  sec : Int
  nsec : Int
deriving DecidableEq, Repr

namespace CcTime

/-- `get_total_nsecs`, in the arithmetic of `long`. -/
def getTotalNsecs (a : CcTime) : Int :=
  Int.bmod (a.sec * 1000000000 + a.nsec) (2 ^ 64)

/-- `operator<`. -/
def lt (a b : CcTime) : Bool :=
  a.sec < b.sec || (a.sec == b.sec && a.nsec < b.nsec)

/-- `operator>`. -/
def gt (a b : CcTime) : Bool :=
  a.sec > b.sec || (a.sec == b.sec && a.nsec > b.nsec)

variable {a b c : CcTime}

theorem lt_iff : a.lt b = true ↔ a.sec < b.sec ∨ (a.sec = b.sec ∧ a.nsec < b.nsec) := by
  simp [lt]

theorem not_lt_iff :
    a.lt b = false ↔ b.sec < a.sec ∨ (b.sec = a.sec ∧ b.nsec ≤ a.nsec) := by
  rw [← Bool.not_eq_true, lt_iff]
  omega

theorem lt_irrefl (a : CcTime) : a.lt a = false := by
  rw [not_lt_iff]
  omega

theorem lt_of_lt_of_not_lt (hab : a.lt b = true) (hbc : c.lt b = false) : a.lt c = true := by
  rw [lt_iff] at hab ⊢
  rw [not_lt_iff] at hbc
  omega

theorem not_lt_trans (hab : b.lt a = false) (hbc : c.lt b = false) : c.lt a = false := by
  rw [not_lt_iff] at hab hbc ⊢
  omega

theorem eq_of_not_lt (hab : a.lt b = false) (hba : b.lt a = false) : a = b := by
  rw [not_lt_iff] at hab hba
  ext <;> omega

end CcTime

/-- `Timer::EventId`; zero is the null pointer. -/
@[ext]
structure EventId where
  when : CcTime
  how : Nat
deriving DecidableEq, Repr

namespace EventId

/-- `EventId::operator<`. -/
def lt (a b : EventId) : Bool :=
  a.when.lt b.when || decide (a.how < b.how)

/-- The times of the two ids and their callbacks are not ordered the opposite way. -/
def Concordant (a b : EventId) : Prop :=
  ¬ (a.when.lt b.when = true ∧ b.how < a.how) ∧ ¬ (b.when.lt a.when = true ∧ a.how < b.how)

instance (a b : EventId) : Decidable (Concordant a b) :=
  inferInstanceAs (Decidable (¬ _ ∧ ¬ _))

variable {a b c : EventId}

theorem not_lt_iff : a.lt b = false ↔ a.when.lt b.when = false ∧ b.how ≤ a.how := by
  simp [lt]

theorem lt_irrefl (a : EventId) : a.lt a = false := by
  simp [lt, CcTime.lt_irrefl]

/-- Ids of which none is smaller are equal. -/
theorem eq_of_not_lt (hab : a.lt b = false) (hba : b.lt a = false) : a = b := by
  rw [not_lt_iff] at hab hba
  ext1
  · exact CcTime.eq_of_not_lt hab.1 hba.1
  · omega

theorem below_trans (hab : Below lt a b) (hbc : Below lt b c) : Below lt a c := by
  obtain ⟨hab, hba⟩ := hab
  obtain ⟨-, hcb⟩ := hbc
  rw [not_lt_iff] at hba hcb
  refine ⟨?_, not_lt_iff.2 ⟨CcTime.not_lt_trans hba.1 hcb.1, by omega⟩⟩
  simp only [lt, Bool.or_eq_true, decide_eq_true_eq] at hab ⊢
  rcases hab with hwhen | hhow
  · exact .inl (CcTime.lt_of_lt_of_not_lt hwhen hcb.1)
  · exact .inr (by omega)

/-- Two ids are ordered alike exactly when not each is smaller than the other. -/
theorem concordant_iff : Concordant a b ↔ ¬ (a.lt b = true ∧ b.lt a = true) := by
  have hasymm : ¬ (a.when.lt b.when = true ∧ b.when.lt a.when = true) := by
    rw [CcTime.lt_iff, CcTime.lt_iff]
    omega
  simp only [Concordant, lt, Bool.or_eq_true, decide_eq_true_eq]
  have hhow : ¬ (a.how < b.how ∧ b.how < a.how) := by omega
  tauto

/-- Different ids that are ordered alike have their places. -/
theorem below_or_below (hconcordant : Concordant a b) (hne : a ≠ b) :
    Below lt a b ∨ Below lt b a := by
  rw [concordant_iff] at hconcordant
  cases hab : a.lt b with
  | true => exact .inl ⟨hab, by simpa [hab] using hconcordant⟩
  | false =>
    cases hba : b.lt a with
    | true => exact .inr ⟨hba, hab⟩
    | false => exact absurd (eq_of_not_lt hab hba) hne

/-- On a set of ids the comparison is a strict weak ordering exactly when all of them are
ordered alike. -/
theorem strictWeakOrder_iff (ids : Set EventId) :
    IsStrictWeakOrder ids (fun a b => a.1.lt b.1 = true) ↔
      ∀ a ∈ ids, ∀ b ∈ ids, Concordant a b := by
  constructor
  · intro horder a ha b hb
    rw [concordant_iff]
    rintro ⟨hab, hba⟩
    have haa : a.lt a = true := horder.trans ⟨a, ha⟩ ⟨b, hb⟩ ⟨a, ha⟩ hab hba
    rw [lt_irrefl] at haa
    cases haa
  · intro hall
    have hbelow : ∀ a ∈ ids, ∀ b ∈ ids, a.lt b = true → Below lt a b := by
      intro a ha b hb hab
      refine ⟨hab, ?_⟩
      have hnot := concordant_iff.1 (hall a ha b hb)
      simpa [hab] using hnot
    refine { irrefl := ?_, trans := ?_, incomp_trans := ?_ }
    · intro a haa
      rw [lt_irrefl] at haa
      cases haa
    · intro a b c hab hbc
      exact (below_trans (hbelow a.1 a.2 b.1 b.2 hab) (hbelow b.1 b.2 c.1 c.2 hbc)).1
    · intro a b c hab hbc
      have hab' : a = b := Subtype.ext (eq_of_not_lt (by simpa using hab.1) (by simpa using hab.2))
      rw [hab']
      exact hbc

end EventId

/-! ## The timer -/

/-- `Timer::Event`. -/
structure Event where
  ctx : Nat
  callback : Nat
deriving DecidableEq, Repr

/-- A node of `m_mapSubscribedEvents`; iterators are the numbers of the nodes. -/
structure TimerEvent where
  node : Nat
  when : CcTime
  ev : Event
deriving DecidableEq, Repr

/-- The id of the event at a node. -/
def TimerEvent.id (e : TimerEvent) : EventId :=
  ⟨e.when, e.ev.callback⟩

/-- The entry that points to a node. -/
def TimerEvent.entry (e : TimerEvent) : EventId × Nat :=
  (e.id, e.node)

/-- The tables of a `Timer`, with the number of nodes made so far. -/
structure Tables where
  subscribedEvents : List TimerEvent
  eventsEntry : List (EventId × Nat)
  nodes : Nat
deriving DecidableEq, Repr

/-- The tree that an operation on `m_mapEventsEntry` searches. -/
abbrev EntryTree := BinaryTree (EventId × Nat)

namespace Tables

/-- A timer without events. -/
def new : Tables :=
  ⟨[], [], 0⟩

/-- `m_mapSubscribedEvents.insert`: behind the events that are not later. -/
def insertEvent (e : TimerEvent) : List TimerEvent → List TimerEvent
  | [] => [e]
  | x :: events => if e.when.lt x.when then e :: x :: events else x :: insertEvent e events

/-- The events from `m_mapSubscribedEvents.find(when)` on.  `std::multimap::find` may return any
of the equal elements; this is the first one, as in libstdc++. -/
def findFrom (when : CcTime) (events : List TimerEvent) : List TimerEvent :=
  match events.dropWhile fun e => e.when.lt when with
  | [] => []
  | e :: rest => if when.lt e.when then [] else e :: rest

/-- The loop of `SubscribeEventAt`: some event from that time on has the callback.  The
loop does not stop behind the events at that time. -/
def refuses (s : Tables) (when : CcTime) (callback : Nat) : Bool :=
  (findFrom when s.subscribedEvents).any fun e => e.ev.callback == callback

/-- `SubscribeEventAt`; the id of an event that is refused has the time zero. -/
def subscribeEventAt (s : Tables) (when : CcTime) (ev : Event) (tree : EntryTree) :
    EventId × Tables :=
  if s.refuses when ev.callback then (⟨⟨0, 0⟩, ev.callback⟩, s)
  else
    let e : TimerEvent := ⟨s.nodes, when, ev⟩
    (⟨when, ev.callback⟩,
      { subscribedEvents := insertEvent e s.subscribedEvents
        eventsEntry := insertUnique EventId.lt e.id e.node tree
        nodes := s.nodes + 1 })

/-- `UnsubscribeEvent`; {lit}`none` stands for the use of an iterator to an erased node. -/
def unsubscribeEvent (s : Tables) (eventId : EventId) (tree : EntryTree) :
    Option (Bool × Tables) :=
  if eventId.when.getTotalNsecs = 0 ∨ eventId.how = 0 then some (false, s)
  else
    match find EventId.lt eventId tree with
    | some i => do
      let ev ← s.eventsEntry[i]?
      if s.subscribedEvents.any fun e => e.node == ev.2 then
        some (true, { s with
          subscribedEvents := s.subscribedEvents.filter fun e => e.node ≠ ev.2
          eventsEntry := s.eventsEntry.eraseIdx i })
      else none
    | none => some (false, s)

/-- `UnsubscribeAllEvent`. -/
def unsubscribeAllEvent (s : Tables) : Tables :=
  { s with subscribedEvents := [], eventsEntry := [] }

/-- `m_mapEventsEntry.erase(evId)` and `m_mapSubscribedEvents.erase(min)` after an event has
fired. -/
def eraseEvent (s : Tables) (e : TimerEvent) (tree : EntryTree) : Tables :=
  { s with
    subscribedEvents := s.subscribedEvents.filter fun x => x.node ≠ e.node
    eventsEntry := eraseKey EventId.lt e.id tree }

/-- One round of the inner loop of `process` at the given time: the first event, if it is due,
is called and erased. -/
def fire (s : Tables) (now : CcTime) (tree : EntryTree) : Option (TimerEvent × Tables) :=
  match s.subscribedEvents with
  | [] => none
  | e :: _ => if e.when.gt now then none else some (e, s.eraseEvent e tree)

end Tables

/-- The calls of the users and the rounds of `process`, with the tree that is searched. -/
inductive TimerLabel where
  | subscribeAt (when : CcTime) (ev : Event) (tree : EntryTree)
  | unsubscribe (eventId : EventId) (tree : EntryTree)
  | unsubscribeAll
  | fire (now : CcTime) (tree : EntryTree)

/-- `SubscribeEventAt` asserts that there is a callback. -/
def timerStep (s : Tables) : TimerLabel → Option Tables
  | .subscribeAt when ev tree =>
    if inorder tree = s.eventsEntry ∧ ev.callback ≠ 0 then
      some (s.subscribeEventAt when ev tree).2
    else none
  | .unsubscribe eventId tree =>
    if inorder tree = s.eventsEntry then (s.unsubscribeEvent eventId tree).map Prod.snd
    else none
  | .unsubscribeAll => some s.unsubscribeAllEvent
  | .fire now tree =>
    if inorder tree = s.eventsEntry then (s.fire now tree).map Prod.snd else none

/-- The map has exactly one entry for each event of the multimap, which points to it, and
the comparison is a strict weak ordering on its keys. -/
structure TablesAgree (s : Tables) : Prop where
  entries : s.eventsEntry.Perm (s.subscribedEvents.map TimerEvent.entry)
  ordering : IsStrictWeakOrder {id | ∃ e ∈ s.subscribedEvents, e.id = id}
    fun a b => a.1.lt b.1 = true

/-- The call answers whether an event with the id is subscribed, and removes exactly that
event from both tables. -/
def CancelsExactly (s : Tables) : TimerLabel → Prop
  | .unsubscribe eventId tree => inorder tree = s.eventsEntry →
      ∃ rc s', s.unsubscribeEvent eventId tree = some (rc, s') ∧
        (rc = true ↔ ∃ e ∈ s.subscribedEvents, e.id = eventId) ∧
        s'.subscribedEvents = s.subscribedEvents.filter (fun e => e.id ≠ eventId) ∧
        s'.eventsEntry = s.eventsEntry.filter fun x => x.1 ≠ eventId
  | _ => True

/-- An id that is subscribed has a time that is not zero, and is ordered alike with the
subscribed ones. -/
def OrderedAlike (s : Tables) : TimerLabel → Prop
  | .subscribeAt when ev _ => s.refuses when ev.callback = false →
      when.getTotalNsecs ≠ 0 ∧
        ∀ e ∈ s.subscribedEvents, EventId.Concordant e.id ⟨when, ev.callback⟩
  | _ => True

instance (s : Tables) : ∀ a, Decidable (OrderedAlike s a)
  | .subscribeAt when ev _ => inferInstanceAs
      (Decidable (s.refuses when ev.callback = false → when.getTotalNsecs ≠ 0 ∧
        ∀ e ∈ s.subscribedEvents, EventId.Concordant e.id ⟨when, ev.callback⟩))
  | .unsubscribe _ _ | .unsubscribeAll | .fire _ _ => isTrue trivial

/-- The nodes are in the order of their times and different from each other. -/
structure NodesInv (s : Tables) : Prop where
  chronological : s.subscribedEvents.Pairwise fun a b => b.when.lt a.when = false
  nodes_nodup : (s.subscribedEvents.map TimerEvent.node).Nodup
  nodes_lt : ∀ e ∈ s.subscribedEvents, e.node < s.nodes

/-- The invariant of the tables: the entries are in the order of their ids, and every entry
belongs to one node. -/
structure TimerInv (s : Tables) : Prop extends NodesInv s where
  nonzero : ∀ e ∈ s.subscribedEvents, e.when.getTotalNsecs ≠ 0 ∧ e.ev.callback ≠ 0
  entries : s.eventsEntry.Perm (s.subscribedEvents.map TimerEvent.entry)
  sorted : Sorted EventId.lt s.eventsEntry

section Steps

variable {s s' : Tables} {a : TimerLabel} {e e' : TimerEvent} {when : CcTime} {ev : Event}
  {tree : EntryTree} {eventId : EventId}

theorem new_nodesInv : NodesInv .new :=
  ⟨List.Pairwise.nil, List.nodup_nil, by simp [Tables.new]⟩

theorem new_timerInv : TimerInv .new :=
  ⟨new_nodesInv, by simp [Tables.new], List.Perm.refl _, List.Pairwise.nil⟩

theorem TimerInv.mem_entries (h : TimerInv s) (he : e ∈ s.subscribedEvents) :
    (e.id, e.node) ∈ s.eventsEntry :=
  h.entries.mem_iff.2 (List.mem_map_of_mem he)

theorem TimerInv.exists_event (h : TimerInv s) {x : EventId × Nat} (hx : x ∈ s.eventsEntry) :
    ∃ e ∈ s.subscribedEvents, e.id = x.1 ∧ e.node = x.2 := by
  obtain ⟨e, he, rfl⟩ := List.mem_map.1 (h.entries.mem_iff.1 hx)
  exact ⟨e, he, rfl, rfl⟩

/-- An event is known by its node. -/
theorem NodesInv.eq_of_node (h : NodesInv s) (he : e ∈ s.subscribedEvents)
    (he' : e' ∈ s.subscribedEvents) (hnode : e.node = e'.node) : e = e' :=
  List.inj_on_of_nodup_map h.nodes_nodup he he' hnode

/-- An event is known by its id. -/
theorem TimerInv.eq_of_id (h : TimerInv s) (he : e ∈ s.subscribedEvents)
    (he' : e' ∈ s.subscribedEvents) (hid : e.id = e'.id) : e = e' := by
  refine h.eq_of_node he he' ?_
  have hmem := h.mem_entries he
  rw [hid] at hmem
  exact h.sorted.eq_of_mem hmem (h.mem_entries he')

/-- The ids in the map are ordered alike. -/
theorem TimerInv.concordant (h : TimerInv s) (he : e ∈ s.subscribedEvents)
    (he' : e' ∈ s.subscribedEvents) : EventId.Concordant e.id e'.id := by
  have hpairs : s.eventsEntry.Pairwise fun x y => EventId.Concordant x.1 y.1 := by
    refine List.Pairwise.imp ?_ h.sorted
    intro x y hxy
    rw [EventId.concordant_iff]
    simp [hxy.2]
  have hself : ∀ x ∈ s.eventsEntry, EventId.Concordant x.1 x.1 := by
    intro x _
    rw [EventId.concordant_iff]
    simp [EventId.lt_irrefl]
  have hsymm : Std.Symm fun x y : EventId × Nat => EventId.Concordant x.1 y.1 :=
    ⟨fun _ _ hxy => And.symm hxy⟩
  exact hpairs.forall_of_forall hself (h.mem_entries he) (h.mem_entries he')

theorem TimerInv.tablesAgree (h : TimerInv s) : TablesAgree s := by
  refine ⟨h.entries, (EventId.strictWeakOrder_iff _).2 ?_⟩
  rintro _ ⟨e, he, rfl⟩ _ ⟨e', he', rfl⟩
  exact h.concordant he he'

/-! ## Subscribing -/

theorem insertEvent_perm (e : TimerEvent) (events : List TimerEvent) :
    (Tables.insertEvent e events).Perm (e :: events) := by
  induction events with
  | nil => exact List.Perm.refl _
  | cons x events ih =>
    simp only [Tables.insertEvent]
    split_ifs
    · exact List.Perm.refl _
    · exact (ih.cons x).trans (List.Perm.swap e x events)

theorem insertEvent_chronological {events : List TimerEvent}
    (h : events.Pairwise fun a b => b.when.lt a.when = false) :
    (Tables.insertEvent e events).Pairwise fun a b => b.when.lt a.when = false := by
  induction events with
  | nil => exact List.pairwise_singleton _ _
  | cons x events ih =>
    obtain ⟨hx, hrest⟩ := List.pairwise_cons.1 h
    simp only [Tables.insertEvent]
    split_ifs with hlt
    · have hnot : x.when.lt e.when = false := by
        rw [CcTime.not_lt_iff]
        rw [CcTime.lt_iff] at hlt
        omega
      refine List.pairwise_cons.2 ⟨?_, h⟩
      intro y hy
      rcases List.mem_cons.1 hy with rfl | hy
      · exact hnot
      · exact CcTime.not_lt_trans hnot (hx y hy)
    · refine List.pairwise_cons.2 ⟨?_, ih hrest⟩
      intro y hy
      rcases List.mem_cons.1 ((insertEvent_perm e events).mem_iff.1 hy) with rfl | hy
      · simpa using hlt
      · exact hx y hy

/-- A subscribed event refuses another one with its id. -/
theorem NodesInv.refuses (h : NodesInv s) (he : e ∈ s.subscribedEvents) :
    s.refuses e.when e.ev.callback = true := by
  have hself : ¬ e.when.lt e.when = true := by simp [CcTime.lt_irrefl]
  have hkept : e ∈ s.subscribedEvents.dropWhile fun x => x.when.lt e.when := by
    rcases List.mem_append.1 (by rwa [List.takeWhile_append_dropWhile] :
      e ∈ s.subscribedEvents.takeWhile (fun x => x.when.lt e.when) ++
        s.subscribedEvents.dropWhile fun x => x.when.lt e.when) with hmem | hmem
    · exact absurd (List.mem_takeWhile_imp hmem) hself
    · exact hmem
  have hchronological := h.chronological.sublist
    (List.dropWhile_sublist fun x => x.when.lt e.when)
  unfold Tables.refuses Tables.findFrom
  cases hdrop : s.subscribedEvents.dropWhile fun x => x.when.lt e.when with
  | nil =>
    rw [hdrop] at hkept
    cases hkept
  | cons x rest =>
    rw [hdrop] at hkept hchronological
    have hnot : e.when.lt x.when = false := by
      rcases List.mem_cons.1 hkept with rfl | hmem
      · exact CcTime.lt_irrefl _
      · exact (List.pairwise_cons.1 hchronological).1 e hmem
    simp only [hnot, Bool.false_eq_true, if_false]
    exact List.any_eq_true.2 ⟨e, hkept, by simp⟩

theorem subscribeEventAt_of_accepted (haccepted : s.refuses when ev.callback = false) :
    s.subscribeEventAt when ev tree = (⟨when, ev.callback⟩,
      { subscribedEvents := Tables.insertEvent ⟨s.nodes, when, ev⟩ s.subscribedEvents
        eventsEntry := insertUnique EventId.lt ⟨when, ev.callback⟩ s.nodes tree
        nodes := s.nodes + 1 }) := by
  simp only [Tables.subscribeEventAt, haccepted, Bool.false_eq_true, if_false]
  rfl

/-- An id that is accepted is not subscribed yet. -/
theorem NodesInv.ne_of_accepted (h : NodesInv s)
    (haccepted : s.refuses when ev.callback = false) (he : e ∈ s.subscribedEvents) :
    e.id ≠ ⟨when, ev.callback⟩ := by
  intro hid
  have hwhen : e.when = when := congrArg EventId.when hid
  have hcallback : e.ev.callback = ev.callback := congrArg EventId.how hid
  have hrefuses := h.refuses he
  rw [hwhen, hcallback, haccepted] at hrefuses
  cases hrefuses

/-- A new event gets its place among the nodes, whatever its id. -/
theorem NodesInv.subscribe (h : NodesInv s) (when : CcTime) (ev : Event) (tree : EntryTree) :
    NodesInv (s.subscribeEventAt when ev tree).2 := by
  cases hrefuses : s.refuses when ev.callback with
  | true =>
    simp only [Tables.subscribeEventAt, hrefuses, if_true]
    exact h
  | false =>
    have hperm := insertEvent_perm ⟨s.nodes, when, ev⟩ s.subscribedEvents
    rw [subscribeEventAt_of_accepted hrefuses]
    refine ⟨insertEvent_chronological h.chronological, ?_, ?_⟩
    · rw [(hperm.map TimerEvent.node).nodup_iff, List.map_cons, List.nodup_cons]
      refine ⟨?_, h.nodes_nodup⟩
      intro hmem
      obtain ⟨e, he, hnode⟩ := List.mem_map.1 hmem
      have := h.nodes_lt e he
      simp only at hnode
      omega
    · intro e he
      rcases List.mem_cons.1 (hperm.mem_iff.1 he) with rfl | he
      · exact Nat.lt_succ_self _
      · exact Nat.lt_succ_of_lt (h.nodes_lt e he)

/-- An id that is ordered alike with the subscribed ones gets its place. -/
theorem TimerInv.subscribe (h : TimerInv s) (htree : inorder tree = s.eventsEntry)
    (hcallback : ev.callback ≠ 0) (haccepted : s.refuses when ev.callback = false)
    (hzero : when.getTotalNsecs ≠ 0)
    (hconcordant : ∀ e ∈ s.subscribedEvents, EventId.Concordant e.id ⟨when, ev.callback⟩) :
    TimerInv (s.subscribeEventAt when ev tree).2 := by
  have hfits : ∀ x ∈ inorder tree, Below EventId.lt x.1 ⟨when, ev.callback⟩ ∨
      Below EventId.lt ⟨when, ev.callback⟩ x.1 := by
    intro x hx
    rw [htree] at hx
    obtain ⟨e, he, hid, -⟩ := h.exists_event hx
    rw [← hid]
    exact EventId.below_or_below (hconcordant e he) (h.ne_of_accepted haccepted he)
  obtain ⟨as, bs, hsplit, hinsert, has, hbs⟩ := insertUnique_spec
    (by rw [htree]; exact h.sorted) (fun _ _ _ => EventId.below_trans) hfits s.nodes
  have hperm := insertEvent_perm ⟨s.nodes, when, ev⟩ s.subscribedEvents
  refine ⟨h.toNodesInv.subscribe when ev tree, ?_, ?_, ?_⟩
  all_goals rw [subscribeEventAt_of_accepted haccepted]
  · intro e he
    rcases List.mem_cons.1 (hperm.mem_iff.1 he) with rfl | he
    · exact ⟨hzero, hcallback⟩
    · exact h.nonzero e he
  · have hentries := h.entries
    rw [← htree, hsplit] at hentries
    rw [hinsert]
    calc as ++ (⟨when, ev.callback⟩, s.nodes) :: bs
      _ |>.Perm ((⟨when, ev.callback⟩, s.nodes) :: (as ++ bs)) := List.perm_middle
      _ |>.Perm ((⟨when, ev.callback⟩, s.nodes) ::
            s.subscribedEvents.map TimerEvent.entry) := hentries.cons _
      _ |>.Perm ((Tables.insertEvent ⟨s.nodes, when, ev⟩ s.subscribedEvents).map
            TimerEvent.entry) := (hperm.map TimerEvent.entry).symm
  · have hsorted := h.sorted
    rw [← htree, hsplit] at hsorted
    obtain ⟨hsas, hsbs, hcross⟩ := List.pairwise_append.1 hsorted
    rw [hinsert]
    refine List.pairwise_append.2 ⟨hsas, List.pairwise_cons.2 ⟨hbs, hsbs⟩, ?_⟩
    intro x hx y hy
    rcases List.mem_cons.1 hy with rfl | hy
    · exact has x hx
    · exact hcross x hx y hy

/-! ## Cancelling and firing -/

/-- Fewer nodes are still in order. -/
theorem NodesInv.filter (h : NodesInv s) (p : TimerEvent → Bool) (entries : List (EventId × Nat)) :
    NodesInv { s with
      subscribedEvents := s.subscribedEvents.filter p, eventsEntry := entries } :=
  ⟨h.chronological.filter _, h.nodes_nodup.sublist (List.filter_sublist.map TimerEvent.node),
    fun e he => h.nodes_lt e (List.mem_of_mem_filter he)⟩

/-- Taking the event of an id out of both tables keeps the invariant. -/
theorem TimerInv.remove (h : TimerInv s) (eventId : EventId) : TimerInv
    { s with
      subscribedEvents := s.subscribedEvents.filter fun e => e.id ≠ eventId
      eventsEntry := s.eventsEntry.filter fun x => x.1 ≠ eventId } := by
  have hentries := h.entries.filter fun x => x.1 ≠ eventId
  rw [List.filter_map] at hentries
  exact ⟨h.toNodesInv.filter _ _, fun e he => h.nonzero e (List.mem_of_mem_filter he), hentries,
    List.Pairwise.filter _ h.sorted⟩

/-- The entry of a subscribed event is found, whatever tree is searched. -/
theorem TimerInv.find_eq (h : TimerInv s) (htree : inorder tree = s.eventsEntry)
    (he : e ∈ s.subscribedEvents) :
    ∃ as bs, s.eventsEntry = as ++ (e.id, e.node) :: bs ∧
      find EventId.lt e.id tree = some as.length ∧ eraseKey EventId.lt e.id tree = as ++ bs ∧
      s.eventsEntry.filter (fun x => x.1 ≠ e.id) = as ++ bs := by
  obtain ⟨as, bs, hsplit⟩ := List.append_of_mem (h.mem_entries he)
  have hsorted : Sorted EventId.lt (inorder tree) := by
    rw [htree]
    exact h.sorted
  have hinorder : inorder tree = as ++ (e.id, e.node) :: bs := htree.trans hsplit
  refine ⟨as, bs, hsplit, find_of_mem (EventId.lt_irrefl _) hinorder hsorted,
    eraseKey_of_mem (EventId.lt_irrefl _) hinorder hsorted, ?_⟩
  have hfilter := h.sorted
  rw [hsplit] at hfilter ⊢
  exact hfilter.filter_ne

/-- What a cancellation removes of the multimap is the event with the id. -/
theorem TimerInv.filter_node (h : TimerInv s) (he : e ∈ s.subscribedEvents) :
    s.subscribedEvents.filter (fun x => x.node ≠ e.node) =
      s.subscribedEvents.filter fun x => x.id ≠ e.id := by
  apply List.filter_congr
  intro x hx
  have hiff : x.node = e.node ↔ x.id = e.id := by
    constructor
    · intro hnode
      rw [h.eq_of_node hx he hnode]
    · intro hid
      rw [h.eq_of_id hx he hid]
  simp [hiff]

/-- The cancellation of a subscribed event. -/
theorem TimerInv.unsubscribe_mem (h : TimerInv s) (htree : inorder tree = s.eventsEntry)
    (he : e ∈ s.subscribedEvents) :
    s.unsubscribeEvent e.id tree = some (true, { s with
      subscribedEvents := s.subscribedEvents.filter fun x => x.id ≠ e.id
      eventsEntry := s.eventsEntry.filter fun x => x.1 ≠ e.id }) := by
  obtain ⟨as, bs, hsplit, hfind, -, hfilter⟩ := h.find_eq htree he
  have hnonzero : ¬ (e.id.when.getTotalNsecs = 0 ∨ e.id.how = 0) := by
    obtain ⟨hwhen, hcallback⟩ := h.nonzero e he
    rintro (hzero | hnull)
    · exact hwhen hzero
    · exact hcallback hnull
  have hentry : s.eventsEntry[as.length]? = some (e.id, e.node) := by
    rw [hsplit, List.getElem?_append_right le_rfl, Nat.sub_self, List.getElem?_cons_zero]
  have hnode : s.subscribedEvents.any (fun x => x.node == e.node) = true :=
    List.any_eq_true.2 ⟨e, he, by simp⟩
  have herase : s.eventsEntry.eraseIdx as.length = s.eventsEntry.filter fun x => x.1 ≠ e.id := by
    rw [hfilter, hsplit, List.eraseIdx_append_of_length_le le_rfl, Nat.sub_self,
      List.eraseIdx_cons_zero]
  simp only [Tables.unsubscribeEvent, if_neg hnonzero, hfind, hentry, Option.bind_eq_bind,
    Option.bind_some, hnode, if_true, herase, h.filter_node he]

/-- Without an event of that id nothing is found, in any tree. -/
theorem TimerInv.unsubscribe_not_mem (h : TimerInv s) (htree : inorder tree = s.eventsEntry)
    (hnone : ∀ e ∈ s.subscribedEvents, e.id ≠ eventId) :
    s.unsubscribeEvent eventId tree = some (false, s) := by
  have hfind : find EventId.lt eventId tree = none := by
    by_contra hfound
    obtain ⟨i, hi⟩ := Option.ne_none_iff_exists'.1 hfound
    obtain ⟨x, hx, hxk, hkx⟩ := find_sound hi
    rw [htree] at hx
    obtain ⟨e, he, hid, -⟩ := h.exists_event (List.mem_of_getElem? hx)
    exact hnone e he (hid.trans (EventId.eq_of_not_lt hxk hkx))
  unfold Tables.unsubscribeEvent
  split_ifs
  · rfl
  · simp only [hfind]

/-- A cancellation answers whether its event is subscribed and removes it. -/
theorem TimerInv.unsubscribe_eq (h : TimerInv s) (htree : inorder tree = s.eventsEntry)
    (eventId : EventId) :
    ∃ rc, s.unsubscribeEvent eventId tree = some (rc, { s with
        subscribedEvents := s.subscribedEvents.filter fun x => x.id ≠ eventId
        eventsEntry := s.eventsEntry.filter fun x => x.1 ≠ eventId }) ∧
      (rc = true ↔ ∃ e ∈ s.subscribedEvents, e.id = eventId) := by
  by_cases hmem : ∃ e ∈ s.subscribedEvents, e.id = eventId
  · obtain ⟨e, he, rfl⟩ := hmem
    exact ⟨true, h.unsubscribe_mem htree he, by simpa using ⟨e, he, rfl⟩⟩
  · have hnone : ∀ e ∈ s.subscribedEvents, e.id ≠ eventId :=
      fun e he hid => hmem ⟨e, he, hid⟩
    have hevents : s.subscribedEvents.filter (fun x => x.id ≠ eventId) = s.subscribedEvents :=
      List.filter_eq_self.2 fun e he => by simpa using hnone e he
    have hentries : s.eventsEntry.filter (fun x => x.1 ≠ eventId) = s.eventsEntry := by
      refine List.filter_eq_self.2 fun x hx => ?_
      obtain ⟨e, he, hid, -⟩ := h.exists_event hx
      simpa [← hid] using hnone e he
    refine ⟨false, ?_, by simpa using hmem⟩
    rw [hevents, hentries]
    exact h.unsubscribe_not_mem htree hnone

/-- An event that has fired is taken out of both tables. -/
theorem TimerInv.eraseEvent_eq (h : TimerInv s) (htree : inorder tree = s.eventsEntry)
    (he : e ∈ s.subscribedEvents) : s.eraseEvent e tree = { s with
      subscribedEvents := s.subscribedEvents.filter fun x => x.id ≠ e.id
      eventsEntry := s.eventsEntry.filter fun x => x.1 ≠ e.id } := by
  obtain ⟨as, bs, -, -, herase, hfilter⟩ := h.find_eq htree he
  rw [Tables.eraseEvent, h.filter_node he, herase, hfilter]

/-- Only the first event fires. -/
theorem mem_of_fire {now : CcTime} (hfire : s.fire now tree = some (e, s')) :
    e ∈ s.subscribedEvents ∧ s' = s.eraseEvent e tree := by
  unfold Tables.fire at hfire
  split at hfire
  case h_1 => cases hfire
  case h_2 first rest hevents =>
    split_ifs at hfire
    cases hfire
    exact ⟨by simp [hevents], rfl⟩

/-! ## Steps that keep the ids in order -/

theorem unsubscribeAllEvent_inv (s : Tables) : TimerInv s.unsubscribeAllEvent :=
  ⟨⟨List.Pairwise.nil, List.nodup_nil, by simp [Tables.unsubscribeAllEvent]⟩,
    by simp [Tables.unsubscribeAllEvent], List.Perm.refl _, List.Pairwise.nil⟩

/-- As long as the ids are ordered alike, the tables keep agreeing. -/
theorem timerStep_inv (h : TimerInv s) (halike : OrderedAlike s a)
    (hstep : timerStep s a = some s') : TimerInv s' := by
  cases a with
  | subscribeAt when ev tree =>
    obtain ⟨⟨htree, hcallback⟩, ⟨⟩⟩ := Option.ite_none_right_eq_some.1 hstep
    cases hrefuses : s.refuses when ev.callback with
    | true =>
      simp only [Tables.subscribeEventAt, hrefuses, if_true]
      exact h
    | false =>
      obtain ⟨hzero, hconcordant⟩ := halike hrefuses
      exact h.subscribe htree hcallback hrefuses hzero hconcordant
  | unsubscribe eventId tree =>
    simp only [timerStep, Option.ite_none_right_eq_some] at hstep
    obtain ⟨htree, hstep⟩ := hstep
    obtain ⟨rc, hrc, -⟩ := h.unsubscribe_eq htree eventId
    rw [hrc] at hstep
    cases hstep
    exact h.remove eventId
  | unsubscribeAll =>
    cases hstep
    exact unsubscribeAllEvent_inv s
  | fire now tree =>
    simp only [timerStep, Option.ite_none_right_eq_some] at hstep
    obtain ⟨htree, hstep⟩ := hstep
    obtain ⟨⟨e, s''⟩, hfire, rfl⟩ := Option.map_eq_some_iff.1 hstep
    obtain ⟨he, rfl⟩ := mem_of_fire hfire
    rw [h.eraseEvent_eq htree he]
    exact h.remove e.id

theorem TimerInv.cancelsExactly (h : TimerInv s) (a : TimerLabel) : CancelsExactly s a := by
  cases a with
  | unsubscribe eventId tree =>
    intro htree
    obtain ⟨rc, hrc, hiff⟩ := h.unsubscribe_eq htree eventId
    exact ⟨rc, _, hrc, hiff, rfl, rfl⟩
  | subscribeAt | unsubscribeAll | fire => trivial

/-! ## What other ids lead to -/

/-- A search that does not find a subscribed event makes its cancellation fail. -/
theorem not_cancelsExactly_of_not_found (he : e ∈ s.subscribedEvents)
    (htree : inorder tree = s.eventsEntry) (hfind : find EventId.lt e.id tree = none) :
    ¬ CancelsExactly s (.unsubscribe e.id tree) := by
  intro hcancels
  obtain ⟨rc, s', hrc, hiff, -⟩ := hcancels htree
  have hfalse : s.unsubscribeEvent e.id tree = some (false, s) := by
    unfold Tables.unsubscribeEvent
    split_ifs
    · rfl
    · simp only [hfind]
  rw [hfalse] at hrc
  cases hrc
  cases hiff.2 ⟨e, he, rfl⟩

/-- The entries after an insertion are those before it, with the new one somewhere or not at
all. -/
theorem insertUnique_cases (lt : EventId → EventId → Bool) (k : EventId) (n : Nat)
    (tree : EntryTree) : insertUnique lt k n tree = inorder tree ∨
      ∃ as bs, inorder tree = as ++ bs ∧ insertUnique lt k n tree = as ++ (k, n) :: bs := by
  unfold insertUnique
  dsimp only
  split
  · exact .inr ⟨[], inorder tree, rfl, rfl⟩
  · split
    · split_ifs
      · exact .inr ⟨_, _, (List.take_append_drop _ _).symm, rfl⟩
      · exact .inl rfl
    · exact .inl rfl

/-- After an id was accepted that is not ordered alike with a subscribed one, one of the two
is not found in some tree. -/
theorem TimerInv.exists_not_found (h : TimerInv s) (htree : inorder tree = s.eventsEntry)
    (haccepted : s.refuses when ev.callback = false) (he : e ∈ s.subscribedEvents)
    (hdiscordant : ¬ EventId.Concordant e.id ⟨when, ev.callback⟩) :
    ∃ x ∈ (s.subscribeEventAt when ev tree).2.subscribedEvents, ∃ tree',
      inorder tree' = (s.subscribeEventAt when ev tree).2.eventsEntry ∧
        find EventId.lt x.id tree' = none := by
  have hlt : e.id.lt ⟨when, ev.callback⟩ = true ∧ EventId.lt ⟨when, ev.callback⟩ e.id = true := by
    rw [EventId.concordant_iff, not_not] at hdiscordant
    exact hdiscordant
  have hnew : ∀ x ∈ s.eventsEntry, x.1 ≠ ⟨when, ev.callback⟩ := by
    intro x hx
    obtain ⟨e', he', hid, -⟩ := h.exists_event hx
    rw [← hid]
    exact h.ne_of_accepted haccepted he'
  have hperm := insertEvent_perm ⟨s.nodes, when, ev⟩ s.subscribedEvents
  have hself : (⟨s.nodes, when, ev⟩ : TimerEvent) ∈
      Tables.insertEvent ⟨s.nodes, when, ev⟩ s.subscribedEvents := hperm.mem_iff.2 (by simp)
  have hold : e ∈ Tables.insertEvent ⟨s.nodes, when, ev⟩ s.subscribedEvents :=
    hperm.mem_iff.2 (by simp [he])
  rw [subscribeEventAt_of_accepted haccepted]
  simp only
  rcases insertUnique_cases EventId.lt ⟨when, ev.callback⟩ s.nodes tree with
    hsame | ⟨as, bs, hsplit, hinsert⟩
  · -- the new entry was not inserted
    refine ⟨_, hself, tree, hsame.symm, ?_⟩
    by_contra hfound
    obtain ⟨i, hi⟩ := Option.ne_none_iff_exists'.1 hfound
    obtain ⟨x, hx, hxk, hkx⟩ := find_sound hi
    rw [htree] at hx
    exact hnew x (List.mem_of_getElem? hx) (EventId.eq_of_not_lt hxk hkx)
  · rw [hinsert]
    rw [htree] at hsplit
    have hsorted := h.sorted
    rw [hsplit] at hsorted
    have hentry := h.mem_entries he
    rw [hsplit] at hentry
    rcases List.mem_append.1 hentry with hleft | hright
    · -- the old entry stands before the new one
      have hbs : ∀ b ∈ bs, b.1 ≠ e.id := by
        intro b hb hid
        have hbelow := (List.pairwise_append.1 hsorted).2.2 _ hleft b hb
        rw [hid] at hbelow
        exact absurd hbelow.1 (by simp [hbelow.2])
      obtain ⟨tree', htree', hfind⟩ := exists_tree_not_found as
        (e := (⟨when, ev.callback⟩, s.nodes)) (fun _ _ => EventId.eq_of_not_lt) hlt.2 hbs
      exact ⟨e, hold, tree', htree', hfind⟩
    · -- the new entry stands before the old one
      obtain ⟨cs, ds, rfl⟩ := List.append_of_mem hright
      have hds : ∀ b ∈ ds, b.1 ≠ ⟨when, ev.callback⟩ :=
        fun b hb => hnew b (by simp [hsplit, hb])
      obtain ⟨tree', htree', hfind⟩ := exists_tree_not_found
        (as ++ (⟨when, ev.callback⟩, s.nodes) :: cs) (e := (e.id, e.node))
        (fun _ _ => EventId.eq_of_not_lt) hlt.1 hds
      exact ⟨_, hself, tree', by rw [htree']; simp, hfind⟩

/-- Every subscription of another kind can be continued to a cancellation that goes wrong. -/
theorem exists_failed_cancel (h : TimerInv s) (halike : ¬ OrderedAlike s a)
    (hstep : timerStep s a = some s') :
    ∃ more, ¬ Guarded timerStep CancelsExactly s (a :: more) := by
  cases a with
  | subscribeAt when ev tree =>
    have hstep' := hstep
    obtain ⟨⟨htree, -⟩, ⟨⟩⟩ := Option.ite_none_right_eq_some.1 hstep
    simp only [OrderedAlike, Classical.not_imp] at halike
    obtain ⟨haccepted, hbad⟩ := halike
    -- some subscribed event is not found, or its id reads as null
    have hwrong : ∃ x tree', ¬ CancelsExactly (s.subscribeEventAt when ev tree).2
        (.unsubscribe x tree') := by
      by_cases hzero : when.getTotalNsecs = 0
      · refine ⟨⟨when, ev.callback⟩,
          spine (s.subscribeEventAt when ev tree).2.eventsEntry, ?_⟩
        intro hcancels
        obtain ⟨rc, s', hrc, hiff, -⟩ := hcancels (inorder_spine _)
        rw [Tables.unsubscribeEvent, if_pos (.inl hzero)] at hrc
        cases hrc
        have hself : (⟨s.nodes, when, ev⟩ : TimerEvent) ∈
            (s.subscribeEventAt when ev tree).2.subscribedEvents := by
          rw [subscribeEventAt_of_accepted haccepted]
          exact (insertEvent_perm _ _).mem_iff.2 (by simp)
        cases hiff.2 ⟨_, hself, rfl⟩
      · have hdiscordant : ∃ e ∈ s.subscribedEvents,
            ¬ EventId.Concordant e.id ⟨when, ev.callback⟩ := by
          by_contra hall
          refine hbad ⟨hzero, ?_⟩
          intro e he
          by_contra hnot
          exact hall ⟨e, he, hnot⟩
        obtain ⟨e, he, hdiscordant⟩ := hdiscordant
        obtain ⟨x, hx, tree', htree', hfind⟩ :=
          h.exists_not_found htree haccepted he hdiscordant
        exact ⟨x.id, tree', not_cancelsExactly_of_not_found hx htree' hfind⟩
    obtain ⟨x, tree', hwrong⟩ := hwrong
    refine ⟨[.unsubscribe x tree'], ?_⟩
    intro hguard
    exact hwrong (hguard.2 _ hstep').1
  | unsubscribe | unsubscribeAll | fire => exact absurd trivial halike

end Steps

/-! ## Whole runs -/

/-- In every run whose subscriptions have ids that are ordered alike and times that are not
zero, the two tables agree in every state, and every cancellation answers whether its event is
subscribed and removes exactly that event.  Every other run has a beginning that can be
continued to a cancellation that goes wrong. -/
theorem timer_tables_agree (labels : List TimerLabel) (t : Tables)
    (hrun : run timerStep .new labels = some t) :
    (Guarded timerStep OrderedAlike .new labels →
      Always timerStep TablesAgree .new labels ∧
        Guarded timerStep CancelsExactly .new labels) ∧
    (¬ Guarded timerStep OrderedAlike .new labels →
      ∃ labels' more, labels' <+: labels ∧
        ¬ Guarded timerStep CancelsExactly .new (labels' ++ more)) := by
  constructor
  · intro hguard
    constructor
    · have halways : Always timerStep TimerInv .new labels :=
        always_of_guarded (fun _ _ _ h halike hstep => timerStep_inv h halike hstep)
          new_timerInv hguard
      exact halways.mono fun _ h => h.tablesAgree
    · exact guarded_of_guarded (I := TimerInv)
        (fun _ _ _ h halike hstep => timerStep_inv h halike hstep)
        (fun _ a h _ => h.cancelsExactly a) new_timerInv hguard
  · exact exists_unguarded (I := TimerInv)
      (fun _ _ _ h halike hstep => timerStep_inv h halike hstep)
      (fun _ _ _ h halike hstep => exists_failed_cancel h halike hstep) new_timerInv hrun

/-- Two events, the later one with the callback at the higher address: the first one is
cancelled and the second one fires. -/
theorem timer_tables_agree_two_events :
    let early : EventId := ⟨⟨10, 0⟩, 3⟩
    let late : EventId := ⟨⟨20, 0⟩, 5⟩
    let labels : List TimerLabel :=
      [.subscribeAt early.when ⟨0, early.how⟩ .nil,
        .subscribeAt late.when ⟨0, late.how⟩ (.node (early, 0) .nil .nil),
        .unsubscribe early (.node (early, 0) .nil (.node (late, 1) .nil .nil)),
        .fire ⟨21, 0⟩ (.node (late, 1) .nil .nil)]
    Always timerStep TablesAgree .new labels ∧ Guarded timerStep CancelsExactly .new labels := by
  intro early late labels
  exact (timer_tables_agree labels ⟨[], [], 2⟩ (by decide +kernel)).1 (by decide +kernel)

/-- Two events, the later one with the callback at the lower address: each id is smaller than
the other, and the later event, which was put left of the root, is not found when it is
cancelled. -/
theorem later_event_not_cancelled :
    let early : EventId := ⟨⟨10, 0⟩, 5⟩
    let late : EventId := ⟨⟨20, 0⟩, 3⟩
    let tree : EntryTree := .node (early, 0) (.node (late, 1) .nil .nil) .nil
    early.lt late = true ∧ late.lt early = true ∧
    ¬ IsStrictWeakOrder EventId (fun a b => a.lt b = true) ∧
    ∃ s, run timerStep .new [.subscribeAt early.when ⟨0, early.how⟩ .nil,
        .subscribeAt late.when ⟨0, late.how⟩ (.node (early, 0) .nil .nil)] = some s ∧
      inorder tree = s.eventsEntry ∧ (∃ e ∈ s.subscribedEvents, e.id = late) ∧
      s.unsubscribeEvent late tree = some (false, s) ∧
      ¬ CancelsExactly s (.unsubscribe late tree) := by
  intro early late tree
  have hearly : early.lt late = true := by decide
  have hlate : late.lt early = true := by decide
  refine ⟨hearly, hlate, ?_, _, rfl, by decide +kernel, by decide +kernel, by decide +kernel, ?_⟩
  · intro horder
    have hself : early.lt early = true := horder.trans early late early hearly hlate
    rw [EventId.lt_irrefl] at hself
    cases hself
  · exact not_cancelsExactly_of_not_found (e := ⟨1, ⟨20, 0⟩, ⟨0, 3⟩⟩) (by decide +kernel)
      (by decide +kernel) (by decide +kernel)

end Timer
end CCraft
