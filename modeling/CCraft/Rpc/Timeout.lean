import CCraft.Rpc.SyncClient
import CCraft.Timer.Duplicates
import CCraft.Timer.FiringOrder

/-!
# Timeouts of calls

`recvMessage` subscribes one event at the global timer for every call.  The callback of
these events is a static local object: the first call that passes its declaration fixes the
client and the message id that every later event times out.

The clients of a process share the timer and the callback.  All their events have the same
callback, so an event is known by its time.

Main results:

- Theorem {lit}`timedStep_timer`: the events are those that the tables of a timer hold.
- Theorem {lit}`timedStep_refines`: what happens to one client is a run of that client.
- Theorem {lit}`timeouts_per_call_iff`: every event that fires for a pending call times out
  that call and no other one, exactly when the callback belongs to the call each time.
-/

namespace CCraft
namespace Rpc

open Net Runs PageMap

/-! ## The timer -/

/-- A subscribed event, with the client and the context that it was subscribed for. -/
structure Subscription where
  when : Nat
  client : Nat
  ctx : RpcCtx
deriving DecidableEq, Repr

/-- `m_mapSubscribedEvents.insert`. -/
def insertEvent (e : Subscription) : List Subscription → List Subscription
  | [] => [e]
  | x :: events => if x.when ≤ e.when then x :: insertEvent e events else e :: x :: events

/-- `Timer::SubscribeEventAt`: an event at the same time refuses the new one, whose id then
has the time zero. -/
def subscribeEventAt (events : List Subscription) (e : Subscription) :
    Nat × List Subscription :=
  if ∃ x ∈ events, x.when = e.when then (0, events) else (e.when, insertEvent e events)

/-- `Timer::UnsubscribeEvent` for the events of some contexts. -/
def unsubscribeEvents {R : Type} (events : List Subscription) (s : SyncClient R)
    (rcs : Finset RpcCtx) : List Subscription :=
  events.filter fun e => ¬ ∃ rc ∈ rcs, (s.vars rc.address).timerEv = some e.when

theorem mem_insertEvent {e x : Subscription} {events : List Subscription} :
    x ∈ insertEvent e events ↔ x = e ∨ x ∈ events := by
  induction events with
  | nil => simp [insertEvent]
  | cons y events ih =>
    simp only [insertEvent]
    split_ifs
    · rw [List.mem_cons, ih, List.mem_cons]
      tauto
    · rw [List.mem_cons]

theorem mem_subscribeEventAt {e x : Subscription} {events : List Subscription}
    (hx : x ∈ (subscribeEventAt events e).2) : x = e ∨ x ∈ events := by
  unfold subscribeEventAt at hx
  split_ifs at hx
  · exact .inr hx
  · exact mem_insertEvent.1 hx

/-! ## Clients that share a timer -/

/-- The contexts whose events a step of a client unsubscribes. -/
def SyncClient.unsubscribed {R : Type} (s : SyncClient R) : ClientLabel R → Finset RpcCtx
  | .message id _ => (s.tables.entries.lookup id).toFinset
  | .worker peer => s.tables.members peer
  | _ => ∅

/-- The body of the callback for the id that it has captured. -/
def SyncClient.timeoutCallback {R : Type} (s : SyncClient R) (id : Nat) : SyncClient R :=
  match s.tables.entries.lookup id with
  | none => s
  | some rc =>
    { s with
      tables := s.tables.remove id rc.peer rc
      vars := Function.update s.vars rc.address ((s.vars rc.address).finish .timeout) }

/-- An event that fired: the call that it was subscribed for, whether that call was pending,
and the context that the callback completed, with its state then. -/
structure Firing where
  client : Nat
  ctx : RpcCtx
  wasPending : Bool
  completed : Option (Nat × RpcCtx × CtxState)
deriving DecidableEq, Repr

/-- The clients of a process, what the callback has captured, the subscribed events and,
for the record, the events that fired. -/
structure TimedClients (R : Type) where
  clients : Nat → SyncClient R
  callback : Option (Nat × Nat)
  events : List Subscription
  fired : List Firing

def TimedClients.new {R : Type} : TimedClients R :=
  ⟨fun _ => .new, none, [], []⟩

/-- The context is in the table of its client. -/
def TimedClients.pending {R : Type} (w : TimedClients R) (k : Nat) (rc : RpcCtx) : Bool :=
  (w.clients k).tables.entries.lookup rc.msgId = some rc

/-- The context that the callback completes. -/
def TimedClients.target {R : Type} (w : TimedClients R) : Option (Nat × RpcCtx) :=
  match w.callback with
  | none => none
  | some (k, id) => ((w.clients k).tables.entries.lookup id).map fun rc => (k, rc)

/-- `Timer::process` calls the callback of its first event and erases the event. -/
def TimedClients.fire {R : Type} (w : TimedClients R) (e : Subscription)
    (rest : List Subscription) : TimedClients R :=
  let clients := match w.callback with
    | none => w.clients
    | some (k, id) => Function.update w.clients k ((w.clients k).timeoutCallback id)
  { w with
    clients := clients
    events := rest
    fired := w.fired ++ [
      { client := e.client
        ctx := e.ctx
        wasPending := w.pending e.client e.ctx
        completed := w.target.map fun x =>
          (x.1, x.2, ((clients x.1).vars x.2.address).state) }] }

/-- The steps of a client, in which a caller passes the declaration of the callback before
it subscribes its event, and the steps of the timer. -/
inductive TimedLabel (R : Type) where
  | client (k : Nat) (a : ClientLabel R)
  | capture (k address : Nat)
  | subscribe (k address now : Nat)
  | process (now : Nat)

/-- The step of a client that neither subscribes nor times out. -/
def ClientLabel.isUntimed {R : Type} : ClientLabel R → Bool
  | .subscribe _ _ => false
  | .timeout _ => false
  | _ => true

/-- One step of the clients and the timer; {lit}`T` gives `m_timeout` of each client. -/
def timedStep {R : Type} (T : Nat → Nat) (w : TimedClients R) :
    TimedLabel R → Option (TimedClients R)
  | .client k a =>
    if a.isUntimed = true then
      (clientStep (w.clients k) a).map fun c =>
        { w with
          clients := Function.update w.clients k c
          events := unsubscribeEvents w.events (w.clients k) ((w.clients k).unsubscribed a) }
    else none
  | .capture k address =>
    match (w.clients k).made[address]? with
    | none => none
    | some rc =>
      if ((w.clients k).vars address).caller.isSubscribing = true then
        some { w with callback := w.callback.or (some (k, rc.msgId)) }
      else none
  | .subscribe k address now =>
    match (w.clients k).made[address]? with
    | none => none
    | some rc =>
      if w.callback.isSome = true then
        let r := subscribeEventAt w.events ⟨now + T k, k, rc⟩
        (clientStep (w.clients k)
          (.subscribe address (if r.1 = 0 then none else some r.1))).map fun c =>
            { w with clients := Function.update w.clients k c, events := r.2 }
      else none
  | .process now =>
    match w.events with
    | [] => none
    | e :: rest => if e.when ≤ now then some (w.fire e rest) else none

/-! ## The tables of the timer -/

section Tables

open SearchTree Timer

/-- A time in nanoseconds as the timer has it. -/
def timeAt (n : Nat) : CcTime :=
  ⟨n / 1000000000, n % 1000000000⟩

/-- The event of every timeout; its callback is one static object. -/
def timeoutEvent : Event := ⟨0, 1⟩

/-- The tables of the timer hold the subscribed events. -/
structure TimerHolds (u : Tables) (events : List Subscription) : Prop where
  inv : TimerInv u
  events_eq : u.subscribedEvents.map (fun e => (e.when, e.ev)) =
    events.map fun e => (timeAt e.when, timeoutEvent)

/-- The times that are subscribed are positive and fit into `long`. -/
def InTime {R : Type} (T : Nat → Nat) : TimedLabel R → Prop
  | .subscribe k _ now => 0 < now + T k ∧ now + T k < 2 ^ 63
  | _ => True

variable {u : Tables} {events : List Subscription} {e : Subscription} {a b n : Nat}

theorem timeAt_lt : (timeAt a).lt (timeAt b) = decide (a < b) := by
  rw [Bool.eq_iff_iff, CcTime.lt_iff, decide_eq_true_eq]
  simp only [timeAt]
  omega

theorem timeAt_gt : (timeAt a).gt (timeAt b) = decide (b < a) := by
  rw [Bool.eq_iff_iff, CcTime.gt_iff, timeAt_lt]

theorem timeAt_inj : timeAt a = timeAt b ↔ a = b := by
  simp only [timeAt, CcTime.mk.injEq]
  omega

theorem timeAt_nonzero (hpos : 0 < n) (hlt : n < 2 ^ 63) : (timeAt n).getTotalNsecs ≠ 0 := by
  have htotal : ((n / 1000000000 : Nat) : Int) * 1000000000 + ((n % 1000000000 : Nat) : Int) =
      n := by omega
  have htotal' : (timeAt n).getTotalNsecs = Int.bmod n (2 ^ 64) := by
    rw [CcTime.getTotalNsecs]
    congr 1
  rw [htotal', Int.bmod_eq_of_le (by omega) (by omega)]
  omega

/-- An event of the tables is one of the subscribed ones. -/
theorem TimerHolds.mem (h : TimerHolds u events) {x : TimerEvent}
    (hx : x ∈ u.subscribedEvents) :
    x.ev = timeoutEvent ∧ ∃ e ∈ events, x.when = timeAt e.when := by
  have hmem : (x.when, x.ev) ∈ events.map fun e => (timeAt e.when, timeoutEvent) := by
    rw [← h.events_eq]
    exact List.mem_map_of_mem hx
  obtain ⟨e, he, heq⟩ := List.mem_map.1 hmem
  obtain ⟨hwhen, hev⟩ := Prod.mk.inj heq
  exact ⟨hev.symm, e, he, hwhen.symm⟩

theorem TimerHolds.exists_event (h : TimerHolds u events) (he : e ∈ events) :
    ∃ x ∈ u.subscribedEvents, x.when = timeAt e.when := by
  have hmem : (timeAt e.when, timeoutEvent) ∈ u.subscribedEvents.map fun e => (e.when, e.ev) := by
    rw [h.events_eq]
    exact List.mem_map_of_mem (f := fun e => (timeAt e.when, timeoutEvent)) he
  obtain ⟨x, hx, heq⟩ := List.mem_map.1 hmem
  exact ⟨x, hx, (Prod.mk.inj heq).1⟩

/-- All timeouts have one callback, so one is refused exactly at the time of another one. -/
theorem TimerHolds.refuses_iff (h : TimerHolds u events) :
    u.refuses (timeAt n) timeoutEvent.callback = true ↔ ∃ e ∈ events, e.when = n := by
  rw [h.inv.toNodesInv.refuses_iff]
  constructor
  · rintro ⟨⟨x, hx, hwhen⟩, -⟩
    obtain ⟨-, e, he, heq⟩ := h.mem hx
    exact ⟨e, he, timeAt_inj.1 (heq.symm.trans hwhen)⟩
  · rintro ⟨e, he, rfl⟩
    obtain ⟨x, hx, hwhen⟩ := h.exists_event he
    refine ⟨⟨x, hx, hwhen⟩, x, hx, ?_, congrArg Event.callback (h.mem hx).1⟩
    rw [hwhen]
    exact CcTime.lt_irrefl _

theorem map_insertEvent {xs : List TimerEvent} {node : Nat}
    (h : xs.map (fun e => (e.when, e.ev)) = events.map fun e => (timeAt e.when, timeoutEvent)) :
    (Tables.insertEvent ⟨node, timeAt e.when, timeoutEvent⟩ xs).map
        (fun e => (e.when, e.ev)) =
      (insertEvent e events).map fun e => (timeAt e.when, timeoutEvent) := by
  induction xs generalizing events with
  | nil =>
    obtain rfl : events = [] := List.map_eq_nil_iff.1 h.symm
    rfl
  | cons x xs ih =>
    obtain ⟨y, events, rfl, hy, htail⟩ := List.map_eq_cons_iff.1 h.symm
    obtain ⟨hwhen, hev⟩ := Prod.mk.inj hy
    simp only [Tables.insertEvent, insertEvent, ← hwhen, timeAt_lt, decide_eq_true_eq]
    split_ifs
    · omega
    · simp [← hwhen, ← hev, htail]
    · simp [← hwhen, ← hev, ih htail.symm]
    · omega


/-- `SubscribeEventAt` answers with the id and changes the tables as {lit}`subscribeEventAt`
says. -/
theorem TimerHolds.subscribe (h : TimerHolds u events) (hpos : 0 < e.when)
    (hlt : e.when < 2 ^ 63) {tree : EntryTree}
    (htree : inorder tree = u.eventsEntry) :
    (u.subscribeEventAt (timeAt e.when) timeoutEvent tree).1.when =
        timeAt (subscribeEventAt events e).1 ∧
      TimerHolds (u.subscribeEventAt (timeAt e.when) timeoutEvent tree).2
        (subscribeEventAt events e).2 := by
  have hrefuses := h.refuses_iff (n := e.when)
  cases hcase : u.refuses (timeAt e.when) timeoutEvent.callback with
  | true =>
    simp only [Tables.subscribeEventAt, hcase, if_true, subscribeEventAt,
      if_pos (hrefuses.1 hcase)]
    exact ⟨rfl, h⟩
  | false =>
    have hnot : ¬ ∃ x ∈ events, x.when = e.when := by
      rw [← hrefuses, hcase]
      exact Bool.false_ne_true
    have hinv := h.inv.subscribe htree (by decide) hcase (timeAt_nonzero hpos hlt) ?_
    · rw [subscribeEventAt_of_accepted hcase] at hinv ⊢
      simp only [subscribeEventAt, if_neg hnot]
      exact ⟨trivial, hinv, map_insertEvent h.events_eq⟩
    · -- the callbacks are equal
      intro x hx
      simp [EventId.Concordant, TimerEvent.id, (h.mem hx).1]

/-- `UnsubscribeEvent` takes the event at the time out. -/
theorem TimerHolds.unsubscribe (h : TimerHolds u events) (n : Nat) :
    ∃ a u', timerStep u a = some u' ∧ TimerHolds u' (events.filter fun e => e.when ≠ n) := by
  obtain ⟨rc, hrc, -⟩ := h.inv.unsubscribe_eq (inorder_spine _) ⟨timeAt n, 1⟩
  refine ⟨.unsubscribe ⟨timeAt n, 1⟩ (spine u.eventsEntry), _, ?_, h.inv.remove ⟨timeAt n, 1⟩, ?_⟩
  · simp only [timerStep, inorder_spine, if_true, hrc, Option.map_some]
  · -- both sides keep the pairs of another time or another callback
    have hpairs := congrArg (List.filter fun p : CcTime × Event =>
      decide ((⟨p.1, p.2.callback⟩ : EventId) ≠ ⟨timeAt n, 1⟩)) h.events_eq
    rw [List.filter_map, List.filter_map] at hpairs
    refine hpairs.trans (congrArg _ (List.filter_congr ?_))
    intro e _
    simp [timeoutEvent, timeAt_inj]

theorem unsubscribeEvents_insert {R : Type} (s : SyncClient R) (rc : RpcCtx)
    (rcs : Finset RpcCtx) :
    unsubscribeEvents events s (insert rc rcs) = unsubscribeEvents
      (events.filter fun e => (s.vars rc.address).timerEv ≠ some e.when) s rcs := by
  simp only [unsubscribeEvents, List.filter_filter]
  refine List.filter_congr ?_
  intro e _
  simp only [Finset.mem_insert, exists_eq_or_imp, not_or, Bool.decide_and, Bool.and_comm]

/-- The calls of `UnsubscribeEvent` for some contexts. -/
theorem TimerHolds.unsubscribeEvents {R : Type} (s : SyncClient R) (rcs : Finset RpcCtx)
    (h : TimerHolds u events) :
    ∃ labels u', run timerStep u labels = some u' ∧
      TimerHolds u' (unsubscribeEvents events s rcs) := by
  induction rcs using Finset.induction_on generalizing u events with
  | empty => exact ⟨[], u, rfl, by simpa [Rpc.unsubscribeEvents] using h⟩
  | insert rc rcs _ ih =>
    rw [unsubscribeEvents_insert]
    cases hwhen : (s.vars rc.address).timerEv with
    | none => exact ih (by simpa using h)
    | some n =>
      obtain ⟨a, u₁, hstep, hu₁⟩ := h.unsubscribe n
      obtain ⟨labels, u₂, hrun, hu₂⟩ := ih hu₁
      refine ⟨a :: labels, u₂, run_cons_eq_some.2 ⟨u₁, hstep, hrun⟩, ?_⟩
      simpa [eq_comm] using hu₂

/-- A round of `process` erases the first event. -/
theorem TimerHolds.fire {rest : List Subscription} (h : TimerHolds u (e :: rest)) {now : Nat}
    (hdue : e.when ≤ now) :
    ∃ u', timerStep u (.fire (timeAt now) (spine u.eventsEntry)) = some u' ∧
      TimerHolds u' rest := by
  obtain ⟨x, xs, hevents, hx, hrest⟩ := List.map_eq_cons_iff.1 h.events_eq
  have hgt : x.when.gt (timeAt now) = false := by
    rw [(Prod.mk.inj hx).1, timeAt_gt]
    simpa using hdue
  have hmem : x ∈ u.subscribedEvents := by simp [hevents]
  refine ⟨u.eraseEvent x (spine u.eventsEntry), ?_, ?_, ?_⟩
  · simp only [timerStep, inorder_spine, if_true, fire_due hevents hgt, Option.map_some]
  · rw [h.inv.eraseEvent_eq (inorder_spine _) hmem]
    exact h.inv.remove x.id
  · rw [(h.inv.toNodesInv.eraseEvent_head hevents _).1]
    exact hrest

/-- The events of the clients are those of a timer: every step makes some calls of the timer,
and its tables go on holding the events. -/
theorem timedStep_timer {R : Type} {T : Nat → Nat} {w w' : TimedClients R} {a : TimedLabel R}
    (h : TimerHolds u w.events) (ha : InTime T a) (hstep : timedStep T w a = some w') :
    ∃ labels u', run timerStep u labels = some u' ∧ TimerHolds u' w'.events := by
  cases a with
  | client k b =>
    simp only [timedStep, Option.ite_none_right_eq_some, Option.map_eq_some_iff] at hstep
    obtain ⟨-, c, -, rfl⟩ := hstep
    exact h.unsubscribeEvents (w.clients k) _
  | capture k address =>
    simp only [timedStep] at hstep
    split at hstep
    · cases hstep
    · obtain ⟨-, ⟨⟩⟩ := Option.ite_none_right_eq_some.1 hstep
      exact ⟨[], u, rfl, h⟩
  | subscribe k address now =>
    simp only [timedStep] at hstep
    split at hstep
    · cases hstep
    · rename_i rc _
      simp only [Option.ite_none_right_eq_some, Option.map_eq_some_iff] at hstep
      obtain ⟨-, c, -, rfl⟩ := hstep
      have hu' := (h.subscribe (e := ⟨now + T k, k, rc⟩) ha.1 ha.2 (inorder_spine _)).2
      refine ⟨[.subscribeAt (timeAt (now + T k)) timeoutEvent (spine u.eventsEntry)], _, ?_, hu'⟩
      simp [run, timerStep, timeoutEvent]
  | process now =>
    simp only [timedStep] at hstep
    split at hstep
    · cases hstep
    · rename_i e rest hevents
      obtain ⟨hle, ⟨⟩⟩ := Option.ite_none_right_eq_some.1 hstep
      rw [hevents] at h
      obtain ⟨u', hfire, hu'⟩ := h.fire hle
      exact ⟨[_], u', run_cons_eq_some.2 ⟨u', hfire, rfl⟩, hu'⟩

end Tables

/-! ## What one client goes through -/

section Client

variable {R : Type} {s s' : SyncClient R} {a : ClientLabel R} {id : Nat} {rc : RpcCtx}

/-- The callback is the locked part of a timeout and the completion of its context. -/
theorem timeoutCallback_run (s : SyncClient R) (id : Nat) :
    ∃ labels, run clientStep s labels = some (s.timeoutCallback id) := by
  cases hl : s.tables.entries.lookup id with
  | none => exact ⟨[], by simp [SyncClient.timeoutCallback, hl]⟩
  | some rc =>
    refine ⟨[.timeout id, .complete s.jobs.length], ?_⟩
    rw [run_cons_eq_some]
    refine ⟨_, by simp only [clientStep, SyncClient.take_of_some hl]; rfl, ?_⟩
    rw [run_cons_eq_some]
    refine ⟨_, by simp only [clientStep, List.getElem?_concat_length]; rfl, ?_⟩
    simp [SyncClient.timeoutCallback, hl, List.eraseIdx_append_of_length_le]

/-- The entries of the table are contexts of the client, under their ids. -/
structure Keyed (s : SyncClient R) : Prop where
  key : ∀ id rc, s.tables.entries.lookup id = some rc → rc.msgId = id
  made : ∀ id rc, s.tables.entries.lookup id = some rc → rc ∈ s.made
  address : ∀ rc ∈ s.made, rc.address < s.made.length

theorem new_keyed : Keyed (SyncClient.new : SyncClient R) := by
  constructor <;> simp [SyncClient.new, GroupIndex.empty]

/-- Every step of a client keeps its entries under their ids, whatever ids are used. -/
theorem clientStep_keyed (h : Keyed s) (hstep : clientStep s a = some s') : Keyed s' := by
  rcases clientStep_grows hstep with ⟨hmade, hlookup⟩ | ⟨rc, haddress, hmade, hentries, -⟩
  · refine ⟨fun id rc hl => h.key id rc (hlookup id rc hl), ?_, ?_⟩
    · rw [hmade]
      exact fun id rc hl => h.made id rc (hlookup id rc hl)
    · rw [hmade]
      exact h.address
  · have hcases : ∀ id d, s'.tables.entries.lookup id = some d →
        (d = rc ∧ id = rc.msgId) ∨ s.tables.entries.lookup id = some d := by
      intro id d hl
      rw [hentries, lookup_insert_eq] at hl
      split_ifs at hl with hid
      · exact .inl ⟨(Option.some.inj hl).symm, hid⟩
      · exact .inr hl
    refine ⟨?_, ?_, ?_⟩
    · intro id d hl
      rcases hcases id d hl with ⟨rfl, hid⟩ | hl
      · exact hid.symm
      · exact h.key id d hl
    · intro id d hl
      rw [hmade]
      rcases hcases id d hl with ⟨rfl, _⟩ | hl
      · exact List.mem_append_right _ (List.mem_singleton_self _)
      · exact List.mem_append_left _ (h.made id d hl)
    · rw [hmade, List.length_append, List.length_singleton]
      refine List.forall_mem_append.2 ⟨fun d hd => Nat.lt_succ_of_lt (h.address d hd), ?_⟩
      exact List.forall_mem_singleton.2 (haddress ▸ Nat.lt_succ_self _)

/-- Along a run of a client: the entries stay under their ids, contexts are only added, and
the table only gains contexts that were not there at the beginning. -/
structure Grows (s s' : SyncClient R) : Prop where
  keyed : Keyed s'
  made : s.made <+: s'.made
  lookup : ∀ id rc, rc ∈ s.made → s'.tables.entries.lookup id = some rc →
    s.tables.entries.lookup id = some rc

theorem Grows.refl (h : Keyed s) : Grows s s :=
  ⟨h, List.prefix_rfl, fun _ _ _ hl => hl⟩

theorem run_grows {labels : List (ClientLabel R)} (h : Keyed s)
    (hrun : run clientStep s labels = some s') : Grows s s' := by
  induction labels generalizing s with
  | nil =>
    simp only [run_nil, Option.some.injEq] at hrun
    exact hrun ▸ Grows.refl h
  | cons a labels ih =>
    obtain ⟨u, hstep, hrest⟩ := run_cons_eq_some.1 hrun
    have hu := ih (clientStep_keyed h hstep) hrest
    have hmade := clientStep_made hstep
    refine ⟨hu.keyed, hmade.trans hu.made, ?_⟩
    intro id rc hrc hl
    have hl' := hu.lookup id rc (hmade.subset hrc) hl
    rcases clientStep_grows hstep with ⟨_, hlookup⟩ | ⟨d, haddress, _, hentries, -⟩
    · exact hlookup id rc hl'
    · rw [hentries, lookup_insert_eq] at hl'
      split_ifs at hl'
      · have hlt := h.address rc hrc
        rw [← Option.some.inj hl', haddress] at hlt
        exact absurd hlt (lt_irrefl _)
      · exact hl'

/-- The callback leaves no entry under its id. -/
theorem lookup_timeoutCallback_self (s : SyncClient R) (id : Nat) :
    (s.timeoutCallback id).tables.entries.lookup id = none := by
  cases hl : s.tables.entries.lookup id with
  | none => simp only [SyncClient.timeoutCallback, hl]
  | some rc =>
    simp only [SyncClient.timeoutCallback, hl]
    exact AList.lookup_erase id s.tables.entries

end Client

/-! ## All clients -/

section Timed

variable {R : Type} {T : Nat → Nat} {w w' : TimedClients R} {a : TimedLabel R}

/-- A step is a run of one client, which may subscribe an event for one of its contexts, or
the timer fires its first event. -/
theorem timedStep_cases (hstep : timedStep T w a = some w') :
    (∃ k c labels, run clientStep (w.clients k) labels = some c ∧
      w'.clients = Function.update w.clients k c ∧ w'.fired = w.fired ∧
      ∀ e ∈ w'.events, e ∈ w.events ∨ e.ctx ∈ (w.clients e.client).made) ∨
    ∃ now e rest, a = .process now ∧ w.events = e :: rest ∧ e.when ≤ now ∧
      w' = w.fire e rest := by
  have hone : ∀ {k : Nat} {b : ClientLabel R} {c : SyncClient R},
      clientStep (w.clients k) b = some c → run clientStep (w.clients k) [b] = some c :=
    fun h => run_cons_eq_some.2 ⟨_, h, rfl⟩
  cases a with
  | client k b =>
    simp only [timedStep, Option.ite_none_right_eq_some, Option.map_eq_some_iff] at hstep
    obtain ⟨_, c, hc, rfl⟩ := hstep
    exact .inl ⟨k, c, [b], hone hc, rfl, rfl, fun e he => .inl (List.mem_of_mem_filter he)⟩
  | capture k address =>
    simp only [timedStep] at hstep
    split at hstep
    · cases hstep
    · obtain ⟨_, ⟨⟩⟩ := Option.ite_none_right_eq_some.1 hstep
      exact .inl ⟨k, w.clients k, [], rfl, (Function.update_eq_self _ _).symm, rfl,
        fun e he => .inl he⟩
  | subscribe k address now =>
    simp only [timedStep] at hstep
    split at hstep
    · cases hstep
    · rename_i rc hrc
      simp only [Option.ite_none_right_eq_some, Option.map_eq_some_iff] at hstep
      obtain ⟨_, c, hc, rfl⟩ := hstep
      refine .inl ⟨k, c, _, hone hc, rfl, rfl, ?_⟩
      intro e he
      rcases mem_subscribeEventAt he with rfl | hold
      · exact .inr (List.mem_of_getElem? hrc)
      · exact .inl hold
  | process now =>
    simp only [timedStep] at hstep
    split at hstep
    · cases hstep
    · rename_i e rest hevents
      obtain ⟨hle, ⟨⟩⟩ := Option.ite_none_right_eq_some.1 hstep
      exact .inr ⟨now, e, rest, rfl, hevents, hle, rfl⟩

theorem exists_run_update {k : Nat} {c : SyncClient R} {labels : List (ClientLabel R)}
    (hrun : run clientStep (w.clients k) labels = some c) (j : Nat) :
    ∃ labels, run clientStep (w.clients j) labels =
      some (Function.update w.clients k c j) := by
  by_cases hj : j = k
  · subst hj
    exact ⟨labels, by rw [Function.update_self, hrun]⟩
  · exact ⟨[], by rw [Function.update_of_ne hj, run_nil]⟩

/-- Each client goes through steps of its own. -/
theorem timedStep_refines (hstep : timedStep T w a = some w') (j : Nat) :
    ∃ labels, run clientStep (w.clients j) labels = some (w'.clients j) := by
  rcases timedStep_cases hstep with ⟨k, c, labels, hrun, hclients, _⟩ | ⟨_, e, rest, _, _, _, rfl⟩
  · rw [hclients]
    exact exists_run_update hrun j
  · cases hcb : w.callback with
    | none => exact ⟨[], by simp [TimedClients.fire, hcb]⟩
    | some x =>
      obtain ⟨labels, hrun⟩ := timeoutCallback_run (w.clients x.1) x.2
      simp only [TimedClients.fire, hcb]
      exact exists_run_update hrun j

/-- What fired for a pending call has timed out that call and no other one, and no call
whose event has fired is pending. -/
def PerCall (w : TimedClients R) : Prop :=
  ∀ f ∈ w.fired, (f.wasPending = true → f.completed = some (f.client, f.ctx, .timeout)) ∧
    w.pending f.client f.ctx = false

/-- An event that fires for a pending call finds the callback of that call. -/
def OwnCallback (w : TimedClients R) : TimedLabel R → Prop
  | .process now =>
    match w.events with
    | [] => True
    | e :: _ => e.when ≤ now → w.pending e.client e.ctx = true →
        w.callback = some (e.client, e.ctx.msgId)
  | _ => True

instance (w : TimedClients R) (a : TimedLabel R) : Decidable (OwnCallback w a) := by
  unfold OwnCallback
  split
  · split <;> infer_instance
  · infer_instance

structure TimedInv (w : TimedClients R) : Prop where
  keyed : ∀ k, Keyed (w.clients k)
  events : ∀ e ∈ w.events, e.ctx ∈ (w.clients e.client).made
  fired : ∀ f ∈ w.fired, f.ctx ∈ (w.clients f.client).made
  perCall : PerCall w

theorem new_timedInv : TimedInv (TimedClients.new : TimedClients R) := by
  refine ⟨fun _ => new_keyed, ?_, ?_, ?_⟩ <;> simp [PerCall, TimedClients.new]

/-- A context that has left the table does not come back. -/
theorem pending_of_grows {k : Nat} {rc : RpcCtx} (hrc : rc ∈ (w.clients k).made)
    (hgrows : Grows (w.clients k) (w'.clients k)) (hgone : w.pending k rc = false) :
    w'.pending k rc = false := by
  simp only [TimedClients.pending, decide_eq_false_iff_not] at hgone ⊢
  exact fun hl => hgone (hgrows.lookup _ rc hrc hl)

/-- What firing an event for a pending call with its own callback does. -/
theorem fire_own {e : Subscription} (rest : List Subscription)
    (hpending : w.pending e.client e.ctx = true)
    (hcb : w.callback = some (e.client, e.ctx.msgId)) :
    (w.fire e rest).fired = w.fired ++ [⟨e.client, e.ctx, true,
      some (e.client, e.ctx, .timeout)⟩] ∧ (w.fire e rest).pending e.client e.ctx = false := by
  have hl : (w.clients e.client).tables.entries.lookup e.ctx.msgId = some e.ctx := by
    simpa [TimedClients.pending] using hpending
  refine ⟨?_, ?_⟩
  · simp [TimedClients.fire, TimedClients.target, hcb, hl, hpending,
      SyncClient.timeoutCallback, CtxVars.finish]
  · simp only [TimedClients.fire, hcb, TimedClients.pending, Function.update_self,
      lookup_timeoutCallback_self]
    rfl

/-- Firing with the callback of another call does not time out the pending call. -/
theorem fire_other (h : ∀ k, Keyed (w.clients k)) {e : Subscription}
    (rest : List Subscription) (hcb : w.callback ≠ some (e.client, e.ctx.msgId)) :
    ∃ f ∈ (w.fire e rest).fired, f.wasPending = w.pending e.client e.ctx ∧
      f.completed ≠ some (f.client, f.ctx, .timeout) := by
  refine ⟨_, List.mem_append_right _ (List.mem_singleton_self _), rfl, ?_⟩
  intro hcompleted
  simp only [Option.map_eq_some_iff, Prod.mk.injEq] at hcompleted
  obtain ⟨x, htarget, hk, hrc, _⟩ := hcompleted
  unfold TimedClients.target at htarget
  split at htarget
  · cases htarget
  · rename_i k id hsome
    simp only [Option.map_eq_some_iff] at htarget
    obtain ⟨rc, hl, rfl⟩ := htarget
    refine hcb ?_
    rw [hsome, ← hk, ← hrc, (h k).key id rc hl]

/-- Every step that fires with the right callback keeps the invariant. -/
theorem timedStep_inv (h : TimedInv w) (ha : OwnCallback w a)
    (hstep : timedStep T w a = some w') : TimedInv w' := by
  have hgrows : ∀ k, Grows (w.clients k) (w'.clients k) := by
    intro k
    obtain ⟨labels, hrun⟩ := timedStep_refines hstep k
    exact run_grows (h.keyed k) hrun
  have hold : ∀ f ∈ w.fired,
      (f.wasPending = true → f.completed = some (f.client, f.ctx, .timeout)) ∧
        w'.pending f.client f.ctx = false := fun f hf =>
    ⟨(h.perCall f hf).1, pending_of_grows (h.fired f hf) (hgrows _) (h.perCall f hf).2⟩
  refine ⟨fun k => (hgrows k).keyed, ?_, ?_, ?_⟩
  · intro e he
    rcases timedStep_cases hstep with ⟨_, _, _, _, _, _, hevents⟩ | ⟨_, x, rest, _, hw, _, rfl⟩
    · rcases hevents e he with hmem | hmade
      · exact (hgrows _).made.subset (h.events e hmem)
      · exact (hgrows _).made.subset hmade
    · exact (hgrows _).made.subset (h.events e (hw ▸ List.mem_cons_of_mem x he))
  · have hmade : ∀ f ∈ w.fired, f.ctx ∈ (w'.clients f.client).made := fun f hf =>
      (hgrows _).made.subset (h.fired f hf)
    rcases timedStep_cases hstep with ⟨_, _, _, _, _, hfired, _⟩ | ⟨_, x, rest, _, hw, _, rfl⟩
    · exact hfired ▸ hmade
    · refine List.forall_mem_append.2 ⟨hmade, List.forall_mem_singleton.2 ?_⟩
      exact (hgrows _).made.subset (h.events x (hw ▸ List.mem_cons_self))
  · rcases timedStep_cases hstep with
      ⟨_, _, _, _, _, hfired, _⟩ | ⟨now, e, rest, rfl, hw, hle, rfl⟩
    · intro f hf
      exact hold f (hfired ▸ hf)
    · simp only [OwnCallback, hw] at ha
      cases hpending : w.pending e.client e.ctx with
      | true =>
        obtain ⟨hfired, hgone⟩ := fire_own rest hpending (ha hle hpending)
        rw [PerCall, hfired]
        exact List.forall_mem_append.2 ⟨hold, List.forall_mem_singleton.2 ⟨fun _ => rfl, hgone⟩⟩
      | false =>
        refine List.forall_mem_append.2 ⟨hold, List.forall_mem_singleton.2 ⟨?_, ?_⟩⟩
        · exact fun hwas => absurd (hpending.symm.trans hwas) nofun
        · exact pending_of_grows (h.events e (hw ▸ List.mem_cons_self)) (hgrows _) hpending

/-- A step that fires with the callback of another call does not keep the property. -/
theorem timedStep_breaks (h : TimedInv w) (ha : ¬ OwnCallback w a)
    (hstep : timedStep T w a = some w') : ¬ PerCall w' := by
  cases a with
  | process now =>
    cases hw : w.events with
    | nil => simp [OwnCallback, hw] at ha
    | cons e rest =>
      simp only [OwnCallback, hw, Classical.not_imp] at ha
      obtain ⟨hle, hpending, hcb⟩ := ha
      simp only [timedStep, hw, if_pos hle] at hstep
      cases hstep
      obtain ⟨f, hf, hwas, hcompleted⟩ := fire_other h.keyed rest hcb
      intro hper
      exact hcompleted ((hper f hf).1 (hwas.trans hpending))
  | _ => exact absurd trivial ha

end Timed

/-- Whatever the clients of a process do: every event that fires for a pending call times out
that call and no other one, and no call whose event has fired stays pending, exactly when
each event that fires for a pending call finds the callback that belongs to it. -/
theorem timeouts_per_call_iff {R : Type} (T : Nat → Nat) (labels : List (TimedLabel R))
    (t : TimedClients R) (hrun : run (timedStep T) TimedClients.new labels = some t) :
    Always (timedStep T) PerCall TimedClients.new labels ↔
      Guarded (timedStep T) OwnCallback TimedClients.new labels :=
  always_iff_guarded (I := TimedInv) (Q := fun _ => True)
    (fun _ _ _ h _ ha hstep => timedStep_inv h ha hstep) (fun _ h => h.perCall)
    (fun _ _ _ h _ ha hstep => timedStep_breaks h ha hstep) new_timedInv (fun _ _ => trivial) hrun

/-- The first call of a process times out while a call of another client is answered. -/
theorem timeouts_per_call_first :
    let peer : NetPeerInfo := ⟨⟨"localhost", 80⟩, .tcp⟩
    let labels : List (TimedLabel Nat) := [.client 0 (.sendMessageAsync 1 peer),
      .client 0 (.register 1 peer), .capture 0 0, .client 5 (.sendMessageAsync 2 peer),
      .client 5 (.register 2 peer), .subscribe 5 0 3, .subscribe 0 0 4,
      .client 5 (.message 2 7), .process 20, .client 0 (.wake 0)]
    (run (timedStep fun _ => 10) TimedClients.new labels).map (fun t => t.fired) =
        some [⟨0, ⟨0, peer, 1⟩, true, some (0, ⟨0, peer, 1⟩, .timeout)⟩] ∧
      Always (timedStep fun _ => 10) PerCall TimedClients.new labels := by
  intro peer labels
  have hmap : (run (timedStep fun _ => 10) TimedClients.new labels).map (fun t => t.fired) =
      some [⟨0, ⟨0, peer, 1⟩, true, some (0, ⟨0, peer, 1⟩, .timeout)⟩] := by decide +kernel
  obtain ⟨t, hrun, _⟩ := Option.map_eq_some_iff.1 hmap
  exact ⟨hmap, (timeouts_per_call_iff _ labels t hrun).2 (by decide +kernel)⟩

/-- Two calls of one client: the event of the second one fires after the first one was
answered.  The callback looks for the first one, and the second one stays pending. -/
theorem second_call_never_times_out :
    let peer : NetPeerInfo := ⟨⟨"localhost", 80⟩, .tcp⟩
    let labels : List (TimedLabel Nat) := [.client 0 (.sendMessageAsync 1 peer),
      .client 0 (.register 1 peer), .capture 0 0, .subscribe 0 0 3,
      .client 0 (.sendMessageAsync 2 peer), .client 0 (.register 2 peer), .subscribe 0 1 4,
      .client 0 (.message 1 7), .process 20]
    ∃ t, run (timedStep fun _ => 10) TimedClients.new labels = some t ∧
      t.fired = [⟨0, ⟨1, peer, 2⟩, true, none⟩] ∧ t.pending 0 ⟨1, peer, 2⟩ = true ∧
      t.events = [] ∧ ¬ PerCall t := by
  intro peer labels
  obtain ⟨t, hrun, hfired, hpending, hevents⟩ :
      ∃ t ∈ run (timedStep fun _ => 10) TimedClients.new labels,
        t.fired = [⟨0, ⟨1, peer, 2⟩, true, none⟩] ∧ t.pending 0 ⟨1, peer, 2⟩ = true ∧
          t.events = [] := by
    decide +kernel
  refine ⟨t, hrun, hfired, hpending, hevents, ?_⟩
  intro hper
  have hf := (hper _ (hfired ▸ List.mem_cons_self)).2
  rw [hpending] at hf
  cases hf

end Rpc
end CCraft
