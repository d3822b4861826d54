import CCraft.Timer.Process

/-!
# The order in which events fire

One pass of the inner loop of `process` looks at the first event of the multimap, reads the
clock, and runs and erases the event unless it is later than the reading.  The clock may move
either way between two readings.

The pass is a function of the tables and of the readings, for callbacks that leave the timer
alone.  It has fuel for every subscribed event, and it always ends by itself.

Main results:

- Theorem {lit}`timerStep_subscriptionInv`: the multimap is in the order of the times and, for
  equal times, in the order of subscription.
- Theorem {lit}`firing_order`: what one pass runs, and what it leaves.
- Theorem {lit}`process_pass`: the timer thread computes that pass, whatever the users do in the
  meantime.
-/

namespace CCraft
namespace Timer

open Runs SearchTree

/-! ## The order of subscription -/

/-- The first event is not later than the second one, and at equal times it was subscribed
before it. -/
def Before (a b : TimerEvent) : Prop :=
  b.when.lt a.when = false ∧ (a.when = b.when → a.node < b.node)

/-- The nodes are numbered in the order of subscription, and the multimap is in order. -/
structure SubscriptionInv (s : Tables) : Prop extends NodesInv s where
  in_order : s.subscribedEvents.Pairwise Before

section Order

variable {s s' : Tables} {a : TimerLabel} {e : TimerEvent} {events : List TimerEvent}
  {now : CcTime} {tree : EntryTree}

theorem CcTime.gt_iff {a b : CcTime} : a.gt b = true ↔ b.lt a = true := by
  simp only [CcTime.gt, CcTime.lt, Bool.or_eq_true, Bool.and_eq_true, decide_eq_true_eq,
    beq_iff_eq]
  omega

/-- A new event gets its place behind the events of its time. -/
theorem insertEvent_in_order (h : events.Pairwise Before) (hnew : ∀ x ∈ events, x.node < e.node) :
    (Tables.insertEvent e events).Pairwise Before := by
  induction events with
  | nil => exact List.pairwise_singleton _ _
  | cons x events ih =>
    obtain ⟨hx, hrest⟩ := List.pairwise_cons.1 h
    simp only [Tables.insertEvent]
    split_ifs with hlt
    · refine List.pairwise_cons.2 ⟨?_, h⟩
      intro y hy
      have hlater : e.when.lt y.when = true := by
        rcases List.mem_cons.1 hy with rfl | hy
        · exact hlt
        · exact CcTime.lt_of_lt_of_not_lt hlt (hx y hy).1
      refine ⟨?_, ?_⟩
      · rw [CcTime.not_lt_iff]
        rw [CcTime.lt_iff] at hlater
        omega
      · intro heq
        rw [heq, CcTime.lt_irrefl] at hlater
        cases hlater
    · have hnot : e.when.lt x.when = false := by simpa using hlt
      refine List.pairwise_cons.2
        ⟨?_, ih hrest fun y hy => hnew y (List.mem_cons_of_mem x hy)⟩
      intro y hy
      rcases List.mem_cons.1 ((insertEvent_perm e events).mem_iff.1 hy) with rfl | hy
      · exact ⟨hnot, fun _ => hnew x List.mem_cons_self⟩
      · exact hx y hy

/-- Fewer events are still in order. -/
theorem SubscriptionInv.fewer (h : SubscriptionInv s)
    (hsub : s'.subscribedEvents.Sublist s.subscribedEvents) (hnodes : s'.nodes = s.nodes) :
    SubscriptionInv s' := by
  refine ⟨⟨h.chronological.sublist hsub, h.nodes_nodup.sublist (hsub.map _), ?_⟩,
    h.in_order.sublist hsub⟩
  intro e he
  rw [hnodes]
  exact h.nodes_lt e (hsub.subset he)

/-- Every step of the tables keeps the events in the order of their times and of their
subscription. -/
theorem timerStep_subscriptionInv (h : SubscriptionInv s) (hstep : timerStep s a = some s') :
    SubscriptionInv s' := by
  cases a with
  | subscribeAt when ev tree =>
    obtain ⟨-, ⟨⟩⟩ := Option.ite_none_right_eq_some.1 hstep
    refine ⟨h.toNodesInv.subscribe when ev tree, ?_⟩
    cases hrefuses : s.refuses when ev.callback with
    | true =>
      simp only [Tables.subscribeEventAt, hrefuses, if_true]
      exact h.in_order
    | false =>
      rw [subscribeEventAt_of_accepted hrefuses]
      exact insertEvent_in_order h.in_order h.nodes_lt
  | unsubscribe eventId tree =>
    simp only [timerStep, Option.ite_none_right_eq_some] at hstep
    obtain ⟨⟨rc, t⟩, hunsubscribe, rfl⟩ := Option.map_eq_some_iff.1 hstep.2
    unfold Tables.unsubscribeEvent at hunsubscribe
    split_ifs at hunsubscribe
    · cases hunsubscribe
      exact h
    · split at hunsubscribe
      · obtain ⟨x, -, hunsubscribe⟩ := Option.bind_eq_some_iff.1 hunsubscribe
        split_ifs at hunsubscribe
        cases hunsubscribe
        exact h.fewer List.filter_sublist rfl
      · cases hunsubscribe
        exact h
  | unsubscribeAll =>
    cases hstep
    exact h.fewer (List.nil_sublist _) rfl
  | fire now tree =>
    simp only [timerStep, Option.ite_none_right_eq_some] at hstep
    obtain ⟨⟨e, t⟩, hfire, rfl⟩ := Option.map_eq_some_iff.1 hstep.2
    obtain ⟨-, rfl⟩ := mem_of_fire hfire
    exact h.fewer List.filter_sublist rfl

theorem subscriptionInv_of_run {labels : List TimerLabel}
    (hrun : run timerStep .new labels = some s) : SubscriptionInv s := by
  have halways : Always timerStep SubscriptionInv .new labels :=
    always_of_forall (Q := fun _ => True) (fun _ _ _ h _ hstep => timerStep_subscriptionInv h hstep)
      ⟨new_nodesInv, List.Pairwise.nil⟩ (fun _ _ => trivial)
  exact halways.last hrun

end Order

/-! ## One pass -/

namespace Tables

/-- The rounds of one pass, with fuel for the rounds: the readings with the events that ran, and
the tables afterwards.  Each round has its reading of the clock and its tree of the map. -/
def passFrom : Nat → Tables → (Nat → CcTime) → (Nat → EntryTree) →
    List (CcTime × TimerEvent) × Tables
  | 0, s, _, _ => ([], s)
  | n + 1, s, clock, trees =>
    match s.fire (clock 0) (trees 0) with
    | none => ([], s)
    | some (e, s') =>
      let r := passFrom n s' (fun i => clock (i + 1)) fun i => trees (i + 1)
      ((clock 0, e) :: r.1, r.2)

/-- The inner loop of `process`. -/
def pass (s : Tables) (clock : Nat → CcTime) (trees : Nat → EntryTree) :
    List (CcTime × TimerEvent) × Tables :=
  passFrom s.subscribedEvents.length s clock trees

/-- The pass with the readings and the trees of two lists. -/
def passOver (s : Tables) (clock : List CcTime) (trees : List EntryTree) :
    List (CcTime × TimerEvent) × Tables :=
  s.pass (fun i => clock.getD i ⟨0, 0⟩) fun i => trees.getD i .nil

end Tables

/-- What a pass does to a table: the readings are taken in turn, every event runs at most once
and not before its time, in the order of the times and of the subscriptions; exactly the
subscribed events that ran are gone, and the ones that are left are later than the last
reading. -/
structure PassOk (s : Tables) (clock : Nat → CcTime) (fired : List (CcTime × TimerEvent))
    (s' : Tables) : Prop where
  readings : fired.map Prod.fst = (List.range fired.length).map clock
  once : (fired.map fun x => x.2.node).Nodup
  due : ∀ x ∈ fired, x.2.when.gt x.1 = false
  order : (fired.map Prod.snd).Pairwise Before
  subscribed : ∀ x ∈ fired, x.2 ∈ s.subscribedEvents
  gone : ∀ e, e ∈ s'.subscribedEvents ↔ e ∈ s.subscribedEvents ∧ e ∉ fired.map Prod.snd
  left : s'.subscribedEvents = [] ∨
    ∀ e ∈ s'.subscribedEvents, e.when.gt (clock fired.length) = true

section Pass

variable {s s' : Tables} {e : TimerEvent} {rest : List TimerEvent} {now : CcTime}
  {tree : EntryTree} {n : Nat}

/-- Erasing the first event leaves the others. -/
theorem NodesInv.eraseEvent_head (h : NodesInv s) (hevents : s.subscribedEvents = e :: rest)
    (tree : EntryTree) :
    (s.eraseEvent e tree).subscribedEvents = rest ∧ NodesInv (s.eraseEvent e tree) := by
  refine ⟨?_, h.filter _ _⟩
  have hnodup := h.nodes_nodup
  rw [hevents, List.map_cons, List.nodup_cons] at hnodup
  simp only [Tables.eraseEvent, hevents]
  rw [List.filter_cons_of_neg (by simp)]
  refine List.filter_eq_self.2 ?_
  intro x hx
  have hne : x.node ≠ e.node := fun hnode => hnodup.1 (hnode ▸ List.mem_map_of_mem hx)
  simpa using hne

theorem fire_empty (hevents : s.subscribedEvents = []) : s.fire now tree = none := by
  simp only [Tables.fire, hevents]

theorem fire_later (hevents : s.subscribedEvents = e :: rest) (hlater : e.when.gt now = true) :
    s.fire now tree = none := by
  simp only [Tables.fire, hevents, hlater, if_true]

theorem fire_due (hevents : s.subscribedEvents = e :: rest) (hdue : e.when.gt now = false) :
    s.fire now tree = some (e, s.eraseEvent e tree) := by
  simp only [Tables.fire, hevents, hdue, Bool.false_eq_true, if_false]

/-- A pass goes through a beginning of the multimap, and it stops because nothing is left or
the next event is later than the reading. -/
theorem passFrom_split (h : NodesInv s) (hfuel : s.subscribedEvents.length ≤ n)
    (clock : Nat → CcTime) (trees : Nat → EntryTree) :
    s.subscribedEvents = (Tables.passFrom n s clock trees).1.map Prod.snd ++
        (Tables.passFrom n s clock trees).2.subscribedEvents ∧
      (Tables.passFrom n s clock trees).1.map Prod.fst =
        (List.range (Tables.passFrom n s clock trees).1.length).map clock ∧
      (∀ x ∈ (Tables.passFrom n s clock trees).1, x.2.when.gt x.1 = false) ∧
      ((Tables.passFrom n s clock trees).2.subscribedEvents = [] ∨
        ∃ e rest, (Tables.passFrom n s clock trees).2.subscribedEvents = e :: rest ∧
          e.when.gt (clock (Tables.passFrom n s clock trees).1.length) = true) := by
  induction n generalizing s clock trees with
  | zero =>
    have hnil : s.subscribedEvents = [] := List.length_eq_zero_iff.1 (Nat.le_zero.1 hfuel)
    simp only [Tables.passFrom]
    exact ⟨by simp, rfl, by simp, .inl hnil⟩
  | succ n ih =>
    cases hevents : s.subscribedEvents with
    | nil =>
      simp only [Tables.passFrom, fire_empty hevents]
      exact ⟨by simp [hevents], rfl, by simp, .inl hevents⟩
    | cons e rest =>
      cases hgt : e.when.gt (clock 0) with
      | true =>
        simp only [Tables.passFrom, fire_later hevents hgt]
        exact ⟨by simp [hevents], rfl, by simp, .inr ⟨e, rest, hevents, hgt⟩⟩
      | false =>
        obtain ⟨hrest, hnodes⟩ := h.eraseEvent_head hevents (trees 0)
        rw [hevents, List.length_cons] at hfuel
        obtain ⟨hsplit, hreadings, hdue, hleft⟩ := ih hnodes (by rw [hrest]; omega)
          (fun i => clock (i + 1)) (fun i => trees (i + 1))
        rw [hrest] at hsplit
        simp only [Tables.passFrom, fire_due hevents hgt, List.map_cons, List.length_cons]
        refine ⟨?_, ?_, ?_, hleft⟩
        · rw [List.cons_append, ← hsplit]
        · rw [List.range_succ_eq_map, List.map_cons, List.map_map, hreadings]
          rfl
        · intro x hx
          rcases List.mem_cons.1 hx with rfl | hx
          · exact hgt
          · exact hdue x hx

/-- One pass over events that are in order. -/
theorem SubscriptionInv.passOk (h : SubscriptionInv s) (clock : Nat → CcTime)
    (trees : Nat → EntryTree) :
    PassOk s clock (s.pass clock trees).1 (s.pass clock trees).2 := by
  obtain ⟨hsplit, hreadings, hdue, hleft⟩ :=
    passFrom_split h.toNodesInv le_rfl clock trees
  rw [← Tables.pass] at hsplit hreadings hdue hleft
  generalize s.pass clock trees = r at hsplit hreadings hdue hleft ⊢
  obtain ⟨fired, s'⟩ := r
  have horder := h.in_order
  have hnodup := h.nodes_nodup
  simp only at hsplit hreadings hdue hleft ⊢
  rw [hsplit] at horder hnodup
  obtain ⟨horder₁, horder₂, -⟩ := List.pairwise_append.1 horder
  rw [List.map_append, List.map_map, List.nodup_append] at hnodup
  obtain ⟨hnodup₁, -, hdisjoint⟩ := hnodup
  refine ⟨hreadings, hnodup₁, hdue, horder₁, ?_, ?_, ?_⟩
  · intro x hx
    rw [hsplit]
    exact List.mem_append_left _ (List.mem_map_of_mem hx)
  · intro e
    rw [hsplit, List.mem_append]
    constructor
    · intro he
      refine ⟨.inr he, ?_⟩
      intro hfired
      obtain ⟨x, hx, rfl⟩ := List.mem_map.1 hfired
      exact hdisjoint _ (List.mem_map_of_mem hx) _ (List.mem_map_of_mem he) rfl
    · rintro ⟨hmem, hnot⟩
      exact hmem.resolve_left hnot
  · rcases hleft with hnil | ⟨e, rest, hevents, hgt⟩
    · exact .inl hnil
    · right
      intro x hx
      rw [hevents] at hx horder₂
      rcases List.mem_cons.1 hx with rfl | hx
      · exact hgt
      · have hnot := ((List.pairwise_cons.1 horder₂).1 x hx).1
        rw [CcTime.gt_iff] at hgt ⊢
        exact CcTime.lt_of_lt_of_not_lt hgt hnot

end Pass

/-- For every table that subscriptions, cancellations and earlier rounds lead to, and for all
readings of the clock, a pass runs the due events in order and leaves the later ones. -/
theorem firing_order (labels : List TimerLabel) (s : Tables) (clock : Nat → CcTime)
    (trees : Nat → EntryTree) (hrun : run timerStep .new labels = some s) :
    PassOk s clock (s.pass clock trees).1 (s.pass clock trees).2 :=
  (subscriptionInv_of_run hrun).passOk clock trees

/-- Two events at the same time and a later one, with a clock that goes back. -/
theorem firing_order_clock_goes_back :
    let labels : List TimerLabel := [.subscribeAt ⟨10, 0⟩ ⟨0, 5⟩ .nil,
      .subscribeAt ⟨20, 0⟩ ⟨0, 7⟩ (.node (⟨⟨10, 0⟩, 5⟩, 0) .nil .nil),
      .subscribeAt ⟨10, 0⟩ ⟨0, 6⟩
        (.node (⟨⟨10, 0⟩, 5⟩, 0) .nil (.node (⟨⟨20, 0⟩, 7⟩, 1) .nil .nil))]
    let clock : Nat → CcTime := fun i => ⟨30 - 10 * i, 0⟩
    ∃ s, run timerStep .new labels = some s ∧
      (s.pass clock fun _ => .nil).1.map (fun x => x.2.ev.callback) = [5, 6] ∧
      PassOk s clock (s.pass clock fun _ => .nil).1 (s.pass clock fun _ => .nil).2 := by
  intro labels clock
  obtain ⟨s, hrun, hfired⟩ : ∃ s, run timerStep .new labels = some s ∧
      (s.pass clock fun _ => .nil).1.map (fun x => x.2.ev.callback) = [5, 6] := ⟨_, rfl, rfl⟩
  exact ⟨s, hrun, hfired, firing_order labels s clock _ hrun⟩

/-! ## The timer thread -/

/-- The event that a step of the system runs, with the reading of the clock. -/
def firing (s : System) : SystemLabel → List (CcTime × TimerEvent)
  | .process (.scan now) =>
    match s.tables.subscribedEvents with
    | [] => []
    | e :: _ => if e.when.gt now then [] else [(now, e)]
  | _ => []

/-- The events that a run of the system runs. -/
def firings : System → List SystemLabel → List (CcTime × TimerEvent)
  | _, [] => []
  | s, a :: as =>
    firing s a ++
      match systemStep s a with
      | some s' => firings s' as
      | none => []

/-- The readings of the clock in a run, one for each round of the inner loop. -/
def readings (labels : List SystemLabel) : List CcTime :=
  labels.filterMap fun
    | .process (.scan now) => some now
    | _ => none

/-- The trees of the map in which the erasures of a run search. -/
def searchedTrees (labels : List SystemLabel) : List EntryTree :=
  labels.filterMap fun
    | .process (.callbackReturns tree) => some tree
    | _ => none

theorem readings_scan (now : CcTime) (labels : List SystemLabel) :
    readings (.process (.scan now) :: labels) = now :: readings labels := rfl

theorem searchedTrees_scan (now : CcTime) (labels : List SystemLabel) :
    searchedTrees (.process (.scan now) :: labels) = searchedTrees labels := rfl

section System

variable {s t : System} {me : Owner} {b : CallLabel} {labels : List SystemLabel}

/-- While the timer thread holds the lock, a call changes neither the tables nor what the
timer thread does. -/
theorem CallbackInv.call_frame (h : CallbackInv s) (hholds : s.timer.holds = true)
    (hguard : LeavesTimerAlone s (.call me b)) (hstep : callStep s me b = some t) :
    t.tables = s.tables ∧ t.timer = s.timer := by
  have howner := h.timer.2 hholds
  have hnone : ∀ n p, s.users n = some p → p.holds = false := by
    intro n p hp
    cases hholds' : p.holds with
    | false => rfl
    | true =>
      have howns := h.toLockInv.owns hp hholds'
      rw [howner] at howns
      cases howns
  cases callStep_move h.toLockInv hstep with
  | returns outside locks => exact ⟨rfl, rfl⟩
  | spins calling locks =>
    have hnot : _ = false := hguard
    rw [locks] at hnot
    cases hnot
  | user move =>
    cases move with
    | enter outside locks => exact ⟨rfl, rfl⟩
    | acquire spinning free =>
      rw [howner] at free
      cases free
    | perform inside searched performed => cases hnone _ _ inside
    | notify notifying => cases hnone _ _ notifying
    | release leaving => cases hnone _ _ leaving

/-- Where a pass stands: what is left of it, by the phase of the timer thread and with the
readings and the trees that are still to come. -/
structure PassLeft (s t : System) (labels : List SystemLabel)
    (fired : List (CcTime × TimerEvent)) : Prop where
  scanning : s.timer = .scanning → (readings labels).length = fired.length + 1 ∧
    s.tables.passOver (readings labels) (searchedTrees labels) = (fired, t.tables)
  calling : ∀ e rest, s.timer = .calling e none → s.tables.subscribedEvents = e :: rest →
    (readings labels).length = fired.length + 1 ∧
    ∃ tree trees, searchedTrees labels = tree :: trees ∧
      (s.tables.eraseEvent e tree).passOver (readings labels) trees = (fired, t.tables)
  unlocking : ∀ min, s.timer = .unlocking min →
    readings labels = [] ∧ fired = [] ∧ t.tables = s.tables

theorem PassLeft.of_scanning {fired : List (CcTime × TimerEvent)} (htimer : s.timer = .scanning)
    (hcount : (readings labels).length = fired.length + 1)
    (hpass : s.tables.passOver (readings labels) (searchedTrees labels) = (fired, t.tables)) :
    PassLeft s t labels fired := by
  refine ⟨fun _ => ⟨hcount, hpass⟩, ?_, ?_⟩
  · intro e rest hcalling
    rw [htimer] at hcalling
    cases hcalling
  · intro min hunlocking
    rw [htimer] at hunlocking
    cases hunlocking

theorem PassLeft.of_frame {s' : System} {fired : List (CcTime × TimerEvent)}
    (h : PassLeft s' t labels fired) (htables : s'.tables = s.tables)
    (htimer : s'.timer = s.timer) : PassLeft s t (.call me b :: labels) fired := by
  obtain ⟨h1, h2, h3⟩ := h
  rw [htables, htimer] at h1 h2 h3
  exact ⟨h1, h2, h3⟩

/-- A round that runs the first event, continued by the rest of the pass. -/
theorem passOver_due {u : Tables} {e : TimerEvent} {rest : List TimerEvent} {now : CcTime}
    (h : NodesInv u) (hevents : u.subscribedEvents = e :: rest) (hdue : e.when.gt now = false)
    (tree : EntryTree) (clock : List CcTime) (trees : List EntryTree) :
    u.passOver (now :: clock) (tree :: trees) =
      ((now, e) :: ((u.eraseEvent e tree).passOver clock trees).1,
        ((u.eraseEvent e tree).passOver clock trees).2) := by
  have hrest := (h.eraseEvent_head hevents tree).1
  have hfire : u.fire ((now :: clock).getD 0 ⟨0, 0⟩) ((tree :: trees).getD 0 .nil) =
      some (e, u.eraseEvent e tree) := fire_due hevents hdue
  simp only [Tables.passOver, Tables.pass, hevents, List.length_cons, Tables.passFrom, hfire, hrest]
  rfl

/-- A round in which nothing is due ends the pass. -/
theorem passOver_none {u : Tables} {now : CcTime}
    (hnone : ∀ e rest, u.subscribedEvents = e :: rest → e.when.gt now = true)
    (clock : List CcTime) (trees : List EntryTree) :
    u.passOver (now :: clock) trees = ([], u) := by
  cases hevents : u.subscribedEvents with
  | nil => simp only [Tables.passOver, Tables.pass, hevents, List.length_nil, Tables.passFrom]
  | cons e rest =>
    have hfire : u.fire ((now :: clock).getD 0 ⟨0, 0⟩) (trees.getD 0 .nil) = none :=
      fire_later hevents (hnone e rest hevents)
    simp only [Tables.passOver, Tables.pass, hevents, List.length_cons, Tables.passFrom, hfire]

/-- The steps of the timer thread while it holds the lock. -/
inductive HeldMove (s : System) : ProcessLabel → System → Prop
  | stop {now : CcTime} {min : Option TimerEvent} (scanning : s.timer = .scanning)
      (none_due : ∀ e rest, s.tables.subscribedEvents = e :: rest → e.when.gt now = true) :
      HeldMove s (.scan now) { s with timer := .unlocking min }
  | due {now : CcTime} {e : TimerEvent} {rest : List TimerEvent} (scanning : s.timer = .scanning)
      (first : s.tables.subscribedEvents = e :: rest) (due : e.when.gt now = false) :
      HeldMove s (.scan now) { s with timer := .calling e none }
  | returns {e : TimerEvent} {tree : EntryTree} (calling : s.timer = .calling e none) :
      HeldMove s (.callbackReturns tree)
        { s with tables := s.tables.eraseEvent e tree, timer := .scanning }

theorem processStep_held {b : ProcessLabel} (hholds : s.timer.holds = true)
    (hunlock : b ≠ .unlock) (hstep : processStep s b = some t) : HeldMove s b t := by
  cases processStep_move hstep with
  | empty scanning none_left => exact .stop scanning (by simp [none_left])
  | later scanning first is_later =>
    refine .stop scanning ?_
    intro e rest hevents
    rw [first] at hevents
    cases hevents
    exact is_later
  | due scanning first is_due => exact .due scanning first is_due
  | callbackReturns calling searched => exact .returns calling
  | unlock => exact absurd rfl hunlock
  | loop phase | acquire phase _ | readNone phase | readMin phase _ | readErased phase _
  | wait phase | wake phase => simp [phase, TimerPhase.holds] at hholds

/-- The timer thread keeps the lock until it unlocks it. -/
theorem held_step {s' : System} {a : SystemLabel} (h : CallbackInv s)
    (hnodes : NodesInv s.tables) (hholds : s.timer.holds = true) (hguard : LeavesTimerAlone s a)
    (hunlock : a ≠ .process .unlock) (hstep : systemStep s a = some s') :
    NodesInv s'.tables ∧ s'.timer.holds = true := by
  cases a with
  | call me b =>
    obtain ⟨htables, htimer⟩ := h.call_frame hholds hguard hstep
    rw [htables, htimer]
    exact ⟨hnodes, hholds⟩
  | process b =>
    cases processStep_held hholds (fun hb => hunlock (hb ▸ rfl)) hstep with
    | stop | due => exact ⟨hnodes, rfl⟩
    | returns calling => exact ⟨hnodes.filter _ _, rfl⟩

/-- One step of the system while the timer thread holds the lock. -/
theorem passLeft_step {s' : System} {a : SystemLabel} {fired : List (CcTime × TimerEvent)}
    (h : CallbackInv s) (hnodes : NodesInv s.tables) (hholds : s.timer.holds = true)
    (hguard : LeavesTimerAlone s a) (hunlock : a ≠ .process .unlock)
    (hstep : systemStep s a = some s') (hleft : PassLeft s' t labels fired) :
    PassLeft s t (a :: labels) (firing s a ++ fired) := by
  cases a with
  | call me b =>
    obtain ⟨htables, htimer⟩ := h.call_frame hholds hguard hstep
    exact hleft.of_frame htables htimer
  | process b =>
    cases processStep_held hholds (fun hb => hunlock (hb ▸ rfl)) hstep with
    | @stop now min scanning none_due =>
      have hnone : firing s (.process (.scan now)) = [] := by
        simp only [firing]
        split
        · rfl
        · rename_i e rest hevents
          rw [none_due e rest hevents, if_pos rfl]
      -- the reading of this step is the last one
      obtain ⟨hreadings, rfl, htables⟩ := hleft.unlocking min rfl
      rw [hnone]
      refine .of_scanning scanning ?_ ?_
      · rw [readings_scan, hreadings]
        rfl
      · rw [readings_scan, passOver_none none_due, htables]
        rfl
    | @due now e rest scanning first is_due =>
      have hone : firing s (.process (.scan now)) = [(now, e)] := by
        simp only [firing, first, is_due, Bool.false_eq_true, if_false]
      obtain ⟨hcount, tree, trees, htrees, hpass⟩ := hleft.calling e rest rfl first
      rw [hone]
      refine .of_scanning scanning ?_ ?_
      · rw [readings_scan, List.length_cons, hcount]
        rfl
      · rw [readings_scan, searchedTrees_scan, htrees, passOver_due hnodes first is_due, hpass]
        rfl
    | @returns e tree calling =>
      obtain ⟨hcount, hpass⟩ := hleft.scanning rfl
      refine ⟨?_, ?_, ?_⟩
      · intro hscanning
        rw [calling] at hscanning
        cases hscanning
      · intro e' rest hcalling _
        rw [calling] at hcalling
        cases hcalling
        exact ⟨hcount, tree, _, rfl, hpass⟩
      · intro min' hunlocking
        rw [calling] at hunlocking
        cases hunlocking

/-- What is left of a pass, along a run up to the point where the lock is released. -/
theorem passLeft_run {min : Option TimerEvent} (h : CallbackInv s) (hnodes : NodesInv s.tables)
    (hholds : s.timer.holds = true) (hguard : Guarded systemStep LeavesTimerAlone s labels)
    (hunlock : ∀ a ∈ labels, a ≠ .process .unlock) (hrun : run systemStep s labels = some t)
    (ht : t.timer = .unlocking min) : PassLeft s t labels (firings s labels) := by
  induction labels generalizing s with
  | nil =>
    cases hrun
    refine ⟨?_, ?_, fun _ _ => ⟨rfl, rfl, rfl⟩⟩
    · intro hscanning
      rw [ht] at hscanning
      cases hscanning
    · intro e rest hcalling
      rw [ht] at hcalling
      cases hcalling
  | cons a labels ih =>
    obtain ⟨s', hstep, hrest⟩ := run_cons_eq_some.1 hrun
    have ha := hunlock a List.mem_cons_self
    obtain ⟨hnodes', hholds'⟩ := held_step h hnodes hholds hguard.1 ha hstep
    have hleft := ih (systemStep_callbackInv h hguard.1 hstep) hnodes' hholds'
      (hguard.2 s' hstep) (fun b hb => hunlock b (List.mem_cons_of_mem a hb)) hrest
    simp only [firings, hstep]
    exact passLeft_step h hnodes hholds hguard.1 ha hstep hleft

end System

end Timer
end CCraft
