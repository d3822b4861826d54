import CCraft.Timer.Process

/-!
# Wake-ups of the timer thread

The timer thread waits until the time of its first event, or without a deadline when there is
none.  A subscription that becomes the first event notifies it.  Between the release of the
spin lock and the start of the wait there is a gap in which nobody can be notified: the mutex
of the wait is never taken by the subscribers.

Main results:

- Theorem {lit}`systemStep_wakeInv`: as long as no subscription in the gap is for a time before the
  deadline of the coming wait, the deadline covers every event.
- Theorem {lit}`no_lost_wake_up`: in runs of that kind no wake-up is lost; every other run has a
  beginning that can be continued to a wait that no notification will end in time.
-/

namespace CCraft
namespace Timer

open Runs SearchTree

/-! ## Deadlines -/

/-- A wait with the deadline is over before any event is late; without a deadline there must be
no event. -/
def Covers (deadline : Option CcTime) (events : List TimerEvent) : Prop :=
  match deadline with
  | none => events = []
  | some t => ∀ e ∈ events, e.when.lt t = false

/-- When the timer thread waits and no notification is pending, there is no event, or the
thread waits with a deadline that is not later than the earliest one. -/
def NoLostWakeUp (s : System) : Prop :=
  ∀ deadline, s.timer = .waiting deadline false → (∀ n, s.users n ≠ some .notifying) →
    s.tables.subscribedEvents = [] ∨
      ∃ t, deadline = some t ∧ ∀ e ∈ s.tables.subscribedEvents, e.when.lt t = false

/-- The deadline of the coming wait, in the gap between the release of the lock and the start
of the wait; a time that can no longer be read is not one. -/
def System.gap (s : System) : Option (Option CcTime) :=
  match s.timer with
  | .unlocked none => some none
  | .unlocked (some min) =>
    if s.tables.subscribedEvents.any fun e => e.node == min.node then some (some min.when)
    else none
  | .ready deadline => some deadline
  | _ => none

/-- An event at that time would come before the deadline of the coming wait. -/
def System.misses (s : System) (when : CcTime) : Bool :=
  match s.gap with
  | none => false
  | some none => true
  | some (some t) => when.lt t

/-- The step subscribes such an event. -/
def SubscribesInGap (s : System) : SystemLabel → Bool
  | .call me (.perform _) =>
    match s.callOf me with
    | some (some (.inside (.subscribeAt when ev))) =>
      !s.tables.refuses when ev.callback && s.misses when
    | _ => false
  | _ => false

/-- No subscription in the gap is for a time before the deadline of the coming wait. -/
def GapRespected (s : System) (a : SystemLabel) : Prop :=
  SubscribesInGap s a = false

instance (s : System) (a : SystemLabel) : Decidable (GapRespected s a) :=
  inferInstanceAs (Decidable (_ = false))

/-- The invariant: what the timer thread knows of the first event while it goes to wait. -/
structure WakeInv (s : System) : Prop extends LockInv s where
  nodes : NodesInv s.tables
  unlocking : ∀ min, s.timer = .unlocking min → s.tables.subscribedEvents.head? = min
  unlocked_none : s.timer = .unlocked none → s.tables.subscribedEvents = []
  unlocked_min : ∀ min, s.timer = .unlocked (some min) → min.node < s.tables.nodes ∧
    (∀ e ∈ s.tables.subscribedEvents, e.node = min.node → e = min) ∧
    (min ∈ s.tables.subscribedEvents → Covers (some min.when) s.tables.subscribedEvents)
  ready : ∀ deadline, s.timer = .ready deadline → Covers deadline s.tables.subscribedEvents
  waiting : ∀ deadline, s.timer = .waiting deadline false →
    Covers deadline s.tables.subscribedEvents ∨ ∃ n, s.users n = some .notifying

section Steps

variable {s t : System} {a : SystemLabel} {n : Nat} {deadline : Option CcTime}

theorem start_wakeInv : WakeInv .start := by
  refine ⟨start_lockInv, new_nodesInv, ?_, ?_, ?_, ?_, ?_⟩
  · nofun
  · nofun
  · nofun
  · nofun
  · nofun

theorem Covers.mono {events events' : List TimerEvent} (h : Covers deadline events)
    (hsub : ∀ e ∈ events', e ∈ events) : Covers deadline events' := by
  cases deadline with
  | none =>
    have hnil : events = [] := h
    refine List.eq_nil_iff_forall_not_mem.2 ?_
    intro e he
    have hmem := hsub e he
    rw [hnil] at hmem
    cases hmem
  | some t => exact fun e he => h e (hsub e he)

theorem WakeInv.noLostWakeUp (h : WakeInv s) : NoLostWakeUp s := by
  intro deadline hwaiting hnone
  rcases h.waiting deadline hwaiting with hcovers | ⟨n, hn⟩
  · cases deadline with
    | none => exact .inl hcovers
    | some t => exact .inr ⟨t, rfl, hcovers⟩
  · exact absurd hn (hnone n)

/-! ## What calls do to the events -/

/-- A call takes events away, or adds one event that it has been asked for. -/
inductive TablesMove (s : System) (c : Call) (first : Bool) (t : System) : Prop
  | fewer (nodes : t.tables.nodes = s.tables.nodes)
      (subset : ∀ e ∈ t.tables.subscribedEvents, e ∈ s.tables.subscribedEvents)
  | added {when : CcTime} {ev : Event} (call : c = .subscribeAt when ev)
      (accepted : s.tables.refuses when ev.callback = false)
      (nodes : t.tables.nodes = s.tables.nodes + 1)
      (events : t.tables.subscribedEvents =
        Tables.insertEvent ⟨s.tables.nodes, when, ev⟩ s.tables.subscribedEvents)
      (notifies : first = true ↔
        t.tables.subscribedEvents.head?.map TimerEvent.node = some s.tables.nodes)

theorem unsubscribeEvent_fewer {tables : Tables} {eventId : EventId} {tree : EntryTree}
    {r : Bool × Tables} (h : tables.unsubscribeEvent eventId tree = some r)
    (hnodes : NodesInv tables) : NodesInv r.2 ∧ r.2.nodes = tables.nodes ∧
      ∀ e ∈ r.2.subscribedEvents, e ∈ tables.subscribedEvents := by
  unfold Tables.unsubscribeEvent at h
  split_ifs at h
  · cases h
    exact ⟨hnodes, rfl, fun _ he => he⟩
  · split at h
    case h_1 i _ =>
      obtain ⟨x, -, h⟩ := Option.bind_eq_some_iff.1 h
      split_ifs at h
      cases h
      exact ⟨hnodes.filter _ _, rfl, fun e he => List.mem_of_mem_filter he⟩
    case h_2 =>
      cases h
      exact ⟨hnodes, rfl, fun _ he => he⟩

theorem perform_tables {c : Call} {tree : EntryTree} {first : Bool} (hnodes : NodesInv s.tables)
    (h : s.perform c tree = some (first, t)) : NodesInv t.tables ∧ TablesMove s c first t := by
  cases c with
  | subscribeAt when ev =>
    obtain ⟨hfirst, rfl⟩ := Prod.mk.inj (Option.some.inj h)
    refine ⟨hnodes.subscribe when ev tree, ?_⟩
    cases hrefuses : s.tables.refuses when ev.callback with
    | true =>
      have hsame : (s.tables.subscribeEventAt when ev tree).2 = s.tables := by
        simp only [Tables.subscribeEventAt, hrefuses, if_true]
      exact .fewer (congrArg Tables.nodes hsame) (by simp only [hsame]; exact fun _ he => he)
    | false =>
      have hsame : s.tables.subscribeEventAt when ev tree = _ :=
        subscribeEventAt_of_accepted hrefuses
      refine .added rfl hrefuses (by rw [hsame]) (by rw [hsame]) ?_
      rw [← hfirst]
      simp [hrefuses]
  | unsubscribe eventId =>
    obtain ⟨r, hr, h⟩ := Option.map_eq_some_iff.1 h
    cases h
    obtain ⟨hinv, heq, hsub⟩ := unsubscribeEvent_fewer hr hnodes
    exact ⟨hinv, .fewer heq hsub⟩
  | unsubscribeAll =>
    cases h
    exact ⟨(unsubscribeAllEvent_inv _).toNodesInv,
      .fewer rfl (by simp [Tables.unsubscribeAllEvent])⟩
  | stop =>
    cases h
    exact ⟨hnodes, .fewer rfl fun _ he => he⟩

/-! ## Steps that respect the gap -/

/-- A thread that performs its call is alone with the lock. -/
theorem LockInv.inside_alone {c : Call} (h : LockInv s) (hinside : s.users n = some (.inside c)) :
    s.timer.holds = false ∧ ∀ m, s.users m ≠ some .notifying := by
  have howner := h.owns hinside rfl
  constructor
  · have hnot : ¬ s.timer.holds = true := by
      intro hholds
      rw [← h.timer, howner] at hholds
      cases hholds
    simpa using hnot
  · intro m hm
    have hother := h.owns hm rfl
    rw [howner, Option.some.injEq, Owner.user.injEq] at hother
    rw [← hother, hinside] at hm
    cases hm

/-- Fewer events are covered by the same deadline. -/
theorem WakeInv.fewer (h : WakeInv s) (hlock : LockInv t) (hnodes : NodesInv t.tables)
    (htimer : t.timer = s.timer) (hholds : s.timer.holds = false)
    (hquiet : ∀ m, s.users m ≠ some .notifying) (hsame : t.tables.nodes = s.tables.nodes)
    (hsub : ∀ e ∈ t.tables.subscribedEvents, e ∈ s.tables.subscribedEvents) : WakeInv t := by
  refine ⟨hlock, hnodes, ?_, ?_, ?_, ?_, ?_⟩
  · intro min hmin
    rw [htimer] at hmin
    rw [hmin] at hholds
    cases hholds
  · intro hnone
    rw [htimer] at hnone
    have hcovers : Covers none s.tables.subscribedEvents := h.unlocked_none hnone
    exact hcovers.mono hsub
  · intro min hmin
    rw [htimer] at hmin
    obtain ⟨hlt, huniq, hcovers⟩ := h.unlocked_min min hmin
    exact ⟨by rw [hsame]; exact hlt, fun e he => huniq e (hsub e he),
      fun hmem => (hcovers (hsub min hmem)).mono hsub⟩
  · intro deadline hready
    rw [htimer] at hready
    exact (h.ready deadline hready).mono hsub
  · intro deadline hwaiting
    rw [htimer] at hwaiting
    rcases h.waiting deadline hwaiting with hcovers | ⟨m, hm⟩
    · exact .inl (hcovers.mono hsub)
    · exact absurd hm (hquiet m)

/-- A covered list stays covered when an event is added that is not before the deadline. -/
theorem covers_insertEvent {e : TimerEvent} {events : List TimerEvent} {t : CcTime}
    (h : Covers (some t) events) (he : e.when.lt t = false) :
    Covers (some t) (Tables.insertEvent e events) := by
  intro x hx
  rcases List.mem_cons.1 ((insertEvent_perm e events).mem_iff.1 hx) with rfl | hx
  · exact he
  · exact h x hx

/-- An event that does not become the first one is not before the deadline that covers the other
ones. -/
theorem covers_of_not_first {e : TimerEvent} {events : List TimerEvent}
    (h : Covers deadline events) (hfirst : (Tables.insertEvent e events).head? ≠ some e) :
    Covers deadline (Tables.insertEvent e events) := by
  cases events with
  | nil => exact absurd rfl hfirst
  | cons x events =>
    cases deadline with
    | none => cases h
    | some t =>
      refine covers_insertEvent h ?_
      by_cases hlt : e.when.lt x.when = true
      · simp [Tables.insertEvent, hlt] at hfirst
      · exact CcTime.not_lt_trans (h x (by simp)) (by simpa using hlt)

theorem unlocked_any_iff {events : List TimerEvent} {min : TimerEvent}
    (huniq : ∀ e ∈ events, e.node = min.node → e = min) :
    events.any (fun e => e.node == min.node) = true ↔ min ∈ events := by
  rw [List.any_eq_true]
  constructor
  · rintro ⟨e, he, hnode⟩
    rwa [← huniq e he (by simpa using hnode)]
  · intro hmem
    exact ⟨min, hmem, by simp⟩

/-- An event that is added where the gap allows it. -/
theorem WakeInv.added (h : WakeInv s) (hlock : LockInv t) (hnodes : NodesInv t.tables)
    (htimer : t.timer = s.timer) (hholds : s.timer.holds = false)
    (hquiet : ∀ m, s.users m ≠ some .notifying) {when : CcTime} {ev : Event}
    (hmisses : s.misses when = false) (hcount : t.tables.nodes = s.tables.nodes + 1)
    (hevents : t.tables.subscribedEvents =
      Tables.insertEvent ⟨s.tables.nodes, when, ev⟩ s.tables.subscribedEvents)
    (hnotifies : t.tables.subscribedEvents.head?.map TimerEvent.node = some s.tables.nodes →
      t.users n = some .notifying) : WakeInv t := by
  refine ⟨hlock, hnodes, ?_, ?_, ?_, ?_, ?_⟩
  · intro min hmin
    rw [htimer] at hmin
    rw [hmin] at hholds
    cases hholds
  · intro hnone
    rw [htimer] at hnone
    simp [System.misses, System.gap, hnone] at hmisses
  · intro min hmin
    rw [htimer] at hmin
    obtain ⟨hlt, huniq, hcovers⟩ := h.unlocked_min min hmin
    have hperm := insertEvent_perm ⟨s.tables.nodes, when, ev⟩ s.tables.subscribedEvents
    have hne : (⟨s.tables.nodes, when, ev⟩ : TimerEvent).node ≠ min.node := by
      simp only
      omega
    rw [hcount, hevents]
    refine ⟨by omega, ?_, ?_⟩
    · intro e he hnode
      rcases List.mem_cons.1 (hperm.mem_iff.1 he) with rfl | he
      · exact absurd hnode hne
      · exact huniq e he hnode
    · intro hmem
      rcases List.mem_cons.1 (hperm.mem_iff.1 hmem) with rfl | hmem
      · exact absurd rfl hne
      · have hany := (unlocked_any_iff huniq).2 hmem
        refine covers_insertEvent (hcovers hmem) ?_
        simpa [System.misses, System.gap, hmin, hany] using hmisses
  · intro deadline hready
    rw [htimer] at hready
    rw [hevents]
    have hcovers := h.ready deadline hready
    cases deadline with
    | none => simp [System.misses, System.gap, hready] at hmisses
    | some t =>
      refine covers_insertEvent hcovers ?_
      simpa [System.misses, System.gap, hready] using hmisses
  · intro deadline hwaiting
    rw [htimer] at hwaiting
    by_cases hfirst : t.tables.subscribedEvents.head?.map TimerEvent.node = some s.tables.nodes
    · exact .inr ⟨n, hnotifies hfirst⟩
    · refine .inl ?_
      have hcovers := (h.waiting deadline hwaiting).resolve_right fun hm =>
        hquiet hm.choose hm.choose_spec
      rw [hevents] at hfirst ⊢
      refine covers_of_not_first hcovers ?_
      intro hhead
      rw [hhead] at hfirst
      exact hfirst rfl

/-- A notification reaches the timer thread, or changes nothing. -/
theorem notifyOne_cases (s : System) :
    (∃ deadline notified, s.timer = .waiting deadline notified ∧
      s.notifyOne = { s with timer := .waiting deadline true }) ∨
    ((∀ deadline notified, s.timer ≠ .waiting deadline notified) ∧ s.notifyOne = s) := by
  unfold System.notifyOne
  cases s.timer with
  | waiting deadline notified => exact .inl ⟨deadline, notified, rfl, rfl⟩
  | _ => exact .inr ⟨by simp, rfl⟩

/-- A phase of the timer thread that knows nothing of the events. -/
theorem WakeInv.ofPhase (hlock : LockInv t) (hnodes : NodesInv t.tables)
    (hunlocking : ∀ min, t.timer ≠ .unlocking min) (hunlocked : ∀ min, t.timer ≠ .unlocked min)
    (hready : ∀ deadline, t.timer ≠ .ready deadline)
    (hwaiting : ∀ deadline, t.timer ≠ .waiting deadline false) : WakeInv t :=
  ⟨hlock, hnodes, fun min h => absurd h (hunlocking min), fun h => absurd h (hunlocked none),
    fun min h => absurd h (hunlocked (some min)), fun deadline h => absurd h (hready deadline),
    fun deadline h => absurd h (hwaiting deadline)⟩

/-- A step of a user thread that respects the gap keeps the invariant. -/
theorem userMove_wakeInv {b : CallLabel} (h : WakeInv s)
    (hguard : GapRespected s (.call (.user n) b)) (hmove : UserMove s n b t) : WakeInv t := by
  have hlock : LockInv t := userMove_lockInv h.toLockInv hmove
  -- a thread that was not about to notify leaves those that are
  have hkeep : ∀ call : Option CallPhase, s.users n ≠ some .notifying →
      (∃ m, s.users m = some .notifying) →
        ∃ m, Function.update s.users n call m = some .notifying := by
    rintro call hn ⟨m, hm⟩
    refine ⟨m, ?_⟩
    have hne : m ≠ n := fun hmn => hn (hmn ▸ hm)
    rw [Function.update_of_ne hne]
    exact hm
  cases hmove with
  | enter outside locks =>
    exact ⟨hlock, h.nodes, h.unlocking, h.unlocked_none, h.unlocked_min, h.ready,
      fun deadline hw => (h.waiting deadline hw).imp_right (hkeep _ (by simp [outside]))⟩
  | acquire spinning free =>
    exact ⟨hlock, h.nodes, h.unlocking, h.unlocked_none, h.unlocked_min, h.ready,
      fun deadline hw => (h.waiting deadline hw).imp_right (hkeep _ (by simp [spinning]))⟩
  | perform inside searched performed =>
    rename_i c tree first u
    obtain ⟨hholds, hquiet⟩ := h.toLockInv.inside_alone inside
    obtain ⟨-, -, htimer⟩ := perform_frame performed
    obtain ⟨hnodes, htables⟩ := perform_tables h.nodes performed
    cases htables with
    | fewer hsame hsub => exact h.fewer hlock hnodes htimer hholds hquiet hsame hsub
    | added hcall haccepted hcount hevents hnotifies =>
      rename_i when ev
      subst hcall
      have hmisses : s.misses when = false := by
        simpa [GapRespected, SubscribesInGap, System.callOf, inside, haccepted] using hguard
      refine h.added (n := n) hlock hnodes htimer hholds hquiet hmisses hcount hevents ?_
      intro hfirst
      simp [hnotifies.2 hfirst]
  | notify notifying =>
    rcases notifyOne_cases s with ⟨d, notified, -, hnotify⟩ | ⟨hnot, hnotify⟩
    · rw [hnotify] at hlock ⊢
      refine .ofPhase hlock h.nodes ?_ ?_ ?_ ?_ <;> simp
    · rw [hnotify] at hlock ⊢
      exact ⟨hlock, h.nodes, h.unlocking, h.unlocked_none, h.unlocked_min, h.ready,
        fun deadline hw => absurd hw (hnot deadline false)⟩
  | release leaving =>
    exact ⟨hlock, h.nodes, h.unlocking, h.unlocked_none, h.unlocked_min, h.ready,
      fun deadline hw => (h.waiting deadline hw).imp_right (hkeep _ (by simp [leaving]))⟩

/-- The first event is not later than the other ones. -/
theorem NodesInv.covers_head {tables : Tables} (h : NodesInv tables) {e : TimerEvent}
    (hhead : tables.subscribedEvents.head? = some e) :
    e ∈ tables.subscribedEvents ∧ Covers (some e.when) tables.subscribedEvents := by
  obtain ⟨rest, hevents⟩ := List.head?_eq_some_iff.1 hhead
  have hchronological := h.chronological
  rw [hevents] at hchronological ⊢
  refine ⟨by simp, ?_⟩
  intro x hx
  rcases List.mem_cons.1 hx with rfl | hx
  · exact CcTime.lt_irrefl _
  · exact (List.pairwise_cons.1 hchronological).1 x hx

/-- The timer thread carries what it knows of the first event into its wait. -/
theorem processMove_wakeInv {b : ProcessLabel} (h : WakeInv s) (hmove : ProcessMove s b t) :
    WakeInv t := by
  have hlock : LockInv t := processMove_lockInv h.toLockInv hmove
  cases hmove with
  | loop looping =>
    refine .ofPhase hlock h.nodes ?_ ?_ ?_ ?_ <;> cases s.stopped <;> simp
  | acquire | due | wake | readErased => exact .ofPhase hlock h.nodes nofun nofun nofun nofun
  | empty scanning none_left =>
    refine ⟨hlock, h.nodes, ?_, nofun, nofun, nofun, nofun⟩
    rintro _ ⟨⟩
    simp [none_left]
  | later scanning first =>
    refine ⟨hlock, h.nodes, ?_, nofun, nofun, nofun, nofun⟩
    rintro _ ⟨⟩
    simp [first]
  | callbackReturns => exact .ofPhase hlock (h.nodes.filter _ _) nofun nofun nofun nofun
  | unlock unlocking =>
    rename_i min
    have hhead := h.unlocking min unlocking
    refine ⟨hlock, h.nodes, nofun, ?_, ?_, nofun, nofun⟩
    · rintro ⟨⟩
      exact List.head?_eq_none_iff.1 hhead
    · rintro m ⟨⟩
      obtain ⟨hmem, hcovers⟩ := h.nodes.covers_head hhead
      exact ⟨h.nodes.nodes_lt m hmem, fun e he hnode => h.nodes.eq_of_node he hmem hnode,
        fun _ => hcovers⟩
  | readNone unlocked =>
    refine ⟨hlock, h.nodes, nofun, nofun, nofun, ?_, nofun⟩
    rintro _ ⟨⟩
    exact h.unlocked_none unlocked
  | readMin unlocked found =>
    rename_i min e
    refine ⟨hlock, h.nodes, nofun, nofun, nofun, ?_, nofun⟩
    rintro _ ⟨⟩
    obtain ⟨-, huniq, hcovers⟩ := h.unlocked_min min unlocked
    have hmem := List.mem_of_find?_eq_some found
    have heq : e = min := huniq e hmem (by simpa using List.find?_some found)
    rw [heq] at hmem ⊢
    exact hcovers hmem
  | wait ready =>
    refine ⟨hlock, h.nodes, nofun, nofun, nofun, nofun, ?_⟩
    rintro _ ⟨⟩
    exact .inl (h.ready _ ready)

/-- Steps that respect the gap keep the deadline of the wait before every event. -/
theorem systemStep_wakeInv (h : WakeInv s) (hguard : GapRespected s a)
    (hstep : systemStep s a = some t) : WakeInv t := by
  cases a with
  | call me b =>
    have hmove : CallMove s me b t := callStep_move h.toLockInv hstep
    cases hmove with
    | returns outside locks => exact h
    | spins calling locks =>
      exact .ofPhase (callMove_lockInv h.toLockInv (.spins calling locks)) h.nodes (by simp)
        (by simp) (by simp) (by simp)
    | user move => exact userMove_wakeInv h hguard move
  | process b => exact processMove_wakeInv h (processStep_move hstep)

/-! ## What a subscription in the gap leads to -/

/-- An event before the deadline makes the coming wait too long. -/
theorem exists_lost_of_ready {e : TimerEvent} (hready : s.timer = .ready deadline)
    (hquiet : ∀ m, s.users m ≠ some .notifying) (he : e ∈ s.tables.subscribedEvents)
    (hmissed : ∀ t, deadline = some t → e.when.lt t = true) :
    ∃ t, run systemStep s [.process .wait] = some t ∧ ¬ NoLostWakeUp t := by
  refine ⟨{ s with timer := .waiting deadline false }, ?_, ?_⟩
  · simp only [run, systemStep, processStep, hready, Option.bind_some]
  · intro hnone
    rcases hnone deadline rfl hquiet with hnil | ⟨t, hsome, hcovers⟩
    · rw [show s.tables.subscribedEvents = [] from hnil] at he
      cases he
    · have hlt := hmissed t hsome
      rw [hcovers e he] at hlt
      cases hlt

/-- The subscriber's notification comes before the wait. -/
theorem exists_lost_of_notifying {e : TimerEvent} (h : LockInv s)
    (hready : s.timer = .ready deadline) {p : CallPhase} (hphase : s.users n = some p)
    (hp : p = .notifying ∨ p = .leaving) (he : e ∈ s.tables.subscribedEvents)
    (hmissed : ∀ t, deadline = some t → e.when.lt t = true) :
    ∃ more t, run systemStep s more = some t ∧ ¬ NoLostWakeUp t := by
  have howner : s.lock = some (.user n) := by
    refine h.owns hphase ?_
    rcases hp with rfl | rfl <;> rfl
  have hothers : ∀ m, m ≠ n → s.users m ≠ some .notifying := by
    intro m hm hnotifying
    have hother := h.owns hnotifying rfl
    rw [howner, Option.some.injEq, Owner.user.injEq] at hother
    exact hm hother.symm
  rcases hp with rfl | rfl
  · obtain ⟨t, hrun, hlost⟩ := exists_lost_of_ready
      (s := { s with users := Function.update s.users n (some .leaving) }) hready (by
        intro m
        simp only [Function.update_apply]
        split_ifs with hm
        · simp
        · exact hothers m hm) he hmissed
    refine ⟨[.call (.user n) .notify, .process .wait], t, ?_, hlost⟩
    refine run_cons_eq_some.2 ⟨_, ?_, hrun⟩
    simp only [systemStep, callStep, System.callOf, hphase, if_true, System.notifyOne, hready,
      System.setCall]
  · obtain ⟨t, hrun, hlost⟩ := exists_lost_of_ready hready (by
      intro m
      by_cases hm : m = n
      · simp [hm, hphase]
      · exact hothers m hm) he hmissed
    exact ⟨_, t, hrun, hlost⟩

/-- Before the deadline has been read the timer thread reads it first. -/
theorem exists_lost_of_gap {e : TimerEvent} (h : LockInv s)
    (huniq : ∀ min, s.timer = .unlocked (some min) →
      ∀ x ∈ s.tables.subscribedEvents, x.node = min.node → x = min)
    (hgap : s.gap = some deadline) {p : CallPhase} (hphase : s.users n = some p)
    (hp : p = .notifying ∨ p = .leaving) (he : e ∈ s.tables.subscribedEvents)
    (hmissed : ∀ t, deadline = some t → e.when.lt t = true) :
    ∃ more t, run systemStep s more = some t ∧ ¬ NoLostWakeUp t := by
  have hread : ∀ d, processStep s .readMin = some { s with timer := .ready d } → d = deadline →
      ∃ more t, run systemStep s more = some t ∧ ¬ NoLostWakeUp t := by
    rintro d hstep rfl
    have hlock : LockInv { s with timer := .ready d } :=
      processMove_lockInv h (processStep_move hstep)
    obtain ⟨more, t, hrun, hlost⟩ := exists_lost_of_notifying hlock rfl hphase hp he hmissed
    exact ⟨.process .readMin :: more, t, run_cons_eq_some.2 ⟨_, hstep, hrun⟩, hlost⟩
  unfold System.gap at hgap
  split at hgap
  case h_1 htimer =>
    exact hread none (by simp only [processStep, htimer]) (Option.some.inj hgap)
  case h_2 min htimer =>
    simp only [Option.ite_none_right_eq_some, Option.some.injEq] at hgap
    obtain ⟨hany, hdeadline⟩ := hgap
    have hmem := (unlocked_any_iff (huniq min htimer)).1 hany
    cases hfind : s.tables.subscribedEvents.find? fun x => x.node == min.node with
    | none =>
      have hnone := List.find?_eq_none.1 hfind min hmem
      simp at hnone
    | some x =>
      have hx : x = min := huniq min htimer x (List.mem_of_find?_eq_some hfind)
        (by simpa using List.find?_some hfind)
      refine hread (some x.when) (by simp only [processStep, htimer, hfind]) ?_
      rw [hx]
      exact hdeadline
  case h_3 d htimer =>
    cases hgap
    exact exists_lost_of_notifying h htimer hphase hp he hmissed
  case h_4 => cases hgap

/-- What it means that a step subscribes in the gap. -/
theorem subscribesInGap_cases (h : LockInv s) (ha : SubscribesInGap s a = true) :
    ∃ n tree when ev d, a = .call (.user n) (.perform tree) ∧
      s.users n = some (.inside (.subscribeAt when ev)) ∧
      s.tables.refuses when ev.callback = false ∧ s.gap = some d ∧
      ∀ t, d = some t → when.lt t = true := by
  unfold SubscribesInGap at ha
  split at ha
  case h_1 me tree =>
    split at ha
    case h_1 when ev hcall =>
      simp only [Bool.and_eq_true, Bool.not_eq_true'] at ha
      obtain ⟨haccepted, hmisses⟩ := ha
      obtain ⟨d, hgap, hd⟩ : ∃ d, s.gap = some d ∧ ∀ t, d = some t → when.lt t = true := by
        unfold System.misses at hmisses
        split at hmisses
        case h_1 => cases hmisses
        case h_2 hgap => exact ⟨none, hgap, by simp⟩
        case h_3 t hgap =>
          refine ⟨some t, hgap, ?_⟩
          rintro _ ⟨⟩
          exact hmisses
      cases me with
      | timer =>
        obtain ⟨e, he⟩ := callOf_timer hcall
        obtain ⟨c, hc⟩ := h.callback e _ he
        cases hc
      | user n => exact ⟨n, tree, when, ev, d, rfl, Option.some.inj hcall, haccepted, hgap, hd⟩
    case h_2 => cases ha
  case h_2 => cases ha

/-- More events leave the deadline of the coming wait as it is. -/
theorem gap_of_subset {d : Option CcTime} (hgap : s.gap = some d) (htimer : t.timer = s.timer)
    (hsub : ∀ e ∈ s.tables.subscribedEvents, e ∈ t.tables.subscribedEvents) :
    t.gap = some d := by
  unfold System.gap at hgap ⊢
  rw [htimer]
  split at hgap
  case h_1 => exact hgap
  case h_2 min _ =>
    simp only [Option.ite_none_right_eq_some] at hgap
    obtain ⟨hany, hd⟩ := hgap
    obtain ⟨e, he, hnode⟩ := List.any_eq_true.1 hany
    rw [if_pos (List.any_eq_true.2 ⟨e, hsub e he, hnode⟩)]
    exact hd
  case h_3 => exact hgap
  case h_4 => cases hgap

/-- A subscription in the gap can be continued to a lost wake-up. -/
theorem exists_lost_wake_up (h : WakeInv s) (hguard : ¬ GapRespected s a)
    (hstep : systemStep s a = some t) :
    ∃ more u, run systemStep t more = some u ∧ ¬ NoLostWakeUp u := by
  have hsubscribes : SubscribesInGap s a = true := by simpa [GapRespected] using hguard
  obtain ⟨n, tree, when, ev, d, rfl, hinside, haccepted, hgap, hd⟩ :=
    subscribesInGap_cases h.toLockInv hsubscribes
  have hlock : LockInv t := systemStep_lockInv h.toLockInv hstep
  have hmove : CallMove s (.user n) (.perform tree) t := callStep_move h.toLockInv hstep
  cases hmove with
  | user move =>
  cases move with
  | perform inside searched performed =>
  rename_i c first u
  rw [hinside] at inside
  cases Option.some.inj inside
  obtain ⟨-, husers, htimer⟩ := perform_frame performed
  have hevents : u.tables.subscribedEvents =
      Tables.insertEvent ⟨s.tables.nodes, when, ev⟩ s.tables.subscribedEvents := by
    cases performed
    simp only [subscribeEventAt_of_accepted haccepted]
  have hperm := insertEvent_perm ⟨s.tables.nodes, when, ev⟩ s.tables.subscribedEvents
  have hmem : ∀ x, x ∈ u.tables.subscribedEvents ↔
      x = ⟨s.tables.nodes, when, ev⟩ ∨ x ∈ s.tables.subscribedEvents := by
    intro x
    rw [hevents, hperm.mem_iff, List.mem_cons]
  refine exists_lost_of_gap hlock ?_ ?_ (Function.update_self n _ _) ?_
    ((hmem ⟨s.tables.nodes, when, ev⟩).2 (.inl rfl)) hd
  · intro min hmin x hx hnode
    obtain ⟨hlt, huniq, -⟩ := h.unlocked_min min (htimer ▸ hmin)
    rcases (hmem x).1 hx with rfl | hx
    · simp only at hnode
      omega
    · exact huniq x hx hnode
  · exact gap_of_subset hgap htimer fun e he => (hmem e).2 (.inr he)
  · cases first <;> simp

end Steps

/-! ## Whole runs -/

/-- In every run whose subscriptions respect the gap, whenever the timer thread waits and no
notification is pending, there is no event, or the thread waits with a deadline that is not
later than the earliest one.  Every other run has a beginning that can be continued to a
state in which this fails. -/
theorem no_lost_wake_up (labels : List SystemLabel) (t : System)
    (hrun : run systemStep .start labels = some t) :
    (Guarded systemStep GapRespected .start labels →
      Always systemStep NoLostWakeUp .start labels) ∧
    (¬ Guarded systemStep GapRespected .start labels →
      ∃ labels' more u, labels' <+: labels ∧
        run systemStep .start (labels' ++ more) = some u ∧ ¬ NoLostWakeUp u) := by
  constructor
  · intro hguard
    have halways : Always systemStep WakeInv .start labels :=
      always_of_guarded (fun _ _ _ h hgap hstep => systemStep_wakeInv h hgap hstep)
        start_wakeInv hguard
    exact halways.mono fun _ h => h.noLostWakeUp
  · exact exists_violation (I := WakeInv)
      (fun _ _ _ h hgap hstep => systemStep_wakeInv h hgap hstep)
      (fun _ _ _ h hgap hstep => exists_lost_wake_up h hgap hstep) start_wakeInv hrun

/-- A user subscribes an event while the timer thread waits without a deadline. -/
theorem no_lost_wake_up_while_waiting :
    let labels : List SystemLabel :=
      [.process .loop, .process .acquire, .process (.scan ⟨0, 0⟩), .process .unlock,
        .process .readMin, .process .wait,
        .call (.user 0) (.enter (.subscribeAt ⟨10, 0⟩ ⟨0, 7⟩)), .call (.user 0) .acquire,
        .call (.user 0) (.perform .nil), .call (.user 0) .notify, .call (.user 0) .release,
        .process .wake]
    Always systemStep NoLostWakeUp .start labels := by
  intro labels
  exact (no_lost_wake_up labels _ (Option.some_get (by decide +kernel)).symm).1
    (by decide +kernel)

/-- A user subscribes the first event after the timer thread has found none and released the
lock: the notification comes before the wait, and the timer thread waits without a deadline
although an event is subscribed. -/
theorem subscription_before_wait_is_lost :
    let labels : List SystemLabel :=
      [.process .loop, .process .acquire, .process (.scan ⟨0, 0⟩), .process .unlock,
        .call (.user 0) (.enter (.subscribeAt ⟨10, 0⟩ ⟨0, 7⟩)), .call (.user 0) .acquire,
        .call (.user 0) (.perform .nil), .call (.user 0) .notify, .call (.user 0) .release,
        .process .readMin, .process .wait]
    ∃ s, run systemStep .start labels = some s ∧ s.timer = .waiting none false ∧
      s.tables.subscribedEvents = [⟨0, ⟨10, 0⟩, ⟨0, 7⟩⟩] ∧ ¬ NoLostWakeUp s := by
  intro labels
  obtain ⟨s, hrun, htimer, hevents, hfree⟩ : ∃ s ∈ run systemStep .start labels,
      s.timer = .waiting none false ∧
        s.tables.subscribedEvents = [⟨0, ⟨10, 0⟩, ⟨0, 7⟩⟩] ∧ s.lock = none := by
    decide +kernel
  have hquiet : ∀ m, s.users m ≠ some .notifying := by
    intro m hm
    have howner := (run_lockInv hrun).owns hm rfl
    rw [hfree] at howner
    cases howner
  refine ⟨s, hrun, htimer, hevents, ?_⟩
  intro hnone
  rcases hnone none htimer hquiet with hnil | ⟨t, ht, -⟩
  · rw [hevents] at hnil
    cases hnil
  · cases ht

end Timer
end CCraft
