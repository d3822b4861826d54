import CCraft.Timer.Table

/-!
# The timer thread and its users

User threads call the timer, and the timer thread runs `process`; the tables are guarded by
the spin lock `m_thread_safe_sl`.  `process` calls the callbacks of due events while it holds
the lock.  A callback that calls the timer itself therefore spins in `SpinLock::Lock` for a
lock that its own thread holds.

A call goes through the same phases in every thread: it spins for the lock, changes the tables,
notifies the timer thread if it has to, and releases the lock.  A callback is open: any
calls, in any order, and a return.

Main results:

- Theorem {lit}`systemStep_lockInv`: the lock is held by the thread that is in a phase
  that holds it.
- Theorem {lit}`stuck_step`: a thread that spins for its own lock does so for ever.
- Theorem {lit}`no_self_deadlock_iff`: no thread ever spins for its own lock, and every callback
  can return, exactly when no callback makes a call that takes the lock.
-/

namespace CCraft
namespace Timer

open Runs SearchTree

/-! ## Calls -/

/-- `operator+=` of `cctime`. -/
def CcTime.add (l r : CcTime) : CcTime :=
  ⟨l.sec + (r.sec + (l.nsec + r.nsec).tdiv 1000000000), (l.nsec + r.nsec).tmod 1000000000⟩

/-- The calls of a timer; `stop` is what `Stop` does after `UnsubscribeAllEvent`. -/
inductive Call where
  | subscribeAt (when : CcTime) (ev : Event)
  | unsubscribe (eventId : EventId)
  | unsubscribeAll
  | stop
deriving DecidableEq, Repr

/-- `SubscribeEventAfter` at the given time. -/
def Call.subscribeAfter (now duration : CcTime) (ev : Event) : Call :=
  .subscribeAt (now.add duration) ev

/-- The call takes the lock: `UnsubscribeEvent` returns before that when the id is null. -/
def Call.locks : Call → Bool
  | .unsubscribe eventId => eventId.when.getTotalNsecs ≠ 0 && eventId.how ≠ 0
  | _ => true

/-- The assertion that `SubscribeEventAt` starts with. -/
def Call.valid : Call → Bool
  | .subscribeAt _ ev => ev.callback ≠ 0
  | _ => true

/-- Where a thread is in a call that takes the lock. -/
inductive CallPhase where
  | acquiring (c : Call)
  | inside (c : Call)
  | notifying
  | leaving
deriving DecidableEq, Repr

/-- The thread has the lock. -/
def CallPhase.holds : CallPhase → Bool
  | .acquiring _ => false
  | _ => true

/-- Where the timer thread is in `process`.  In a callback it may be in a call. -/
inductive TimerPhase where
  | looping
  | finished
  | acquiring
  | scanning
  | calling (e : TimerEvent) (call : Option CallPhase)
  | unlocking (min : Option TimerEvent)
  | unlocked (min : Option TimerEvent)
  | ready (deadline : Option CcTime)
  | dangling
  | waiting (deadline : Option CcTime) (notified : Bool)
deriving DecidableEq, Repr

/-- The timer thread has the lock. -/
def TimerPhase.holds : TimerPhase → Bool
  | .scanning | .calling _ _ | .unlocking _ => true
  | _ => false

inductive Owner where
  | timer
  | user (n : Nat)
deriving DecidableEq, Repr

/-- A started timer with its users. -/
structure System where
  lock : Option Owner
  stopped : Bool
  tables : Tables
  users : Nat → Option CallPhase
  timer : TimerPhase

namespace System

/-- The timer thread has just been started. -/
def start : System :=
  ⟨none, false, .new, fun _ => none, .looping⟩

/-- Where a thread is in a call; the timer thread makes calls in callbacks only. -/
def callOf (s : System) : Owner → Option (Option CallPhase)
  | .user n => some (s.users n)
  | .timer =>
    match s.timer with
    | .calling _ call => some call
    | _ => none

def setCall (s : System) (me : Owner) (call : Option CallPhase) : System :=
  match me with
  | .user n => { s with users := Function.update s.users n call }
  | .timer =>
    match s.timer with
    | .calling e _ => { s with timer := .calling e call }
    | _ => s

/-- `m_cv.notify_one`, which only a thread that waits can notice. -/
def notifyOne (s : System) : System :=
  match s.timer with
  | .waiting deadline _ => { s with timer := .waiting deadline true }
  | _ => s

/-- What a call does to the tables under the lock, and whether it notifies the timer
thread. -/
def perform (s : System) (c : Call) (tree : EntryTree) : Option (Bool × System) :=
  match c with
  | .subscribeAt when ev =>
    let tables := (s.tables.subscribeEventAt when ev tree).2
    let first := !s.tables.refuses when ev.callback &&
      tables.subscribedEvents.head?.map TimerEvent.node == some s.tables.nodes
    some (first, { s with tables := tables })
  | .unsubscribe eventId =>
    (s.tables.unsubscribeEvent eventId tree).map fun r => (false, { s with tables := r.2 })
  | .unsubscribeAll => some (false, { s with tables := s.tables.unsubscribeAllEvent })
  | .stop => some (true, { s with stopped := true })

end System

/-- The steps of a call. -/
inductive CallLabel where
  | enter (c : Call)
  | acquire
  | perform (tree : EntryTree)
  | notify
  | release

/-- One step of the call that a thread makes. -/
def callStep (s : System) (me : Owner) : CallLabel → Option System
  | .enter c =>
    if s.callOf me = some none ∧ c.valid then
      some (if c.locks then s.setCall me (some (.acquiring c)) else s)
    else none
  | .acquire =>
    match s.callOf me with
    | some (some (.acquiring c)) =>
      if s.lock = none then
        some (({ s with lock := some me } : System).setCall me (some (.inside c)))
      else none
    | _ => none
  | .perform tree =>
    match s.callOf me with
    | some (some (.inside c)) =>
      if inorder tree = s.tables.eventsEntry then
        (s.perform c tree).map fun r =>
          r.2.setCall me (some (if r.1 then .notifying else .leaving))
      else none
    | _ => none
  | .notify =>
    if s.callOf me = some (some .notifying) then some (s.notifyOne.setCall me (some .leaving))
    else none
  | .release =>
    if s.callOf me = some (some .leaving) then
      some (({ s with lock := none } : System).setCall me none)
    else none

/-- The steps of `process`. -/
inductive ProcessLabel where
  | loop
  | acquire
  | scan (now : CcTime)
  | callbackReturns (tree : EntryTree)
  | unlock
  | readMin
  | wait
  | wake

/-- One step of `process`.  The time of the first event is read through an iterator after the
lock was released.  A wait ends at any time: notified, at its deadline, or spuriously. -/
def processStep (s : System) : ProcessLabel → Option System
  | .loop =>
    if s.timer = .looping then
      some { s with timer := if s.stopped then .finished else .acquiring }
    else none
  | .acquire =>
    if s.timer = .acquiring ∧ s.lock = none then
      some { s with lock := some .timer, timer := .scanning }
    else none
  | .scan now =>
    if s.timer = .scanning then
      match s.tables.subscribedEvents with
      | [] => some { s with timer := .unlocking none }
      | e :: _ =>
        if e.when.gt now then some { s with timer := .unlocking (some e) }
        else some { s with timer := .calling e none }
    else none
  | .callbackReturns tree =>
    match s.timer with
    | .calling e none =>
      if inorder tree = s.tables.eventsEntry then
        some { s with tables := s.tables.eraseEvent e tree, timer := .scanning }
      else none
    | _ => none
  | .unlock =>
    match s.timer with
    | .unlocking min => some { s with lock := none, timer := .unlocked min }
    | _ => none
  | .readMin =>
    match s.timer with
    | .unlocked none => some { s with timer := .ready none }
    | .unlocked (some min) =>
      match s.tables.subscribedEvents.find? fun e => e.node == min.node with
      | some e => some { s with timer := .ready (some e.when) }
      | none => some { s with timer := .dangling }
    | _ => none
  | .wait =>
    match s.timer with
    | .ready deadline => some { s with timer := .waiting deadline false }
    | _ => none
  | .wake =>
    match s.timer with
    | .waiting _ _ => some { s with timer := .looping }
    | _ => none

inductive SystemLabel where
  | call (me : Owner) (a : CallLabel)
  | process (a : ProcessLabel)

def systemStep (s : System) : SystemLabel → Option System
  | .call me a => callStep s me a
  | .process a => processStep s a

/-! ## Who holds the lock -/

/-- The owner of the lock is the thread in a phase that holds it, and a callback is at most
trying to get the lock. -/
structure LockInv (s : System) : Prop where
  user : ∀ n, s.lock = some (.user n) ↔ ∃ p, s.users n = some p ∧ p.holds = true
  timer : s.lock = some .timer ↔ s.timer.holds = true
  callback : ∀ e p, s.timer = .calling e (some p) → ∃ c, p = .acquiring c

section Lock

variable {s t : System} {me : Owner} {n : Nat} {a : CallLabel} {c : Call} {tree : EntryTree}

theorem start_lockInv : LockInv .start := by
  refine ⟨?_, ?_, ?_⟩
  · intro n
    simp [System.start]
  · simp [System.start, TimerPhase.holds]
  · nofun

/-- What a call does to the tables leaves the threads and the lock as they are. -/
theorem perform_frame {first : Bool} (h : s.perform c tree = some (first, t)) :
    t.lock = s.lock ∧ t.users = s.users ∧ t.timer = s.timer := by
  cases c with
  | subscribeAt | unsubscribeAll | stop =>
    cases h
    exact ⟨rfl, rfl, rfl⟩
  | unsubscribe eventId =>
    obtain ⟨r, -, hr⟩ := Option.map_eq_some_iff.1 h
    cases hr
    exact ⟨rfl, rfl, rfl⟩

/-- The steps of a call in a user thread. -/
inductive UserMove (s : System) (n : Nat) : CallLabel → System → Prop
  | enter {c : Call} (outside : s.users n = none) (locks : c.locks = true) :
      UserMove s n (.enter c) { s with users := Function.update s.users n (some (.acquiring c)) }
  | acquire {c : Call} (spinning : s.users n = some (.acquiring c)) (free : s.lock = none) :
      UserMove s n .acquire { s with
        lock := some (.user n), users := Function.update s.users n (some (.inside c)) }
  | perform {c : Call} {tree : EntryTree} {first : Bool} {t : System}
      (inside : s.users n = some (.inside c)) (searched : inorder tree = s.tables.eventsEntry)
      (performed : s.perform c tree = some (first, t)) :
      UserMove s n (.perform tree) { t with
        users := Function.update t.users n (some (if first then .notifying else .leaving)) }
  | notify (notifying : s.users n = some .notifying) :
      UserMove s n .notify { s.notifyOne with
        users := Function.update s.notifyOne.users n (some .leaving) }
  | release (leaving : s.users n = some .leaving) :
      UserMove s n .release { s with lock := none, users := Function.update s.users n none }

/-- A step of a call returns at once, is a callback that spins for the lock, or is a step of
a user thread. -/
inductive CallMove (s : System) : Owner → CallLabel → System → Prop
  | returns {me : Owner} {c : Call} (outside : s.callOf me = some none)
      (locks : c.locks = false) : CallMove s me (.enter c) s
  | spins {e : TimerEvent} {c : Call} (calling : s.timer = .calling e none)
      (locks : c.locks = true) :
      CallMove s .timer (.enter c) { s with timer := .calling e (some (.acquiring c)) }
  | user {n : Nat} {a : CallLabel} {t : System} (move : UserMove s n a t) :
      CallMove s (.user n) a t

theorem callOf_timer {call : Option CallPhase} (h : s.callOf .timer = some call) :
    ∃ e, s.timer = .calling e call := by
  unfold System.callOf at h
  cases htimer : s.timer <;> simp only [htimer, reduceCtorEq, Option.some.injEq] at h
  exact ⟨_, by rw [h]⟩

/-- The steps of a call in a user thread. -/
theorem callStep_user (hstep : callStep s (.user n) a = some t) : CallMove s (.user n) a t := by
  cases a with
  | enter c =>
    simp only [callStep, System.callOf, Option.some.injEq,
      Option.ite_none_right_eq_some] at hstep
    obtain ⟨⟨houtside, -⟩, rfl⟩ := hstep
    cases hlocks : c.locks with
    | true => exact .user (.enter houtside hlocks)
    | false => exact .returns (by rw [System.callOf, houtside]) hlocks
  | acquire =>
    simp only [callStep, System.callOf] at hstep
    split at hstep
    case h_1 c hcall =>
      obtain ⟨hfree, ⟨⟩⟩ := Option.ite_none_right_eq_some.1 hstep
      exact .user (.acquire (Option.some.inj hcall) hfree)
    case h_2 => cases hstep
  | perform tree =>
    simp only [callStep, System.callOf] at hstep
    split at hstep
    case h_1 c hcall =>
      simp only [Option.ite_none_right_eq_some] at hstep
      obtain ⟨htree, hstep⟩ := hstep
      obtain ⟨⟨first, t'⟩, hperform, rfl⟩ := Option.map_eq_some_iff.1 hstep
      exact .user (.perform (Option.some.inj hcall) htree hperform)
    case h_2 => cases hstep
  | notify =>
    simp only [callStep, System.callOf, Option.some.injEq,
      Option.ite_none_right_eq_some] at hstep
    obtain ⟨hnotifying, rfl⟩ := hstep
    exact .user (.notify hnotifying)
  | release =>
    simp only [callStep, System.callOf, Option.some.injEq,
      Option.ite_none_right_eq_some] at hstep
    obtain ⟨hleaving, rfl⟩ := hstep
    exact .user (.release hleaving)

/-- A callback that is in a call is still spinning, and its own thread has the lock. -/
theorem LockInv.callback_spins (h : LockInv s) {p : CallPhase}
    (hcall : s.callOf .timer = some (some p)) : (∃ c, p = .acquiring c) ∧ s.lock ≠ none := by
  obtain ⟨e, he⟩ := callOf_timer hcall
  have howner : s.lock = some .timer := h.timer.2 (by rw [he]; rfl)
  exact ⟨h.callback e p he, by simp [howner]⟩

/-- Under the invariant of the lock these are the steps of a call. -/
theorem callStep_move (h : LockInv s) (hstep : callStep s me a = some t) : CallMove s me a t := by
  cases me with
  | user n => exact callStep_user hstep
  | timer =>
    cases a with
    | enter c =>
      obtain ⟨⟨houtside, -⟩, ⟨⟩⟩ := Option.ite_none_right_eq_some.1 hstep
      obtain ⟨e, he⟩ := callOf_timer houtside
      cases hlocks : c.locks with
      | true =>
        simp only [if_true, System.setCall, he]
        exact .spins he hlocks
      | false => exact .returns houtside hlocks
    | acquire =>
      simp only [callStep] at hstep
      split at hstep
      case h_1 c hcall => simp [(h.callback_spins hcall).2] at hstep
      case h_2 => cases hstep
    | perform tree =>
      simp only [callStep] at hstep
      split at hstep
      case h_1 c hcall => cases (h.callback_spins hcall).1.choose_spec
      case h_2 => cases hstep
    | notify | release =>
      simp only [callStep, Option.ite_none_right_eq_some] at hstep
      cases (h.callback_spins hstep.1).1.choose_spec

theorem notifyOne_frame (s : System) : s.notifyOne.lock = s.lock ∧ s.notifyOne.users = s.users ∧
    s.notifyOne.tables = s.tables ∧ s.notifyOne.timer.holds = s.timer.holds ∧
    ∀ e p, s.notifyOne.timer = .calling e p ↔ s.timer = .calling e p := by
  unfold System.notifyOne
  cases htimer : s.timer <;> simp [htimer, TimerPhase.holds]

/-- A user thread changes its own phase, and takes or releases the lock. -/
theorem LockInv.setUser (h : LockInv s) {call : Option CallPhase}
    (husers : t.users = Function.update s.users n call)
    (hself : t.lock = some (.user n) ↔ ∃ p, call = some p ∧ p.holds = true)
    (hothers : ∀ o, o ≠ .user n → (t.lock = some o ↔ s.lock = some o))
    (hholds : t.timer.holds = s.timer.holds)
    (hcalling : ∀ e p, t.timer = .calling e p ↔ s.timer = .calling e p) : LockInv t := by
  refine ⟨?_, ?_, ?_⟩
  · intro m
    rw [husers, Function.update_apply]
    split_ifs with hm
    · rw [hm]
      exact hself
    · rw [hothers (.user m) (by simpa using hm)]
      exact h.user m
  · rw [hothers .timer (by simp), hholds]
    exact h.timer
  · intro e p hcall
    exact h.callback e p ((hcalling e _).1 hcall)

/-- A thread in a phase that holds the lock is its owner. -/
theorem LockInv.owns (h : LockInv s) {p : CallPhase} (hphase : s.users n = some p)
    (hholds : p.holds = true) : s.lock = some (.user n) :=
  (h.user n).2 ⟨p, hphase, hholds⟩

theorem LockInv.not_owns (h : LockInv s) {call : Option CallPhase} (hphase : s.users n = call)
    (hholds : ∀ p, call = some p → p.holds = false) : s.lock ≠ some (.user n) := by
  intro howns
  obtain ⟨p, hp, hpholds⟩ := (h.user n).1 howns
  rw [hholds p (hphase ▸ hp)] at hpholds
  cases hpholds

theorem userMove_lockInv (h : LockInv s) (hmove : UserMove s n a t) : LockInv t := by
  cases hmove with
  | enter outside locks =>
    have hnot := h.not_owns outside (by simp)
    refine h.setUser rfl ?_ (fun _ _ => Iff.rfl) rfl fun _ _ => Iff.rfl
    simp [hnot, CallPhase.holds]
  | acquire spinning free =>
    refine h.setUser rfl (by simp [CallPhase.holds]) ?_ rfl fun _ _ => Iff.rfl
    intro o ho
    simp [free, Ne.symm ho]
  | perform inside searched performed =>
    rename_i c tree first t'
    obtain ⟨hlock, husers, htimer⟩ := perform_frame performed
    have howns := h.owns inside rfl
    refine h.setUser (congrArg (fun f => Function.update f n _) husers) ?_ ?_
      (congrArg _ htimer) ?_
    · simp only [hlock, howns]
      cases first <;> simp [CallPhase.holds]
    · intro o _
      simp only [hlock]
    · intro e p
      simp only [htimer]
  | notify notifying =>
    obtain ⟨hlock, husers, -, hholds, hcalling⟩ := notifyOne_frame s
    have howns := h.owns notifying rfl
    refine h.setUser (congrArg (fun f => Function.update f n _) husers) ?_ ?_ hholds hcalling
    · simp [hlock, howns, CallPhase.holds]
    · intro o _
      simp only [hlock]
  | release leaving =>
    have howns := h.owns leaving rfl
    refine h.setUser rfl (by simp) ?_ rfl fun _ _ => Iff.rfl
    intro o ho
    simp [howns, Ne.symm ho]

theorem callMove_lockInv (h : LockInv s) (hmove : CallMove s me a t) : LockInv t := by
  cases hmove with
  | returns outside locks => exact h
  | spins calling locks =>
    refine ⟨h.user, ?_, ?_⟩
    · rw [h.timer, calling]
      rfl
    · intro e p hcall
      obtain ⟨-, hp⟩ := TimerPhase.calling.inj hcall
      exact ⟨_, (Option.some.inj hp).symm⟩
  | user move => exact userMove_lockInv h move

/-- The steps of the timer thread. -/
inductive ProcessMove (s : System) : ProcessLabel → System → Prop
  | loop (looping : s.timer = .looping) :
      ProcessMove s .loop { s with timer := if s.stopped then .finished else .acquiring }
  | acquire (spinning : s.timer = .acquiring) (free : s.lock = none) :
      ProcessMove s .acquire { s with lock := some .timer, timer := .scanning }
  | empty {now : CcTime} (scanning : s.timer = .scanning)
      (none_left : s.tables.subscribedEvents = []) :
      ProcessMove s (.scan now) { s with timer := .unlocking none }
  | later {now : CcTime} {e : TimerEvent} {rest : List TimerEvent}
      (scanning : s.timer = .scanning) (first : s.tables.subscribedEvents = e :: rest)
      (not_due : e.when.gt now = true) :
      ProcessMove s (.scan now) { s with timer := .unlocking (some e) }
  | due {now : CcTime} {e : TimerEvent} {rest : List TimerEvent}
      (scanning : s.timer = .scanning) (first : s.tables.subscribedEvents = e :: rest)
      (is_due : e.when.gt now = false) :
      ProcessMove s (.scan now) { s with timer := .calling e none }
  | callbackReturns {e : TimerEvent} {tree : EntryTree} (calling : s.timer = .calling e none)
      (searched : inorder tree = s.tables.eventsEntry) :
      ProcessMove s (.callbackReturns tree)
        { s with tables := s.tables.eraseEvent e tree, timer := .scanning }
  | unlock {min : Option TimerEvent} (unlocking : s.timer = .unlocking min) :
      ProcessMove s .unlock { s with lock := none, timer := .unlocked min }
  | readNone (unlocked : s.timer = .unlocked none) :
      ProcessMove s .readMin { s with timer := .ready none }
  | readMin {min e : TimerEvent} (unlocked : s.timer = .unlocked (some min))
      (found : s.tables.subscribedEvents.find? (fun x => x.node == min.node) = some e) :
      ProcessMove s .readMin { s with timer := .ready (some e.when) }
  | readErased {min : TimerEvent} (unlocked : s.timer = .unlocked (some min))
      (erased : s.tables.subscribedEvents.find? (fun x => x.node == min.node) = none) :
      ProcessMove s .readMin { s with timer := .dangling }
  | wait {deadline : Option CcTime} (ready : s.timer = .ready deadline) :
      ProcessMove s .wait { s with timer := .waiting deadline false }
  | wake {deadline : Option CcTime} {notified : Bool}
      (waiting : s.timer = .waiting deadline notified) :
      ProcessMove s .wake { s with timer := .looping }

theorem processStep_move {b : ProcessLabel} (hstep : processStep s b = some t) :
    ProcessMove s b t := by
  cases b with
  | loop =>
    obtain ⟨hlooping, ⟨⟩⟩ := Option.ite_none_right_eq_some.1 hstep
    exact .loop hlooping
  | acquire =>
    obtain ⟨⟨hspinning, hfree⟩, ⟨⟩⟩ := Option.ite_none_right_eq_some.1 hstep
    exact .acquire hspinning hfree
  | scan now =>
    simp only [processStep, Option.ite_none_right_eq_some] at hstep
    obtain ⟨hscanning, hstep⟩ := hstep
    split at hstep
    case h_1 hempty =>
      cases hstep
      exact .empty hscanning hempty
    case h_2 e rest hfirst =>
      split_ifs at hstep with hgt
      · cases hstep
        exact .later hscanning hfirst hgt
      · cases hstep
        exact .due hscanning hfirst (by simpa using hgt)
  | callbackReturns tree =>
    simp only [processStep] at hstep
    split at hstep
    case h_1 e hcalling =>
      obtain ⟨htree, ⟨⟩⟩ := Option.ite_none_right_eq_some.1 hstep
      exact .callbackReturns hcalling htree
    case h_2 => cases hstep
  | unlock =>
    simp only [processStep] at hstep
    split at hstep
    case h_1 min hunlocking =>
      cases hstep
      exact .unlock hunlocking
    case h_2 => cases hstep
  | readMin =>
    simp only [processStep] at hstep
    split at hstep
    case h_1 hunlocked =>
      cases hstep
      exact .readNone hunlocked
    case h_2 min hunlocked =>
      split at hstep
      case h_1 e hfound =>
        cases hstep
        exact .readMin hunlocked hfound
      case h_2 herased =>
        cases hstep
        exact .readErased hunlocked herased
    case h_3 => cases hstep
  | wait =>
    simp only [processStep] at hstep
    split at hstep
    case h_1 deadline hready =>
      cases hstep
      exact .wait hready
    case h_2 => cases hstep
  | wake =>
    simp only [processStep] at hstep
    split at hstep
    case h_1 deadline notified hwaiting =>
      cases hstep
      exact .wake hwaiting
    case h_2 => cases hstep

/-- The timer thread changes its phase, and takes or releases the lock. -/
theorem LockInv.setTimer (h : LockInv s) (husers : t.users = s.users)
    (hself : t.lock = some .timer ↔ t.timer.holds = true)
    (hothers : ∀ m, t.lock = some (.user m) ↔ s.lock = some (.user m))
    (hcallback : ∀ e p, t.timer ≠ .calling e (some p)) : LockInv t := by
  refine ⟨?_, hself, ?_⟩
  · intro m
    rw [hothers, husers]
    exact h.user m
  · intro e p hcall
    exact absurd hcall (hcallback e p)

theorem processMove_lockInv {b : ProcessLabel} (h : LockInv s) (hmove : ProcessMove s b t) :
    LockInv t := by
  cases hmove with
  | loop looping =>
    refine h.setTimer rfl ?_ (fun _ => Iff.rfl) ?_
    · rw [h.timer, looping]
      cases s.stopped <;> simp [TimerPhase.holds]
    · intro e p
      cases s.stopped <;> simp
  | acquire spinning free =>
    refine h.setTimer rfl (by simp [TimerPhase.holds]) ?_ (by simp)
    intro m
    simp [free]
  | unlock unlocking =>
    refine h.setTimer rfl (by simp [TimerPhase.holds]) ?_ (by simp)
    intro m
    have howner : s.lock = some .timer := h.timer.2 (by rw [unlocking]; rfl)
    simp [howner]
  | empty phase _ | later phase _ _ | due phase _ _ | callbackReturns phase _ | readNone phase
  | readMin phase _ | readErased phase _ | wait phase | wake phase =>
    refine h.setTimer rfl ?_ (fun _ => Iff.rfl) (by simp)
    rw [h.timer, phase]
    rfl

/-- A user thread moves alone: the other users and the callback stay where they are. -/
theorem UserMove.frame (hmove : UserMove s n a t) :
    (∀ m, m ≠ n → t.users m = s.users m) ∧
      ∀ e p, t.timer = .calling e p ↔ s.timer = .calling e p := by
  cases hmove with
  | enter | acquire | release =>
    exact ⟨fun m hm => Function.update_of_ne hm _ _, fun _ _ => Iff.rfl⟩
  | perform inside searched performed =>
    obtain ⟨-, husers, htimer⟩ := perform_frame performed
    refine ⟨fun m hm => ?_, fun e p => by simp only [htimer]⟩
    exact (Function.update_of_ne hm _ _).trans (by rw [husers])
  | notify notifying =>
    obtain ⟨-, husers, -, -, hcalling⟩ := notifyOne_frame s
    refine ⟨fun m hm => ?_, hcalling⟩
    exact (Function.update_of_ne hm _ _).trans (by rw [husers])

/-- A thread that is in a call does not start to spin. -/
theorem UserMove.not_spinning (hmove : UserMove s n a t) (hinside : s.users n ≠ none) :
    t.users n ≠ some (.acquiring c) := by
  cases hmove with
  | enter outside locks => exact absurd outside hinside
  | perform inside searched performed =>
    rename_i first t'
    cases first <;> simp
  | acquire | notify | release => simp

theorem ProcessMove.users_eq {b : ProcessLabel} (hmove : ProcessMove s b t) :
    t.users = s.users := by
  cases hmove <;> rfl

/-- Callbacks are called by the scan, outside of any call. -/
theorem ProcessMove.calling {b : ProcessLabel} (hmove : ProcessMove s b t) {e : TimerEvent}
    {p : Option CallPhase} (hcalling : t.timer = .calling e p) :
    p = none ∧ ∃ now, b = .scan now := by
  cases hmove with
  | due => exact ⟨(TimerPhase.calling.inj hcalling).2.symm, _, rfl⟩
  | loop looping => cases hstopped : s.stopped <;> simp [hstopped] at hcalling
  | _ => cases hcalling

/-- While a callback runs, `process` can only go on with its return. -/
theorem ProcessMove.of_calling {b : ProcessLabel} (hmove : ProcessMove s b t) {e : TimerEvent}
    {p : Option CallPhase} (hcalling : s.timer = .calling e p) :
    ∃ tree, b = .callbackReturns tree := by
  cases hmove with
  | callbackReturns calling searched => exact ⟨_, rfl⟩
  | _ => simp_all

/-- Every step keeps the lock with the thread in a phase that holds it. -/
theorem systemStep_lockInv {b : SystemLabel} (h : LockInv s) (hstep : systemStep s b = some t) :
    LockInv t := by
  cases b with
  | call me a => exact callMove_lockInv h (callStep_move h hstep)
  | process a => exact processMove_lockInv h (processStep_move hstep)

/-- It is there in every state of a run. -/
theorem run_lockInv {labels : List SystemLabel} (hrun : run systemStep .start labels = some t) :
    LockInv t :=
  (always_of_forall (Q := fun _ => True) (fun _ _ _ h _ hstep => systemStep_lockInv h hstep)
    start_lockInv fun _ _ => trivial).last hrun

end Lock

/-! ## Callbacks that call the timer -/

/-- Some thread tries to get the lock that it holds. -/
def SelfLocks (s : System) : Prop :=
  ∃ me c, s.callOf me = some (some (.acquiring c)) ∧ s.lock = some me

/-- A callback that runs can return. -/
def CallbackReturns (s : System) : Prop :=
  ∀ e call, s.timer = .calling e call →
    ∃ labels t, run systemStep s labels = some t ∧ t.timer = .scanning

/-- A callback makes no call that takes the lock. -/
def LeavesTimerAlone (_ : System) : SystemLabel → Prop
  | .call .timer (.enter c) => c.locks = false
  | _ => True

instance (s : System) : ∀ a, Decidable (LeavesTimerAlone s a)
  | .call .timer (.enter c) => inferInstanceAs (Decidable (c.locks = false))
  | .call .timer .acquire | .call .timer (.perform _) | .call .timer .notify
  | .call .timer .release | .call (.user _) _ | .process _ => isTrue trivial

/-- A callback is in no call. -/
structure CallbackInv (s : System) : Prop extends LockInv s where
  idle : ∀ e call, s.timer = .calling e call → call = none

section Callbacks

variable {s t : System} {a : SystemLabel} {e : TimerEvent} {c : Call}

theorem CallbackInv.not_selfLocks (h : CallbackInv s) : ¬ SelfLocks s := by
  rintro ⟨me, c, hcall, howner⟩
  cases me with
  | timer =>
    obtain ⟨e, he⟩ := callOf_timer hcall
    cases h.idle e _ he
  | user n =>
    refine h.toLockInv.not_owns (Option.some.inj hcall) ?_ howner
    intro p hp
    cases hp
    rfl

theorem CallbackInv.callbackReturns (h : CallbackInv s) : CallbackReturns s := by
  intro e call hcalling
  obtain rfl := h.idle e call hcalling
  refine ⟨[.process (.callbackReturns (spine s.tables.eventsEntry))],
    { s with
      tables := s.tables.eraseEvent e (spine s.tables.eventsEntry)
      timer := .scanning }, ?_, rfl⟩
  simp only [run, systemStep, processStep, hcalling, inorder_spine, if_true, Option.bind_some]

/-- A callback enters a call only by itself. -/
theorem systemStep_callbackInv (h : CallbackInv s) (hguard : LeavesTimerAlone s a)
    (hstep : systemStep s a = some t) : CallbackInv t := by
  refine ⟨systemStep_lockInv h.toLockInv hstep, ?_⟩
  cases a with
  | call me b =>
    cases callStep_move h.toLockInv hstep with
    | returns outside locks => exact h.idle
    | spins calling locks =>
      have hnot : _ = false := hguard
      rw [locks] at hnot
      cases hnot
    | user move =>
      cases move with
      | enter | acquire | release => exact h.idle
      | perform inside searched performed =>
        obtain ⟨-, -, htimer⟩ := perform_frame performed
        simp only [htimer]
        exact h.idle
      | notify notifying =>
        obtain ⟨-, -, -, -, hcalling⟩ := notifyOne_frame s
        intro e call he
        exact h.idle e call ((hcalling e call).1 he)
  | process b =>
    cases processStep_move hstep with
    | loop looping =>
      intro e call he
      simp only at he
      split_ifs at he
    | due scanning first =>
      intro e call he
      exact (TimerPhase.calling.inj he).2.symm
    | _ =>
      nofun

/-- A callback that makes a call with the lock spins for the lock of its own thread. -/
theorem selfLocks_of_call (h : CallbackInv s) (hguard : ¬ LeavesTimerAlone s a)
    (hstep : systemStep s a = some t) : SelfLocks t := by
  match a, hguard with
  | .call .timer (.enter c), hguard =>
    have hmove : CallMove s .timer (.enter c) t := callStep_move h.toLockInv hstep
    cases hmove with
    | returns outside locks => exact absurd locks hguard
    | spins calling locks =>
      have howner : s.lock = some .timer := h.timer.2 (by rw [calling]; rfl)
      exact ⟨.timer, c, rfl, howner⟩
  | .call .timer .acquire, hguard => exact absurd trivial hguard
  | .call .timer (.perform _), hguard => exact absurd trivial hguard
  | .call .timer .notify, hguard => exact absurd trivial hguard
  | .call .timer .release, hguard => exact absurd trivial hguard
  | .call (.user _) _, hguard => exact absurd trivial hguard
  | .process _, hguard => exact absurd trivial hguard

/-- A callback that spins for the lock of its own thread goes on spinning. -/
theorem stuck_step (h : LockInv s) (hspins : s.timer = .calling e (some (.acquiring c)))
    (hstep : systemStep s a = some t) : t.timer = .calling e (some (.acquiring c)) := by
  cases a with
  | call me b =>
    cases callStep_move h hstep with
    | returns outside locks => exact hspins
    | spins calling locks =>
      rw [hspins] at calling
      cases calling
    | user move =>
      cases move with
      | enter | acquire | release => exact hspins
      | perform inside searched performed => exact (perform_frame performed).2.2.trans hspins
      | notify notifying =>
        exact ((notifyOne_frame s).2.2.2.2 e _).2 hspins
  | process b =>
    have hmove := processStep_move hstep
    cases hmove <;> simp_all

/-- It never comes out of the callback. -/
theorem stuck_run (h : LockInv s) (hspins : s.timer = .calling e (some (.acquiring c)))
    (labels : List SystemLabel) (hrun : run systemStep s labels = some t) :
    t.timer = .calling e (some (.acquiring c)) := by
  induction labels generalizing s with
  | nil =>
    cases hrun
    exact hspins
  | cons a labels ih =>
    obtain ⟨s', hstep, hrest⟩ := run_cons_eq_some.1 hrun
    exact ih (systemStep_lockInv h hstep) (stuck_step h hspins hstep) hrest

end Callbacks

/-- In every run no thread ever tries to get the spin lock while it holds it and every callback
can return, exactly when no callback makes a call that takes the lock. -/
theorem no_self_deadlock_iff (labels : List SystemLabel) (t : System)
    (hrun : run systemStep .start labels = some t) :
    Always systemStep (fun s => ¬ SelfLocks s ∧ CallbackReturns s) .start labels ↔
      Guarded systemStep LeavesTimerAlone .start labels := by
  have hstart : CallbackInv .start := by
    refine ⟨start_lockInv, ?_⟩
    nofun
  exact always_iff_guarded (I := CallbackInv) (Q := fun _ => True)
    (fun _ _ _ h _ hguard hstep => systemStep_callbackInv h hguard hstep)
    (fun _ h => ⟨h.not_selfLocks, h.callbackReturns⟩)
    (fun _ _ _ h _ hguard hstep hP => hP.1 (selfLocks_of_call h hguard hstep))
    hstart (fun _ _ => trivial) hrun

/-- A user subscribes an event whose callback leaves the timer alone, and it fires. -/
theorem no_self_deadlock_iff_plain_callback :
    let ev : Event := ⟨0, 7⟩
    let labels : List SystemLabel :=
      [.call (.user 0) (.enter (.subscribeAt ⟨10, 0⟩ ev)), .call (.user 0) .acquire,
        .call (.user 0) (.perform .nil), .call (.user 0) .notify, .call (.user 0) .release,
        .process .loop, .process .acquire, .process (.scan ⟨11, 0⟩),
        .call .timer (.enter (.unsubscribe ⟨⟨0, 0⟩, 0⟩)),
        .process (.callbackReturns (.node (⟨⟨10, 0⟩, 7⟩, 0) .nil .nil)),
        .process (.scan ⟨11, 0⟩)]
    Always systemStep (fun s => ¬ SelfLocks s ∧ CallbackReturns s) .start labels := by
  intro ev labels
  exact (no_self_deadlock_iff labels _ (Option.some_get (by decide +kernel)).symm).2
    (by decide +kernel)

/-- The election timeout of a node: its callback subscribes the next timeout with
`SubscribeEventAfter`.  The timer thread then spins for the lock that it holds, and the
callback never returns. -/
theorem election_timeout_deadlocks :
    let leaderHb : Event := ⟨0, 7⟩
    let labels : List SystemLabel :=
      [.call (.user 0) (.enter (.subscribeAfter ⟨5, 0⟩ ⟨5, 0⟩ leaderHb)),
        .call (.user 0) .acquire, .call (.user 0) (.perform .nil), .call (.user 0) .notify,
        .call (.user 0) .release, .process .loop, .process .acquire, .process (.scan ⟨11, 0⟩),
        .call .timer (.enter (.subscribeAfter ⟨11, 0⟩ ⟨5, 0⟩ leaderHb))]
    ∃ s, run systemStep .start labels = some s ∧ SelfLocks s ∧
      s.timer = .calling ⟨0, ⟨10, 0⟩, leaderHb⟩
        (some (.acquiring (.subscribeAt ⟨16, 0⟩ leaderHb))) ∧
      ∀ more t, run systemStep s more = some t → t.timer = s.timer := by
  intro leaderHb labels
  obtain ⟨s, hrun, howner, htimer⟩ : ∃ s ∈ run systemStep .start labels,
      s.lock = some .timer ∧ s.timer = .calling ⟨0, ⟨10, 0⟩, leaderHb⟩
        (some (.acquiring (.subscribeAt ⟨16, 0⟩ leaderHb))) := by
    decide +kernel
  refine ⟨s, hrun, ⟨.timer, .subscribeAt ⟨16, 0⟩ leaderHb, ?_, howner⟩, htimer, ?_⟩
  · simp only [System.callOf, htimer]
  · intro more t hmore
    rw [stuck_run (run_lockInv hrun) htimer more hmore, htimer]

end Timer
end CCraft
