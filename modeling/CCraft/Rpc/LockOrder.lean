import CCraft.Lib.Deadlock
import CCraft.Rpc.Timeout
import CCraft.Timer.Process

/-!
# Locks of the RPC client and of the timer

Two spin locks guard the calls of a client and the tables of the timer.  The threads that
finish calls take `m_slRpcCtxs` and, under it, the lock of the timer to cancel the timeouts.
The timer thread calls the timeout callback under its own lock, and the callback takes
`m_slRpcCtxs`.

The timer is the one of {lit}`Timer.System`; each thread of the client is a user of the timer.
The timeout callback makes no call to the timer, so `m_slRpcCtxs` is the only spin lock it
takes.

Main results:

- Theorem {lit}`lockStep_inv`: each lock is held by the thread in a phase that holds it.
- Theorem {lit}`LockSystemInv.deadlockFree_iff`: the threads are deadlocked exactly when the
  timeout callback waits for `m_slRpcCtxs` and its holder waits for the timer.
- Theorem {lit}`run_stays_crossed`: that deadlock never ends.
- Theorem {lit}`no_lock_order_deadlock_iff`: no set of threads is ever deadlocked exactly when
  no thread starts to wait for the timer under `m_slRpcCtxs` while a callback waits for
  `m_slRpcCtxs`, and no callback starts while the holder of `m_slRpcCtxs` waits for the timer.
-/

namespace CCraft
namespace Rpc

open Net Runs Timer

/-! ## Threads -/

/-- What a thread does under `m_slRpcCtxs`: the two branches of `onRecvMessage`, and the
registration in `recvMessage`. -/
inductive TableJob where
  | message (id : Nat)
  | worker (peer : NetPeerInfo)
  | register (rc : RpcCtx)
deriving DecidableEq, Repr

/-- What the job does to the tables. -/
def TableJob.change (tables : GroupIndex Nat NetPeerInfo RpcCtx) :
    TableJob → GroupIndex Nat NetPeerInfo RpcCtx
  | .message id =>
    match tables.entries.lookup id with
    | none => tables
    | some rc => tables.remove id rc.peer rc
  | .worker peer => tables.removeGroup RpcCtx.msgId peer
  | .register rc => tables.add rc.msgId rc.peer rc

/-- What a step of the client does under `m_slRpcCtxs`. -/
def ClientLabel.job {R : Type} (s : SyncClient R) : ClientLabel R → Option TableJob
  | .register id peer => some (.register ⟨s.made.length, peer, id⟩)
  | .message id _ => some (.message id)
  | .timeout id => some (.message id)
  | .worker peer => some (.worker peer)
  | _ => none

/-- The jobs change the tables as the steps of {lit}`SyncClient` do. -/
theorem clientStep_change {R : Type} {s s' : SyncClient R} {a : ClientLabel R}
    (hstep : clientStep s a = some s') :
    s'.tables = (a.job s).elim s.tables fun job => job.change s.tables := by
  have htake : ∀ id c, (s.take id c).tables = (TableJob.message id).change s.tables := by
    intro id c
    simp only [SyncClient.take, TableJob.change]
    cases s.tables.entries.lookup id <;> rfl
  cases clientStep_move hstep with
  | message | timeout => exact htake _ _
  | @worker peer =>
    show (s.breakPeer peer).tables = s.tables.removeGroup RpcCtx.msgId peer
    unfold SyncClient.breakPeer
    split
    case h_1 hnone => rw [GroupIndex.removeGroup_of_none hnone]
    case h_2 => rfl
  | _ => rfl

/-- Where a thread of the client is. -/
inductive RpcPhase where
  | idle
  | acquiring (job : TableJob)
  | holding (job : TableJob)
  | cancelling (job : TableJob) (rcs : List RpcCtx)
  | unsubscribing (job : TableJob) (rcs : List RpcCtx)
  | leaving (next : Option RpcCtx)
  | initialising (rc : RpcCtx)
  | subscribing (rc : RpcCtx)
  | subscribed (rc : RpcCtx) (when : CcTime)
  | answered (rc : RpcCtx) (eventId : EventId)
deriving DecidableEq, Repr

namespace RpcPhase

/-- The thread has `m_slRpcCtxs`. -/
def holds : RpcPhase → Bool
  | .holding _ | .cancelling _ _ | .unsubscribing _ _ | .leaving _ => true
  | _ => false

/-- The thread may be in a call of the timer. -/
def usesTimer : RpcPhase → Bool
  | .unsubscribing _ _ | .subscribed _ _ | .answered _ _ => true
  | _ => false

end RpcPhase

/-- Where the timeout callback is, while the timer thread calls it. -/
inductive CallbackPhase where
  | wanting
  | holding
  | finished
deriving DecidableEq, Repr

/-- A client and the timer: `m_slRpcCtxs`, the two tables, the ids of the timeouts by the
address of the context, `m_timeout`, the id that the callback has captured, and the threads. -/
structure LockSystem where
  timer : System
  ctxLock : Option Owner
  tables : GroupIndex Nat NetPeerInfo RpcCtx
  timerEv : Nat → EventId
  timeout : CcTime
  captured : Option Nat
  threads : Nat → RpcPhase
  callback : CallbackPhase

namespace LockSystem

def start (timeout : CcTime) : LockSystem where
  timer := .start
  ctxLock := none
  tables := .empty
  timerEv := fun _ => ⟨⟨0, 0⟩, 0⟩
  timeout := timeout
  captured := none
  threads := fun _ => .idle
  callback := .finished

def setThread (s : LockSystem) (n : Nat) (p : RpcPhase) : LockSystem :=
  { s with threads := Function.update s.threads n p }

/-- The callback runs and spins for `m_slRpcCtxs`. -/
def callbackWaits (s : LockSystem) : Bool :=
  match s.timer.timer, s.callback with
  | .calling _ _, .wanting => true
  | _, _ => false

/-- The thread that has `m_slRpcCtxs` spins for the lock of the timer. -/
def holderSpins (s : LockSystem) : Bool :=
  match s.ctxLock with
  | some (.user n) =>
    match s.timer.users n with
    | some (.acquiring _) => true
    | _ => false
  | _ => false

end LockSystem

/-- The steps of the threads of the client and of the callback, and the steps inside the
timer. -/
inductive LockLabel where
  | start (n : Nat) (job : TableJob)
  | acquire (n : Nat)
  | lookUp (n : Nat) (rcs : List RpcCtx)
  | cancel (n : Nat)
  | cancelled (n : Nat)
  | release (n : Nat)
  | initialise (n : Nat)
  | subscribe (n : Nat) (now : CcTime)
  | finish (n : Nat)
  | callbackAcquires
  | callbackReleases
  | timer (a : SystemLabel)

/-- What a thread finds in the tables.  The contexts of a peer come in the order of a set of
pointers, which is given. -/
def lookUpStep (s : LockSystem) (n : Nat) (rcs : List RpcCtx) : Option LockSystem :=
  match s.threads n with
  | .holding (.message id) =>
    match s.tables.entries.lookup id with
    | none => some (s.setThread n (.leaving none))
    | some rc => some (s.setThread n (.cancelling (.message id) [rc]))
  | .holding (.worker peer) =>
    if rcs.Nodup ∧ rcs.toFinset = s.tables.members peer then
      some (s.setThread n (.cancelling (.worker peer) rcs))
    else none
  | .holding (.register rc) =>
    some (({ s with tables := (TableJob.register rc).change s.tables } : LockSystem).setThread n
      (.leaving (some rc)))
  | _ => none

/-- A thread calls `UnsubscribeEvent` for its next context.  The tables, which only the owner
of the lock can see, are changed when all contexts are done. -/
def cancelStep (s : LockSystem) (n : Nat) : Option LockSystem :=
  match s.threads n with
  | .cancelling job [] =>
    some (({ s with tables := job.change s.tables } : LockSystem).setThread n (.leaving none))
  | .cancelling job (rc :: rcs) =>
    (callStep s.timer (.user n) (.enter (.unsubscribe (s.timerEv rc.address)))).map fun timer =>
      ({ s with timer := timer } : LockSystem).setThread n (.unsubscribing job rcs)
  | _ => none

/-- A caller calls `SubscribeEventAfter` for its timeout. -/
def subscribeStep (s : LockSystem) (n : Nat) (now : CcTime) : Option LockSystem :=
  match s.threads n with
  | .subscribing rc =>
    let c := Call.subscribeAfter now s.timeout timeoutEvent
    (callStep s.timer (.user n) (.enter c)).map fun timer =>
      ({ s with timer := timer } : LockSystem).setThread n
        (.subscribed rc (now.add s.timeout))
  | _ => none

/-- What `SubscribeEventAfter` answers a caller when the timer performs its call. -/
def answer (s : LockSystem) (tree : EntryTree) : RpcPhase → RpcPhase
  | .subscribed rc when =>
    .answered rc (s.timer.tables.subscribeEventAt when timeoutEvent tree).1
  | p => p

/-- The steps inside the timer: those of the calls that are under way, and those of `process`,
which starts a callback when an event is due and goes on when the callback is finished. -/
def timerThreadStep (s : LockSystem) : SystemLabel → Option LockSystem
  | .call .timer _ => none
  | .call (.user _) (.enter _) => none
  | .call (.user n) (.perform tree) =>
    (callStep s.timer (.user n) (.perform tree)).map fun timer =>
      ({ s with timer := timer } : LockSystem).setThread n (answer s tree (s.threads n))
  | .call (.user n) a => (callStep s.timer (.user n) a).map fun timer => { s with timer := timer }
  | .process (.scan now) =>
    (processStep s.timer (.scan now)).map fun timer =>
      { s with timer := timer, callback := .wanting }
  | .process (.callbackReturns tree) =>
    if s.callback = .finished then
      (processStep s.timer (.callbackReturns tree)).map fun timer => { s with timer := timer }
    else none
  | .process a => (processStep s.timer a).map fun timer => { s with timer := timer }

def lockStep (s : LockSystem) : LockLabel → Option LockSystem
  | .start n job =>
    if s.threads n = .idle then some (s.setThread n (.acquiring job)) else none
  | .acquire n =>
    match s.threads n with
    | .acquiring job =>
      if s.ctxLock = none then
        some (({ s with ctxLock := some (.user n) } : LockSystem).setThread n (.holding job))
      else none
    | _ => none
  | .lookUp n rcs => lookUpStep s n rcs
  | .cancel n => cancelStep s n
  | .cancelled n =>
    match s.threads n with
    | .unsubscribing job rcs =>
      if s.timer.users n = none then some (s.setThread n (.cancelling job rcs)) else none
    | _ => none
  | .release n =>
    match s.threads n with
    | .leaving next =>
      some (({ s with ctxLock := none } : LockSystem).setThread n
        (next.elim .idle .initialising))
    | _ => none
  | .initialise n =>
    match s.threads n with
    | .initialising rc =>
      some (({ s with captured := s.captured.or (some rc.msgId) } : LockSystem).setThread n
        (.subscribing rc))
    | _ => none
  | .subscribe n now => subscribeStep s n now
  | .finish n =>
    match s.threads n with
    | .answered rc eventId =>
      if s.timer.users n = none then
        -- without an event the caller throws and leaves `timer_ev` as it was
        let timerEv :=
          if eventId.when.getTotalNsecs = 0 then s.timerEv
          else Function.update s.timerEv rc.address eventId
        some (({ s with timerEv := timerEv } : LockSystem).setThread n .idle)
      else none
    | _ => none
  | .callbackAcquires =>
    if s.callbackWaits = true ∧ s.ctxLock = none then
      some { s with ctxLock := some .timer, callback := .holding }
    else none
  | .callbackReleases =>
    if s.callback = .holding then
      some { s with
        ctxLock := none
        callback := .finished
        tables := s.captured.elim s.tables fun id => (TableJob.message id).change s.tables }
    else none
  | .timer a => timerThreadStep s a

/-! ## Waiting and holding -/

/-- The two spin locks. -/
inductive Spin where
  | rpcCtxs
  | timer
deriving DecidableEq, Repr

namespace LockSystem

/-- The thread that holds a lock. -/
def holder (s : LockSystem) : Spin → Option Owner
  | .rpcCtxs => s.ctxLock
  | .timer => s.timer.lock

/-- The lock that a thread spins for. -/
def waits (s : LockSystem) : Owner → Option Spin
  | .user n =>
    match s.threads n, s.timer.users n with
    | .acquiring _, _ => some .rpcCtxs
    | _, some (.acquiring _) => some .timer
    | _, _ => none
  | .timer =>
    match s.timer.timer with
    | .acquiring => some .timer
    | .calling _ _ => if s.callback = .wanting then some .rpcCtxs else none
    | _ => none

/-- The next context of the thread has a timeout, for which it takes the lock of the timer. -/
def startsCancel (s : LockSystem) (n : Nat) : Bool :=
  match s.threads n with
  | .cancelling _ (rc :: _) => (Call.unsubscribe (s.timerEv rc.address)).locks
  | _ => false

/-- The first event is due, so `process` calls the callback. -/
def startsCallback (s : LockSystem) (now : CcTime) : Bool :=
  match s.timer.tables.subscribedEvents with
  | e :: _ => !e.when.gt now
  | [] => false

end LockSystem

/-- No set of threads is deadlocked. -/
def DeadlockFree (s : LockSystem) : Prop :=
  ∀ threads : Set Owner, ¬ Locking.Deadlocked s.holder s.waits threads

/-- No thread starts to wait for the timer under `m_slRpcCtxs` while a callback waits for
`m_slRpcCtxs`, and no callback starts while the holder of `m_slRpcCtxs` waits for the timer. -/
def NotCrossing (s : LockSystem) : LockLabel → Prop
  | .cancel n => (s.startsCancel n && s.callbackWaits) = false
  | .timer (.process (.scan now)) => (s.startsCallback now && s.holderSpins) = false
  | _ => True

/-- Each lock is held by the thread in a phase that holds it, a thread is in a call of the timer
only where it makes one, and the callback makes none. -/
structure LockSystemInv (s : LockSystem) : Prop where
  timer : LockInv s.timer
  user : ∀ n, s.ctxLock = some (.user n) ↔ (s.threads n).holds = true
  callback : s.ctxLock = some .timer ↔ s.callback = .holding
  calls : ∀ n, s.timer.users n ≠ none → (s.threads n).usesTimer = true
  plain : ∀ e p, s.timer.timer ≠ .calling e (some p)
  running : s.callback = .holding → ∃ e, s.timer.timer = .calling e none

section Deadlocks

variable {s t : LockSystem} {n : Nat}

theorem start_inv (timeout : CcTime) : LockSystemInv (.start timeout) := by
  refine ⟨start_lockInv, ?_, ?_, ?_, ?_, ?_⟩ <;>
    simp [LockSystem.start, System.start, RpcPhase.holds]

theorem callbackWaits_iff (h : LockSystemInv s) :
    s.callbackWaits = true ↔ ∃ e, s.timer.timer = .calling e none ∧ s.callback = .wanting := by
  unfold LockSystem.callbackWaits
  constructor
  · intro hwaits
    split at hwaits
    case h_1 e call htimer hcallback =>
      cases call with
      | none => exact ⟨e, htimer, hcallback⟩
      | some p => exact absurd htimer (h.plain e p)
    case h_2 => cases hwaits
  · rintro ⟨e, htimer, hcallback⟩
    rw [htimer, hcallback]

theorem holderSpins_iff :
    s.holderSpins = true ↔
      ∃ n c, s.ctxLock = some (.user n) ∧ s.timer.users n = some (.acquiring c) := by
  unfold LockSystem.holderSpins
  constructor
  · intro hspins
    split at hspins
    case h_1 n hlock =>
      split at hspins
      case h_1 c hcall => exact ⟨n, c, hlock, hcall⟩
      case h_2 => cases hspins
    case h_2 => cases hspins
  · rintro ⟨n, c, hlock, hcall⟩
    simp only [hlock, hcall]

/-- A thread that spins for the timer waits for it. -/
theorem LockSystemInv.waits_timer (h : LockSystemInv s) {c : Call}
    (hcall : s.timer.users n = some (.acquiring c)) : s.waits (.user n) = some .timer := by
  have huses := h.calls n (by simp [hcall])
  unfold LockSystem.waits
  cases hphase : s.threads n <;> simp_all [RpcPhase.usesTimer]

/-- A thread that holds one lock and waits for one is a thread of the client that waits for the
timer, or the timer thread that waits for `m_slRpcCtxs`. -/
theorem LockSystemInv.holds_waits (h : LockSystemInv s) {o : Owner} {x y : Spin}
    (hholder : s.holder x = some o) (hwaits : s.waits o = some y) :
    x = .rpcCtxs ∧ y = .timer ∧ s.holderSpins = true ∨
      x = .timer ∧ y = .rpcCtxs ∧ s.callbackWaits = true := by
  cases o with
  | user n =>
    simp only [LockSystem.waits] at hwaits
    split at hwaits
    case h_1 job call hphase =>
      -- a thread that waits for `m_slRpcCtxs` holds nothing
      cases x with
      | rpcCtxs =>
        have hholds := (h.user n).1 hholder
        rw [hphase] at hholds
        cases hholds
      | timer =>
        obtain ⟨p, hp, -⟩ := (h.timer.user n).1 hholder
        have huses := h.calls n (by simp [hp])
        rw [hphase] at huses
        cases huses
    case h_2 c hcall _ =>
      cases hwaits
      cases x with
      | rpcCtxs => exact .inl ⟨rfl, rfl, holderSpins_iff.2 ⟨n, c, hholder, hcall⟩⟩
      | timer =>
        refine absurd hholder (h.timer.not_owns hcall ?_)
        intro p hp
        cases hp
        rfl
    case h_3 => cases hwaits
  | timer =>
    simp only [LockSystem.waits] at hwaits
    split at hwaits
    case h_1 htimer =>
      cases x with
      | rpcCtxs =>
        obtain ⟨e, he⟩ := h.running (h.callback.1 hholder)
        rw [htimer] at he
        cases he
      | timer =>
        have hholds := h.timer.timer.1 hholder
        rw [htimer] at hholds
        cases hholds
    case h_2 e call htimer =>
      obtain ⟨hwanting, ⟨⟩⟩ := Option.ite_none_right_eq_some.1 hwaits
      cases x with
      | rpcCtxs =>
        have hholding := h.callback.1 hholder
        rw [hwanting] at hholding
        cases hholding
      | timer =>
        refine .inr ⟨rfl, rfl, ?_⟩
        unfold LockSystem.callbackWaits
        rw [htimer, hwanting]
    case h_3 => cases hwaits

/-- The only deadlock is that of the callback and the holder of `m_slRpcCtxs`. -/
theorem LockSystemInv.deadlockFree_iff (h : LockSystemInv s) :
    DeadlockFree s ↔ (s.callbackWaits && s.holderSpins) = false := by
  constructor
  · intro hfree
    by_contra hcross
    simp only [Bool.and_eq_false_iff, not_or, Bool.not_eq_false] at hcross
    obtain ⟨e, htimer, hcallback⟩ := (callbackWaits_iff h).1 hcross.1
    obtain ⟨n, c, hlock, hcall⟩ := holderSpins_iff.1 hcross.2
    have howns : s.timer.lock = some .timer := h.timer.timer.2 (by rw [htimer]; rfl)
    refine hfree {.timer, .user n} ?_
    refine Locking.deadlocked_pair (x := .rpcCtxs) (y := .timer) hlock ?_ howns
      (h.waits_timer hcall)
    simp [LockSystem.waits, htimer, hcallback]
  · intro hcross threads
    -- the lock whose holders do not wait comes last
    refine Locking.not_deadlocked_of_order
      (fun x => if (x = .rpcCtxs) = (s.holderSpins = true) then 0 else 1) 2 ?_ ?_
    · intro x
      split_ifs <;> omega
    · intro o x y hholder hwaits
      rcases h.holds_waits hholder hwaits with ⟨rfl, rfl, hspins⟩ | ⟨rfl, rfl, hcallback⟩
      · simp [hspins]
      · have hspins : s.holderSpins = false := by simpa [hcallback] using hcross
        simp [hspins]

end Deadlocks

/-! ## Steps -/

section Steps

variable {s t : LockSystem} {n : Nat} {a : LockLabel}

/-- What the steps do to the locks and to the threads. -/
inductive LockMove (s : LockSystem) : LockLabel → LockSystem → Prop
  | own {a : LockLabel} {n : Nat} {p : RpcPhase} {t : LockSystem}
      (outside : s.timer.users n = none) (same : p.holds = (s.threads n).holds)
      (thread : t.threads = Function.update s.threads n p)
      (frame : t.timer = s.timer ∧ t.ctxLock = s.ctxLock ∧ t.callback = s.callback)
      (quiet : NotCrossing s a) : LockMove s a t
  | acquire {n : Nat} {job : TableJob} (acquiring : s.threads n = .acquiring job)
      (free : s.ctxLock = none) :
      LockMove s (.acquire n)
        (({ s with ctxLock := some (.user n) } : LockSystem).setThread n (.holding job))
  | release {n : Nat} {next : Option RpcCtx} (leaving : s.threads n = .leaving next) :
      LockMove s (.release n)
        (({ s with ctxLock := none } : LockSystem).setThread n (next.elim .idle .initialising))
  | cancel {n : Nat} {job : TableJob} {rc : RpcCtx} {rcs : List RpcCtx} {c : Call}
      {timer : System} (cancelling : s.threads n = .cancelling job (rc :: rcs))
      (locks : s.startsCancel n = true) (move : UserMove s.timer n (.enter c) timer) :
      LockMove s (.cancel n)
        (({ s with timer := timer } : LockSystem).setThread n (.unsubscribing job rcs))
  | subscribe {n : Nat} {now when : CcTime} {rc : RpcCtx} {c : Call}
      {timer : System} (subscribing : s.threads n = .subscribing rc)
      (move : UserMove s.timer n (.enter c) timer) :
      LockMove s (.subscribe n now)
        (({ s with timer := timer } : LockSystem).setThread n (.subscribed rc when))
  | callbackAcquires (waits : s.callbackWaits = true) (free : s.ctxLock = none) :
      LockMove s .callbackAcquires { s with ctxLock := some .timer, callback := .holding }
  | callbackReleases {tables : GroupIndex Nat NetPeerInfo RpcCtx}
      (holding : s.callback = .holding) :
      LockMove s .callbackReleases
        { s with ctxLock := none, callback := .finished, tables := tables }
  | call {n : Nat} {b : CallLabel} {p : RpcPhase} {timer : System}
      (inside : s.timer.users n ≠ none)
      (move : UserMove s.timer n b timer) (same : p.holds = (s.threads n).holds)
      (uses : p.usesTimer = (s.threads n).usesTimer) :
      LockMove s (.timer (.call (.user n) b))
        (({ s with timer := timer } : LockSystem).setThread n p)
  | scan {now : CcTime} {timer : System} (move : ProcessMove s.timer (.scan now) timer) :
      LockMove s (.timer (.process (.scan now)))
        { s with timer := timer, callback := .wanting }
  | process {b : ProcessLabel} {timer : System} (move : ProcessMove s.timer b timer)
      (idle : s.callback ≠ .finished → ∀ tree, b ≠ .callbackReturns tree)
      (other : ∀ now, b ≠ .scan now) :
      LockMove s (.timer (.process b)) { s with timer := timer }

theorem LockSystemInv.outside (h : LockSystemInv s) (hphase : (s.threads n).usesTimer = false) :
    s.timer.users n = none := by
  by_contra hinside
  rw [h.calls n hinside] at hphase
  cases hphase

theorem lookUpStep_move {rcs : List RpcCtx} (h : LockSystemInv s)
    (hstep : lookUpStep s n rcs = some t) : LockMove s (.lookUp n rcs) t := by
  unfold lookUpStep at hstep
  split at hstep
  case h_1 id hphase =>
    have houtside := h.outside (n := n) (by rw [hphase]; rfl)
    split at hstep <;> cases hstep <;>
      exact .own houtside (by rw [hphase]; rfl) rfl ⟨rfl, rfl, rfl⟩ trivial
  case h_2 peer hphase =>
    obtain ⟨-, ⟨⟩⟩ := Option.ite_none_right_eq_some.1 hstep
    exact .own (h.outside (by rw [hphase]; rfl)) (by rw [hphase]; rfl) rfl ⟨rfl, rfl, rfl⟩ trivial
  case h_3 rc hphase =>
    cases hstep
    exact .own (h.outside (by rw [hphase]; rfl)) (by rw [hphase]; rfl) rfl ⟨rfl, rfl, rfl⟩ trivial
  case h_4 => cases hstep

theorem cancelStep_move (h : LockSystemInv s) (hstep : cancelStep s n = some t) :
    LockMove s (.cancel n) t := by
  unfold cancelStep at hstep
  split at hstep
  case h_1 job hphase =>
    cases hstep
    refine .own (h.outside (by rw [hphase]; rfl)) (by rw [hphase]; rfl) rfl ⟨rfl, rfl, rfl⟩ ?_
    simp [NotCrossing, LockSystem.startsCancel, hphase]
  case h_2 job rc rcs hphase =>
    obtain ⟨timer, hcall, rfl⟩ := Option.map_eq_some_iff.1 hstep
    cases callStep_move h.timer hcall with
    | returns outside locks =>
      refine .own (Option.some.inj outside) (by rw [hphase]; rfl) rfl ⟨rfl, rfl, rfl⟩ ?_
      simp [NotCrossing, LockSystem.startsCancel, hphase, locks]
    | user move =>
      refine .cancel hphase ?_ move
      cases move with
      | enter outside locks =>
        simp only [LockSystem.startsCancel, hphase]
        exact locks
  case h_3 => cases hstep

theorem subscribeStep_move {now : CcTime} (h : LockSystemInv s)
    (hstep : subscribeStep s n now = some t) : LockMove s (.subscribe n now) t := by
  unfold subscribeStep at hstep
  split at hstep
  case h_1 rc hphase =>
    obtain ⟨timer, hcall, rfl⟩ := Option.map_eq_some_iff.1 hstep
    cases callStep_move h.timer hcall with
    | returns outside locks => cases locks
    | user move => exact .subscribe hphase move
  case h_2 => cases hstep

/-- A call goes on in the timer. -/
theorem callStep_lockMove {b : CallLabel} {p : RpcPhase} {timer : System} (h : LockSystemInv s)
    (hcall : callStep s.timer (.user n) b = some timer) (hinside : ∀ c, b ≠ .enter c)
    (hsame : p.holds = (s.threads n).holds) (huses : p.usesTimer = (s.threads n).usesTimer) :
    LockMove s (.timer (.call (.user n) b))
      (({ s with timer := timer } : LockSystem).setThread n p) := by
  cases callStep_move h.timer hcall with
  | returns outside locks => exact absurd rfl (hinside _)
  | user move =>
    refine .call ?_ move hsame huses
    cases move with
    | enter outside locks => exact absurd rfl (hinside _)
    | acquire spinning free => simp [spinning]
    | perform inside searched performed => simp [inside]
    | notify notifying => simp [notifying]
    | release leaving => simp [leaving]

theorem setThread_self (s : LockSystem) (timer : System) (n : Nat) :
    ({ s with timer := timer } : LockSystem).setThread n (s.threads n) =
      { s with timer := timer } := by
  simp [LockSystem.setThread]

theorem answer_frame (tree : EntryTree) (p : RpcPhase) :
    (answer s tree p).holds = p.holds ∧ (answer s tree p).usesTimer = p.usesTimer := by
  cases p <;> exact ⟨rfl, rfl⟩

theorem timerThreadStep_move {b : SystemLabel} (h : LockSystemInv s)
    (hstep : timerThreadStep s b = some t) : LockMove s (.timer b) t := by
  unfold timerThreadStep at hstep
  split at hstep
  case h_1 => cases hstep
  case h_2 => cases hstep
  case h_3 n tree =>
    obtain ⟨timer, hcall, rfl⟩ := Option.map_eq_some_iff.1 hstep
    obtain ⟨hholds, huses⟩ := answer_frame (s := s) tree (s.threads n)
    exact callStep_lockMove h hcall (by simp) hholds huses
  case h_4 n b hnotEnter _ =>
    obtain ⟨timer, hcall, rfl⟩ := Option.map_eq_some_iff.1 hstep
    rw [← setThread_self s timer n]
    exact callStep_lockMove h hcall (fun c hc => hnotEnter c hc) rfl rfl
  case h_5 now =>
    obtain ⟨timer, hprocess, rfl⟩ := Option.map_eq_some_iff.1 hstep
    exact .scan (processStep_move hprocess)
  case h_6 tree =>
    simp only [Option.ite_none_right_eq_some] at hstep
    obtain ⟨hfinished, hstep⟩ := hstep
    obtain ⟨timer, hprocess, rfl⟩ := Option.map_eq_some_iff.1 hstep
    refine .process (processStep_move hprocess) ?_ (by simp)
    simp [hfinished]
  case h_7 b hnotScan hnotReturn =>
    obtain ⟨timer, hprocess, rfl⟩ := Option.map_eq_some_iff.1 hstep
    exact .process (processStep_move hprocess) (fun _ tree hb => hnotReturn tree hb)
      fun now hb => hnotScan now hb

/-- Under the invariant these are the steps. -/
theorem lockStep_move (h : LockSystemInv s) (hstep : lockStep s a = some t) : LockMove s a t := by
  cases a with
  | start n job =>
    obtain ⟨hphase, ⟨⟩⟩ := Option.ite_none_right_eq_some.1 hstep
    exact .own (h.outside (by rw [hphase]; rfl)) (by rw [hphase]; rfl) rfl ⟨rfl, rfl, rfl⟩ trivial
  | acquire n =>
    simp only [lockStep] at hstep
    split at hstep
    case h_1 job hphase =>
      obtain ⟨hfree, ⟨⟩⟩ := Option.ite_none_right_eq_some.1 hstep
      exact .acquire hphase hfree
    case h_2 => cases hstep
  | lookUp n rcs => exact lookUpStep_move h hstep
  | cancel n => exact cancelStep_move h hstep
  | cancelled n =>
    simp only [lockStep] at hstep
    split at hstep
    case h_1 job rcs hphase =>
      obtain ⟨houtside, ⟨⟩⟩ := Option.ite_none_right_eq_some.1 hstep
      exact .own houtside (by rw [hphase]; rfl) rfl ⟨rfl, rfl, rfl⟩ trivial
    case h_2 => cases hstep
  | release n =>
    simp only [lockStep] at hstep
    split at hstep
    case h_1 next hphase =>
      cases hstep
      exact .release hphase
    case h_2 => cases hstep
  | initialise n =>
    simp only [lockStep] at hstep
    split at hstep
    case h_1 rc hphase =>
      cases hstep
      exact .own (h.outside (by rw [hphase]; rfl)) (by rw [hphase]; rfl) rfl ⟨rfl, rfl, rfl⟩
        trivial
    case h_2 => cases hstep
  | subscribe n now => exact subscribeStep_move h hstep
  | finish n =>
    simp only [lockStep] at hstep
    split at hstep
    case h_1 rc eventId hphase =>
      obtain ⟨houtside, ⟨⟩⟩ := Option.ite_none_right_eq_some.1 hstep
      exact .own houtside (by rw [hphase]; rfl) rfl ⟨rfl, rfl, rfl⟩ trivial
    case h_2 => cases hstep
  | callbackAcquires =>
    obtain ⟨⟨hwaits, hfree⟩, ⟨⟩⟩ := Option.ite_none_right_eq_some.1 hstep
    exact .callbackAcquires hwaits hfree
  | callbackReleases =>
    obtain ⟨hholding, ⟨⟩⟩ := Option.ite_none_right_eq_some.1 hstep
    exact .callbackReleases hholding
  | timer b => exact timerThreadStep_move h hstep

/-- A thread of the client changes its phase, and takes or releases `m_slRpcCtxs`. -/
theorem LockSystemInv.setUser (h : LockSystemInv s) {p : RpcPhase} (htimer : LockInv t.timer)
    (hthreads : t.threads = Function.update s.threads n p)
    (hself : t.ctxLock = some (.user n) ↔ p.holds = true)
    (hothers : ∀ o, o ≠ .user n → (t.ctxLock = some o ↔ s.ctxLock = some o))
    (hcalls : t.timer.users n ≠ none → p.usesTimer = true)
    (husers : ∀ m, m ≠ n → t.timer.users m = s.timer.users m)
    (hcalling : ∀ e q, t.timer.timer = .calling e q ↔ s.timer.timer = .calling e q)
    (hcallback : t.callback = s.callback) : LockSystemInv t := by
  refine ⟨htimer, ?_, ?_, ?_, ?_, ?_⟩
  · intro m
    rw [hthreads, Function.update_apply]
    split_ifs with hm
    · rw [hm]
      exact hself
    · rw [hothers (.user m) (by simpa using hm)]
      exact h.user m
  · rw [hothers .timer (by simp), hcallback]
    exact h.callback
  · intro m hm
    rw [hthreads, Function.update_apply]
    split_ifs with heq
    · exact hcalls (heq ▸ hm)
    · exact h.calls m (husers m heq ▸ hm)
  · intro e q hcall
    exact h.plain e q ((hcalling e _).1 hcall)
  · intro hholding
    obtain ⟨e, he⟩ := h.running (hcallback ▸ hholding)
    exact ⟨e, (hcalling e none).2 he⟩

/-- A thread of the client takes a step of its call in the timer. -/
theorem LockSystemInv.userMove (h : LockSystemInv s) {b : CallLabel} {p : RpcPhase}
    {timer : System} (move : UserMove s.timer n b timer) (same : p.holds = (s.threads n).holds)
    (uses : p.usesTimer = true) :
    LockSystemInv (({ s with timer := timer } : LockSystem).setThread n p) := by
  obtain ⟨husers, hcalling⟩ := move.frame
  refine h.setUser (userMove_lockInv h.timer move) rfl ?_ (fun _ _ => Iff.rfl) (fun _ => uses)
    husers hcalling rfl
  rw [same]
  exact h.user n

/-- The timer thread takes a step. -/
theorem LockSystemInv.processMove (h : LockSystemInv s) {b : ProcessLabel} {timer : System}
    {callback : CallbackPhase} (move : ProcessMove s.timer b timer)
    (hlock : s.callback = .holding ↔ callback = .holding)
    (hrunning : callback = .holding → ∃ e, timer.timer = .calling e none) :
    LockSystemInv { s with timer := timer, callback := callback } := by
  refine ⟨processMove_lockInv h.timer move, h.user, h.callback.trans hlock, ?_, ?_, hrunning⟩
  · intro m hm
    exact h.calls m (move.users_eq ▸ hm)
  · intro e p hcalling
    cases (move.calling hcalling).1

/-- While the callback has `m_slRpcCtxs`, the timer thread waits for it to return. -/
theorem LockSystemInv.waits_for_callback (h : LockSystemInv s) {b : ProcessLabel} {timer : System}
    (move : ProcessMove s.timer b timer) (hnot : ∀ tree, b ≠ .callbackReturns tree) :
    s.callback ≠ .holding := by
  intro hholding
  obtain ⟨e, he⟩ := h.running hholding
  obtain ⟨tree, htree⟩ := move.of_calling he
  exact hnot tree htree

theorem lockMove_inv (h : LockSystemInv s) (hmove : LockMove s a t) : LockSystemInv t := by
  cases hmove with
  | own outside same thread frame quiet =>
    obtain ⟨htimer, hlock, hcallback⟩ := frame
    refine h.setUser (htimer ▸ h.timer) thread ?_ (fun o _ => by rw [hlock]) ?_
      (fun m _ => by rw [htimer]) (fun e q => by rw [htimer]) hcallback
    · rw [hlock, same]
      exact h.user _
    · simp [htimer, outside]
  | acquire acquiring free =>
    have houtside := h.outside (n := _) (by rw [acquiring]; rfl)
    refine h.setUser h.timer rfl (by simp [LockSystem.setThread, RpcPhase.holds]) ?_
      (fun hinside => absurd houtside hinside) (fun _ _ => rfl) (fun _ _ => Iff.rfl) rfl
    intro o ho
    simp [LockSystem.setThread, free, Ne.symm ho]
  | @release n next leaving =>
    have houtside := h.outside (n := n) (by rw [leaving]; rfl)
    have howns := (h.user n).2 (by rw [leaving]; rfl)
    refine h.setUser h.timer rfl ?_ ?_ (fun hinside => absurd houtside hinside)
      (fun _ _ => rfl) (fun _ _ => Iff.rfl) rfl
    · cases next <;> simp [LockSystem.setThread, RpcPhase.holds]
    · intro o ho
      simp [LockSystem.setThread, howns, Ne.symm ho]
  | cancel cancelling locks move => exact h.userMove move (by rw [cancelling]; rfl) rfl
  | subscribe subscribing move => exact h.userMove move (by rw [subscribing]; rfl) rfl
  | call inside move same uses => exact h.userMove move same (uses.trans (h.calls _ inside))
  | callbackAcquires waits free =>
    obtain ⟨e, he, -⟩ := (callbackWaits_iff h).1 waits
    refine ⟨h.timer, ?_, by simp, h.calls, h.plain, fun _ => ⟨e, he⟩⟩
    intro m
    rw [← h.user m]
    simp [free]
  | callbackReleases holding =>
    refine ⟨h.timer, ?_, by simp, h.calls, h.plain, by simp⟩
    intro m
    rw [← h.user m, h.callback.2 holding]
    simp
  | scan move =>
    have hnot := h.waits_for_callback move (by simp)
    exact h.processMove move (by simp [hnot]) (by simp)
  | process move idle other =>
    refine h.processMove move Iff.rfl ?_
    intro hholding
    have hbusy : s.callback ≠ .finished := fun hfinished => by
      cases hfinished.symm.trans hholding
    exact absurd hholding (h.waits_for_callback move (idle hbusy))

/-- Every step keeps each lock with the thread in a phase that holds it. -/
theorem lockStep_inv (h : LockSystemInv s) (hstep : lockStep s a = some t) : LockSystemInv t :=
  lockMove_inv h (lockStep_move h hstep)

end Steps

/-! ## Deadlocks along runs -/

instance (s : LockSystem) (a : LockLabel) : Decidable (NotCrossing s a) := by
  unfold NotCrossing
  split <;> infer_instance

section Runs

variable {s t : LockSystem} {a : LockLabel}

/-- The callback and the holder of `m_slRpcCtxs` wait for each other. -/
def LockSystem.Crossed (s : LockSystem) : Prop :=
  s.callbackWaits = true ∧ s.holderSpins = true

theorem LockSystemInv.deadlockFree_iff_not_crossed (h : LockSystemInv s) :
    DeadlockFree s ↔ ¬ s.Crossed := by
  rw [h.deadlockFree_iff, LockSystem.Crossed, ← Bool.and_eq_true, Bool.not_eq_true]

/-- A deadlock comes from a step that one of the two threads takes while the other waits. -/
theorem lockMove_crossed (h : LockSystemInv s) (hmove : LockMove s a t) (hnot : ¬ s.Crossed)
    (hcrossed : t.Crossed) : ¬ NotCrossing s a := by
  have hinv := lockMove_inv h hmove
  obtain ⟨e, htimer, hcallback⟩ := (callbackWaits_iff hinv).1 hcrossed.1
  obtain ⟨m, c, hlock, hcall⟩ := holderSpins_iff.1 hcrossed.2
  cases hmove with
  | own outside same thread frame quiet =>
    obtain ⟨htimerEq, hlockEq, hcallbackEq⟩ := frame
    refine absurd ⟨(callbackWaits_iff h).2 ⟨e, ?_, ?_⟩, holderSpins_iff.2 ⟨m, c, ?_, ?_⟩⟩ hnot
    · rw [← htimerEq, htimer]
    · rw [← hcallbackEq, hcallback]
    · rw [← hlockEq, hlock]
    · rw [← htimerEq, hcall]
  | acquire acquiring free =>
    cases Option.some.inj hlock
    have houtside := h.outside (by rw [acquiring]; rfl)
    rw [show s.timer.users _ = _ from hcall] at houtside
    cases houtside
  | release leaving => cases hlock
  | cancel cancelling locks move =>
    have hwaits : s.callbackWaits = true :=
      (callbackWaits_iff h).2 ⟨e, (move.frame.2 e none).1 htimer, hcallback⟩
    simp [NotCrossing, locks, hwaits]
  | subscribe subscribing move =>
    rename_i n _ _ _ _ _
    -- the caller does not hold `m_slRpcCtxs`, so it is not the thread that spins
    have hm : m ≠ n := by
      rintro rfl
      have hholds := (h.user m).1 hlock
      rw [subscribing] at hholds
      cases hholds
    refine absurd ⟨(callbackWaits_iff h).2 ⟨e, (move.frame.2 e none).1 htimer, hcallback⟩,
      holderSpins_iff.2 ⟨m, c, hlock, ?_⟩⟩ hnot
    rw [← move.frame.1 m hm]
    exact hcall
  | callbackAcquires | callbackReleases => cases hcallback
  | call inside move same uses =>
    rename_i n _ _ _
    have hm : m ≠ n := by
      rintro rfl
      exact move.not_spinning inside hcall
    refine absurd ⟨(callbackWaits_iff h).2 ⟨e, (move.frame.2 e none).1 htimer, hcallback⟩,
      holderSpins_iff.2 ⟨m, c, hlock, ?_⟩⟩ hnot
    rw [← move.frame.1 m hm]
    exact hcall
  | @scan now timer move =>
    have hspins : s.holderSpins = true :=
      holderSpins_iff.2 ⟨m, c, hlock, by rw [← move.users_eq]; exact hcall⟩
    have hstarts : s.startsCallback now = true := by
      cases move with
      | empty | later => cases htimer
      | due scanning first is_due => simp [LockSystem.startsCallback, first, is_due]
    simp [NotCrossing, hstarts, hspins]
  | process move idle other =>
    obtain ⟨now, hscan⟩ := (move.calling htimer).2
    exact absurd hscan (other now)

/-- A step that breaks the condition leads to a deadlock. -/
theorem lockMove_crosses (h : LockSystemInv s) (hmove : LockMove s a t)
    (hguard : ¬ NotCrossing s a) : t.Crossed := by
  have hinv := lockMove_inv h hmove
  cases hmove with
  | own outside same thread frame quiet => exact absurd quiet hguard
  | cancel cancelling locks move =>
    rename_i n job rc rcs c timer
    simp only [NotCrossing, locks, Bool.true_and, Bool.not_eq_false] at hguard
    obtain ⟨e, htimer, hcallback⟩ := (callbackWaits_iff h).1 hguard
    have howns := (h.user n).2 (by rw [cancelling]; rfl)
    refine ⟨(callbackWaits_iff hinv).2 ⟨e, (move.frame.2 e none).2 htimer, hcallback⟩, ?_⟩
    cases move with
    | enter outside _ =>
      exact holderSpins_iff.2 ⟨n, c, howns, Function.update_self _ _ _⟩
  | scan move =>
    simp only [NotCrossing, Bool.and_eq_false_iff, not_or, Bool.not_eq_false] at hguard
    obtain ⟨hstarts, hspins⟩ := hguard
    obtain ⟨m, c, hlock, hcall⟩ := holderSpins_iff.1 hspins
    refine ⟨?_, holderSpins_iff.2 ⟨m, c, hlock, by rw [move.users_eq]; exact hcall⟩⟩
    unfold LockSystem.startsCallback at hstarts
    cases move with
    | empty scanning none_left => simp [none_left] at hstarts
    | later scanning first not_due => simp [first, not_due] at hstarts
    | due => rfl
  | process move idle other =>
    rename_i b timer
    cases b with
    | scan now => exact absurd rfl (other now)
    | _ => exact absurd trivial hguard
  | _ => exact absurd trivial hguard

/-- The two threads wait for each other for ever. -/
theorem lockStep_stays_crossed (h : LockSystemInv s) (hcrossed : s.Crossed)
    (hstep : lockStep s a = some t) : t.Crossed := by
  have hmove := lockStep_move h hstep
  have hinv := lockMove_inv h hmove
  obtain ⟨e, htimer, hcallback⟩ := (callbackWaits_iff h).1 hcrossed.1
  obtain ⟨m, c, hlock, hcall⟩ := holderSpins_iff.1 hcrossed.2
  have howns : s.timer.lock = some .timer := h.timer.timer.2 (by rw [htimer]; rfl)
  have huses := h.calls m (by simp [hcall])
  -- the steps of a thread other than the two that wait
  have hother : ∀ {n b timer}, UserMove s.timer n b timer → m ≠ n →
      timer.timer = .calling e none ∧ timer.users m = some (.acquiring c) := by
    intro n b timer move hm
    exact ⟨(move.frame.2 e none).2 htimer, by rw [move.frame.1 m hm]; exact hcall⟩
  suffices hkept : t.timer.timer = .calling e none ∧ t.callback = .wanting ∧
      t.ctxLock = some (.user m) ∧ t.timer.users m = some (.acquiring c) from
    ⟨(callbackWaits_iff hinv).2 ⟨e, hkept.1, hkept.2.1⟩,
      holderSpins_iff.2 ⟨m, c, hkept.2.2.1, hkept.2.2.2⟩⟩
  cases hmove with
  | own outside same thread frame quiet =>
    obtain ⟨htimerEq, hlockEq, hcallbackEq⟩ := frame
    rw [htimerEq, hlockEq, hcallbackEq]
    exact ⟨htimer, hcallback, hlock, hcall⟩
  | acquire acquiring free | callbackAcquires waits free => simp [free] at hlock
  | release leaving =>
    rename_i n next
    have hn := (h.user n).2 (by rw [leaving]; rfl)
    cases Option.some.inj (hlock.symm.trans hn)
    rw [leaving] at huses
    cases huses
  | cancel cancelling locks move =>
    rename_i n _ _ _ _ _
    have hn := (h.user n).2 (by rw [cancelling]; rfl)
    cases Option.some.inj (hlock.symm.trans hn)
    rw [cancelling] at huses
    cases huses
  | subscribe subscribing move =>
    rename_i n _ _ _ _ _
    have hm : m ≠ n := by
      rintro rfl
      rw [subscribing] at huses
      cases huses
    exact ⟨(hother move hm).1, hcallback, hlock, (hother move hm).2⟩
  | callbackReleases holding => simp [holding] at hcallback
  | call inside move same uses =>
    rename_i n _ _ _
    have hm : m ≠ n := by
      rintro rfl
      cases move with
      | acquire spinning free => simp [free] at howns
      | _ => simp_all
    exact ⟨(hother move hm).1, hcallback, hlock, (hother move hm).2⟩
  | scan move =>
    obtain ⟨tree, htree⟩ := move.of_calling htimer
    cases htree
  | process move idle other =>
    obtain ⟨tree, htree⟩ := move.of_calling htimer
    exact absurd htree (idle (by simp [hcallback]) tree)

theorem run_stays_crossed {labels : List LockLabel} (h : LockSystemInv s) (hcrossed : s.Crossed)
    (hrun : run lockStep s labels = some t) : ¬ DeadlockFree t := by
  have hkept : Always lockStep (fun s => LockSystemInv s ∧ s.Crossed) s labels :=
    always_of_forall (Q := fun _ => True)
      (fun _ _ _ hs _ hstep => ⟨lockStep_inv hs.1 hstep, lockStep_stays_crossed hs.1 hs.2 hstep⟩)
      ⟨h, hcrossed⟩ fun _ _ => trivial
  obtain ⟨hinv, hstill⟩ := hkept.last hrun
  exact fun hfree => hinv.deadlockFree_iff_not_crossed.1 hfree hstill

/-- The invariant, and no deadlock so far. -/
structure UncrossedInv (s : LockSystem) : Prop extends LockSystemInv s where
  uncrossed : ¬ s.Crossed

/-- No set of threads is deadlocked in any state of a run exactly when no step of the run
makes the callback and the holder of `m_slRpcCtxs` wait for each other. -/
theorem no_lock_order_deadlock_iff {timeout : CcTime} {labels : List LockLabel}
    (hrun : run lockStep (.start timeout) labels = some t) :
    Always lockStep DeadlockFree (.start timeout) labels ↔
      Guarded lockStep NotCrossing (.start timeout) labels := by
  refine always_iff_guarded (I := UncrossedInv) (Q := fun _ => True) ?_ ?_ ?_ ?_
    (fun _ _ => trivial) hrun
  · intro s a s' h _ hguard hstep
    have hmove := lockStep_move h.toLockSystemInv hstep
    refine ⟨lockMove_inv h.toLockSystemInv hmove, ?_⟩
    intro hcrossed
    exact lockMove_crossed h.toLockSystemInv hmove h.uncrossed hcrossed hguard
  · intro s h
    exact h.deadlockFree_iff_not_crossed.2 h.uncrossed
  · intro s a s' h _ hguard hstep hfree
    have hmove := lockStep_move h.toLockSystemInv hstep
    have hinv := lockMove_inv h.toLockSystemInv hmove
    exact hinv.deadlockFree_iff_not_crossed.1 hfree
      (lockMove_crosses h.toLockSystemInv hmove hguard)
  · refine ⟨start_inv timeout, ?_⟩
    rintro ⟨hwaits, -⟩
    cases hwaits

theorem run_lockSystemInv {timeout : CcTime} {labels : List LockLabel}
    (hrun : run lockStep (.start timeout) labels = some t) : LockSystemInv t :=
  (always_of_forall (Q := fun _ => True) (fun _ _ _ h _ hstep => lockStep_inv h hstep)
    (start_inv timeout) fun _ _ => trivial).last hrun

end Runs

/-- A call with a timeout of five seconds: thread 0 registers its context and subscribes. -/
def callLabels (rc : RpcCtx) : List LockLabel :=
  [.start 0 (.register rc), .acquire 0, .lookUp 0 [], .release 0, .initialise 0,
    .subscribe 0 ⟨100, 0⟩, .timer (.call (.user 0) .acquire),
    .timer (.call (.user 0) (.perform .nil)), .timer (.call (.user 0) .notify),
    .timer (.call (.user 0) .release), .finish 0]

/-- The reply comes in time: thread 1 cancels the timeout under both locks, and the timer
thread finds no event. -/
theorem no_lock_order_deadlock_iff_reply_in_time :
    let rc : RpcCtx := ⟨0, ⟨⟨"localhost", 80⟩, .tcp⟩, 7⟩
    let labels : List LockLabel := callLabels rc ++
      [.start 1 (.message 7), .acquire 1, .lookUp 1 [], .cancel 1,
        .timer (.call (.user 1) .acquire),
        .timer (.call (.user 1) (.perform (.node (⟨⟨105, 0⟩, 1⟩, 0) .nil .nil))),
        .timer (.call (.user 1) .release), .cancelled 1, .cancel 1, .release 1,
        .timer (.process .loop), .timer (.process .acquire), .timer (.process (.scan ⟨106, 0⟩))]
    Always lockStep DeadlockFree (.start ⟨5, 0⟩) labels := by
  intro rc labels
  exact (no_lock_order_deadlock_iff (Option.some_get (by decide +kernel)).symm).2
    (by decide +kernel)

/-- The reply comes as the timeout expires: thread 1 has `m_slRpcCtxs` and spins for the lock
of the timer, and the timer thread has that lock and spins in the callback for `m_slRpcCtxs`. -/
theorem reply_at_timeout_deadlocks :
    let rc : RpcCtx := ⟨0, ⟨⟨"localhost", 80⟩, .tcp⟩, 7⟩
    let labels : List LockLabel := callLabels rc ++
      [.start 1 (.message 7), .acquire 1, .lookUp 1 [], .timer (.process .loop),
        .timer (.process .acquire), .timer (.process (.scan ⟨106, 0⟩)), .cancel 1]
    ∃ s, run lockStep (.start ⟨5, 0⟩) labels = some s ∧
      Locking.Deadlocked s.holder s.waits {.timer, .user 1} ∧
      ∀ more t, run lockStep s more = some t → ¬ DeadlockFree t := by
  intro rc labels
  obtain ⟨s, hrun, hctx, hlock, htimer, huser⟩ : ∃ s ∈ run lockStep (.start ⟨5, 0⟩) labels,
      s.ctxLock = some (.user 1) ∧ s.timer.lock = some .timer ∧
        s.waits .timer = some .rpcCtxs ∧ s.waits (.user 1) = some .timer := by
    decide +kernel
  have hpair : Locking.Deadlocked s.holder s.waits {.timer, .user 1} :=
    Locking.deadlocked_pair (x := .rpcCtxs) (y := .timer) hctx htimer hlock huser
  refine ⟨s, hrun, hpair, ?_⟩
  intro more t hmore
  have hinv := run_lockSystemInv hrun
  have hcrossed : s.Crossed := by
    by_contra hnot
    exact hinv.deadlockFree_iff_not_crossed.2 hnot _ hpair
  exact run_stays_crossed hinv hcrossed hmore

end Rpc
end CCraft
