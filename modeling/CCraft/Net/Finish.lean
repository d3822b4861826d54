import CCraft.Net.Handler
import CCraft.Net.Manager

/-!
# Finishing a connection

`NBSocketService` registers a handler when its handshake is over, gives it up in
`Disconnect`, and removes it in `on_finish` when its socket has broken.  The removal of
`on_finish` knows the connection by its two addresses only, so it removes whatever handler
is registered for the logic address as soon as the real address is known to the manager.

A handler that was disconnected may report a finish later, when the same two addresses
belong to a new connection.  The addresses in use decide whether that does harm: the
manager is right about every handler as long as no two registered handlers share a real
address, and a late finish is harmless as long as no registered handler has its real address.
`Release` reads the counter after the decrement and leaves only its lowest bit, so it drops one
reference only of a handler that has one or two.

Main results:

- Theorem {lit}`serviceStep_inv`: such steps keep the tables of the manager in agreement
  with the registered handlers.
- Theorem {lit}`finish_touches_own_connection`: in runs of such steps every finish removes and
  releases its own handler if that is registered, and changes nothing otherwise; every
  other run has a beginning that can be continued to a finish that does harm.
-/

namespace CCraft
namespace Net

open Runs PageMap

/-! ## The service -/

/-- A connection's event handler, with the peers of its socket descriptor. -/
structure ConnectionEventHandler where
  address : Nat
  logicPeer : NetPeerInfo
  realPeer : NetPeerInfo
deriving DecidableEq, Repr

/-- What the service changes of a handler: its counter of references and the messages to be
sent. -/
structure HandlerVars where
  refs : BitVec 32
  messages : List SndMessage

/-- `NBSocketService`: the manager of connections and the handlers. -/
structure NBSocketService where
  stopped : Bool
  sspMgr : UniqueWorkerManager ConnectionEventHandler
  vars : ConnectionEventHandler → HandlerVars

namespace NBSocketService

/-- A running service without connections, with any handlers. -/
def start (vars : ConnectionEventHandler → HandlerVars) : NBSocketService :=
  ⟨false, .new, vars⟩

/-- `ClearMessage` and `Release` of a handler: the counter is decremented, and `GetRef` reads it
and leaves its lowest bit. -/
def drop (s : NBSocketService) (h : ConnectionEventHandler) : NBSocketService :=
  let refs := atomicSuboneAndFetch (s.vars h).refs
  { s with vars := Function.update s.vars h ⟨(atomicFetch refs).2, []⟩ }

/-- `NBSocketService::on_logic_connect`. -/
def onLogicConnect (s : NBSocketService) (h : ConnectionEventHandler) : Bool × NBSocketService :=
  if s.stopped then (false, s)
  else
    let (rc, sspMgr) := s.sspMgr.putWorkerEventHandler h h.logicPeer h.realPeer
    (rc, { s with sspMgr := sspMgr })

/-- `NBSocketService::Disconnect`. -/
def disconnect (s : NBSocketService) (peer : NetPeerInfo) : Bool × NBSocketService :=
  if peer.sp ≠ .tcp then (false, s)
  else if s.stopped then (false, s)
  else
    match s.sspMgr.removeWorkerEventHandlerOf peer with
    | (none, sspMgr) => (true, { s with sspMgr := sspMgr })
    | (some handler, sspMgr) => (true, ({ s with sspMgr := sspMgr } : NBSocketService).drop handler)

/-- `NBSocketService::on_finish`. -/
def onFinish (s : NBSocketService) (h : ConnectionEventHandler) : NBSocketService :=
  if s.stopped then s
  else
    match s.sspMgr.removeWorkerEventHandler h.logicPeer h.realPeer with
    | (none, sspMgr) => { s with sspMgr := sspMgr }
    | (some _, sspMgr) => ({ s with sspMgr := sspMgr } : NBSocketService).drop h

/-- The handler that is registered for a logic peer. -/
def handlerFor (s : NBSocketService) (peer : NetPeerInfo) : Option ConnectionEventHandler :=
  s.sspMgr.lookupWorker peer

/-- The handler is the one registered for its logic peer. -/
def Registered (s : NBSocketService) (h : ConnectionEventHandler) : Prop :=
  s.handlerFor h.logicPeer = some h

instance (s : NBSocketService) (h : ConnectionEventHandler) : Decidable (s.Registered h) :=
  inferInstanceAs (Decidable (s.handlerFor h.logicPeer = some h))

/-- Some registered handler has the real address. -/
def InUse (s : NBSocketService) (real : NetPeerInfo) : Prop :=
  ∃ e ∈ s.sspMgr.workers.entries, e.2.realPeer = real

instance (s : NBSocketService) (real : NetPeerInfo) : Decidable (s.InUse real) :=
  inferInstanceAs (Decidable (∃ e ∈ s.sspMgr.workers.entries, e.2.realPeer = real))

end NBSocketService

/-- The calls that change registrations. -/
inductive ServiceLabel where
  | put (h : ConnectionEventHandler)
  | disconnect (peer : NetPeerInfo)
  | finish (h : ConnectionEventHandler)
deriving DecidableEq, Repr

def serviceStep (s : NBSocketService) : ServiceLabel → Option NBSocketService
  | .put h => some (s.onLogicConnect h).2
  | .disconnect peer => some (s.disconnect peer).2
  | .finish h => some (s.onFinish h)

/-- Between the two states the registration of the handler was removed and one of its
references dropped, and nothing else. -/
structure RemovesOnly (s : NBSocketService) (h : ConnectionEventHandler) (t : NBSocketService) :
    Prop where
  registrations : ∀ peer, t.handlerFor peer =
    if peer = h.logicPeer then none else s.handlerFor peer
  references : ∀ g, (t.vars g).refs = if g = h then (s.vars g).refs - 1 else (s.vars g).refs

/-- Between the two states no registration and no reference changed. -/
structure ChangesNothing (s t : NBSocketService) : Prop where
  registrations : ∀ peer, t.handlerFor peer = s.handlerFor peer
  references : ∀ g, (t.vars g).refs = (s.vars g).refs

/-- A finish touches its own connection only. -/
def TouchesOwn (s : NBSocketService) : ServiceLabel → Prop
  | .finish h => (s.Registered h → RemovesOnly s h (s.onFinish h)) ∧
      (¬ s.Registered h → ChangesNothing s (s.onFinish h))
  | _ => True

/-- No registered handler shares the real address of one that is registered now, or of one
that finishes without being registered; a registered handler finishes with one or two
references. -/
def AddressesApart (s : NBSocketService) : ServiceLabel → Prop
  | .put h => s.handlerFor h.logicPeer = none → ¬ s.InUse h.realPeer
  | .disconnect _ => True
  | .finish h => if s.Registered h then (s.vars h).refs = 1 ∨ (s.vars h).refs = 2
      else ¬ s.InUse h.realPeer

instance (s : NBSocketService) : ∀ a, Decidable (AddressesApart s a)
  | .put h => inferInstanceAs
      (Decidable (s.handlerFor h.logicPeer = none → ¬ s.InUse h.realPeer))
  | .disconnect _ => isTrue trivial
  | .finish h => inferInstanceAs (Decidable (if s.Registered h then
      (s.vars h).refs = 1 ∨ (s.vars h).refs = 2 else ¬ s.InUse h.realPeer))

/-- The tables of the manager agree with the registered handlers, which have different
real addresses. -/
structure ServiceInv (s : NBSocketService) : Prop where
  running : s.stopped = false
  keyed : ∀ peer h, s.handlerFor peer = some h → h.logicPeer = peer
  known : ∀ real, real ∈ s.sspMgr.rpLp ↔ ∃ h, s.Registered h ∧ h.realPeer = real
  apart : ∀ h g, s.Registered h → s.Registered g → h.realPeer = g.realPeer → h = g
  located : ∀ h, s.Registered h → s.sspMgr.handlerRp.lookup h = some h.realPeer

section Steps

variable {s t : NBSocketService} {h g : ConnectionEventHandler} {a : ServiceLabel}

theorem ServiceInv.inUse_iff (hinv : ServiceInv s) (real : NetPeerInfo) :
    s.InUse real ↔ ∃ g, s.Registered g ∧ g.realPeer = real := by
  constructor
  · rintro ⟨⟨peer, g⟩, hmem, hreal⟩
    have hlookup : s.handlerFor peer = some g := AList.mem_lookup_iff.2 hmem
    refine ⟨g, ?_, hreal⟩
    rw [NBSocketService.Registered, hinv.keyed peer g hlookup]
    exact hlookup
  · rintro ⟨g, hreg, hreal⟩
    exact ⟨⟨g.logicPeer, g⟩, AList.mem_lookup_iff.1 hreg, hreal⟩

/-- The real address of a handler is known to the manager exactly when it is in use. -/
theorem ServiceInv.mem_rpLp_iff (hinv : ServiceInv s) (real : NetPeerInfo) :
    real ∈ s.sspMgr.rpLp ↔ s.InUse real := by
  rw [hinv.known, hinv.inUse_iff]

theorem start_serviceInv (vars : ConnectionEventHandler → HandlerVars) :
    ServiceInv (.start vars) := by
  have hnone : ∀ h, ¬ (NBSocketService.start vars).Registered h := by
    nofun
  refine ⟨rfl, ?_, ?_, ?_, ?_⟩
  · nofun
  · intro real
    constructor
    · intro hmem
      exact absurd hmem (AList.notMem_empty real)
    · rintro ⟨h, hreg, -⟩
      exact absurd hreg (hnone h)
  · intro h g hreg
    exact absurd hreg (hnone h)
  · intro h hreg
    exact absurd hreg (hnone h)

/-! ## Steps that keep the addresses apart -/

theorem onLogicConnect_running (hrunning : s.stopped = false) (h : ConnectionEventHandler) :
    (s.onLogicConnect h).2 = { s with
      sspMgr := (s.sspMgr.putWorkerEventHandler h h.logicPeer h.realPeer).2 } := by
  simp only [NBSocketService.onLogicConnect, hrunning, Bool.false_eq_true, if_false]

/-- A handler that is accepted joins the registered ones. -/
theorem ServiceInv.put (hinv : ServiceInv s) (hfree : s.handlerFor h.logicPeer = none)
    (hunused : ¬ s.InUse h.realPeer) : ServiceInv (s.onLogicConnect h).2 := by
  have hput := onLogicConnect_running hinv.running h
  have hfor : ∀ peer, (s.onLogicConnect h).2.handlerFor peer =
      if peer = h.logicPeer then some h else s.handlerFor peer := by
    intro peer
    rw [hput]
    exact UniqueWorkerManager.lookupWorker_put hfree peer
  have hreg : ∀ g, (s.onLogicConnect h).2.Registered g ↔ g = h ∨ s.Registered g := by
    intro g
    simp only [NBSocketService.Registered, hfor]
    split_ifs with hpeer
    · rw [hpeer, hfree]
      simp [eq_comm]
    · have hne : g ≠ h := fun hgh => hpeer (congrArg _ hgh)
      simp [hne]
  refine ⟨?_, ?_, ?_, ?_, ?_⟩
  · rw [hput]
    exact hinv.running
  · intro peer g hlookup
    rw [hfor] at hlookup
    split_ifs at hlookup with hpeer
    · rw [← Option.some.inj hlookup, hpeer]
    · exact hinv.keyed peer g hlookup
  · intro real
    simp only [hreg]
    rw [hput]
    refine (UniqueWorkerManager.mem_rpLp_put hfree real).trans ?_
    rw [hinv.known]
    constructor
    · rintro (rfl | ⟨g, hg, rfl⟩)
      · exact ⟨h, .inl rfl, rfl⟩
      · exact ⟨g, .inr hg, rfl⟩
    · rintro ⟨g, rfl | hg, rfl⟩
      · exact .inl rfl
      · exact .inr ⟨g, hg, rfl⟩
  · have hother : ∀ g, s.Registered g → g.realPeer ≠ h.realPeer := fun g hg heq =>
      hunused ((hinv.inUse_iff _).2 ⟨g, hg, heq⟩)
    intro x g hx hg hreal
    rcases (hreg x).1 hx with rfl | hx'
    · rcases (hreg g).1 hg with rfl | hg'
      · rfl
      · exact absurd hreal.symm (hother g hg')
    · rcases (hreg g).1 hg with rfl | hg'
      · exact absurd hreal (hother x hx')
      · exact hinv.apart x g hx' hg' hreal
  · intro g hg
    rw [hput]
    simp only [UniqueWorkerManager.putWorkerEventHandler,
      show s.sspMgr.lookupWorker h.logicPeer = none from hfree]
    rw [lookup_insert_eq]
    split_ifs with hgh
    · rw [hgh]
    · exact hinv.located g (((hreg g).1 hg).resolve_left hgh)

/-- A registered handler that is removed leaves the other ones. -/
theorem ServiceInv.remove (hinv : ServiceInv s) (hreg : s.Registered h)
    (hrunning : t.stopped = false)
    (hfor : ∀ peer, t.handlerFor peer = if peer = h.logicPeer then none else s.handlerFor peer)
    (hknown : ∀ real, real ∈ t.sspMgr.rpLp ↔ real ≠ h.realPeer ∧ real ∈ s.sspMgr.rpLp)
    (hlocated : ∀ g, g ≠ h → t.sspMgr.handlerRp.lookup g = s.sspMgr.handlerRp.lookup g) :
    ServiceInv t := by
  have hiff : ∀ g, t.Registered g ↔ g ≠ h ∧ s.Registered g := by
    intro g
    simp only [NBSocketService.Registered, hfor]
    split_ifs with hpeer
    · have hlookup : s.handlerFor g.logicPeer = some h := by
        rw [hpeer]
        exact hreg
      simp [hlookup, eq_comm]
    · have hne : g ≠ h := fun hgh => hpeer (congrArg _ hgh)
      simp [hne]
  refine ⟨hrunning, ?_, ?_, ?_, ?_⟩
  · intro peer g hlookup
    rw [hfor] at hlookup
    split_ifs at hlookup
    exact hinv.keyed peer g hlookup
  · intro real
    rw [hknown, hinv.known]
    simp only [hiff]
    constructor
    · rintro ⟨hne, g, hg, rfl⟩
      exact ⟨g, ⟨fun hgh => hne (congrArg _ hgh), hg⟩, rfl⟩
    · rintro ⟨g, ⟨hne, hg⟩, rfl⟩
      exact ⟨fun hreal => hne (hinv.apart g h hg hreg hreal), g, hg, rfl⟩
  · intro x g hx hg
    exact hinv.apart x g ((hiff x).1 hx).2 ((hiff g).1 hg).2
  · intro g hg
    rw [hlocated g ((hiff g).1 hg).1]
    exact hinv.located g ((hiff g).1 hg).2

/-- Giving up the handler of a peer removes that handler. -/
theorem ServiceInv.disconnect (hinv : ServiceInv s) (peer : NetPeerInfo) :
    ServiceInv (s.disconnect peer).2 := by
  unfold NBSocketService.disconnect
  split_ifs with hsp hstopped
  · exact hinv
  · exact hinv
  · cases hlookup : s.handlerFor peer with
    | none =>
      have hremove : s.sspMgr.removeWorkerEventHandlerOf peer = (none, s.sspMgr) := by
        simp only [UniqueWorkerManager.removeWorkerEventHandlerOf,
          show s.sspMgr.lookupWorker peer = none from hlookup]
      simp only [hremove]
      exact hinv
    | some h =>
      have hpeer : h.logicPeer = peer := hinv.keyed peer h hlookup
      have hreg : s.Registered h := by
        rw [NBSocketService.Registered, hpeer]
        exact hlookup
      have hremove : s.sspMgr.removeWorkerEventHandlerOf peer = (some h,
          ⟨s.sspMgr.workers.erase peer, s.sspMgr.rpLp.erase h.realPeer,
            s.sspMgr.handlerRp.erase h⟩) := by
        simp only [UniqueWorkerManager.removeWorkerEventHandlerOf,
          show s.sspMgr.lookupWorker peer = some h from hlookup, hinv.located h hreg,
          Option.getD_some]
      simp only [hremove]
      refine hinv.remove hreg hinv.running ?_ ?_ ?_
      · intro key
        rw [hpeer]
        exact lookup_erase_eq
      · intro real
        exact AList.mem_erase
      · intro g hne
        exact AList.lookup_erase_ne hne

/-- The finish of a registered handler removes and releases that handler. -/
theorem ServiceInv.onFinish_registered (hinv : ServiceInv s) (hreg : s.Registered h) :
    s.onFinish h = ({ s with sspMgr := { s.sspMgr with
      rpLp := s.sspMgr.rpLp.erase h.realPeer
      workers := s.sspMgr.workers.erase h.logicPeer } } : NBSocketService).drop h := by
  have hreal : h.realPeer ∈ s.sspMgr.rpLp := (hinv.known _).2 ⟨h, hreg, rfl⟩
  simp only [NBSocketService.onFinish, hinv.running, Bool.false_eq_true, if_false,
    UniqueWorkerManager.removeWorkerEventHandler, if_pos hreal,
    show s.sspMgr.lookupWorker h.logicPeer = some h from hreg]

/-- A finish whose real address the manager does not know changes nothing. -/
theorem onFinish_of_unknown (hreal : h.realPeer ∉ s.sspMgr.rpLp) : s.onFinish h = s := by
  unfold NBSocketService.onFinish
  split_ifs
  · rfl
  · simp only [UniqueWorkerManager.removeWorkerEventHandler, if_neg hreal]

/-- `Release` drops one reference exactly when there are one or two. -/
theorem release_eq_iff (refs : BitVec 32) :
    (atomicFetch (atomicSuboneAndFetch refs)).2 = refs - 1 ↔ refs = 1 ∨ refs = 2 := by
  have hand : ((refs - 1) &&& 1).toNat = (refs - 1).toNat % 2 := by
    rw [BitVec.toNat_and, show (1 : BitVec 32).toNat = 1 from rfl, Nat.and_one_is_mod]
  simp only [atomicFetch, atomicSuboneAndFetch, ← BitVec.toNat_inj, hand]
  bv_omega

theorem ServiceInv.handlerFor_onFinish (hinv : ServiceInv s) (hreg : s.Registered h)
    (peer : NetPeerInfo) : (s.onFinish h).handlerFor peer =
      if peer = h.logicPeer then none else s.handlerFor peer := by
  rw [hinv.onFinish_registered hreg]
  exact lookup_erase_eq

/-- The finish of a registered handler removes it, and releases it as it should exactly when it
has one or two references. -/
theorem ServiceInv.removesOnly_iff (hinv : ServiceInv s) (hreg : s.Registered h) :
    RemovesOnly s h (s.onFinish h) ↔ (s.vars h).refs = 1 ∨ (s.vars h).refs = 2 := by
  have hrefs : ∀ g, ((s.onFinish h).vars g).refs =
      if g = h then (atomicFetch (atomicSuboneAndFetch (s.vars h).refs)).2
      else (s.vars g).refs := by
    intro g
    rw [hinv.onFinish_registered hreg]
    simp only [NBSocketService.drop, Function.update_apply]
    split_ifs <;> rfl
  rw [← release_eq_iff]
  constructor
  · intro honly
    have hself := honly.references h
    rw [hrefs, if_pos rfl, if_pos rfl] at hself
    exact hself
  · intro hself
    refine ⟨hinv.handlerFor_onFinish hreg, ?_⟩
    intro g
    rw [hrefs]
    split_ifs with hgh
    · rw [hgh, hself]
    · rfl

theorem ServiceInv.finish (hinv : ServiceInv s) (hreg : s.Registered h) :
    ServiceInv (s.onFinish h) := by
  refine hinv.remove hreg ?_ (hinv.handlerFor_onFinish hreg) ?_ ?_
  · rw [hinv.onFinish_registered hreg]
    exact hinv.running
  · rw [hinv.onFinish_registered hreg]
    intro real
    exact AList.mem_erase
  · rw [hinv.onFinish_registered hreg]
    intro g _
    rfl

/-- Steps that keep the real addresses apart keep the invariant. -/
theorem serviceStep_inv (hinv : ServiceInv s) (happart : AddressesApart s a)
    (hstep : serviceStep s a = some t) : ServiceInv t := by
  cases a with
  | put h =>
    cases hstep
    cases hfree : s.handlerFor h.logicPeer with
    | none => exact hinv.put hfree (happart hfree)
    | some g =>
      rw [onLogicConnect_running hinv.running, UniqueWorkerManager.put_of_taken hfree]
      exact hinv
  | disconnect peer =>
    cases hstep
    exact hinv.disconnect peer
  | finish h =>
    cases hstep
    by_cases hreg : s.Registered h
    · exact hinv.finish hreg
    · rw [AddressesApart, if_neg hreg, ← hinv.mem_rpLp_iff] at happart
      rw [onFinish_of_unknown happart]
      exact hinv

/-- Under the invariant, such a finish touches its own connection only. -/
theorem ServiceInv.touchesOwn (hinv : ServiceInv s) (happart : AddressesApart s a) :
    TouchesOwn s a := by
  cases a with
  | put | disconnect => trivial
  | finish h =>
    constructor
    · intro hreg
      rw [AddressesApart, if_pos hreg] at happart
      exact (hinv.removesOnly_iff hreg).2 happart
    · intro hreg
      rw [AddressesApart, if_neg hreg, ← hinv.mem_rpLp_iff] at happart
      rw [onFinish_of_unknown happart]
      exact ⟨fun _ => rfl, fun _ => rfl⟩

/-! ## What a shared address leads to -/

/-- A registered handler whose real address the manager does not know is not removed when
it finishes. -/
theorem not_touchesOwn_of_unknown (hreg : s.Registered h)
    (hunknown : h.realPeer ∉ s.sspMgr.rpLp) : ¬ TouchesOwn s (.finish h) := by
  intro htouches
  have hgone := (htouches.1 hreg).registrations h.logicPeer
  rw [onFinish_of_unknown hunknown, if_pos rfl, hreg] at hgone
  cases hgone

/-- A finish makes the manager forget its real address. -/
theorem not_mem_rpLp_onFinish (hrunning : s.stopped = false) :
    h.realPeer ∉ (s.onFinish h).sspMgr.rpLp := by
  have hforgot : h.realPeer ∉
      (s.sspMgr.removeWorkerEventHandler h.logicPeer h.realPeer).2.rpLp := by
    rw [UniqueWorkerManager.mem_rpLp_remove]
    exact fun hmem => hmem.1 rfl
  simp only [NBSocketService.onFinish, hrunning, Bool.false_eq_true, if_false]
  rcases hremove : s.sspMgr.removeWorkerEventHandler h.logicPeer h.realPeer with ⟨_ | g, m⟩ <;>
    rwa [hremove] at hforgot

/-- A finish leaves the handlers of the other logic peers. -/
theorem handlerFor_onFinish_of_ne {peer : NetPeerInfo} (hne : peer ≠ h.logicPeer) :
    (s.onFinish h).handlerFor peer = s.handlerFor peer := by
  unfold NBSocketService.onFinish
  split_ifs
  · rfl
  · rcases hremove : s.sspMgr.removeWorkerEventHandler h.logicPeer h.realPeer with ⟨_ | g, m⟩
    · have hsame := UniqueWorkerManager.lookupWorker_remove_of_none (by rw [hremove]) peer
      rw [hremove] at hsame
      exact hsame
    · have hother := UniqueWorkerManager.lookupWorker_remove (by rw [hremove]; rfl) peer
      rw [hremove, if_neg hne] at hother
      exact hother

/-- After one of two handlers with the same real address has finished, the other one cannot
be removed. -/
theorem not_guarded_finish_finish (hrunning : s.stopped = false) (hreg : s.Registered g)
    (hlogic : g.logicPeer ≠ h.logicPeer) (hreal : g.realPeer = h.realPeer) :
    ¬ Guarded serviceStep TouchesOwn s [.finish h, .finish g] := by
  intro hguard
  have hreg' : (s.onFinish h).Registered g := by
    rw [NBSocketService.Registered, handlerFor_onFinish_of_ne hlogic]
    exact hreg
  refine not_touchesOwn_of_unknown hreg' ?_ (hguard.2 (s.onFinish h) rfl).1
  rw [hreal]
  exact not_mem_rpLp_onFinish hrunning

/-- A finish removes the handler of its logic peer when its real address is known. -/
theorem not_touchesOwn_of_known (hrunning : s.stopped = false) (hreg : ¬ s.Registered h)
    (hlookup : s.handlerFor h.logicPeer = some g) (hknown : h.realPeer ∈ s.sspMgr.rpLp) :
    ¬ TouchesOwn s (.finish h) := by
  intro htouches
  have hkept := (htouches.2 hreg).registrations h.logicPeer
  have hremove : s.sspMgr.removeWorkerEventHandler h.logicPeer h.realPeer = (some g,
      { s.sspMgr with
        rpLp := s.sspMgr.rpLp.erase h.realPeer
        workers := s.sspMgr.workers.erase h.logicPeer }) := by
    simp only [UniqueWorkerManager.removeWorkerEventHandler, if_pos hknown,
      show s.sspMgr.lookupWorker h.logicPeer = some g from hlookup]
  have hgone : (s.onFinish h).handlerFor h.logicPeer = none := by
    simp only [NBSocketService.onFinish, hrunning, Bool.false_eq_true, if_false, hremove]
    exact AList.lookup_erase _ _
  rw [hgone, hlookup] at hkept
  cases hkept

/-- Every step that lets two handlers share a real address, or that finishes a handler with
another number of references, can be continued to a finish that does not touch its own connection
only. -/
theorem exists_harmful_finish (hinv : ServiceInv s) (happart : ¬ AddressesApart s a) :
    ∃ more, ¬ Guarded serviceStep TouchesOwn s (a :: more) := by
  cases a with
  | put h =>
    simp only [AddressesApart, Classical.not_imp, not_not] at happart
    obtain ⟨hfree, hused⟩ := happart
    obtain ⟨g, hg, hreal⟩ := (hinv.inUse_iff _).1 hused
    have hlogic : g.logicPeer ≠ h.logicPeer := by
      intro heq
      rw [NBSocketService.Registered, heq, hfree] at hg
      cases hg
    have hput := onLogicConnect_running hinv.running h
    have hg' : (s.onLogicConnect h).2.Registered g := by
      rw [hput, NBSocketService.Registered]
      refine (UniqueWorkerManager.lookupWorker_put hfree _).trans ?_
      rw [if_neg hlogic]
      exact hg
    refine ⟨[.finish h, .finish g], ?_⟩
    intro hguard
    refine not_guarded_finish_finish ?_ hg' hlogic hreal (hguard.2 _ rfl)
    rw [hput]
    exact hinv.running
  | disconnect peer => exact absurd trivial happart
  | finish h =>
    by_cases hreg : s.Registered h
    · rw [AddressesApart, if_pos hreg, ← hinv.removesOnly_iff hreg] at happart
      exact ⟨[], fun hguard => happart (hguard.1.1 hreg)⟩
    have hused : s.InUse h.realPeer := by
      rwa [AddressesApart, if_neg hreg, not_not] at happart
    obtain ⟨g, hg, hreal⟩ := (hinv.inUse_iff _).1 hused
    cases hlookup : s.handlerFor h.logicPeer with
    | none =>
      have hlogic : g.logicPeer ≠ h.logicPeer := by
        intro heq
        rw [NBSocketService.Registered, heq, hlookup] at hg
        cases hg
      exact ⟨[.finish g], not_guarded_finish_finish hinv.running hg hlogic hreal⟩
    | some x =>
      refine ⟨[], ?_⟩
      intro hguard
      exact not_touchesOwn_of_known hinv.running hreg hlookup
        ((hinv.mem_rpLp_iff _).2 hused) hguard.1

end Steps

/-! ## Whole runs -/

/-- Every call returns. -/
theorem exists_run (s : NBSocketService) (labels : List ServiceLabel) :
    ∃ t, run serviceStep s labels = some t := by
  induction labels generalizing s with
  | nil => exact ⟨s, rfl⟩
  | cons a labels ih =>
    cases a with
    | put h => exact ih (s.onLogicConnect h).2
    | disconnect peer => exact ih (s.disconnect peer).2
    | finish h => exact ih (s.onFinish h)

/-- In every run whose steps keep the real addresses apart and finish registered handlers with
one or two references, each finish removes and releases its own handler if that is the registered
one, and changes no registration and no reference otherwise.  Every other run has a beginning that
can be continued to a finish that does harm. -/
theorem finish_touches_own_connection (vars : ConnectionEventHandler → HandlerVars)
    (labels : List ServiceLabel) :
    (Guarded serviceStep AddressesApart (.start vars) labels →
      Guarded serviceStep TouchesOwn (.start vars) labels) ∧
    (¬ Guarded serviceStep AddressesApart (.start vars) labels →
      ∃ labels' more, labels' <+: labels ∧
        ¬ Guarded serviceStep TouchesOwn (.start vars) (labels' ++ more)) := by
  constructor
  · exact guarded_of_guarded (I := ServiceInv)
      (fun _ _ _ hinv happart hstep => serviceStep_inv hinv happart hstep)
      (fun _ _ hinv happart => hinv.touchesOwn happart) (start_serviceInv vars)
  · obtain ⟨t, hrun⟩ := exists_run (.start vars) labels
    exact exists_unguarded (I := ServiceInv)
      (fun _ _ _ hinv happart hstep => serviceStep_inv hinv happart hstep)
      (fun _ _ _ hinv happart _ => exists_harmful_finish hinv happart) (start_serviceInv vars) hrun

/-- A connection is given up, its late finish comes before the peer is connected again, and
then the new connection finishes. -/
theorem finish_touches_own_connection_before_reconnect :
    let peer : NetPeerInfo := ⟨⟨"10.0.0.1", 7000⟩, .tcp⟩
    let old : ConnectionEventHandler := ⟨0, peer, peer⟩
    let new : ConnectionEventHandler := ⟨1, peer, peer⟩
    Guarded serviceStep TouchesOwn (.start fun _ => ⟨1, []⟩)
      [.put old, .disconnect peer, .finish old, .put new, .finish new] :=
  (finish_touches_own_connection _ _).1 (by decide +kernel)

/-- The late finish of a connection that was given up, after the peer is connected again:
it removes the new connection and releases the old one once more, whose counter of zero is left
at one. -/
theorem late_finish_removes_new_connection :
    let peer : NetPeerInfo := ⟨⟨"10.0.0.1", 7000⟩, .tcp⟩
    let old : ConnectionEventHandler := ⟨0, peer, peer⟩
    let new : ConnectionEventHandler := ⟨1, peer, peer⟩
    ∃ s t, run serviceStep (.start fun _ => ⟨1, []⟩)
        [.put old, .disconnect peer, .put new] = some s ∧
      serviceStep s (.finish old) = some t ∧
      s.Registered new ∧ ¬ s.Registered old ∧
      t.handlerFor peer = none ∧ (s.vars old).refs = 0 ∧ (t.vars old).refs = 1 ∧
      (t.vars new).refs = 1 ∧ ¬ TouchesOwn s (.finish old) := by
  intro peer old new
  refine ⟨_, _, rfl, rfl, by decide +kernel, by decide +kernel, by decide +kernel,
    by decide +kernel, by decide +kernel, by decide +kernel, ?_⟩
  refine not_touchesOwn_of_known (g := new) ?_ ?_ ?_ ?_ <;> decide +kernel

end Net
end CCraft
