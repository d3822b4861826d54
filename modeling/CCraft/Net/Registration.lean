import CCraft.Net.Handshake

/-!
# Registrations during the handshake

An end registers itself in the middle of the handshake, and the calls behind that may still
fail: the server sends its last message, and both ends make their socket non-blocking.  An
end that fails there is deleted without being taken out of the manager.

The invariant relates the tables of all nodes to the stages of all ends.  As long as no such
call fails, the ends between their registration and their end are the ones that are found,
each under its own logic peer; an end that was finished without being released may be found
as well, but it is never deleted.

Main results:

- Theorem {lit}`netStep_entryInv`: the invariant is kept by every step, also one with a
  failing call, as long as it is not one behind the registration.
- Theorem {lit}`failed_handshake_unregistered`: in runs of such steps no deleted handler is
  found, and every other run has a beginning that leads to one.
-/

namespace CCraft
namespace Net

/-! ## Stages with a registration -/

namespace Endpoint

variable {e e' : Endpoint}

/-- The end has registered itself and has not been finished: the server is to send its last
message, the socket is to be made non-blocking, or the event manager has it. -/
def registered (e : Endpoint) : Bool :=
  match e.stage with
  | .respond .ok _ => e.connState = .connectingRe
  | .setNonBlocking => true
  | .live => true
  | _ => false

/-- The states in which an end can reach a stage. -/
def Valid (e : Endpoint) : Prop :=
  match e.stage with
  | .sendRequest => e.connState = .connecting
  | .recv => e.connState ≠ .connected
  | .respond _ _ => e.connState ≠ .connected ∧ e.connState ≠ .waitLastACK
  | .register => e.connState = .waitLastACK ∨ e.connState = .connectingRe
  | .setNonBlocking => e.connState = .connected
  | .live => e.connState = .connected
  | .finished => e.connState = .connected
  | .closing => True
  | .deleted => True

theorem complete_eq_close (h : e.connState ≠ .connected) : e.complete = e.close := by
  simp [complete, close, h]

theorem afterSend_false (e : Endpoint) (stat : Status) : e.afterSend stat false = e.complete := by
  unfold afterSend
  cases e.connState <;> cases stat <;> simp

theorem handshake_valid (addr : String) (payload : Payload) (hvalid : e.Valid)
    (hstage : e.stage = .recv) :
    (e.handshake addr payload).Valid ∧ (e.handshake addr payload).registered = false := by
  have hconnected : e.connState ≠ .connected := by simpa [Valid, hstage] using hvalid
  cases hstate : e.connState with
  | connected => exact absurd hstate hconnected
  | connectSe | waitLastACK =>
    simp only [handshake, hstate, complete_eq_close hconnected]
    split <;> simp [Valid, registered, close, hstate]
  | connecting =>
    simp only [handshake, hstate]
    split <;> simp [Valid, registered]
  | connectingRe => simp [handshake, Valid, registered, hstate]

/-- Behind a message that was sent the end is registered if it was before. -/
theorem afterSend_valid {stat : Status} {what : Payload} (hvalid : e.Valid)
    (hstage : e.stage = .respond stat what) :
    (e.afterSend stat true).Valid ∧ (e.afterSend stat true).registered = e.registered ∧
      (e.afterSend stat true).logicPeer = e.logicPeer := by
  simp only [Valid, hstage] at hvalid
  cases hstate : e.connState with
  | connected => exact absurd hstate hvalid.1
  | waitLastACK => exact absurd hstate hvalid.2
  | connectSe => cases stat <;> simp [afterSend, Valid, registered, hstate, hstage]
  | connecting | connectingRe =>
    cases stat <;> simp [afterSend, complete, Valid, registered, hstate, hstage]

/-- Behind the registration the end is registered if it was accepted. -/
theorem afterRegister_valid (hvalid : e.Valid) (hstage : e.stage = .register)
    (accepted : Bool) :
    (e.afterRegister accepted).Valid ∧ (e.afterRegister accepted).registered = accepted ∧
      (e.afterRegister accepted).logicPeer = e.logicPeer := by
  simp only [Valid, hstage] at hvalid
  rcases hvalid with hstate | hstate <;> cases accepted <;>
    simp [afterRegister, complete, Valid, registered, hstate]

/-- Behind a call that failed the end has no stage with a registration. -/
theorem failed_valid (hvalid : e.Valid) (hfailed : e.failed = some e') :
    e'.Valid ∧ e'.registered = false ∧ e'.logicPeer = e.logicPeer := by
  have hclose : e.close.Valid ∧ e.close.registered = false ∧ e.close.logicPeer = e.logicPeer :=
    ⟨trivial, rfl, rfl⟩
  cases hstage : e.stage <;>
    simp only [failed, hstage, Option.some.injEq, reduceCtorEq] at hfailed <;> subst hfailed
  case register => exact afterRegister_valid hvalid hstage false
  case respond stat what =>
    simp only [Valid, hstage] at hvalid
    rw [afterSend_false, complete_eq_close hvalid.1]
    exact hclose
  all_goals exact hclose

end Endpoint

/-! ## Tables and stages -/

section Tables

variable {Node : Type} {site : Node → Site} {n n' : Network Node}
variable {l : NetLabel Node} {id : EndpointId} {node : Node} {e e' : Endpoint}

/-- The tables of all nodes against the stages of all ends. -/
structure EntryInv (n : Network Node) : Prop where
  valid : ∀ id node e, n.view id = some (node, e) → e.Valid
  entered : ∀ id node e, n.view id = some (node, e) → e.registered = true →
    (n.managers node).lookupWorker e.logicPeer = some id
  kept : ∀ node key id, (n.managers node).lookupWorker key = some id →
    ∃ e, n.view id = some (node, e) ∧ e.logicPeer = key ∧
      (e.registered = true ∨ e.stage = .finished)

theorem start_entryInv : EntryInv (Network.start : Network Node) := by
  constructor <;> simp [Network.view, Network.start]

/-- The invariant looks at the ends and the tables only. -/
theorem EntryInv.congr (h : EntryInv n) (hview : n'.view = n.view)
    (hmanagers : n'.managers = n.managers) : EntryInv n' := by
  refine ⟨?_, ?_, ?_⟩
  · rw [hview]
    exact h.valid
  · rw [hview, hmanagers]
    exact h.entered
  · rw [hview, hmanagers]
    exact h.kept

/-- The ends of a new connection are not registered yet. -/
theorem EntryInv.append {c s : Node} {port : Nat} (h : EntryInv n)
    (hconns : n'.conns = n.conns ++ [Connection.new site c s port])
    (hmanagers : n'.managers = n.managers) : EntryInv n' := by
  have hnew : ∀ side, ((Connection.new site c s port).ends side).Valid ∧
      ((Connection.new site c s port).ends side).registered = false := by
    intro side
    cases side <;> simp [Connection.new, Endpoint.Valid, Endpoint.registered]
  refine ⟨?_, ?_, ?_⟩
  · intro id node e hview
    rw [Network.view_append hconns] at hview
    split_ifs at hview
    · cases hview
      exact (hnew id.side).1
    · exact h.valid id node e hview
  · intro id node e hview hregistered
    rw [Network.view_append hconns] at hview
    rw [hmanagers]
    split_ifs at hview
    · cases hview
      simp [(hnew id.side).2] at hregistered
    · exact h.entered id node e hview hregistered
  · intro node key id hlookup
    rw [hmanagers] at hlookup
    obtain ⟨e, hview, hstage⟩ := h.kept node key id hlookup
    have hlt := Network.lt_of_view hview
    rw [Network.view_append hconns, if_neg (by omega)]
    exact ⟨e, hview, hstage⟩

/-- A step of one end keeps the invariant if it changes no entry of another end, and the
entry of its own end fits the new stage. -/
theorem EntryInv.update (h : EntryInv n)
    (hview : ∀ id', n'.view id' = if id' = id then some (node, e') else n.view id')
    (hvalid : e'.Valid)
    (hother : ∀ x key id', id' ≠ id →
      ((n'.managers x).lookupWorker key = some id' ↔ (n.managers x).lookupWorker key = some id'))
    (hentered : e'.registered = true → (n'.managers node).lookupWorker e'.logicPeer = some id)
    (hkept : ∀ x key, (n'.managers x).lookupWorker key = some id →
      x = node ∧ e'.logicPeer = key ∧ (e'.registered = true ∨ e'.stage = .finished)) :
    EntryInv n' := by
  refine ⟨?_, ?_, ?_⟩
  · intro id' x u hu
    rw [hview] at hu
    split_ifs at hu with hid
    · cases hu
      exact hvalid
    · exact h.valid id' x u hu
  · intro id' x u hu hregistered
    rw [hview] at hu
    split_ifs at hu with hid
    · cases hu
      rw [hid]
      exact hentered hregistered
    · exact (hother x _ id' hid).2 (h.entered id' x u hu hregistered)
  · intro x key id' hlookup
    rw [hview]
    split_ifs with hid
    · rw [hid] at hlookup
      obtain ⟨rfl, hkey, hstage⟩ := hkept x key hlookup
      exact ⟨e', rfl, hkey, hstage⟩
    · exact h.kept x key id' ((hother x key id' hid).1 hlookup)

/-- An end that is found is found at its node under its logic peer, in a stage with a
registration. -/
theorem EntryInv.found (h : EntryInv n) (hview : n.view id = some (node, e)) {x : Node}
    {key : NetPeerInfo} (hlookup : (n.managers x).lookupWorker key = some id) :
    x = node ∧ e.logicPeer = key ∧ (e.registered = true ∨ e.stage = .finished) := by
  obtain ⟨u, hu, hkey, hstage⟩ := h.kept x key id hlookup
  rw [hview] at hu
  cases hu
  exact ⟨rfl, hkey, hstage⟩

/-- A step that leaves the tables alone and the registration of its end as it is. -/
theorem EntryInv.update_same (h : EntryInv n) (hold : n.view id = some (node, e))
    (hmanagers : n'.managers = n.managers)
    (hview : ∀ id', n'.view id' = if id' = id then some (node, e') else n.view id')
    (hvalid : e'.Valid) (hfinished : e.stage ≠ .finished)
    (hregistered : e'.registered = e.registered)
    (hpeer : e.registered = true → e'.logicPeer = e.logicPeer) : EntryInv n' := by
  refine h.update hview hvalid ?_ ?_ ?_
  · intro x key id' _
    rw [hmanagers]
  · intro hreg
    rw [hregistered] at hreg
    rw [hmanagers, hpeer hreg]
    exact h.entered id node e hold hreg
  · intro x key hlookup
    rw [hmanagers] at hlookup
    obtain ⟨rfl, hkey, hstage⟩ := h.found hold hlookup
    have hreg := hstage.resolve_right hfinished
    exact ⟨rfl, (hpeer hreg).trans hkey, .inl (hregistered.trans hreg)⟩

/-- An end registers itself under a key that is free. -/
theorem EntryInv.put [DecidableEq Node] {real : NetPeerInfo} (h : EntryInv n)
    (hold : n.view id = some (node, e))
    (hview : ∀ id', n'.view id' = if id' = id then some (node, e') else n.view id')
    (hvalid : e'.Valid) (hstage : e.stage = .register) (hregistered : e'.registered = true)
    (hpeer : e'.logicPeer = e.logicPeer)
    (hfree : (n.managers node).lookupWorker e.logicPeer = none)
    (hmanagers : ∀ x, n'.managers x =
      if x = node then ((n.managers node).putWorkerEventHandler id e.logicPeer real).2
      else n.managers x) : EntryInv n' := by
  refine h.update hview hvalid ?_ ?_ ?_
  · intro x key id' hid
    rw [hmanagers]
    split_ifs with hx
    · subst hx
      rw [UniqueWorkerManager.lookupWorker_put hfree]
      split_ifs with hkey
      · simp [hkey, hfree, Ne.symm hid]
      · rfl
    · rfl
  · intro _
    rw [hmanagers, if_pos rfl, UniqueWorkerManager.lookupWorker_put hfree, hpeer, if_pos rfl]
  · intro x key hlookup
    rw [hmanagers] at hlookup
    split_ifs at hlookup with hx
    · subst hx
      rw [UniqueWorkerManager.lookupWorker_put hfree] at hlookup
      split_ifs at hlookup with hkey
      · exact ⟨rfl, hpeer.trans hkey.symm, .inl hregistered⟩
      · obtain ⟨-, -, hstage' | hstage'⟩ := h.found hold hlookup
        · simp [Endpoint.registered, hstage] at hstage'
        · simp [hstage] at hstage'
    · exact absurd (h.found hold hlookup).1 hx

/-- No call of an end fails behind its registration. -/
def NoLateFailure (n : Network Node) : NetLabel Node → Prop
  | .act id false => (n.view id).all (fun v => !v.2.registered) = true
  | _ => True

instance (n : Network Node) (l : NetLabel Node) : Decidable (NoLateFailure n l) := by
  unfold NoLateFailure
  split <;> infer_instance

variable [DecidableEq Node]

/-- An action of an end keeps the invariant. -/
theorem act_entryInv {conn conn' : Connection Node} {m' : UniqueWorkerManager EndpointId}
    {ok : Bool} (h : EntryInv n) (hguard : NoLateFailure n (.act id ok))
    (hconn : n.conns[id.conn]? = some conn)
    (hacts : Connection.Acts site (n.managers (conn.node id.side)) id conn ok conn' m') :
    EntryInv (n.replace id.conn (conn.node id.side) (conn', m')) := by
  obtain ⟨hnode, -, hends⟩ := hacts.frame
  have hold := Network.view_eq hconn
  have hvalid := h.valid id _ _ hold
  have hview := view_replace (r := (conn', m')) hconn hnode hends (conn.node id.side)
  cases hacts <;> simp only [Connection.setEnd_ends_self] at hview
  case sendRequest hstage =>
    refine h.update_same hold replace_managers_self hview ?_ ?_ ?_ ?_ <;>
      simp [Endpoint.Valid, Endpoint.registered, hstage]
  case recv hstage hpop =>
    obtain ⟨hvalid', hregistered⟩ := Endpoint.handshake_valid _ _ hvalid hstage
    have hnone : (conn.ends id.side).registered = false := by
      simp [Endpoint.registered, hstage]
    refine h.update_same hold replace_managers_self hview hvalid' (by simp [hstage])
      (hregistered.trans hnone.symm) ?_
    simp [hnone]
  case eof hstage hpop hclosed =>
    refine h.update_same hold replace_managers_self hview ?_ ?_ ?_ ?_ <;>
      simp [Endpoint.Valid, Endpoint.registered, Endpoint.close, hstage]
  case respond hstage =>
    obtain ⟨hvalid', hregistered, hpeer⟩ := Endpoint.afterSend_valid hvalid hstage
    exact h.update_same hold replace_managers_self hview hvalid' (by simp [hstage]) hregistered
      fun _ => hpeer
  case put hstage hfree =>
    obtain ⟨hvalid', hregistered, hpeer⟩ := Endpoint.afterRegister_valid hvalid hstage true
    exact h.put hold hview hvalid' hstage hregistered hpeer hfree (replace_managers _ _ _ _)
  case refuse hstage htaken =>
    obtain ⟨hvalid', hregistered, hpeer⟩ := Endpoint.afterRegister_valid hvalid hstage false
    refine h.update_same hold replace_managers_self hview hvalid' (by simp [hstage]) ?_
      fun _ => hpeer
    rw [hregistered]
    simp [Endpoint.registered, hstage]
  case setNonBlocking hstage =>
    refine h.update_same hold replace_managers_self hview ?_ ?_ ?_ ?_ <;>
      simp_all [Endpoint.Valid, Endpoint.registered]
  case delete hstage =>
    refine h.update_same hold replace_managers_self hview ?_ ?_ ?_ ?_ <;>
      simp [Endpoint.Valid, Endpoint.registered, hstage]
  case fail hfailed =>
    obtain ⟨hvalid', hregistered, hpeer⟩ := Endpoint.failed_valid hvalid hfailed
    simp only [NoLateFailure, hold, Option.all_some, Bool.not_eq_true'] at hguard
    refine h.update_same hold replace_managers_self hview hvalid' ?_
      (hregistered.trans hguard.symm) fun _ => hpeer
    intro hfinished
    simp [Endpoint.failed, hfinished] at hfailed

/-- `on_finish` keeps the invariant: an end that is live is the one that is found under its
logic peer. -/
theorem finish_entryInv {conn : Connection Node} (h : EntryInv n)
    (hconn : n.conns[id.conn]? = some conn) (hlive : (conn.ends id.side).stage = .live) :
    EntryInv (n.replace id.conn (conn.node id.side)
      (conn.finish site (n.managers (conn.node id.side)) id)) := by
  have hold := Network.view_eq hconn
  have hregistered : (conn.ends id.side).registered = true := by
    simp [Endpoint.registered, hlive]
  have hfound := h.entered id _ _ hold hregistered
  have hconnected : (conn.ends id.side).connState = .connected := by
    have hvalid := h.valid id _ _ hold
    simpa [Endpoint.Valid, hlive] using hvalid
  have hview := view_replace
    (r := conn.finish site (n.managers (conn.node id.side)) id) hconn rfl
    (Function.update_of_ne id.side.other_ne _ _) (conn.node id.side)
  simp only [Connection.finish, Connection.setEnd_ends_self] at hview ⊢
  cases hremoved : ((n.managers (conn.node id.side)).removeWorkerEventHandler
      (conn.ends id.side).logicPeer (conn.realPeer site id.side)).1 with
  | some handler =>
    simp only [hremoved, Option.isSome_some, if_true] at hview ⊢
    have hlookup := UniqueWorkerManager.lookupWorker_remove (Option.isSome_of_eq_some hremoved)
    refine h.update hview trivial ?_ (by simp [Endpoint.registered]) ?_
    · intro x key id' hid
      rw [replace_managers]
      split_ifs with hx
      · subst hx
        rw [hlookup]
        split_ifs with hkey
        · simp [hkey, hfound, Ne.symm hid]
        · rfl
      · rfl
    · intro x key hother
      rw [replace_managers] at hother
      split_ifs at hother with hx
      · rw [hlookup] at hother
        split_ifs at hother with hkey
        exact absurd (h.found hold (hx ▸ hother)).2.1.symm hkey
      · exact absurd (h.found hold hother).1 hx
  | none =>
    simp only [hremoved, Option.isSome_none, Bool.false_eq_true, if_false] at hview ⊢
    have hlookup := UniqueWorkerManager.lookupWorker_remove_of_none hremoved
    have hsame : ∀ x key, ((n.replace id.conn (conn.node id.side)
        (conn.setEnd id.side { conn.ends id.side with stage := .finished },
          ((n.managers (conn.node id.side)).removeWorkerEventHandler
            (conn.ends id.side).logicPeer (conn.realPeer site id.side)).2)).managers
          x).lookupWorker key = (n.managers x).lookupWorker key := by
      intro x key
      rw [replace_managers]
      split_ifs with hx
      · rw [hlookup, hx]
      · rfl
    refine h.update hview hconnected ?_ (by simp [Endpoint.registered]) ?_
    · intro x key id' _
      rw [hsame]
    · intro x key hother
      rw [hsame] at hother
      obtain ⟨hx, hkey, -⟩ := h.found hold hother
      exact ⟨hx, hkey, .inr rfl⟩

variable [Fintype Node]

/-- Every step without a late failure keeps the invariant. -/
theorem netStep_entryInv (h : EntryInv n) (hguard : NoLateFailure n l)
    (hstep : netStep site n l = some n') : EntryInv n' := by
  cases l with
  | connect c s =>
    obtain ⟨hconns, hmanagers, -⟩ := netStep_connect hstep
    exact h.congr (Network.view_congr hconns) hmanagers
  | establish k port ok =>
    obtain ⟨c, s, -, hmanagers, -, -, ⟨-, hconns⟩ | ⟨-, -, hconns⟩⟩ := netStep_establish hstep
    · exact h.congr (Network.view_congr hconns) hmanagers
    · exact h.append hconns hmanagers
  | act id ok =>
    obtain ⟨conn, conn', m', hconn, hacts, rfl⟩ := netStep_act hstep
    exact act_entryInv h hguard hconn hacts
  | finish id closed =>
    obtain ⟨conn, hconn, hlive, -, rfl⟩ := netStep_finish hstep
    exact finish_entryInv h hconn hlive

end Tables

/-! ## Deleted handlers -/

section Deleted

open Runs

variable {Node : Type} {site : Node → Site} {n n' t : Network Node}
variable {l : NetLabel Node} {as : List (NetLabel Node)}

/-- No manager finds a handler that has been deleted. -/
def NoStaleEntry (n : Network Node) : Prop :=
  ∀ id node e, n.view id = some (node, e) → e.stage = .deleted →
    ∀ x key, (n.managers x).getWorkerEventHandler key ≠ some id

theorem EntryInv.noStaleEntry (h : EntryInv n) : NoStaleEntry n := by
  intro id node e hview hdeleted x key hlookup
  obtain ⟨-, -, hstage | hstage⟩ := h.found hview hlookup
  · simp [Endpoint.registered, hdeleted] at hstage
  · rw [hdeleted] at hstage
    cases hstage

theorem Endpoint.failed_of_registered {e e' : Endpoint} (hregistered : e.registered = true)
    (hfailed : e.failed = some e') : e' = e.close := by
  unfold Endpoint.registered at hregistered
  split at hregistered
  case h_1 what hstage =>
    have hstate : e.connState = .connectingRe := by simpa using hregistered
    simp only [Endpoint.failed, hstage, Option.some.injEq] at hfailed
    rw [← hfailed, Endpoint.afterSend_false, Endpoint.complete_eq_close (by simp [hstate])]
  case h_2 hstage => simpa [Endpoint.failed, hstage, eq_comm] using hfailed
  case h_3 hstage => simp [Endpoint.failed, hstage] at hfailed
  case h_4 => cases hregistered

variable [Fintype Node] [DecidableEq Node]

/-- An end that is about to be deleted while it is found. -/
theorem closing_violates (site : Node → Site) {conn : Connection Node} {id : EndpointId}
    (hconn : n.conns[id.conn]? = some conn) (hstage : (conn.ends id.side).stage = .closing)
    {x : Node} {key : NetPeerInfo} (hfound : (n.managers x).lookupWorker key = some id) :
    ∃ cs u, run (netStep site) n cs = some u ∧ ¬ NoStaleEntry u := by
  have hdelete : netStep site n (.act id true) = some (n.replace id.conn (conn.node id.side)
      (conn.setEnd id.side { conn.ends id.side with stage := .deleted },
        n.managers (conn.node id.side))) := by
    simp [netStep, hconn, Connection.act, Connection.proceed, hstage]
  refine ⟨[.act id true], _, run_cons_eq_some.2 ⟨_, hdelete, rfl⟩, ?_⟩
  intro hstale
  have hview := view_replace (r := (conn.setEnd id.side
      { conn.ends id.side with stage := .deleted }, n.managers (conn.node id.side)))
    hconn rfl (Function.update_of_ne id.side.other_ne _ _) (conn.node id.side) id
  rw [if_pos rfl, Connection.setEnd_ends_self] at hview
  refine hstale id _ _ hview rfl x key ?_
  rw [replace_managers_self]
  exact hfound

/-- An end that fails behind its registration is deleted next and is still found. -/
theorem lateFailure_violates (h : EntryInv n) (hguard : ¬ NoLateFailure n l)
    (hstep : netStep site n l = some n') :
    ∃ cs u, run (netStep site) n' cs = some u ∧ ¬ NoStaleEntry u := by
  cases l with
  | connect | establish | finish => exact absurd trivial hguard
  | act id ok =>
    cases ok with
    | true => exact absurd trivial hguard
    | false =>
      obtain ⟨conn, conn', m', hconn, hacts, rfl⟩ := netStep_act hstep
      have hold := Network.view_eq hconn
      have hregistered : (conn.ends id.side).registered = true := by
        simpa [NoLateFailure, hold] using hguard
      have hfound := h.entered id _ _ hold hregistered
      cases hacts with
      | fail hfailed =>
        obtain rfl := Endpoint.failed_of_registered hregistered hfailed
        have hconn' := replace_conns hconn (conn.node id.side)
          (conn.setEnd id.side (conn.ends id.side).close, n.managers (conn.node id.side))
          id.conn
        rw [if_pos rfl] at hconn'
        have hstill : ((n.replace id.conn (conn.node id.side)
            (conn.setEnd id.side (conn.ends id.side).close,
              n.managers (conn.node id.side))).managers (conn.node id.side)).lookupWorker
            (conn.ends id.side).logicPeer = some id := by
          rw [replace_managers_self]
          exact hfound
        exact closing_violates site hconn' (by simp [Endpoint.close]) hstill

/-- As long as no call fails behind a registration, no deleted handler is found; every other
run has a beginning that can be continued to a state where one is. -/
theorem failed_handshake_unregistered (hrun : run (netStep site) .start as = some t) :
    (Guarded (netStep site) NoLateFailure .start as →
      Always (netStep site) NoStaleEntry .start as) ∧
    (¬ Guarded (netStep site) NoLateFailure .start as →
      ∃ bs cs u, bs <+: as ∧ run (netStep site) .start (bs ++ cs) = some u ∧
        ¬ NoStaleEntry u) := by
  constructor
  · intro hguarded
    have halways := always_of_guarded (I := EntryInv)
      (fun _ _ _ h hguard hstep => netStep_entryInv h hguard hstep) start_entryInv hguarded
    exact halways.mono fun _ h => h.noStaleEntry
  · exact exists_violation (I := EntryInv)
      (fun _ _ _ h hguard hstep => netStep_entryInv h hguard hstep)
      (fun _ _ _ h hguard hstep => lateFailure_violates h hguard hstep) start_entryInv hrun

/-- A client whose read of the first response fails is deleted, and no manager finds it. -/
theorem failed_handshake_unregistered_early :
    let site : Bool → Site := fun b =>
      ⟨if b then "10.0.0.2" else "10.0.0.1", 7000, 7000, by decide⟩
    let labels : List (NetLabel Bool) := [.connect false true, .establish 0 50000 true,
      .act ⟨0, .client⟩ true, .act ⟨0, .client⟩ false, .act ⟨0, .client⟩ true]
    ∃ t : Network Bool, run (netStep site) .start labels = some t ∧
      (t.view ⟨0, .client⟩).map (fun v => v.2.stage) = some .deleted ∧
      Guarded (netStep site) NoLateFailure .start labels ∧
      Always (netStep site) NoStaleEntry .start labels := by
  intro site labels
  obtain ⟨t, hrun, ht⟩ : ∃ t ∈ run (netStep site) .start labels,
      (t.view ⟨0, .client⟩).map (fun v => v.2.stage) = some .deleted := by
    decide +kernel
  have hguarded : Guarded (netStep site) NoLateFailure .start labels := by decide +kernel
  exact ⟨t, hrun, ht, hguarded, (failed_handshake_unregistered hrun).1 hguarded⟩

/-- The server registers the connection, the write of its last message fails, and the
handler is deleted: the manager still finds it. -/
theorem deleted_handler_found :
    let site : Bool → Site := fun b =>
      ⟨if b then "10.0.0.2" else "10.0.0.1", 7000, 7000, by decide⟩
    let labels : List (NetLabel Bool) := [.connect false true, .establish 0 50000 true,
      .act ⟨0, .client⟩ true, .act ⟨0, .server⟩ true, .act ⟨0, .server⟩ true,
      .act ⟨0, .client⟩ true, .act ⟨0, .client⟩ true, .act ⟨0, .server⟩ true,
      .act ⟨0, .server⟩ true, .act ⟨0, .server⟩ false, .act ⟨0, .server⟩ true]
    ∃ t : Network Bool, run (netStep site) .start labels = some t ∧
      (t.view ⟨0, .server⟩).map (fun v => v.2.stage) = some .deleted ∧
      (t.managers true).getWorkerEventHandler (site false).logicPeer = some ⟨0, .server⟩ ∧
      ¬ NoStaleEntry t := by
  intro site labels
  obtain ⟨t, hrun, hstage, hfound⟩ : ∃ t ∈ run (netStep site) .start labels,
      (t.view ⟨0, .server⟩).map (fun v => v.2.stage) = some .deleted ∧
        (t.managers true).getWorkerEventHandler (site false).logicPeer = some ⟨0, .server⟩ := by
    decide +kernel
  refine ⟨t, hrun, hstage, hfound, ?_⟩
  intro hstale
  obtain ⟨⟨node, e⟩, hview, hdeleted⟩ := Option.map_eq_some_iff.1 hstage
  exact hstale _ node e hview hdeleted true _ hfound

end Deleted
end Net
end CCraft
