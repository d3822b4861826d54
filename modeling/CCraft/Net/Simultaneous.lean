import CCraft.Net.Agreement
import Mathlib.Data.List.Perm.Subperm

/-!
# Two nodes that connect to each other

Two nodes name each other by the same address and port, and each calls `connect` once.  A
node registers the connection it accepts and the one it opens under the same key, and the
first one stays.  When both servers register their ends before the clients do, a client is
turned away by its own manager in favour of the other connection.  It closes its connection,
and the server of that connection unregisters it.  If that happens before the other client
registers, the other connection stays; otherwise the other client is turned away as well,
and no connection is left.

Main results:

- Theorem {lit}`Quiet.phases`: when nothing is left to do, both ends of a connection are
  live or both are deleted.
- Theorem {lit}`netStep_turnedAway`: a second client is turned away exactly by the steps
  outside {lit}`RefusesOnce`.
- Theorem {lit}`simultaneous_connect_iff`: the nodes end up with the two ends of one
  connection exactly when at most one client is turned away by its own manager.
-/

namespace CCraft
namespace Net

open Runs

/-! ## Final states -/

section Quiet

variable {Node : Type} [Fintype Node] [DecidableEq Node] {site : Node → Site}
variable {n : Network Node} {conn : Connection Node} {k : Nat}
variable {p : ClientPhase} {q : ServerPhase}

/-- Nothing is left to do: no call is dialing, and no end has an action or a close to
process. -/
structure Quiet (site : Node → Site) (n : Network Node) : Prop where
  dialing : n.dialing = []
  act : ∀ id, netStep site n (.act id true) = none
  finish : ∀ id, netStep site n (.finish id true) = none

theorem quiet_iff : Quiet site n ↔ n.dialing = [] ∧ ∀ k < n.conns.length,
    ∀ side ∈ [CreatorType.client, .server], (netStep site n (.act ⟨k, side⟩ true)).isNone ∧
      (netStep site n (.finish ⟨k, side⟩ true)).isNone := by
  simp only [Option.isNone_iff_eq_none]
  constructor
  · intro h
    exact ⟨h.dialing, fun k _ side _ => ⟨h.act ⟨k, side⟩, h.finish ⟨k, side⟩⟩⟩
  · rintro ⟨hdialing, hends⟩
    have hall : ∀ id, netStep site n (.act id true) = none ∧
        netStep site n (.finish id true) = none := by
      rintro ⟨k, side⟩
      by_cases hk : k < n.conns.length
      · exact hends k hk side (by cases side <;> simp)
      · simp [netStep, List.getElem?_eq_none (Nat.le_of_not_lt hk)]
    exact ⟨hdialing, fun id => (hall id).1, fun id => (hall id).2⟩

instance (site : Node → Site) (n : Network Node) : Decidable (Quiet site n) :=
  decidable_of_iff _ quiet_iff.symm

/-- An end without an action waits for a frame that is not there, or it is live, deleted or
finished. -/
theorem Quiet.stage (h : Quiet site n) (id : EndpointId)
    (hconn : n.conns[id.conn]? = some conn) :
    (conn.ends id.side).stage = .recv ∧
        (conn.out id.side.other).seen = (conn.out id.side.other).sent ∨
      (conn.ends id.side).stage = .live ∨ (conn.ends id.side).stage = .deleted ∨
      (conn.ends id.side).stage = .finished := by
  have hact := h.act id
  simp only [netStep, hconn, Connection.act, if_true, Option.map_eq_none_iff,
    Connection.proceed] at hact
  cases hstage : (conn.ends id.side).stage with
  | recv =>
    refine .inl ⟨rfl, Fifo.pop_eq_none ?_⟩
    cases hpop : (conn.out id.side.other).pop with
    | none => rfl
    | some r => simp [hstage, hpop] at hact
  | register =>
    simp only [hstage] at hact
    split at hact <;> cases hact
  | live => exact .inr (.inl rfl)
  | deleted => exact .inr (.inr (.inl rfl))
  | finished => exact .inr (.inr (.inr rfl))
  | _ => simp [hstage] at hact

/-- A client without an action waits for a response that was not sent, or is live or
deleted. -/
theorem Quiet.client_phase (h : Quiet site n) (hconn : n.conns[k]? = some conn)
    (hmatches : Matches site conn p q) :
    (p = .requested ∨ p = .waiting) ∧
        (p.row (conn.request site)).seen = (q.row (conn.request site)).sent ∨
      p = .live ∨ ∃ other, p = .gone other := by
  have hrow := congrArg Row.stage hmatches.client
  rcases h.stage ⟨k, .client⟩ hconn with ⟨hstage, hseen⟩ | hstage | hstage | hstage
  · have hall : (conn.row .client).seen = (conn.row .server).sent := hseen
    rw [hmatches.client, hmatches.server] at hall
    refine .inl ⟨?_, hall⟩
    cases p <;> cases hstage.symm.trans hrow <;> simp
  all_goals cases p <;> cases hstage.symm.trans hrow <;> simp

/-- A server without an action waits for a message that was not sent, or is live or
deleted. -/
theorem Quiet.server_phase (h : Quiet site n) (hconn : n.conns[k]? = some conn)
    (hmatches : Matches site conn p q) :
    (q = .start ∨ q = .waiting) ∧
        (q.row (conn.request site)).seen = (p.row (conn.request site)).sent ∨
      q = .live ∨ q = .freed ∨ ∃ other, q = .gone other := by
  have hrow := congrArg Row.stage hmatches.server
  rcases h.stage ⟨k, .server⟩ hconn with ⟨hstage, hseen⟩ | hstage | hstage | hstage
  · have hall : (conn.row .server).seen = (conn.row .client).sent := hseen
    rw [hmatches.client, hmatches.server] at hall
    refine .inl ⟨?_, hall⟩
    cases q <;> cases hstage.symm.trans hrow <;> simp
  all_goals cases q <;> cases hstage.symm.trans hrow <;> simp

/-- A live server whose client is deleted has a close to process. -/
theorem Quiet.not_closed (h : Quiet site n) (hconn : n.conns[k]? = some conn)
    {other : Option EndpointId} : ¬ Matches site conn (.gone other) .live := by
  intro hmatches
  have hlive : (conn.ends .server).stage = .live := congrArg Row.stage hmatches.server
  have hdeleted : (conn.ends .client).stage = .deleted := congrArg Row.stage hmatches.client
  have hseen : (conn.out .client).seen = _ := congrArg Row.seen hmatches.server
  have hsent : (conn.out .client).sent = _ := congrArg Row.sent hmatches.client
  have hqueue : (conn.out .client).queue = [] := by
    rw [Fifo.sent, hseen] at hsent
    simpa [ClientPhase.row, ServerPhase.row] using hsent
  have hfinish := h.finish ⟨k, .server⟩
  simp [netStep, hconn, CreatorType.other, hlive, hdeleted, hqueue] at hfinish

/-- In a final state both ends of a connection are live, or both are deleted. -/
theorem Quiet.phases (h : Quiet site n) (hconn : n.conns[k]? = some conn)
    (hmatches : Matches site conn p q) :
    p = .live ∧ q = .live ∨
      ∃ other, p = .gone other ∧ (q = .freed ∨ ∃ other', q = .gone other') := by
  have hseen := hmatches.client_seen
  rcases h.client_phase hconn hmatches with ⟨rfl | rfl, hall⟩ | rfl | ⟨other, rfl⟩
  · -- the server has sent nothing, so it waits for the request, which was sent
    rcases h.server_phase hconn hmatches with ⟨rfl | rfl, hall'⟩ | rfl | rfl | ⟨other, rfl⟩ <;>
      simp_all [ClientPhase.row, ServerPhase.row]
  · rcases h.server_phase hconn hmatches with ⟨rfl | rfl, hall'⟩ | rfl | rfl | ⟨other, rfl⟩ <;>
      simp_all [ClientPhase.row, ServerPhase.row]
  · have hq := hmatches.server_isRegistered (.inr rfl)
    rcases h.server_phase hconn hmatches with ⟨rfl | rfl, -⟩ | rfl | rfl | ⟨other, rfl⟩ <;>
      cases hq
    exact .inl ⟨rfl, rfl⟩
  · refine .inr ⟨other, rfl, ?_⟩
    rcases h.server_phase hconn hmatches with ⟨rfl | rfl, hall⟩ | rfl | hfreed | hgone
    · cases hall
    · cases hall
    · exact absurd hmatches (h.not_closed hconn)
    · exact .inl hfreed
    · exact .inr hgone

end Quiet

/-! ## Clients that are turned away by their own manager -/

section TurnedAway

variable {Node : Type} {site : Node → Site} {n n' : Network Node} {l : NetLabel Node}
variable {conn conn' : Connection Node} {m m' : UniqueWorkerManager EndpointId}
variable {id : EndpointId} {p : ClientPhase} {q : ServerPhase}

/-- The client was turned away by its own manager. -/
def Connection.clientRefused (conn : Connection Node) : Bool :=
  match conn.refused with
  | some (.client, _) => true
  | _ => false

/-- How many clients were turned away by their own managers. -/
def Network.turnedAway (n : Network Node) : Nat :=
  n.conns.countP Connection.clientRefused

/-- The end is a client that registers next and will be turned away. -/
def Connection.Refuses (m : UniqueWorkerManager EndpointId) (id : EndpointId)
    (conn : Connection Node) : Prop :=
  id.side = .client ∧ (conn.ends id.side).stage = .register ∧
    (m.lookupWorker (conn.ends id.side).logicPeer).isSome = true

instance (m : UniqueWorkerManager EndpointId) (id : EndpointId) (conn : Connection Node) :
    Decidable (conn.Refuses m id) :=
  inferInstanceAs (Decidable (_ ∧ _ ∧ _))

/-- The step does not turn a client away when another one has been turned away. -/
def RefusesOnce (n : Network Node) : NetLabel Node → Prop
  | .act id _ => ∀ conn ∈ n.conns[id.conn]?,
      conn.Refuses (n.managers (conn.node id.side)) id → n.turnedAway = 0
  | _ => True

instance (n : Network Node) (l : NetLabel Node) : Decidable (RefusesOnce n l) :=
  match l with
  | .act id _ => inferInstanceAs (Decidable (∀ conn ∈ n.conns[id.conn]?,
      conn.Refuses (n.managers (conn.node id.side)) id → n.turnedAway = 0))
  | .connect _ _ | .establish _ _ _ | .finish _ _ => isTrue trivial

theorem Matches.clientRefused_eq_false (h : Matches site conn p q)
    (hp : ∀ other, p ≠ .turnedAway (some other) ∧ p ≠ .gone (some other)) :
    conn.clientRefused = false := by
  unfold Connection.clientRefused
  split
  next other hrefused =>
    rcases refusedIn_client (h.refused.symm.trans hrefused) with hp' | hp'
    · exact absurd hp' (hp other).1
    · exact absurd hp' (hp other).2
  next => rfl

/-- A client is turned away by the action that registers it when its key is taken, and by no
other. -/
theorem Connection.Acts.clientRefused (hmatches : Matches site conn p q)
    (h : Connection.Acts site m id conn true conn' m') :
    conn.Refuses m id ∧ conn.clientRefused = false ∧ conn'.clientRefused = true ∨
      ¬ conn.Refuses m id ∧ conn'.clientRefused = conn.clientRefused := by
  have hseen := hmatches.client_seen
  cases h with
  | @refuse other hstage htaken =>
    obtain ⟨k, side⟩ := id
    cases side with
    | client =>
      refine .inl ⟨⟨rfl, hstage, by simp [htaken]⟩, hmatches.clientRefused_eq_false ?_, rfl⟩
      have hrow := hstage.symm.trans (congrArg Row.stage hmatches.client)
      cases p <;> cases hrow
      simp
    | server =>
      refine .inr ⟨fun hrefuses => (nomatch hrefuses.1), ?_⟩
      -- a server that has not registered has sent one response only
      refine Eq.symm (hmatches.clientRefused_eq_false ?_)
      have hrow := hstage.symm.trans (congrArg Row.stage hmatches.server)
      cases q <;> cases hrow
      intro other
      constructor <;> rintro rfl <;> simp [ClientPhase.row, ServerPhase.row] at hseen
  | put hstage hfree => exact .inr ⟨fun hrefuses => by simp [Refuses, hfree] at hrefuses, rfl⟩
  | recv hstage _ => exact .inr ⟨fun hrefuses => by simp [Refuses, hstage] at hrefuses, rfl⟩
  | eof hstage _ _ => exact .inr ⟨fun hrefuses => by simp [Refuses, hstage] at hrefuses, rfl⟩
  | _ hstage => exact .inr ⟨fun hrefuses => by simp [Refuses, hstage] at hrefuses, rfl⟩

variable [DecidableEq Node]

theorem turnedAway_replace (hconn : n.conns[id.conn]? = some conn) (node : Node)
    (r : Connection Node × UniqueWorkerManager EndpointId) :
    (n.replace id.conn node r).turnedAway + (if conn.clientRefused then 1 else 0) =
      n.turnedAway + (if r.1.clientRefused then 1 else 0) := by
  obtain ⟨hlt, hget⟩ := List.getElem?_eq_some_iff.1 hconn
  have hpos : conn.clientRefused = true → 0 < n.turnedAway := fun hrefused =>
    List.countP_pos_iff.2 ⟨conn, List.mem_of_getElem? hconn, hrefused⟩
  have hset : (n.replace id.conn node r).turnedAway = _ := List.countP_set hlt
  rw [hset, hget]
  simp only [Network.turnedAway] at *
  split_ifs with hold <;> simp_all

variable [Fintype Node]

/-- At most one client is turned away after a step exactly when it was so before and the
step does not turn away a second one. -/
theorem netStep_turnedAway (h : Lossless site n) (hreliable : l.Reliable)
    (hstep : netStep site n l = some n') :
    n'.turnedAway ≤ 1 ↔ n.turnedAway ≤ 1 ∧ RefusesOnce n l := by
  cases l with
  | connect c s =>
    obtain ⟨hconns, -⟩ := netStep_connect hstep
    simp [Network.turnedAway, hconns, RefusesOnce]
  | establish k port ok =>
    obtain ⟨c, s, -, -, -, -, ⟨-, hconns⟩ | ⟨-, -, hconns⟩⟩ := netStep_establish hstep
    · simp [Network.turnedAway, hconns, RefusesOnce]
    · simp [Network.turnedAway, hconns, RefusesOnce, Connection.clientRefused, Connection.new]
  | act id ok =>
    obtain ⟨conn, conn', m', hconn, hacts, rfl⟩ := netStep_act hstep
    obtain rfl : ok = true := hreliable
    obtain ⟨p, q, hmatches⟩ := h.phases id.conn conn hconn
    have hcount := turnedAway_replace hconn (conn.node id.side) (conn', m')
    simp only [RefusesOnce, hconn, Option.mem_some_iff, forall_eq']
    rcases hacts.clientRefused hmatches with ⟨hrefuses, hold, hnew⟩ | ⟨hrefuses, hsame⟩
    · simp only [hold, hnew, if_true, Bool.false_eq_true, if_false] at hcount
      simp only [hrefuses, forall_const]
      omega
    · simp only [hsame, Nat.add_right_cancel_iff] at hcount
      simp [hcount, hrefuses]
  | finish id closed =>
    obtain ⟨conn, hconn, -, -, rfl⟩ := netStep_finish hstep
    have hcount := turnedAway_replace hconn (conn.node id.side)
      (conn.finish site (n.managers (conn.node id.side)) id)
    have hsame : (conn.finish site (n.managers (conn.node id.side)) id).1.clientRefused =
        conn.clientRefused := rfl
    simp only [hsame, Nat.add_right_cancel_iff] at hcount
    simp [hcount, RefusesOnce]

end TurnedAway

/-! ## Two nodes -/

section Pair

variable {Node : Type} {site : Node → Site} {a b : Node} {n n' : Network Node}
variable {l : NetLabel Node} {conn conn' : Connection Node} {id : EndpointId} {j k : Nat}

/-- The client and the server of a connection. -/
def Connection.route (conn : Connection Node) : Node × Node :=
  (conn.node .client, conn.node .server)

/-- Only two nodes call `connect`, each for the other. -/
def Between (a b : Node) : NetLabel Node → Prop
  | .connect c s => (c, s) = (a, b) ∨ (c, s) = (b, a)
  | _ => True

instance [DecidableEq Node] (a b : Node) (l : NetLabel Node) : Decidable (Between a b l) :=
  match l with
  | .connect c s => inferInstanceAs (Decidable ((c, s) = (a, b) ∨ (c, s) = (b, a)))
  | .establish _ _ _ | .act _ _ | .finish _ _ => isTrue trivial

/-- Each of the two nodes has one handler, registered for the other, and the two handlers are
the ends of the same connection. -/
def Converged (site : Node → Site) (a b : Node) (n : Network Node) : Prop :=
  ∃ (k : Nat) (conn : Connection Node) (side : CreatorType),
    n.conns[k]? = some conn ∧ conn.node side = a ∧ conn.node side.other = b ∧
    (∀ key id, (n.managers a).getWorkerEventHandler key = some id ↔
      key = (site b).peer ∧ id = ⟨k, side⟩) ∧
    ∀ key id, (n.managers b).getWorkerEventHandler key = some id ↔
      key = (site a).peer ∧ id = ⟨k, side.other⟩

/-- The invariant of two nodes that connect to each other.  Each call opens at most one
connection, and the first one does.  An end is turned away in favour of an end of another
connection, a server in favour of a client that is connected. -/
structure PairInv (site : Node → Site) (a b : Node) (n : Network Node) : Prop where
  lossless : Lossless site n
  between : ∀ r ∈ n.called, r = (a, b) ∨ r = (b, a)
  calls : (n.dialing ++ n.conns.map Connection.route).Subperm n.called
  started : n.called ≠ [] → n.dialing ≠ [] ∨ n.conns ≠ []
  refused : n.called.Nodup → ∀ (k : Nat) (conn : Connection Node) (side : CreatorType)
    (other : EndpointId), n.conns[k]? = some conn → conn.refused = some (side, other) →
    ∃ conn', n.conns[other.conn]? = some conn' ∧ other.conn ≠ k ∧
      (side = .server → (conn'.ends .client).connState = .connected)

theorem start_pairInv (site : Node → Site) (a b : Node) : PairInv site a b .start := by
  refine ⟨start_lossless, ?_, ?_, ?_, ?_⟩ <;> simp [Network.start]

/-- A connection goes from one of the nodes to the other. -/
theorem PairInv.nodes (h : PairInv site a b n) (hconn : n.conns[k]? = some conn) :
    conn.node .client = a ∧ conn.node .server = b ∨
      conn.node .client = b ∧ conn.node .server = a := by
  have hmem := List.mem_map_of_mem (f := Connection.route) (List.mem_of_getElem? hconn)
  have hroute := h.between _ (h.calls.subset (List.mem_append_right _ hmem))
  simpa only [Connection.route, Prod.mk.injEq] using hroute

/-- The ends of a connection are at different nodes. -/
theorem PairInv.node_inj (h : PairInv site a b n) (hab : a ≠ b) (hconn : n.conns[k]? = some conn)
    {side side' : CreatorType} (hnode : conn.node side = conn.node side') : side = side' := by
  have hnodes := h.nodes hconn
  cases side <;> cases side' <;> grind

/-- When each node calls once, connections in the same direction are the same. -/
theorem PairInv.server_inj (h : PairInv site a b n) (hab : a ≠ b) (hnodup : n.called.Nodup)
    (hconn : n.conns[j]? = some conn) (hconn' : n.conns[k]? = some conn')
    (hnode : conn.node .server = conn'.node .server) : j = k := by
  have hroute : conn.route = conn'.route := by
    have hnodes := h.nodes hconn
    have hnodes' := h.nodes hconn'
    simp only [Connection.route, Prod.mk.injEq]
    grind
  obtain ⟨called, hperm, hsub⟩ := h.calls
  have hroutes : (n.conns.map Connection.route).Nodup :=
    (List.nodup_append.1 ((hnodup.sublist hsub).perm hperm)).2.1
  have hlt : j < (n.conns.map Connection.route).length := by
    simpa using (List.getElem?_eq_some_iff.1 hconn).1
  refine (List.getElem?_inj hlt hroutes).1 ?_
  simp [hconn, hconn', hroute]

/-- The end that is found when another is turned away belongs to another connection, and it
is a client if the one that is turned away is a server. -/
theorem PairInv.preferred (h : PairInv site a b n) (hab : a ≠ b)
    (hconn : n.conns[id.conn]? = some conn) (hstage : (conn.ends id.side).stage = .register)
    {other : EndpointId}
    (htaken : (n.managers (conn.node id.side)).lookupWorker (conn.ends id.side).logicPeer =
      some other) (hnodup : n.called.Nodup) :
    ∃ conn', n.conns[other.conn]? = some conn' ∧ other.conn ≠ id.conn ∧
      (id.side = .server → (conn'.ends .client).connState = .connected) := by
  obtain ⟨conn', hconn', hnode, -, hregistered⟩ := h.lossless.found htaken
  have hne : other.conn ≠ id.conn := by
    intro heq
    rw [heq, hconn, Option.some.injEq] at hconn'
    subst hconn'
    rw [h.node_inj hab hconn hnode] at hregistered
    simp [Endpoint.registered, hstage] at hregistered
  refine ⟨conn', hconn', hne, ?_⟩
  intro hside
  rw [hside] at hnode
  cases hother : other.side with
  | server =>
    rw [hother] at hnode
    exact absurd (h.server_inj hab hnodup hconn' hconn hnode) hne
  | client =>
    obtain ⟨p, q, hmatches⟩ := h.lossless.phases _ _ hconn'
    have hstate : (conn'.ends .client).connState = _ := congrArg Row.state hmatches.client
    rw [hother, hmatches.client_registered] at hregistered
    rw [hstate]
    cases p <;> cases hregistered <;> rfl

/-- A connected client stays connected. -/
theorem Connection.Acts.client_connected {m m' : UniqueWorkerManager EndpointId}
    {p : ClientPhase} {q : ServerPhase} (hmatches : Matches site conn p q)
    (h : Connection.Acts site m id conn true conn' m')
    (hconnected : (conn.ends .client).connState = .connected) :
    (conn'.ends .client).connState = .connected := by
  obtain ⟨k, side⟩ := id
  cases side with
  | server => exact (congrArg Endpoint.connState h.frame.2.2).trans hconnected
  | client =>
    have hstate := hconnected.symm.trans (congrArg Row.state hmatches.client)
    have hrow := congrArg Row.stage hmatches.client
    have hstage : (conn.ends .client).stage = .setNonBlocking ∨
        (conn.ends .client).stage = .live := by
      cases p <;> cases hstate
      · exact .inl hrow
      · exact .inr hrow
    cases h <;> simp_all

variable [DecidableEq Node]

theorem map_route_replace {r : Connection Node × UniqueWorkerManager EndpointId} {node : Node}
    (hconn : n.conns[k]? = some conn) (hnode : r.1.node = conn.node) :
    (n.replace k node r).conns.map Connection.route = n.conns.map Connection.route := by
  refine List.ext_getElem? fun j => ?_
  rw [List.getElem?_map, List.getElem?_map, replace_conns hconn]
  split_ifs with hj
  · simp [hj, hconn, Connection.route, hnode]
  · rfl

/-- A step of one end keeps the invariant if a connected client stays connected and an end
that is turned away is turned away for an end of another connection. -/
theorem PairInv.of_replace {r : Connection Node × UniqueWorkerManager EndpointId} {node : Node}
    (h : PairInv site a b n) (hconn : n.conns[k]? = some conn) (hnode : r.1.node = conn.node)
    (hlossless : Lossless site (n.replace k node r))
    (hconnected : (conn.ends .client).connState = .connected →
      (r.1.ends .client).connState = .connected)
    (hrefused : r.1.refused = conn.refused ∨ (n.called.Nodup →
      ∃ side other conn', r.1.refused = some (side, other) ∧ n.conns[other.conn]? = some conn' ∧
        other.conn ≠ k ∧ (side = .server → (conn'.ends .client).connState = .connected))) :
    PairInv site a b (n.replace k node r) := by
  refine ⟨hlossless, h.between, ?_, ?_, ?_⟩
  · rw [map_route_replace hconn hnode]
    exact h.calls
  · intro hcalled
    refine (h.started hcalled).imp id ?_
    intro hne hnil
    exact hne (by simpa [Network.replace] using hnil)
  · intro hnodup j c side other hc hside
    have hold : ∃ c', n.conns[other.conn]? = some c' ∧ other.conn ≠ j ∧
        (side = .server → (c'.ends .client).connState = .connected) := by
      rw [replace_conns hconn] at hc
      split_ifs at hc with hj
      · cases hc
        rw [hj]
        rcases hrefused with hsame | hnew
        · exact h.refused hnodup k conn side other hconn (hsame ▸ hside)
        · obtain ⟨side', other', c', hset, hfound⟩ := hnew hnodup
          simp only [hset] at hside
          cases hside
          exact ⟨c', hfound⟩
      · exact h.refused hnodup j c side other hc hside
    obtain ⟨c', hc', hne, hserver⟩ := hold
    by_cases hother : other.conn = k
    · rw [hother, hconn, Option.some.injEq] at hc'
      subst hc'
      refine ⟨r.1, ?_, hne, fun hs => hconnected (hserver hs)⟩
      rw [replace_conns hconn, if_pos hother]
    · refine ⟨c', ?_, hne, hserver⟩
      rw [replace_conns hconn, if_neg hother]
      exact hc'

variable [Fintype Node]

/-- A call is made; one that finds a connection does not dial. -/
theorem connect_pairInv {c s : Node} (h : PairInv site a b n)
    (hbetween : Between a b (.connect c s)) (hstep : netStep site n (.connect c s) = some n') :
    PairInv site a b n' := by
  have hreliable : (NetLabel.connect c s).Reliable := trivial
  have hlossless := netStep_lossless h.lossless hreliable hstep
  obtain ⟨hconns, -, hcalled, hdialing⟩ := netStep_connect hstep
  refine ⟨hlossless, ?_, ?_, ?_, ?_⟩
  · rw [hcalled]
    exact List.forall_mem_append.2 ⟨h.between, List.forall_mem_singleton.2 hbetween⟩
  · rw [hconns, hcalled]
    rcases hdialing with ⟨-, hdialing⟩ | ⟨-, hdialing⟩ <;> rw [hdialing]
    · exact h.calls.trans (List.sublist_append_left _ _).subperm
    · rw [List.append_assoc]
      refine (List.Perm.append_left _ List.perm_append_comm).subperm.trans ?_
      rw [← List.append_assoc]
      exact (List.subperm_append_right _).2 h.calls
  · intro _
    rw [hconns]
    rcases hdialing with ⟨hfound, -⟩ | ⟨-, hdialing⟩
    · -- a connection that is found exists
      obtain ⟨other, hlookup⟩ := Option.ne_none_iff_exists'.1 hfound
      obtain ⟨e, hview, -⟩ := h.lossless.entries.kept _ _ _ hlookup
      exact .inr (List.ne_nil_of_length_pos (Nat.zero_lt_of_lt (Network.lt_of_view hview)))
    · exact .inl (by simp [hdialing])
  · rw [hconns, hcalled]
    intro hnodup
    exact h.refused (hnodup.sublist (List.sublist_append_left _ _))

/-- A call that is dialing gets its connection. -/
theorem establish_pairInv {k port : Nat} (h : PairInv site a b n)
    (hstep : netStep site n (.establish k port true) = some n') : PairInv site a b n' := by
  have hreliable : (.establish k port true : NetLabel Node).Reliable := rfl
  have hlossless := netStep_lossless h.lossless hreliable hstep
  obtain ⟨c, s, hk, -, hcalled, hdialing, ⟨hok, -⟩ | ⟨-, -, hconns⟩⟩ := netStep_establish hstep
  · cases hok
  refine ⟨hlossless, hcalled ▸ h.between, ?_, ?_, ?_⟩
  · obtain ⟨hlt, hget⟩ := List.getElem?_eq_some_iff.1 hk
    have hperm := List.getElem_cons_eraseIdx_perm hlt
    rw [hget] at hperm
    have hroute : (Connection.new site c s port).route = (c, s) := rfl
    rw [hcalled, hdialing, hconns, List.map_append, ← List.append_assoc, List.map_singleton,
      hroute]
    refine List.Perm.subperm_right ?_ |>.1 h.calls
    exact (hperm.symm.append_right _).trans (List.perm_append_singleton _ _).symm
  · intro _
    exact .inr (by simp [hconns])
  · rw [hcalled]
    intro hnodup j conn side other hconn hrefused
    rcases Network.conns_append hconns hconn with hold | ⟨-, rfl⟩
    · obtain ⟨conn', hconn', hrest⟩ := h.refused hnodup j conn side other hold hrefused
      refine ⟨conn', ?_, hrest⟩
      rw [hconns, List.getElem?_append_left (List.getElem?_eq_some_iff.1 hconn').1]
      exact hconn'
    · cases hrefused

/-- Every step without a failure keeps the invariant. -/
theorem netStep_pairInv (hab : a ≠ b) (h : PairInv site a b n) (hreliable : l.Reliable)
    (hbetween : Between a b l) (hstep : netStep site n l = some n') : PairInv site a b n' := by
  have hlossless := netStep_lossless h.lossless hreliable hstep
  cases l with
  | connect c s => exact connect_pairInv h hbetween hstep
  | establish k port ok =>
    obtain rfl : ok = true := hreliable
    exact establish_pairInv h hstep
  | act id ok =>
    obtain ⟨conn, conn', m', hconn, hacts, rfl⟩ := netStep_act hstep
    obtain rfl : ok = true := hreliable
    obtain ⟨p, q, hmatches⟩ := h.lossless.phases _ _ hconn
    refine h.of_replace hconn hacts.frame.1 hlossless (hacts.client_connected hmatches) ?_
    rcases hacts.refused_cases with hsame | ⟨other, hstage, htaken, hnew⟩
    · exact .inl hsame
    · refine .inr fun hnodup => ?_
      obtain ⟨c, hc, hrest⟩ := h.preferred hab hconn hstage htaken hnodup
      exact ⟨id.side, other, c, hnew, hc, hrest⟩
  | finish id closed =>
    obtain ⟨conn, hconn, -, -, rfl⟩ := netStep_finish hstep
    refine h.of_replace hconn rfl hlossless ?_ (.inl rfl)
    intro hconnected
    cases hside : id.side <;>
      simpa [Connection.finish, Connection.setEnd, hside] using hconnected

end Pair

/-! ## How it ends -/

section End

variable {Node : Type} {site : Node → Site} {a b : Node} {n : Network Node}
variable {conn : Connection Node} {id : EndpointId} {k : Nat}

/-- A registered end has the other node as its logic peer. -/
theorem PairInv.logicPeer (h : PairInv site a b n) (ha : (site a).peer = (site a).logicPeer)
    (hb : (site b).peer = (site b).logicPeer) (hconn : n.conns[id.conn]? = some conn)
    (hregistered : (conn.ends id.side).registered = true) :
    (conn.ends id.side).logicPeer = (site (conn.node id.side.other)).peer := by
  obtain ⟨p, q, hmatches⟩ := h.lossless.phases _ _ hconn
  obtain ⟨k, side⟩ := id
  cases side with
  | client => exact hmatches.clientPeer
  | server =>
    have hq := hmatches.server_registered.symm.trans hregistered
    refine (hmatches.serverPeer (by rintro rfl; cases hq)).trans ?_
    rcases h.nodes hconn with ⟨hnode, -⟩ | ⟨hnode, -⟩ <;>
      simp [CreatorType.other, hnode, ha, hb]

/-- A node with a registered end finds this end under the name of the other node, and no
other. -/
theorem PairInv.found_iff (h : PairInv site a b n) (hab : a ≠ b)
    (ha : (site a).peer = (site a).logicPeer) (hb : (site b).peer = (site b).logicPeer)
    (id : EndpointId) (hconn : n.conns[id.conn]? = some conn)
    (hregistered : (conn.ends id.side).registered = true) (key : NetPeerInfo)
    (id' : EndpointId) :
    (n.managers (conn.node id.side)).getWorkerEventHandler key = some id' ↔
      key = (site (conn.node id.side.other)).peer ∧ id' = id := by
  have hentered := h.lossless.entries.entered _ _ _ (Network.view_eq hconn) hregistered
  rw [h.logicPeer ha hb hconn hregistered] at hentered
  constructor
  · intro hlookup
    obtain ⟨conn', hconn', hnode, hkey, hregistered'⟩ := h.lossless.found hlookup
    have hother : conn'.node id'.side.other = conn.node id.side.other := by
      have hnodes := h.nodes hconn
      have hnodes' := h.nodes hconn'
      cases hs : id.side <;> cases hs' : id'.side <;>
        simp only [hs, hs', CreatorType.other] at hnode ⊢ <;> grind
    rw [h.logicPeer ha hb hconn' hregistered', hother] at hkey
    subst hkey
    exact ⟨rfl, Option.some.inj (hlookup.symm.trans hentered)⟩
  · rintro ⟨rfl, rfl⟩
    exact hentered

/-- A connection with both ends registered is the one the nodes agree on. -/
theorem PairInv.converged (h : PairInv site a b n) (hab : a ≠ b)
    (ha : (site a).peer = (site a).logicPeer) (hb : (site b).peer = (site b).logicPeer)
    (hconn : n.conns[k]? = some conn)
    (hregistered : ∀ side, (conn.ends side).registered = true) : Converged site a b n := by
  have hfound : ∀ side key id', (n.managers (conn.node side)).getWorkerEventHandler key =
      some id' ↔ key = (site (conn.node side.other)).peer ∧ id' = ⟨k, side⟩ :=
    fun side => h.found_iff hab ha hb ⟨k, side⟩ hconn (hregistered side)
  have hclient := hfound .client
  have hserver := hfound .server
  rcases h.nodes hconn with ⟨hc, hs⟩ | ⟨hc, hs⟩ <;>
    simp only [CreatorType.other, hc, hs] at hclient hserver
  · exact ⟨k, conn, .client, hconn, hc, hs, hclient, hserver⟩
  · exact ⟨k, conn, .server, hconn, hs, hc, hserver, hclient⟩

variable [DecidableEq Node] [Fintype Node]

/-- In a final state every connection has both ends registered, or none. -/
theorem PairInv.quiet_cases (h : PairInv site a b n) (hquiet : Quiet site n)
    (hconn : n.conns[k]? = some conn) :
    (∀ side, (conn.ends side).registered = true) ∧ conn.refused = none ∨
      (∀ side, (conn.ends side).registered = false) ∧
        (conn.ends .client).connState ≠ .connected ∧ ∃ r, conn.refused = some r := by
  obtain ⟨p, q, hmatches⟩ := h.lossless.phases _ _ hconn
  have hclient := hmatches.client_registered
  have hserver := hmatches.server_registered
  have hstate : (conn.ends .client).connState = _ := congrArg Row.state hmatches.client
  have hseen := hmatches.client_seen
  have hrefused := hmatches.refused
  rcases hquiet.phases hconn hmatches with ⟨rfl, rfl⟩ | ⟨other, rfl, rfl | ⟨other', rfl⟩⟩
  · refine .inl ⟨?_, hrefused⟩
    rintro (_ | _)
    · exact hclient
    · exact hserver
  · refine .inr ⟨?_, by simp [hstate, ClientPhase.row], ?_⟩
    · rintro (_ | _)
      · exact hclient
      · exact hserver
    · cases other with
      | none => simp [ClientPhase.row, ServerPhase.row, lastResponse, errorResponse_ne] at hseen
      | some other => exact ⟨_, hrefused⟩
  · refine .inr ⟨?_, by simp [hstate, ClientPhase.row], _, hrefused⟩
    rintro (_ | _)
    · exact hclient
    · exact hserver

/-- In a final state the nodes have one connection exactly when at most one client was
turned away by its own manager. -/
theorem PairInv.converged_iff (h : PairInv site a b n) (hab : a ≠ b)
    (ha : (site a).peer = (site a).logicPeer) (hb : (site b).peer = (site b).logicPeer)
    (hcalled : n.called.Perm [(a, b), (b, a)]) (hquiet : Quiet site n) :
    Converged site a b n ↔ n.turnedAway ≤ 1 := by
  have hnodup : n.called.Nodup := hcalled.nodup_iff.2 (by simp [hab])
  constructor
  · rintro ⟨k, conn, side, hconn, rfl, rfl, hfound, -⟩
    -- there are two connections at most, and this one was not turned away
    have hlen : n.conns.length ≤ 2 := by
      simpa [hquiet.dialing] using h.calls.length_le.trans hcalled.length_eq.le
    have hlookup := (hfound _ _).2 ⟨rfl, rfl⟩
    obtain ⟨conn', hconn', -, -, hregistered⟩ := h.lossless.found hlookup
    rw [hconn, Option.some.injEq] at hconn'
    subst hconn'
    rcases h.quiet_cases hquiet hconn with ⟨-, hrefused⟩ | ⟨hnone, -⟩
    · have hlt : n.turnedAway < n.conns.length := List.countP_lt_length_iff.2
        ⟨conn, List.mem_of_getElem? hconn, by simp [Connection.clientRefused, hrefused]⟩
      omega
    · rw [hnone side] at hregistered
      cases hregistered
  · intro hcount
    by_contra hdiverged
    have hgone : ∀ (k : Nat) (conn : Connection Node), n.conns[k]? = some conn →
        (conn.ends .client).connState ≠ .connected ∧ ∃ r, conn.refused = some r := by
      intro k conn hconn
      rcases h.quiet_cases hquiet hconn with ⟨hregistered, -⟩ | ⟨-, hrest⟩
      · exact absurd (h.converged hab ha hb hconn hregistered) hdiverged
      · exact hrest
    -- every client was turned away by its own manager, as no client is connected
    have hclient : ∀ (k : Nat) (conn : Connection Node), n.conns[k]? = some conn →
        conn.clientRefused = true ∧ ∃ j conn', n.conns[j]? = some conn' ∧ j ≠ k := by
      intro k conn hconn
      obtain ⟨-, ⟨side, other⟩, hrefused⟩ := hgone k conn hconn
      obtain ⟨conn', hconn', hne, hserver⟩ := h.refused hnodup k conn side other hconn hrefused
      refine ⟨?_, other.conn, conn', hconn', hne⟩
      cases side with
      | client => simp [Connection.clientRefused, hrefused]
      | server => exact absurd (hserver rfl) (hgone _ _ hconn').1
    have hcalls : n.called ≠ [] := by
      intro hnil
      simp [hnil] at hcalled
    have hconns : n.conns ≠ [] := (h.started hcalls).resolve_left (by simp [hquiet.dialing])
    have hall : n.turnedAway = n.conns.length := by
      refine List.countP_eq_length.2 ?_
      intro conn hmem
      obtain ⟨k, hconn⟩ := List.mem_iff_getElem?.1 hmem
      exact (hclient k conn hconn).1
    obtain ⟨conn, hmem⟩ := List.exists_mem_of_ne_nil _ hconns
    obtain ⟨k, hconn⟩ := List.mem_iff_getElem?.1 hmem
    obtain ⟨-, j, conn', hconn', hne⟩ := hclient k conn hconn
    have hk := (List.getElem?_eq_some_iff.1 hconn).1
    have hj := (List.getElem?_eq_some_iff.1 hconn').1
    omega

/-- Two nodes that name each other by the same keys connect to each other, once each, over
channels that do not fail.  In a final state each has one handler for the other, and the two
are the ends of one connection, exactly when no client was turned away by its own manager
after another was. -/
theorem simultaneous_connect_iff {t : Network Node} {as : List (NetLabel Node)} (hab : a ≠ b)
    (ha : (site a).peer = (site a).logicPeer) (hb : (site b).peer = (site b).logicPeer)
    (hlabels : ∀ l ∈ as, l.Reliable ∧ Between a b l)
    (hrun : run (netStep site) .start as = some t)
    (hcalled : t.called.Perm [(a, b), (b, a)]) (hquiet : Quiet site t) :
    Converged site a b t ↔ Guarded (netStep site) RefusesOnce .start as := by
  have hkeep : ∀ n l n', PairInv site a b n → l.Reliable ∧ Between a b l →
      netStep site n l = some n' → PairInv site a b n' :=
    fun _ _ _ h hl hstep => netStep_pairInv hab h hl.1 hl.2 hstep
  have hinv := (always_of_forall hkeep (start_pairInv site a b) hlabels).last hrun
  have hguarded := last_iff_guarded (P := fun n => n.turnedAway ≤ 1) (G := RefusesOnce) hkeep
    (fun _ _ _ h hl hstep => netStep_turnedAway h.lossless hl.1 hstep) (start_pairInv site a b)
    hlabels hrun
  rw [hinv.converged_iff hab ha hb hcalled hquiet, hguarded]
  exact and_iff_right (Nat.zero_le 1)

/-- Both servers register before the clients.  Node 0 turns its own connection away, and the
connection of node 1 stays, since node 1 has unregistered the other one in time. -/
theorem simultaneous_connect_one_refused :
    let site : Fin 2 → Site := fun i =>
      ⟨if i = 0 then "10.0.0.1" else "10.0.0.2", 9000, 9000, by decide⟩
    let labels : List (NetLabel (Fin 2)) := [.connect 0 1, .connect 1 0, .establish 0 50000 true,
      .establish 0 50001 true, .act ⟨0, .client⟩ true, .act ⟨1, .client⟩ true,
      .act ⟨0, .server⟩ true, .act ⟨1, .server⟩ true, .act ⟨0, .server⟩ true,
      .act ⟨1, .server⟩ true, .act ⟨0, .client⟩ true, .act ⟨1, .client⟩ true,
      .act ⟨0, .client⟩ true, .act ⟨1, .client⟩ true, .act ⟨0, .server⟩ true,
      .act ⟨1, .server⟩ true, .act ⟨0, .server⟩ true, .act ⟨1, .server⟩ true,
      .act ⟨0, .server⟩ true, .act ⟨1, .server⟩ true, .act ⟨0, .server⟩ true,
      .act ⟨1, .server⟩ true, .act ⟨0, .client⟩ true, .act ⟨1, .client⟩ true,
      .act ⟨0, .client⟩ true, .act ⟨0, .client⟩ true, .finish ⟨0, .server⟩ true,
      .act ⟨1, .client⟩ true, .act ⟨1, .client⟩ true, .act ⟨0, .server⟩ true]
    ∃ t : Network (Fin 2), run (netStep site) .start labels = some t ∧ Quiet site t ∧
      t.turnedAway = 1 ∧ Converged site 0 1 t := by
  intro site labels
  obtain ⟨t, hrun, hcalled, hquiet, hcount⟩ : ∃ t ∈ run (netStep site) .start labels,
      t.called = [(0, 1), (1, 0)] ∧ Quiet site t ∧ t.turnedAway = 1 := by
    decide +kernel
  refine ⟨t, hrun, hquiet, hcount, ?_⟩
  exact (simultaneous_connect_iff (by decide) rfl rfl (by decide +kernel) hrun
    (by rw [hcalled]) hquiet).2 (by decide +kernel)

/-- Both servers register before the clients, and both clients before anything is closed:
each is turned away in favour of the other's connection, and no handler is left. -/
theorem both_clients_refused :
    let site : Fin 2 → Site := fun i =>
      ⟨if i = 0 then "10.0.0.1" else "10.0.0.2", 9000, 9000, by decide⟩
    let labels : List (NetLabel (Fin 2)) := [.connect 0 1, .connect 1 0, .establish 0 50000 true,
      .establish 0 50001 true, .act ⟨0, .client⟩ true, .act ⟨1, .client⟩ true,
      .act ⟨0, .server⟩ true, .act ⟨1, .server⟩ true, .act ⟨0, .server⟩ true,
      .act ⟨1, .server⟩ true, .act ⟨0, .client⟩ true, .act ⟨1, .client⟩ true,
      .act ⟨0, .client⟩ true, .act ⟨1, .client⟩ true, .act ⟨0, .server⟩ true,
      .act ⟨1, .server⟩ true, .act ⟨0, .server⟩ true, .act ⟨1, .server⟩ true,
      .act ⟨0, .server⟩ true, .act ⟨1, .server⟩ true, .act ⟨0, .server⟩ true,
      .act ⟨1, .server⟩ true, .act ⟨0, .client⟩ true, .act ⟨1, .client⟩ true,
      .act ⟨0, .client⟩ true, .act ⟨1, .client⟩ true, .act ⟨0, .client⟩ true,
      .act ⟨1, .client⟩ true, .finish ⟨0, .server⟩ true, .finish ⟨1, .server⟩ true,
      .act ⟨0, .server⟩ true, .act ⟨1, .server⟩ true]
    (∀ l ∈ labels, l.Reliable ∧ Between 0 1 l) ∧
      ∃ t : Network (Fin 2), run (netStep site) .start labels = some t ∧
        t.called = [(0, 1), (1, 0)] ∧ Quiet site t ∧
        (t.managers 0).getWorkerEventHandler (site 1).peer = none ∧
        (t.managers 1).getWorkerEventHandler (site 0).peer = none ∧ ¬ Converged site 0 1 t := by
  intro site labels
  obtain ⟨t, hrun, hcalled, hquiet, hnone, hnone'⟩ : ∃ t ∈ run (netStep site) .start labels,
      t.called = [(0, 1), (1, 0)] ∧ Quiet site t ∧
        (t.managers 0).getWorkerEventHandler (site 1).peer = none ∧
        (t.managers 1).getWorkerEventHandler (site 0).peer = none := by
    decide +kernel
  refine ⟨by decide +kernel, t, hrun, hcalled, hquiet, hnone, hnone', ?_⟩
  rintro ⟨k, conn, side, -, -, -, hfound, -⟩
  have hlookup := (hfound _ _).2 ⟨rfl, rfl⟩
  rw [hnone] at hlookup
  cases hlookup

end End
end Net
end CCraft
