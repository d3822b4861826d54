import CCraft.Net.Registration

/-!
# Connections without socket failures

When no call fails, the two ends of a connection run through fixed phases.  The phase of an
end determines its state, its stage, what it has sent and what it has seen, and the phases
of both ends determine who has been turned away by a manager.  Since what an end has seen is
a beginning of what the other has sent, the phases of the two ends constrain each other.

A connection goes wrong in two ways: the server is turned away by its manager, and tells the
client; or the client is turned away by its own manager, when the server has registered the
connection already.  In the second case the client closes, and the server unregisters the
connection when it notices.

Main results:

- Theorems {lit}`Matches.act` and {lit}`Matches.finish`: every step takes the ends of a
  connection from phases to phases.
- Theorem {lit}`netStep_lossless`: the phases, and the tables of the managers that go with
  them, are kept by every step without a failure.
-/

namespace CCraft
namespace Net

open Common

/-! ## Phases -/

/-- The first and the second response, and the confirmation of the client. -/
def okResponse : Payload :=
  connectResponse .ok []

/-- The second response of a server that was turned away by its manager. -/
def errorResponse : Payload :=
  connectResponse .error []

/-- The state and the stage of an end, what it has sent, and what it has seen. -/
structure Row where
  state : ConnectionState
  stage : Stage
  sent : List Payload
  seen : List Payload

/-- The row of an end. -/
def Connection.row {Node : Type} (conn : Connection Node) (side : CreatorType) : Row :=
  ⟨(conn.ends side).connState, (conn.ends side).stage, (conn.out side).sent,
    (conn.out side.other).seen⟩

/-- The phases of a client; it is turned away by the server or by its own manager, in favour
of another end. -/
inductive ClientPhase where
  | start
  | requested
  | answered
  | waiting
  | acknowledged
  | registered
  | live
  | turnedAway (other : Option EndpointId)
  | gone (other : Option EndpointId)

/-- The last response a client has seen that was turned away. -/
def lastResponse : Option EndpointId → Payload
  | some _ => okResponse
  | none => errorResponse

def ClientPhase.row (request : Payload) : ClientPhase → Row
  | .start => ⟨.connecting, .sendRequest, [], []⟩
  | .requested => ⟨.connectSe, .recv, [request], []⟩
  | .answered => ⟨.connectSe, .respond .ok [], [request], [okResponse]⟩
  | .waiting => ⟨.waitLastACK, .recv, [request, okResponse], [okResponse]⟩
  | .acknowledged =>
    ⟨.waitLastACK, .register, [request, okResponse], [okResponse, okResponse]⟩
  | .registered =>
    ⟨.connected, .setNonBlocking, [request, okResponse], [okResponse, okResponse]⟩
  | .live => ⟨.connected, .live, [request, okResponse], [okResponse, okResponse]⟩
  | .turnedAway other =>
    ⟨.waitLastACK, .closing, [request, okResponse], [okResponse, lastResponse other]⟩
  | .gone other =>
    ⟨.waitLastACK, .deleted, [request, okResponse], [okResponse, lastResponse other]⟩

/-- The phases of a server; it is turned away by its manager in favour of another end, or
released after its client has gone. -/
inductive ServerPhase where
  | start
  | requested
  | waiting
  | confirmed
  | accepting
  | registered
  | live
  | released
  | freed
  | refusing (other : EndpointId)
  | turnedAway (other : EndpointId)
  | gone (other : EndpointId)

def ServerPhase.row (request : Payload) : ServerPhase → Row
  | .start => ⟨.connecting, .recv, [], []⟩
  | .requested => ⟨.connecting, .respond .ok [], [], [request]⟩
  | .waiting => ⟨.connectingRe, .recv, [okResponse], [request]⟩
  | .confirmed => ⟨.connectingRe, .register, [okResponse], [request, okResponse]⟩
  | .accepting => ⟨.connectingRe, .respond .ok [], [okResponse], [request, okResponse]⟩
  | .registered =>
    ⟨.connected, .setNonBlocking, [okResponse, okResponse], [request, okResponse]⟩
  | .live => ⟨.connected, .live, [okResponse, okResponse], [request, okResponse]⟩
  | .released => ⟨.connected, .closing, [okResponse, okResponse], [request, okResponse]⟩
  | .freed => ⟨.connected, .deleted, [okResponse, okResponse], [request, okResponse]⟩
  | .refusing _ => ⟨.connectingRe, .respond .error [], [okResponse], [request, okResponse]⟩
  | .turnedAway _ =>
    ⟨.connectingRe, .closing, [okResponse, errorResponse], [request, okResponse]⟩
  | .gone _ => ⟨.connectingRe, .deleted, [okResponse, errorResponse], [request, okResponse]⟩

/-- Which end has been turned away by its manager. -/
def refusedIn (p : ClientPhase) : ServerPhase → Option (CreatorType × EndpointId)
  | .refusing other => some (.server, other)
  | .turnedAway other => some (.server, other)
  | .gone other => some (.server, other)
  | _ =>
    match p with
    | .turnedAway other => other.map (.client, ·)
    | .gone other => other.map (.client, ·)
    | _ => none

theorem refusedIn_server {p : ClientPhase} {q : ServerPhase} {other : EndpointId}
    (h : refusedIn p q = some (.server, other)) :
    q = .refusing other ∨ q = .turnedAway other ∨ q = .gone other := by
  cases q <;> cases p <;> simp_all [refusedIn]

theorem refusedIn_client {p : ClientPhase} {q : ServerPhase} {other : EndpointId}
    (h : refusedIn p q = some (.client, other)) :
    p = .turnedAway (some other) ∨ p = .gone (some other) := by
  cases q <;> cases p <;> simp_all [refusedIn]

/-- The end that the client's manager preferred to it. -/
def ClientPhase.refusal : ClientPhase → Option EndpointId
  | .turnedAway other => other
  | .gone other => other
  | _ => none

/-- The end that the server's manager preferred to it. -/
def ServerPhase.refusal : ServerPhase → Option EndpointId
  | .refusing other => some other
  | .turnedAway other => some other
  | .gone other => some other
  | _ => none

theorem refusedIn_eq (p : ClientPhase) (q : ServerPhase) :
    refusedIn p q = (q.refusal.map (.server, ·)).or (p.refusal.map (.client, ·)) := by
  cases q <;> cases p <;> rfl

/-- A step in which neither manager turns its end away changes nothing here. -/
theorem refusedIn_congr {p p' : ClientPhase} {q q' : ServerPhase} (hp : p.refusal = p'.refusal)
    (hq : q.refusal = q'.refusal) : refusedIn p q = refusedIn p' q' := by
  rw [refusedIn_eq, refusedIn_eq, hp, hq]

section Matches

variable {Node : Type} {site : Node → Site} {conn conn' : Connection Node}
variable {m m' : UniqueWorkerManager EndpointId} {id : EndpointId} {k : Nat}
variable {p : ClientPhase} {q : ServerPhase}

/-- The request of a connection. -/
def Connection.request (site : Node → Site) (conn : Connection Node) : Payload :=
  connectRequest (site (conn.node .client)).logicPort

/-- The ends of a connection are in the given phases. -/
structure Matches (site : Node → Site) (conn : Connection Node) (p : ClientPhase)
    (q : ServerPhase) : Prop where
  client : conn.row .client = p.row (conn.request site)
  server : conn.row .server = q.row (conn.request site)
  refused : conn.refused = refusedIn p q
  clientPeer : (conn.ends .client).logicPeer = (site (conn.node .server)).peer
  serverPeer : q ≠ .start →
    (conn.ends .server).logicPeer = (site (conn.node .client)).logicPeer
  released : q = .released ∨ q = .freed → ∃ other, p = .gone other

theorem new_matches (site : Node → Site) (c s : Node) (port : Nat) :
    Matches site (Connection.new site c s port) .start .start :=
  ⟨rfl, rfl, rfl, rfl, fun h => absurd rfl h, by simp⟩

theorem errorResponse_ne : errorResponse ≠ okResponse := by
  decide

theorem readPayload_okResponse : readPayload okResponse = Status.toNat .ok := by
  decide

theorem readPayload_errorResponse : readPayload errorResponse ≠ Status.toNat .ok := by
  decide

theorem readPayload_request (s : Site) :
    readPayload (connectRequest s.logicPort) = s.logicPort := by
  rw [readPayload, connectRequest, List.take_of_length_le (by simp), storeBytes_eq_encode,
    loadBytes_eq_decode (by simp), BigEndian.decode_encode_of_lt s.logicPort_lt]

/-- What the client has seen is a beginning of what the server has sent. -/
theorem Matches.client_seen (h : Matches site conn p q) :
    (p.row (conn.request site)).seen <+: (q.row (conn.request site)).sent := by
  rw [← h.client, ← h.server]
  exact (conn.out .server).seen_prefix_sent

/-- What the server has seen is a beginning of what the client has sent. -/
theorem Matches.server_seen (h : Matches site conn p q) :
    (q.row (conn.request site)).seen <+: (p.row (conn.request site)).sent := by
  rw [← h.client, ← h.server]
  exact (conn.out .client).seen_prefix_sent

/-! ## Rows after an action -/

theorem row_setEnd (conn : Connection Node) (side : CreatorType) (e : Endpoint) :
    (conn.setEnd side e).row side =
      ⟨e.connState, e.stage, (conn.row side).sent, (conn.row side).seen⟩ := by
  simp [Connection.row, Connection.setEnd]

theorem row_send (conn : Connection Node) (side : CreatorType) (payload : Payload) :
    (conn.send side payload).row side =
      { conn.row side with sent := (conn.row side).sent ++ [payload] } := by
  simp [Connection.row, Connection.send, side.other_ne]

theorem row_receive {side : CreatorType} {payload : Payload} {incoming : Fifo Payload}
    (hpop : (conn.out side.other).pop = some (payload, incoming)) :
    (conn.receive side incoming).row side =
      { conn.row side with seen := (conn.row side).seen ++ [payload] } := by
  simp [Connection.row, Connection.receive, side.other_ne.symm, (Fifo.pop_eq_some hpop).2]

theorem row_refuse (conn : Connection Node) (side : CreatorType) (other : EndpointId) :
    (conn.refuse side other).row side = conn.row side :=
  rfl

/-- An action of one end leaves the row of the other. -/
theorem Connection.Acts.row_other {ok : Bool} (h : Connection.Acts site m id conn ok conn' m') :
    conn'.row id.side.other = conn.row id.side.other := by
  have hne := id.side.other_ne
  have hother : id.side.other.other = id.side := by cases id.side <;> rfl
  cases h <;>
    simp [Connection.row, Connection.setEnd, Connection.send, Connection.receive,
      Connection.refuse, hne, hother, Ne.symm hne]
  case recv hpop => exact (Fifo.pop_eq_some hpop).1

/-- Only the first message of a server changes the logic peer. -/
theorem Connection.Acts.logicPeer (h : Connection.Acts site m id conn true conn' m')
    (hnot : (conn.ends id.side).stage = .recv → (conn.ends id.side).connState ≠ .connecting) :
    (conn'.ends id.side).logicPeer = (conn.ends id.side).logicPeer := by
  cases h with
  | recv hstage hpop =>
    have hstate := hnot hstage
    rw [Connection.setEnd_ends_self]
    unfold Endpoint.handshake
    split <;> first | contradiction | rfl | split_ifs <;> rfl
  | respond hstage =>
    rw [Connection.setEnd_ends_self]
    unfold Endpoint.afterSend
    split <;> first | rfl | split_ifs <;> rfl | split <;> rfl
  | put hstage hfree | refuse hstage htaken =>
    rw [Connection.setEnd_ends_self]
    unfold Endpoint.afterRegister
    split <;> rfl
  | _ => rw [Connection.setEnd_ends_self] <;> rfl

/-! ## Steps of one connection -/

/-- The client takes a step, after which {lit}`refused` is as it should be. -/
theorem Matches.of_client {p' : ClientPhase} (h : Matches site conn p q)
    (hacts : Connection.Acts site m ⟨k, .client⟩ conn true conn' m')
    (hgone : ∀ other, p ≠ .gone other) (hrefused : conn'.refused = refusedIn p' q)
    (hrow : conn'.row .client = p'.row (conn.request site)) : Matches site conn' p' q := by
  obtain ⟨hnode, -, hends⟩ := hacts.frame
  have hrequest : conn'.request site = conn.request site := by
    rw [Connection.request, Connection.request, hnode]
  have hpeer := hacts.logicPeer fun hstage => by
    have hstage' := hstage.symm.trans (congrArg Row.stage h.client)
    rw [show (conn.ends .client).connState = _ from congrArg Row.state h.client]
    cases p <;> cases hstage' <;> simp [ClientPhase.row]
  refine ⟨?_, ?_, hrefused, ?_, ?_, ?_⟩
  · rw [hrequest, hrow]
  · rw [hrequest, ← h.server]
    exact hacts.row_other
  · rw [hpeer, hnode, h.clientPeer]
  · rw [show conn'.ends .server = _ from hends, hnode]
    exact h.serverPeer
  · intro hreleased
    obtain ⟨other, hp⟩ := h.released hreleased
    exact absurd hp (hgone other)

/-- The server takes a step, after which it knows its peer. -/
theorem Matches.of_server {q' : ServerPhase} (h : Matches site conn p q)
    (hnode : conn'.node = conn.node) (hends : conn'.ends .client = conn.ends .client)
    (hclient : conn'.row .client = conn.row .client)
    (hrow : conn'.row .server = q'.row (conn.request site))
    (hrefused : conn'.refused = refusedIn p q')
    (hpeer : (conn'.ends .server).logicPeer = (site (conn.node .client)).logicPeer)
    (hreleased : q' = .released ∨ q' = .freed → ∃ other, p = .gone other) :
    Matches site conn' p q' := by
  have hrequest : conn'.request site = conn.request site := by
    rw [Connection.request, Connection.request, hnode]
  refine ⟨?_, ?_, hrefused, ?_, ?_, hreleased⟩
  · rw [hrequest, hclient, h.client]
  · rw [hrequest, hrow]
  · rw [hends, hnode]
    exact h.clientPeer
  · intro _
    rw [hpeer, hnode]

/-- Behind its first message a server keeps its peer. -/
theorem Matches.server_peer (h : Matches site conn p q)
    (hacts : Connection.Acts site m ⟨k, .server⟩ conn true conn' m') (hstart : q ≠ .start) :
    (conn'.ends .server).logicPeer = (site (conn.node .client)).logicPeer := by
  refine (hacts.logicPeer fun hstage => ?_).trans (h.serverPeer hstart)
  have hstage' := hstage.symm.trans (congrArg Row.stage h.server)
  rw [show (conn.ends .server).connState = _ from congrArg Row.state h.server]
  cases q <;> cases hstage' <;> simp_all [ServerPhase.row]

theorem ServerPhase.first_response {request payload : Payload}
    (hbegins : [payload] <+: (q.row request).sent) : payload = okResponse := by
  cases q <;> simp_all [ServerPhase.row]

theorem ServerPhase.last_response {request payload : Payload}
    (hbegins : [okResponse, payload] <+: (q.row request).sent) :
    payload = okResponse ∨ payload = errorResponse := by
  cases q <;> simp_all [ServerPhase.row]

-- what an action does to the row of its end
attribute [local simp] row_setEnd row_send row_refuse ClientPhase.row ServerPhase.row
  Endpoint.handshake Endpoint.afterSend Endpoint.afterRegister Endpoint.complete
  readPayload_okResponse readPayload_errorResponse lastResponse

/-- An action of the client. -/
theorem Matches.act_client (h : Matches site conn p q)
    (hacts : Connection.Acts site m ⟨k, .client⟩ conn true conn' m') :
    ∃ p', Matches site conn' p' q := by
  have hrow := h.client
  have hstate : (conn.ends .client).connState = (p.row (conn.request site)).state :=
    congrArg Row.state hrow
  have hstage' := congrArg Row.stage hrow
  have hseen := h.client_seen
  -- the manager turns nobody away
  have hmoves : ∀ p' : ClientPhase, (∀ other, p ≠ .gone other) → p.refusal = p'.refusal →
      conn'.refused = conn.refused → conn'.row .client = p'.row (conn.request site) →
      ∃ p', Matches site conn' p' q := fun p' hgone hsame hkept hrow' =>
    ⟨p', h.of_client hacts hgone (hkept.trans (h.refused.trans (refusedIn_congr hsame rfl))) hrow'⟩
  cases hacts with
  | sendRequest hstage =>
    cases p <;> cases hstage.symm.trans hstage'
    refine hmoves .requested (by simp) rfl rfl ?_
    simp [hrow, Connection.request]
  | @recv payload incoming hstage hpop =>
    have hbegins : (conn.row .client).seen ++ [payload] <+: (conn.row .server).sent :=
      Fifo.snoc_prefix_of_pop hpop
    rw [hrow, h.server] at hbegins
    cases p <;> cases hstage.symm.trans hstage'
    case recv.requested.refl =>
      obtain rfl := ServerPhase.first_response hbegins
      refine hmoves .answered (by simp) rfl rfl ?_
      simp [row_receive hpop, hrow, hstate]
    case recv.waiting.refl =>
      rcases ServerPhase.last_response hbegins with rfl | rfl
      · refine hmoves .acknowledged (by simp) rfl rfl ?_
        simp [row_receive hpop, hrow, hstate]
      · refine hmoves (.turnedAway none) (by simp) rfl rfl ?_
        simp [row_receive hpop, hrow, hstate]
  | eof hstage hpop hclosed =>
    -- a server that is deleted has sent two responses, and a client that waits has seen fewer
    have hall : (conn.row .client).seen = (conn.row .server).sent := Fifo.pop_eq_none hpop
    have hdeleted := hclosed.symm.trans (congrArg Row.stage h.server)
    rw [hrow, h.server] at hall
    cases p <;> cases hstage.symm.trans hstage' <;> cases q <;> cases hdeleted <;> cases hall
  | respond hstage =>
    cases p <;> cases hstage.symm.trans hstage'
    refine hmoves .waiting (by simp) rfl rfl ?_
    simp [hrow, hstate, okResponse]
  | put hstage hfree =>
    cases p <;> cases hstage.symm.trans hstage'
    refine hmoves .registered (by simp) rfl rfl ?_
    simp [hrow, hstate]
  | @refuse other hstage htaken =>
    cases p <;> cases hstage.symm.trans hstage'
    refine ⟨.turnedAway (some other), h.of_client (.refuse hstage htaken) (by simp) ?_ ?_⟩
    · -- the server has consented in both of its responses
      cases q <;> first
        | rfl
        | simp [errorResponse_ne.symm] at hseen
    · simp [hrow, hstate]
  | setNonBlocking hstage =>
    cases p <;> cases hstage.symm.trans hstage'
    exact hmoves .live (by simp) rfl rfl (by simp [hrow, hstate])
  | delete hstage =>
    cases p <;> cases hstage.symm.trans hstage'
    case delete.turnedAway.refl other =>
      exact hmoves (.gone other) (by simp) rfl rfl (by simp [hrow, hstate])

theorem ClientPhase.first_message {request payload : Payload}
    (hbegins : [payload] <+: (p.row request).sent) : payload = request := by
  cases p <;> simp_all [ClientPhase.row]

theorem ClientPhase.second_message {request payload : Payload}
    (hbegins : [request, payload] <+: (p.row request).sent) : payload = okResponse := by
  cases p <;> simp_all [ClientPhase.row]

/-- The first message of a server tells it the port that its peer is known by. -/
theorem Matches.recv_request {incoming : Fifo Payload} (h : Matches site conn p .start)
    (hpop : (conn.out CreatorType.server.other).pop = some (conn.request site, incoming)) :
    Matches site ((conn.receive .server incoming).setEnd .server
      ((conn.ends .server).handshake (conn.realPeer site .server).nat.addr (conn.request site)))
      p .requested := by
  have hrow := h.server
  have hstate : (conn.ends .server).connState = .connecting := congrArg Row.state hrow
  have hacts : Connection.Acts site .new ⟨0, .server⟩ conn true _ .new :=
    .recv (congrArg Row.stage hrow) hpop
  obtain ⟨hnode, -, hends⟩ := hacts.frame
  have hlen : (conn.request site).length = 2 := length_storeBytes 2 _
  have hport := readPayload_request (site (conn.node .client))
  refine h.of_server hnode hends hacts.row_other ?_ (h.refused.trans (refusedIn_congr rfl rfl)) ?_
    (by simp)
  · simp [row_receive hpop, hrow, hstate, hlen]
  · simp only [Connection.setEnd_ends_self, Endpoint.handshake, hstate, hlen]
    exact congrArg (fun port => NetPeerInfo.mk ⟨_, port⟩ .tcp) hport

/-- An action of the server. -/
theorem Matches.act_server (h : Matches site conn p q)
    (hacts : Connection.Acts site m ⟨k, .server⟩ conn true conn' m') :
    ∃ q', Matches site conn' p q' := by
  have hrow := h.server
  have hstate : (conn.ends .server).connState = (q.row (conn.request site)).state :=
    congrArg Row.state hrow
  have hstage' := congrArg Row.stage hrow
  have hpeer := h.server_peer hacts
  obtain ⟨hnode, -, hends⟩ := hacts.frame
  have hother := hacts.row_other
  -- the manager turns nobody away, and the peer is known already
  have hmoves : ∀ q' : ServerPhase, q ≠ .start → (q' = .released ∨ q' = .freed → q = .released) →
      q.refusal = q'.refusal → conn'.refused = conn.refused →
      conn'.row .server = q'.row (conn.request site) → ∃ q', Matches site conn' p q' := by
    intro q' hstart hreleased hsame hkept hrow'
    exact ⟨q', h.of_server hnode hends hother hrow'
      (hkept.trans (h.refused.trans (refusedIn_congr rfl hsame))) (hpeer hstart)
      fun hq => h.released (.inl (hreleased hq))⟩
  cases hacts with
  | sendRequest hstage => cases q <;> cases hstage.symm.trans hstage'
  | @recv payload incoming hstage hpop =>
    have hbegins : (conn.row .server).seen ++ [payload] <+: (conn.row .client).sent :=
      Fifo.snoc_prefix_of_pop hpop
    rw [hrow, h.client] at hbegins
    cases q <;> cases hstage.symm.trans hstage'
    case recv.start.refl =>
      obtain rfl := ClientPhase.first_message hbegins
      exact ⟨.requested, h.recv_request hpop⟩
    case recv.waiting.refl =>
      obtain rfl := ClientPhase.second_message hbegins
      refine hmoves .confirmed (by simp) (by simp) rfl rfl ?_
      simp [row_receive hpop, hrow, hstate]
  | eof hstage hpop hclosed =>
    -- a client that is deleted has sent two messages, and a server that waits has seen fewer
    have hall : (conn.row .server).seen = (conn.row .client).sent := Fifo.pop_eq_none hpop
    have hdeleted := hclosed.symm.trans (congrArg Row.stage h.client)
    rw [hrow, h.client] at hall
    cases q <;> cases hstage.symm.trans hstage' <;> cases p <;> cases hdeleted <;> cases hall
  | respond hstage =>
    cases q <;> cases hstage.symm.trans hstage'
    case respond.requested.refl =>
      refine hmoves .waiting (by simp) (by simp) rfl rfl ?_
      simp [hrow, hstate, okResponse]
    case respond.accepting.refl =>
      refine hmoves .registered (by simp) (by simp) rfl rfl ?_
      simp [hrow, hstate, okResponse]
    case respond.refusing.refl other =>
      refine hmoves (.turnedAway other) (by simp) (by simp) rfl rfl ?_
      simp [hrow, hstate, errorResponse]
  | put hstage hfree =>
    cases q <;> cases hstage.symm.trans hstage'
    refine hmoves .accepting (by simp) (by simp) rfl rfl ?_
    simp [hrow, hstate]
  | @refuse other hstage htaken =>
    cases q <;> cases hstage.symm.trans hstage'
    refine ⟨.refusing other, h.of_server hnode hends hother ?_ rfl (hpeer (by simp)) (by simp)⟩
    simp [hrow, hstate]
  | setNonBlocking hstage =>
    cases q <;> cases hstage.symm.trans hstage'
    refine hmoves .live (by simp) (by simp) rfl rfl ?_
    simp [hrow, hstate]
  | delete hstage =>
    cases q <;> cases hstage.symm.trans hstage'
    case delete.released.refl =>
      refine hmoves .freed (by simp) (by simp) rfl rfl ?_
      simp [hrow, hstate]
    case delete.turnedAway.refl other =>
      refine hmoves (.gone other) (by simp) (by simp) rfl rfl ?_
      simp [hrow, hstate]

/-- An action of either end. -/
theorem Matches.act (h : Matches site conn p q)
    (hacts : Connection.Acts site m id conn true conn' m') :
    ∃ p' q', Matches site conn' p' q' := by
  obtain ⟨k, side⟩ := id
  cases side with
  | client =>
    obtain ⟨p', h'⟩ := h.act_client hacts
    exact ⟨p', q, h'⟩
  | server =>
    obtain ⟨q', h'⟩ := h.act_server hacts
    exact ⟨p, q', h'⟩

/-- A live end whose peer is deleted is a server, and its client was turned away by its own
manager. -/
theorem Matches.live_closed (h : Matches site conn p q)
    (hlive : (conn.ends id.side).stage = .live)
    (hclosed : (conn.ends id.side.other).stage = .deleted) :
    id.side = .server ∧ q = .live ∧ ∃ other, p = .gone (some other) := by
  obtain ⟨k, side⟩ := id
  have hseen := h.client_seen
  cases side with
  | client =>
    have hp := hlive.symm.trans (congrArg Row.stage h.client)
    have hq := hclosed.symm.trans (congrArg Row.stage h.server)
    cases p <;> cases hp
    cases q <;> cases hq
    case live.refl.freed.refl =>
      obtain ⟨other, hgone⟩ := h.released (.inr rfl)
      cases hgone
    case live.refl.gone.refl other =>
      simp [ClientPhase.row, ServerPhase.row, errorResponse_ne.symm] at hseen
  | server =>
    have hp := hclosed.symm.trans (congrArg Row.stage h.client)
    have hq := hlive.symm.trans (congrArg Row.stage h.server)
    cases p <;> cases hp
    cases q <;> cases hq
    case gone.refl.live.refl other =>
      cases other with
      | none => simp [ClientPhase.row, ServerPhase.row, lastResponse, errorResponse_ne] at hseen
      | some other => exact ⟨rfl, rfl, other, rfl⟩

/-- `on_finish` after the peer has closed. -/
theorem Matches.finish (h : Matches site conn p q) (hlive : (conn.ends id.side).stage = .live)
    (hclosed : (conn.ends id.side.other).stage = .deleted)
    (hremoved : (m.removeWorkerEventHandler (conn.ends id.side).logicPeer
      (conn.realPeer site id.side)).1.isSome) :
    Matches site (conn.finish site m id).1 p .released := by
  obtain ⟨hside, rfl, other, rfl⟩ := h.live_closed hlive hclosed
  obtain ⟨k, side⟩ := id
  simp only at hside
  subst hside
  have hstate : (conn.ends .server).connState = .connected := congrArg Row.state h.server
  refine h.of_server rfl rfl ?_ ?_ ?_ ?_ fun _ => ⟨some other, rfl⟩
  · simp [Connection.row, Connection.finish, Connection.setEnd]
  · simp [Connection.finish, row_setEnd, h.server, ServerPhase.row, hstate, hremoved]
  · exact h.refused
  · simpa [Connection.finish] using h.serverPeer (by simp)

/-! ## Registered ends -/

def ClientPhase.isRegistered : ClientPhase → Bool
  | .registered => true
  | .live => true
  | _ => false

def ServerPhase.isRegistered : ServerPhase → Bool
  | .accepting => true
  | .registered => true
  | .live => true
  | _ => false

theorem Matches.client_registered (h : Matches site conn p q) :
    (conn.ends .client).registered = p.isRegistered := by
  have hstate : (conn.ends .client).connState = _ := congrArg Row.state h.client
  have hstage : (conn.ends .client).stage = _ := congrArg Row.stage h.client
  cases p <;> simp [Endpoint.registered, hstate, hstage, ClientPhase.row, ClientPhase.isRegistered]

theorem Matches.server_registered (h : Matches site conn p q) :
    (conn.ends .server).registered = q.isRegistered := by
  have hstate : (conn.ends .server).connState = _ := congrArg Row.state h.server
  have hstage : (conn.ends .server).stage = _ := congrArg Row.stage h.server
  cases q <;> simp [Endpoint.registered, hstate, hstage, ServerPhase.row, ServerPhase.isRegistered]

end Matches

/-! ## Networks without failures -/

/-- No call fails in the step. -/
def NetLabel.Reliable {Node : Type} : NetLabel Node → Prop
  | .connect _ _ => True
  | .establish _ _ ok => ok = true
  | .act _ ok => ok = true
  | .finish _ closed => closed = true

instance {Node : Type} (l : NetLabel Node) : Decidable l.Reliable :=
  match l with
  | .connect _ _ => inferInstanceAs (Decidable True)
  | .establish _ _ ok => inferInstanceAs (Decidable (ok = true))
  | .act _ ok => inferInstanceAs (Decidable (ok = true))
  | .finish _ closed => inferInstanceAs (Decidable (closed = true))

section Lossless

variable {Node : Type} {site : Node → Site} {n n' : Network Node} {l : NetLabel Node}
variable {id : EndpointId} {conn conn' : Connection Node}
variable {m' : UniqueWorkerManager EndpointId}

/-- The invariant of networks without failures: phases, tables, and real peers that tell the
registered connections of a node apart. -/
structure Lossless (site : Node → Site) (n : Network Node) : Prop where
  entries : EntryInv n
  phases : ∀ (k : Nat) (conn : Connection Node), n.conns[k]? = some conn →
    ∃ p q, Matches site conn p q
  listening : ∀ (k : Nat) (conn : Connection Node), n.conns[k]? = some conn →
    ∀ x, (site x).addr = (site (conn.node .client)).addr → (site x).port ≠ conn.port
  ports : ∀ (j k : Nat) (conn conn' : Connection Node), n.conns[j]? = some conn →
    n.conns[k]? = some conn' → j ≠ k →
    (site (conn.node .client)).addr = (site (conn'.node .client)).addr →
    conn.node .server = conn'.node .server → conn.port = conn'.port →
    (conn.ends .server).stage = .deleted ∨ (conn'.ends .server).stage = .deleted
  reals : ∀ (id : EndpointId) (conn : Connection Node), n.conns[id.conn]? = some conn →
    (conn.ends id.side).registered = true →
    conn.realPeer site id.side ∈ (n.managers (conn.node id.side)).rpLp

theorem start_lossless : Lossless site (Network.start : Network Node) := by
  refine ⟨start_entryInv, ?_, ?_, ?_, ?_⟩ <;> simp [Network.start]

theorem Lossless.congr (h : Lossless site n) (hconns : n'.conns = n.conns)
    (hmanagers : n'.managers = n.managers) : Lossless site n' := by
  refine ⟨h.entries.congr (Network.view_congr hconns) hmanagers, ?_, ?_, ?_, ?_⟩
  · rw [hconns]
    exact h.phases
  · rw [hconns]
    exact h.listening
  · rw [hconns]
    exact h.ports
  · rw [hconns, hmanagers]
    exact h.reals

/-- A new connection is in the first phases, and its port tells it from the others. -/
theorem Lossless.append [Fintype Node] {c s : Node} {port : Nat} (h : Lossless site n)
    (hfree : n.PortFree site c s port)
    (hconns : n'.conns = n.conns ++ [Connection.new site c s port])
    (hmanagers : n'.managers = n.managers) : Lossless site n' := by
  have hbusy : ∀ (k : Nat) (conn : Connection Node), n.conns[k]? = some conn →
      (site (conn.node .client)).addr = (site c).addr → conn.node .server = s →
      conn.port = port → (conn.ends .server).stage = .deleted := by
    intro k conn hconn haddr hserver hport
    exact (hfree.2 conn (List.mem_of_getElem? hconn) haddr hserver hport).2
  refine ⟨h.entries.append hconns hmanagers, ?_, ?_, ?_, ?_⟩
  · intro k conn hconn
    rcases Network.conns_append hconns hconn with hold | ⟨-, rfl⟩
    · exact h.phases k conn hold
    · exact ⟨_, _, new_matches site c s port⟩
  · intro k conn hconn
    rcases Network.conns_append hconns hconn with hold | ⟨-, rfl⟩
    · exact h.listening k conn hold
    · exact hfree.1
  · intro j k conn conn' hconn hconn' hjk haddr hserver hport
    rcases Network.conns_append hconns hconn with hold | ⟨hj, rfl⟩
    · rcases Network.conns_append hconns hconn' with hold' | ⟨-, rfl⟩
      · exact h.ports j k conn conn' hold hold' hjk haddr hserver hport
      · exact .inl (hbusy j conn hold haddr hserver hport)
    · rcases Network.conns_append hconns hconn' with hold' | ⟨hk, -⟩
      · exact .inr (hbusy k conn' hold' haddr.symm hserver.symm hport.symm)
      · exact absurd (hj.trans hk.symm) hjk
  · intro id conn hconn hreg
    rw [hmanagers]
    rcases Network.conns_append hconns hconn with hold | ⟨-, rfl⟩
    · exact h.reals id conn hold hreg
    · cases hside : id.side <;>
        simp [Connection.new, Endpoint.registered, hside] at hreg

/-- The real peer of a registered client is the key under which it is found, the one of a
registered server is the address its client is bound to; neither is shared. -/
theorem Lossless.realPeer_inj (h : Lossless site n) {id' : EndpointId}
    (hconn : n.conns[id.conn]? = some conn) (hconn' : n.conns[id'.conn]? = some conn')
    (hreg : (conn.ends id.side).registered = true)
    (hreg' : (conn'.ends id'.side).registered = true)
    (hnode : conn'.node id'.side = conn.node id.side)
    (hreal : conn'.realPeer site id'.side = conn.realPeer site id.side) : id' = id := by
  obtain ⟨p, q, hmatches⟩ := h.phases _ _ hconn
  obtain ⟨p', q', hmatches'⟩ := h.phases _ _ hconn'
  have hfound := h.entries.entered _ _ _ (Network.view_eq hconn) hreg
  have hfound' := h.entries.entered _ _ _ (Network.view_eq hconn') hreg'
  obtain ⟨k, side⟩ := id
  obtain ⟨j, side'⟩ := id'
  simp only at *
  cases side <;> cases side'
  case client.client =>
    simp only [Connection.realPeer] at hreal
    rw [hmatches'.clientPeer, hreal, hnode, ← hmatches.clientPeer, hfound] at hfound'
    exact (Option.some.inj hfound').symm
  case client.server =>
    simp only [Connection.realPeer, Site.peer, NetPeerInfo.mk.injEq, NetAddr.mk.injEq] at hreal
    exact absurd hreal.1.2.symm (h.listening j conn' hconn' _ hreal.1.1.symm)
  case server.client =>
    simp only [Connection.realPeer, Site.peer, NetPeerInfo.mk.injEq, NetAddr.mk.injEq] at hreal
    exact absurd hreal.1.2 (h.listening k conn hconn _ hreal.1.1)
  case server.server =>
    simp only [Connection.realPeer, NetPeerInfo.mk.injEq, NetAddr.mk.injEq] at hreal
    by_contra hne
    have hjk : j ≠ k := fun hjk => hne (by rw [hjk])
    rcases h.ports j k conn' conn hconn' hconn hjk hreal.1.1 hnode hreal.1.2 with hdel | hdel
    · simp [Endpoint.registered, hdel] at hreg'
    · simp [Endpoint.registered, hdel] at hreg

/-- An end that is found is registered. -/
theorem Lossless.found (h : Lossless site n) {x : Node} {key : NetPeerInfo}
    (hlookup : (n.managers x).lookupWorker key = some id) :
    ∃ conn, n.conns[id.conn]? = some conn ∧ conn.node id.side = x ∧
      (conn.ends id.side).logicPeer = key ∧ (conn.ends id.side).registered = true := by
  obtain ⟨e, hview, hkey, hregistered⟩ := h.entries.kept _ _ _ hlookup
  obtain ⟨conn, hconn, hpair⟩ := Option.map_eq_some_iff.1 hview
  simp only [Prod.mk.injEq] at hpair
  obtain ⟨hnode, rfl⟩ := hpair
  refine ⟨conn, hconn, hnode, hkey, hregistered.resolve_right ?_⟩
  intro hfinished
  obtain ⟨p, q, hmatches⟩ := h.phases _ _ hconn
  cases hside : id.side with
  | client =>
    have hrow := (hside ▸ hfinished).symm.trans (congrArg Row.stage hmatches.client)
    cases p <;> cases hrow
  | server =>
    have hrow := (hside ▸ hfinished).symm.trans (congrArg Row.stage hmatches.server)
    cases q <;> cases hrow

/-- An action registers an end only together with its real peer. -/
theorem Connection.Acts.registered {m : UniqueWorkerManager EndpointId} {ok : Bool}
    (hvalid : (conn.ends id.side).Valid) (h : Connection.Acts site m id conn ok conn' m')
    (hreg : (conn'.ends id.side).registered = true) :
    (conn.ends id.side).registered = true ∨ conn.realPeer site id.side ∈ m'.rpLp := by
  cases h with
  | sendRequest | delete => simp [Endpoint.registered] at hreg
  | recv hstage hpop =>
    rw [Connection.setEnd_ends_self, (Endpoint.handshake_valid _ _ hvalid hstage).2] at hreg
    cases hreg
  | eof hstage hpop hclosed => simp [Endpoint.registered, Endpoint.close] at hreg
  | respond hstage =>
    rw [Connection.setEnd_ends_self, (Endpoint.afterSend_valid hvalid hstage).2.1] at hreg
    exact .inl hreg
  | put hstage hfree => exact .inr ((UniqueWorkerManager.mem_rpLp_put hfree _).2 (.inl rfl))
  | refuse hstage htaken =>
    rw [Connection.setEnd_ends_self, (Endpoint.afterRegister_valid hvalid hstage false).2.1]
      at hreg
    cases hreg
  | setNonBlocking hstage => exact .inl (by simp [Endpoint.registered, hstage])
  | fail hfailed =>
    rw [Connection.setEnd_ends_self, (Endpoint.failed_valid hvalid hfailed).2.1] at hreg
    cases hreg

theorem Connection.Acts.rpLp_mono {m : UniqueWorkerManager EndpointId} {ok : Bool}
    (h : Connection.Acts site m id conn ok conn' m') {real : NetPeerInfo} (hreal : real ∈ m.rpLp) :
    real ∈ m'.rpLp := by
  cases h with
  | put hstage hfree => exact (UniqueWorkerManager.mem_rpLp_put hfree _).2 (.inr hreal)
  | _ => exact hreal

/-- A deleted end stays deleted. -/
theorem Connection.Acts.deleted {m : UniqueWorkerManager EndpointId} {ok : Bool}
    (h : Connection.Acts site m id conn ok conn' m') (side : CreatorType)
    (hdeleted : (conn.ends side).stage = .deleted) : (conn'.ends side).stage = .deleted := by
  by_cases hside : side = id.side
  · subst hside
    cases h <;> simp_all [Endpoint.failed]
  · obtain rfl := CreatorType.eq_other_of_ne hside
    rw [h.frame.2.2]
    exact hdeleted

variable [DecidableEq Node]

/-- A step of one end keeps the invariant if the end stays in its phases and real peers are
kept. -/
theorem Lossless.of_replace {r : Connection Node × UniqueWorkerManager EndpointId} {node : Node}
    (h : Lossless site n) (hconn : n.conns[id.conn]? = some conn)
    (hnode : r.1.node = conn.node) (hport : r.1.port = conn.port)
    (hdeleted : ∀ side, (conn.ends side).stage = .deleted → (r.1.ends side).stage = .deleted)
    (hentries : EntryInv (n.replace id.conn node r)) (hphases : ∃ p q, Matches site r.1 p q)
    (hreals : ∀ (id' : EndpointId) (c : Connection Node),
      (n.replace id.conn node r).conns[id'.conn]? = some c →
      (c.ends id'.side).registered = true →
      c.realPeer site id'.side ∈ ((n.replace id.conn node r).managers (c.node id'.side)).rpLp) :
    Lossless site (n.replace id.conn node r) := by
  have hold : ∀ (k : Nat) (c : Connection Node), (n.replace id.conn node r).conns[k]? = some c →
      ∃ c₀, n.conns[k]? = some c₀ ∧ c.node = c₀.node ∧ c.port = c₀.port ∧
        ∀ side, (c₀.ends side).stage = .deleted → (c.ends side).stage = .deleted := by
    intro k c hc
    rw [replace_conns hconn] at hc
    split_ifs at hc with hk
    · cases hc
      exact ⟨conn, by rw [hk, hconn], hnode, hport, hdeleted⟩
    · exact ⟨c, hc, rfl, rfl, fun _ hdel => hdel⟩
  refine ⟨hentries, ?_, ?_, ?_, hreals⟩
  · intro k c hc
    rw [replace_conns hconn] at hc
    split_ifs at hc
    · cases hc
      exact hphases
    · exact h.phases k c hc
  · intro k c hc x
    obtain ⟨c₀, hc₀, hcnode, hcport, -⟩ := hold k c hc
    rw [hcnode, hcport]
    exact h.listening k c₀ hc₀ x
  · intro j k c c' hc hc' hjk haddr hserver hsame
    obtain ⟨c₀, hc₀, hcnode, hcport, hcdel⟩ := hold j c hc
    obtain ⟨c₀', hc₀', hcnode', hcport', hcdel'⟩ := hold k c' hc'
    rw [hcnode, hcnode'] at haddr hserver
    rw [hcport, hcport'] at hsame
    exact (h.ports j k c₀ c₀' hc₀ hc₀' hjk haddr hserver hsame).imp (hcdel _) (hcdel' _)

/-- An end other than the one that takes a step is as before. -/
theorem replace_other (site : Node → Site) {r : Connection Node × UniqueWorkerManager EndpointId}
    {node : Node} {id' : EndpointId} {c : Connection Node} (hconn : n.conns[id.conn]? = some conn)
    (hnode : r.1.node = conn.node) (hport : r.1.port = conn.port)
    (hends : r.1.ends id.side.other = conn.ends id.side.other) (hid : id' ≠ id)
    (hc : (n.replace id.conn node r).conns[id'.conn]? = some c) :
    ∃ c₀, n.conns[id'.conn]? = some c₀ ∧ c.node = c₀.node ∧ c.ends id'.side = c₀.ends id'.side ∧
      c.realPeer site id'.side = c₀.realPeer site id'.side := by
  rw [replace_conns hconn] at hc
  split_ifs at hc with hk
  · cases hc
    have hside : id'.side ≠ id.side := by
      intro hside
      obtain ⟨k, side⟩ := id
      obtain ⟨j, side'⟩ := id'
      exact hid (by rw [EndpointId.mk.injEq]; exact ⟨hk, hside⟩)
    rw [CreatorType.eq_other_of_ne hside]
    refine ⟨conn, by rw [hk, hconn], hnode, hends, ?_⟩
    cases id.side <;> simp [Connection.realPeer, CreatorType.other, hnode, hport]
  · exact ⟨c, hc, rfl, rfl, rfl⟩

theorem act_lossless (h : Lossless site n) (hconn : n.conns[id.conn]? = some conn)
    (hacts : Connection.Acts site (n.managers (conn.node id.side)) id conn true conn' m') :
    Lossless site (n.replace id.conn (conn.node id.side) (conn', m')) := by
  obtain ⟨hnode, hport, hends⟩ := hacts.frame
  obtain ⟨p, q, hmatches⟩ := h.phases id.conn conn hconn
  have hgrows : ∀ x real, real ∈ (n.managers x).rpLp →
      real ∈ ((n.replace id.conn (conn.node id.side) (conn', m')).managers x).rpLp := by
    intro x real hreal
    rw [replace_managers]
    split_ifs with hx
    · subst hx
      exact hacts.rpLp_mono hreal
    · exact hreal
  have hguard : NoLateFailure n (.act id true) := trivial
  refine h.of_replace hconn hnode hport hacts.deleted (act_entryInv h.entries hguard hconn hacts)
    (hmatches.act hacts) ?_
  intro id' c hc hreg
  by_cases hid : id' = id
  · subst hid
    rw [replace_conns hconn, if_pos rfl] at hc
    cases hc
    have hsame : conn'.realPeer site id'.side = conn.realPeer site id'.side := by
      cases id'.side <;> simp [Connection.realPeer, hnode, hport]
    have hvalid := h.entries.valid _ _ _ (Network.view_eq hconn)
    rw [hsame, hnode]
    rcases hacts.registered hvalid hreg with hbefore | hnow
    · exact hgrows _ _ (h.reals id' conn hconn hbefore)
    · rw [replace_managers, if_pos rfl]
      exact hnow
  · obtain ⟨c₀, hc₀, hcnode, hcends, hreal⟩ :=
      replace_other site hconn hnode hport hends hid hc
    rw [hreal, hcnode]
    exact hgrows _ _ (h.reals id' c₀ hc₀ (hcends ▸ hreg))

theorem finish_lossless (h : Lossless site n) (hconn : n.conns[id.conn]? = some conn)
    (hlive : (conn.ends id.side).stage = .live)
    (hclosed : (conn.ends id.side.other).stage = .deleted) :
    Lossless site (n.replace id.conn (conn.node id.side)
      (conn.finish site (n.managers (conn.node id.side)) id)) := by
  obtain ⟨p, q, hmatches⟩ := h.phases id.conn conn hconn
  have hreg : (conn.ends id.side).registered = true := by simp [Endpoint.registered, hlive]
  have hfound := h.entries.entered _ _ _ (Network.view_eq hconn) hreg
  have hremoved := UniqueWorkerManager.remove_fst (conn.ends id.side).logicPeer
    (h.reals id conn hconn hreg)
  rw [hfound] at hremoved
  refine h.of_replace hconn rfl rfl ?_ (finish_entryInv h.entries hconn hlive)
    ⟨p, _, hmatches.finish hlive hclosed (by simp [hremoved])⟩ ?_
  · intro side hdeleted
    have hside : side ≠ id.side := by
      rintro rfl
      rw [hlive] at hdeleted
      cases hdeleted
    exact (congrArg Endpoint.stage (Function.update_of_ne hside _ _)).trans hdeleted
  · intro id' c hc hreg'
    by_cases hid : id' = id
    · subst hid
      rw [replace_conns hconn, if_pos rfl] at hc
      cases hc
      simp [Connection.finish, Endpoint.registered, hremoved] at hreg'
    · obtain ⟨c₀, hc₀, hcnode, hcends, hreal⟩ := replace_other site hconn rfl rfl
        (Function.update_of_ne id.side.other_ne _ _) hid hc
      rw [hcends] at hreg'
      have hmem := h.reals id' c₀ hc₀ hreg'
      rw [hreal, hcnode, replace_managers]
      split_ifs with hx
      · rw [hx] at hmem
        refine (UniqueWorkerManager.mem_rpLp_remove _).2 ⟨?_, hmem⟩
        intro hsame
        exact hid (h.realPeer_inj hconn hc₀ hreg hreg' hx hsame)
      · exact hmem

variable [Fintype Node]

/-- Every step without a failure keeps the invariant. -/
theorem netStep_lossless (h : Lossless site n) (hreliable : l.Reliable)
    (hstep : netStep site n l = some n') : Lossless site n' := by
  cases l with
  | connect c s =>
    obtain ⟨hconns, hmanagers, -⟩ := netStep_connect hstep
    exact h.congr hconns hmanagers
  | establish k port ok =>
    obtain ⟨c, s, -, hmanagers, -, -, ⟨-, hconns⟩ | ⟨-, hfree, hconns⟩⟩ :=
      netStep_establish hstep
    · exact h.congr hconns hmanagers
    · exact h.append hfree hconns hmanagers
  | act id ok =>
    obtain ⟨conn, conn', m', hconn, hacts, rfl⟩ := netStep_act hstep
    obtain rfl : ok = true := hreliable
    exact act_lossless h hconn hacts
  | finish id closed =>
    obtain ⟨conn, hconn, hlive, hclosed, rfl⟩ := netStep_finish hstep
    exact finish_lossless h hconn hlive (hclosed hreliable).2

end Lossless
end Net
end CCraft
