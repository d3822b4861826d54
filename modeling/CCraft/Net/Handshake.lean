import CCraft.Lib.Fifo
import CCraft.Lib.Run
import CCraft.Net.Manager
import CCraft.Net.Worker
import Mathlib.Data.Fintype.Basic

/-!
# The connection handshake

Before a connection carries messages its two ends exchange three of their own over a
blocking socket.  The client sends its logic port, the server answers, the client confirms,
and the server registers the connection and says whether it did; then the client registers
it as well.  An end that gets through makes its socket non-blocking and hands it to the
event manager; every other end is deleted, which closes its socket.  A connection whose peer
has closed is unregistered by `on_finish`.

The network is a set of nodes, each with a manager of its connections, and the connections
with a FIFO channel in each direction.  A read returns a whole frame, so the channels carry
the payloads of frames.  A step is one action of one end: a frame sent, a frame received and
handled, a call of the manager, `SetNonBlocking`, or the deletion.  The label of a step says
whether the call behind it succeeds; a failing read or write, a full queue, a stopped
service and a failing `SetNonBlocking` are all labels that say no.

Main results:

- Theorem {lit}`Connection.acts_of_act`: what one action of an end can do.
- Theorem {lit}`view_replace`: a step of an end leaves all other ends as they are.
-/

namespace CCraft
namespace Net

open Common

/-! ## Handshake messages -/

/-- `PosixTcpNetStackWorker::CreatorType`, the two ends of a connection. -/
inductive CreatorType where
  | client
  | server
deriving DecidableEq, Repr

def CreatorType.other : CreatorType → CreatorType
  | .client => .server
  | .server => .client

theorem CreatorType.other_ne (ct : CreatorType) : ct.other ≠ ct := by
  cases ct <;> decide

theorem CreatorType.eq_other_of_ne {ct ct' : CreatorType} (h : ct' ≠ ct) : ct' = ct.other := by
  cases ct <;> cases ct' <;> first | rfl | exact absurd rfl h

/-- `ConnectResponseMessage::Status`. -/
inductive Status where
  | ok
  | error
deriving DecidableEq, Repr

def Status.toNat : Status → Nat
  | .ok => 0
  | .error => 1

/-- The payload of a frame. -/
abbrev Payload := List UInt8

/-- The payload of `ConnectRequestMessage`. -/
def connectRequest (logicPort : Nat) : Payload :=
  storeBytes 2 logicPort

/-- The payload of `ConnectResponseMessage`. -/
def connectResponse (stat : Status) (what : Payload) : Payload :=
  storeBytes 2 stat.toNat ++ what

/-- `ByteOrderUtils::ReadUInt16` at the beginning of a payload. -/
def readPayload (payload : Payload) : Nat :=
  loadBytes 2 (payload.take 2)

/-! ## One end -/

/-- What an end does next: send its request, wait for a frame, send a response, register,
make its socket non-blocking, run under the event manager, be deleted; or it has been
deleted, or has been finished without being released. -/
inductive Stage where
  | sendRequest
  | recv
  | respond (stat : Status) (what : Payload)
  | register
  | setNonBlocking
  | live
  | closing
  | deleted
  | finished
deriving DecidableEq, Repr

/-- One end of a connection: `m_connState`, what it does next, and the logic peer of its
socket descriptor. -/
structure Endpoint where
  connState : ConnectionState
  stage : Stage
  logicPeer : NetPeerInfo
deriving DecidableEq, Repr

namespace Endpoint

/-- `COMPLETE_AND_FIRE`: `Initialize` returns whether the state is `Connected`. -/
def complete (e : Endpoint) : Endpoint :=
  { e with stage := if e.connState = .connected then .setNonBlocking else .closing }

/-- `Initialize` returns false. -/
def close (e : Endpoint) : Endpoint :=
  { e with stage := .closing }

/-- `handshake` up to its next call; `addr` is the address of the real peer. -/
def handshake (addr : String) (e : Endpoint) (payload : Payload) : Endpoint :=
  match e.connState with
  | .connectSe =>
    if readPayload payload = Status.toNat .ok then { e with stage := .respond .ok [] }
    else e.complete
  | .waitLastACK =>
    if readPayload payload = Status.toNat .ok then { e with stage := .register }
    else e.complete
  | .connecting =>
    if payload.length ≠ 2 then { e with stage := .respond .error [] }
    else
      { e with
        logicPeer := ⟨⟨addr, readPayload payload⟩, .tcp⟩
        stage := .respond .ok [] }
  | .connectingRe => { e with stage := .register }
  | .connected =>
    { e with stage := .respond .error "handshake recv unexpected state.".toUTF8.toList }

/-- `handshake` behind `InsertMessage` and `Send` of a response. -/
def afterSend (e : Endpoint) (stat : Status) (sent : Bool) : Endpoint :=
  match e.connState with
  | .connectSe =>
    if sent then { e with connState := .waitLastACK, stage := .recv } else e.complete
  | .connecting =>
    -- the response to a corrupt request is the last thing the server does
    match stat with
    | .ok => if sent then { e with connState := .connectingRe, stage := .recv } else e.complete
    | .error => e.complete
  | .connectingRe =>
    if sent ∧ stat = .ok then { e with connState := .connected }.complete else e.complete
  | .waitLastACK => e.complete
  | .connected => e.complete

/-- `handshake` behind `m_onLogicConnect`. -/
def afterRegister (e : Endpoint) (registered : Bool) : Endpoint :=
  match e.connState with
  | .waitLastACK =>
    if registered then { e with connState := .connected }.complete else e.complete
  | _ => { e with stage := .respond (if registered then .ok else .error) [] }

/-- The end when the call it makes next fails: a read, a write, the queueing of a message
or `SetNonBlocking`, or `m_onLogicConnect` after the service has been stopped. -/
def failed (e : Endpoint) : Option Endpoint :=
  match e.stage with
  | .sendRequest => some e.close
  | .recv => some e.close
  | .respond stat _ => some (e.afterSend stat false)
  | .register => some (e.afterRegister false)
  | .setNonBlocking => some e.close
  | .live => none
  | .closing => none
  | .deleted => none
  | .finished => none

end Endpoint

/-! ## Connections -/

/-- An end of a connection, which stands for its event handler. -/
structure EndpointId where
  conn : Nat
  side : CreatorType
deriving DecidableEq, Repr

/-- Where a node listens, and the logic port it names itself by. -/
structure Site where
  addr : String
  port : Nat
  logicPort : Nat
  logicPort_lt : logicPort < 2 ^ 16

/-- The peer info by which clients connect to a node. -/
def Site.peer (s : Site) : NetPeerInfo :=
  ⟨⟨s.addr, s.port⟩, .tcp⟩

/-- The peer info by which servers name a node that has connected to them. -/
def Site.logicPeer (s : Site) : NetPeerInfo :=
  ⟨⟨s.addr, s.logicPort⟩, .tcp⟩

/-- A connection: the nodes at its ends, the port its client is bound to, the ends, what
each end sends, and, for the record, which end the manager has turned away and in favour of
whom. -/
structure Connection (Node : Type) where
  node : CreatorType → Node
  port : Nat
  ends : CreatorType → Endpoint
  out : CreatorType → Fifo Payload
  refused : Option (CreatorType × EndpointId)

namespace Connection

variable {Node : Type}

/-- A connection that has just been accepted; the client has set its logic peer. -/
def new (site : Node → Site) (c s : Node) (port : Nat) : Connection Node where
  node
    | .client => c
    | .server => s
  port := port
  ends
    | .client => ⟨.connecting, .sendRequest, (site s).peer⟩
    | .server => ⟨.connecting, .recv, .unset⟩
  out _ := .empty
  refused := none

/-- `GetRealPeerInfo` of an end. -/
def realPeer (site : Node → Site) (conn : Connection Node) : CreatorType → NetPeerInfo
  | .client => (site (conn.node .server)).peer
  | .server => ⟨⟨(site (conn.node .client)).addr, conn.port⟩, .tcp⟩

/-- Replace an end. -/
def setEnd (conn : Connection Node) (side : CreatorType) (e : Endpoint) : Connection Node :=
  { conn with ends := Function.update conn.ends side e }

@[simp]
theorem setEnd_ends_self (conn : Connection Node) (side : CreatorType) (e : Endpoint) :
    (conn.setEnd side e).ends side = e :=
  Function.update_self ..

/-- An end sends a frame. -/
def send (conn : Connection Node) (side : CreatorType) (payload : Payload) : Connection Node :=
  { conn with out := Function.update conn.out side ((conn.out side).push payload) }

/-- An end has taken a frame out of its incoming channel. -/
def receive (conn : Connection Node) (side : CreatorType) (incoming : Fifo Payload) :
    Connection Node :=
  { conn with out := Function.update conn.out side.other incoming }

/-- Record who was preferred to an end. -/
def refuse (conn : Connection Node) (side : CreatorType) (other : EndpointId) :
    Connection Node :=
  { conn with refused := some (side, other) }

/-- The next action of the end `id` when its call succeeds, on the connection and on the
manager of its node. -/
def proceed (site : Node → Site) (m : UniqueWorkerManager EndpointId) (id : EndpointId)
    (conn : Connection Node) : Option (Connection Node × UniqueWorkerManager EndpointId) :=
  let e := conn.ends id.side
  match e.stage with
  | .sendRequest =>
    some ((conn.send id.side (connectRequest (site (conn.node id.side)).logicPort)).setEnd
      id.side { e with connState := .connectSe, stage := .recv }, m)
  | .recv =>
    match (conn.out id.side.other).pop with
    | some (payload, incoming) =>
      some ((conn.receive id.side incoming).setEnd id.side
        (e.handshake (conn.realPeer site id.side).nat.addr payload), m)
    | none =>
      -- a read from a closed socket
      if (conn.ends id.side.other).stage = .deleted then
        some (conn.setEnd id.side e.close, m)
      else none
  | .respond stat what =>
    some ((conn.send id.side (connectResponse stat what)).setEnd id.side
      (e.afterSend stat true), m)
  | .register =>
    let r := m.putWorkerEventHandler id e.logicPeer (conn.realPeer site id.side)
    match m.lookupWorker e.logicPeer with
    | none => some (conn.setEnd id.side (e.afterRegister r.1), r.2)
    | some other =>
      some ((conn.refuse id.side other).setEnd id.side (e.afterRegister r.1), r.2)
  | .setNonBlocking => some (conn.setEnd id.side { e with stage := .live }, m)
  | .closing => some (conn.setEnd id.side { e with stage := .deleted }, m)
  | .live => none
  | .deleted => none
  | .finished => none

/-- One action of the end `id`. -/
def act (site : Node → Site) (m : UniqueWorkerManager EndpointId) (id : EndpointId)
    (conn : Connection Node) (ok : Bool) :
    Option (Connection Node × UniqueWorkerManager EndpointId) :=
  if ok then conn.proceed site m id
  else (conn.ends id.side).failed.map fun e => (conn.setEnd id.side e, m)

/-- `on_finish` of the end `id`: the handler is released when one was removed. -/
def finish (site : Node → Site) (m : UniqueWorkerManager EndpointId) (id : EndpointId)
    (conn : Connection Node) : Connection Node × UniqueWorkerManager EndpointId :=
  let e := conn.ends id.side
  let (removed, m) := m.removeWorkerEventHandler e.logicPeer (conn.realPeer site id.side)
  (conn.setEnd id.side { e with stage := if removed.isSome then .closing else .finished }, m)

end Connection

/-! ## The network -/

/-- The managers of the nodes, the calls of `connect` so far, those that have found no
connection and are dialing, and the connections. -/
structure Network (Node : Type) where
  managers : Node → UniqueWorkerManager EndpointId
  called : List (Node × Node)
  dialing : List (Node × Node)
  conns : List (Connection Node)

namespace Network

variable {Node : Type}

/-- Nobody has called `connect` yet. -/
def start : Network Node :=
  ⟨fun _ => .new, [], [], []⟩

/-- The node and the state of an end. -/
def view (n : Network Node) (id : EndpointId) : Option (Node × Endpoint) :=
  n.conns[id.conn]?.map fun conn => (conn.node id.side, conn.ends id.side)

theorem view_eq {n : Network Node} {conn : Connection Node} {id : EndpointId}
    (hconn : n.conns[id.conn]? = some conn) :
    n.view id = some (conn.node id.side, conn.ends id.side) := by
  rw [view, hconn, Option.map_some]

theorem view_congr {n n' : Network Node} (hconns : n'.conns = n.conns) : n'.view = n.view := by
  funext id
  rw [view, view, hconns]

theorem lt_of_view {n : Network Node} {id : EndpointId} {v : Node × Endpoint}
    (hview : n.view id = some v) : id.conn < n.conns.length := by
  obtain ⟨conn, hconn, -⟩ := Option.map_eq_some_iff.1 hview
  exact (List.getElem?_eq_some_iff.1 hconn).1

theorem conns_append {n n' : Network Node} {conn c : Connection Node} {k : Nat}
    (hconns : n'.conns = n.conns ++ [c]) (hconn : n'.conns[k]? = some conn) :
    n.conns[k]? = some conn ∨ k = n.conns.length ∧ conn = c := by
  rw [hconns, List.getElem?_append] at hconn
  split_ifs at hconn with hk
  · exact .inl hconn
  · rw [List.getElem?_singleton] at hconn
    split_ifs at hconn with hzero
    exact .inr ⟨by omega, (Option.some.inj hconn).symm⟩

/-- The ends of a new connection, and all others. -/
theorem view_append {n n' : Network Node} {conn : Connection Node}
    (hconns : n'.conns = n.conns ++ [conn]) (id : EndpointId) :
    n'.view id = if id.conn = n.conns.length then some (conn.node id.side, conn.ends id.side)
      else n.view id := by
  simp only [view, hconns]
  split_ifs with hlen
  · simp [hlen]
  · rcases Nat.lt_or_gt_of_ne hlen with hlt | hgt
    · rw [List.getElem?_append_left hlt]
    · rw [List.getElem?_eq_none (by simp; omega), List.getElem?_eq_none (by omega)]

/-- A port the system can bind a connection from `c` to `s` to: nobody listens on it, and
no other connection between the two that is not closed on both sides uses it. -/
def PortFree [Fintype Node] (site : Node → Site) (n : Network Node) (c s : Node) (port : Nat) :
    Prop :=
  (∀ x : Node, (site x).addr = (site c).addr → (site x).port ≠ port) ∧
    ∀ conn ∈ n.conns, (site (conn.node .client)).addr = (site c).addr → conn.node .server = s →
      conn.port = port →
        (conn.ends .client).stage = .deleted ∧ (conn.ends .server).stage = .deleted

instance [Fintype Node] [DecidableEq Node] (site : Node → Site) (n : Network Node) (c s : Node)
    (port : Nat) : Decidable (n.PortFree site c s port) :=
  inferInstanceAs (Decidable (_ ∧ _))

/-- Replace a connection and the manager of a node. -/
def replace [DecidableEq Node] (n : Network Node) (k : Nat) (node : Node)
    (r : Connection Node × UniqueWorkerManager EndpointId) : Network Node :=
  { n with
    conns := n.conns.set k r.1
    managers := Function.update n.managers node r.2 }

end Network

/-- The steps: a call of `connect` up to its first look at the manager, the TCP connection
for a call that is dialing, an action of an end, and `on_finish`, after the peer has closed
or after an error. -/
inductive NetLabel (Node : Type) where
  | connect (c s : Node)
  | establish (k port : Nat) (ok : Bool)
  | act (id : EndpointId) (ok : Bool)
  | finish (id : EndpointId) (closed : Bool)
deriving DecidableEq

section Step

variable {Node : Type} [Fintype Node] [DecidableEq Node]

/-- One step of the network. -/
def netStep (site : Node → Site) (n : Network Node) : NetLabel Node → Option (Network Node)
  | .connect c s =>
    match (n.managers c).getWorkerEventHandler (site s).peer with
    | some _ => some { n with called := n.called ++ [(c, s)] }
    | none =>
      some { n with called := n.called ++ [(c, s)], dialing := n.dialing ++ [(c, s)] }
  | .establish k port ok =>
    match n.dialing[k]? with
    | none => none
    | some (c, s) =>
      if ok then
        if n.PortFree site c s port then
          some { n with
            dialing := n.dialing.eraseIdx k
            conns := n.conns ++ [Connection.new site c s port] }
        else none
      else some { n with dialing := n.dialing.eraseIdx k }
  | .act id ok =>
    match n.conns[id.conn]? with
    | none => none
    | some conn =>
      (conn.act site (n.managers (conn.node id.side)) id ok).map fun r =>
        n.replace id.conn (conn.node id.side) r
  | .finish id closed =>
    match n.conns[id.conn]? with
    | none => none
    | some conn =>
      if (conn.ends id.side).stage = .live ∧
          (closed → (conn.out id.side.other).queue = [] ∧
            (conn.ends id.side.other).stage = .deleted) then
        some (n.replace id.conn (conn.node id.side)
          (conn.finish site (n.managers (conn.node id.side)) id))
      else none

end Step

/-! ## What an action can do -/

namespace Connection

variable {Node : Type} {site : Node → Site} {conn conn' : Connection Node}
variable {m m' : UniqueWorkerManager EndpointId} {id : EndpointId} {ok : Bool}

/-- The actions of the end `id`, one by one. -/
inductive Acts (site : Node → Site) (m : UniqueWorkerManager EndpointId) (id : EndpointId)
    (conn : Connection Node) :
    Bool → Connection Node → UniqueWorkerManager EndpointId → Prop
  | sendRequest (hstage : (conn.ends id.side).stage = .sendRequest) :
      Acts site m id conn true
        ((conn.send id.side (connectRequest (site (conn.node id.side)).logicPort)).setEnd id.side
          { conn.ends id.side with connState := .connectSe, stage := .recv }) m
  | recv {payload : Payload} {incoming : Fifo Payload}
      (hstage : (conn.ends id.side).stage = .recv)
      (hpop : (conn.out id.side.other).pop = some (payload, incoming)) :
      Acts site m id conn true
        ((conn.receive id.side incoming).setEnd id.side
          ((conn.ends id.side).handshake (conn.realPeer site id.side).nat.addr payload)) m
  | eof (hstage : (conn.ends id.side).stage = .recv)
      (hpop : (conn.out id.side.other).pop = none)
      (hclosed : (conn.ends id.side.other).stage = .deleted) :
      Acts site m id conn true (conn.setEnd id.side (conn.ends id.side).close) m
  | respond {stat : Status} {what : Payload}
      (hstage : (conn.ends id.side).stage = .respond stat what) :
      Acts site m id conn true
        ((conn.send id.side (connectResponse stat what)).setEnd id.side
          ((conn.ends id.side).afterSend stat true)) m
  | put (hstage : (conn.ends id.side).stage = .register)
      (hfree : m.lookupWorker (conn.ends id.side).logicPeer = none) :
      Acts site m id conn true
        (conn.setEnd id.side ((conn.ends id.side).afterRegister true))
        (m.putWorkerEventHandler id (conn.ends id.side).logicPeer
          (conn.realPeer site id.side)).2
  | refuse {other : EndpointId} (hstage : (conn.ends id.side).stage = .register)
      (htaken : m.lookupWorker (conn.ends id.side).logicPeer = some other) :
      Acts site m id conn true
        ((conn.refuse id.side other).setEnd id.side ((conn.ends id.side).afterRegister false)) m
  | setNonBlocking (hstage : (conn.ends id.side).stage = .setNonBlocking) :
      Acts site m id conn true
        (conn.setEnd id.side { conn.ends id.side with stage := .live }) m
  | delete (hstage : (conn.ends id.side).stage = .closing) :
      Acts site m id conn true
        (conn.setEnd id.side { conn.ends id.side with stage := .deleted }) m
  | fail {e : Endpoint} (hfailed : (conn.ends id.side).failed = some e) :
      Acts site m id conn false (conn.setEnd id.side e) m

theorem acts_of_proceed (h : conn.proceed site m id = some (conn', m')) :
    Acts site m id conn true conn' m' := by
  unfold proceed at h
  cases hstage : (conn.ends id.side).stage with
  | sendRequest =>
    simp only [hstage] at h
    cases h
    exact .sendRequest hstage
  | recv =>
    simp only [hstage] at h
    cases hpop : (conn.out id.side.other).pop with
    | some r =>
      simp only [hpop] at h
      cases h
      exact .recv hstage hpop
    | none =>
      simp only [hpop, Option.ite_none_right_eq_some, Option.some.injEq, Prod.mk.injEq] at h
      obtain ⟨hclosed, rfl, rfl⟩ := h
      exact .eof hstage hpop hclosed
  | respond stat what =>
    simp only [hstage] at h
    cases h
    exact .respond hstage
  | register =>
    simp only [hstage] at h
    cases hlookup : m.lookupWorker (conn.ends id.side).logicPeer with
    | none =>
      simp only [hlookup, UniqueWorkerManager.put_fst.2 hlookup] at h
      cases h
      exact .put hstage hlookup
    | some other =>
      simp only [hlookup, UniqueWorkerManager.put_of_taken hlookup] at h
      cases h
      exact .refuse hstage hlookup
  | setNonBlocking =>
    simp only [hstage] at h
    cases h
    exact .setNonBlocking hstage
  | closing =>
    simp only [hstage] at h
    cases h
    exact .delete hstage
  | live | deleted | finished => simp [hstage] at h

/-- What one action of an end can do. -/
theorem acts_of_act (h : conn.act site m id ok = some (conn', m')) :
    Acts site m id conn ok conn' m' := by
  cases ok with
  | true => exact acts_of_proceed (by simpa [act] using h)
  | false =>
    simp only [act, Bool.false_eq_true, if_false, Option.map_eq_some_iff,
      Prod.mk.injEq] at h
    obtain ⟨e, hfailed, rfl, rfl⟩ := h
    exact .fail hfailed

/-- An action changes the end it belongs to and no other data than the channels and the
record. -/
theorem Acts.frame (h : Acts site m id conn ok conn' m') :
    conn'.node = conn.node ∧ conn'.port = conn.port ∧
      conn'.ends id.side.other = conn.ends id.side.other := by
  have hne := id.side.other_ne
  cases h <;> refine ⟨rfl, rfl, ?_⟩ <;> exact Function.update_of_ne hne _ _

end Connection

/-! ## What a step can do -/

section Inversion

variable {Node : Type} [DecidableEq Node] {site : Node → Site} {n n' : Network Node}
variable {conn conn' : Connection Node} {m m' : UniqueWorkerManager EndpointId}
variable {id id' : EndpointId}

theorem replace_conns {k : Nat} (hconn : n.conns[k]? = some conn) (node : Node)
    (r : Connection Node × UniqueWorkerManager EndpointId) (j : Nat) :
    (n.replace k node r).conns[j]? = if j = k then some r.1 else n.conns[j]? := by
  have hlt : k < n.conns.length := (List.getElem?_eq_some_iff.1 hconn).1
  by_cases hj : j = k
  · subst hj
    simp [Network.replace, hlt]
  · simp [Network.replace, hj, List.getElem?_set_ne (Ne.symm hj)]

theorem replace_managers (n : Network Node) (k : Nat) (node : Node)
    (r : Connection Node × UniqueWorkerManager EndpointId) (x : Node) :
    (n.replace k node r).managers x = if x = node then r.2 else n.managers x :=
  Function.update_apply _ _ _ _

theorem replace_managers_self {k : Nat} {node : Node} :
    (n.replace k node (conn', n.managers node)).managers = n.managers :=
  Function.update_eq_self _ _

/-- A step of one end leaves the other ends of the network as they are. -/
theorem view_replace {r : Connection Node × UniqueWorkerManager EndpointId}
    (hconn : n.conns[id.conn]? = some conn) (hnode : r.1.node = conn.node)
    (hends : r.1.ends id.side.other = conn.ends id.side.other) (node : Node)
    (id' : EndpointId) :
    (n.replace id.conn node r).view id' =
      if id' = id then some (conn.node id.side, r.1.ends id.side) else n.view id' := by
  obtain ⟨k, side⟩ := id
  obtain ⟨j, side'⟩ := id'
  simp only [Network.view, replace_conns hconn, EndpointId.mk.injEq]
  by_cases hj : j = k
  · subst hj
    by_cases hside : side' = side
    · subst hside
      simp [hnode]
    · have hother := CreatorType.eq_other_of_ne hside
      simp only [hother, if_true, hconn, Option.map_some]
      simp only at hends
      simp [hnode, hends, side.other_ne]
  · simp [hj]

variable [Fintype Node]

theorem netStep_connect {c s : Node} (h : netStep site n (.connect c s) = some n') :
    n'.conns = n.conns ∧ n'.managers = n.managers ∧ n'.called = n.called ++ [(c, s)] ∧
      ((n.managers c).lookupWorker (site s).peer ≠ none ∧ n'.dialing = n.dialing ∨
        (n.managers c).lookupWorker (site s).peer = none ∧
          n'.dialing = n.dialing ++ [(c, s)]) := by
  simp only [netStep, UniqueWorkerManager.getWorkerEventHandler] at h
  cases hlookup : (n.managers c).lookupWorker (site s).peer with
  | some other =>
    simp only [hlookup] at h
    cases h
    exact ⟨rfl, rfl, rfl, .inl ⟨by simp, rfl⟩⟩
  | none =>
    simp only [hlookup] at h
    cases h
    exact ⟨rfl, rfl, rfl, .inr ⟨rfl, rfl⟩⟩

theorem netStep_establish {k port : Nat} {ok : Bool}
    (h : netStep site n (.establish k port ok) = some n') :
    ∃ c s, n.dialing[k]? = some (c, s) ∧ n'.managers = n.managers ∧ n'.called = n.called ∧
      n'.dialing = n.dialing.eraseIdx k ∧
      (ok = false ∧ n'.conns = n.conns ∨
        ok = true ∧ n.PortFree site c s port ∧
          n'.conns = n.conns ++ [Connection.new site c s port]) := by
  simp only [netStep] at h
  cases hk : n.dialing[k]? with
  | none => simp [hk] at h
  | some r =>
    obtain ⟨c, s⟩ := r
    simp only [hk] at h
    cases ok with
    | false =>
      simp only [Bool.false_eq_true, if_false] at h
      cases h
      exact ⟨c, s, rfl, rfl, rfl, rfl, .inl ⟨rfl, rfl⟩⟩
    | true =>
      obtain ⟨hfree, ⟨⟩⟩ := Option.ite_none_right_eq_some.1 h
      exact ⟨c, s, rfl, rfl, rfl, rfl, .inr ⟨rfl, hfree, rfl⟩⟩

theorem netStep_act {ok : Bool} (h : netStep site n (.act id ok) = some n') :
    ∃ conn conn' m', n.conns[id.conn]? = some conn ∧
      Connection.Acts site (n.managers (conn.node id.side)) id conn ok conn' m' ∧
      n' = n.replace id.conn (conn.node id.side) (conn', m') := by
  simp only [netStep] at h
  cases hconn : n.conns[id.conn]? with
  | none => simp [hconn] at h
  | some conn =>
    simp only [hconn, Option.map_eq_some_iff] at h
    obtain ⟨⟨conn', m'⟩, hact, rfl⟩ := h
    exact ⟨conn, conn', m', rfl, Connection.acts_of_act hact, rfl⟩

theorem netStep_finish {closed : Bool} (h : netStep site n (.finish id closed) = some n') :
    ∃ conn, n.conns[id.conn]? = some conn ∧ (conn.ends id.side).stage = .live ∧
      (closed → (conn.out id.side.other).queue = [] ∧
        (conn.ends id.side.other).stage = .deleted) ∧
      n' = n.replace id.conn (conn.node id.side)
        (conn.finish site (n.managers (conn.node id.side)) id) := by
  simp only [netStep] at h
  cases hconn : n.conns[id.conn]? with
  | none => simp [hconn] at h
  | some conn =>
    simp only [hconn, Option.ite_none_right_eq_some, Option.some.injEq] at h
    obtain ⟨⟨hlive, hclosed⟩, rfl⟩ := h
    exact ⟨conn, rfl, hlive, hclosed, rfl⟩

end Inversion

end Net
end CCraft
