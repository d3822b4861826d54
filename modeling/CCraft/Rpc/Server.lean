import CCraft.Rpc.Wire
import CCraft.Net.Worker
import CCraft.Server.Dispatch

/-!
# The RPC server

A task of the server's thread pool reads the handler id of a received message, looks the
handler up, lets it create a request, parses the body into it, calls the handler and hands
a response to the socket service.  Three of the four exits are errors.  The response of an
error exit is built by the constructor that leaves the peer unset, and neither its peer nor
its id is set afterwards; the socket service throws on a message whose protocol is not TCP.
The lookup is `operator[]` of a map, which adds an entry for an unknown id.

Main results:

- Theorem {lit}`sendError_submitted`: what the error exits hand to the socket service.
- Theorem {lit}`procRequest_served`: what the remaining exit hands to it.
- Theorem {lit}`request_answered_once_iff`: the requests that are answered once are the ones
  that reach the last exit.
-/

namespace CCraft
namespace Rpc

open Common Net

/-! ## Handlers and the socket service -/

/-- `IRpcHandler`: the protobuf type whose messages `CreateMessage` creates, if it creates
one, and what `Handle` returns, which may be null. -/
structure IRpcHandler (R : Type) where
  Req : Type
  createMessage : Option (PbType Req)
  handle : Req → Option R

/-- A response as it is handed to the socket service. -/
inductive Response (R : Type) where
  | base (r : RpcResponseBase)
  | full (r : RpcResponse R)

/-- The part of a response that both classes have. -/
def Response.toBase {R : Type} : Response R → RpcResponseBase
  | .base r => r
  | .full r => r.toRpcResponseBase

/-- The message of a response. -/
def Response.msg {R : Type} : Response R → Option R
  | .base _ => none
  | .full r => r.msg

/-- A response with the peer it is addressed to; {lit}`memPool` says whether its memory pool
has been set. -/
structure Outgoing (R : Type) where
  peer : NetPeerInfo
  memPool : Bool
  response : Response R

/-- What ends a task of the pool by an exception or by a read through a null position. -/
inductive ProcError where
  | notSupportNow
  | rpcServerCrushed
  | noPosition
deriving DecidableEq, Repr

/-- The part of `NBSocketService` the server depends on: whether it is stopped, and whether
a worker for a peer, found or connected, takes a message. -/
structure SocketService where
  stopped : Bool
  takes : NetPeerInfo → Bool

/-- What `NBSocketService::SendMessage` returns for a message to the peer, unless it throws. -/
def SocketService.send (ss : SocketService) (peer : NetPeerInfo) : Option Bool :=
  (serviceSend ss.stopped peer (some ()) fun _ => (ss.takes peer, ())).map Prod.fst

/-- `NBSocketService::SendMessage`. -/
def SocketService.sendMessage {R : Type} (ss : SocketService) (m : Outgoing R) :
    Except ProcError Bool :=
  (ss.send m.peer).elim (.error .notSupportNow) .ok

/-! ## Handling a message -/

/-- The server: its socket service, the last message id of the process and `m_hmHandlers`,
whose values may be null. -/
structure RpcServer (R : Type) where
  socketService : SocketService
  lastId : Nat
  handlers : AList fun _ : Nat => Option (IRpcHandler R)

/-- The end of a task: the server, what was handed to the socket service, and what was
thrown. -/
structure Processed (R : Type) where
  server : RpcServer R
  submitted : List (Outgoing R)
  threw : Option ProcError

/-- The kinds of `NotifyMessage`; a message may have no content. -/
inductive NotifyMessage where
  | message (content : Option RcvMessage)
  | worker
  | server

section Handle

variable {R : Type}

/-- Hand a message to the socket service; that it was not sent is only logged. -/
def RpcServer.submit (s : RpcServer R) (m : Outgoing R) : Processed R :=
  match s.socketService.sendMessage m with
  | .ok _ => ⟨s, [m], none⟩
  | .error e => ⟨s, [m], some e⟩

/-- `m_hmHandlers[handlerId]`: an unknown id gets an entry without a handler. -/
def RpcServer.handlerFor (s : RpcServer R) (handlerId : Nat) :
    Option (IRpcHandler R) × RpcServer R :=
  match s.handlers.lookup handlerId with
  | some handler => (handler, s)
  | none => (none, { s with handlers := s.handlers.insert handlerId none })

theorem getNewId_lt (lastId : Nat) : Server.getNewId lastId < 2 ^ 64 := by
  simp only [Server.getNewId]
  split
  · decide
  · exact Nat.mod_lt _ (by decide)

/-- The constructor of `RpcResponseBase`: the id is a new one. -/
def RpcResponseBase.make (lastId : Nat) (code : RpcCode) (ht : Nat) : RpcResponseBase :=
  ⟨Server.getNewId lastId, code, ht % 2 ^ 16, getNewId_lt lastId, Nat.mod_lt _ (by decide)⟩

/-- `SetId`. -/
def RpcResponseBase.setId (r : RpcResponseBase) (id : Nat) : RpcResponseBase :=
  { r with id := id % 2 ^ 64, id_lt := Nat.mod_lt _ (by decide) }

/-- `SendMessage(new RpcResponseBase(code, handlerId))`. -/
def RpcServer.sendError (s : RpcServer R) (code : RpcCode) (handlerId : Nat) : Processed R :=
  ({ s with lastId := Server.getNewId s.lastId }).submit
    ⟨NetPeerInfo.unset, false, .base (RpcResponseBase.make s.lastId code handlerId)⟩

/-- The last exit: the response gets the id and the peer of the received message. -/
def RpcServer.sendResult (s : RpcServer R) (res : Option R) (handlerId : Nat)
    (rm : RcvMessage) : Processed R :=
  ({ s with lastId := Server.getNewId s.lastId }).submit
    ⟨rm.peer, true, .full
      ⟨(RpcResponseBase.make s.lastId .ok handlerId).setId rm.header.id, res⟩⟩

/-- `proc_msg` for a message with content. -/
def RpcServer.procRequest (s : RpcServer R) (rm : RcvMessage) : Processed R :=
  match parseRequest rm.buffer with
  | none => ⟨s, [], some .noPosition⟩
  | some (handlerId, reqBuf) =>
    match s.handlerFor handlerId with
    | (none, s) => s.sendError .errorNoHandler handlerId
    | (some handler, s) =>
      match handler.createMessage with
      | none => s.sendError .errorInternal handlerId
      | some pb =>
        match deserialize pb reqBuf with
        | none => s.sendError .errorMsg handlerId
        | some request => s.sendResult (handler.handle request) handlerId rm

/-- `RpcServer::proc_msg`. -/
def RpcServer.procMsg (s : RpcServer R) : NotifyMessage → Processed R
  | .message (some rm) => s.procRequest rm
  | .message none => ⟨s, [], none⟩
  | .worker => ⟨s, [], none⟩
  | .server => ⟨s, [], some .rpcServerCrushed⟩

/-! ## What each exit does -/

@[simp]
theorem submit_submitted (s : RpcServer R) (m : Outgoing R) : (s.submit m).submitted = [m] := by
  unfold RpcServer.submit
  split <;> rfl

@[simp]
theorem submit_server (s : RpcServer R) (m : Outgoing R) : (s.submit m).server = s := by
  unfold RpcServer.submit
  split <;> rfl

/-- Handing over a message for a TCP peer throws nothing. -/
theorem submit_threw (s : RpcServer R) {m : Outgoing R} (htcp : m.peer.sp = .tcp) :
    (s.submit m).threw = none := by
  unfold RpcServer.submit SocketService.sendMessage SocketService.send serviceSend
  by_cases hstopped : s.socketService.stopped <;> simp [hstopped, htcp]

/-- An error exit hands over one response, whose protocol is not set. -/
theorem sendError_submitted (s : RpcServer R) (code : RpcCode) (handlerId : Nat) :
    (s.sendError code handlerId).submitted =
      [⟨NetPeerInfo.unset, false, .base (RpcResponseBase.make s.lastId code handlerId)⟩] :=
  submit_submitted _ _

end Handle

/-! ## Requests and their answers -/

/-- A received message whose payload has room for a handler id, as a TCP connection
delivers it. -/
structure Incoming where
  message : RcvMessage
  payload : List UInt8
  loaded : Loaded message.buffer payload
  two_le : 2 ≤ payload.length
  tcp : message.peer.sp = .tcp
  id_lt : message.header.id < 2 ^ 64

namespace Incoming

/-- The handler id, the first two bytes. -/
def handlerId (req : Incoming) : Nat :=
  BigEndian.decode (req.payload.take 2)

/-- The bytes behind the handler id. -/
def body (req : Incoming) : List UInt8 :=
  req.payload.drop 2

theorem handlerId_lt (req : Incoming) : req.handlerId < 2 ^ 16 := by
  have hlen : (req.payload.take 2).length = 2 := List.length_take_of_le req.two_le
  have hcode := BigEndian.encode_decode (req.payload.take 2)
  have hmod := BigEndian.decode_encode 2 req.handlerId
  rw [hlen] at hcode
  rw [handlerId, hcode] at hmod
  rw [handlerId, hmod]
  exact Nat.mod_lt _ (by decide)

theorem payload_eq (req : Incoming) :
    req.payload = storeBytes 2 req.handlerId ++ req.body := by
  have hlen : (req.payload.take 2).length = 2 := List.length_take_of_le req.two_le
  have hcode := BigEndian.encode_decode (req.payload.take 2)
  rw [hlen] at hcode
  rw [storeBytes_eq_encode, handlerId, hcode, body, List.take_append_drop]

theorem parseRequest_eq (req : Incoming) :
    ∃ b, parseRequest req.message.buffer = some (req.handlerId, b) ∧ b.bytes = req.body :=
  parseRequest_loaded req.handlerId_lt (req.payload_eq ▸ req.loaded)

end Incoming

section Answer

variable {R : Type}

/-- The code and the message a client is promised: the result of the handler, or which of
the steps before it fails. -/
def RpcServer.promised (s : RpcServer R) (req : Incoming) : RpcCode × Option R :=
  match s.handlers.lookup req.handlerId with
  | some (some handler) =>
    match handler.createMessage with
    | none => (.errorInternal, none)
    | some pb =>
      match pb.parseFromArray req.body with
      | none => (.errorMsg, none)
      | some request => (.ok, handler.handle request)
  | _ => (.errorNoHandler, none)

/-- Nothing is thrown, one response is handed over, it goes to the peer of the request under
the id of the request with what was promised, and the registered handler ids stay. -/
structure AnsweredOnce (s : RpcServer R) (req : Incoming) (out : Processed R) : Prop where
  threw : out.threw = none
  submitted : ∃ m, out.submitted = [m] ∧ m.peer = req.message.peer ∧
    m.response.toBase.id = req.message.header.id ∧
    m.response.toBase.ht = req.handlerId ∧
    (m.response.toBase.code, m.response.msg) = s.promised req
  handlers : ∀ i, i ∈ out.server.handlers ↔ i ∈ s.handlers

/-- The handler exists, creates a request, and the body parses. -/
def Served (s : RpcServer R) (req : Incoming) : Prop :=
  ∃ handler pb request, s.handlers.lookup req.handlerId = some (some handler) ∧
    handler.createMessage = some pb ∧ pb.parseFromArray req.body = some request

/-- The exit of a request that is served. -/
theorem procRequest_served {s : RpcServer R} {req : Incoming} {handler : IRpcHandler R}
    {pb : PbType handler.Req} {request : handler.Req}
    (hhandler : s.handlers.lookup req.handlerId = some (some handler))
    (hcreate : handler.createMessage = some pb)
    (hparse : pb.parseFromArray req.body = some request) :
    s.procRequest req.message =
      s.sendResult (handler.handle request) req.handlerId req.message := by
  obtain ⟨b, hread, hbytes⟩ := req.parseRequest_eq
  have hdeserialize : deserialize pb b = some request := by
    rw [deserialize, hbytes, hparse]
  simp only [RpcServer.procRequest, hread, RpcServer.handlerFor, hhandler, hcreate, hdeserialize]

/-- Every other request leaves by an error exit. -/
theorem procRequest_not_served {s : RpcServer R} {req : Incoming} (hserved : ¬ Served s req) :
    ∃ s' code, s.procRequest req.message = RpcServer.sendError s' code req.handlerId := by
  obtain ⟨b, hread, hbytes⟩ := req.parseRequest_eq
  simp only [RpcServer.procRequest, hread]
  split
  case h_1 s' _ => exact ⟨s', _, rfl⟩
  case h_2 handler s' hhandler =>
    have hlookup : s.handlers.lookup req.handlerId = some (some handler) := by
      unfold RpcServer.handlerFor at hhandler
      split at hhandler
      · rename_i h hlookup
        rw [hlookup, (Prod.mk.inj hhandler).1]
      · cases (Prod.mk.inj hhandler).1
    split
    case h_1 => exact ⟨s', _, rfl⟩
    case h_2 pb hcreate =>
      split
      case h_1 => exact ⟨s', _, rfl⟩
      case h_2 request hdeserialize =>
        rw [deserialize, hbytes] at hdeserialize
        exact absurd ⟨handler, pb, request, hlookup, hcreate, hdeserialize⟩ hserved

/-- The last exit answers the request. -/
theorem answeredOnce_of_served {s : RpcServer R} {req : Incoming} (hserved : Served s req) :
    AnsweredOnce s req (s.procMsg (.message (some req.message))) := by
  obtain ⟨handler, pb, request, hhandler, hcreate, hparse⟩ := hserved
  have hpromised : s.promised req = (.ok, handler.handle request) := by
    simp only [RpcServer.promised, hhandler, hcreate, hparse]
  rw [RpcServer.procMsg, procRequest_served hhandler hcreate hparse]
  refine ⟨submit_threw _ req.tcp, ⟨_, submit_submitted _ _, rfl, ?_, ?_, ?_⟩, ?_⟩
  · exact Nat.mod_eq_of_lt req.id_lt
  · exact Nat.mod_eq_of_lt req.handlerId_lt
  · rw [hpromised]
    rfl
  · intro i
    rw [RpcServer.sendResult, submit_server]

/-- An error exit addresses its response to nobody. -/
theorem sendError_not_answeredOnce (s s' : RpcServer R) (req : Incoming) (code : RpcCode)
    (handlerId : Nat) : ¬ AnsweredOnce s req (s'.sendError code handlerId) := by
  intro hanswered
  obtain ⟨m, hsubmitted, hpeer, _⟩ := hanswered.submitted
  rw [sendError_submitted, List.singleton_inj] at hsubmitted
  have hsp : NetPeerInfo.unset.sp = .tcp := by
    rw [← req.tcp, ← hpeer, ← hsubmitted]
  cases hsp

/-- A request is answered once exactly when its handler exists and creates a request into
which the body parses. -/
theorem request_answered_once_iff (s : RpcServer R) (req : Incoming) :
    AnsweredOnce s req (s.procMsg (.message (some req.message))) ↔ Served s req := by
  constructor
  · intro hanswered
    by_contra hserved
    obtain ⟨s', code, hexit⟩ := procRequest_not_served hserved
    rw [RpcServer.procMsg, hexit] at hanswered
    exact sendError_not_answeredOnce s s' req code _ hanswered
  · exact answeredOnce_of_served

/-- A handler that returns the body it gets answers an empty body. -/
theorem request_answered_once_echo :
    let echo : IRpcHandler (List UInt8) := ⟨List UInt8, some .bytes, some⟩
    let s : RpcServer (List UInt8) := ⟨⟨false, fun _ => true⟩, 0, AList.singleton 5 (some echo)⟩
    let req : Incoming := ⟨⟨⟨messageMagicNo, 9, 2⟩, ⟨⟨"10.0.0.1", 7000⟩, .tcp⟩,
      Buffer.holding [0, 5], 0⟩, [0, 5], Buffer.holding_loaded (by decide) (by decide),
      by decide, rfl, by decide⟩
    AnsweredOnce s req (s.procMsg (.message (some req.message))) := by
  intro echo s req
  have hid : req.handlerId = 5 := by decide
  have hhandler : s.handlers.lookup req.handlerId = some (some echo) := by
    rw [hid]
    rfl
  exact (request_answered_once_iff s req).2 ⟨echo, _, [], hhandler, rfl, rfl⟩

/-- A request for a handler id that is not registered: the task throws, and the id counts as
registered from then on. -/
theorem unknown_handler_throws :
    let s : RpcServer (List UInt8) := ⟨⟨false, fun _ => true⟩, 0, ∅⟩
    let req : Incoming := ⟨⟨⟨messageMagicNo, 9, 2⟩, ⟨⟨"10.0.0.1", 7000⟩, .tcp⟩,
      Buffer.holding [0, 5], 0⟩, [0, 5], Buffer.holding_loaded (by decide) (by decide),
      by decide, rfl, by decide⟩
    let out := s.procMsg (.message (some req.message))
    out.threw = some .notSupportNow ∧ 5 ∉ s.handlers ∧ 5 ∈ out.server.handlers ∧
      ¬ AnsweredOnce s req out := by
  intro s req out
  have hthrew : out.threw = some .notSupportNow := by decide +kernel
  refine ⟨hthrew, by decide, by decide +kernel, ?_⟩
  intro hanswered
  rw [hanswered.threw] at hthrew
  cases hthrew

end Answer

end Rpc
end CCraft
