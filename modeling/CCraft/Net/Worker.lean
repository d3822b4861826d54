import CCraft.Net.Message

/-!
# The connection worker and its socket

State of a `PosixTcpNetStackWorker` and of the socket under it.  A socket is the
list of bytes its peer has sent and that are not read yet, together with a
script: what the following calls of `read` and `write` do.  When a script is
used up the call would block, so a theorem about every script is a theorem about
every way the socket can behave.
-/

namespace CCraft
namespace Net

open Common

/-! ## Sockets -/

/-- `EAGAIN`. -/
def eagain : Nat := 11

/-- What one call of `read` or `write` does: move up to `n` bytes (at least one of
them), report a closed peer, or fail with an error number. -/
inductive IoOp where
  | transfer (n : Nat)
  | close
  | fail (err : Nat)
deriving DecidableEq, Repr

/-- The calls that neither fail nor report a closed peer. -/
def IoOp.Serves : IoOp → Prop
  | .transfer _ => True
  | .close => False
  | .fail err => err = eagain

instance : DecidablePred IoOp.Serves
  | .transfer _ => isTrue trivial
  | .close => isFalse id
  | .fail err => inferInstanceAs (Decidable (err = eagain))

structure Socket where
  incoming : List UInt8
  reads : List IoOp
  accepted : List UInt8
  writes : List IoOp
deriving DecidableEq, Repr

/-- The result of `PosixTcpConnectionSocket::Read`; interrupted calls are retried
inside it. -/
inductive ReadResult where
  | data (bs : List UInt8)
  | closed
  | failed (err : Nat)
deriving DecidableEq, Repr

/-- `PosixTcpConnectionSocket::Read` for `nbytes` bytes. -/
def Socket.read (s : Socket) (nbytes : Nat) : ReadResult × Socket :=
  match s.reads with
  | [] => (.failed eagain, s)
  | .transfer n :: ops =>
    if nbytes = 0 then (.closed, { s with reads := ops })
    else if s.incoming = [] then (.failed eagain, { s with reads := ops })
    else
      let k := min (max n 1) nbytes
      (.data (s.incoming.take k), { s with reads := ops, incoming := s.incoming.drop k })
  | .close :: ops => (.closed, { s with reads := ops })
  | .fail err :: ops => (.failed err, { s with reads := ops })

/-- The result of `PosixTcpConnectionSocket::Write`. -/
inductive WriteResult where
  | wrote (n : Nat)
  | closed
  | failed (err : Nat)
deriving DecidableEq, Repr

/-- `PosixTcpConnectionSocket::Write` of the bytes `bs`. -/
def Socket.write (s : Socket) (bs : List UInt8) : WriteResult × Socket :=
  match s.writes with
  | [] => (.failed eagain, s)
  | .transfer n :: ops =>
    if bs = [] then (.closed, { s with writes := ops })
    else
      let k := min (max n 1) bs.length
      (.wrote k, { s with writes := ops, accepted := s.accepted ++ bs.take k })
  | .close :: ops => (.closed, { s with writes := ops })
  | .fail err :: ops => (.failed err, { s with writes := ops })

/-! ## Notifications -/

/-- `RcvMessage`. -/
structure RcvMessage where
  header : Header
  peer : NetPeerInfo
  buffer : Buffer
  refMpo : Nat

/-- `WorkerNotifyMessageCode`. -/
inductive WorkerNotifyMessageCode where
  | ok
  | closedByPeer
  | error
deriving DecidableEq, Repr

/-- The text of a worker notification: the fixed sentence about the peer, or
`strerror` of the error number, which no call has set when it is {lit}`none`. -/
inductive WorkerWhat where
  | closedBy (nat : NetAddr)
  | strerror (err : Option Nat)
deriving DecidableEq, Repr

/-- What a worker hands to its message callback. -/
inductive NotifyMessage where
  | message (rm : RcvMessage)
  | worker (code : WorkerNotifyMessageCode) (peer : NetPeerInfo) (what : WorkerWhat)

/-- The id and the payload bytes of a delivered message. -/
def NotifyMessage.content : NotifyMessage → Option (Nat × List UInt8)
  | .message rm => some (rm.header.id, rm.buffer.bytes)
  | .worker _ _ _ => none

/-! ## The worker -/

/-- `ANetStackMessageWorker::NetWorkerState`. -/
inductive NetWorkerState where
  | startToRcvHeader
  | rcvingHeader
  | startToRcvPayload
  | rcvingPayload
deriving DecidableEq, Repr

/-- `PosixTcpNetStackWorker::ConnectionState`. -/
inductive ConnectionState where
  | connecting
  | connectSe
  | connectingRe
  | waitLastACK
  | connected
deriving DecidableEq, Repr

/-- The fields of a `PosixTcpNetStackWorker` that receiving and sending use, with
the two peer infos of its socket descriptor, the notifications handed to the
callback so far and the pool objects it has obtained. -/
structure Worker where
  rcvState : NetWorkerState
  header : Header
  headerBuffer : Buffer
  payloadBuffer : Option Buffer
  sendingBuffer : Option Buffer
  messages : List SndMessage
  connState : ConnectionState
  logicPeer : NetPeerInfo
  realPeer : NetPeerInfo
  notified : List NotifyMessage
  pool : MemView

namespace Worker

/-- The constructors of `ANetStackMessageWorker` and `PosixTcpNetStackWorker`. -/
def create (P : MemSource) (logicPeer realPeer : NetPeerInfo) : Worker :=
  let headerMemObj := P.get ⟨0, []⟩ headerSize
  { rcvState := .startToRcvHeader
    header := ⟨0, 0, 0⟩
    headerBuffer := getNewBuffer headerMemObj.1 headerSize
    payloadBuffer := none
    sendingBuffer := none
    messages := []
    connState := .connecting
    logicPeer := logicPeer
    realPeer := realPeer
    notified := []
    pool := headerMemObj.2 }

/-- `ANetStackMessageWorker::HandleMessage`. -/
def handleMessage (w : Worker) (m : NotifyMessage) : Worker :=
  { w with notified := w.notified ++ [m] }

/-- The macro `NotifyWorkerBrokenMessage`. -/
def notifyWorkerBrokenMessage (w : Worker) (err : Option Nat) : Worker :=
  w.handleMessage (.worker .error w.realPeer (.strerror err))

/-- The macro `NotifyWorkerPeerClosedMessage`. -/
def notifyWorkerPeerClosedMessage (w : Worker) : Worker :=
  w.handleMessage (.worker .closedByPeer w.realPeer (.closedBy w.realPeer.nat))

/-- `ANetStackMessageWorker::InsertMessage`; the queue is unbounded. -/
def insertMessage (w : Worker) (m : SndMessage) : Worker :=
  { w with messages := w.messages ++ [m] }

end Worker

/-- `NBSocketService::SendMessage` to a peer: {lit}`handler` is the one that is found or connected
for it, {lit}`push` hands it the message.  {lit}`none` stands for the exception for other
protocols. -/
def serviceSend {σ : Type} (stopped : Bool) (peer : NetPeerInfo) (handler : Option σ)
    (push : σ → Bool × σ) : Option (Bool × Option σ) :=
  if stopped then some (false, handler)
  else if peer.sp ≠ .tcp then none
  else
    match handler with
    | some h => some ((push h).1, some (push h).2)
    | none => some (false, none)

end Net
end CCraft
