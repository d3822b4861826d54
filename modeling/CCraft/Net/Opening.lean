import CCraft.Lib.Fallible
import CCraft.Net.Handshake
import CCraft.Net.ReceiveMemory

/-!
# Opening a connection over a blocking socket

`Initialize` of a worker runs the handshake over a socket that is still blocking.  It calls
`Recv(true)`, which hands the first message to `handshake`; that answers and calls `Recv(true)`
again for the second one, while the outer call still has its payload buffer in hand.  When the
outer call has returned, `Initialize` waits until the handshake is completed.

The embedding ties the knot that {lit}`recvStep` leaves open with its parameter.  A read of a
blocking socket returns some of the bytes asked for, or waits; the script of the socket says how
many.

Main results:

- Theorem {lit}`recvRound_returning`: the rounds are those of {lit}`recvStep`.
- Theorem {lit}`Opening.handshake_follows`: the handshake is that of an {lit}`Endpoint`.
- Theorem {lit}`recvLoop_receives`: `Recv(true)` hands over one whole message, stops at the first
  read that is too short, or waits.
- Theorem {lit}`opening_settles_iff`: for both ends and every way of splitting the bytes, `Recv`
  leaves the handshake completed and the receiver between two messages exactly when no read was
  too short; otherwise `Initialize` sleeps.
-/

namespace CCraft
namespace Net

open Common Fallible

/-! ## The state of an opening connection -/

/-- What the handshake finds outside its worker: the memory pool, the logic port of the service,
the id that `GetNewId` gives to the message made in a state, and the answer of
`m_onLogicConnect`. -/
structure OpeningEnv where
  pool : MemSource
  logicPort : Nat
  newId : ConnectionState → Nat
  newId_lt : ∀ c, newId c < 2 ^ 64
  onLogicConnect : Bool

/-- Why a call does not return: it waits in a read, uses a null pointer, is left by the exception
of `Encode`, or has used up the rounds that the embedding allows. -/
inductive Halt where
  | blocked
  | nullPointer
  | threw (e : EncodeError)
  | outOfFuel
deriving DecidableEq, Repr

/-- Use of a pointer. -/
def deref {α : Type} (p : Option α) : Except Halt α :=
  p.elim (.error .nullPointer) .ok

/-- A worker in its handshake, with its socket, `m_bConnHandShakeCompleted` and, for the record,
whether a read has returned fewer bytes than it was asked for. -/
structure Opening where
  worker : Worker
  sock : Socket
  completed : Bool
  short : Bool

/-- One round of the loop of `Recv`, with the two locals that decide whether there is another. -/
structure Round where
  opening : Opening
  rc : Bool
  interrupt : Bool

/-- How `Initialize` ends: it returns, or waits on `m_initWaitCv`. -/
inductive InitResult where
  | returned (rc : Bool)
  | sleeps
deriving DecidableEq, Repr

/-- `handshake` as `Recv(true)` sees it. -/
abbrev OpeningHandshake := RcvMessage → Opening → Except Halt Opening

namespace Opening

/-- A new worker on a connected socket. -/
def start (E : OpeningEnv) (logicPeer realPeer : NetPeerInfo) (sock : Socket) : Opening :=
  ⟨Worker.create E.pool logicPeer realPeer, sock, false, false⟩

def setState (o : Opening) (c : ConnectionState) : Opening :=
  { o with worker := { o.worker with connState := c } }

def setPool (o : Opening) (pool : MemView) : Opening :=
  { o with worker := { o.worker with pool := pool } }

/-- `SetLogicPeerInfo`. -/
def setLogicPeerInfo (o : Opening) (peer : NetPeerInfo) : Opening :=
  { o with worker := { o.worker with logicPeer := peer } }

/-- `COMPLETE_AND_FIRE`. -/
def completeAndFire (o : Opening) : Opening :=
  { o with completed := true }

/-- `s_release_rm_handle`. -/
def release (o : Opening) (rm : RcvMessage) : Opening :=
  o.setPool (releaseRcvMessage rm o.worker.pool)

/-- `m_payloadBuffer = nullptr`. -/
def dropPayload (o : Opening) : Opening :=
  { o with worker := { o.worker with payloadBuffer := none } }

/-! ## Recv(true) -/

/-- `Read` on the blocking socket: where a non-blocking one answers `EAGAIN` the call waits. -/
def read (o : Opening) (nbytes : Nat) : Except Halt (ReadResult × Opening) :=
  match o.sock.read nbytes with
  | (.data bs, sock) =>
    .ok (.data bs, { o with sock := sock, short := o.short || decide (bs.length < nbytes) })
  | (.closed, sock) => .ok (.closed, { o with sock := sock })
  | (.failed err, sock) =>
    if err = eagain then .error .blocked else .ok (.failed err, { o with sock := sock })

/-- The macro `ProcessAfterRcvHeader`. -/
def processAfterRcvHeader (o : Opening) (pos : Nat) (r : ReadResult) : Round :=
  let s := Net.processAfterRcvHeader o.worker pos (r, o.sock)
  ⟨{ o with worker := s.worker, sock := s.sock }, s.rc, s.interrupt⟩

/-- The macro `CheckPayload` for the payload buffer `b`, with `breakWhenRecvOne` set. -/
def checkPayload (P : MemSource) (handshake : OpeningHandshake) (o : Opening) (b : Buffer) :
    Except Halt Round :=
  if uint32 b.availableLength = o.worker.header.len then do
    let w := { o.worker with rcvState := .startToRcvHeader, payloadBuffer := some b }
    let (rcvMessage, w) := getNewRcvMessage P w b
    let o ←
      if w.connState = .connected then
        .ok { o with worker := w.handleMessage (.message rcvMessage) }
      else handshake rcvMessage { o with worker := w }
    .ok ⟨o.dropPayload, true, true⟩
  else
    .ok ⟨{ o with worker := { o.worker with rcvState := .rcvingPayload, payloadBuffer := some b } },
      true, true⟩

/-- The macro `ProcessAfterRcvPayload` for a read into the payload buffer `b` at `pos`. -/
def processAfterRcvPayload (P : MemSource) (handshake : OpeningHandshake) (o : Opening)
    (b : Buffer) (pos : Nat) (r : ReadResult) : Except Halt Round :=
  let w := { o.worker with payloadBuffer := some b }
  match r with
  | .closed => .ok ⟨{ o with worker := w.notifyWorkerPeerClosedMessage }, false, false⟩
  | .data bs =>
    let b := { b with mem := Memory.write b.mem pos bs }
    checkPayload P handshake o ((checkAndInitBufferPos b).moveTailBack bs.length)
  | .failed err =>
    let s := readFailed w o.sock err
    .ok ⟨{ o with worker := s.worker }, s.rc, s.interrupt⟩

/-- One round of `Recv(true)`. -/
def recvRound (P : MemSource) (handshake : OpeningHandshake) (o : Opening) :
    Except Halt Round :=
  match o.worker.rcvState with
  | .startToRcvHeader => do
    let b := o.worker.headerBuffer.bZero
    let start ← deref b.start
    let (r, o) ← o.read (sizeT b.totalLength)
    .ok (processAfterRcvHeader { o with worker := { o.worker with headerBuffer := b } } start r)
  | .rcvingHeader => do
    let pos ← deref (nextPos o.worker.headerBuffer)
    let (r, o) ← o.read o.worker.headerBuffer.unusedSize
    .ok (processAfterRcvHeader o pos r)
  | .startToRcvPayload => do
    let mpo := P.get o.worker.pool o.worker.header.len
    let b := getNewBuffer mpo.1 o.worker.header.len
    let start ← deref b.start
    let (r, o) ← o.read (sizeT b.totalLength)
    processAfterRcvPayload P handshake { o with worker := { o.worker with pool := mpo.2 } } b
      start r
  | .rcvingPayload => do
    let b ← deref o.worker.payloadBuffer
    let pos ← deref (nextPos b)
    let (r, o) ← o.read b.unusedSize
    processAfterRcvPayload P handshake o b pos r

/-- The loop of `Recv(true)`, cut off after `fuel` rounds. -/
def recvLoop (P : MemSource) (handshake : OpeningHandshake) :
    Nat → Opening → Except Halt (Bool × Opening)
  | 0, _ => .error .outOfFuel
  | fuel + 1, o => do
    let r ← recvRound P handshake o
    if r.rc && !r.interrupt then recvLoop P handshake fuel r.opening
    else .ok (r.rc, r.opening)

/-! ## The handshake -/

/-- A new `ConnectRequestMessage`. -/
def request (E : OpeningEnv) : SndMessage :=
  ⟨E.newId .connecting, connectRequest E.logicPort, .unset, E.newId_lt _,
    by simp [connectRequest]⟩

/-- A new `ConnectResponseMessage`, made in the state `c`. -/
def response (E : OpeningEnv) (c : ConnectionState) (stat : Status) (what : Payload)
    (hwhat : what.length < 2 ^ 16) : SndMessage :=
  ⟨E.newId c, connectResponse stat what, .unset, E.newId_lt c, by
    simp only [connectResponse, List.length_append, length_storeBytes]
    omega⟩

/-- `InsertMessage`, which does not fail on an unbounded queue, and `Send`. -/
def sendMessage (E : OpeningEnv) (o : Opening) (m : SndMessage) : Except Halt (Bool × Opening) :=
  match send E.pool (o.worker.insertMessage m) o.sock with
  | some (.idle rc, w, sock) => .ok (rc, { o with worker := w, sock := sock })
  | some (.threw e, _, _) => .error (.threw e)
  | _ => .error .outOfFuel

/-- Answer, and on success receive the next message in the state `next`. -/
def answerAndRecv (E : OpeningEnv) (recv : Opening → Except Halt (Bool × Opening)) (o : Opening)
    (m : SndMessage) (next : ConnectionState) : Except Halt Opening := do
  let (ok, o) ← o.sendMessage E m
  if ok then do
    let (rc, o) ← recv (o.setState next)
    .ok (if rc then o else o.completeAndFire)
  else .ok o.completeAndFire

theorem noText_length : ([] : Payload).length < 2 ^ 16 := by
  decide

theorem unexpectedText_length :
    "handshake recv unexpected state.".toUTF8.toList.length < 2 ^ 16 := by
  decide +kernel

/-- `PosixTcpNetStackWorker::handshake`; `recv` is the `Recv(true)` that it calls. -/
def handshake (E : OpeningEnv) (recv : Opening → Except Halt (Bool × Opening))
    (rm : RcvMessage) (o : Opening) : Except Halt Opening :=
  match o.worker.connState with
  | .connectSe => do
    let pos ← deref rm.buffer.pos
    let res := LittleEndianCodecUtils.readUInt16 rm.buffer.mem pos
    if res ≠ Status.toNat .ok then
      -- the text of the peer is copied into a pool object for the log
      let buffer := rm.buffer.moveHeadBack 2
      let whatMpo := E.pool.get o.worker.pool (uint32 (buffer.availableLength + 1))
      let o := o.setPool (whatMpo.2.put whatMpo.1.id)
      .ok (o.completeAndFire.release { rm with buffer := buffer })
    else do
      let o ← o.answerAndRecv E recv (response E .connectSe .ok [] noText_length) .waitLastACK
      .ok (o.release rm)
  | .waitLastACK => do
    let pos ← deref rm.buffer.pos
    let res := LittleEndianCodecUtils.readUInt16 rm.buffer.mem pos
    let o := o.release rm
    if res = Status.toNat .ok ∧ E.onLogicConnect = true then
      .ok (o.setState .connected).completeAndFire
    else .ok o.completeAndFire
  | .connecting =>
    if rm.buffer.availableLength ≠ 2 then do
      let (_, o) ← o.sendMessage E (response E .connecting .error [] noText_length)
      .ok (o.release rm).completeAndFire
    else do
      let pos ← deref rm.buffer.pos
      let port := LittleEndianCodecUtils.readUInt16 rm.buffer.mem pos
      let o := o.setLogicPeerInfo ⟨⟨o.worker.realPeer.nat.addr, port⟩, .tcp⟩
      let o ← o.answerAndRecv E recv (response E .connecting .ok [] noText_length) .connectingRe
      .ok (o.release rm)
  | .connectingRe => do
    let o := o.release rm
    let stat := if E.onLogicConnect then Status.ok else .error
    let (sent, o) ← o.sendMessage E (response E .connectingRe stat [] noText_length)
    if E.onLogicConnect && sent then .ok (o.setState .connected).completeAndFire
    else .ok o.completeAndFire
  | .connected => do
    let what := "handshake recv unexpected state.".toUTF8.toList
    let (_, o) ← o.sendMessage E (response E .connected .error what unexpectedText_length)
    .ok (o.completeAndFire.release rm)

/-- `Recv(true)` with `depth` calls of it inside each other.  Every round takes an entry off the
script of the socket, so its length bounds the loop. -/
def recvNested (E : OpeningEnv) : Nat → Opening → Except Halt (Bool × Opening)
  | 0, _ => .error .outOfFuel
  | depth + 1, o =>
    recvLoop E.pool (handshake E (recvNested E depth)) (o.sock.reads.length + 1) o

/-- `Recv(true)`.  The second message of a handshake is the last, so one call inside another is
enough. -/
def recv (E : OpeningEnv) (o : Opening) : Except Halt (Bool × Opening) :=
  recvNested E 2 o

/-- `Initialize` up to its `Recv(true)`: whether it gets there, and the state. -/
def beforeRecv (E : OpeningEnv) (ct : CreatorType) (o : Opening) :
    Except Halt (Bool × Opening) :=
  let o := o.setState .connecting
  match ct with
  | .client => do
    let (sent, o) ← o.sendMessage E (request E)
    .ok (sent, if sent then o.setState .connectSe else o)
  | .server => .ok (true, o)

/-- `PosixTcpNetStackWorker::Initialize`. -/
def initializeWorker (E : OpeningEnv) (ct : CreatorType) (o : Opening) :
    Except Halt (InitResult × Opening) := do
  let (sent, o) ← beforeRecv E ct o
  if sent then do
    let (rc, o) ← recv E o
    if rc then
      -- only the destructor could still wake it up when the handshake is not completed
      if o.completed then .ok (.returned (o.worker.connState = .connected), o)
      else .ok (.sleeps, o)
    else .ok (.returned false, o)
  else .ok (.returned false, o)

/-- The handshake is completed, and the receiver is between two messages. -/
def Settled (o : Opening) : Prop :=
  o.completed = true ∧ o.worker.rcvState = .startToRcvHeader ∧ o.worker.payloadBuffer = none

/-! ## The rounds are those of Recv -/

section Rounds

variable {P : MemSource} {handshake : Handshake} {o : Opening} {r : Round}

/-- A handshake that always returns, as `Recv` sees it for any other connection. -/
def returning (handshake : Handshake) : OpeningHandshake := fun rm o =>
  let s := handshake rm (o.worker, o.sock)
  .ok { o with worker := s.1, sock := s.2 }

theorem deref_eq_ok {α : Type} {p : Option α} {x : α} : deref p = .ok x ↔ p = some x := by
  cases p <;> simp [deref]

theorem read_eq_ok {n : Nat} {res : ReadResult} {o' : Opening} (h : o.read n = .ok (res, o')) :
    o.sock.read n = (res, o'.sock) ∧ o'.worker = o.worker := by
  unfold Opening.read at h
  split at h
  on_goal 3 => split_ifs at h
  all_goals
    cases h
    exact ⟨by assumption, rfl⟩

theorem processAfterRcvPayload_returning {b : Buffer} {pos : Nat} {res : ReadResult}
    (h : processAfterRcvPayload P (returning handshake) o b pos res = .ok r) :
    Net.processAfterRcvPayload P handshake true o.worker b pos (res, o.sock) =
      ⟨r.opening.worker, r.opening.sock, r.rc, r.interrupt⟩ := by
  cases res with
  | closed =>
    cases h
    rfl
  | failed err =>
    cases h
    simp only [Net.processAfterRcvPayload, readFailed]
    split_ifs <;> rfl
  | data bs =>
    simp only [processAfterRcvPayload, checkPayload, returning] at h
    simp only [Net.processAfterRcvPayload, Net.checkPayload]
    split_ifs at h ⊢ <;>
    · cases h
      rfl

/-- A round of an opening connection whose handshake returns is a round of `Recv(true)` as it is
embedded for any other connection. -/
theorem recvRound_returning (h : recvRound P (returning handshake) o = .ok r) :
    recvStep P handshake true o.worker o.sock =
      some ⟨r.opening.worker, r.opening.sock, r.rc, r.interrupt⟩ := by
  unfold Opening.recvRound at h
  split at h
  · next hstate =>
      obtain ⟨start, hstart, h⟩ := bind_eq_ok.1 h
      obtain ⟨⟨res, o'⟩, hread, h⟩ := bind_eq_ok.1 h
      obtain ⟨hread, hworker⟩ := read_eq_ok hread
      cases h
      simp only [recvStep, hstate, deref_eq_ok.1 hstart, hread, Option.bind_eq_bind,
        Option.bind_some, hworker, processAfterRcvHeader]
  · next hstate =>
      obtain ⟨pos, hpos, h⟩ := bind_eq_ok.1 h
      obtain ⟨⟨res, o'⟩, hread, h⟩ := bind_eq_ok.1 h
      obtain ⟨hread, hworker⟩ := read_eq_ok hread
      cases h
      simp only [recvStep, hstate, deref_eq_ok.1 hpos, hread, Option.bind_eq_bind,
        Option.bind_some, hworker, processAfterRcvHeader]
  · next hstate =>
      obtain ⟨start, hstart, h⟩ := bind_eq_ok.1 h
      obtain ⟨⟨res, o'⟩, hread, h⟩ := bind_eq_ok.1 h
      obtain ⟨hread, hworker⟩ := read_eq_ok hread
      simp only [recvStep, hstate, deref_eq_ok.1 hstart, hread, Option.bind_eq_bind,
        Option.bind_some]
      rw [← processAfterRcvPayload_returning h]
      simp only [hworker, hstate]
  · next hstate =>
      obtain ⟨b, hb, h⟩ := bind_eq_ok.1 h
      obtain ⟨pos, hpos, h⟩ := bind_eq_ok.1 h
      obtain ⟨⟨res, o'⟩, hread, h⟩ := bind_eq_ok.1 h
      obtain ⟨hread, hworker⟩ := read_eq_ok hread
      simp only [recvStep, hstate, deref_eq_ok.1 hb, deref_eq_ok.1 hpos, hread,
        Option.bind_eq_bind, Option.bind_some]
      rw [← processAfterRcvPayload_returning h, hworker]

end Rounds

/-! ## The handshake is the one of an end -/

/-- The end that a worker stands for, before its next call. -/
def endpoint (o : Opening) : Endpoint :=
  ⟨o.worker.connState, .recv, o.worker.logicPeer⟩

/-- The worker has the state and the logic peer of the end. -/
def Shows (o : Opening) (e : Endpoint) : Prop :=
  o.worker.connState = e.connState ∧ o.worker.logicPeer = e.logicPeer

/-- From the end {lit}`e` on, a call of `handshake` does what {lit}`Endpoint` says up to the next
message or to the end of the handshake, and leaves the worker as {lit}`o'`. -/
inductive Follows (E : OpeningEnv) (recv : Opening → Except Halt (Bool × Opening))
    (o' : Opening) : Endpoint → Prop
  | completed {e : Endpoint} (stage : e.stage = .setNonBlocking ∨ e.stage = .closing)
      (completed : o'.completed = true) (shows : o'.Shows e) : Follows E recv o' e
  | responds {e : Endpoint} {stat : Status} {what : Payload} {o o₁ : Opening} {m : SndMessage}
      {sent : Bool} (stage : e.stage = .respond stat what) (shows : o.Shows e)
      (payload : m.payload = connectResponse stat what) (send : o.sendMessage E m = .ok (sent, o₁))
      (rest : Follows E recv o' (e.afterSend stat sent)) : Follows E recv o' e
  | registers {e : Endpoint} (stage : e.stage = .register)
      (rest : Follows E recv o' (e.afterRegister E.onLogicConnect)) : Follows E recv o' e
  | receives {e : Endpoint} {o o₁ : Opening} {rc : Bool} (stage : e.stage = .recv)
      (shows : o.Shows e) (received : recv o = .ok (rc, o₁)) (same : o'.Shows o₁.endpoint)
      (completed : o'.completed = (o₁.completed || !rc)) : Follows E recv o' e

section Endpoints

variable {E : OpeningEnv} {recv : Opening → Except Halt (Bool × Opening)} {o o' : Opening}
  {e : Endpoint} {m : SndMessage} {rm : RcvMessage} {payload : Payload} {stat : Status}
  {what : Payload}

theorem Follows.complete (hcompleted : o'.completed = true) (hshows : o'.Shows e) :
    Follows E recv o' e.complete := by
  refine .completed ?_ hcompleted hshows
  unfold Endpoint.complete
  split_ifs
  · exact .inl rfl
  · exact .inr rfl

/-- `Send` keeps the state and the logic peer. -/
theorem sendMessage_shows {sent : Bool} (hsend : o.sendMessage E m = .ok (sent, o'))
    (hshows : o.Shows e) : o'.Shows e := by
  unfold sendMessage at hsend
  split at hsend
  · next hresult =>
      cases hsend
      have hframe := sendLoop_frame hresult
      exact ⟨hframe.connState.trans hshows.1, hframe.logicPeer.trans hshows.2⟩
  · cases hsend
  · cases hsend

/-- The two bytes that `handshake` reads are the first two of the payload. -/
theorem readUInt16_eq_readPayload (hpayload : Loaded rm.buffer payload)
    (htwo : 2 ≤ payload.length) {pos : Nat} (hpos : deref rm.buffer.pos = .ok pos) :
    LittleEndianCodecUtils.readUInt16 rm.buffer.mem pos = readPayload payload := by
  obtain ⟨p, hp, -, hread⟩ := hpayload.cursor
  cases hp.symm.trans (deref_eq_ok.1 hpos)
  obtain ⟨n, hn⟩ := Nat.exists_eq_add_of_le htwo
  rw [hn, Memory.read_add] at hread
  rw [LittleEndianCodecUtils.readUInt16, readUInt, readPayload, ← hread, List.take_left' (by simp)]

/-- An answer, with the `Recv(true)` that follows it. -/
theorem answerAndRecv_follows {next : ConnectionState}
    (hanswer : o.answerAndRecv E recv m next = .ok o') (hshows : o.Shows e)
    (hstage : e.stage = .respond stat what) (hpayload : m.payload = connectResponse stat what)
    (hsent : e.afterSend stat true = { e with connState := next, stage := .recv })
    (hnot : e.afterSend stat false = e.complete) (rm : RcvMessage) :
    Follows E recv (o'.release rm) e := by
  obtain ⟨⟨sent, o₁⟩, hsend, hanswer⟩ := bind_eq_ok.1 hanswer
  have hshows₁ := sendMessage_shows hsend hshows
  refine .responds hstage hshows hpayload hsend ?_
  cases sent with
  | false =>
    cases hanswer
    rw [hnot]
    exact .complete rfl hshows₁
  | true =>
    obtain ⟨⟨rc, o₂⟩, hrecv, hanswer⟩ := bind_eq_ok.1 hanswer
    cases hanswer
    rw [hsent]
    refine .receives (o := o₁.setState next) rfl ⟨rfl, hshows₁.2⟩ hrecv ?_ ?_
    · cases rc <;> exact ⟨rfl, rfl⟩
    · cases rc <;> simp [release, setPool, completeAndFire]

/-- An answer that completes the handshake, in the state of the end or in the next one. -/
theorem Follows.answered {sent : Bool} {o₁ : Opening} {c : ConnectionState}
    (hsend : o.sendMessage E m = .ok (sent, o₁)) (hshows : o.Shows e)
    (hstage : e.stage = .respond stat what) (hpayload : m.payload = connectResponse stat what)
    (hnext : e.afterSend stat sent = ({ e with connState := c } : Endpoint).complete)
    (hcompleted : o'.completed = true) (hstate : o'.worker.connState = c)
    (hpeer : o'.worker.logicPeer = o₁.worker.logicPeer) : Follows E recv o' e := by
  refine .responds hstage hshows hpayload hsend ?_
  rw [hnext]
  exact .complete hcompleted ⟨hstate, hpeer.trans (sendMessage_shows hsend hshows).2⟩

/-- The first message of a client. -/
theorem handshake_follows_connectSe (hhandshake : handshake E recv rm o = .ok o')
    (hpayload : Loaded rm.buffer payload) (htwo : 2 ≤ payload.length) (addr : String)
    (hstate : o.worker.connState = .connectSe) :
    Follows E recv o' (o.endpoint.handshake addr payload) := by
  simp only [handshake, hstate] at hhandshake
  simp only [Endpoint.handshake, endpoint, hstate]
  obtain ⟨pos, hpos, hhandshake⟩ := bind_eq_ok.1 hhandshake
  simp only [readUInt16_eq_readPayload hpayload htwo hpos] at hhandshake
  by_cases hok : readPayload payload = Status.toNat .ok
  · rw [if_neg (not_not.2 hok)] at hhandshake
    obtain ⟨o₁, hanswer, hhandshake⟩ := bind_eq_ok.1 hhandshake
    cases hhandshake
    rw [if_pos hok]
    exact answerAndRecv_follows hanswer ⟨hstate, rfl⟩ rfl rfl rfl rfl rm
  · rw [if_pos hok] at hhandshake
    cases hhandshake
    rw [if_neg hok]
    exact .complete rfl ⟨hstate, rfl⟩

/-- The second message of a client. -/
theorem handshake_follows_waitLastACK (hhandshake : handshake E recv rm o = .ok o')
    (hpayload : Loaded rm.buffer payload) (htwo : 2 ≤ payload.length) (addr : String)
    (hstate : o.worker.connState = .waitLastACK) :
    Follows E recv o' (o.endpoint.handshake addr payload) := by
  simp only [handshake, hstate] at hhandshake
  simp only [Endpoint.handshake, endpoint, hstate]
  obtain ⟨pos, hpos, hhandshake⟩ := bind_eq_ok.1 hhandshake
  simp only [readUInt16_eq_readPayload hpayload htwo hpos] at hhandshake
  by_cases hok : readPayload payload = Status.toNat .ok
  · rw [if_pos hok]
    refine .registers rfl ?_
    cases hconnect : E.onLogicConnect with
    | true =>
      rw [if_pos ⟨hok, hconnect⟩] at hhandshake
      cases hhandshake
      exact .complete rfl ⟨rfl, rfl⟩
    | false =>
      simp only [hconnect, Bool.false_eq_true, and_false, if_false] at hhandshake
      cases hhandshake
      exact .complete rfl ⟨hstate, rfl⟩
  · rw [if_neg fun h => hok h.1] at hhandshake
    cases hhandshake
    rw [if_neg hok]
    exact .complete rfl ⟨hstate, rfl⟩

/-- `handshake` of a worker does what {lit}`Endpoint.handshake` says, with the calls that
follow. -/
theorem handshake_follows (hhandshake : handshake E recv rm o = .ok o')
    (hpayload : Loaded rm.buffer payload) (htwo : 2 ≤ payload.length) :
    Follows E recv o' (o.endpoint.handshake o.worker.realPeer.nat.addr payload) := by
  cases hstate : o.worker.connState with
  | connectSe => exact handshake_follows_connectSe hhandshake hpayload htwo _ hstate
  | waitLastACK => exact handshake_follows_waitLastACK hhandshake hpayload htwo _ hstate
  | connecting =>
    have havail := hpayload.availableLength_eq
    simp only [handshake, hstate] at hhandshake
    simp only [Endpoint.handshake, endpoint, hstate]
    by_cases hlen : payload.length = 2
    · rw [if_neg (by omega)] at hhandshake
      obtain ⟨pos, hpos, hhandshake⟩ := bind_eq_ok.1 hhandshake
      simp only [readUInt16_eq_readPayload hpayload htwo hpos] at hhandshake
      obtain ⟨o₁, hanswer, hhandshake⟩ := bind_eq_ok.1 hhandshake
      cases hhandshake
      rw [if_neg (not_not.2 hlen)]
      refine answerAndRecv_follows hanswer ?_ (rfl : _ = Stage.respond .ok []) rfl rfl rfl rm
      exact ⟨hstate, rfl⟩
    · rw [if_pos (by omega)] at hhandshake
      obtain ⟨⟨sent, o₁⟩, hsend, hhandshake⟩ := bind_eq_ok.1 hhandshake
      cases hhandshake
      rw [if_pos hlen]
      have hshows : o.Shows ⟨.connecting, .respond .error [], o.worker.logicPeer⟩ := ⟨hstate, rfl⟩
      exact .answered hsend hshows rfl rfl rfl rfl (sendMessage_shows hsend hshows).1 rfl
  | connectingRe =>
    simp only [handshake, hstate] at hhandshake
    simp only [Endpoint.handshake, endpoint, hstate]
    obtain ⟨⟨sent, o₁⟩, hsend, hhandshake⟩ := bind_eq_ok.1 hhandshake
    refine .registers rfl ?_
    have hshows : (o.release rm).Shows ⟨.connectingRe,
      .respond (if E.onLogicConnect then .ok else .error) [], o.worker.logicPeer⟩ := ⟨hstate, rfl⟩
    have hstate₁ := (sendMessage_shows hsend hshows).1
    cases hconnect : E.onLogicConnect <;> cases sent <;>
      simp only [hconnect, Bool.and_self, Bool.and_true, Bool.and_false, if_true,
        Bool.false_eq_true, if_false] at hhandshake hsend hshows <;>
      cases hhandshake
    on_goal 4 => exact .answered hsend hshows rfl rfl rfl rfl rfl rfl
    all_goals exact .answered hsend hshows rfl rfl rfl rfl hstate₁ rfl
  | connected =>
    simp only [handshake, hstate] at hhandshake
    simp only [Endpoint.handshake, endpoint, hstate]
    obtain ⟨⟨sent, o₁⟩, hsend, hhandshake⟩ := bind_eq_ok.1 hhandshake
    cases hhandshake
    have hshows : o.Shows ⟨.connected, .recv, o.worker.logicPeer⟩ := ⟨hstate, rfl⟩
    exact .answered hsend ⟨hstate, rfl⟩ rfl rfl rfl rfl (sendMessage_shows hsend hshows).1 rfl

end Endpoints
end Opening

/-! ## Awaiting a message -/

/-- The calls that move bytes. -/
def IoOp.Transfers : IoOp → Prop
  | .transfer _ => True
  | .close => False
  | .fail _ => False

instance : DecidablePred IoOp.Transfers
  | .transfer _ => isTrue trivial
  | .close => isFalse id
  | .fail _ => isFalse id

namespace Opening

/-- An end in the state `c` of a handshake that is not completed and has made no short read; the
reads to come are `reads`. -/
structure Underway (o : Opening) (c : ConnectionState) (reads : List IoOp) : Prop where
  connState : o.worker.connState = c
  header_spans : ∃ a, Spans o.worker.headerBuffer a headerSize
  queue : ∀ m ∈ o.worker.messages, m.Encodable
  reads_eq : o.sock.reads = reads
  transfers : ∀ op ∈ reads, op.Transfers
  completed : o.completed = false
  short : o.short = false

/-- The end is between two messages, and `msgs` are still to come. -/
structure Awaits (o : Opening) (c : ConnectionState) (msgs : List SndMessage)
    (reads : List IoOp) : Prop extends Underway o c reads where
  rcvState : o.worker.rcvState = .startToRcvHeader
  encodable : ∀ m ∈ msgs, m.Encodable
  stream : o.sock.incoming = frames msgs

/-- The end has the header of the message `m`, and `ms` are to come after it. -/
structure HasHeader (o : Opening) (c : ConnectionState) (m : SndMessage) (ms : List SndMessage)
    (reads : List IoOp) : Prop extends Underway o c reads where
  rcvState : o.worker.rcvState = .startToRcvPayload
  header : o.worker.header = ⟨messageMagicNo, m.id, m.payload.length⟩
  encodable : ∀ x ∈ m :: ms, x.Encodable
  stream : o.sock.incoming = m.payload ++ frames ms

/-- The end was left in the middle of a message, after a short read. -/
structure CutShort (o : Opening) : Prop where
  short : o.short = true
  completed : o.completed = false
  rcvState : o.worker.rcvState ≠ .startToRcvHeader

section Awaiting

variable {E : OpeningEnv} {P : MemSource} {o : Opening} {c : ConnectionState}
  {msgs ms : List SndMessage} {m : SndMessage} {reads : List IoOp}

theorem Awaits.setState (h : Awaits o c msgs reads) (c' : ConnectionState) :
    Awaits (o.setState c') c' msgs reads :=
  { h with connState := rfl }

theorem Awaits.setPool (h : Awaits o c msgs reads) (pool : MemView) :
    Awaits (o.setPool pool) c msgs reads :=
  { h with }

theorem Awaits.release (h : Awaits o c msgs reads) (rm : RcvMessage) :
    Awaits (o.release rm) c msgs reads :=
  h.setPool _

theorem Awaits.setLogicPeerInfo (h : Awaits o c msgs reads) (peer : NetPeerInfo) :
    Awaits (o.setLogicPeerInfo peer) c msgs reads :=
  { h with }

theorem Awaits.sendMessage (h : Awaits o c msgs reads) (hm : m.Encodable) :
    ∃ rc o', o.sendMessage E m = .ok (rc, o') ∧ Awaits o' c msgs reads := by
  have hqueue : ∀ x ∈ (o.worker.insertMessage m).messages, x.Encodable :=
    List.forall_mem_append.2 ⟨h.queue, List.forall_mem_singleton.2 hm⟩
  obtain ⟨rc, w', sock', hsend, hframe⟩ := send_frame E.pool o.sock hqueue
  refine ⟨rc, { o with worker := w', sock := sock' }, by simp [Opening.sendMessage, hsend], ?_⟩
  exact
    { connState := hframe.connState.trans h.connState
      rcvState := hframe.rcvState.trans h.rcvState
      header_spans := hframe.headerBuffer ▸ h.header_spans
      queue := fun x hx => hqueue x (hframe.messages hx)
      encodable := h.encodable
      stream := hframe.incoming.trans h.stream
      reads_eq := hframe.reads.trans h.reads_eq
      transfers := h.transfers
      completed := h.completed
      short := h.short }

theorem request_encodable (E : OpeningEnv) : (request E).Encodable := by
  simp [SndMessage.Encodable, request, connectRequest, maxMsgPayloadSize]

theorem response_encodable (E : OpeningEnv) (c : ConnectionState) (stat : Status)
    {what : Payload} (hwhat : what.length < 2 ^ 16) :
    (response E c stat what hwhat).Encodable := by
  simp only [SndMessage.Encodable, response, connectResponse, List.length_append,
    length_storeBytes, maxMsgPayloadSize]
  omega

theorem frames_eq_nil (h : frames msgs = []) : msgs = [] := by
  cases msgs with
  | nil => rfl
  | cons m ms =>
    have hlen := congrArg List.length h
    simp [headerSize] at hlen

/-- A read of the blocking socket waits when the bytes or the script are used up, and else gives
the next bytes, at least one of them; it is short when they are not all that was asked for. -/
theorem read_transfers {n : Nat} (hn : 1 ≤ n)
    (h : ∀ op ∈ o.sock.reads, op.Transfers) :
    (o.read n = .error .blocked ∧ (o.sock.reads = [] ∨ o.sock.incoming = [])) ∨
      ∃ op reads new sock, o.sock.reads = op :: reads ∧ sock.reads = reads ∧
        o.read n =
          .ok (.data new, { o with sock := sock, short := o.short || decide (new.length < n) }) ∧
        1 ≤ new.length ∧ new.length ≤ n ∧ new ++ sock.incoming = o.sock.incoming := by
  have hserves : ∀ op ∈ o.sock.reads, op.Serves := by
    intro op hop
    cases op with
    | transfer k => trivial
    | close | fail => exact (h _ hop).elim
  obtain ⟨sock, htail, hread⟩ := Socket.read_serves hn hserves
  rcases hread with ⟨hread, -⟩ | ⟨new, hread, hne, hnew, hfit, hsplit⟩
  · refine .inl ⟨by simp [Opening.read, hread], ?_⟩
    cases hreads : o.sock.reads with
    | nil => exact .inl rfl
    | cons op ops =>
      refine .inr ?_
      by_contra hin
      cases op with
      | transfer k =>
        have hzero : n ≠ 0 := by omega
        simp [Socket.read, hreads, hzero, hin] at hread
      | close | fail => exact h _ (hreads ▸ List.mem_cons_self)
  · obtain ⟨op, reads, hreads⟩ := List.exists_cons_of_ne_nil hne
    refine .inr ⟨op, reads, new, sock, hreads, by rw [htail, hreads, List.tail_cons], ?_, hnew,
      hfit, hsplit⟩
    simp [Opening.read, hread]

/-! ## One call of Recv(true) -/

variable {H : OpeningHandshake}

/-- The round that starts with a header. -/
theorem Awaits.recvRound (h : Awaits o c msgs reads) :
    (recvRound P H o = .error .blocked ∧ (msgs = [] ∨ reads = [])) ∨
    (∃ o', recvRound P H o = .ok ⟨o', true, true⟩ ∧ CutShort o') ∨
    ∃ m ms op reads' o', msgs = m :: ms ∧ reads = op :: reads' ∧
      recvRound P H o = .ok ⟨o', true, false⟩ ∧ HasHeader o' c m ms reads' := by
  obtain ⟨a, hspans⟩ := h.header_spans
  have hzero := hspans.bZero
  have htotal : sizeT o.worker.headerBuffer.bZero.totalLength = headerSize := by
    rw [hzero.totalLength_eq, sizeT_natCast (by decide)]
  have hround : Opening.recvRound P H o = (o.read headerSize >>= fun r =>
      .ok (processAfterRcvHeader
        { r.2 with worker := { r.2.worker with headerBuffer := o.worker.headerBuffer.bZero } }
        a r.1)) := by
    simp only [Opening.recvRound, h.rcvState, hzero.start_eq, htotal]
    rfl
  rw [hround]
  rcases read_transfers (n := headerSize) (by decide) (h.reads_eq ▸ h.transfers) with
    ⟨hread, hused⟩ | ⟨op, reads', new, sock, hreads, hsock, hread, hnew, hfit, hsplit⟩
  · refine .inl ⟨by rw [hread, error_bind], ?_⟩
    rcases hused with hnil | hempty
    · exact .inr (h.reads_eq.symm.trans hnil)
    · exact .inl (frames_eq_nil (h.stream.symm.trans hempty))
  · obtain ⟨m, ms, rfl⟩ : ∃ m ms, msgs = m :: ms := by
      cases msgs with
      | nil =>
        have hnil : new ++ sock.incoming = [] := hsplit.trans h.stream
        rw [List.append_eq_nil_iff.1 hnil |>.1] at hnew
        simp at hnew
      | cons m ms => exact ⟨m, ms, rfl⟩
    have hfill := filling_of_empty hzero rfl rfl hnew hfit
    rw [hread, ok_bind]
    simp only [processAfterRcvHeader, Net.processAfterRcvHeader]
    generalize (checkAndInitBufferPos _).moveTailBack new.length = b at hfill ⊢
    rcases parseHeader_filling (w := { o.worker with headerBuffer := b })
      (h.encodable m (by simp)) hfill (hsplit.trans h.stream) with
      ⟨hshort, hparse⟩ | ⟨hfull, hrest, hparse⟩
    · refine .inr (.inl ⟨_, by rw [hparse], ?_⟩)
      exact ⟨by simp [hshort], h.completed, by simp⟩
    · refine .inr (.inr ⟨m, ms, op, reads', _, rfl, h.reads_eq.symm.trans hreads,
        by rw [hparse], ?_⟩)
      exact
        { connState := h.connState
          header_spans := ⟨a, hfill.toSpans⟩
          queue := h.queue
          reads_eq := hsock
          transfers := fun x hx => h.transfers x (by simp [← h.reads_eq, hreads, hx])
          completed := h.completed
          short := by simp [h.short, hfull]
          rcvState := rfl
          header := rfl
          encodable := h.encodable
          stream := hrest }

/-- The round that starts with a payload. -/
theorem HasHeader.recvRound (h : HasHeader o c m ms reads) (hc : c ≠ .connected) :
    (recvRound P H o = .error .blocked ∧ reads = []) ∨
    (∃ o', recvRound P H o = .ok ⟨o', true, true⟩ ∧ CutShort o') ∨
    ∃ op reads' rm o', reads = op :: reads' ∧ Awaits o' c ms reads' ∧
      Loaded rm.buffer m.payload ∧
      recvRound P H o = (H rm o').map fun o'' => ⟨o''.dropPayload, true, true⟩ := by
  obtain ⟨hpos, hmax⟩ := h.encodable m (by simp)
  have hspans := getNewBuffer_spans P o.worker.pool hpos hmax
  have hlen : o.worker.header.len = m.payload.length := by rw [h.header]
  have htotal : sizeT (getNewBuffer (P.get o.worker.pool m.payload.length).1
      m.payload.length).totalLength = m.payload.length := by
    rw [hspans.totalLength_eq, sizeT_natCast (by have := m.payload_lt; omega)]
  have hround : Opening.recvRound P H o = (o.read m.payload.length >>= fun r =>
      processAfterRcvPayload P H
        { r.2 with
          worker := { r.2.worker with pool := (P.get o.worker.pool m.payload.length).2 } }
        (getNewBuffer (P.get o.worker.pool m.payload.length).1 m.payload.length)
        (P.get o.worker.pool m.payload.length).1.block.pointer r.1) := by
    simp only [Opening.recvRound, h.rcvState, hlen, hspans.start_eq, htotal]
    rfl
  rw [hround]
  rcases read_transfers hpos (h.reads_eq ▸ h.transfers) with
    ⟨hread, hused⟩ | ⟨op, reads', new, sock, hreads, hsock, hread, hnew, hfit, hsplit⟩
  · refine .inl ⟨by rw [hread, error_bind], ?_⟩
    rcases hused with hnil | hempty
    · exact h.reads_eq.symm.trans hnil
    · have hnil := List.append_eq_nil_iff.1 (h.stream.symm.trans hempty)
      simp [hnil.1] at hpos
  · have hfill := filling_of_empty hspans rfl rfl hnew hfit
    have havail := uint32_availableLength hfill m.payload_lt
    rw [hread, ok_bind]
    simp only [processAfterRcvPayload, checkPayload]
    generalize (checkAndInitBufferPos _).moveTailBack new.length = b at hfill havail ⊢
    rcases Nat.lt_or_eq_of_le hfit with hshort | hfull
    · have hne : uint32 b.availableLength ≠ o.worker.header.len := by omega
      refine .inr (.inl ⟨_, by rw [if_neg hne], ?_⟩)
      exact ⟨by simp [hshort], h.completed, by simp⟩
    · obtain ⟨hgot, hrest⟩ := List.append_inj (hsplit.trans h.stream) hfull
      have heq : uint32 b.availableLength = o.worker.header.len := by omega
      have hconn : o.worker.connState ≠ .connected := fun hconn => hc (h.connState.symm.trans hconn)
      simp only [heq, if_true, getNewRcvMessage, hconn, if_false]
      refine .inr (.inr ⟨op, reads', ⟨o.worker.header, o.worker.logicPeer, b, _⟩, _,
        h.reads_eq.symm.trans hreads, ?_, hgot ▸ hfill.loaded, rfl⟩)
      · exact
          { connState := h.connState
            header_spans := h.header_spans
            queue := h.queue
            reads_eq := hsock
            transfers := fun x hx => h.transfers x (by simp [← h.reads_eq, hreads, hx])
            completed := h.completed
            short := by simp [h.short, hfull]
            rcvState := rfl
            encodable := fun x hx => h.encodable x (by simp [hx])
            stream := hrest }

/-- What a call of `Recv(true)` in the state `c` can do: wait, stop at a short read, or hand a
message over. -/
inductive Receives (H : OpeningHandshake) (c : ConnectionState) (msgs : List SndMessage)
    (reads : List IoOp) : Except Halt (Bool × Opening) → Prop
  | blocked (starved : msgs = [] ∨ reads.length < 2) :
      Receives H c msgs reads (.error .blocked)
  | cut {o' : Opening} (cut : CutShort o') : Receives H c msgs reads (.ok (true, o'))
  | message {m : SndMessage} {ms : List SndMessage} {op op' : IoOp} {reads' : List IoOp}
      {rm : RcvMessage} {o' : Opening} (msgs_eq : msgs = m :: ms)
      (reads_eq : reads = op :: op' :: reads') (awaits : Awaits o' c ms reads')
      (payload : Loaded rm.buffer m.payload) :
      Receives H c msgs reads ((H rm o').map fun o'' => (true, o''.dropPayload))

theorem recvLoop_receives (h : Awaits o c msgs reads) (hc : c ≠ .connected) :
    Receives H c msgs reads (recvLoop P H (o.sock.reads.length + 1) o) := by
  rw [h.reads_eq, recvLoop]
  rcases h.recvRound (P := P) (H := H) with
    ⟨hround, hused⟩ | ⟨o', hround, hcut⟩ | ⟨m, ms, op, reads', o', rfl, rfl, hround, hheader⟩
  · rw [hround]
    refine .blocked (hused.imp_right ?_)
    rintro rfl
    decide
  · rw [hround]
    exact .cut hcut
  · rw [hround, ok_bind, List.length_cons]
    simp only [Bool.not_false, Bool.and_self, if_true, recvLoop]
    rcases hheader.recvRound hc (P := P) (H := H) with
      ⟨hround', rfl⟩ | ⟨o'', hround', hcut⟩ |
        ⟨op', reads'', rm, o'', rfl, hawaits, hpayload, hround'⟩
    · rw [hround']
      exact .blocked (.inr (by simp))
    · rw [hround']
      exact .cut hcut
    · have hmap : Receives H c (m :: ms) (op :: op' :: reads'')
          ((H rm o'').map fun o => (true, o.dropPayload)) := .message rfl rfl hawaits hpayload
      rw [hround']
      cases hres : H rm o'' with
      | error | ok =>
        rw [hres] at hmap
        exact hmap

/-! ## The messages of the handshake -/

/-- The handshake is completed, with the receiver between two messages and without a short
read. -/
structure Completes (o : Opening) : Prop where
  completed : o.completed = true
  short : o.short = false
  rcvState : o.worker.rcvState = .startToRcvHeader

theorem Awaits.completes (h : Awaits o c msgs reads) : Completes o.completeAndFire :=
  ⟨rfl, h.short, h.rcvState⟩

variable {rm : RcvMessage} {payload : List UInt8}
  {R : Opening → Except Halt (Bool × Opening)}

/-- The second message of either end completes the handshake. -/
theorem handshake_second (h : Awaits o c msgs reads) (hc : c = .waitLastACK ∨ c = .connectingRe)
    (hpayload : Loaded rm.buffer payload) :
    ∃ o', handshake E R rm o = .ok o' ∧ Completes o' := by
  have hstate := h.connState
  rcases hc with rfl | rfl
  · obtain ⟨p, hp, -, -⟩ := hpayload.cursor
    simp only [handshake, hstate, hp, deref, Option.elim, ok_bind]
    split_ifs
    · exact ⟨_, rfl, ((h.release rm).setState _).completes⟩
    · exact ⟨_, rfl, (h.release rm).completes⟩
  · obtain ⟨sent, o', hsend, h'⟩ := (h.release rm).sendMessage (E := E)
      (response_encodable E .connectingRe (if E.onLogicConnect then Status.ok else .error)
        (show ([] : Payload).length < 2 ^ 16 by decide))
    simp only [handshake, hstate, hsend, ok_bind]
    split_ifs
    · exact ⟨_, rfl, (h'.setState _).completes⟩
    · exact ⟨_, rfl, h'.completes⟩

theorem Completes.release (h : Completes o) (rm : RcvMessage) : Completes (o.release rm) :=
  { h with }

/-- An answer that cannot be sent completes the handshake; otherwise the end receives again. -/
theorem Awaits.answerAndRecv (h : Awaits o c msgs reads) (hm : m.Encodable)
    (next : ConnectionState) :
    (∃ o', o.answerAndRecv E R m next = .ok o' ∧ Completes o') ∨
      ∃ o', Awaits o' next msgs reads ∧ o.answerAndRecv E R m next =
        (R o').map fun r => if r.1 then r.2 else r.2.completeAndFire := by
  obtain ⟨sent, o', hsend, h'⟩ := h.sendMessage (E := E) hm
  cases sent with
  | false => exact .inl ⟨_, by simp [Opening.answerAndRecv, hsend], h'.completes⟩
  | true =>
    refine .inr ⟨o'.setState next, h'.setState next, ?_⟩
    simp only [Opening.answerAndRecv, hsend, ok_bind, if_true]
    rfl

/-- The first message of either end completes the handshake as well, or leads to another call of
`Recv(true)`. -/
theorem handshake_first (h : Awaits o c msgs reads) (hc : c = .connectSe ∨ c = .connecting)
    (hpayload : Loaded rm.buffer payload) :
    (∃ o', handshake E R rm o = .ok o' ∧ Completes o') ∨
      ∃ o' c', Awaits o' c' msgs reads ∧ (c' = .waitLastACK ∨ c' = .connectingRe) ∧
        handshake E R rm o =
          (R o').map fun r => (if r.1 then r.2 else r.2.completeAndFire).release rm := by
  have hstate := h.connState
  obtain ⟨p, hp, -, -⟩ := hpayload.cursor
  have hencodable := fun c stat =>
    response_encodable E c stat (show ([] : Payload).length < 2 ^ 16 by decide)
  rcases hc with rfl | rfl
  · simp only [handshake, hstate, hp, deref, Option.elim, ok_bind]
    split_ifs
    · exact .inl ⟨_, rfl, (h.setPool _).completes.release _⟩
    · rcases h.answerAndRecv (E := E) (R := R) (hencodable .connectSe .ok) .waitLastACK with
        ⟨o', hanswer, hdone⟩ | ⟨o', h', hanswer⟩
      · exact .inl ⟨_, by rw [hanswer, ok_bind], hdone.release rm⟩
      · refine .inr ⟨o', _, h', .inl rfl, ?_⟩
        rw [hanswer]
        cases R o' <;> rfl
  · simp only [handshake, hstate, hp, deref, Option.elim, ok_bind]
    split_ifs
    · obtain ⟨sent, o', hsend, h'⟩ := h.sendMessage (E := E) (hencodable .connecting .error)
      exact .inl ⟨_, by rw [hsend, ok_bind], (h'.release rm).completes⟩
    · rcases (h.setLogicPeerInfo _).answerAndRecv (E := E) (R := R)
        (hencodable .connecting .ok) .connectingRe with ⟨o', hanswer, hdone⟩ | ⟨o', h', hanswer⟩
      · exact .inl ⟨_, by rw [hanswer, ok_bind], hdone.release rm⟩
      · refine .inr ⟨o', _, h', .inr rfl, ?_⟩
        rw [hanswer]
        cases R o' <;> rfl

/-! ## The whole handshake -/

/-- How `Recv(true)` ends for an end in its handshake: it waits, since the peer has sent fewer
than two messages or the reads are used up, or returns true; then it has completed the
handshake between two messages, or was cut short. -/
inductive Ends (msgs : List SndMessage) (reads : List IoOp) :
    Except Halt (Bool × Opening) → Prop
  | blocked (starved : msgs.length < 2 ∨ reads.length < 4) : Ends msgs reads (.error .blocked)
  | cut {o' : Opening} (cut : CutShort o') : Ends msgs reads (.ok (true, o'))
  | settles {o' : Opening} (done : Completes o') (dropped : o'.worker.payloadBuffer = none) :
      Ends msgs reads (.ok (true, o'))

theorem CutShort.outer (h : CutShort o) (rm : RcvMessage) :
    CutShort (o.release rm).dropPayload :=
  { h with }

/-- Both messages of the handshake. -/
theorem recv_ends (h : Awaits o c msgs reads) (hc : c = .connectSe ∨ c = .connecting) :
    Ends msgs reads (Opening.recv E o) := by
  have hfirst : c ≠ .connected := by rcases hc with rfl | rfl <;> decide
  have houter : Receives (handshake E (recvNested E 1)) c msgs reads (Opening.recv E o) :=
    recvLoop_receives h hfirst
  generalize Opening.recv E o = result at houter ⊢
  cases houter with
  | blocked starved =>
    refine .blocked (starved.imp ?_ (by omega))
    rintro rfl
    decide
  | cut cut => exact .cut cut
  | message msgs_eq reads_eq awaits payload =>
    subst msgs_eq reads_eq
    rename_i m ms op op' reads' rm o'
    rcases handshake_first (E := E) (R := recvNested E 1) awaits hc payload with
      ⟨o₁, hshake, hdone⟩ | ⟨o₁, c', h₁, hc', hshake⟩
    · rw [hshake]
      exact .settles { hdone with } rfl
    · -- the inner call runs before the outer one has dropped its payload buffer
      have hsecond : c' ≠ .connected := by rcases hc' with rfl | rfl <;> decide
      have hinner : Receives (handshake E (recvNested E 0)) c' ms reads' (recvNested E 1 o₁) :=
        recvLoop_receives h₁ hsecond
      rw [hshake]
      generalize recvNested E 1 o₁ = inner at hinner ⊢
      cases hinner with
      | blocked starved =>
        refine .blocked (starved.imp ?_ ?_)
        · rintro rfl
          simp
        · intro hlt
          simp only [List.length_cons]
          omega
      | cut cut => exact .cut (cut.outer rm)
      | message msgs_eq reads_eq awaits' payload' =>
        obtain ⟨o₂, hshake', hdone⟩ :=
          handshake_second (E := E) (R := recvNested E 0) awaits' hc' payload'
        rw [hshake']
        exact .settles { hdone with } rfl

/-- `Initialize` gets to its `Recv(true)` in the first state of either end. -/
theorem beforeRecv_awaits {ct : CreatorType} (h : Awaits o c msgs reads) {o' : Opening}
    (hsent : beforeRecv E ct o = .ok (true, o')) :
    ∃ c', Awaits o' c' msgs reads ∧ (c' = .connectSe ∨ c' = .connecting) := by
  have hconnecting := h.setState .connecting
  cases ct with
  | server =>
    obtain rfl := congrArg Prod.snd (Except.ok.inj hsent)
    exact ⟨_, hconnecting, .inr rfl⟩
  | client =>
    obtain ⟨sent, o₁, hsend, h₁⟩ := hconnecting.sendMessage (E := E) (request_encodable E)
    simp only [beforeRecv, hsend, ok_bind] at hsent
    cases hsent
    exact ⟨_, h₁.setState .connectSe, .inl rfl⟩

end Awaiting

/-- A new worker on a blocking socket, over which the peer sends messages in pieces.  The
`Recv(true)` of its `Initialize` waits for more, or returns true; then the handshake is completed
and the receiver between two messages exactly when no read was too short.  After a short read
`Initialize` sleeps. -/
theorem opening_settles_iff (E : OpeningEnv) (ct : CreatorType)
    (logicPeer realPeer : NetPeerInfo) (msgs : List SndMessage)
    (hmsgs : ∀ m ∈ msgs, m.Encodable) (sock : Socket) (hstream : sock.incoming = frames msgs)
    (hreads : ∀ op ∈ sock.reads, op.Transfers) (o : Opening)
    (hsent : beforeRecv E ct (start E logicPeer realPeer sock) = .ok (true, o)) :
    (recv E o = .error .blocked ∧ (msgs.length < 2 ∨ sock.reads.length < 4)) ∨
      ∃ o', recv E o = .ok (true, o') ∧ (o'.Settled ↔ o'.short = false) ∧
        initializeWorker E ct (start E logicPeer realPeer sock) =
          .ok (if o'.short then .sleeps else .returned (o'.worker.connState = .connected), o') := by
  have hstart : Awaits (start E logicPeer realPeer sock) .connecting msgs sock.reads :=
    { connState := rfl
      header_spans := ⟨_, rfl, rfl, by decide, by decide⟩
      queue := by simp [start, Worker.create]
      reads_eq := rfl
      transfers := hreads
      completed := rfl
      short := rfl
      rcvState := rfl
      encodable := hmsgs
      stream := hstream }
  obtain ⟨c, hawaits, hc⟩ := beforeRecv_awaits hstart hsent
  have hends : Ends msgs sock.reads (recv E o) := recv_ends hawaits hc
  generalize hrecv : recv E o = result at hends
  cases hends with
  | blocked starved => exact .inl ⟨rfl, starved⟩
  | cut cut =>
    refine .inr ⟨_, rfl, ?_, ?_⟩
    · simp [Settled, cut.completed, cut.short]
    · simp [initializeWorker, hsent, hrecv, cut.completed, cut.short]
  | settles done dropped =>
    refine .inr ⟨_, rfl, ?_, ?_⟩
    · simp [Settled, done.completed, done.short, done.rcvState, dropped]
    · simp [initializeWorker, hsent, hrecv, done.completed, done.short]

/-- A service on port 7001 whose manager takes every connection. -/
def sampleEnv : OpeningEnv :=
  ⟨pagePool, 7001, fun _ => 1, fun _ => by decide, true⟩

/-- A client whose peer answers twice, each time with a header and a payload in one piece. -/
theorem opening_settles_iff_whole_reads :
    let peer : NetPeerInfo := ⟨⟨"localhost", 80⟩, .tcp⟩
    let msgs := [response sampleEnv .connecting .ok [] (by decide),
      response sampleEnv .connectingRe .ok [] (by decide)]
    let sock : Socket := ⟨frames msgs,
      [.transfer 16, .transfer 2, .transfer 100, .transfer 2], [], [.transfer 18, .transfer 18]⟩
    ∃ o, initializeWorker sampleEnv .client (start sampleEnv peer peer sock) =
      .ok (.returned true, o) ∧ o.Settled := by
  intro peer msgs sock
  have hbefore : (beforeRecv sampleEnv .client (start sampleEnv peer peer sock)).map Prod.fst =
      .ok true := by
    decide +kernel
  obtain ⟨⟨sent, o⟩, hsent, rfl⟩ := map_eq_ok.1 hbefore
  have hinit : (initializeWorker sampleEnv .client (start sampleEnv peer peer sock)).map
      (fun r => (r.1, r.2.short)) = .ok (.returned true, false) := by
    decide +kernel
  obtain ⟨⟨res, o'⟩, hinit, hres⟩ := map_eq_ok.1 hinit
  obtain ⟨rfl, hshort⟩ := Prod.mk.inj hres
  have hmsgs : ∀ m ∈ msgs, m.Encodable := by decide +kernel
  rcases opening_settles_iff sampleEnv .client peer peer msgs hmsgs sock rfl (by decide +kernel) o
    hsent with ⟨-, hfew⟩ | ⟨o'', -, hsettled, hinit'⟩
  · exact absurd hfew (by decide)
  · obtain ⟨-, rfl⟩ := Prod.mk.inj (Except.ok.inj (hinit.symm.trans hinit'))
    exact ⟨o', hinit, hsettled.2 hshort⟩

/-- The last byte of the second answer comes in a piece of its own: `Recv(true)` returns true in
`RcvingPayload` without a payload buffer, and `Initialize` of the client sleeps while the byte is
unread.  One more call of `Recv` would use the null pointer.  A server whose request comes with
its header in two pieces sleeps as well. -/
theorem split_handshake_sleeps :
    let peer : NetPeerInfo := ⟨⟨"localhost", 80⟩, .tcp⟩
    let answers := [response sampleEnv .connecting .ok [] (by decide),
      response sampleEnv .connectingRe .ok [] (by decide)]
    let client := start sampleEnv peer peer ⟨frames answers,
      [.transfer 16, .transfer 2, .transfer 16, .transfer 1, .transfer 1], [],
      [.transfer 18, .transfer 18]⟩
    let server := start sampleEnv .unset peer
      ⟨frames [request sampleEnv], [.transfer 7, .transfer 9, .transfer 2], [], []⟩
    (∃ o o', beforeRecv sampleEnv .client client = .ok (true, o) ∧
      recv sampleEnv o = .ok (true, o') ∧ o'.completed = false ∧
      o'.worker.rcvState = .rcvingPayload ∧ o'.worker.payloadBuffer = none ∧
      o'.sock.incoming = [0] ∧ recv sampleEnv o' = .error .nullPointer ∧
      initializeWorker sampleEnv .client client = .ok (.sleeps, o')) ∧
    ∃ o', initializeWorker sampleEnv .server server = .ok (.sleeps, o') ∧
      o'.worker.rcvState = .rcvingHeader ∧ o'.sock.incoming.length = 11 := by
  intro peer answers client server
  have hbefore : (beforeRecv sampleEnv .client client).map Prod.fst = .ok true := by
    decide +kernel
  obtain ⟨⟨sent, o⟩, hsent, rfl⟩ := map_eq_ok.1 hbefore
  have hrecv : (beforeRecv sampleEnv .client client >>= fun r => recv sampleEnv r.2).map
      (fun r => (r.1, r.2.completed, r.2.worker.rcvState, r.2.worker.payloadBuffer.isNone,
        r.2.sock.incoming)) = .ok (true, false, .rcvingPayload, true, [0]) := by
    decide +kernel
  rw [hsent, ok_bind] at hrecv
  obtain ⟨⟨rc, o'⟩, hrecv, hstate⟩ := map_eq_ok.1 hrecv
  simp only [Prod.mk.injEq, Option.isNone_iff_eq_none] at hstate
  obtain ⟨rfl, hcompleted, hrcv, hpayload, hincoming⟩ := hstate
  have hserver : (initializeWorker sampleEnv .server server).map
      (fun r => (r.1, r.2.worker.rcvState, r.2.sock.incoming.length)) =
      .ok (.sleeps, .rcvingHeader, 11) := by
    decide +kernel
  obtain ⟨⟨res, o''⟩, hserver, hres⟩ := map_eq_ok.1 hserver
  simp only [Prod.mk.injEq] at hres
  obtain ⟨rfl, hrcv', hlen⟩ := hres
  refine ⟨⟨o, o', hsent, hrecv, hcompleted, hrcv, hpayload, hincoming, ?_, ?_⟩, o'', hserver, hrcv',
    hlen⟩
  · simp [recv, recvNested, recvLoop, recvRound, hrcv, hpayload, deref]
  · simp [initializeWorker, hsent, hrecv, hcompleted]

end Opening

end Net
end CCraft
