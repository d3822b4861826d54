import CCraft.Lib.Framing
import CCraft.Net.Worker

/-!
# Receiving frames

`PosixTcpNetStackWorker::Recv` is a state machine with four states that is left
and entered again at arbitrary byte boundaries.  The embedding follows its
macros; the pool and the handshake, which `Recv` calls for messages that arrive
before the connection is up, are parameters.

The invariant {lit}`Receiving` relates the state of the machine to the frames
still to come: what the buffers hold, followed by what the socket still has to
serve, is always a list of whole frames.

Main results:

- Theorem {lit}`recvStep_receiving`: one round of the loop keeps the invariant,
  never fails and delivers at most the message it has completed.
- Theorem {lit}`recvCalls_delivers_completed`: any number of calls, over any way
  of serving the frames, delivers exactly the messages whose last byte has been
  read.
-/

namespace CCraft
namespace Net

open Common

/-! ## The receive loop -/

/-- The size of an `RcvMessage` object on the x86-64 ABI. -/
def sizeofRcvMessage : Nat := 104

/-- The handshake as `Recv` sees it. -/
abbrev Handshake := RcvMessage → Worker × Socket → Worker × Socket

/-- One round of the `while` loop: the state after it and the two locals that
decide whether there is another round. -/
structure RecvStep where
  worker : Worker
  sock : Socket
  rc : Bool
  interrupt : Bool

/-- The macro `CheckAndInitBufferPos`. -/
def checkAndInitBufferPos (b : Buffer) : Buffer :=
  if b.pos.isNone then b.setPos b.start else b

/-- The macro `ParseHeader`. -/
def parseHeader (w : Worker) (sock : Socket) : RecvStep :=
  if w.headerBuffer.availableLength = w.headerBuffer.totalLength then
    let (headerRc, header) := decodeMsgHeader w.headerBuffer w.header
    let w := { w with header := header }
    if headerRc then
      ⟨{ w with rcvState := .startToRcvPayload }, sock, true, false⟩
    else
      ⟨w.notifyWorkerBrokenMessage none, sock, false, false⟩
  else
    ⟨{ w with rcvState := .rcvingHeader }, sock, true, true⟩

/-- The last branch of both macros that run after a read: the call failed. -/
def readFailed (w : Worker) (sock : Socket) (err : Nat) : RecvStep :=
  if err ≠ eagain then ⟨w.notifyWorkerBrokenMessage (some err), sock, false, true⟩
  else ⟨w, sock, true, true⟩

/-- The macro `ProcessAfterRcvHeader` for a read into the header buffer at
`pos`. -/
def processAfterRcvHeader (w : Worker) (pos : Nat) (r : ReadResult × Socket) : RecvStep :=
  match r with
  | (.closed, sock) => ⟨w.notifyWorkerPeerClosedMessage, sock, false, false⟩
  | (.data bs, sock) =>
    let b := { w.headerBuffer with mem := Memory.write w.headerBuffer.mem pos bs }
    let b := (checkAndInitBufferPos b).moveTailBack bs.length
    parseHeader { w with headerBuffer := b } sock
  | (.failed err, sock) => readFailed w sock err

/-- `ANetStackMessageWorker::getNewRcvMessage`. -/
def getNewRcvMessage (P : MemSource) (w : Worker) (b : Buffer) : RcvMessage × Worker :=
  let rmMpo := P.get w.pool sizeofRcvMessage
  (⟨w.header, w.logicPeer, b, rmMpo.1.id⟩, { w with pool := rmMpo.2 })

/-- The macro `CheckPayload` for the payload buffer `b`. -/
def checkPayload (P : MemSource) (handshake : Handshake) (breakWhenRecvOne : Bool)
    (w : Worker) (b : Buffer) (sock : Socket) : RecvStep :=
  if uint32 b.availableLength = w.header.len then
    let w := { w with rcvState := .startToRcvHeader, payloadBuffer := some b }
    let (rcvMessage, w) := getNewRcvMessage P w b
    let (w, sock) :=
      if w.connState = .connected then (w.handleMessage (.message rcvMessage), sock)
      else handshake rcvMessage (w, sock)
    ⟨{ w with payloadBuffer := none }, sock, true, breakWhenRecvOne⟩
  else
    ⟨{ w with rcvState := .rcvingPayload, payloadBuffer := some b }, sock, true, true⟩

/-- The macro `ProcessAfterRcvPayload` for a read into the payload buffer `b` at
`pos`. -/
def processAfterRcvPayload (P : MemSource) (handshake : Handshake) (breakWhenRecvOne : Bool)
    (w : Worker) (b : Buffer) (pos : Nat) (r : ReadResult × Socket) : RecvStep :=
  match r with
  | (.closed, sock) =>
    ⟨({ w with payloadBuffer := some b } : Worker).notifyWorkerPeerClosedMessage, sock, false,
      false⟩
  | (.data bs, sock) =>
    let b := { b with mem := Memory.write b.mem pos bs }
    let b := (checkAndInitBufferPos b).moveTailBack bs.length
    checkPayload P handshake breakWhenRecvOne w b sock
  | (.failed err, sock) => readFailed { w with payloadBuffer := some b } sock err

/-- Where the next byte of a buffer goes: behind `last`, or to `start`. -/
def nextPos (b : Buffer) : Option Nat :=
  match b.last with
  | some l => some (l + 1)
  | none => b.start

/-- One round of `PosixTcpNetStackWorker::Recv`; {lit}`none` stands for the use of
a null pointer. -/
def recvStep (P : MemSource) (handshake : Handshake) (breakWhenRecvOne : Bool)
    (w : Worker) (sock : Socket) : Option RecvStep :=
  match w.rcvState with
  | .startToRcvHeader => do
    let b := w.headerBuffer.bZero
    let start ← b.start
    let r := sock.read (sizeT b.totalLength)
    some (processAfterRcvHeader { w with headerBuffer := b } start r)
  | .rcvingHeader => do
    let pos ← nextPos w.headerBuffer
    let r := sock.read w.headerBuffer.unusedSize
    some (processAfterRcvHeader w pos r)
  | .startToRcvPayload => do
    let mpo := P.get w.pool w.header.len
    let b := getNewBuffer mpo.1 w.header.len
    let start ← b.start
    let r := sock.read (sizeT b.totalLength)
    some (processAfterRcvPayload P handshake breakWhenRecvOne { w with pool := mpo.2 } b start r)
  | .rcvingPayload => do
    let b ← w.payloadBuffer
    let pos ← nextPos b
    let r := sock.read b.unusedSize
    some (processAfterRcvPayload P handshake breakWhenRecvOne w b pos r)

/-- The `while` loop of `Recv`, cut off after `fuel` rounds. -/
def recvLoop (P : MemSource) (handshake : Handshake) (breakWhenRecvOne : Bool) :
    Nat → Worker → Socket → Option (Bool × Worker × Socket)
  | 0, _, _ => none
  | fuel + 1, w, sock => do
    let r ← recvStep P handshake breakWhenRecvOne w sock
    if r.rc && !r.interrupt then
      recvLoop P handshake breakWhenRecvOne fuel r.worker r.sock
    else some (r.rc, r.worker, r.sock)

/-- `PosixTcpNetStackWorker::Recv`.  Every round takes one call off the script of
the socket, so the length of the script bounds the loop. -/
def recv (P : MemSource) (handshake : Handshake) (breakWhenRecvOne : Bool) (w : Worker)
    (sock : Socket) : Option (Bool × Worker × Socket) :=
  recvLoop P handshake breakWhenRecvOne (sock.reads.length + 1) w sock

/-- `n` calls of `Recv(false)` in a row: whether all of them answered true, and
the state after the last. -/
def recvCalls (P : MemSource) (handshake : Handshake) :
    Nat → Worker → Socket → Option (Bool × Worker × Socket)
  | 0, w, sock => some (true, w, sock)
  | n + 1, w, sock => do
    let (rc, w, sock) ← recv P handshake false w sock
    let (rcs, w, sock) ← recvCalls P handshake n w sock
    some (rc && rcs, w, sock)

/-! ## What a round can do -/

/-- The four kinds of rounds, each with the read it makes. -/
inductive RecvMove (P : MemSource) (handshake : Handshake) (breakWhenRecvOne : Bool) (w : Worker)
    (sock : Socket) : RecvStep → Prop
  | startHeader {start : Nat} (state : w.rcvState = .startToRcvHeader)
      (start_eq : w.headerBuffer.bZero.start = some start) :
      RecvMove P handshake breakWhenRecvOne w sock
        (processAfterRcvHeader { w with headerBuffer := w.headerBuffer.bZero } start
          (sock.read (sizeT w.headerBuffer.bZero.totalLength)))
  | inHeader {pos : Nat} (state : w.rcvState = .rcvingHeader)
      (pos_eq : nextPos w.headerBuffer = some pos) :
      RecvMove P handshake breakWhenRecvOne w sock
        (processAfterRcvHeader w pos (sock.read w.headerBuffer.unusedSize))
  | startPayload {start : Nat} (state : w.rcvState = .startToRcvPayload)
      (start_eq : (getNewBuffer (P.get w.pool w.header.len).1 w.header.len).start = some start) :
      RecvMove P handshake breakWhenRecvOne w sock
        (processAfterRcvPayload P handshake breakWhenRecvOne
          { w with pool := (P.get w.pool w.header.len).2 }
          (getNewBuffer (P.get w.pool w.header.len).1 w.header.len) start
          (sock.read
            (sizeT (getNewBuffer (P.get w.pool w.header.len).1 w.header.len).totalLength)))
  | inPayload {b : Buffer} {pos : Nat} (state : w.rcvState = .rcvingPayload)
      (buffer : w.payloadBuffer = some b) (pos_eq : nextPos b = some pos) :
      RecvMove P handshake breakWhenRecvOne w sock
        (processAfterRcvPayload P handshake breakWhenRecvOne w b pos (sock.read b.unusedSize))

theorem recvStep_eq_some {P : MemSource} {handshake : Handshake} {breakWhenRecvOne : Bool}
    {w : Worker} {sock : Socket} {r : RecvStep} :
    recvStep P handshake breakWhenRecvOne w sock = some r ↔
      RecvMove P handshake breakWhenRecvOne w sock r := by
  constructor
  · intro h
    unfold recvStep at h
    split at h
    · next hstate =>
        obtain ⟨start, hstart, hr⟩ := Option.bind_eq_some_iff.1 h
        cases hr
        exact .startHeader hstate hstart
    · next hstate =>
        obtain ⟨pos, hpos, hr⟩ := Option.bind_eq_some_iff.1 h
        cases hr
        exact .inHeader hstate hpos
    · next hstate =>
        obtain ⟨start, hstart, hr⟩ := Option.bind_eq_some_iff.1 h
        cases hr
        exact .startPayload hstate hstart
    · next hstate =>
        obtain ⟨b, hb, hr⟩ := Option.bind_eq_some_iff.1 h
        obtain ⟨pos, hpos, hr⟩ := Option.bind_eq_some_iff.1 hr
        cases hr
        exact .inPayload hstate hb hpos
  · intro h
    unfold recvStep
    cases h with
    | startHeader state start_eq | startPayload state start_eq =>
      rw [state]
      simp only [start_eq]
      rfl
    | inHeader state pos_eq =>
      rw [state]
      simp only [pos_eq]
      rfl
    | inPayload state buffer pos_eq =>
      rw [state]
      simp only [buffer, pos_eq, Option.bind_eq_bind, Option.bind_some]

/-! ## Reading from a socket that serves -/

/-- One call on a socket that serves: it would block and nothing moves, or it
gives the next bytes, at least one and at most as many as asked for. -/
theorem Socket.read_serves {s : Socket} {nbytes : Nat} (hn : 1 ≤ nbytes)
    (hserves : ∀ op ∈ s.reads, op.Serves) :
    ∃ s', s'.reads = s.reads.tail ∧
      ((s.read nbytes = (.failed eagain, s') ∧ s'.incoming = s.incoming) ∨
        ∃ new, s.read nbytes = (.data new, s') ∧ s.reads ≠ [] ∧ 1 ≤ new.length ∧
          new.length ≤ nbytes ∧ new ++ s'.incoming = s.incoming) := by
  cases hreads : s.reads with
  | nil => exact ⟨s, hreads, .inl ⟨by simp [Socket.read, hreads], rfl⟩⟩
  | cons op ops =>
    have hop : op.Serves := hserves op (by simp [hreads])
    refine ⟨(s.read nbytes).2, ?_, ?_⟩
    · cases op with
      | close => exact hop.elim
      | fail err => simp [Socket.read, hreads]
      | transfer n =>
        simp only [Socket.read, hreads, List.tail_cons]
        split_ifs <;> rfl
    · cases op with
      | close => exact hop.elim
      | fail err =>
        have herr : err = eagain := hop
        exact .inl ⟨by simp [Socket.read, hreads, herr], by simp [Socket.read, hreads]⟩
      | transfer n =>
        have hzero : nbytes ≠ 0 := by omega
        by_cases hin : s.incoming = []
        · exact .inl ⟨by simp [Socket.read, hreads, hzero, hin],
            by simp [Socket.read, hreads, hzero, hin]⟩
        · have hlen : 0 < s.incoming.length := List.length_pos_iff.mpr hin
          refine .inr ⟨s.incoming.take (min (max n 1) nbytes), ?_, by simp, ?_, ?_, ?_⟩
          on_goal 1 => simp [Socket.read, hreads, hzero, hin]
          on_goal 3 => simp [Socket.read, hreads, hzero, hin]
          all_goals
            rw [List.length_take]
            omega

/-! ## The invariant of the receive loop -/

/-- The bytes in the buffers of a worker, followed by those the socket has still to
serve, are the frames of the pending messages. -/
inductive Receiving (w : Worker) (incoming : List UInt8) : List SndMessage → Prop
  | startHeader {ms : List SndMessage} (state : w.rcvState = .startToRcvHeader)
      (stream : incoming = frames ms) : Receiving w incoming ms
  | inHeader {m : SndMessage} {ms : List SndMessage} {a : Nat} {got : List UInt8}
      (state : w.rcvState = .rcvingHeader) (filling : Filling w.headerBuffer a headerSize got)
      (short : got.length < headerSize) (stream : got ++ incoming = frames (m :: ms)) :
      Receiving w incoming (m :: ms)
  | startPayload {m : SndMessage} {ms : List SndMessage}
      (state : w.rcvState = .startToRcvPayload)
      (header : w.header = ⟨messageMagicNo, m.id, m.payload.length⟩)
      (stream : incoming = m.payload ++ frames ms) : Receiving w incoming (m :: ms)
  | inPayload {m : SndMessage} {ms : List SndMessage} {b : Buffer} {a : Nat}
      {got : List UInt8} (state : w.rcvState = .rcvingPayload)
      (header : w.header = ⟨messageMagicNo, m.id, m.payload.length⟩)
      (buffer : w.payloadBuffer = some b) (filling : Filling b a m.payload.length got)
      (short : got.length < m.payload.length)
      (stream : got ++ incoming = m.payload ++ frames ms) : Receiving w incoming (m :: ms)

/-- How far the reader is inside the frame of the first pending message. -/
theorem Receiving.position {w : Worker} {incoming : List UInt8} {ms : List SndMessage}
    (h : Receiving w incoming ms) (hall : ∀ m ∈ ms, m.Encodable) :
    ∃ k, incoming.length + k = (frames ms).length ∧
      ∀ p ps, ms = p :: ps → k < p.frame.length := by
  cases h with
  | startHeader state stream =>
    refine ⟨0, by simp [stream], ?_⟩
    rintro p ps rfl
    simp [headerSize]
  | inHeader state filling short stream =>
    rename_i m ms a got
    refine ⟨got.length, ?_, ?_⟩
    · rw [← stream, List.length_append]
      omega
    · rintro p ps ⟨⟩
      rw [SndMessage.length_frame]
      omega
  | startPayload state header stream =>
    rename_i m ms
    have hm := (hall m (by simp)).1
    refine ⟨headerSize, ?_, ?_⟩
    · simp only [stream, frames_cons, List.length_append, SndMessage.length_frame]
      omega
    · rintro p ps ⟨⟩
      rw [SndMessage.length_frame]
      omega
  | inPayload state header buffer filling short stream =>
    rename_i m ms b a got
    refine ⟨headerSize + got.length, ?_, ?_⟩
    · have hlen := congrArg List.length stream
      simp only [List.length_append] at hlen
      simp only [frames_cons, List.length_append, SndMessage.length_frame]
      omega
    · rintro p ps ⟨⟩
      rw [SndMessage.length_frame]
      omega

/-- A connected worker in the middle of receiving the frames of `pending` from a
socket that serves. -/
structure Session (w : Worker) (sock : Socket) (pending : List SndMessage) : Prop where
  connected : w.connState = .connected
  header_spans : ∃ a, Spans w.headerBuffer a headerSize
  encodable : ∀ m ∈ pending, m.Encodable
  serves : ∀ op ∈ sock.reads, op.Serves
  receiving : Receiving w sock.incoming pending

/-- Between the two states the worker has handed exactly the messages `ms` to its
callback. -/
def Delivered (w w' : Worker) (ms : List SndMessage) : Prop :=
  ∃ news, w'.notified = w.notified ++ news ∧
    news.map NotifyMessage.content = ms.map fun m => some (m.id, m.payload)

theorem Delivered.refl {w w' : Worker} (h : w'.notified = w.notified) : Delivered w w' [] :=
  ⟨[], by simp [h], rfl⟩

theorem Delivered.trans {w w' w'' : Worker} {ms ms' : List SndMessage}
    (h : Delivered w w' ms) (h' : Delivered w' w'' ms') : Delivered w w'' (ms ++ ms') := by
  obtain ⟨news, hn, hc⟩ := h
  obtain ⟨news', hn', hc'⟩ := h'
  exact ⟨news ++ news', by rw [hn', hn, List.append_assoc], by simp [hc, hc']⟩

/-! ## One round of the loop -/

/-- A round that ended well: it delivered the messages `done` and left a session for
the rest of the pending ones. -/
structure Advances (w : Worker) (pending : List SndMessage) (sock' : Socket) (r : RecvStep) :
    Prop where
  rc_eq : r.rc = true
  sock_eq : r.sock = sock'
  delivers : ∃ done rest, pending = done ++ rest ∧ Delivered w r.worker done ∧
    Session r.worker sock' rest

section Round

variable {P : MemSource} {handshake : Handshake} {w : Worker} {sock : Socket} {m : SndMessage}
  {ms pending : List SndMessage} {a : Nat} {got : List UInt8}

theorem readFailed_eagain : readFailed w sock eagain = ⟨w, sock, true, true⟩ := by
  simp [readFailed]

/-- A round that read nothing changes neither the position nor the deliveries. -/
theorem Session.advances_blocked {w₀ : Worker} (h : Session w sock pending)
    (hnotified : w.notified = w₀.notified) :
    Advances w₀ pending sock (readFailed w sock eagain) := by
  rw [readFailed_eagain]
  exact ⟨rfl, rfl, [], pending, rfl, Delivered.refl hnotified, h⟩

/-- The header bytes of a frame are exactly its first sixteen. -/
theorem headerBytes_of_stream {rest : List UInt8} (hlen : got.length = headerSize)
    (hstream : got ++ rest = frames (m :: ms)) :
    got = headerBytes m.id m.payload.length ∧ rest = m.payload ++ frames ms := by
  rw [frames_cons, SndMessage.frame, List.append_assoc] at hstream
  exact List.append_inj hstream (by rw [hlen, length_headerBytes])

/-- What `ParseHeader` does with a beginning of a frame: it waits for the rest of the header,
or goes on to the payload. -/
theorem parseHeader_filling (hm : m.Encodable) (hfill : Filling w.headerBuffer a headerSize got)
    (hstream : got ++ sock.incoming = frames (m :: ms)) :
    (got.length < headerSize ∧
      parseHeader w sock = ⟨{ w with rcvState := .rcvingHeader }, sock, true, true⟩) ∨
    (got.length = headerSize ∧ sock.incoming = m.payload ++ frames ms ∧
      parseHeader w sock =
        ⟨{ w with
            header := ⟨messageMagicNo, m.id, m.payload.length⟩
            rcvState := .startToRcvPayload }, sock, true, false⟩) := by
  have havail := hfill.availableLength_eq
  have htotal := hfill.toSpans.totalLength_eq
  by_cases hfull : got.length = headerSize
  · obtain ⟨hgot, hrest⟩ := headerBytes_of_stream hfull hstream
    have hdecode := decodeMsgHeader_filling w.header (hgot ▸ hfill) m.id_lt hm.2
    have heq : w.headerBuffer.availableLength = w.headerBuffer.totalLength := by
      rw [havail, htotal, hfull]
    refine .inr ⟨hfull, hrest, ?_⟩
    simp only [parseHeader, heq, if_true, hdecode]
  · have hne : w.headerBuffer.availableLength ≠ w.headerBuffer.totalLength := by
      rw [havail, htotal]
      omega
    refine .inl ⟨lt_of_le_of_ne hfill.fits hfull, ?_⟩
    simp only [parseHeader, hne, if_false]

/-- After bytes of a header have arrived, `ParseHeader` goes on with the header or
to the payload. -/
theorem parseHeader_advances {w₀ : Worker} (hnotified : w.notified = w₀.notified)
    (hconn : w.connState = .connected) (hall : ∀ x ∈ m :: ms, x.Encodable)
    (hserves : ∀ op ∈ sock.reads, op.Serves)
    (hfill : Filling w.headerBuffer a headerSize got)
    (hstream : got ++ sock.incoming = frames (m :: ms)) :
    Advances w₀ (m :: ms) sock (parseHeader w sock) := by
  rcases parseHeader_filling (hall m (by simp)) hfill hstream with
    ⟨hshort, hparse⟩ | ⟨-, hrest, hparse⟩
  · rw [hparse]
    refine ⟨rfl, rfl, [], m :: ms, rfl, Delivered.refl hnotified, ?_⟩
    exact ⟨hconn, ⟨a, hfill.toSpans⟩, hall, hserves, .inHeader rfl hfill hshort hstream⟩
  · rw [hparse]
    refine ⟨rfl, rfl, [], m :: ms, rfl, Delivered.refl hnotified, ?_⟩
    exact ⟨hconn, ⟨a, hfill.toSpans⟩, hall, hserves, .startPayload rfl rfl hrest⟩

theorem uint32_availableLength {b : Buffer} {n : Nat} (hfill : Filling b a n got)
    (hn : n < 2 ^ 32) : uint32 b.availableLength = got.length := by
  rw [hfill.availableLength_eq]
  exact uint32_natCast (lt_of_le_of_lt hfill.fits hn)

/-- After bytes of a payload have arrived, `CheckPayload` goes on with the payload
or delivers the message. -/
theorem checkPayload_advances {w₀ : Worker} {b : Buffer}
    (hnotified : w.notified = w₀.notified) (hconn : w.connState = .connected)
    (hspans : ∃ a, Spans w.headerBuffer a headerSize)
    (hall : ∀ x ∈ m :: ms, x.Encodable) (hserves : ∀ op ∈ sock.reads, op.Serves)
    (hheader : w.header = ⟨messageMagicNo, m.id, m.payload.length⟩)
    (hfill : Filling b a m.payload.length got)
    (hstream : got ++ sock.incoming = m.payload ++ frames ms) :
    Advances w₀ (m :: ms) sock (checkPayload P handshake false w b sock) := by
  have havail := uint32_availableLength hfill m.payload_lt
  have hlen : w.header.len = m.payload.length := by rw [hheader]
  have hfits := hfill.fits
  by_cases hfull : got.length = m.payload.length
  · obtain ⟨hgot, hrest⟩ := List.append_inj hstream hfull
    have hbytes : b.bytes = m.payload := by rw [hfill.bytes_eq, hgot]
    have hid : w.header.id = m.id := by rw [hheader]
    simp only [checkPayload, havail, hlen, hfull, if_true, getNewRcvMessage, hconn,
      Worker.handleMessage]
    refine ⟨rfl, rfl, [m], ms, rfl, ⟨_, by rw [hnotified], ?_⟩, ?_⟩
    · simp [NotifyMessage.content, hbytes, hid]
    · exact ⟨rfl, hspans, fun x hx => hall x (by simp [hx]), hserves, .startHeader rfl hrest⟩
  · have hshort : got.length < m.payload.length := by omega
    simp only [checkPayload, havail, hlen, hfull, if_false]
    refine ⟨rfl, rfl, [], m :: ms, rfl, Delivered.refl hnotified, ?_⟩
    exact ⟨hconn, hspans, hall, hserves, .inPayload rfl hheader rfl hfill hshort hstream⟩

/-- The first bytes read into an empty buffer. -/
theorem filling_of_empty {b : Buffer} {n : Nat} {new : List UInt8} (h : Spans b a n)
    (hpos : b.pos = none) (hlast : b.last = none) (hnew : 1 ≤ new.length)
    (hfit : new.length ≤ n) :
    Filling ((checkAndInitBufferPos { b with mem := Memory.write b.mem a new }).moveTailBack
      new.length) a n new := by
  rw [checkAndInitBufferPos, if_pos (by simp [hpos])]
  exact h.fill hlast hnew hfit

/-- More bytes read behind the ones that are there. -/
theorem filling_of_filling {b : Buffer} {n : Nat} {new : List UInt8} (h : Filling b a n got)
    (hfit : got.length + new.length ≤ n) :
    Filling ((checkAndInitBufferPos
      { b with mem := Memory.write b.mem (a + got.length) new }).moveTailBack
      new.length) a n (got ++ new) := by
  rw [checkAndInitBufferPos, if_neg (by simp [h.pos_eq])]
  exact h.append hfit

theorem nextPos_filling {b : Buffer} {n : Nat} (h : Filling b a n got) :
    nextPos b = some (a + got.length) := by
  have h1 := h.nonempty
  simp only [nextPos, h.last_eq, Option.some.injEq]
  omega

/-- The payload buffer that a header of an admissible length asks for. -/
theorem getNewBuffer_spans (P : MemSource) (v : MemView) {n : Nat} (h1 : 1 ≤ n)
    (h2 : n ≤ maxMsgPayloadSize) :
    Spans (getNewBuffer (P.get v n).1 n) (P.get v n).1.block.pointer n := by
  simp only [maxMsgPayloadSize] at h2
  exact ⟨rfl, rfl, h1, by omega⟩

/-- What a round has to establish, with the bookkeeping of the script. -/
def RoundOk (P : MemSource) (handshake : Handshake) (w : Worker) (sock : Socket)
    (pending : List SndMessage) : Prop :=
  ∃ r sock', recvStep P handshake false w sock = some r ∧ Advances w pending sock' r ∧
    sock'.incoming <:+ sock.incoming ∧ sock'.reads = sock.reads.tail ∧
    (sock.reads = [] → r.interrupt = true)

/-- A round is one read and what follows it, so it suffices to look at the two ways
the read can go. -/
theorem roundOk_of_read {nbytes : Nat} (after : ReadResult × Socket → RecvStep) {w' : Worker}
    (hstep : recvStep P handshake false w sock = some (after (sock.read nbytes)))
    (hn : 1 ≤ nbytes) (hserves : ∀ op ∈ sock.reads, op.Serves)
    (hfailed : ∀ sock' err, after (.failed err, sock') = readFailed w' sock' err)
    (hnotified : w'.notified = w.notified)
    (hblocked : ∀ sock' : Socket, (∀ op ∈ sock'.reads, op.Serves) →
      sock'.incoming = sock.incoming → Session w' sock' pending)
    (hdata : ∀ (sock' : Socket) (new : List UInt8), (∀ op ∈ sock'.reads, op.Serves) →
      1 ≤ new.length → new.length ≤ nbytes → new ++ sock'.incoming = sock.incoming →
      Advances w pending sock' (after (.data new, sock'))) :
    RoundOk P handshake w sock pending := by
  obtain ⟨sock', htail, hread⟩ := Socket.read_serves hn hserves
  have hserves' : ∀ op ∈ sock'.reads, op.Serves := fun op hop =>
    hserves op (List.mem_of_mem_tail (htail ▸ hop))
  refine ⟨_, sock', hstep, ?_⟩
  rcases hread with ⟨hread, hin⟩ | ⟨new, hread, hne, hnew, hfit, hsplit⟩
  · rw [hread, hfailed]
    refine ⟨Session.advances_blocked (hblocked sock' hserves' hin) hnotified, ?_, htail, ?_⟩
    · rw [hin]
    · intro _
      rw [readFailed_eagain]
  · rw [hread]
    exact ⟨hdata sock' new hserves' hnew hfit hsplit, ⟨new, hsplit⟩, htail,
      fun hnil => absurd hnil hne⟩

theorem recvStep_startHeader (h : Session w sock pending)
    (hstate : w.rcvState = .startToRcvHeader) (hstream : sock.incoming = frames pending) :
    RoundOk P handshake w sock pending := by
  obtain ⟨a, hspans⟩ := h.header_spans
  have hzero := hspans.bZero
  have htotal : sizeT w.headerBuffer.bZero.totalLength = headerSize := by
    rw [hzero.totalLength_eq, sizeT_natCast (by decide)]
  have hstep : recvStep P handshake false w sock = some (processAfterRcvHeader
      { w with headerBuffer := w.headerBuffer.bZero } a (sock.read headerSize)) := by
    rw [recvStep_eq_some.2 (.startHeader hstate hzero.start_eq), htotal]
  refine roundOk_of_read (processAfterRcvHeader _ a) hstep (by decide) h.serves
    (fun _ _ => rfl) rfl ?_ ?_
  · intro sock' hserves hin
    exact ⟨h.connected, ⟨a, hzero⟩, h.encodable, hserves,
      .startHeader hstate (hin.trans hstream)⟩
  · intro sock' new hserves hnew hfit hsplit
    cases pending with
    | nil =>
      have hempty : new ++ sock'.incoming = [] := hsplit.trans hstream
      simp only [List.append_eq_nil_iff] at hempty
      simp [hempty.1] at hnew
    | cons m ms =>
      exact parseHeader_advances rfl h.connected h.encodable hserves
        (filling_of_empty hzero rfl rfl hnew hfit) (hsplit.trans hstream)

theorem recvStep_inHeader (h : Session w sock (m :: ms)) (hstate : w.rcvState = .rcvingHeader)
    (hfill : Filling w.headerBuffer a headerSize got) (hshort : got.length < headerSize)
    (hstream : got ++ sock.incoming = frames (m :: ms)) :
    RoundOk P handshake w sock (m :: ms) := by
  have hstep : recvStep P handshake false w sock = some (processAfterRcvHeader w
      (a + got.length) (sock.read (headerSize - got.length))) := by
    rw [recvStep_eq_some.2 (.inHeader hstate (nextPos_filling hfill)), hfill.unusedSize_eq]
  refine roundOk_of_read (processAfterRcvHeader w (a + got.length)) hstep (by omega) h.serves
    (fun _ _ => rfl) rfl ?_ ?_
  · intro sock' hserves hin
    exact ⟨h.connected, h.header_spans, h.encodable, hserves,
      .inHeader hstate hfill hshort (by rw [hin, hstream])⟩
  · intro sock' new hserves hnew hfit hsplit
    exact parseHeader_advances rfl h.connected h.encodable hserves
      (filling_of_filling hfill (by omega)) (by rw [List.append_assoc, hsplit, hstream])

theorem recvStep_startPayload (h : Session w sock (m :: ms))
    (hstate : w.rcvState = .startToRcvPayload)
    (hheader : w.header = ⟨messageMagicNo, m.id, m.payload.length⟩)
    (hstream : sock.incoming = m.payload ++ frames ms) :
    RoundOk P handshake w sock (m :: ms) := by
  obtain ⟨hpos, hmax⟩ := h.encodable m (by simp)
  have hspans := getNewBuffer_spans P w.pool hpos hmax
  have hlen : w.header.len = m.payload.length := by rw [hheader]
  have htotal : sizeT (getNewBuffer (P.get w.pool m.payload.length).1
      m.payload.length).totalLength = m.payload.length := by
    rw [hspans.totalLength_eq, sizeT_natCast (by have := m.payload_lt; omega)]
  have hstep : recvStep P handshake false w sock = some (processAfterRcvPayload P handshake false
      { w with pool := (P.get w.pool m.payload.length).2 }
      (getNewBuffer (P.get w.pool m.payload.length).1 m.payload.length)
      (P.get w.pool m.payload.length).1.block.pointer (sock.read m.payload.length)) := by
    rw [← hlen] at hspans htotal ⊢
    rw [recvStep_eq_some.2 (.startPayload hstate hspans.start_eq), htotal]
  refine roundOk_of_read (processAfterRcvPayload P handshake false _ _ _) hstep hpos h.serves
    (fun _ _ => rfl) rfl ?_ ?_
  · intro sock' hserves hin
    exact ⟨h.connected, h.header_spans, h.encodable, hserves,
      .startPayload hstate hheader (hin.trans hstream)⟩
  · intro sock' new hserves hnew hfit hsplit
    exact checkPayload_advances rfl h.connected h.header_spans h.encodable hserves hheader
      (filling_of_empty hspans rfl rfl hnew hfit) (hsplit.trans hstream)

theorem recvStep_inPayload {b : Buffer} (h : Session w sock (m :: ms))
    (hstate : w.rcvState = .rcvingPayload)
    (hheader : w.header = ⟨messageMagicNo, m.id, m.payload.length⟩)
    (hbuffer : w.payloadBuffer = some b) (hfill : Filling b a m.payload.length got)
    (hshort : got.length < m.payload.length)
    (hstream : got ++ sock.incoming = m.payload ++ frames ms) :
    RoundOk P handshake w sock (m :: ms) := by
  have hstep : recvStep P handshake false w sock = some (processAfterRcvPayload P handshake false
      w b (a + got.length) (sock.read (m.payload.length - got.length))) := by
    rw [recvStep_eq_some.2 (.inPayload hstate hbuffer (nextPos_filling hfill)),
      hfill.unusedSize_eq]
  refine roundOk_of_read (processAfterRcvPayload P handshake false w b _) hstep (by omega)
    h.serves (fun _ _ => rfl) rfl ?_ ?_
  · intro sock' hserves hin
    exact ⟨h.connected, h.header_spans, h.encodable, hserves,
      .inPayload hstate hheader rfl hfill hshort (by rw [hin, hstream])⟩
  · intro sock' new hserves hnew hfit hsplit
    exact checkPayload_advances rfl h.connected h.header_spans h.encodable hserves hheader
      (filling_of_filling hfill (by omega)) (by rw [List.append_assoc, hsplit, hstream])

/-- Every round of `Recv` keeps a session going. -/
theorem recvStep_receiving (h : Session w sock pending) : RoundOk P handshake w sock pending := by
  cases h.receiving with
  | startHeader state stream => exact recvStep_startHeader h state stream
  | inHeader state filling short stream => exact recvStep_inHeader h state filling short stream
  | startPayload state header stream => exact recvStep_startPayload h state header stream
  | inPayload state header buffer filling short stream =>
    exact recvStep_inPayload h state header buffer filling short stream

end Round

/-! ## Whole calls and sequences of calls -/

section Calls

variable {P : MemSource} {handshake : Handshake} {w : Worker} {sock : Socket}
  {pending : List SndMessage}

/-- What calls of `Recv` have to establish. -/
def CallsOk (result : Option (Bool × Worker × Socket)) (w : Worker) (sock : Socket)
    (pending : List SndMessage) : Prop :=
  ∃ w' sock' done rest, result = some (true, w', sock') ∧ pending = done ++ rest ∧
    Delivered w w' done ∧ sock'.incoming <:+ sock.incoming ∧ Session w' sock' rest

/-- The loop ends by itself when it has a round for each entry of the script and
one more. -/
theorem recvLoop_session {fuel : Nat} (h : Session w sock pending)
    (hfuel : sock.reads.length < fuel) :
    CallsOk (recvLoop P handshake false fuel w sock) w sock pending := by
  induction fuel generalizing w sock pending with
  | zero => omega
  | succ fuel ih =>
    have hround : RoundOk P handshake w sock pending := recvStep_receiving h
    obtain ⟨r, sock', hstep, hadv, hsuffix, htail, hlast⟩ := hround
    obtain ⟨done, rest, hpending, hdelivered, hsession⟩ := hadv.delivers
    rw [recvLoop, hstep, Option.bind_eq_bind, Option.bind_some, hadv.rc_eq, hadv.sock_eq]
    by_cases hint : r.interrupt = true
    · simp only [hint, Bool.not_true, Bool.and_false, Bool.false_eq_true, if_false]
      exact ⟨r.worker, sock', done, rest, rfl, hpending, hdelivered, hsuffix, hsession⟩
    · have hreads : sock.reads ≠ [] := fun hnil => hint (hlast hnil)
      have hlen : sock'.reads.length < fuel := by
        have := List.length_pos_iff.mpr hreads
        rw [htail, List.length_tail]
        omega
      obtain ⟨w'', sock'', done', rest', hloop, hrest, hdelivered', hsuffix', hsession'⟩ :=
        ih hsession hlen
      simp only [Bool.not_eq_true] at hint
      simp only [hint, Bool.not_false, Bool.and_self, if_true]
      refine ⟨w'', sock'', done ++ done', rest', hloop, ?_, hdelivered.trans hdelivered',
        hsuffix'.trans hsuffix, hsession'⟩
      rw [hpending, hrest, List.append_assoc]

/-- One call of `Recv(false)` keeps a session going. -/
theorem recv_session (h : Session w sock pending) :
    CallsOk (recv P handshake false w sock) w sock pending :=
  recvLoop_session h (Nat.lt_succ_self _)

/-- So does any number of calls. -/
theorem recvCalls_session (n : Nat) (h : Session w sock pending) :
    CallsOk (recvCalls P handshake n w sock) w sock pending := by
  induction n generalizing w sock pending with
  | zero =>
    exact ⟨w, sock, [], pending, rfl, rfl, Delivered.refl rfl, List.suffix_rfl, h⟩
  | succ n ih =>
    have hone : CallsOk (recv P handshake false w sock) w sock pending := recv_session h
    obtain ⟨w', sock', done, rest, hcall, hpending, hdelivered, hsuffix, hsession⟩ := hone
    obtain ⟨w'', sock'', done', rest', hcalls, hrest, hdelivered', hsuffix', hsession'⟩ :=
      ih hsession
    refine ⟨w'', sock'', done ++ done', rest', ?_, ?_, hdelivered.trans hdelivered',
      hsuffix'.trans hsuffix, hsession'⟩
    · simp only [recvCalls, hcall, Option.bind_eq_bind, Option.bind_some, hcalls,
        Bool.and_self]
    · rw [hpending, hrest, List.append_assoc]

/-- A connected worker between two messages. -/
structure Worker.AwaitsFrame (w : Worker) : Prop where
  connected : w.connState = .connected
  state : w.rcvState = .startToRcvHeader
  header_spans : ∃ a, Spans w.headerBuffer a headerSize

/-- The constructor leaves a worker that only has to be connected. -/
theorem Worker.create_awaitsFrame (P : MemSource) (logicPeer realPeer : NetPeerInfo) :
    ({ Worker.create P logicPeer realPeer with connState := .connected } :
      Worker).AwaitsFrame :=
  ⟨rfl, rfl, _, rfl, rfl, by decide, by decide⟩

/-- The messages that the first `n` bytes of a stream complete, counted at any
point of a session. -/
theorem Session.wholeIn_eq {done rest : List SndMessage} {read : List UInt8}
    (h : Session w sock rest) (hstream : read ++ sock.incoming = frames (done ++ rest)) :
    Framing.wholeIn SndMessage.frame (done ++ rest) read.length = done := by
  obtain ⟨k, hk, hnext⟩ := h.receiving.position h.encodable
  refine Framing.wholeIn_eq (k := k) ?_ hnext
  have hlen := congrArg List.length hstream
  simp only [frames, List.length_append, List.flatMap_append] at hlen hk
  omega

/-- However the socket serves the encodings of a list of messages, a sequence of
calls `Recv(false)` answers true every time and delivers exactly the messages
whose last byte has been read, in order; when everything has been read it has
delivered them all. -/
theorem recvCalls_delivers_completed (P P' : MemSource) (view : SndMessage → MemView)
    (handshake : Handshake) (msgs : List SndMessage) (hmsgs : ∀ m ∈ msgs, m.Encodable)
    (w : Worker) (hw : w.AwaitsFrame) (sock : Socket)
    (hstream : sock.incoming = msgs.flatMap fun m => m.encodedBytes P' (view m))
    (hserves : ∀ op ∈ sock.reads, op.Serves) (n : Nat) :
    ∃ w' sock' read, recvCalls P handshake n w sock = some (true, w', sock') ∧
      sock.incoming = read ++ sock'.incoming ∧
      Delivered w w'
        (Framing.wholeIn (fun m => m.encodedBytes P' (view m)) msgs read.length) ∧
      (sock'.incoming = [] → Delivered w w' msgs) := by
  have henc : ∀ m ∈ msgs, m.encodedBytes P' (view m) = m.frame := fun m hm =>
    SndMessage.encodedBytes_eq P' (view m) (hmsgs m hm)
  have hframes : sock.incoming = frames msgs :=
    hstream.trans (flatMap_encodedBytes P' view hmsgs)
  have hsession : Session w sock msgs :=
    ⟨hw.connected, hw.header_spans, hmsgs, hserves, .startHeader hw.state hframes⟩
  have hok : CallsOk (recvCalls P handshake n w sock) w sock msgs :=
    recvCalls_session n hsession
  obtain ⟨w', sock', done, rest, hcalls, rfl, hdelivered, ⟨read, hread⟩, hsession'⟩ := hok
  have hwhole := hsession'.wholeIn_eq (hread.trans hframes)
  refine ⟨w', sock', read, hcalls, hread.symm, ?_, ?_⟩
  · rw [Framing.wholeIn_congr henc, hwhole]
    exact hdelivered
  intro hempty
  have hall : read.length = (frames (done ++ rest)).length := by
    rw [← hframes, ← hread, hempty, List.append_nil]
  rw [hall, frames, Framing.wholeIn_length] at hwhole
  rw [hwhole]
  exact hdelivered

/-- Two messages served in pieces, with calls that would block in between. -/
theorem recvCalls_delivers_two_in_pieces :
    let P : MemSource := pagePool
    let peer : NetPeerInfo := ⟨⟨"localhost", 80⟩, .tcp⟩
    let msgs : List SndMessage := [⟨1, [7, 8, 9], peer, by decide, by decide⟩,
      ⟨2, [10], peer, by decide, by decide⟩]
    let w : Worker := { Worker.create P peer peer with connState := .connected }
    let sock : Socket := ⟨msgs.flatMap fun m => m.encodedBytes P ⟨0, []⟩,
      [.transfer 5, .fail eagain, .transfer 11, .transfer 2, .fail eagain, .transfer 9], [], []⟩
    ∃ w' sock' read, recvCalls P (fun _ s => s) 4 w sock = some (true, w', sock') ∧
      sock.incoming = read ++ sock'.incoming ∧
      Delivered w w' (Framing.wholeIn (fun m => m.encodedBytes P ⟨0, []⟩) msgs read.length) ∧
      (sock'.incoming = [] → Delivered w w' msgs) := by
  intro P peer msgs w sock
  have hmsgs : ∀ m ∈ msgs, m.Encodable := by
    simp [msgs, SndMessage.Encodable, maxMsgPayloadSize]
  have hserves : ∀ op ∈ sock.reads, op.Serves := by
    simp [sock, IoOp.Serves]
  exact recvCalls_delivers_completed P P (fun _ => ⟨0, []⟩) _ msgs hmsgs w
    (Worker.create_awaitsFrame P peer peer) sock (by simp only [sock]) hserves 4

end Calls

end Net
end CCraft
