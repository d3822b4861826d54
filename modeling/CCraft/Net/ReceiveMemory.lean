import CCraft.Lib.Run
import CCraft.Net.Recv
import CCraft.Net.Send

/-!
# The memory of received messages

A received message consists of two pool objects: its payload, which `Recv` obtains, and the
`RcvMessage`, which `getNewRcvMessage` obtains.  The message is handed to the callback inside a
`MessageNotifyMessage`, whose destructor is to give both objects back.

The rounds of `Recv` and the destructors of the notifications alternate in any order.

Main results:

- Theorem {lit}`recvStep_memory`: what a round obtains, and where it leaves it.
- Theorem {lit}`receive_memory_iff`: while a stream of messages is received, the objects that are
  out are those of the living notifications and of the payload under way exactly as long as no
  notification is destroyed and no payload is started twice.
-/

namespace CCraft
namespace Net

open Common Runs

/-! ## Notifications and their release -/

/-- `ANetStackMessageWorker::releaseRcvMessage`, which is `~RcvMessage`. -/
def releaseRcvMessage (rm : RcvMessage) (pool : MemView) : MemView :=
  putBuffer (pool.put rm.refMpo) rm.buffer

/-- `MessageNotifyMessage`. -/
structure MessageNotifyMessage where
  ref : RcvMessage
  releaseHandle : Option (RcvMessage → MemView → MemView)

namespace MessageNotifyMessage

/-- The constructor, which does not store its second argument. -/
def new (rm : RcvMessage) (_releaseHandle : RcvMessage → MemView → MemView) :
    MessageNotifyMessage :=
  ⟨rm, none⟩

/-- The destructor. -/
def destroy (m : MessageNotifyMessage) (pool : MemView) : MemView :=
  match m.releaseHandle with
  | some release => release m.ref pool
  | none => pool

/-- The pool objects of the message: its payload and the `RcvMessage`. -/
def objects (m : MessageNotifyMessage) : List Nat :=
  m.ref.buffer.mpObject.toList ++ [m.ref.refMpo]

end MessageNotifyMessage

/-- The notification objects that `CheckPayload` has made between two states. -/
def delivered (w w' : Worker) : List MessageNotifyMessage :=
  (w'.notified.drop w.notified.length).filterMap fun
    | .message rm => some (.new rm releaseRcvMessage)
    | .worker _ _ _ => none

/-- A worker with its socket and the notifications that are not destroyed yet. -/
structure Receiver where
  worker : Worker
  sock : Socket
  alive : List MessageNotifyMessage

def Receiver.start (w : Worker) (sock : Socket) : Receiver :=
  ⟨w, sock, []⟩

/-- A round of `Recv`, or the end of a notification. -/
inductive MemoryLabel where
  | round
  | destroy (i : Nat)
deriving DecidableEq, Repr

def memoryStep (P : MemSource) (handshake : Handshake) (s : Receiver) :
    MemoryLabel → Option Receiver
  | .round =>
    (recvStep P handshake false s.worker s.sock).map fun r =>
      ⟨r.worker, r.sock, s.alive ++ delivered s.worker r.worker⟩
  | .destroy i =>
    s.alive[i]?.map fun m =>
      { s with
        worker := { s.worker with pool := m.destroy s.worker.pool }
        alive := s.alive.eraseIdx i }

/-- The object of the payload under way. -/
def Receiver.payloadObject (s : Receiver) : List Nat :=
  (s.worker.payloadBuffer.bind Buffer.mpObject).toList

/-- Besides those in `base`, the objects that are out are the two of every living notification
and the one of the payload under way. -/
def Accounted (base : List Nat) (s : Receiver) : Prop :=
  s.worker.pool.out.Perm
    (base ++ s.alive.flatMap MessageNotifyMessage.objects ++ s.payloadObject)

/-- No notification is destroyed, and a payload is started only while none is under way. -/
def KeepsMemory (s : Receiver) : MemoryLabel → Prop
  | .round => (s.worker.rcvState == .startToRcvPayload && s.worker.payloadBuffer.isSome) = false
  | .destroy _ => False

instance (s : Receiver) : ∀ a, Decidable (KeepsMemory s a)
  | .round => inferInstanceAs (Decidable (_ = false))
  | .destroy _ => isFalse id

/-! ## One round -/

section Round

variable {P : MemSource} {handshake : Handshake} {w : Worker} {sock : Socket} {b : Buffer}
  {id pos : Nat} {r : RecvStep}

@[simp]
theorem checkAvailable_mpObject (b : Buffer) : b.checkAvailable.mpObject = b.mpObject := by
  unfold Buffer.checkAvailable
  split <;> rfl

@[simp]
theorem checkAndInitBufferPos_mpObject (b : Buffer) :
    (checkAndInitBufferPos b).mpObject = b.mpObject := by
  unfold checkAndInitBufferPos
  split_ifs
  · simp [Buffer.setPos]
  · rfl

@[simp]
theorem moveTailBack_mpObject (b : Buffer) (n : Nat) :
    (b.moveTailBack n).mpObject = b.mpObject := by
  unfold Buffer.moveTailBack
  split
  · rfl
  · simp

theorem delivered_self {w' : Worker} (h : w'.notified = w.notified) : delivered w w' = [] := by
  simp [delivered, h]

theorem delivered_worker {w' : Worker} {code : WorkerNotifyMessageCode} {peer : NetPeerInfo}
    {what : WorkerWhat} (h : w'.notified = w.notified ++ [.worker code peer what]) :
    delivered w w' = [] := by
  simp [delivered, h]

theorem delivered_message {w' : Worker} {rm : RcvMessage}
    (h : w'.notified = w.notified ++ [.message rm]) :
    delivered w w' = [.new rm releaseRcvMessage] := by
  simp [delivered, h]

theorem delivered_releaseHandle {w' : Worker} {m : MessageNotifyMessage}
    (h : m ∈ delivered w w') : m.releaseHandle = none := by
  obtain ⟨n, -, hm⟩ := List.mem_filterMap.1 h
  cases n with
  | message rm =>
    cases hm
    rfl
  | worker code peer what => cases hm

/-- The payload buffer is there exactly when there is an object, and has that object. -/
def HoldsObject (w : Worker) (object : Option Nat) : Prop :=
  w.payloadBuffer.map Buffer.mpObject = object.map some

/-- What a round leaves of the pool and the payload object that it works with: the payload stays
under way, or it becomes part of a message. -/
inductive RoundMemory (w : Worker) (pool : MemView) (object : Option Nat) (w' : Worker) : Prop
  | keeps (out : w'.pool = pool) (held : HoldsObject w' object) (none_new : delivered w w' = [])
  | delivers {m : MessageNotifyMessage} (out : w'.pool = ⟨pool.gets + 1, pool.out ++ [pool.gets]⟩)
      (done : w'.payloadBuffer = none) (new : delivered w w' = [m])
      (objects : m.objects = object.toList ++ [pool.gets])

theorem readFailed_memory (w₀ : Worker) {object : Option Nat} (sock : Socket) (err : Nat)
    (hnotified : w.notified = w₀.notified) (hheld : HoldsObject w object) :
    RoundMemory w₀ w.pool object (readFailed w sock err).worker ∧
      (readFailed w sock err).worker.connState = w.connState := by
  unfold readFailed
  split_ifs
  · exact ⟨.keeps rfl hheld (delivered_worker (by rw [← hnotified]; rfl)), rfl⟩
  · exact ⟨.keeps rfl hheld (delivered_self hnotified), rfl⟩

/-- A round in the header leaves the pool and the payload alone. -/
theorem processAfterRcvHeader_memory (w₀ : Worker) {object : Option Nat} (pos : Nat)
    (read : ReadResult × Socket) (hnotified : w.notified = w₀.notified)
    (hheld : HoldsObject w object) :
    RoundMemory w₀ w.pool object (processAfterRcvHeader w pos read).worker ∧
      (processAfterRcvHeader w pos read).worker.connState = w.connState := by
  obtain ⟨result, sock⟩ := read
  cases result with
  | closed => exact ⟨.keeps rfl hheld (delivered_worker (by rw [← hnotified]; rfl)), rfl⟩
  | failed err => exact readFailed_memory w₀ sock err hnotified hheld
  | data bs =>
    simp only [processAfterRcvHeader, parseHeader]
    split_ifs
    · exact ⟨.keeps rfl hheld (delivered_self hnotified), rfl⟩
    · exact ⟨.keeps rfl hheld (delivered_worker (by rw [← hnotified]; rfl)), rfl⟩
    · exact ⟨.keeps rfl hheld (delivered_self hnotified), rfl⟩

/-- A round in the payload keeps the buffer, or makes a message of it. -/
theorem processAfterRcvPayload_memory (w₀ : Worker) {read : ReadResult × Socket}
    (hconn : w.connState = .connected) (hnotified : w.notified = w₀.notified)
    (hobject : b.mpObject = some id) :
    RoundMemory w₀ w.pool (some id)
        (processAfterRcvPayload P handshake false w b pos read).worker ∧
      (processAfterRcvPayload P handshake false w b pos read).worker.connState = .connected := by
  obtain ⟨result, sock⟩ := read
  have hheld : ∀ b' : Buffer, b'.mpObject = b.mpObject →
      HoldsObject { w with payloadBuffer := some b' } (some id) := by
    intro b' hb'
    simp [HoldsObject, hb', hobject]
  cases result with
  | closed =>
    exact ⟨.keeps rfl (hheld b rfl) (delivered_worker (by rw [← hnotified]; rfl)), hconn⟩
  | failed err =>
    obtain ⟨hmemory, hstate⟩ := readFailed_memory (w := { w with payloadBuffer := some b }) w₀
      sock err hnotified (hheld b rfl)
    exact ⟨hmemory, hstate.trans hconn⟩
  | data bs =>
    simp only [processAfterRcvPayload, checkPayload, getNewRcvMessage, hconn, if_true]
    split_ifs
    · refine ⟨.delivers rfl rfl (delivered_message (by rw [← hnotified]; rfl)) ?_, rfl⟩
      simp [MessageNotifyMessage.objects, MessageNotifyMessage.new, MemSource.get, hobject]
    · exact ⟨.keeps rfl (hheld _ (by simp)) (delivered_self hnotified), rfl⟩

/-- A round that starts a payload obtains an object for it and forgets the buffer that was
there; every other round goes on with what it finds. -/
theorem recvStep_memory {object : Option Nat} (hconn : w.connState = .connected)
    (hheld : HoldsObject w object) (hstep : recvStep P handshake false w sock = some r) :
    r.worker.connState = .connected ∧
      if w.rcvState = .startToRcvPayload then
        RoundMemory w ⟨w.pool.gets + 1, w.pool.out ++ [w.pool.gets]⟩ (some w.pool.gets) r.worker
      else RoundMemory w w.pool object r.worker := by
  cases recvStep_eq_some.1 hstep with
  | startHeader state start_eq =>
    rw [if_neg (by simp [state])]
    obtain ⟨hmemory, hkept⟩ := processAfterRcvHeader_memory
      (w := { w with headerBuffer := w.headerBuffer.bZero }) w _
      (sock.read (sizeT w.headerBuffer.bZero.totalLength)) rfl hheld
    exact ⟨hkept.trans hconn, hmemory⟩
  | inHeader state pos_eq =>
    rw [if_neg (by simp [state])]
    obtain ⟨hmemory, hkept⟩ := processAfterRcvHeader_memory w _
      (sock.read w.headerBuffer.unusedSize) rfl hheld
    exact ⟨hkept.trans hconn, hmemory⟩
  | startPayload state start_eq =>
    rw [if_pos state]
    have hobject : (getNewBuffer (P.get w.pool w.header.len).1 w.header.len).mpObject =
        some w.pool.gets := by
      simp [getNewBuffer, Buffer.refresh, MemSource.get]
    exact (processAfterRcvPayload_memory (w := { w with pool := (P.get w.pool w.header.len).2 })
      w hconn rfl hobject).symm
  | inPayload state buffer pos_eq =>
    rw [if_neg (by simp [state])]
    cases object with
    | none => simp [HoldsObject, buffer] at hheld
    | some id =>
      exact (processAfterRcvPayload_memory w hconn rfl
        (by simpa [HoldsObject, buffer] using hheld)).symm

end Round

/-! ## Whole runs -/

section Runs

variable {P : MemSource} {handshake : Handshake} {s s' : Receiver} {a : MemoryLabel}
  {base : List Nat} {object : Option Nat} {pending : List SndMessage}

theorem HoldsObject.payloadObject_eq (h : HoldsObject s.worker object) :
    s.payloadObject = object.toList := by
  unfold HoldsObject at h
  unfold Receiver.payloadObject
  cases hbuffer : s.worker.payloadBuffer <;> cases object <;> simp_all

/-- A connected worker whose memory is accounted for, and notifications that have no handle to
release anything with. -/
structure MemoryInv (base : List Nat) (s : Receiver) : Prop where
  connected : s.worker.connState = .connected
  handles : ∀ m ∈ s.alive, m.releaseHandle = none
  held : ∃ object, HoldsObject s.worker object
  accounted : Accounted base s

/-- A round that goes on with what is accounted for leaves everything accounted for. -/
theorem RoundMemory.accounted {w' : Worker} {sock' : Socket} {pool : MemView}
    (h : RoundMemory s.worker pool object w')
    (hpool : pool.out.Perm
      (base ++ s.alive.flatMap MessageNotifyMessage.objects ++ object.toList)) :
    (∃ object', HoldsObject w' object') ∧
      Accounted base ⟨w', sock', s.alive ++ delivered s.worker w'⟩ := by
  cases h with
  | keeps out held none_new =>
    refine ⟨⟨object, held⟩, ?_⟩
    unfold Accounted
    rw [HoldsObject.payloadObject_eq (s := ⟨w', sock', _⟩) held, none_new, List.append_nil]
    simp only [out]
    exact hpool
  | delivers out done new objects =>
    refine ⟨⟨none, by simp [HoldsObject, done]⟩, ?_⟩
    have hnone : HoldsObject w' none := by simp [HoldsObject, done]
    unfold Accounted
    rw [HoldsObject.payloadObject_eq (s := ⟨w', sock', _⟩) hnone, new]
    simp only [out, List.flatMap_append, List.flatMap_cons, List.flatMap_nil, objects,
      Option.toList_none, List.append_nil]
    simpa only [List.append_assoc] using hpool.append_right [pool.gets]

/-- A round that works with one object more than is accounted for leaves one too many. -/
theorem RoundMemory.not_accounted {w' : Worker} {sock' : Socket} {pool : MemView}
    (h : RoundMemory s.worker pool object w')
    (hpool : pool.out.length = (base ++ s.alive.flatMap MessageNotifyMessage.objects ++
      object.toList).length + 1) :
    ¬ Accounted base ⟨w', sock', s.alive ++ delivered s.worker w'⟩ := by
  intro haccounted
  have hlength := haccounted.length_eq
  cases h with
  | keeps out held none_new =>
    rw [HoldsObject.payloadObject_eq (s := ⟨w', sock', _⟩) held, none_new,
      List.append_nil] at hlength
    simp only [out] at hlength
    omega
  | delivers out done new objects =>
    have hnone : HoldsObject w' none := by simp [HoldsObject, done]
    rw [HoldsObject.payloadObject_eq (s := ⟨w', sock', _⟩) hnone, new] at hlength
    simp only [out, List.flatMap_append, List.flatMap_cons, List.flatMap_nil, objects,
      Option.toList_none, List.append_nil, List.length_append, List.length_cons,
      List.length_nil] at hlength hpool
    omega

/-- A step that meets the condition leaves everything accounted for. -/
theorem memoryStep_inv (h : MemoryInv base s) (hkeeps : KeepsMemory s a)
    (hstep : memoryStep P handshake s a = some s') : MemoryInv base s' := by
  cases a with
  | destroy i => exact hkeeps.elim
  | round =>
    obtain ⟨r, hround, rfl⟩ := Option.map_eq_some_iff.1 hstep
    obtain ⟨object, hheld⟩ := h.held
    obtain ⟨hconn, hmemory⟩ := recvStep_memory h.connected hheld hround
    have hhandles : ∀ m ∈ s.alive ++ delivered s.worker r.worker, m.releaseHandle = none := by
      intro m hm
      rcases List.mem_append.1 hm with hm | hm
      · exact h.handles m hm
      · exact delivered_releaseHandle hm
    have haccounted := h.accounted
    unfold Accounted at haccounted
    rw [hheld.payloadObject_eq] at haccounted
    split_ifs at hmemory with hstate
    · have hnone : object = none := by
        simp only [KeepsMemory, hstate, beq_self_eq_true, Bool.true_and,
          Option.isSome_eq_false_iff, Option.isNone_iff_eq_none] at hkeeps
        simpa [HoldsObject, hkeeps] using hheld
      subst hnone
      obtain ⟨hheld', haccounted'⟩ := hmemory.accounted (by
        simpa using haccounted.append_right [s.worker.pool.gets])
      exact ⟨hconn, hhandles, hheld', haccounted'⟩
    · obtain ⟨hheld', haccounted'⟩ := hmemory.accounted haccounted
      exact ⟨hconn, hhandles, hheld', haccounted'⟩

/-- A step that does not meet it leaves an object behind that nobody gives back. -/
theorem memoryStep_leaks (h : MemoryInv base s) (hkeeps : ¬ KeepsMemory s a)
    (hstep : memoryStep P handshake s a = some s') : ¬ Accounted base s' := by
  obtain ⟨object, hheld⟩ := h.held
  have haccounted := h.accounted
  unfold Accounted at haccounted
  cases a with
  | destroy i =>
    obtain ⟨m, hm, rfl⟩ := Option.map_eq_some_iff.1 hstep
    obtain ⟨hi, hget⟩ := List.getElem?_eq_some_iff.1 hm
    have hkept : m.destroy s.worker.pool = s.worker.pool := by
      rw [MessageNotifyMessage.destroy, h.handles m (List.mem_of_getElem? hm)]
    intro haccounted'
    have hlength := haccounted.length_eq
    have hlength' := haccounted'.length_eq
    -- the list of the living is shorter by a message with at least one object
    have hperm : s.alive.Perm (m :: s.alive.eraseIdx i) := by
      rw [← hget]
      exact (List.getElem_cons_eraseIdx_perm hi).symm
    have hobjects := (hperm.flatMap_right MessageNotifyMessage.objects).length_eq
    simp only [Receiver.payloadObject, hkept, List.length_append, List.flatMap_cons,
      MessageNotifyMessage.objects, List.length_cons, List.length_nil]
      at hlength hlength' hobjects
    omega
  | round =>
    obtain ⟨r, hround, rfl⟩ := Option.map_eq_some_iff.1 hstep
    simp only [KeepsMemory, Bool.not_eq_false, Bool.and_eq_true, beq_iff_eq] at hkeeps
    obtain ⟨hstate, hsome⟩ := hkeeps
    obtain ⟨-, hmemory⟩ := recvStep_memory h.connected hheld hround
    rw [if_pos hstate] at hmemory
    refine hmemory.not_accounted ?_
    have hlength := haccounted.length_eq
    rw [hheld.payloadObject_eq] at hlength
    cases object with
    | none => simp_all [HoldsObject]
    | some id =>
      simp only [List.length_append, Option.toList_some, List.length_cons,
        List.length_nil] at hlength ⊢
      omega

/-- A step that is possible while a stream is received goes on with the stream: destroying a
notification does not concern it. -/
theorem memoryStep_session (h : Session s.worker s.sock pending)
    (hstep : memoryStep P handshake s a = some s') :
    ∃ done rest, pending = done ++ rest ∧ Delivered s.worker s'.worker done ∧
      Session s'.worker s'.sock rest := by
  cases a with
  | destroy i =>
    obtain ⟨m, -, rfl⟩ := Option.map_eq_some_iff.1 hstep
    refine ⟨[], pending, rfl, Delivered.refl rfl, ?_⟩
    exact ⟨h.connected, h.header_spans, h.encodable, h.serves, by
      cases h.receiving with
      | startHeader state stream => exact .startHeader state stream
      | inHeader state filling short stream => exact .inHeader state filling short stream
      | startPayload state header stream => exact .startPayload state header stream
      | inPayload state header buffer filling short stream =>
        exact .inPayload state header buffer filling short stream⟩
  | round =>
    have hround : RoundOk P handshake s.worker s.sock pending := recvStep_receiving h
    obtain ⟨r, sock', hr, hadv, -, -, -⟩ := hround
    obtain ⟨done, rest, hpending, hdelivered, hsession⟩ := hadv.delivers
    simp only [memoryStep, hr, Option.map_some, Option.some.injEq] at hstep
    subst hstep
    exact ⟨done, rest, hpending, hdelivered, hadv.sock_eq ▸ hsession⟩

/-- So does a whole run. -/
theorem run_session {labels : List MemoryLabel} (h : Session s.worker s.sock pending)
    (hrun : run (memoryStep P handshake) s labels = some s') :
    ∃ done rest, pending = done ++ rest ∧ Delivered s.worker s'.worker done ∧
      Session s'.worker s'.sock rest := by
  induction labels generalizing s pending with
  | nil =>
    cases hrun
    exact ⟨[], pending, rfl, Delivered.refl rfl, h⟩
  | cons a labels ih =>
    obtain ⟨u, hstep, hrest⟩ := run_cons_eq_some.1 hrun
    obtain ⟨done, rest, rfl, hdelivered, hsession⟩ := memoryStep_session h hstep
    obtain ⟨done', rest', rfl, hdelivered', hsession'⟩ := ih hsession hrest
    exact ⟨done ++ done', rest', by rw [List.append_assoc], hdelivered.trans hdelivered',
      hsession'⟩

/-- While the frames of a list of messages are received, served in any pieces and with calls
that would block in between, the objects that are out are exactly those of the living
notifications and of the payload under way as long as no notification is destroyed and no round
starts a payload while one is under way; and the first step that does either of them leaves an
object that is in nobody's hands. -/
theorem receive_memory_iff (P : MemSource) (handshake : Handshake) (msgs : List SndMessage)
    (hmsgs : ∀ m ∈ msgs, m.Encodable) (w : Worker) (hw : w.AwaitsFrame)
    (hidle : w.payloadBuffer = none) (sock : Socket) (hstream : sock.incoming = frames msgs)
    (hserves : ∀ op ∈ sock.reads, op.Serves) (labels : List MemoryLabel) (t : Receiver)
    (hrun : run (memoryStep P handshake) (.start w sock) labels = some t) :
    (∃ done rest, msgs = done ++ rest ∧ Delivered w t.worker done ∧
      Session t.worker t.sock rest) ∧
    (Always (memoryStep P handshake) (Accounted w.pool.out) (.start w sock) labels ↔
      Guarded (memoryStep P handshake) KeepsMemory (.start w sock) labels) := by
  have hsession : Session w sock msgs :=
    ⟨hw.connected, hw.header_spans, hmsgs, hserves, .startHeader hw.state hstream⟩
  refine ⟨run_session (s := .start w sock) hsession hrun, ?_⟩
  refine always_iff_guarded (I := MemoryInv w.pool.out) (Q := fun _ => True) ?_ ?_ ?_ ?_
    (fun _ _ => trivial) hrun
  · intro s a s' h _ hkeeps hstep
    exact memoryStep_inv h hkeeps hstep
  · intro s h
    exact h.accounted
  · intro s a s' h _ hkeeps hstep
    exact memoryStep_leaks h hkeeps hstep
  · refine ⟨hw.connected, by simp [Receiver.start], ⟨none, ?_⟩, ?_⟩
    · simp [HoldsObject, Receiver.start, hidle]
    · simp [Accounted, Receiver.start, Receiver.payloadObject, hidle]

end Runs

/-- Two messages in pieces, the header and the payload of the second after calls that would
block.  No notification is destroyed, and every payload starts with a read that succeeds. -/
theorem receive_memory_iff_two_in_pieces :
    let peer : NetPeerInfo := ⟨⟨"localhost", 80⟩, .tcp⟩
    let msgs : List SndMessage := [⟨1, [7, 8, 9], peer, by decide, by decide⟩,
      ⟨2, [10, 11], peer, by decide, by decide⟩]
    let w : Worker := { Worker.create pagePool peer peer with connState := .connected }
    let sock : Socket := ⟨frames msgs, [.transfer 5, .transfer 11, .transfer 3, .fail eagain,
      .transfer 16, .transfer 1, .fail eagain, .transfer 1], [], []⟩
    Always (memoryStep pagePool fun _ s => s) (Accounted w.pool.out) (.start w sock)
      (List.replicate 8 .round) := by
  intro peer msgs w sock
  have hmsgs : ∀ m ∈ msgs, m.Encodable := by
    simp [msgs, SndMessage.Encodable, maxMsgPayloadSize]
  have hserves : ∀ op ∈ sock.reads, op.Serves := by
    simp [sock, IoOp.Serves]
  exact ((receive_memory_iff pagePool _ msgs hmsgs w (Worker.create_awaitsFrame _ _ _) rfl sock rfl
    hserves _ _ (Option.some_get (by decide +kernel)).symm).2).2 (by decide +kernel)

/-- A message is received and its notification destroyed: its two objects stay out.  And a read
that would block at the start of a payload: the next call of `Recv` obtains a second object for
the same payload, and the first one stays out when the message is complete. -/
theorem received_objects_leak :
    let peer : NetPeerInfo := ⟨⟨"localhost", 80⟩, .tcp⟩
    let msgs : List SndMessage := [⟨1, [7, 8, 9], peer, by decide, by decide⟩]
    let w : Worker := { Worker.create pagePool peer peer with connState := .connected }
    let whole : Socket := ⟨frames msgs, [.transfer 16, .transfer 3], [], []⟩
    let blocked : Socket := ⟨frames msgs, [.transfer 16, .fail eagain, .transfer 3], [], []⟩
    (∃ t, run (memoryStep pagePool fun _ s => s) (.start w whole) [.round, .round, .destroy 0] =
        some t ∧ t.alive = [] ∧ t.worker.payloadBuffer = none ∧
        t.worker.pool.out = w.pool.out ++ [1, 2] ∧ ¬ Accounted w.pool.out t) ∧
      ∃ t, run (memoryStep pagePool fun _ s => s) (.start w blocked) [.round, .round, .round] =
        some t ∧ t.alive.map MessageNotifyMessage.objects = [[2, 3]] ∧
        t.worker.payloadBuffer = none ∧ t.worker.pool.out = w.pool.out ++ [1, 2, 3] ∧
        ¬ Accounted w.pool.out t := by
  intro peer msgs w whole blocked
  constructor
  · obtain ⟨t, hrun, halive, hbuffer, hout⟩ : ∃ t ∈ run (memoryStep pagePool fun _ s => s)
        (.start w whole) [.round, .round, .destroy 0], t.alive.length = 0 ∧
          t.worker.payloadBuffer.isNone ∧ t.worker.pool.out = w.pool.out ++ [1, 2] := by
      decide +kernel
    rw [List.length_eq_zero_iff] at halive
    rw [Option.isNone_iff_eq_none] at hbuffer
    refine ⟨t, hrun, halive, hbuffer, hout, ?_⟩
    intro haccounted
    have hlength := haccounted.length_eq
    simp [halive, hout, Receiver.payloadObject, hbuffer] at hlength
  · obtain ⟨t, hrun, halive, hbuffer, hout⟩ : ∃ t ∈ run (memoryStep pagePool fun _ s => s)
        (.start w blocked) [.round, .round, .round],
        t.alive.map MessageNotifyMessage.objects = [[2, 3]] ∧
          t.worker.payloadBuffer.isNone ∧ t.worker.pool.out = w.pool.out ++ [1, 2, 3] := by
      decide +kernel
    rw [Option.isNone_iff_eq_none] at hbuffer
    refine ⟨t, hrun, halive, hbuffer, hout, ?_⟩
    intro haccounted
    have hlength := haccounted.length_eq
    rw [List.flatMap_def, halive] at hlength
    simp [hout, Receiver.payloadObject, hbuffer] at hlength

end Net
end CCraft
