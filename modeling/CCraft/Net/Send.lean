import CCraft.Lib.Run
import CCraft.Net.Worker

/-!
# Sending frames

`PosixTcpNetStackWorker::Send` moves messages from the queue of a worker through
its sending buffer to the socket.  A round of its loop is embedded in two steps,
so that other threads can queue messages between a `TryPop` and the `Encode` of
the popped message and between a `Write` and the move of the cursor after it.

Main results:

- Theorem {lit}`sendSystem_exact`: in every interleaving of enqueues and calls of
  `Send`, the bytes the socket has accepted, the bytes in hand and the encodings
  of the queue are together the encodings of all the messages enqueued.
- Theorem {lit}`send_returns`: every call of `Send` comes to an end.
- Theorem {lit}`send_frame`: what a call of `Send` leaves alone.
-/

namespace CCraft
namespace Net

open Common

/-! ## The send loop -/

/-- Where the thread in `Send` is: not in it (with its last answer), at the head of
the loop, behind the `Write`, behind a successful `TryPop`, or left by the
exception of `Encode`. -/
inductive SendPc where
  | idle (rc : Bool)
  | head
  | wrote (r : WriteResult)
  | popped (sm : SndMessage)
  | threw (e : EncodeError)

/-- `Message::PutBuffer`. -/
def putBuffer (v : MemView) (b : Buffer) : MemView :=
  match b.gives with
  | .put id => v.put id
  | _ => v

/-- The macro `Put_Send_Buffer`. -/
def putSendBuffer (w : Worker) : Worker :=
  match w.sendingBuffer with
  | some b => { w with sendingBuffer := none, pool := putBuffer w.pool b }
  | none => w

/-- The head of the loop: write what is left in the sending buffer, or take the
next message from the queue. -/
def sendHead (w : Worker) (sock : Socket) : SendPc × Worker × Socket :=
  let size := match w.sendingBuffer with
    | some b => sizeT b.availableLength
    | none => 0
  if 0 < size then
    let bs := match w.sendingBuffer.bind Buffer.pos, w.sendingBuffer with
      | some p, some b => Memory.read b.mem p size
      | _, _ => []
    let r := sock.write bs
    (.wrote r.1, w, r.2)
  else
    match w.messages with
    | sm :: messages => (.popped sm, { w with messages := messages }, sock)
    | [] => (.idle true, w, sock)

/-- What follows a `Write`. -/
def sendWrote (w : Worker) (r : WriteResult) : SendPc × Worker :=
  match r with
  | .closed => (.idle false, (putSendBuffer w).notifyWorkerPeerClosedMessage)
  | .wrote n =>
    let b := w.sendingBuffer.map fun b => b.moveHeadBack n
    let w := { w with sendingBuffer := b }
    if (b.map Buffer.availableLength).getD 0 ≤ 0 then (.head, putSendBuffer w)
    else (.head, w)
  | .failed err =>
    if err ≠ eagain then
      (.idle false, (putSendBuffer w).notifyWorkerBrokenMessage (some err))
    else (.idle true, w)

/-- The `Encode` of a message taken from the queue. -/
def sendPopped (P : MemSource) (w : Worker) (sm : SndMessage) : SendPc × Worker :=
  match sm.encode P w.pool with
  | .ok (b, pool) => (.head, { w with sendingBuffer := some b, pool := pool })
  | .error e => (.threw e, w)

/-- One step of a thread that is inside `Send`. -/
def sendStep (P : MemSource) (pc : SendPc) (w : Worker) (sock : Socket) :
    Option (SendPc × Worker × Socket) :=
  match pc with
  | .idle _ => none
  | .head => some (sendHead w sock)
  | .wrote r => some ((sendWrote w r).1, (sendWrote w r).2, sock)
  | .popped sm => some ((sendPopped P w sm).1, (sendPopped P w sm).2, sock)
  | .threw _ => none

/-- The loop of `Send`, cut off after `fuel` steps: how it was left, and the state
then. -/
def sendLoop (P : MemSource) : Nat → SendPc → Worker → Socket →
    Option (SendPc × Worker × Socket)
  | 0, _, _, _ => none
  | fuel + 1, pc, w, sock =>
    match sendStep P pc w sock with
    | none => some (pc, w, sock)
    | some (pc', w', sock') => sendLoop P fuel pc' w' sock'

/-- `PosixTcpNetStackWorker::Send`. -/
def send (P : MemSource) (w : Worker) (sock : Socket) : Option (SendPc × Worker × Socket) :=
  sendLoop P (2 * (sock.writes.length + w.messages.length) + 3) .head w sock

/-! ## Enqueues and calls in any order -/

/-- A worker with its socket, the thread in `Send`, and all the messages enqueued so
far. -/
structure SendState where
  worker : Worker
  sock : Socket
  pc : SendPc
  enqueued : List SndMessage

/-- `enqueue` is the `TryPush` of `InsertMessage` and `SendMessage`. -/
inductive SendLabel where
  | enqueue (m : SndMessage)
  | call
  | step

/-- The transition system of one worker. -/
def sendSystem (P : MemSource) (s : SendState) : SendLabel → Option SendState
  | .enqueue m =>
    some { s with worker := s.worker.insertMessage m, enqueued := s.enqueued ++ [m] }
  | .call =>
    match s.pc with
    | .idle _ => some { s with pc := .head }
    | _ => none
  | .step =>
    (sendStep P s.pc s.worker s.sock).map fun r =>
      { s with pc := r.1, worker := r.2.1, sock := r.2.2 }

/-- The bytes in hand: the unsent remainder of the sending buffer.  Behind a `Write`
the accepted bytes no longer count, behind a `TryPop` the popped message does. -/
def SendState.inHand (P : MemSource) (s : SendState) : List UInt8 :=
  let rest := match s.worker.sendingBuffer with
    | some b => b.bytes
    | none => []
  match s.pc with
  | .wrote (.wrote n) => rest.drop n
  | .popped sm => rest ++ sm.encodedBytes P s.worker.pool
  | _ => rest

/-- What the socket has accepted, what is in hand and what is queued, in this order,
are the encodings of the enqueued messages. -/
def SendState.Exact (P : MemSource) (view : SndMessage → MemView) (s : SendState) : Prop :=
  s.sock.accepted ++ s.inHand P ++
      s.worker.messages.flatMap (fun m => m.encodedBytes P (view m)) =
    s.enqueued.flatMap fun m => m.encodedBytes P (view m)

/-- A new worker on a socket whose calls of `write` follow a script. -/
def SendState.init (P : MemSource) (logicPeer realPeer : NetPeerInfo)
    (incoming : List UInt8) (reads writes : List IoOp) : SendState :=
  ⟨Worker.create P logicPeer realPeer, ⟨incoming, reads, [], writes⟩, .idle true, []⟩

/-! ## The invariant of the send loop -/

/-- One call of `write` on a socket that serves: it would block, or it accepts a
non-empty beginning of the bytes. -/
theorem Socket.write_serves {s : Socket} {bs : List UInt8} (hbs : 1 ≤ bs.length)
    (hserves : ∀ op ∈ s.writes, op.Serves) :
    ∃ s', s'.writes = s.writes.tail ∧
      ((s.write bs = (.failed eagain, s') ∧ s'.accepted = s.accepted) ∨
        ∃ n, s.write bs = (.wrote n, s') ∧ 1 ≤ n ∧ n ≤ bs.length ∧
          s'.accepted = s.accepted ++ bs.take n) := by
  have hne : bs ≠ [] := List.length_pos_iff.mp hbs
  cases hwrites : s.writes with
  | nil => exact ⟨s, hwrites, .inl ⟨by simp [Socket.write, hwrites], rfl⟩⟩
  | cons op ops =>
    have hop : op.Serves := hserves op (by simp [hwrites])
    cases op with
    | close => exact hop.elim
    | fail err =>
      have herr : err = eagain := hop
      exact ⟨{ s with writes := ops }, rfl, .inl ⟨by simp [Socket.write, hwrites, herr], rfl⟩⟩
    | transfer n =>
      refine ⟨{ s with
          writes := ops
          accepted := s.accepted ++ bs.take (min (max n 1) bs.length) },
        rfl, .inr ⟨min (max n 1) bs.length, ?_, by omega, by omega, rfl⟩⟩
      simp [Socket.write, hwrites, hne]

/-- The sending buffer holds `rest`; it is gone when nothing is left. -/
def Holds (w : Worker) (rest : List UInt8) : Prop :=
  match w.sendingBuffer with
  | some b => Loaded b rest
  | none => rest = []

theorem Holds.of_some {w : Worker} {b : Buffer} {rest : List UInt8}
    (hb : w.sendingBuffer = some b) (h : Loaded b rest) : Holds w rest := by
  rw [Holds, hb]
  exact h

theorem Holds.of_none {w : Worker} (hb : w.sendingBuffer = none) : Holds w [] := by
  rw [Holds, hb]

/-- The bytes in hand at each point of the loop. -/
inductive Sending (w : Worker) : SendPc → List UInt8 → Prop
  | idle {rc : Bool} {rest : List UInt8} (holds : Holds w rest) : Sending w (.idle rc) rest
  | head {rest : List UInt8} (holds : Holds w rest) : Sending w .head rest
  | blocked {rest : List UInt8} (holds : Holds w rest) :
      Sending w (.wrote (.failed eagain)) rest
  | wrote {b : Buffer} {n : Nat} {rest : List UInt8} (buffer : w.sendingBuffer = some b)
      (loaded : Loaded b rest) (pos : 1 ≤ n) (le : n ≤ rest.length) :
      Sending w (.wrote (.wrote n)) (rest.drop n)
  | popped {sm : SndMessage} (buffer : w.sendingBuffer = none) (encodable : sm.Encodable) :
      Sending w (.popped sm) sm.frame

theorem Holds.bytes_eq {w : Worker} {rest : List UInt8} (h : Holds w rest) :
    (match w.sendingBuffer with
      | some b => b.bytes
      | none => []) = rest := by
  unfold Holds at h
  split at h
  · exact h.bytes_eq
  · exact h.symm

theorem Sending.inHand_eq {P : MemSource} {s : SendState} {rest : List UInt8}
    (h : Sending s.worker s.pc rest) : s.inHand P = rest := by
  unfold SendState.inHand
  generalize s.pc = pc at h
  cases h with
  | idle holds | head holds | blocked holds => exact holds.bytes_eq
  | wrote buffer loaded pos le => simp only [(Holds.of_some buffer loaded).bytes_eq]
  | popped buffer encodable =>
    simp only [(Holds.of_none buffer).bytes_eq, List.nil_append]
    exact SndMessage.encodedBytes_eq P _ encodable

section Steps

variable {P : MemSource} {w w' : Worker} {sock sock' : Socket} {pc pc' : SendPc}
  {rest : List UInt8}

/-- What a step has to establish: no byte is lost, repeated or reordered, the queue
only loses messages and the script only loses entries. -/
structure StepOk (w : Worker) (sock : Socket) (rest : List UInt8)
    (r : SendPc × Worker × Socket) : Prop where
  stream : ∃ rest', Sending r.2.1 r.1 rest' ∧
    r.2.2.accepted ++ rest' ++ frames r.2.1.messages =
      sock.accepted ++ rest ++ frames w.messages
  messages_sub : r.2.1.messages ⊆ w.messages
  writes_sub : r.2.2.writes ⊆ sock.writes

theorem sendHead_loaded {b : Buffer} (hb : w.sendingBuffer = some b) (h : Loaded b rest) :
    sendHead w sock = (.wrote (sock.write rest).1, w, (sock.write rest).2) := by
  obtain ⟨p, hp, -, hread⟩ := h.cursor
  have hsize : sizeT b.availableLength = rest.length := by
    rw [h.availableLength_eq]
    exact sizeT_natCast (by have := h.size_lt; omega)
  have hpos : 0 < rest.length := h.nonempty
  simp only [sendHead, hb, hsize, hpos, if_true, Option.bind_some, hp, hread]

/-- With bytes in the sending buffer the head of the loop writes. -/
theorem sendHead_loaded_stepOk {b : Buffer} (hb : w.sendingBuffer = some b) (h : Loaded b rest)
    (hserves : ∀ op ∈ sock.writes, op.Serves) : StepOk w sock rest (sendHead w sock) := by
  obtain ⟨sock', htail, hwrite⟩ := Socket.write_serves h.nonempty hserves
  have hsub : sock'.writes ⊆ sock.writes := htail ▸ List.tail_subset _
  rw [sendHead_loaded hb h]
  rcases hwrite with ⟨hwrite, hacc⟩ | ⟨n, hwrite, hn, hle, hacc⟩
  · rw [hwrite]
    refine ⟨⟨rest, .blocked (Holds.of_some hb h), ?_⟩, List.Subset.refl _, hsub⟩
    simp only [hacc]
  · rw [hwrite]
    refine ⟨⟨rest.drop n, .wrote hb h hn hle, ?_⟩, List.Subset.refl _, hsub⟩
    simp only [hacc, List.append_assoc]
    rw [← List.append_assoc (rest.take n), List.take_append_drop]

/-- Without a sending buffer the head of the loop takes the next message, if there is one. -/
theorem sendHead_empty (hb : w.sendingBuffer = none) :
    sendHead w sock =
      match w.messages with
      | sm :: messages => (.popped sm, { w with messages := messages }, sock)
      | [] => (.idle true, w, sock) := by
  simp only [sendHead, hb]
  rfl

theorem sendHead_stepOk (h : Holds w rest) (hqueue : ∀ m ∈ w.messages, m.Encodable)
    (hserves : ∀ op ∈ sock.writes, op.Serves) : StepOk w sock rest (sendHead w sock) := by
  cases hb : w.sendingBuffer with
  | some b =>
    rw [Holds, hb] at h
    exact sendHead_loaded_stepOk hb h hserves
  | none =>
    rw [Holds, hb] at h
    subst h
    rw [sendHead_empty hb]
    cases hq : w.messages with
    | nil => exact ⟨⟨[], .idle (Holds.of_none hb), by rw [hq]⟩, by simp [hq], List.Subset.refl _⟩
    | cons sm ms =>
      refine ⟨⟨sm.frame, .popped hb (hqueue sm (by simp [hq])), ?_⟩, ?_, List.Subset.refl _⟩
      · simp [hq]
      · simp [hq]

theorem sendWrote_wrote_stepOk {b : Buffer} {n : Nat} (hb : w.sendingBuffer = some b)
    (h : Loaded b rest) (hn : 1 ≤ n) (hle : n ≤ rest.length) :
    StepOk w sock (rest.drop n)
      ((sendWrote w (.wrote n)).1, (sendWrote w (.wrote n)).2, sock) := by
  rcases Nat.lt_or_ge n rest.length with hlt | hge
  · have hload := h.moveHeadBack hn hlt
    have hgt : ¬ (b.moveHeadBack n).availableLength ≤ 0 := by
      rw [hload.availableLength_eq]
      have := hload.nonempty
      omega
    have heq : sendWrote w (.wrote n) =
        (.head, { w with sendingBuffer := some (b.moveHeadBack n) }) := by
      simp only [sendWrote, hb, Option.map_some, Option.getD_some, hgt, if_false]
    rw [heq]
    exact ⟨⟨_, .head (Holds.of_some rfl hload), rfl⟩, List.Subset.refl _, List.Subset.refl _⟩
  · have hn' : n = rest.length := by omega
    subst hn'
    have heq : sendWrote w (.wrote rest.length) = (.head,
        { w with
          sendingBuffer := none
          pool := putBuffer w.pool (b.moveHeadBack rest.length) }) := by
      simp only [sendWrote, hb, Option.map_some, Option.getD_some, h.moveHeadBack_all, le_refl,
        if_true, putSendBuffer]
    rw [heq, List.drop_length]
    exact ⟨⟨[], .head (Holds.of_none rfl), rfl⟩, List.Subset.refl _, List.Subset.refl _⟩

theorem sendPopped_stepOk {sm : SndMessage} (hm : sm.Encodable) :
    StepOk w sock sm.frame ((sendPopped P w sm).1, (sendPopped P w sm).2, sock) := by
  obtain ⟨b, hencode, hload⟩ := sm.encode_loaded P w.pool hm
  simp only [sendPopped, hencode]
  exact ⟨⟨_, .head (Holds.of_some rfl hload), rfl⟩, List.Subset.refl _, List.Subset.refl _⟩

/-- Every step of a thread in `Send` keeps the stream. -/
theorem sendStep_stepOk {r : SendPc × Worker × Socket} (h : Sending w pc rest)
    (hqueue : ∀ m ∈ w.messages, m.Encodable) (hserves : ∀ op ∈ sock.writes, op.Serves)
    (hstep : sendStep P pc w sock = some r) : StepOk w sock rest r := by
  cases h with
  | idle holds => simp [sendStep] at hstep
  | head holds =>
    cases hstep
    exact sendHead_stepOk holds hqueue hserves
  | blocked holds =>
    simp only [sendStep, sendWrote, ne_eq, not_true, if_false] at hstep
    cases hstep
    exact ⟨⟨rest, .idle holds, rfl⟩, List.Subset.refl _, List.Subset.refl _⟩
  | wrote buffer loaded pos le =>
    cases hstep
    exact sendWrote_wrote_stepOk buffer loaded pos le
  | popped buffer encodable =>
    cases hstep
    exact sendPopped_stepOk encodable

end Steps

/-! ## Every interleaving -/

/-- The payload lengths that `Encode` accepts, for the messages that a label
enqueues. -/
def SendLabel.Encodable : SendLabel → Prop
  | .enqueue m => m.Encodable
  | .call => True
  | .step => True

/-- The invariant of the system of one worker. -/
structure SendInv (s : SendState) : Prop where
  enqueued : ∀ m ∈ s.enqueued, m.Encodable
  queue : ∀ m ∈ s.worker.messages, m.Encodable
  serves : ∀ op ∈ s.sock.writes, op.Serves
  stream : ∃ rest, Sending s.worker s.pc rest ∧
    s.sock.accepted ++ rest ++ frames s.worker.messages = frames s.enqueued

theorem SendInv.exact {P : MemSource} {view : SndMessage → MemView} {s : SendState}
    (h : SendInv s) : s.Exact P view := by
  obtain ⟨rest, hsending, hstream⟩ := h.stream
  rw [SendState.Exact, hsending.inHand_eq, flatMap_encodedBytes P view h.queue,
    flatMap_encodedBytes P view h.enqueued, hstream]

/-- Queueing a message does not touch what is in hand. -/
theorem Sending.insertMessage {w : Worker} {pc : SendPc} {rest : List UInt8} (m : SndMessage)
    (h : Sending w pc rest) : Sending (w.insertMessage m) pc rest := by
  cases h with
  | idle holds => exact .idle holds
  | head holds => exact .head holds
  | blocked holds => exact .blocked holds
  | wrote buffer loaded pos le => exact .wrote buffer loaded pos le
  | popped buffer encodable => exact .popped buffer encodable

theorem sendSystem_inv {P : MemSource} {s s' : SendState} {a : SendLabel} (h : SendInv s)
    (ha : a.Encodable) (hstep : sendSystem P s a = some s') : SendInv s' := by
  obtain ⟨rest, hsending, hstream⟩ := h.stream
  cases a with
  | enqueue m =>
    cases hstep
    have hm : m.Encodable := ha
    refine ⟨?_, ?_, h.serves, rest, hsending.insertMessage m, ?_⟩
    · intro x hx
      rcases List.mem_append.mp hx with hx | hx
      · exact h.enqueued x hx
      · exact List.mem_singleton.mp hx ▸ hm
    · intro x hx
      rcases List.mem_append.mp hx with hx | hx
      · exact h.queue x hx
      · exact List.mem_singleton.mp hx ▸ hm
    · simp only [Worker.insertMessage, frames_append, ← hstream, List.append_assoc]
  | call =>
    simp only [sendSystem] at hstep
    split at hstep
    · rename_i rc hpc
      cases hstep
      rw [hpc] at hsending
      cases hsending with
      | idle holds => exact ⟨h.enqueued, h.queue, h.serves, rest, .head holds, hstream⟩
    · simp at hstep
  | step =>
    simp only [sendSystem, Option.map_eq_some_iff] at hstep
    obtain ⟨r, hr, rfl⟩ := hstep
    have hok := sendStep_stepOk hsending h.queue h.serves hr
    obtain ⟨rest', hsending', hstream'⟩ := hok.stream
    exact ⟨h.enqueued, fun m hm => h.queue m (hok.messages_sub hm),
      fun op hop => h.serves op (hok.writes_sub hop), rest', hsending', hstream'.trans hstream⟩

/-- In every interleaving of enqueues, calls of `Send` and their steps, and however
much of each `Write` the socket accepts, the accepted bytes, the bytes in hand and
the encodings of the queue are the encodings of all enqueued messages in order. -/
theorem sendSystem_exact (P : MemSource) (view : SndMessage → MemView)
    (logicPeer realPeer : NetPeerInfo) (incoming : List UInt8) (reads writes : List IoOp)
    (hserves : ∀ op ∈ writes, op.Serves) (labels : List SendLabel)
    (hlabels : ∀ a ∈ labels, a.Encodable) :
    Runs.Always (sendSystem P) (SendState.Exact P view)
      (SendState.init P logicPeer realPeer incoming reads writes) labels := by
  have hinit : SendInv (SendState.init P logicPeer realPeer incoming reads writes) := by
    refine ⟨by simp [SendState.init], by simp [SendState.init, Worker.create], hserves, [], ?_, ?_⟩
    · exact .idle (Holds.of_none rfl)
    · simp [SendState.init, Worker.create, frames]
  have halways : Runs.Always (sendSystem P) SendInv _ labels :=
    Runs.always_of_forall (fun s a s' hs ha hstep => sendSystem_inv hs ha hstep) hinit hlabels
  exact halways.mono fun s hs => hs.exact

/-- Two messages, the second one queued between the `TryPop` and the `Encode` of the
first, with partial writes and a call that would block. -/
theorem sendSystem_exact_two_messages :
    let P : MemSource := pagePool
    let peer : NetPeerInfo := ⟨⟨"localhost", 80⟩, .tcp⟩
    let m₁ : SndMessage := ⟨1, [7, 8, 9], peer, by decide, by decide⟩
    let m₂ : SndMessage := ⟨2, [10], peer, by decide, by decide⟩
    let writes : List IoOp := [.transfer 5, .fail eagain, .transfer 100]
    let labels : List SendLabel := [.enqueue m₁, .call, .step, .enqueue m₂, .step, .step, .step,
      .step, .step, .call, .step, .step, .step, .step]
    Runs.Always (sendSystem P) (SendState.Exact P fun _ => ⟨0, []⟩)
      (SendState.init P peer peer [] [] writes) labels := by
  intro P peer m₁ m₂ writes labels
  have hserves : ∀ op ∈ writes, op.Serves := by simp [writes, IoOp.Serves]
  have hlabels : ∀ a ∈ labels, a.Encodable := by
    simp [labels, SendLabel.Encodable, SndMessage.Encodable, maxMsgPayloadSize, m₁, m₂]
  exact sendSystem_exact P (fun _ => ⟨0, []⟩) peer peer [] [] writes hserves labels hlabels

/-! ## Calls come to an end -/

/-- What is left to do at a point of the loop. -/
def SendPc.weight : SendPc → Nat
  | .idle _ => 0
  | .threw _ => 0
  | .wrote .closed => 1
  | .wrote (.failed _) => 1
  | .head => 2
  | .wrote (.wrote _) => 3
  | .popped _ => 3

/-- The measure that every step of `Send` decreases: each round uses up a `Write`, a
queued message, or is the last. -/
def sendMeasure (pc : SendPc) (w : Worker) (sock : Socket) : Nat :=
  2 * (sock.writes.length + w.messages.length) + pc.weight

theorem Socket.write_script (s : Socket) (bs : List UInt8) :
    (s.write bs).2.writes.length < s.writes.length ∨
      (s.write bs).2 = s ∧ (s.write bs).1 = .failed eagain := by
  cases hwrites : s.writes with
  | nil => exact .inr (by simp [Socket.write, hwrites])
  | cons op ops =>
    refine .inl ?_
    cases op with
    | transfer n =>
      simp only [Socket.write, hwrites]
      split_ifs <;> simp
    | close | fail => simp [Socket.write, hwrites]

theorem sendHead_measure (w : Worker) (sock : Socket) :
    sendMeasure (sendHead w sock).1 (sendHead w sock).2.1 (sendHead w sock).2.2 <
      sendMeasure .head w sock := by
  unfold sendHead
  extract_lets size bs r
  split_ifs
  · have hweight : ∀ r : WriteResult, (SendPc.wrote r).weight ≤ 3 := by
      intro r
      cases r <;> simp [SendPc.weight]
    rcases Socket.write_script sock bs with hlt | ⟨hsame, hblocked⟩
    · have := hweight r.1
      have hlt' : r.2.writes.length < sock.writes.length := hlt
      have hhead : SendPc.head.weight = 2 := rfl
      simp only [sendMeasure]
      omega
    · have hsame' : r.2 = sock := hsame
      have hblocked' : r.1 = .failed eagain := hblocked
      simp [sendMeasure, SendPc.weight, hsame', hblocked']
  · cases hq : w.messages with
    | nil => simp [sendMeasure, SendPc.weight]
    | cons sm ms =>
      simp only [sendMeasure, SendPc.weight, hq, List.length_cons]
      omega

theorem putSendBuffer_messages (w : Worker) : (putSendBuffer w).messages = w.messages := by
  unfold putSendBuffer
  split <;> rfl

theorem sendWrote_measure (w : Worker) (r : WriteResult) (sock : Socket) :
    sendMeasure (sendWrote w r).1 (sendWrote w r).2 sock < sendMeasure (.wrote r) w sock := by
  cases r with
  | closed =>
    simp [sendWrote, sendMeasure, SendPc.weight, putSendBuffer_messages,
      Worker.notifyWorkerPeerClosedMessage, Worker.handleMessage]
  | wrote n =>
    simp only [sendWrote]
    split_ifs <;> simp [sendMeasure, SendPc.weight, putSendBuffer_messages]
  | failed err =>
    simp only [sendWrote]
    split_ifs <;> simp [sendMeasure, SendPc.weight, putSendBuffer_messages,
      Worker.notifyWorkerBrokenMessage, Worker.handleMessage]

theorem sendPopped_measure (P : MemSource) (w : Worker) (sm : SndMessage) (sock : Socket) :
    sendMeasure (sendPopped P w sm).1 (sendPopped P w sm).2 sock <
      sendMeasure (.popped sm) w sock := by
  unfold sendPopped
  split <;> simp [sendMeasure, SendPc.weight]

/-- Every step decreases the measure. -/
theorem sendStep_measure {P : MemSource} {pc : SendPc} {w : Worker} {sock : Socket}
    {r : SendPc × Worker × Socket} (h : sendStep P pc w sock = some r) :
    sendMeasure r.1 r.2.1 r.2.2 < sendMeasure pc w sock := by
  cases pc with
  | idle | threw => simp [sendStep] at h
  | head =>
    simp only [sendStep, Option.some.injEq] at h
    exact h ▸ sendHead_measure w sock
  | wrote r' =>
    simp only [sendStep, Option.some.injEq] at h
    exact h ▸ sendWrote_measure w r' sock
  | popped sm =>
    simp only [sendStep, Option.some.injEq] at h
    exact h ▸ sendPopped_measure P w sm sock

/-- With enough fuel the loop is a complete run of steps of the system that cannot
be continued. -/
theorem sendLoop_run (P : MemSource) {fuel : Nat} (pc : SendPc) (w : Worker) (sock : Socket)
    (enqueued : List SndMessage) (hfuel : sendMeasure pc w sock < fuel) :
    ∃ pc' w' sock' n, sendLoop P fuel pc w sock = some (pc', w', sock') ∧
      sendStep P pc' w' sock' = none ∧
      Runs.run (sendSystem P) ⟨w, sock, pc, enqueued⟩ (List.replicate n .step) =
        some ⟨w', sock', pc', enqueued⟩ := by
  induction fuel generalizing pc w sock with
  | zero => omega
  | succ fuel ih =>
    cases hstep : sendStep P pc w sock with
    | none => exact ⟨pc, w, sock, 0, by simp [sendLoop, hstep], hstep, rfl⟩
    | some r =>
      have hlt := sendStep_measure hstep
      obtain ⟨pc', w', sock', n, hloop, hend, hrun⟩ :=
        ih r.1 r.2.1 r.2.2 (by omega)
      refine ⟨pc', w', sock', n + 1, by simp [sendLoop, hstep, hloop], hend, ?_⟩
      rw [List.replicate_succ, Runs.run_cons_eq_some]
      exact ⟨_, by simp [sendSystem, hstep], hrun⟩

/-- Every call of `Send` comes to an end, and it is a run of the system. -/
theorem send_returns (P : MemSource) (w : Worker) (sock : Socket) (rc : Bool)
    (enqueued : List SndMessage) :
    ∃ pc' w' sock' n, send P w sock = some (pc', w', sock') ∧
      sendStep P pc' w' sock' = none ∧
      Runs.run (sendSystem P) ⟨w, sock, .idle rc, enqueued⟩
        (.call :: List.replicate n .step) = some ⟨w', sock', pc', enqueued⟩ := by
  obtain ⟨pc', w', sock', n, hloop, hend, hrun⟩ :=
    sendLoop_run P .head w sock enqueued (Nat.lt_succ_self _)
  exact ⟨pc', w', sock', n, hloop, hend, Runs.run_cons_eq_some.mpr ⟨_, rfl, hrun⟩⟩

/-! ## What sending leaves alone -/

/-- Sending changes nothing that receiving depends on, and the queue gains no messages. -/
structure SendFrame (w : Worker) (sock : Socket) (w' : Worker) (sock' : Socket) : Prop where
  rcvState : w'.rcvState = w.rcvState
  connState : w'.connState = w.connState
  logicPeer : w'.logicPeer = w.logicPeer
  realPeer : w'.realPeer = w.realPeer
  headerBuffer : w'.headerBuffer = w.headerBuffer
  messages : w'.messages ⊆ w.messages
  incoming : sock'.incoming = sock.incoming
  reads : sock'.reads = sock.reads

/-- The message taken from the queue can be encoded, and no exception was thrown. -/
def SendPc.Encodes : SendPc → Prop
  | .popped sm => sm.Encodable
  | .threw _ => False
  | _ => True

section Sending

variable {P : MemSource} {w w' w'' : Worker} {sock sock' sock'' : Socket} {pc : SendPc}
  {r : SendPc × Worker × Socket}

theorem SendFrame.refl (w : Worker) (sock : Socket) : SendFrame w sock w sock :=
  ⟨rfl, rfl, rfl, rfl, rfl, List.Subset.refl _, rfl, rfl⟩

theorem SendFrame.trans (h : SendFrame w sock w' sock') (h' : SendFrame w' sock' w'' sock'') :
    SendFrame w sock w'' sock'' :=
  ⟨h'.rcvState.trans h.rcvState, h'.connState.trans h.connState,
    h'.logicPeer.trans h.logicPeer, h'.realPeer.trans h.realPeer,
    h'.headerBuffer.trans h.headerBuffer, List.Subset.trans h'.messages h.messages,
    h'.incoming.trans h.incoming, h'.reads.trans h.reads⟩

theorem Socket.write_frame (s : Socket) (bs : List UInt8) :
    (s.write bs).2.incoming = s.incoming ∧ (s.write bs).2.reads = s.reads := by
  unfold Socket.write
  split
  · exact ⟨rfl, rfl⟩
  · split_ifs <;> exact ⟨rfl, rfl⟩
  · exact ⟨rfl, rfl⟩
  · exact ⟨rfl, rfl⟩

theorem putSendBuffer_frame (w : Worker) (sock : Socket) :
    SendFrame w sock (putSendBuffer w) sock := by
  unfold putSendBuffer
  split <;> exact ⟨rfl, rfl, rfl, rfl, rfl, List.Subset.refl _, rfl, rfl⟩

theorem sendHead_frame (w : Worker) (sock : Socket) :
    SendFrame w sock (sendHead w sock).2.1 (sendHead w sock).2.2 := by
  unfold sendHead
  extract_lets size bs r
  split_ifs
  · obtain ⟨hincoming, hreads⟩ := sock.write_frame bs
    exact ⟨rfl, rfl, rfl, rfl, rfl, List.Subset.refl _, hincoming, hreads⟩
  · cases hq : w.messages with
    | nil => exact SendFrame.refl w sock
    | cons sm messages => exact ⟨rfl, rfl, rfl, rfl, rfl, by simp [hq], rfl, rfl⟩

theorem sendWrote_frame (w : Worker) (sock : Socket) (res : WriteResult) :
    SendFrame w sock (sendWrote w res).2 sock := by
  have hput := putSendBuffer_frame w sock
  cases res with
  | closed => exact { hput with }
  | wrote n =>
    have hmoved : SendFrame w sock
        { w with sendingBuffer := w.sendingBuffer.map fun b => b.moveHeadBack n } sock :=
      ⟨rfl, rfl, rfl, rfl, rfl, List.Subset.refl _, rfl, rfl⟩
    simp only [sendWrote]
    split_ifs
    · exact hmoved.trans (putSendBuffer_frame _ sock)
    · exact hmoved
  | failed err =>
    simp only [sendWrote]
    split_ifs
    · exact { hput with }
    · exact SendFrame.refl w sock

/-- One step of `Send`. -/
theorem sendStep_frame (h : sendStep P pc w sock = some r) : SendFrame w sock r.2.1 r.2.2 := by
  cases pc with
  | idle | threw => simp [sendStep] at h
  | head =>
    cases h
    exact sendHead_frame w sock
  | wrote res =>
    cases h
    exact sendWrote_frame w sock res
  | popped sm =>
    cases h
    unfold sendPopped
    split <;> exact ⟨rfl, rfl, rfl, rfl, rfl, List.Subset.refl _, rfl, rfl⟩

/-- However a call of `Send` is left. -/
theorem sendLoop_frame {fuel : Nat} (h : sendLoop P fuel pc w sock = some r) :
    SendFrame w sock r.2.1 r.2.2 := by
  induction fuel generalizing pc w sock with
  | zero => cases h
  | succ fuel ih =>
    simp only [sendLoop] at h
    split at h
    · cases h
      exact SendFrame.refl w sock
    · next hstep => exact (sendStep_frame hstep).trans (ih h)

theorem sendStep_encodes (hqueue : ∀ m ∈ w.messages, m.Encodable) (hpc : pc.Encodes)
    (h : sendStep P pc w sock = some r) : r.1.Encodes := by
  cases pc with
  | idle rc => simp [sendStep] at h
  | head =>
    cases h
    unfold sendHead
    extract_lets size bs res
    split_ifs
    · trivial
    · cases hq : w.messages with
      | nil => trivial
      | cons sm messages => exact hqueue sm (by simp [hq])
  | wrote res =>
    cases h
    cases res with
    | closed => trivial
    | wrote | failed =>
      simp only [sendWrote]
      split_ifs <;> trivial
  | popped sm =>
    cases h
    obtain ⟨b, hencode, -⟩ := sm.encode_loaded P w.pool hpc
    simp only [sendPopped, hencode]
    trivial
  | threw e => exact hpc.elim

/-- A call of `Send` on a queue of messages that can be encoded returns. -/
theorem send_frame (P : MemSource) (sock : Socket) (hqueue : ∀ m ∈ w.messages, m.Encodable) :
    ∃ rc w' sock', send P w sock = some (.idle rc, w', sock') ∧ SendFrame w sock w' sock' := by
  obtain ⟨pc, w', sock', n, hsend, hend, hrun⟩ := send_returns P w sock true []
  have halways : Runs.Always (sendSystem P)
      (fun s => SendFrame w sock s.worker s.sock ∧ s.pc.Encodes) ⟨w, sock, .idle true, []⟩
      (.call :: List.replicate n .step) := by
    refine Runs.always_of_forall (Q := fun a => ∀ m, a ≠ .enqueue m) ?_
      ⟨SendFrame.refl w sock, trivial⟩ (by simp)
    rintro s a s' ⟨hframe, hpc⟩ ha hstep
    cases a with
    | enqueue m => exact absurd rfl (ha m)
    | call =>
      simp only [sendSystem] at hstep
      split at hstep
      · cases hstep
        exact ⟨hframe, trivial⟩
      · cases hstep
    | step =>
      obtain ⟨r, hr, rfl⟩ := Option.map_eq_some_iff.1 hstep
      exact ⟨hframe.trans (sendStep_frame hr),
        sendStep_encodes (fun m hm => hqueue m (hframe.messages hm)) hpc hr⟩
  obtain ⟨hframe, hpc⟩ := halways.last hrun
  cases pc with
  | idle rc => exact ⟨rc, w', sock', hsend, hframe⟩
  | head | wrote | popped => cases hend
  | threw e => exact hpc.elim

end Sending

end Net
end CCraft
