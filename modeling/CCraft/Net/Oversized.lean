import CCraft.Net.Headers
import CCraft.Net.Send

/-!
# Messages that cannot be encoded

`NBSocketService::SendMessage` takes messages of any length.  Their length is checked in
`SndMessage::Encode`, which `Send` calls on the I/O thread after it has taken the message
from the queue.  The exception of `Encode` leaves `Send`, `process_event` and the loop of
the I/O thread, none of which catches it, and the messages behind the one that was taken
stay in the queue.

Main results:

- Theorem {lit}`sendSystem_surviveInv`: as long as every message that is encoded has an
  admissible length, `Send` does not throw and the frames go out in order.
- Theorem {lit}`threw_run`: after an exception nothing is sent any more.
- Theorem {lit}`send_survives_iff`: a run survives exactly when every message that is encoded
  in it has an admissible length.
-/

namespace CCraft
namespace Net

open Common

/-! ## Accepting messages -/

/-- `NBSocketService::SendMessage` with the worker of the handler. -/
def serviceSendMessage (stopped : Bool) (worker : Option Worker) (m : SndMessage) :
    Option (Bool × Option Worker) :=
  serviceSend stopped m.peer worker fun w => (true, w.insertMessage m)

/-! ## Bytes on their way -/

/-- The unsent rest of the sending buffer, and the frame of a message that was taken from the
queue. -/
def SendState.onTheWay (s : SendState) : List UInt8 :=
  let rest := match s.worker.sendingBuffer with
    | some b => b.bytes
    | none => []
  match s.pc with
  | .wrote (.wrote n) => rest.drop n
  | .popped sm => rest ++ sm.frame
  | _ => rest

/-- The thread is still in the loop of its event worker.  On a socket that serves, what was
accepted, what is on its way and the frames of the queue are the frames of all the messages that
were enqueued, in order. -/
structure SendSurvives (writes : List IoOp) (s : SendState) : Prop where
  running : ∀ e, s.pc ≠ .threw e
  in_order : (∀ op ∈ writes, op.Serves) →
    s.sock.accepted ++ s.onTheWay ++ frames s.worker.messages = frames s.enqueued

/-- A message that is encoded has a length that `Encode` accepts. -/
def EncodesAdmissible (s : SendState) : SendLabel → Prop
  | .step => s.pc.Encodes
  | _ => True

instance : DecidablePred SendPc.Encodes
  | .popped sm => inferInstanceAs (Decidable sm.Encodable)
  | .threw _ => isFalse id
  | .idle _ | .head | .wrote _ => isTrue trivial

instance (s : SendState) : ∀ a, Decidable (EncodesAdmissible s a)
  | .step => inferInstanceAs (Decidable s.pc.Encodes)
  | .enqueue _ | .call => isTrue trivial

/-- The bytes on their way at each point of the loop, also when the message that was taken
cannot be encoded. -/
inductive OnTheWay (w : Worker) : SendPc → List UInt8 → Prop
  | sending {pc : SendPc} {rest : List UInt8} (sending : Sending w pc rest) : OnTheWay w pc rest
  | taken {sm : SndMessage} (buffer : w.sendingBuffer = none) : OnTheWay w (.popped sm) sm.frame

theorem OnTheWay.eq {s : SendState} {rest : List UInt8} (h : OnTheWay s.worker s.pc rest) :
    s.onTheWay = rest := by
  unfold SendState.onTheWay
  generalize s.pc = pc at h
  cases h with
  | sending sending =>
    cases sending with
    | idle holds | head holds | blocked holds => exact holds.bytes_eq
    | wrote buffer loaded pos le =>
      exact congrArg (List.drop _) (Holds.of_some buffer loaded).bytes_eq
    | popped buffer encodable => exact congrArg (· ++ _) (Holds.of_none buffer).bytes_eq
  | taken buffer => exact congrArg (· ++ _) (Holds.of_none buffer).bytes_eq

/-! ## Steps -/

section Steps

variable {P : MemSource} {w : Worker} {sock : Socket} {pc : SendPc} {rest : List UInt8}
  {r : SendPc × Worker × Socket} {s s' : SendState} {a : SendLabel} {writes : List IoOp}

/-- What a step has to establish, whatever is in the queue. -/
structure StreamOk (w : Worker) (sock : Socket) (rest : List UInt8)
    (r : SendPc × Worker × Socket) : Prop where
  stream : ∃ rest', OnTheWay r.2.1 r.1 rest' ∧
    r.2.2.accepted ++ rest' ++ frames r.2.1.messages =
      sock.accepted ++ rest ++ frames w.messages
  writes_sub : r.2.2.writes ⊆ sock.writes

theorem StepOk.streamOk (h : StepOk w sock rest r) : StreamOk w sock rest r := by
  obtain ⟨rest', hsending, hstream⟩ := h.stream
  exact ⟨⟨rest', .sending hsending, hstream⟩, h.writes_sub⟩

/-- The head of the loop takes a message without looking at its length. -/
theorem sendHead_streamOk (h : Holds w rest) (hserves : ∀ op ∈ sock.writes, op.Serves) :
    StreamOk w sock rest (sendHead w sock) := by
  cases hb : w.sendingBuffer with
  | some b =>
    rw [Holds, hb] at h
    exact (sendHead_loaded_stepOk hb h hserves).streamOk
  | none =>
    rw [Holds, hb] at h
    subst h
    rw [sendHead_empty hb]
    cases hq : w.messages with
    | nil =>
      exact ⟨⟨[], .sending (.idle (Holds.of_none hb)), by rw [hq]⟩, List.Subset.refl _⟩
    | cons sm ms => exact ⟨⟨sm.frame, .taken hb, by simp [hq]⟩, List.Subset.refl _⟩

/-- A step that encodes only admissible messages keeps the stream. -/
theorem sendStep_streamOk (h : OnTheWay w pc rest) (hpc : pc.Encodes)
    (hserves : ∀ op ∈ sock.writes, op.Serves) (hstep : sendStep P pc w sock = some r) :
    StreamOk w sock rest r := by
  cases h with
  | taken buffer =>
    cases hstep
    exact (sendPopped_stepOk hpc).streamOk
  | sending sending =>
    cases sending with
    | idle holds => cases hstep
    | head holds =>
      cases hstep
      exact sendHead_streamOk holds hserves
    | blocked holds =>
      simp only [sendStep, sendWrote, ne_eq, not_true, if_false] at hstep
      cases hstep
      exact ⟨⟨rest, .sending (.idle holds), rfl⟩, List.Subset.refl _⟩
    | wrote buffer loaded pos le =>
      cases hstep
      exact (sendWrote_wrote_stepOk buffer loaded pos le).streamOk
    | popped buffer encodable =>
      cases hstep
      exact (sendPopped_stepOk encodable).streamOk

/-- A step that encodes only admissible messages does not throw, whatever the socket
does. -/
theorem sendStep_running (hpc : pc.Encodes) (hstep : sendStep P pc w sock = some r) :
    ∀ e, r.1 ≠ .threw e := by
  intro e
  cases pc with
  | idle rc => cases hstep
  | head =>
    cases hstep
    unfold sendHead
    extract_lets size bs res
    split_ifs
    · simp
    · cases w.messages with
      | nil | cons => simp
  | wrote res =>
    cases hstep
    cases res with
    | closed => simp [sendWrote]
    | wrote | failed =>
      simp only [sendWrote]
      split_ifs <;> simp
  | popped sm =>
    cases hstep
    obtain ⟨b, hencode, -⟩ := sm.encode_loaded P w.pool hpc
    simp [sendPopped, hencode]
  | threw e' => exact hpc.elim

/-- A message with another length makes `Encode` throw. -/
theorem encode_threw {m : SndMessage} (P : MemSource) (v : MemView) (hm : ¬ m.Encodable) :
    ∃ e, m.encode P v = .error e := by
  unfold SndMessage.encode encodeWith
  by_cases hzero : m.payload.length ≤ 0
  · exact ⟨.lessThanZero, if_pos hzero⟩
  · by_cases hbig : m.payload.length > maxMsgPayloadSize
    · exact ⟨.moreThan64MiB, by rw [if_neg hzero, if_pos hbig]⟩
    · exact absurd ⟨by omega, by omega⟩ hm

/-- The invariant of runs that encode only admissible messages. -/
structure SurviveInv (writes : List IoOp) (s : SendState) : Prop where
  running : ∀ e, s.pc ≠ .threw e
  stream : (∀ op ∈ writes, op.Serves) →
    (∀ op ∈ s.sock.writes, op.Serves) ∧ ∃ rest, OnTheWay s.worker s.pc rest ∧
      s.sock.accepted ++ rest ++ frames s.worker.messages = frames s.enqueued

theorem SurviveInv.survives (h : SurviveInv writes s) : SendSurvives writes s := by
  refine ⟨h.running, ?_⟩
  intro hserves
  obtain ⟨-, rest, hway, hstream⟩ := h.stream hserves
  rw [hway.eq, hstream]

theorem OnTheWay.insertMessage (m : SndMessage) (h : OnTheWay w pc rest) :
    OnTheWay (w.insertMessage m) pc rest := by
  cases h with
  | sending sending => exact .sending (sending.insertMessage m)
  | taken buffer => exact .taken buffer

theorem sendSystem_surviveInv (h : SurviveInv writes s) (ha : EncodesAdmissible s a)
    (hstep : sendSystem P s a = some s') : SurviveInv writes s' := by
  cases a with
  | enqueue m =>
    cases hstep
    refine ⟨h.running, ?_⟩
    intro hserves
    obtain ⟨hwrites, rest, hway, hstream⟩ := h.stream hserves
    refine ⟨hwrites, rest, hway.insertMessage m, ?_⟩
    simp only [Worker.insertMessage, frames_append, ← hstream, List.append_assoc]
  | call =>
    simp only [sendSystem] at hstep
    split at hstep
    · rename_i rc hpc
      cases hstep
      refine ⟨by simp, ?_⟩
      intro hserves
      obtain ⟨hwrites, rest, hway, hstream⟩ := h.stream hserves
      rw [hpc] at hway
      cases hway with
      | sending sending =>
        cases sending with
        | idle holds => exact ⟨hwrites, rest, .sending (.head holds), hstream⟩
    · cases hstep
  | step =>
    obtain ⟨r, hr, rfl⟩ := Option.map_eq_some_iff.1 hstep
    refine ⟨sendStep_running ha hr, ?_⟩
    intro hserves
    obtain ⟨hwrites, rest, hway, hstream⟩ := h.stream hserves
    have hok := sendStep_streamOk hway ha hwrites hr
    obtain ⟨rest', hway', hstream'⟩ := hok.stream
    exact ⟨fun op hop => hwrites op (hok.writes_sub hop), rest', hway', hstream'.trans hstream⟩

/-- Encoding a message of another length ends the thread. -/
theorem sendSystem_threw (ha : ¬ EncodesAdmissible s a) (hstep : sendSystem P s a = some s') :
    ∃ e, s'.pc = .threw e := by
  cases a with
  | enqueue | call => exact absurd trivial ha
  | step =>
    obtain ⟨r, hr, rfl⟩ := Option.map_eq_some_iff.1 hstep
    have hnot : ¬ s.pc.Encodes := ha
    cases hpc : s.pc with
    | idle | head | wrote => exact absurd (by rw [hpc]; trivial) hnot
    | popped sm =>
      rw [hpc] at hr hnot
      cases hr
      obtain ⟨e, hencode⟩ := encode_threw P s.worker.pool hnot
      exact ⟨e, by simp [sendPopped, hencode]⟩
    | threw e =>
      rw [hpc] at hr
      cases hr

/-- After an exception nothing is sent any more. -/
theorem threw_run {labels : List SendLabel} {e : EncodeError} {t : SendState}
    (hpc : s.pc = .threw e) (hrun : Runs.run (sendSystem P) s labels = some t) :
    t.pc = .threw e ∧ t.sock = s.sock := by
  have halways : Runs.Always (sendSystem P) (fun u => u.pc = .threw e ∧ u.sock = s.sock) s
      labels := by
    refine Runs.always_of_forall (Q := fun _ => True) ?_ ⟨hpc, rfl⟩ (fun _ _ => trivial)
    rintro u a u' ⟨hu, hsock⟩ - hstep
    cases a with
    | enqueue m =>
      cases hstep
      exact ⟨hu, hsock⟩
    | call => simp [sendSystem, hu] at hstep
    | step => simp [sendSystem, sendStep, hu] at hstep
  exact halways.last hrun

end Steps

/-! ## Runs -/

/-- In every interleaving of accepted messages of any length with calls of `Send`, on every
socket, `Send` never throws and the frames of all accepted messages go out whole and in order
exactly when every message that is encoded has an admissible length. -/
theorem send_survives_iff (P : MemSource) (logicPeer realPeer : NetPeerInfo)
    (incoming : List UInt8) (reads writes : List IoOp) (labels : List SendLabel) (t : SendState)
    (hrun : Runs.run (sendSystem P) (.init P logicPeer realPeer incoming reads writes) labels =
      some t) :
    Runs.Always (sendSystem P) (SendSurvives writes)
        (.init P logicPeer realPeer incoming reads writes) labels ↔
      Runs.Guarded (sendSystem P) EncodesAdmissible
        (.init P logicPeer realPeer incoming reads writes) labels := by
  have hinit : SurviveInv writes (.init P logicPeer realPeer incoming reads writes) := by
    refine ⟨by simp [SendState.init], ?_⟩
    intro hserves
    refine ⟨hserves, [], .sending (.idle (Holds.of_none rfl)), ?_⟩
    simp [SendState.init, Worker.create, frames]
  refine Runs.always_iff_guarded (I := SurviveInv writes) (Q := fun _ => True) ?_ ?_ ?_ hinit
    (fun _ _ => trivial) hrun
  · intro s a s' hs _ ha hstep
    exact sendSystem_surviveInv hs ha hstep
  · exact fun s hs => hs.survives
  · intro s a s' _ _ ha hstep hsurvives
    obtain ⟨e, he⟩ := sendSystem_threw ha hstep
    exact hsurvives.running e he

/-- Two messages on a socket that takes five bytes, would block, and then takes the rest. -/
theorem send_survives_iff_two_messages :
    let peer : NetPeerInfo := ⟨⟨"localhost", 80⟩, .tcp⟩
    let m₁ : SndMessage := ⟨1, [7, 8, 9], peer, by decide, by decide⟩
    let m₂ : SndMessage := ⟨2, [10], peer, by decide, by decide⟩
    let writes : List IoOp := [.transfer 5, .fail eagain, .transfer 100]
    let labels : List SendLabel := [.enqueue m₁, .call, .step, .enqueue m₂, .step, .step, .step,
      .step, .step, .call, .step, .step, .step, .step]
    Runs.Always (sendSystem pagePool) (SendSurvives writes)
      (SendState.init pagePool peer peer [] [] writes) labels := by
  intro peer m₁ m₂ writes labels
  exact (send_survives_iff pagePool peer peer [] [] writes labels _
    (Option.some_get (by decide +kernel)).symm).2 (by decide +kernel)

/-- A message of one byte more than 64 MiB and a small one behind it are accepted.  `Send`
throws, and neither of them is ever sent. -/
theorem oversized_message_stops_sending :
    ∃ (w : Worker) (big small : SndMessage) (t : SendState), ¬ big.Encodable ∧ small.Encodable ∧
      big.payload.length = maxMsgPayloadSize + 1 ∧
      serviceSendMessage false (some w) big = some (true, some (w.insertMessage big)) ∧
      Runs.run (sendSystem pagePool) ⟨w, ⟨[], [], [], [.transfer 100]⟩, .idle true, []⟩
        [.enqueue big, .enqueue small, .call, .step, .step] = some t ∧
      t.pc = .threw .moreThan64MiB ∧ t.sock.accepted = [] ∧ t.worker.messages = [small] ∧
      ∀ labels u, Runs.run (sendSystem pagePool) t labels = some u → u.sock.accepted = [] := by
  let peer : NetPeerInfo := ⟨⟨"localhost", 80⟩, .tcp⟩
  let w : Worker := .create pagePool peer peer
  obtain ⟨big, hpeer, -, hbig⟩ := exists_message peer 1 (maxMsgPayloadSize + 1)
    (by norm_num) (by decide)
  obtain ⟨small, -, -, hsmall⟩ := exists_message peer 2 1 (by norm_num)
    (by norm_num)
  have hzero : ¬ big.payload.length ≤ 0 := by omega
  have hmore : big.payload.length > maxMsgPayloadSize := by omega
  have hencode : ∀ v, big.encode pagePool v = .error .moreThan64MiB := by
    intro v
    simp only [SndMessage.encode, encodeWith, if_neg hzero, if_pos hmore]
  refine ⟨w, big, small, ⟨{ w with messages := [small] }, ⟨[], [], [], [.transfer 100]⟩,
    .threw .moreThan64MiB, [big, small]⟩, ?_, ⟨by omega, by rw [hsmall]; decide⟩, hbig, ?_, ?_,
    rfl, rfl, rfl, ?_⟩
  · intro hencodable
    have := hencodable.2
    omega
  · simp [serviceSendMessage, serviceSend, hpeer, peer]
  · simp only [Runs.run, sendSystem, sendStep, Worker.insertMessage, Worker.create,
      sendHead_empty, sendPopped, hencode, Option.bind_some, Option.map_some, List.nil_append,
      List.cons_append, w]
  · intro labels u hu
    have hsock := (threw_run (e := .moreThan64MiB) rfl hu).2
    exact congrArg Socket.accepted hsock

end Net
end CCraft
