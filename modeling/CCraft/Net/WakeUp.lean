import CCraft.Net.Send

/-!
# Waking the I/O thread up

`ANetStackMessageWorker::SendMessage` reads the size of the queue, pushes its message, if the
queue is not full, and posts a write event only if the size that it read was zero.  Between
the read and the push the I/O thread may empty the queue and leave `Send`; the message is
then queued and nobody is going to look at it.

The wake-up is a token.  While the queue is not empty it is in the event queue, with a
caller that has read an empty queue, with the thread in `Send`, or with the socket, which
reports when it takes the unsent bytes.

Main results:

- Theorem {lit}`messageStep_attended`: a step keeps the token, if a caller that does not
  post an event leaves only while somebody else holds it, and a failing `Write` leaves no
  message behind that nobody else attends to.
- Theorem {lit}`no_lost_wakeup`: then no message is ever left alone; every other run has a
  beginning that leads to a message that is.
-/

namespace CCraft
namespace Net

open Common Runs

/-! ## Callers and the I/O thread -/

/-- A call of `SendMessage` in progress: behind `Size`, or behind the `TryPush` of a
caller that is going to post a write event. -/
inductive SendCall where
  | sized (m : SndMessage) (previousSize : Nat)
  | pushed

/-- The worker with the thread in `Send`, the calls of `SendMessage` in progress, and the
number of write events of this handler that are queued at its event worker. -/
structure MessageState where
  io : SendState
  calls : List SendCall
  writeEvents : Nat

/-- The steps of the callers and of the I/O thread, which enters `Send` for a queued
write event or because the driver reports the socket. -/
inductive MessageLabel where
  | size (m : SndMessage)
  | push (i : Nat)
  | addExternalRWOpEvent (i : Nat)
  | handleWriteEvent
  | reportWritable
  | step

/-- `TryPush` fails: the queue has a largest size and has reached it. -/
def QueueFull (maxCacheMessageCnt : Nat) (s : MessageState) : Prop :=
  maxCacheMessageCnt ≠ 0 ∧ maxCacheMessageCnt ≤ s.io.worker.messages.length

instance (maxCacheMessageCnt : Nat) (s : MessageState) :
    Decidable (QueueFull maxCacheMessageCnt s) :=
  inferInstanceAs (Decidable (_ ∧ _))

/-- A call returns without posting a write event. -/
def MessageState.leave (s : MessageState) (i : Nat) : MessageState :=
  { s with calls := s.calls.eraseIdx i }

def messageStep (P : MemSource) (maxCacheMessageCnt : Nat) (s : MessageState) :
    MessageLabel → Option MessageState
  | .size m => some { s with calls := s.calls ++ [.sized m s.io.worker.messages.length] }
  | .push i =>
    match s.calls[i]? with
    | some (.sized m previousSize) =>
      if QueueFull maxCacheMessageCnt s then some (s.leave i)
      else
        (sendSystem P s.io (.enqueue m)).map fun io =>
          if previousSize = 0 then { s with io := io, calls := s.calls.set i .pushed }
          else { s.leave i with io := io }
    | _ => none
  | .addExternalRWOpEvent i =>
    match s.calls[i]? with
    | some .pushed =>
      some { s with calls := s.calls.eraseIdx i, writeEvents := s.writeEvents + 1 }
    | _ => none
  | .handleWriteEvent =>
    if 0 < s.writeEvents then
      (sendSystem P s.io .call).map fun io =>
        { s with io := io, writeEvents := s.writeEvents - 1 }
    else none
  | .reportWritable => (sendSystem P s.io .call).map fun io => { s with io := io }
  | .step => (sendSystem P s.io .step).map fun io => { s with io := io }

/-- A new worker on a socket whose calls of `write` follow a script. -/
def MessageState.init (P : MemSource) (logicPeer realPeer : NetPeerInfo)
    (incoming : List UInt8) (reads writes : List IoOp) : MessageState :=
  ⟨SendState.init P logicPeer realPeer incoming reads writes, [], 0⟩

/-! ## Nobody waits in vain -/

/-- The number of bytes that `Send` finds in the sending buffer. -/
def Worker.unsent (w : Worker) : Nat :=
  match w.sendingBuffer with
  | some b => sizeT b.availableLength
  | none => 0

/-- The thread is not inside `Send`. -/
def SendPc.isIdle : SendPc → Bool
  | .idle _ => true
  | _ => false

/-- When nobody is in `SendMessage` or in `Send` and the queue is not empty, a write event
is queued or the socket is going to report that it takes the unsent bytes. -/
def WokenUp (s : MessageState) : Prop :=
  s.calls = [] → s.io.pc.isIdle = true → s.io.worker.messages ≠ [] →
    0 < s.writeEvents ∨ 0 < s.io.worker.unsent

/-- The call has read an empty queue, so it posts a write event before it returns. -/
def SendCall.posts : SendCall → Bool
  | .sized _ previousSize => previousSize = 0
  | .pushed => true

/-- Somebody outside `Send` is going to have the thread enter it. -/
def Posted (s : MessageState) : Prop :=
  0 < s.writeEvents ∨ ∃ c ∈ s.calls, c.posts = true

/-- Somebody is going to look at the queue. -/
def Attended (s : MessageState) : Prop :=
  Posted s ∨ s.io.pc.isIdle = false ∨ 0 < s.io.worker.unsent

/-- The `Write` makes `Send` give up. -/
def WriteResult.givesUp : WriteResult → Bool
  | .closed => true
  | .wrote _ => false
  | .failed err => err ≠ eagain

/-- A caller that has read a non-empty queue, or finds it full, leaves while somebody else
attends to the queue, and a `Write` that fails leaves no message behind that nobody posts an
event for. -/
def Attends (maxCacheMessageCnt : Nat) (s : MessageState) : MessageLabel → Prop
  | .push i =>
    match s.calls[i]? with
    | some (.sized _ previousSize) =>
      previousSize ≠ 0 ∨ QueueFull maxCacheMessageCnt s → Attended (s.leave i)
    | _ => True
  | .step =>
    match s.io.pc with
    | .wrote r => r.givesUp = true → s.io.worker.messages = [] ∨ Posted s
    | _ => True
  | _ => True

instance (s : MessageState) : Decidable (Posted s) := by
  unfold Posted
  infer_instance

instance (s : MessageState) : Decidable (Attended s) := by
  unfold Attended
  infer_instance

instance (l : List SndMessage) : Decidable (l = []) :=
  decidable_of_iff (l.isEmpty = true) List.isEmpty_iff

instance (maxCacheMessageCnt : Nat) (s : MessageState) (a : MessageLabel) :
    Decidable (Attends maxCacheMessageCnt s a) := by
  unfold Attends
  split <;> (try split) <;> infer_instance

/-- A queue that is not empty is attended to, and behind a `Write` the sending buffer still
holds what was written. -/
structure WakeInv (s : MessageState) : Prop where
  attended : s.io.worker.messages = [] ∨ Attended s
  wrote : ∀ r, s.io.pc = .wrote r → 0 < s.io.worker.unsent

theorem init_wakeInv (P : MemSource) (logicPeer realPeer : NetPeerInfo)
    (incoming : List UInt8) (reads writes : List IoOp) :
    WakeInv (MessageState.init P logicPeer realPeer incoming reads writes) := by
  refine ⟨.inl rfl, ?_⟩
  nofun

theorem WakeInv.wokenUp {s : MessageState} (h : WakeInv s) : WokenUp s := by
  intro hcalls hidle hmessages
  have hattended := h.attended.resolve_left hmessages
  rcases hattended with (hevents | ⟨c, hc, _⟩) | hbusy | hunsent
  · exact .inl hevents
  · simp [hcalls] at hc
  · simp [hidle] at hbusy
  · exact .inr hunsent

section Step

variable {P : MemSource} {maxCnt : Nat} {s s' : MessageState} {a : MessageLabel}

/-- `TryPush` of a caller. -/
theorem push_wakeInv {i : Nat} (h : WakeInv s) (ha : Attends maxCnt s (.push i))
    (hstep : messageStep P maxCnt s (.push i) = some s') : WakeInv s' := by
  cases hc : s.calls[i]? with
  | none => simp [messageStep, hc] at hstep
  | some c =>
    cases c with
    | pushed => simp [messageStep, hc] at hstep
    | sized m previousSize =>
      simp only [messageStep, hc, sendSystem, Option.map_some] at hstep
      simp only [Attends, hc] at ha
      split_ifs at hstep with hfull hzero <;> cases hstep
      · exact ⟨.inr (ha (.inr hfull)), h.wrote⟩
      · have hmem : SendCall.pushed ∈ s.calls.set i .pushed :=
          List.mem_set (List.getElem?_eq_some_iff.1 hc).1 _
        exact ⟨.inr (.inl (.inr ⟨_, hmem, rfl⟩)), h.wrote⟩
      · exact ⟨.inr (ha (.inl hzero)), h.wrote⟩

/-- The head of the loop leaves `Send` only when the queue is empty. -/
theorem sendHead_looks (w : Worker) (sock : Socket) :
    ((sendHead w sock).1 = .idle true ∧ (sendHead w sock).2.1.messages = []) ∨
      ((sendHead w sock).1.isIdle = false ∧
        ∀ r, (sendHead w sock).1 = .wrote r → 0 < (sendHead w sock).2.1.unsent) := by
  unfold sendHead
  extract_lets size bs r
  split_ifs with hsize
  · refine .inr ⟨rfl, ?_⟩
    intro _ _
    exact hsize
  · split
    · refine .inr ⟨rfl, ?_⟩
      nofun
    · rename_i hmessages
      exact .inl ⟨rfl, hmessages⟩

/-- A `Write` that fails leaves `Send` with the queue as it is and an empty buffer. -/
theorem sendWrote_givesUp (w : Worker) {r : WriteResult} (hr : r.givesUp = true) :
    (sendWrote w r).1 = .idle false ∧ (sendWrote w r).2.messages = w.messages ∧
      (sendWrote w r).2.unsent = 0 := by
  have hput : (putSendBuffer w).unsent = 0 := by
    cases hb : w.sendingBuffer with
    | none | some => simp [putSendBuffer, Worker.unsent, hb]
  cases r with
  | wrote n => simp [WriteResult.givesUp] at hr
  | closed => exact ⟨rfl, putSendBuffer_messages w, hput⟩
  | failed err =>
    have herr : err ≠ eagain := by simpa [WriteResult.givesUp] using hr
    rw [sendWrote, if_pos herr]
    exact ⟨rfl, putSendBuffer_messages w, hput⟩

/-- After any other `Write` the loop goes on, or the buffer is left as it is. -/
theorem sendWrote_goesOn (w : Worker) {r : WriteResult} (hr : r.givesUp = false) :
    (sendWrote w r).1 = .head ∨ (sendWrote w r) = (.idle true, w) := by
  cases r with
  | closed => simp [WriteResult.givesUp] at hr
  | wrote n =>
    refine .inl ?_
    simp only [sendWrote]
    split_ifs <;> rfl
  | failed err =>
    have herr : err = eagain := by simpa [WriteResult.givesUp] using hr
    exact .inr (by simp [sendWrote, herr])

theorem sendPopped_busy (P : MemSource) (w : Worker) (sm : SndMessage) :
    (sendPopped P w sm).1.isIdle = false ∧ ∀ r, (sendPopped P w sm).1 ≠ .wrote r := by
  unfold sendPopped
  split <;> simp [SendPc.isIdle]

/-- A step of `Send`. -/
theorem step_wakeInv (h : WakeInv s) (ha : Attends maxCnt s .step)
    (hstep : messageStep P maxCnt s .step = some s') : WakeInv s' := by
  simp only [messageStep, sendSystem, Option.map_map, Option.map_eq_some_iff] at hstep
  obtain ⟨r, hr, rfl⟩ := hstep
  cases hpc : s.io.pc with
  | idle | threw => simp [sendStep, hpc] at hr
  | head =>
    simp only [sendStep, hpc] at hr
    cases hr
    rcases sendHead_looks s.io.worker s.io.sock with ⟨hidle, hempty⟩ | ⟨hbusy, hwrote⟩
    · refine ⟨.inl hempty, ?_⟩
      intro r hr
      exact absurd (hidle.symm.trans hr) (by simp)
    · exact ⟨.inr (.inr (.inl hbusy)), hwrote⟩
  | popped sm =>
    simp only [sendStep, hpc] at hr
    cases hr
    obtain ⟨hbusy, hwrote⟩ := sendPopped_busy P s.io.worker sm
    exact ⟨.inr (.inr (.inl hbusy)), fun r hr => absurd hr (hwrote r)⟩
  | wrote result =>
    simp only [sendStep, hpc] at hr
    cases hr
    simp only [Attends, hpc] at ha
    cases hgives : result.givesUp with
    | true =>
      obtain ⟨hidle, hmessages, _⟩ := sendWrote_givesUp s.io.worker hgives
      refine ⟨?_, ?_⟩
      · rcases ha hgives with hempty | hposted
        · exact .inl (hmessages.trans hempty)
        · exact .inr (.inl hposted)
      · intro r hr
        exact absurd (hidle.symm.trans hr) (by simp)
    | false =>
      rcases sendWrote_goesOn s.io.worker hgives with hhead | hblocked
      · refine ⟨.inr (.inr (.inl ?_)), ?_⟩
        · simp [hhead, SendPc.isIdle]
        · intro r hr
          exact absurd (hhead.symm.trans hr) (by simp)
      · have hunsent := h.wrote result hpc
        refine ⟨.inr (.inr (.inr ?_)), ?_⟩
        · simpa [hblocked] using hunsent
        · simp [hblocked]

/-- Every step that attends to the queue keeps the invariant. -/
theorem messageStep_attended (h : WakeInv s) (ha : Attends maxCnt s a)
    (hstep : messageStep P maxCnt s a = some s') : WakeInv s' := by
  cases a with
  | size m =>
    cases hstep
    refine ⟨h.attended.imp_right ?_, h.wrote⟩
    refine Or.imp_left (Or.imp_right ?_)
    rintro ⟨c, hc, hposts⟩
    exact ⟨c, List.mem_append_left _ hc, hposts⟩
  | push i => exact push_wakeInv h ha hstep
  | addExternalRWOpEvent i =>
    simp only [messageStep] at hstep
    split at hstep
    · cases hstep
      exact ⟨.inr (.inl (.inl (Nat.succ_pos _))), h.wrote⟩
    · cases hstep
  | handleWriteEvent =>
    simp only [messageStep, sendSystem] at hstep
    split_ifs at hstep
    split at hstep
    · cases hstep
      exact ⟨.inr (.inr (.inl rfl)), by simp⟩
    · simp at hstep
  | reportWritable =>
    simp only [messageStep, sendSystem] at hstep
    split at hstep
    · cases hstep
      exact ⟨.inr (.inr (.inl rfl)), by simp⟩
    · simp at hstep
  | step => exact step_wakeInv h ha hstep

/-! ## A message that is left alone -/

/-- No call of `SendMessage` in progress posts an event, the thread is outside `Send`, and
a message is queued that nobody attends to. -/
structure LeftAlone (s : MessageState) : Prop where
  unattended : ¬ Attended s
  queued : s.io.worker.messages ≠ []

/-- Once the calls in progress have returned the message is still there. -/
theorem LeftAlone.leads (calls : List SendCall) :
    ∀ {s : MessageState}, s.calls = calls → LeftAlone s →
      ∃ labels u, run (messageStep P maxCnt) s labels = some u ∧ ¬ WokenUp u := by
  induction calls with
  | nil =>
    intro s hcalls h
    refine ⟨[], s, rfl, ?_⟩
    intro hwoken
    have hidle : s.io.pc.isIdle = true := by
      by_contra hbusy
      exact h.unattended (.inr (.inl (by simpa using hbusy)))
    rcases hwoken hcalls hidle h.queued with hevents | hunsent
    · exact h.unattended (.inl (.inl hevents))
    · exact h.unattended (.inr (.inr hunsent))
  | cons c calls ih =>
    intro s hcalls h
    have hposts : ∀ d ∈ c :: calls, d.posts = false := by
      intro d hd
      by_contra hposts
      exact h.unattended (.inl (.inr ⟨d, hcalls ▸ hd, by simpa using hposts⟩))
    cases c with
    | pushed => exact absurd (hposts _ List.mem_cons_self) (by simp [SendCall.posts])
    | sized m previousSize =>
      have hsize : previousSize ≠ 0 := by
        simpa [SendCall.posts] using hposts _ List.mem_cons_self
      have hleave : ¬ Attended { s with calls := calls } := by
        rintro ((hevents | ⟨d, hd, hd'⟩) | hrest)
        · exact h.unattended (.inl (.inl hevents))
        · exact absurd (hposts d (List.mem_cons_of_mem _ hd)) (by simp [hd'])
        · exact h.unattended (.inr hrest)
      have hnext : ∃ s', messageStep P maxCnt s (.push 0) = some s' ∧ s'.calls = calls ∧
          LeftAlone s' := by
        by_cases hfull : QueueFull maxCnt s
        · refine ⟨{ s with calls := calls }, ?_, rfl, hleave, h.queued⟩
          simp [messageStep, hcalls, MessageState.leave, hfull]
        · refine ⟨{ s with
              io := { s.io with
                worker := s.io.worker.insertMessage m
                enqueued := s.io.enqueued ++ [m] }
              calls := calls }, ?_, rfl, hleave, by simp [Worker.insertMessage]⟩
          simp [messageStep, hcalls, MessageState.leave, sendSystem, hsize, hfull]
      obtain ⟨s', hstep, hcalls', hs'⟩ := hnext
      obtain ⟨labels, u, hrun, hu⟩ := ih hcalls' hs'
      exact ⟨.push 0 :: labels, u, run_cons_eq_some.2 ⟨_, hstep, hrun⟩, hu⟩

/-- A step that does not attend to the queue leaves a message alone. -/
theorem messageStep_leftAlone (ha : ¬ Attends maxCnt s a)
    (hstep : messageStep P maxCnt s a = some s') : LeftAlone s' := by
  cases a with
  | push i =>
    cases hc : s.calls[i]? with
    | none => simp [Attends, hc] at ha
    | some c =>
      cases c with
      | pushed => simp [Attends, hc] at ha
      | sized m previousSize =>
        simp only [Attends, hc, Classical.not_imp] at ha
        obtain ⟨hleaves, hunattended⟩ := ha
        simp only [messageStep, hc, sendSystem, Option.map_some] at hstep
        split_ifs at hstep with hfull hzero <;> cases hstep
        · refine ⟨hunattended, ?_⟩
          intro hempty
          have hlen : maxCnt ≤ s.io.worker.messages.length := hfull.2
          have hnil : s.io.worker.messages = [] := hempty
          rw [hnil, List.length_nil] at hlen
          exact hfull.1 (Nat.le_zero.1 hlen)
        · exact absurd hleaves (by simp [hzero, hfull])
        · exact ⟨hunattended, by simp [Worker.insertMessage]⟩
  | step =>
    simp only [messageStep, sendSystem, Option.map_map, Option.map_eq_some_iff] at hstep
    obtain ⟨r, hr, rfl⟩ := hstep
    cases hpc : s.io.pc with
    | wrote result =>
      simp only [Attends, hpc, Classical.not_imp, not_or] at ha
      obtain ⟨hgives, hqueued, hposted⟩ := ha
      simp only [sendStep, hpc] at hr
      cases hr
      obtain ⟨hidle, hmessages, hunsent⟩ := sendWrote_givesUp s.io.worker hgives
      refine ⟨?_, by simpa [hmessages] using hqueued⟩
      rintro (hposted' | hbusy | hunsent')
      · exact hposted hposted'
      · simp [hidle, SendPc.isIdle] at hbusy
      · simp [hunsent] at hunsent'
    | _ => simp [Attends, hpc] at ha
  | _ => exact absurd trivial ha

end Step

/-! ## Whole runs -/

/-- No message is ever left in the queue with nobody to look at it, as long as callers that
have read a non-empty queue, or find it full, leave while somebody else attends to it and no
failing `Write` leaves a message behind.  Every other run has a beginning that leads to a
lost wake-up. -/
theorem no_lost_wakeup (P : MemSource) (maxCacheMessageCnt : Nat)
    (logicPeer realPeer : NetPeerInfo) (incoming : List UInt8) (reads writes : List IoOp)
    (labels : List MessageLabel) (t : MessageState)
    (hrun : run (messageStep P maxCacheMessageCnt)
      (.init P logicPeer realPeer incoming reads writes) labels = some t) :
    (Guarded (messageStep P maxCacheMessageCnt) (Attends maxCacheMessageCnt)
        (.init P logicPeer realPeer incoming reads writes) labels →
      Always (messageStep P maxCacheMessageCnt) WokenUp
        (.init P logicPeer realPeer incoming reads writes) labels) ∧
    (¬ Guarded (messageStep P maxCacheMessageCnt) (Attends maxCacheMessageCnt)
        (.init P logicPeer realPeer incoming reads writes) labels →
      ∃ labels' more u, labels' <+: labels ∧
        run (messageStep P maxCacheMessageCnt)
          (.init P logicPeer realPeer incoming reads writes) (labels' ++ more) = some u ∧
        ¬ WokenUp u) := by
  have hinit := init_wakeInv P logicPeer realPeer incoming reads writes
  constructor
  · intro hguard
    have halways : Always (messageStep P maxCacheMessageCnt) WakeInv _ labels :=
      always_of_guarded (fun _ _ _ h ha hstep => messageStep_attended h ha hstep) hinit hguard
    exact halways.mono fun _ h => h.wokenUp
  · exact exists_violation (I := WakeInv)
      (fun _ _ _ h ha hstep => messageStep_attended h ha hstep)
      (fun _ _ s' _ ha hstep =>
        LeftAlone.leads s'.calls rfl (messageStep_leftAlone ha hstep)) hinit hrun

/-- Two callers, the second one pushes while the write event of the first is queued. -/
theorem no_lost_wakeup_two_callers :
    let P : MemSource := pagePool
    let peer : NetPeerInfo := ⟨⟨"localhost", 80⟩, .tcp⟩
    let m₁ : SndMessage := ⟨1, [7, 8, 9], peer, by decide, by decide⟩
    let m₂ : SndMessage := ⟨2, [10], peer, by decide, by decide⟩
    let s : MessageState := .init P peer peer [] [] [.transfer 100, .transfer 5, .fail eagain]
    let labels : List MessageLabel := [.size m₁, .push 0, .size m₂, .push 1,
      .addExternalRWOpEvent 0, .handleWriteEvent, .step, .step, .step, .step, .step, .step,
      .step, .step, .step, .step]
    (run (messageStep P 0) s labels).isSome = true ∧ Always (messageStep P 0) WokenUp s labels := by
  intro P peer m₁ m₂ s labels
  have hsome : (run (messageStep P 0) s labels).isSome = true := by decide +kernel
  exact ⟨hsome, (no_lost_wakeup P 0 peer peer [] [] _ labels _ (Option.some_get hsome).symm).1
    (by decide +kernel)⟩

/-- The second caller reads the size while the message of the first is queued and pushes
after the I/O thread has sent that message and left `Send`. -/
theorem wakeup_lost :
    let P : MemSource := pagePool
    let peer : NetPeerInfo := ⟨⟨"localhost", 80⟩, .tcp⟩
    let m₁ : SndMessage := ⟨1, [7, 8, 9], peer, by decide, by decide⟩
    let m₂ : SndMessage := ⟨2, [10], peer, by decide, by decide⟩
    let s : MessageState := .init P peer peer [] [] [.transfer 100]
    let labels : List MessageLabel := [.size m₁, .push 0, .addExternalRWOpEvent 0, .size m₂,
      .handleWriteEvent, .step, .step, .step, .step, .step, .push 0]
    ∃ t, run (messageStep P 0) s labels = some t ∧ t.calls = [] ∧ t.io.pc.isIdle = true ∧
      t.io.worker.messages.map SndMessage.id = [2] ∧ t.writeEvents = 0 ∧
      t.io.worker.unsent = 0 ∧ ¬ WokenUp t := by
  intro P peer m₁ m₂ s labels
  obtain ⟨t, hrun, hcalls, hidle, hqueue, hevents, hunsent⟩ : ∃ t ∈ run (messageStep P 0) s labels,
      t.calls.length = 0 ∧ t.io.pc.isIdle = true ∧ t.io.worker.messages.map SndMessage.id = [2] ∧
        t.writeEvents = 0 ∧ t.io.worker.unsent = 0 := by
    decide +kernel
  rw [List.length_eq_zero_iff] at hcalls
  refine ⟨t, hrun, hcalls, hidle, hqueue, hevents, hunsent, ?_⟩
  intro hwoken
  have hqueued : t.io.worker.messages ≠ [] := by
    intro hempty
    simp [hempty] at hqueue
  have hcovered := hwoken hcalls hidle hqueued
  omega

end Net
end CCraft
