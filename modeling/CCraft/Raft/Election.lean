import CCraft.Lib.Run
import CCraft.Raft.RequestVote
import CCraft.Rpc.Server

/-!
# Elections and the ids of their messages

A server that starts an election clears the set of the ids it has sent, increments its term
and hands a request for every other server to a thread pool.  The pool sends the requests and
reports the id of each one, or zero when the send has failed, to `OnMessageSent`, which puts it
into the set whenever that is.  A reply counts if its id is in the set.

The clearing and the increment are done under different locks, and nothing stops the pool
between them or waits for it.  The steps of an election and of the pool interleave in any
order.  An election number counts the increments of the term, and the history says for each
message that was sent in which election its request was broadcast.

Main results:

- Theorem {lit}`electionStep_records`: what every step keeps.
- Theorems {lit}`electionStep_current` and {lit}`electionStep_stale`: which steps keep only ids
  of the current election in the set.
- Theorem {lit}`vote_replies_current_iff`: the same for every interleaving.
-/

namespace CCraft
namespace Raft

open RfLog Net Rpc Runs

/-! ## Replies -/

/-- `NodeRoleType`. -/
inductive NodeRoleType where
  | leader
  | candidate
  | follower
deriving DecidableEq, Repr

/-- `is_valid_msg_id`: whether the reply counts, and its buffer; {lit}`none` when the buffer has
no position to read from. -/
def isValidMsgId (nrt : NodeRoleType) (sentMsgsId : Finset Nat) (rm : RcvMessage) :
    Option (Bool × Common.Buffer) :=
  rm.buffer.pos.map fun p =>
    let rpcCode := Common.readUInt 2 rm.buffer.mem p
    if RpcCode.ok.toNat ≠ rpcCode then (false, rm.buffer)
    else
      match nrt with
      | .leader | .candidate =>
        (decide (rm.header.id ∈ sentMsgsId), rm.buffer.moveHeadBack 2)
      | .follower => (false, rm.buffer.moveHeadBack 2)

/-! ## Elections -/

/-- What a server does not change: its logger, its id and the other servers. -/
structure Candidate where
  pRfLogger : IRfLogger
  myId : UInt32
  otherSrvs : List (UInt32 × RfServer)

/-- How far `start_new_election` has come. -/
inductive ElectionPc where
  | waiting
  | cleared
  | prepared
  | broadcasting (rest : List (NetPeerInfo × RequestVoteRequest))
deriving DecidableEq, Repr

/-- The term has been incremented for the election that is under way. -/
def ElectionPc.inElection : ElectionPc → Bool
  | .waiting => false
  | .cleared => false
  | .prepared => true
  | .broadcasting _ => true

/-- A request in the thread pool, with the election it was broadcast in. -/
structure VoteTask where
  peer : NetPeerInfo
  request : RequestVoteRequest
  election : Nat
deriving DecidableEq, Repr

/-- The id of a message, with the election its request was broadcast in. -/
structure SentVote where
  msgId : Nat
  election : Nat
deriving DecidableEq, Repr

/-- A server: `m_roleType`, `m_iCurrentTerm`, `m_iVoteFor` and `m_sentMsgsId`, how far its
election has come, the tasks of the pool before and after the send, the last id of the
process, the number of elections, and the messages that were sent. -/
structure Election where
  roleType : NodeRoleType
  currentTerm : UInt32
  voteFor : UInt32
  sentMsgsId : Finset Nat
  pc : ElectionPc
  tasks : List VoteTask
  completions : List SentVote
  lastId : Nat
  election : Nat
  sent : List SentVote
deriving DecidableEq

/-- A server as it is started with the term and the vote of its state file. -/
def Election.start (currentTerm voteFor : UInt32) : Election :=
  ⟨.follower, currentTerm, voteFor, ∅, .waiting, [], [], 0, 0, []⟩

/-- The two halves of `prepare_new_election_env`, the beginning of the broadcast and its
rounds, the end of the election, an id that is drawn for any other purpose, and the send and
the report of a task. -/
inductive ElectionLabel where
  | clear
  | advance
  | broadcast
  | addTask
  | subscribe
  | newId
  | send (i : Nat) (ok : Bool)
  | complete (i : Nat)
deriving DecidableEq, Repr

namespace Election

def clear (s : Election) : Election :=
  { s with pc := .cleared, sentMsgsId := ∅ }

def advance (c : Candidate) (s : Election) : Election :=
  { s with
    roleType := .candidate
    currentTerm := s.currentTerm + 1
    voteFor := c.myId
    election := s.election + 1
    pc := .prepared }

/-- `ServerRpcService::RequestVoteAsync`. -/
def addTask (s : Election) (m : NetPeerInfo × RequestVoteRequest)
    (rest : List (NetPeerInfo × RequestVoteRequest)) : Election :=
  { s with tasks := s.tasks ++ [⟨m.1, m.2, s.election⟩], pc := .broadcasting rest }

/-- The first half of `send_req_vote`: the message draws its id, also when it is not taken. -/
def send (s : Election) (i : Nat) (task : VoteTask) (ok : Bool) : Election :=
  let id := Server.getNewId s.lastId
  let sent := if ok then [SentVote.mk id task.election] else []
  { s with
    tasks := s.tasks.eraseIdx i
    lastId := id
    sent := s.sent ++ sent
    completions := s.completions ++ [⟨if ok then id else 0, task.election⟩] }

/-- `OnMessageSent`. -/
def onMessageSent (s : Election) (i : Nat) (sentRet : SentVote) : Election :=
  { s with
    completions := s.completions.eraseIdx i
    sentMsgsId := insert sentRet.msgId s.sentMsgsId }

end Election

section Steps

variable {c : Candidate} {s s' : Election} {a : ElectionLabel}

/-- A step.  A broadcast that is not defined does not go on. -/
def electionStep (c : Candidate) (s : Election) : ElectionLabel → Option Election
  | .clear => if s.pc = .waiting then some s.clear else none
  | .advance => if s.pc = .cleared then some (s.advance c) else none
  | .broadcast =>
    if s.pc = .prepared then
      match broadcastRequestVote c.pRfLogger s.currentTerm c.myId c.otherSrvs with
      | .ok msgs => some { s with pc := .broadcasting msgs }
      | .error _ => none
    else none
  | .addTask =>
    match s.pc with
    | .broadcasting (m :: rest) => some (s.addTask m rest)
    | _ => none
  | .subscribe => if s.pc = .broadcasting [] then some { s with pc := .waiting } else none
  | .newId => some { s with lastId := Server.getNewId s.lastId }
  | .send i ok => s.tasks[i]?.map fun task => s.send i task ok
  | .complete i => s.completions[i]?.map fun sentRet => s.onMessageSent i sentRet

/-- What each step is. -/
inductive ElectionMove (c : Candidate) (s : Election) : ElectionLabel → Election → Prop where
  | clear (hpc : s.pc = .waiting) : ElectionMove c s .clear s.clear
  | advance (hpc : s.pc = .cleared) : ElectionMove c s .advance (s.advance c)
  | broadcast {msgs : List (NetPeerInfo × RequestVoteRequest)} (hpc : s.pc = .prepared) :
      ElectionMove c s .broadcast { s with pc := .broadcasting msgs }
  | addTask {m : NetPeerInfo × RequestVoteRequest}
      {rest : List (NetPeerInfo × RequestVoteRequest)} (hpc : s.pc = .broadcasting (m :: rest)) :
      ElectionMove c s .addTask (s.addTask m rest)
  | subscribe : ElectionMove c s .subscribe { s with pc := .waiting }
  | newId : ElectionMove c s .newId { s with lastId := Server.getNewId s.lastId }
  | send {i : Nat} {ok : Bool} {task : VoteTask} (htask : s.tasks[i]? = some task) :
      ElectionMove c s (.send i ok) (s.send i task ok)
  | complete {i : Nat} {sentRet : SentVote} (hret : s.completions[i]? = some sentRet) :
      ElectionMove c s (.complete i) (s.onMessageSent i sentRet)

theorem electionStep_move (hstep : electionStep c s a = some s') : ElectionMove c s a s' := by
  cases a with
  | clear =>
    obtain ⟨hpc, hs⟩ := Option.ite_none_right_eq_some.1 hstep
    cases hs
    exact .clear hpc
  | advance =>
    obtain ⟨hpc, hs⟩ := Option.ite_none_right_eq_some.1 hstep
    cases hs
    exact .advance hpc
  | broadcast =>
    obtain ⟨hpc, hs⟩ := Option.ite_none_right_eq_some.1 hstep
    split at hs
    · cases hs
      exact .broadcast hpc
    · cases hs
  | addTask =>
    simp only [electionStep] at hstep
    split at hstep
    · rename_i m rest hpc
      cases hstep
      exact .addTask hpc
    · cases hstep
  | subscribe =>
    obtain ⟨-, hs⟩ := Option.ite_none_right_eq_some.1 hstep
    cases hs
    exact .subscribe
  | newId =>
    cases hstep
    exact .newId
  | send i ok =>
    obtain ⟨task, htask, rfl⟩ := Option.map_eq_some_iff.1 hstep
    exact .send htask
  | complete i =>
    obtain ⟨sentRet, hret, rfl⟩ := Option.map_eq_some_iff.1 hstep
    exact .complete hret

/-! ## What every step keeps -/

/-- The records of a server: requests are broadcast in elections that have begun, a server
that has begun one is a candidate, and what the pool reports was sent, if it is not zero. -/
structure Records (s : Election) : Prop where
  in_election : s.pc.inElection = true → 1 ≤ s.election
  candidate : 1 ≤ s.election → s.roleType = .candidate
  tasks_le : ∀ task ∈ s.tasks, 1 ≤ task.election ∧ task.election ≤ s.election
  sent_le : ∀ m ∈ s.sent, 1 ≤ m.election ∧ m.election ≤ s.election
  completed : ∀ r ∈ s.completions, r.msgId ≠ 0 → r ∈ s.sent

theorem records_start (currentTerm voteFor : UInt32) :
    Records (Election.start currentTerm voteFor) := by
  constructor <;> simp [Election.start, ElectionPc.inElection]

theorem Records.clear (h : Records s) : Records s.clear := by
  refine ⟨?_, h.candidate, h.tasks_le, h.sent_le, h.completed⟩
  nofun

theorem Records.advance (h : Records s) : Records (s.advance c) := by
  refine ⟨?_, ?_, ?_, ?_, h.completed⟩
  · intro _
    exact Nat.succ_pos s.election
  · intro _
    rfl
  · intro task htask
    obtain ⟨hpos, hle⟩ := h.tasks_le task htask
    exact ⟨hpos, Nat.le_succ_of_le hle⟩
  · intro m hm
    obtain ⟨hpos, hle⟩ := h.sent_le m hm
    exact ⟨hpos, Nat.le_succ_of_le hle⟩

theorem Records.addTask {m : NetPeerInfo × RequestVoteRequest}
    {rest : List (NetPeerInfo × RequestVoteRequest)} (h : Records s)
    (hpc : s.pc = .broadcasting (m :: rest)) : Records (s.addTask m rest) := by
  have hpos : 1 ≤ s.election := h.in_election (by rw [hpc]; rfl)
  refine ⟨fun _ => hpos, h.candidate, ?_, h.sent_le, h.completed⟩
  exact List.forall_mem_append.2 ⟨h.tasks_le, List.forall_mem_singleton.2 ⟨hpos, Nat.le_refl _⟩⟩

theorem Records.send {i : Nat} {task : VoteTask} (h : Records s) (ok : Bool)
    (htask : s.tasks[i]? = some task) : Records (s.send i task ok) := by
  have hmem : task ∈ s.tasks := List.mem_of_getElem? htask
  refine ⟨h.in_election, h.candidate, ?_, ?_, ?_⟩
  · intro other hother
    exact h.tasks_le other (List.mem_of_mem_eraseIdx hother)
  · refine List.forall_mem_append.2 ⟨h.sent_le, ?_⟩
    cases ok with
    | false => exact List.forall_mem_nil _
    | true => exact List.forall_mem_singleton.2 (h.tasks_le task hmem)
  · refine List.forall_mem_append.2 ⟨fun r hr hne =>
      List.mem_append_left _ (h.completed r hr hne), List.forall_mem_singleton.2 fun hne => ?_⟩
    cases ok with
    | false => exact absurd rfl hne
    | true => exact List.mem_append_right _ (List.mem_singleton.2 rfl)

theorem Records.onMessageSent {i : Nat} {sentRet : SentVote} (h : Records s) :
    Records (s.onMessageSent i sentRet) :=
  ⟨h.in_election, h.candidate, h.tasks_le, h.sent_le,
    fun r hr => h.completed r (List.mem_of_mem_eraseIdx hr)⟩

/-- Every step keeps the records. -/
theorem electionStep_records (h : Records s) (hstep : electionStep c s a = some s') :
    Records s' := by
  cases electionStep_move hstep with
  | clear hpc => exact h.clear
  | advance hpc => exact h.advance
  | broadcast hpc =>
    have hpos : 1 ≤ s.election := h.in_election (by rw [hpc]; rfl)
    exact ⟨fun _ => hpos, h.candidate, h.tasks_le, h.sent_le, h.completed⟩
  | addTask hpc => exact h.addTask hpc
  | subscribe =>
    refine ⟨?_, h.candidate, h.tasks_le, h.sent_le, h.completed⟩
    nofun
  | newId => exact ⟨h.in_election, h.candidate, h.tasks_le, h.sent_le, h.completed⟩
  | send htask => exact h.send _ htask
  | complete hret => exact h.onMessageSent

/-! ## The ids of the current election -/

/-- The set has only ids of messages that were broadcast since the term was incremented last,
none of them zero, and no reply to an earlier one counts. -/
structure CurrentOnly (s : Election) : Prop where
  broadcast_now : ∀ id ∈ s.sentMsgsId, id ≠ 0 ∧
    ∃ m ∈ s.sent, m.msgId = id ∧ m.election = s.election
  none_stale : ∀ m ∈ s.sent, m.election < s.election → ∀ rm : RcvMessage,
    rm.header.id = m.msgId → ∀ b, isValidMsgId s.roleType s.sentMsgsId rm ≠ some (true, b)

/-- The same without replies: no id in the set is one of an earlier message. -/
def Current (s : Election) : Prop :=
  (∀ id ∈ s.sentMsgsId, id ≠ 0 ∧ ∃ m ∈ s.sent, m.msgId = id ∧ m.election = s.election) ∧
    ∀ m ∈ s.sent, m.election < s.election → m.msgId ∉ s.sentMsgsId

/-- Only ids in the set count. -/
theorem mem_of_isValidMsgId {nrt : NodeRoleType} {ids : Finset Nat} {rm : RcvMessage}
    {b : Common.Buffer} (h : isValidMsgId nrt ids rm = some (true, b)) : rm.header.id ∈ ids := by
  obtain ⟨p, -, hvalid⟩ := Option.map_eq_some_iff.1 h
  simp only at hvalid
  split_ifs at hvalid
  · simp at hvalid
  · cases nrt <;> simp_all

/-- A reply without an error. -/
def okReply (id : Nat) : RcvMessage :=
  ⟨⟨messageMagicNo, id, 2⟩, NetPeerInfo.unset, .holding (Common.storeBytes 2 0), 0⟩

/-- For a candidate a reply without an error counts if its id is in the set. -/
theorem isValidMsgId_okReply {ids : Finset Nat} (id : Nat) (h : id ∈ ids) :
    ∃ b, isValidMsgId .candidate ids (okReply id) = some (true, b) := by
  have hmem : (okReply id).header.id ∈ ids := h
  refine ⟨(okReply id).buffer.moveHeadBack 2, ?_⟩
  have hread : Common.readUInt 2 (Common.Buffer.holding (Common.storeBytes 2 0)).mem 1 =
      RpcCode.ok.toNat := by
    decide
  have hcode : Common.readUInt 2 (okReply id).buffer.mem 1 = RpcCode.ok.toNat := hread
  have hpos : (okReply id).buffer.pos = some 1 := rfl
  simp only [isValidMsgId, hpos, Option.map_some, hcode, ne_eq, not_true_eq_false, if_false, hmem,
    decide_true]

theorem currentOnly_iff (h : Records s) : CurrentOnly s ↔ Current s := by
  constructor
  · rintro ⟨hnow, hstale⟩
    refine ⟨hnow, ?_⟩
    intro m hm hlt hmem
    have hcandidate : s.roleType = .candidate := h.candidate (by omega)
    obtain ⟨b, hvalid⟩ := isValidMsgId_okReply _ hmem
    rw [← hcandidate] at hvalid
    exact hstale m hm hlt (okReply m.msgId) rfl b hvalid
  · rintro ⟨hnow, hstale⟩
    refine ⟨hnow, ?_⟩
    intro m hm hlt rm hid b hvalid
    have hmem := mem_of_isValidMsgId hvalid
    rw [hid] at hmem
    exact hstale m hm hlt hmem

/-- The term is incremented when the set is empty, a message of an earlier election does not
get an id of the set, and the pool reports messages of the current election, with an id that is
not zero and is no id of an earlier message. -/
def InTime (s : Election) : ElectionLabel → Prop
  | .advance => s.sentMsgsId = ∅
  | .send i true => ∀ task ∈ s.tasks[i]?,
      task.election = s.election ∨ Server.getNewId s.lastId ∉ s.sentMsgsId
  | .complete i => ∀ r ∈ s.completions[i]?, r.msgId ≠ 0 ∧ r.election = s.election ∧
      ∀ m ∈ s.sent, m.election < s.election → m.msgId ≠ r.msgId
  | _ => True

instance (s : Election) : (a : ElectionLabel) → Decidable (InTime s a)
  | .advance => inferInstanceAs (Decidable (s.sentMsgsId = ∅))
  | .send i true => inferInstanceAs (Decidable (∀ task ∈ s.tasks[i]?,
      task.election = s.election ∨ Server.getNewId s.lastId ∉ s.sentMsgsId))
  | .complete i => inferInstanceAs (Decidable (∀ r ∈ s.completions[i]?, r.msgId ≠ 0 ∧
      r.election = s.election ∧ ∀ m ∈ s.sent, m.election < s.election → m.msgId ≠ r.msgId))
  | .clear | .broadcast | .addTask | .subscribe | .newId | .send _ false => isTrue trivial

/-- An empty set is right for every election. -/
theorem current_of_empty (h : s.sentMsgsId = ∅) : Current s := by
  refine ⟨?_, ?_⟩
  · intro id hid
    rw [h] at hid
    exact absurd hid (Finset.notMem_empty _)
  · intro m _ _
    rw [h]
    exact Finset.notMem_empty _

theorem Current.send {i : Nat} {task : VoteTask} {ok : Bool} (h : Current s)
    (ha : ok = true → task.election = s.election ∨ Server.getNewId s.lastId ∉ s.sentMsgsId) :
    Current (s.send i task ok) := by
  obtain ⟨hnow, hstale⟩ := h
  refine ⟨?_, ?_⟩
  · intro id hid
    obtain ⟨hne, m, hm, hmsg⟩ := hnow id hid
    exact ⟨hne, m, List.mem_append_left _ hm, hmsg⟩
  · refine List.forall_mem_append.2 ⟨hstale, ?_⟩
    cases ok with
    | false => exact List.forall_mem_nil _
    | true =>
      refine List.forall_mem_singleton.2 fun hlt => ?_
      exact (ha rfl).resolve_left (Nat.ne_of_lt hlt)

theorem Current.onMessageSent {i : Nat} {r : SentVote} (hrec : Records s) (h : Current s)
    (hr : r ∈ s.completions) (hne : r.msgId ≠ 0) (helection : r.election = s.election)
    (hfresh : ∀ m ∈ s.sent, m.election < s.election → m.msgId ≠ r.msgId) :
    Current (s.onMessageSent i r) := by
  obtain ⟨hnow, hstale⟩ := h
  refine ⟨?_, ?_⟩
  · intro id hid
    rcases Finset.mem_insert.1 hid with rfl | hold
    · exact ⟨hne, r, hrec.completed r hr hne, rfl, helection⟩
    · exact hnow id hold
  · intro m hm hlt hid
    rcases Finset.mem_insert.1 hid with heq | hold
    · exact hfresh m hm hlt heq
    · exact hstale m hm hlt hold

/-- A step in time keeps only ids of the current election in the set. -/
theorem electionStep_current (hrec : Records s) (h : Current s) (ha : InTime s a)
    (hstep : electionStep c s a = some s') : Current s' := by
  cases electionStep_move hstep with
  | clear hpc => exact current_of_empty rfl
  | advance hpc => exact current_of_empty ha
  | broadcast | addTask | subscribe | newId => exact h
  | send htask =>
    apply h.send
    rintro rfl
    exact ha _ htask
  | complete hret =>
    obtain ⟨hne, helection, hfresh⟩ := ha _ hret
    exact h.onMessageSent hrec (List.mem_of_getElem? hret) hne helection hfresh

/-- Incrementing the term with ids in the set makes them old. -/
theorem not_current_advance (hrec : Records s) (hne : s.sentMsgsId ≠ ∅) :
    ¬ Current (s.advance c) := by
  rintro ⟨hnow, -⟩
  obtain ⟨id, hid⟩ := Finset.nonempty_iff_ne_empty.2 hne
  obtain ⟨-, m, hm, -, helection⟩ := hnow id hid
  have hle := (hrec.sent_le m hm).2
  have hnext : m.election = s.election + 1 := helection
  omega

/-- An old message that gets an id of the set counts as a new one. -/
theorem not_current_send {i : Nat} {task : VoteTask} (hlt : task.election < s.election)
    (hid : Server.getNewId s.lastId ∈ s.sentMsgsId) : ¬ Current (s.send i task true) := by
  rintro ⟨-, hstale⟩
  exact hstale ⟨Server.getNewId s.lastId, task.election⟩
    (List.mem_append_right _ (List.mem_singleton.2 rfl)) hlt hid

/-- A report of an earlier election, of a failed send, or with an old id puts a wrong id into
the set. -/
theorem not_current_onMessageSent {i : Nat} {r : SentVote} (hrec : Records s)
    (hr : r ∈ s.completions)
    (hlate : ¬ (r.msgId ≠ 0 ∧ r.election = s.election ∧
      ∀ m ∈ s.sent, m.election < s.election → m.msgId ≠ r.msgId)) :
    ¬ Current (s.onMessageSent i r) := by
  rintro ⟨hnow, hstale⟩
  have hmem : r.msgId ∈ (s.onMessageSent i r).sentMsgsId := Finset.mem_insert_self _ _
  apply hlate
  have hne : r.msgId ≠ 0 := (hnow r.msgId hmem).1
  have hsent : r ∈ s.sent := hrec.completed r hr hne
  refine ⟨hne, ?_, ?_⟩
  · by_contra helection
    have hle := (hrec.sent_le r hsent).2
    exact hstale r hsent (show r.election < s.election by omega) hmem
  · intro m hm hlt heq
    rw [← heq] at hmem
    exact hstale m hm hlt hmem

/-- Every other step leaves an id of an earlier election, or zero, in the set. -/
theorem electionStep_stale (hrec : Records s) (ha : ¬ InTime s a)
    (hstep : electionStep c s a = some s') : ¬ Current s' := by
  cases electionStep_move hstep with
  | clear | broadcast | addTask | subscribe | newId => exact absurd trivial ha
  | advance hpc => exact not_current_advance hrec ha
  | @send i ok task htask =>
    cases ok with
    | false => exact absurd trivial ha
    | true =>
      simp only [InTime, htask, Option.mem_some_iff, forall_eq', not_or, not_not] at ha
      have hle := (hrec.tasks_le task (List.mem_of_getElem? htask)).2
      exact not_current_send (by omega) ha.2
  | @complete i r hret =>
    refine not_current_onMessageSent hrec (List.mem_of_getElem? hret) ?_
    intro hin
    apply ha
    intro r' hr'
    cases hret.symm.trans hr'
    exact hin

/-- For every interleaving of elections with the sends and the reports of the pool, the set has
only ids of the current election, and no reply to an earlier one counts, exactly when all steps
are in time. -/
theorem vote_replies_current_iff (c : Candidate) (currentTerm voteFor : UInt32)
    (labels : List ElectionLabel) (t : Election)
    (hrun : run (electionStep c) (Election.start currentTerm voteFor) labels = some t) :
    Always (electionStep c) CurrentOnly (Election.start currentTerm voteFor) labels ↔
      Guarded (electionStep c) InTime (Election.start currentTerm voteFor) labels := by
  refine always_iff_guarded (Q := fun _ => True) (I := fun s => Records s ∧ Current s)
    ?_ ?_ ?_ ⟨records_start _ _, current_of_empty rfl⟩ (fun _ _ => trivial) hrun
  · rintro s a s' ⟨hrec, hcur⟩ - ha hstep
    exact ⟨electionStep_records hrec hstep, electionStep_current hrec hcur ha hstep⟩
  · rintro s ⟨hrec, hcur⟩
    exact (currentOnly_iff hrec).2 hcur
  · rintro s a s' ⟨hrec, -⟩ - ha hstep hcur
    exact electionStep_stale hrec ha hstep
      ((currentOnly_iff (electionStep_records hrec hstep)).1 hcur)

end Steps

/-- A server with a logger that has a last entry, and with one other server. -/
def twoServers : Candidate :=
  ⟨⟨.ok (some ⟨1, 1, .data, []⟩), fun _ => .ok none⟩, 1, [(2, ⟨"server2", 5000⟩)]⟩

/-- The request of the first election is sent and reported before the second one begins. -/
theorem vote_replies_current_two_elections :
    Always (electionStep twoServers) CurrentOnly (Election.start 0 0)
      [.clear, .advance, .broadcast, .addTask, .subscribe, .newId, .send 0 true, .complete 0,
        .clear, .advance, .broadcast, .addTask, .subscribe, .newId, .send 0 true,
        .complete 0] :=
  (vote_replies_current_iff twoServers 0 0 _ _ (Option.some_get (by decide +kernel)).symm).2
    (by decide +kernel)

/-- A slow send of the first election is reported in the second one, and a reply to it counts.
A send that fails puts zero into the set. -/
theorem stale_vote_counts :
    (∃ t, run (electionStep twoServers) (Election.start 0 0)
        [.clear, .advance, .broadcast, .addTask, .subscribe, .send 0 true, .clear, .advance,
          .complete 0] = some t ∧
      t.election = 2 ∧ ⟨1, 1⟩ ∈ t.sent ∧ t.sentMsgsId = {1} ∧
      (∃ b, isValidMsgId t.roleType t.sentMsgsId (okReply 1) = some (true, b)) ∧
      ¬ CurrentOnly t) ∧
    ∃ t, run (electionStep twoServers) (Election.start 0 0)
        [.clear, .advance, .broadcast, .addTask, .subscribe, .send 0 false, .complete 0] = some t ∧
      t.sentMsgsId = {0} ∧ ¬ CurrentOnly t := by
  constructor
  · obtain ⟨t, hrun, helection, hmem, hids, hrole⟩ :
        ∃ t ∈ run (electionStep twoServers) (Election.start 0 0)
          [.clear, .advance, .broadcast, .addTask, .subscribe, .send 0 true, .clear, .advance,
            .complete 0],
          t.election = 2 ∧ ⟨1, 1⟩ ∈ t.sent ∧ t.sentMsgsId = {1} ∧ t.roleType = .candidate := by
      decide +kernel
    obtain ⟨b, hvalid⟩ := isValidMsgId_okReply 1 (show 1 ∈ t.sentMsgsId by simp [hids])
    rw [← hrole] at hvalid
    refine ⟨t, hrun, helection, hmem, hids, ⟨b, hvalid⟩, ?_⟩
    intro hcur
    exact hcur.none_stale ⟨1, 1⟩ hmem (by rw [helection]; decide) (okReply 1) rfl b hvalid
  · obtain ⟨t, hrun, hids⟩ : ∃ t ∈ run (electionStep twoServers) (Election.start 0 0)
        [.clear, .advance, .broadcast, .addTask, .subscribe, .send 0 false, .complete 0],
          t.sentMsgsId = {0} := by
      decide +kernel
    refine ⟨t, hrun, hids, ?_⟩
    intro hcur
    exact (hcur.broadcast_now 0 (by simp [hids])).1 rfl

end Raft
end CCraft
