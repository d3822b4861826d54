import CCraft.Rpc.Server

/-!
# Outgoing calls

Each of the four outgoing operations of the messenger draws an id, records it in the mapper
for the client and the peer, and calls the client.  Three of them pass the id on, and the
fourth, `RequestVoteAsync`, calls the overload without an id, whose message draws another one.
The client looks the RPC up, builds the message and hands it to the socket service.  No exit
behind the recording takes the id out of the mapper again.

Main results:

- Theorem {lit}`sendMessageAsync_sent_iff`: when a client sends a frame, and which one.
- Theorem {lit}`addMsgToMapper_records_iff`: when the mapper has recorded an id for a client and
  a peer.
- Theorem {lit}`outgoing_call_agrees_iff`: the calls after which the frame and the mapper agree.
-/

namespace CCraft

open Net Rpc PageMap

namespace Server

/-! ## The sending half of a messenger -/

/-- The names under which the clients register their RPCs. -/
inductive RpcName where
  | appendEntries
  | requestVote
deriving DecidableEq, Repr

/-- What an operation throws: `RpcException` of the mapper, `BadRpcException`, the exception of
the socket service and `RpcClientIsBusyException`. -/
inductive CallError where
  | idConflict
  | noRegisteredRpc (rpcName : RpcName)
  | notSupportNow
  | clientIsBusy
deriving DecidableEq, Repr

/-- A frame as it was taken by the socket service. -/
structure SentFrame (M : Type) where
  id : Nat
  peer : NetPeerInfo
  handlerId : Nat
  msg : M
deriving DecidableEq, Repr

/-- The part of a messenger that sends: the last id of the process, which is never the largest
number, the mapper, `m_hmapRpcs` of its clients, and the socket service. -/
structure Sender where
  lastId : Nat
  lastId_lt : lastId < 2 ^ 64 - 1
  tables : Tables Nat Client NetPeerInfo
  rpcs : Client → AList fun _ : RpcName => Nat
  socketService : SocketService

theorem getNewId_lt_max (lastId : Nat) : getNewId lastId < 2 ^ 64 - 1 := by
  simp only [getNewId]
  split_ifs <;> omega

/-- Two ids drawn one after the other are different. -/
theorem getNewId_ne_self {lastId : Nat} (h : lastId < 2 ^ 64 - 1) : getNewId lastId ≠ lastId := by
  simp only [getNewId]
  split_ifs <;> omega

namespace Sender

/-- `SndMessage::GetNewId`. -/
def drawId (s : Sender) : Sender :=
  { s with lastId := getNewId s.lastId, lastId_lt := getNewId_lt_max s.lastId }

/-- The mapper has changed. -/
def store (s : Sender) (tables : Tables Nat Client NetPeerInfo) : Sender :=
  { s with tables := tables }

/-- `NBSocketService::SendMessage` of a request to a peer. -/
def trySend (s : Sender) (peer : NetPeerInfo) : Except CallError Bool :=
  (s.socketService.send peer).elim (.error .notSupportNow) .ok

end Sender

/-- The end of an operation: the messenger, the frame that was sent, if any, and the id of the
`SentRet` that is returned or waited for, or what was thrown. -/
structure Called (M : Type) where
  sender : Sender
  frame : Option (SentFrame M)
  result : Except CallError Nat

section Calls

variable {M : Type}

/-- The id in the `SentRet` of a send. -/
def sentMsgId (frame : Option (SentFrame M)) : Nat :=
  (frame.map SentFrame.id).getD 0

/-- `ARpcClient::SendMessageAsync` with an id: the frame, if the socket service takes it. -/
def Sender.sendMessageAsync (s : Sender) (client : Client) (rpcName : RpcName) (id : Nat) (msg : M)
    (peer : NetPeerInfo) : Except CallError (Option (SentFrame M)) :=
  match (s.rpcs client).lookup rpcName with
  | none => .error (.noRegisteredRpc rpcName)
  | some handlerId =>
    match s.trySend peer with
    | .error e => .error e
    | .ok false => .ok none
    | .ok true => .ok (some ⟨id, peer, handlerId, msg⟩)

/-- `ARpcClient::SendMessageAsync` without an id: the message draws one once the RPC is found. -/
def Sender.sendMessageAsyncNewId (s : Sender) (client : Client) (rpcName : RpcName) (msg : M)
    (peer : NetPeerInfo) : Except CallError (Option (SentFrame M)) × Sender :=
  match (s.rpcs client).lookup rpcName with
  | none => (.error (.noRegisteredRpc rpcName), s)
  | some _ => (s.sendMessageAsync client rpcName s.drawId.lastId msg peer, s.drawId)

/-- The generated method of an asynchronous client returns the `SentRet`. -/
def asyncResult (frame : Option (SentFrame M)) : Except CallError Nat :=
  .ok (sentMsgId frame)

/-- The generated method of a synchronous client throws if nothing was sent, and waits for the
response otherwise. -/
def syncResult (frame : Option (SentFrame M)) : Except CallError Nat :=
  if sentMsgId frame = 0 then .error .clientIsBusy else .ok (sentMsgId frame)

/-- An operation with what it does behind `add_msg_to_mapper`. -/
def Sender.recorded (s : Sender) (client : Client) (peer : NetPeerInfo)
    (send : Sender → Except CallError (Option (SentFrame M)) × Sender)
    (result : Option (SentFrame M) → Except CallError Nat) : Called M :=
  let s := s.drawId
  match s.tables.addMsgToMapper s.lastId client peer with
  | .error _ => ⟨s, none, .error .idConflict⟩
  | .ok tables =>
    match send (s.store tables) with
    | (.error e, s) => ⟨s, none, .error e⟩
    | (.ok frame, s) => ⟨s, frame, result frame⟩

/-- An operation that passes the id on that it has recorded. -/
def Sender.callWithId (s : Sender) (client : Client) (rpcName : RpcName)
    (result : Option (SentFrame M) → Except CallError Nat) (req : M) (peer : NetPeerInfo) :
    Called M :=
  s.recorded client peer (fun s => (s.sendMessageAsync client rpcName s.lastId req peer, s)) result

/-- `ServerInternalMessenger::AppendEntriesSync`. -/
def Sender.appendEntriesSync (s : Sender) (req : M) (peer : NetPeerInfo) : Called M :=
  s.callWithId .sync .appendEntries syncResult req peer

/-- `ServerInternalMessenger::AppendEntriesAsync`. -/
def Sender.appendEntriesAsync (s : Sender) (req : M) (peer : NetPeerInfo) : Called M :=
  s.callWithId .async .appendEntries asyncResult req peer

/-- `ServerInternalMessenger::RequestVoteSync`. -/
def Sender.requestVoteSync (s : Sender) (req : M) (peer : NetPeerInfo) : Called M :=
  s.callWithId .sync .requestVote syncResult req peer

/-- `ServerInternalMessenger::RequestVoteAsync`, which does not pass the id on. -/
def Sender.requestVoteAsync (s : Sender) (req : M) (peer : NetPeerInfo) : Called M :=
  s.recorded .async peer (fun s => s.sendMessageAsyncNewId .async .requestVote req peer)
    asyncResult

/-- The four operations. -/
def Sender.call (s : Sender) : Rpc → M → NetPeerInfo → Called M
  | .appendEntriesSync => s.appendEntriesSync
  | .appendEntriesAsync => s.appendEntriesAsync
  | .requestVoteSync => s.requestVoteSync
  | .requestVoteAsync => s.requestVoteAsync

/-- The name under which the RPC of an operation is registered. -/
def Rpc.rpcName : Rpc → RpcName
  | .appendEntriesSync => .appendEntries
  | .appendEntriesAsync => .appendEntries
  | .requestVoteSync => .requestVote
  | .requestVoteAsync => .requestVote

/-! ## What the calls are for -/

/-- The mapper has got an id for a client and a peer that it did not have before. -/
structure Records (before after : Tables Nat Client NetPeerInfo) (id : Nat) (client : Client)
    (peer : NetPeerInfo) : Prop where
  fresh : before.msgHandlerMapper.lookup id = none
  handler : after.msgHandlerMapper.lookup id = some client
  listed : id ∈ after.peerSet peer

/-- The id of the frame that is sent was recorded for the peer and the client, and a call that
sends none leaves the mapper as it was. -/
structure CallAgrees (s : Sender) (rpc : Rpc) (peer : NetPeerInfo) (called : Called M) : Prop where
  records : ∀ frame ∈ called.frame, frame.peer = peer ∧
    Records s.tables called.sender.tables frame.id rpc.client peer
  restores : called.frame = none → called.sender.tables = s.tables

/-- The id that the operation draws is in the mapper. -/
def Conflict (s : Sender) : Prop :=
  s.tables.msgHandlerMapper.lookup (getNewId s.lastId) ≠ none

instance (s : Sender) : Decidable (Conflict s) :=
  inferInstanceAs (Decidable (_ ≠ none))

/-- The RPC is registered, and the socket service is running, knows the protocol of the peer
and takes a message for it. -/
def Sends (s : Sender) (rpc : Rpc) (peer : NetPeerInfo) : Prop :=
  ((s.rpcs rpc.client).lookup rpc.rpcName).isSome ∧ s.trySend peer = .ok true

/-! ## Sending -/

variable {s : Sender} {client : Client} {rpcName : RpcName} {id : Nat} {msg : M}
  {peer : NetPeerInfo}

/-- A client sends a frame exactly when it has the RPC and the socket service takes the
message; the frame has the id that was passed. -/
theorem sendMessageAsync_sent_iff {frame : SentFrame M} :
    s.sendMessageAsync client rpcName id msg peer = .ok (some frame) ↔
      ∃ handlerId, (s.rpcs client).lookup rpcName = some handlerId ∧ s.trySend peer = .ok true ∧
        frame = ⟨id, peer, handlerId, msg⟩ := by
  unfold Sender.sendMessageAsync
  cases hrpc : (s.rpcs client).lookup rpcName with
  | none => simp
  | some handlerId =>
    cases hsend : s.trySend peer with
    | error e => simp
    | ok taken =>
      cases taken with
      | false => simp
      | true => simp [eq_comm]

/-- The mapper has recorded an id exactly when it knew the peer. -/
theorem addMsgToMapper_records_iff {t t' : Tables Nat Client NetPeerInfo}
    (h : t.addMsgToMapper id client peer = .ok t') :
    t.msgHandlerMapper.lookup id = none ∧
    (∀ j, t'.msgHandlerMapper.lookup j =
      if j = id then some client else t.msgHandlerMapper.lookup j) ∧
    (Records t t' id client peer ↔ (t.addrMsgMapper.lookup peer).isSome) := by
  unfold Tables.addMsgToMapper at h
  cases hid : t.msgHandlerMapper.lookup id with
  | some handler =>
    simp only [hid] at h
    cases h
  | none =>
    cases hpeer : t.addrMsgMapper.lookup peer with
    | some ids =>
      simp only [hid, hpeer] at h
      cases h
      refine ⟨rfl, fun j => lookup_insert_eq, ?_⟩
      simp only [Option.isSome_some, iff_true]
      refine ⟨hid, ?_, ?_⟩
      · simp
      · simp [Tables.peerSet]
    | none =>
      simp only [hid, hpeer] at h
      cases h
      refine ⟨rfl, fun j => lookup_insert_eq, ?_⟩
      simp only [Option.isSome_none, Bool.false_eq_true, iff_false]
      intro hrec
      have hlisted := hrec.listed
      simp [Tables.peerSet] at hlisted

theorem addMsgToMapper_conflict {t : Tables Nat Client NetPeerInfo}
    (h : t.msgHandlerMapper.lookup id ≠ none) :
    t.addMsgToMapper id client peer = .error .conflict := by
  obtain ⟨handler, hid⟩ := Option.ne_none_iff_exists'.1 h
  rw [Tables.addMsgToMapper, hid]

theorem addMsgToMapper_ok {t : Tables Nat Client NetPeerInfo} (client : Client)
    (peer : NetPeerInfo) (h : t.msgHandlerMapper.lookup id = none) :
    ∃ t', t.addMsgToMapper id client peer = .ok t' := by
  rw [Tables.addMsgToMapper, h]
  cases t.addrMsgMapper.lookup peer with
  | some | none => exact ⟨_, rfl⟩

/-! ## The operations -/

/-- The frame of a send that did not throw. -/
def sentFrame : Except CallError (Option (SentFrame M)) → Option (SentFrame M)
  | .ok frame => frame
  | .error _ => none

theorem sentFrame_eq_some {r : Except CallError (Option (SentFrame M))} {frame : SentFrame M} :
    sentFrame r = some frame ↔ r = .ok (some frame) := by
  cases r with
  | ok | error => simp [sentFrame]

/-- The frame that a client sends, if it does. -/
theorem sendMessageAsync_frame (hrpc : ((s.rpcs client).lookup rpcName).isSome)
    (hsend : s.trySend peer = .ok true) :
    ∃ frame, sentFrame (s.sendMessageAsync client rpcName id msg peer) = some frame ∧
      frame.peer = peer ∧ frame.id = id := by
  obtain ⟨handlerId, hlookup⟩ := Option.isSome_iff_exists.1 hrpc
  exact ⟨⟨id, peer, handlerId, msg⟩,
    sentFrame_eq_some.2 (sendMessageAsync_sent_iff.2 ⟨handlerId, hlookup, hsend, rfl⟩), rfl, rfl⟩

theorem sendMessageAsync_frame_none
    (h : ¬ (((s.rpcs client).lookup rpcName).isSome ∧ s.trySend peer = .ok true)) :
    sentFrame (s.sendMessageAsync client rpcName id msg peer) = none := by
  rw [Option.eq_none_iff_forall_ne_some]
  intro frame hframe
  obtain ⟨handlerId, hlookup, hsend, -⟩ := sendMessageAsync_sent_iff.1 (sentFrame_eq_some.1 hframe)
  exact h ⟨Option.isSome_iff_exists.2 ⟨handlerId, hlookup⟩, hsend⟩

variable {send : Sender → Except CallError (Option (SentFrame M)) × Sender}
  {result : Option (SentFrame M) → Except CallError Nat}

/-- An id that is in the mapper ends the operation. -/
theorem recorded_conflict (h : Conflict s) :
    (s.recorded client peer send result).frame = none ∧
      (s.recorded client peer send result).sender.tables = s.tables := by
  have hadd : s.drawId.tables.addMsgToMapper s.drawId.lastId client peer = .error .conflict :=
    addMsgToMapper_conflict h
  have hrun : s.recorded client peer send result = ⟨s.drawId, none, .error .idConflict⟩ := by
    simp only [Sender.recorded, hadd]
  rw [hrun]
  exact ⟨rfl, rfl⟩

/-- Otherwise the message is sent with the mapper as it is then. -/
theorem recorded_ok {t : Tables Nat Client NetPeerInfo}
    (send : Sender → Except CallError (Option (SentFrame M)) × Sender)
    (result : Option (SentFrame M) → Except CallError Nat)
    (h : s.tables.addMsgToMapper (getNewId s.lastId) client peer = .ok t) :
    (s.recorded client peer send result).frame =
        sentFrame (send (s.drawId.store t)).1 ∧
      (s.recorded client peer send result).sender = (send (s.drawId.store t)).2 := by
  have hadd : s.drawId.tables.addMsgToMapper s.drawId.lastId client peer = .ok t := h
  simp only [Sender.recorded, hadd]
  rcases send (s.drawId.store t) with ⟨e | frame, s'⟩
  · exact ⟨rfl, rfl⟩
  · exact ⟨rfl, rfl⟩

/-- The id in the header of the frame of an operation. -/
def frameId (s : Sender) : Rpc → Nat
  | .requestVoteAsync => getNewId (getNewId s.lastId)
  | _ => getNewId s.lastId

/-- What an operation does behind the recording: the mapper stays as it is then, and a frame is
sent or not. -/
structure Calls (s : Sender) (rpc : Rpc) (peer : NetPeerInfo)
    (t : Tables Nat Client NetPeerInfo) (called : Called M) : Prop where
  tables_eq : called.sender.tables = t
  sends : Sends s rpc peer →
    ∃ frame, called.frame = some frame ∧ frame.peer = peer ∧ frame.id = frameId s rpc
  fails : ¬ Sends s rpc peer → called.frame = none

/-- The three operations that pass their id on. -/
theorem callWithId_calls (rpc : Rpc) {t : Tables Nat Client NetPeerInfo}
    (hid : frameId s rpc = getNewId s.lastId)
    (h : s.tables.addMsgToMapper (getNewId s.lastId) rpc.client peer = .ok t) :
    Calls s rpc peer t (s.callWithId rpc.client rpc.rpcName result msg peer) := by
  obtain ⟨hframe, hsender⟩ := recorded_ok
    (fun s => (s.sendMessageAsync rpc.client rpc.rpcName s.lastId msg peer, s)) result h
  refine ⟨?_, ?_, ?_⟩
  · rw [Sender.callWithId, hsender]
    rfl
  · rintro ⟨hrpc, hsend⟩
    rw [Sender.callWithId, hframe, hid]
    exact sendMessageAsync_frame (s := s.drawId.store t) hrpc hsend
  · intro hnot
    rw [Sender.callWithId, hframe]
    exact sendMessageAsync_frame_none (s := s.drawId.store t) hnot

/-- The fourth operation. -/
theorem requestVoteAsync_calls {t : Tables Nat Client NetPeerInfo}
    (h : s.tables.addMsgToMapper (getNewId s.lastId) .async peer = .ok t) :
    Calls s .requestVoteAsync peer t (s.requestVoteAsync msg peer) := by
  obtain ⟨hframe, hsender⟩ := recorded_ok
    (fun s => s.sendMessageAsyncNewId .async .requestVote msg peer) asyncResult h
  cases hrpc : (s.rpcs .async).lookup .requestVote with
  | none =>
    have hsent : (s.drawId.store t).sendMessageAsyncNewId .async .requestVote msg peer =
        (.error (.noRegisteredRpc .requestVote), s.drawId.store t) := by
      have hlookup : ((s.drawId.store t).rpcs .async).lookup .requestVote = none := hrpc
      rw [Sender.sendMessageAsyncNewId, hlookup]
    refine ⟨?_, ?_, ?_⟩
    · rw [Sender.requestVoteAsync, hsender, hsent]
      rfl
    · rintro ⟨hfound, -⟩
      rw [Rpc.client, Rpc.rpcName, hrpc] at hfound
      cases hfound
    · intro _
      rw [Sender.requestVoteAsync, hframe, hsent]
      rfl
  | some handlerId =>
    have hsent : (s.drawId.store t).sendMessageAsyncNewId .async .requestVote msg peer =
        ((s.drawId.store t).sendMessageAsync .async .requestVote
          (getNewId (getNewId s.lastId)) msg peer, (s.drawId.store t).drawId) := by
      have hlookup : ((s.drawId.store t).rpcs .async).lookup .requestVote = some handlerId := hrpc
      rw [Sender.sendMessageAsyncNewId, hlookup]
      rfl
    refine ⟨?_, ?_, ?_⟩
    · rw [Sender.requestVoteAsync, hsender, hsent]
      rfl
    · rintro ⟨hfound, hsend⟩
      rw [Sender.requestVoteAsync, hframe, hsent]
      exact sendMessageAsync_frame (s := s.drawId.store t) hfound hsend
    · intro hnot
      rw [Sender.requestVoteAsync, hframe, hsent]
      exact sendMessageAsync_frame_none (s := s.drawId.store t) hnot

theorem call_calls {rpc : Rpc} {t : Tables Nat Client NetPeerInfo} (msg : M)
    (h : s.tables.addMsgToMapper (getNewId s.lastId) rpc.client peer = .ok t) :
    Calls s rpc peer t (s.call rpc msg peer) := by
  cases rpc with
  | appendEntriesSync => exact callWithId_calls .appendEntriesSync rfl h
  | appendEntriesAsync => exact callWithId_calls .appendEntriesAsync rfl h
  | requestVoteSync => exact callWithId_calls .requestVoteSync rfl h
  | requestVoteAsync => exact requestVoteAsync_calls h

theorem call_conflict (h : Conflict s) (rpc : Rpc) (msg : M) (peer : NetPeerInfo) :
    (s.call rpc msg peer).frame = none ∧ (s.call rpc msg peer).sender.tables = s.tables := by
  cases rpc with
  | appendEntriesSync | appendEntriesAsync | requestVoteSync | requestVoteAsync =>
    exact recorded_conflict h

/-! ## Agreement -/

/-- A call that draws an id of the mapper sends nothing and changes nothing. -/
theorem callAgrees_of_conflict (h : Conflict s) (rpc : Rpc) (msg : M) (peer : NetPeerInfo) :
    CallAgrees s rpc peer (s.call rpc msg peer) := by
  obtain ⟨hframe, htables⟩ := call_conflict h rpc msg peer
  refine ⟨?_, fun _ => htables⟩
  intro frame hmem
  rw [hframe] at hmem
  cases hmem

/-- For a call that sends a frame only the id of this frame counts. -/
theorem callAgrees_iff_records {rpc : Rpc} {called : Called M} {frame : SentFrame M}
    (hframe : called.frame = some frame) (hpeer : frame.peer = peer) :
    CallAgrees s rpc peer called ↔
      Records s.tables called.sender.tables frame.id rpc.client peer := by
  constructor
  · intro h
    exact (h.records frame hframe).2
  · intro hrec
    constructor
    · intro other hother
      cases hframe.symm.trans hother
      exact ⟨hpeer, hrec⟩
    · intro hnone
      rw [hframe] at hnone
      cases hnone

/-- The id of the frame was recorded exactly when the mapper knew the peer and the id is the
one that was drawn first, which in `RequestVoteAsync` it is not. -/
theorem records_frameId_iff {rpc : Rpc} {t : Tables Nat Client NetPeerInfo}
    (h : s.tables.addMsgToMapper (getNewId s.lastId) rpc.client peer = .ok t) :
    Records s.tables t (frameId s rpc) rpc.client peer ↔
      rpc ≠ .requestVoteAsync ∧ (s.tables.addrMsgMapper.lookup peer).isSome := by
  obtain ⟨-, hlookup, hrecords⟩ := addMsgToMapper_records_iff h
  by_cases hvote : rpc = .requestVoteAsync
  · refine iff_of_false ?_ (fun hboth => hboth.1 hvote)
    intro hrec
    have hne : frameId s rpc ≠ getNewId s.lastId := by
      rw [hvote]
      exact getNewId_ne_self (getNewId_lt_max s.lastId)
    have hhandler := hrec.handler
    rw [hlookup, if_neg hne, hrec.fresh] at hhandler
    cases hhandler
  · have hsame : frameId s rpc = getNewId s.lastId := by
      cases rpc with
      | requestVoteAsync => exact absurd rfl hvote
      | _ => rfl
    rw [hsame, hrecords]
    exact (and_iff_right hvote).symm

/-- A call that records its id and sends nothing leaves the id in the mapper. -/
theorem not_callAgrees_of_unsent {rpc : Rpc} {t : Tables Nat Client NetPeerInfo}
    {called : Called M}
    (h : s.tables.addMsgToMapper (getNewId s.lastId) rpc.client peer = .ok t)
    (htables : called.sender.tables = t) (hframe : called.frame = none) :
    ¬ CallAgrees s rpc peer called := by
  intro hagrees
  obtain ⟨hfresh, hlookup, -⟩ := addMsgToMapper_records_iff h
  have hsame : t = s.tables := htables.symm.trans (hagrees.restores hframe)
  have hnew := hlookup (getNewId s.lastId)
  rw [if_pos rfl, hsame, hfresh] at hnew
  cases hnew

/-- An operation agrees with the mapper exactly when its id is in the mapper already, or it is
another one than `RequestVoteAsync`, sends its frame, and the mapper knows the peer. -/
theorem outgoing_call_agrees_iff (s : Sender) (rpc : Rpc) (req : M) (peer : NetPeerInfo) :
    CallAgrees s rpc peer (s.call rpc req peer) ↔
      Conflict s ∨ (Sends s rpc peer ∧ rpc ≠ .requestVoteAsync ∧
        (s.tables.addrMsgMapper.lookup peer).isSome) := by
  by_cases hconf : Conflict s
  · exact iff_of_true (callAgrees_of_conflict hconf rpc req peer) (.inl hconf)
  obtain ⟨t, hadd⟩ := addMsgToMapper_ok rpc.client peer (not_not.1 hconf)
  obtain ⟨htables, hsends, hfails⟩ := call_calls req hadd
  simp only [hconf, false_or]
  by_cases hsend : Sends s rpc peer
  · obtain ⟨frame, hframe, hpeer, hid⟩ := hsends hsend
    rw [callAgrees_iff_records hframe hpeer, htables, hid, records_frameId_iff hadd]
    exact (and_iff_right hsend).symm
  · refine iff_of_false ?_ (fun h => hsend h.1)
    exact not_callAgrees_of_unsent hadd htables (hfails hsend)

end Calls

/-- A messenger whose clients have registered both RPCs, and whose mapper knows the given
peers. -/
def registeredSender (peers : List NetPeerInfo) (takes : Bool) : Sender where
  lastId := 0
  lastId_lt := by decide
  tables := ⟨∅, peers.foldl (fun t peer => t.insert peer ∅) ∅⟩
  rpcs := fun _ => (AList.insert RpcName.appendEntries 1 ∅).insert .requestVote 2
  socketService := ⟨false, fun _ => takes⟩

/-- A request to a peer that the mapper knows. -/
theorem outgoing_call_agrees_known_peer :
    let peer : NetPeerInfo := ⟨⟨"10.0.0.2", 9000⟩, .tcp⟩
    CallAgrees (registeredSender [peer] true) .appendEntriesAsync peer
      ((registeredSender [peer] true).call .appendEntriesAsync () peer) := by
  intro peer
  exact (outgoing_call_agrees_iff _ .appendEntriesAsync () peer).2
    (.inr ⟨⟨rfl, rfl⟩, by decide, rfl⟩)

/-- `RequestVoteAsync` records one id and sends another.  A request that is not taken leaves
its id in the mapper. -/
theorem outgoing_call_disagrees :
    let peer : NetPeerInfo := ⟨⟨"10.0.0.2", 9000⟩, .tcp⟩
    let sent := (registeredSender [peer] true).call .requestVoteAsync () peer
    let failed := (registeredSender [peer] false).call .appendEntriesSync () peer
    (sent.frame = some ⟨2, peer, 2, ()⟩ ∧
      sent.sender.tables.msgHandlerMapper.lookup 1 = some .async ∧
      sent.sender.tables.msgHandlerMapper.lookup 2 = none ∧
      ¬ CallAgrees (registeredSender [peer] true) .requestVoteAsync peer sent) ∧
    failed.frame = none ∧ failed.sender.tables.msgHandlerMapper.lookup 1 = some .sync ∧
      ¬ CallAgrees (registeredSender [peer] false) .appendEntriesSync peer failed := by
  intro peer sent failed
  have hframe : sent.frame = some ⟨2, peer, 2, ()⟩ := rfl
  have hother : sent.sender.tables.msgHandlerMapper.lookup 2 = none := rfl
  have hnone : failed.frame = none := rfl
  have hleft : failed.sender.tables.msgHandlerMapper.lookup 1 = some .sync := rfl
  refine ⟨⟨hframe, rfl, hother, ?_⟩, hnone, hleft, ?_⟩
  · intro hagrees
    have hhandler := (hagrees.records _ hframe).2.handler
    rw [hother] at hhandler
    cases hhandler
  · intro hagrees
    rw [hagrees.restores hnone] at hleft
    cases hleft

end Server
end CCraft
