import CCraft.Rpc.Responses
import CCraft.Rpc.Server

/-!
# Remote calls from end to end

A synchronous client sends requests to any number of servers.  Requests and replies arrive after
any time, in any order or not at all; every server works on its requests with several threads.
Meanwhile the client's calls are registered, time out and lose their connections.

Main results:

- Theorem {lit}`clientStep_holds`: what a caller is given is what was handed to the client for it.
- Theorem {lit}`remoteStep_inv`: what every step of the whole system keeps.
- Theorem {lit}`remote_call_returns_result`: a call does what a local call of its handler does.
-/

namespace CCraft
namespace Rpc

open Common Net Runs

/-! ## What a client gives to its callers -/

section Replies

variable {R : Type}

/-- The reply in the fields of a context has a property, and a context that is complete without an
error has one. -/
structure VarsHold (P : R → Prop) (v : CtxVars R) : Prop where
  reply : ∀ r, v.sspNm = some r → P r
  answered : v.complete = true → v.state = .ok → ∃ r, v.sspNm = some r

/-- The replies that a client holds have a property, for the address of the context they are
for. -/
structure RepliesHold (P : Nat → R → Prop) (s : SyncClient R) : Prop where
  jobs : ∀ rc r, (rc, Completion.reply r) ∈ s.jobs → P rc.address r
  vars : ∀ address, VarsHold (P address) (s.vars address)

variable {P Q : Nat → R → Prop} {s s' : SyncClient R} {v : CtxVars R} {a : ClientLabel R}

theorem RepliesHold.mono (himp : ∀ address r, P address r → Q address r) (h : RepliesHold P s) :
    RepliesHold Q s :=
  ⟨fun rc r hjob => himp _ r (h.jobs rc r hjob), fun address =>
    ⟨fun r hr => himp address r ((h.vars address).reply r hr), (h.vars address).answered⟩⟩

theorem RepliesHold.new : RepliesHold P (SyncClient.new : SyncClient R) :=
  ⟨nofun, fun _ => ⟨nofun, nofun⟩⟩

/-- A context is completed. -/
theorem VarsHold.finish {p : R → Prop} (h : VarsHold p v) (c : Completion R)
    (hc : ∀ r, c = .reply r → p r) : VarsHold p (v.finish c) := by
  cases c with
  | reply r =>
    refine ⟨?_, fun _ _ => ⟨r, rfl⟩⟩
    rintro _ ⟨rfl⟩
    exact hc r rfl
  | timeout | brokenPipe => exact ⟨h.reply, fun _ hstate => nomatch hstate⟩

/-- A change of one context. -/
theorem RepliesHold.update (h : RepliesHold P s) {address : Nat} (hv : VarsHold (P address) v)
    {jobs : List (RpcCtx × Completion R)} (hjobs : jobs ⊆ s.jobs) :
    RepliesHold P { s with vars := Function.update s.vars address v, jobs := jobs } := by
  refine ⟨fun rc r hjob => h.jobs rc r (hjobs hjob), fun x => ?_⟩
  by_cases hx : x = address
  · subst hx
    simpa only [Function.update_self] using hv
  · simpa only [Function.update_of_ne hx] using h.vars x

/-- A context is taken out of the tables. -/
theorem RepliesHold.take (h : RepliesHold P s) (id : Nat) (c : Completion R)
    (hc : ∀ rc r, s.tables.entries.lookup id = some rc → c = .reply r → P rc.address r) :
    RepliesHold P (s.take id c) := by
  cases hl : s.tables.entries.lookup id with
  | none =>
    rw [SyncClient.take_of_none hl]
    exact h
  | some rc =>
    rw [SyncClient.take_of_some hl]
    refine ⟨?_, h.vars⟩
    intro d r hjob
    rcases List.mem_append.1 hjob with hold | hnew
    · exact h.jobs d r hold
    · obtain ⟨rfl, rfl⟩ := Prod.mk.inj (List.mem_singleton.1 hnew)
      exact hc d r hl rfl

/-- What a caller is given is what was handed to the client for it: every step keeps a property of
the replies, if the ones that arrive have it for the context they are looked up for. -/
theorem clientStep_holds (h : RepliesHold P s)
    (hmessage : ∀ id r rc, a = .message id r → s.tables.entries.lookup id = some rc →
      P rc.address r) (hstep : clientStep s a = some s') : RepliesHold P s' := by
  cases clientStep_move hstep with
  | sendMessageAsync | register => exact ⟨h.jobs, h.vars⟩
  | @subscribe address timerEv made subscribing =>
    have hv := h.vars address
    refine h.update ?_ fun _ hjob => hjob
    cases timerEv <;> exact ⟨hv.reply, hv.answered⟩
  | @message id r =>
    refine h.take id _ fun rc r' hl hr => ?_
    cases hr
    exact hmessage id r rc rfl hl
  | timeout => exact h.take _ _ (by simp)
  | @worker peer =>
    refine ⟨?_, ?_⟩
    · rw [s.breakPeer_jobs]
      exact h.jobs
    · intro address
      rw [s.breakPeer_vars]
      split_ifs
      · exact (h.vars address).finish _ (by simp)
      · exact h.vars address
  | @complete i rc c job =>
    refine h.update ((h.vars rc.address).finish c ?_) fun _ => List.mem_of_mem_eraseIdx
    rintro r rfl
    exact h.jobs rc r (List.mem_of_getElem? job)
  | @wake address =>
    have hv := h.vars address
    refine h.update ?_ fun _ hjob => hjob
    exact ⟨hv.reply, hv.answered⟩

/-- A caller that has returned with a reply has one that was held for it. -/
theorem RepliesHold.returned (h : RepliesHold P s) {address : Nat} {o : Option R}
    (hv : VarsInv (s.vars address)) (ho : (s.vars address).caller = .returned (.reply o)) :
    ∃ r, o = some r ∧ P address r := by
  rcases hv.returned _ ho with hinternal | ⟨hcomplete, houtcome⟩
  · cases hinternal
  unfold SyncClient.outcome at houtcome
  split at houtcome
  case h_1 => cases houtcome
  case h_2 => cases houtcome
  next hstate =>
  obtain ⟨r, hr⟩ := (h.vars address).answered hcomplete hstate
  exact ⟨r, (Outcome.reply.inj houtcome).trans hr, (h.vars address).reply r hr⟩

end Replies

/-! ## What a server does with a request -/

section Result

variable {R : Type}

/-- The handler that is registered under an id. -/
def RpcServer.handler (s : RpcServer R) (handlerId : Nat) : Option (IRpcHandler R) :=
  (s.handlers.lookup handlerId).join

/-- What the handler makes of the bytes of a request: a local call. -/
def RpcServer.result (s : RpcServer R) (handlerId : Nat) (body : List UInt8) : Option (Option R) :=
  (s.handler handlerId).bind fun handler =>
    handler.createMessage.bind fun pb => (pb.parseFromArray body).map handler.handle

variable {s : RpcServer R}

/-- Looking a handler up changes no handler. -/
theorem handlerFor_handler (s : RpcServer R) (handlerId i : Nat) :
    (s.handlerFor handlerId).2.handler i = s.handler i := by
  unfold RpcServer.handlerFor
  split
  · rfl
  · next hlookup =>
    unfold RpcServer.handler
    by_cases hi : i = handlerId
    · subst hi
      rw [AList.lookup_insert, hlookup]
      rfl
    · rw [AList.lookup_insert_ne hi]

theorem sendError_handler (s : RpcServer R) (code : RpcCode) (handlerId i : Nat) :
    (s.sendError code handlerId).server.handler i = s.handler i := by
  rw [RpcServer.sendError, submit_server]
  rfl

/-- A request changes no handler. -/
theorem procRequest_handler (s : RpcServer R) (rm : RcvMessage) (i : Nat) :
    (s.procRequest rm).server.handler i = s.handler i := by
  unfold RpcServer.procRequest
  split
  · rfl
  next handlerId reqBuf hparse =>
  have hkeep := handlerFor_handler s handlerId i
  split
  · next s' heq =>
    rw [heq] at hkeep
    rw [sendError_handler]
    exact hkeep
  next handler s' heq =>
  rw [heq] at hkeep
  split
  · rw [sendError_handler]
    exact hkeep
  split
  · rw [sendError_handler]
    exact hkeep
  · rw [RpcServer.sendResult, submit_server]
    exact hkeep

/-- What a request hands over for a TCP peer is its result, under its own id.  The responses of the
other exits are for nobody. -/
theorem procRequest_submitted (s : RpcServer R) (req : Incoming) {m : Outgoing R}
    (hm : m ∈ (s.procRequest req.message).submitted) (htcp : m.peer.sp = .tcp) :
    ∃ res, s.result req.handlerId req.body = some res ∧
      ∃ r : RpcResponse R, m.response = .full r ∧ r.id = req.message.header.id ∧ r.code = .ok ∧
        r.ht = req.handlerId ∧ r.msg = res := by
  by_cases hserved : Served s req
  · obtain ⟨handler, pb, request, hhandler, hcreate, hparse⟩ := hserved
    rw [procRequest_served hhandler hcreate hparse, RpcServer.sendResult, submit_submitted] at hm
    obtain rfl := List.mem_singleton.1 hm
    refine ⟨handler.handle request, ?_, _, rfl, Nat.mod_eq_of_lt req.id_lt, rfl,
      Nat.mod_eq_of_lt req.handlerId_lt, rfl⟩
    simp only [RpcServer.result, RpcServer.handler, hhandler, Option.join_some, hcreate, hparse,
      Option.bind_some, Option.map_some]
  · obtain ⟨s', code, hexit⟩ := procRequest_not_served hserved
    rw [hexit, sendError_submitted] at hm
    obtain rfl := List.mem_singleton.1 hm
    cases htcp

theorem RpcServer.result_congr {s' : RpcServer R} (h : ∀ i, s'.handler i = s.handler i)
    (handlerId : Nat) (body : List UInt8) : s'.result handlerId body = s.result handlerId body := by
  unfold RpcServer.result
  rw [h]

end Result

/-! ## The whole system -/

/-- A remote call, whose request fits into a message. -/
structure Request where
  id : Nat
  peer : NetPeerInfo
  handlerId : Nat
  body : List UInt8
  id_lt : id < 2 ^ 64
  handlerId_lt : handlerId < 2 ^ 16
  short : 2 + body.length ≤ maxMsgPayloadSize

/-- The payload of the request, as `RpcRequest` writes it. -/
def Request.payload (c : Request) : List UInt8 :=
  storeBytes 2 c.handlerId ++ c.body

/-- A reply on its way from a server. -/
structure Reply where
  id : Nat
  peer : NetPeerInfo
  payload : List UInt8

/-- The buffers in which payloads are received, anywhere in memory. -/
structure Buffers where
  buffer : List UInt8 → Buffer
  loaded : ∀ payload, 1 ≤ payload.length → payload.length ≤ maxMsgPayloadSize →
    Loaded (buffer payload) payload

/-- Every payload in a buffer of its own. -/
def Buffers.holding : Buffers where
  buffer := Buffer.holding
  loaded payload hpos hle := Buffer.holding_loaded hpos (lt_of_le_of_lt hle (by decide))

/-- A message as it is received. -/
def Buffers.receive (net : Buffers) (id : Nat) (peer : NetPeerInfo) (payload : List UInt8) :
    RcvMessage :=
  ⟨⟨messageMagicNo, id, payload.length⟩, peer, net.buffer payload, 0⟩

/-- A client and its servers: the calls made so far, the requests and the replies on the way, and
the ids of the requests that a handler was run for. -/
structure Remote (R : Type) where
  client : SyncClient RcvMessage
  servers : NetPeerInfo → RpcServer R
  calls : List Request
  requests : List Request
  replies : List Reply
  executed : List Nat

def Remote.start {R : Type} (servers : NetPeerInfo → RpcServer R) : Remote R :=
  ⟨.new, servers, [], [], [], []⟩

/-- A call, a request that a server receives and works on, a reply that the client receives, and
the other steps of the client.  A message that is never received is lost. -/
inductive RemoteLabel where
  | call (c : Request)
  | serve (i : Nat)
  | reply (i : Nat)
  | client (a : ClientLabel RcvMessage)

/-- The steps of the client that involve no message. -/
def ClientLabel.isLocal {R : Type} : ClientLabel R → Bool
  | .sendMessageAsync _ _ => false
  | .message _ _ => false
  | _ => true

/-- The bytes of a response. -/
def Response.payload {R : Type} (pb : PbType R) : Response R → List UInt8
  | .base r => r.payload
  | .full r => r.payload pb

/-- Only the exit behind the call of a handler makes such a response. -/
def Response.isFull {R : Type} : Response R → Bool
  | .base _ => false
  | .full _ => true

/-- The replies to a client that get on the way: `Encode` throws when a payload is too long. -/
def Processed.replies {R : Type} (pb : PbType R) (peer : NetPeerInfo) (out : Processed R) :
    List Reply :=
  (out.submitted.filter fun m =>
    m.peer.sp = .tcp ∧ (m.response.payload pb).length ≤ maxMsgPayloadSize).map fun m =>
      ⟨m.response.toBase.id, peer, m.response.payload pb⟩

/-- The steps.  The servers know the client under its address.  A message id is used for one call
only. -/
def remoteStep {R : Type} (pb : PbType R) (net : Buffers) (self : NetAddr) (s : Remote R) :
    RemoteLabel → Option (Remote R)
  | .call c =>
    if c.id ∉ s.calls.map Request.id ∧ FreshId s.client (.sendMessageAsync c.id c.peer) then
      (clientStep s.client (.sendMessageAsync c.id c.peer)).map fun client =>
        { s with client := client, calls := s.calls ++ [c], requests := s.requests ++ [c] }
    else none
  | .serve i =>
    s.requests[i]?.map fun c =>
      let out := (s.servers c.peer).procMsg
        (.message (some (net.receive c.id ⟨self, .tcp⟩ c.payload)))
      { s with
        servers := Function.update s.servers c.peer out.server
        requests := s.requests.eraseIdx i
        replies := s.replies ++ out.replies pb c.peer
        executed := s.executed ++
          if out.submitted.any (·.response.isFull) then [c.id] else [] }
  | .reply i =>
    s.replies[i]?.bind fun x =>
      (clientStep s.client (.message x.id (net.receive x.id x.peer x.payload))).map
        fun client => { s with client := client, replies := s.replies.eraseIdx i }
  | .client a =>
    if a.isLocal then (clientStep s.client a).map fun client => { s with client := client }
    else none

/-- What a synchronous call reads from a reply: the code, the handler id and the message. -/
def readReply {R : Type} (pb : PbType R) (rm : RcvMessage) : Option (Nat × Nat × Option R) :=
  (parseResponse rm.buffer).map fun x => (x.1, x.2.1, deserialize pb x.2.2)

/-! ## Replies are made for the calls they answer -/

section Invariant

variable {R : Type} {pb : PbType R} {net : Buffers} {self : NetAddr}
  {servers : NetPeerInfo → RpcServer R} {s s' : Remote R}

/-- The bytes are the result of the call with an id, whose handler was run. -/
structure Answer (pb : PbType R) (servers : NetPeerInfo → RpcServer R) (calls : List Request)
    (executed : List Nat) (id : Nat) (payload : List UInt8) : Prop where
  short : payload.length ≤ maxMsgPayloadSize
  run : id ∈ executed
  made : ∃ c ∈ calls, c.id = id ∧ ∃ res, (servers c.peer).result c.handlerId c.body = some res ∧
    payload = storeBytes 2 RpcCode.ok.toNat ++ storeBytes 2 c.handlerId ++ bodyBytes pb res

/-- A message holds the result of the call of a context. -/
def AnswerIn (pb : PbType R) (servers : NetPeerInfo → RpcServer R) (calls : List Request)
    (executed : List Nat) (made : List RpcCtx) (address : Nat) (rm : RcvMessage) : Prop :=
  ∃ rc ∈ made, rc.address = address ∧
    ∃ payload, Loaded rm.buffer payload ∧ Answer pb servers calls executed rc.msgId payload

variable {calls calls' : List Request} {executed executed' : List Nat} {id : Nat}
  {payload : List UInt8}

theorem Answer.mono (h : Answer pb servers calls executed id payload) (hcalls : calls ⊆ calls')
    (hrun : executed ⊆ executed') : Answer pb servers calls' executed' id payload := by
  obtain ⟨c, hc, hmade⟩ := h.made
  exact ⟨h.short, hrun h.run, c, hcalls hc, hmade⟩

theorem AnswerIn.mono {made made' : List RpcCtx} (hcalls : calls ⊆ calls')
    (hrun : executed ⊆ executed') (hmade : made ⊆ made') (address : Nat) (rm : RcvMessage)
    (h : AnswerIn pb servers calls executed made address rm) :
    AnswerIn pb servers calls' executed' made' address rm := by
  obtain ⟨rc, hrc, haddress, payload, hloaded, hanswer⟩ := h
  exact ⟨rc, hmade hrc, haddress, payload, hloaded, hanswer.mono hcalls hrun⟩

theorem Answer.one_le (h : Answer pb servers calls executed id payload) : 1 ≤ payload.length := by
  obtain ⟨c, -, -, res, -, rfl⟩ := h.made
  simp only [List.length_append, length_storeBytes]
  omega

/-- What every step keeps. -/
structure RemoteInv (pb : PbType R) (servers : NetPeerInfo → RpcServer R) (s : Remote R) :
    Prop where
  client : ClientInv s.client
  vars : ∀ address, VarsInv (s.client.vars address)
  ids : (s.calls.map Request.id).Nodup
  requests : s.requests ⊆ s.calls
  once : (s.requests.map Request.id ++ s.executed).Nodup
  executed : s.executed ⊆ s.calls.map Request.id
  handlers : ∀ peer i, (s.servers peer).handler i = (servers peer).handler i
  replies : ∀ x ∈ s.replies, Answer pb servers s.calls s.executed x.id x.payload
  holds : RepliesHold (AnswerIn pb servers s.calls s.executed s.client.made) s.client

theorem RemoteInv.start (pb : PbType R) (servers : NetPeerInfo → RpcServer R) :
    RemoteInv pb servers (Remote.start servers) := by
  refine ⟨new_inv, fun _ => varsInv_new, ?_, ?_, ?_, ?_, ?_, ?_, .new⟩ <;> simp [Remote.start]

/-- The client takes a step. -/
theorem RemoteInv.client_step (h : RemoteInv pb servers s) {a : ClientLabel RcvMessage}
    {client : SyncClient RcvMessage} (hfresh : FreshId s.client a)
    (hmessage : ∀ id rm, a = .message id rm →
      ∃ payload, Loaded rm.buffer payload ∧ Answer pb servers s.calls s.executed id payload)
    (hstep : clientStep s.client a = some client) :
    RemoteInv pb servers { s with client := client } := by
  refine { h with
    client := clientStep_inv h.client hfresh hstep
    vars := clientStep_vars h.client h.vars hstep
    holds := ?_ }
  refine (clientStep_holds h.holds ?_ hstep).mono
    (AnswerIn.mono (fun _ hc => hc) (fun _ hid => hid) (clientStep_made hstep).subset)
  intro id rm rc hrm hlookup
  obtain ⟨payload, hloaded, hanswer⟩ := hmessage id rm hrm
  have hkey : rc.msgId = id := h.client.grouped.key_eq id rc hlookup
  exact ⟨rc, h.client.entries_made id rc hlookup, rfl, payload, hloaded, hkey ▸ hanswer⟩

/-- A request with an id of its own gets on the way. -/
theorem RemoteInv.request (h : RemoteInv pb servers s) {c : Request}
    (hid : c.id ∉ s.calls.map Request.id) :
    RemoteInv pb servers
      { s with calls := s.calls ++ [c], requests := s.requests ++ [c] } := by
  have hcalls : s.calls ⊆ s.calls ++ [c] := List.subset_append_left _ _
  refine { h with
    ids := ?_, requests := ?_, once := ?_
    executed := List.Subset.trans h.executed (List.map_subset _ hcalls)
    replies := fun x hx => (h.replies x hx).mono hcalls fun _ hmem => hmem
    holds := h.holds.mono (AnswerIn.mono hcalls (fun _ hmem => hmem) fun _ hrc => hrc) }
  · rw [List.map_append]
    exact h.ids.append (List.nodup_singleton _) (by simpa using hid)
  · exact List.append_subset.2 ⟨List.Subset.trans h.requests hcalls, by simp⟩
  · have hnew : c.id ∉ s.requests.map Request.id ++ s.executed := by
      intro hmem
      rcases List.mem_append.1 hmem with hreq | hexec
      · exact hid (List.map_subset _ h.requests hreq)
      · exact hid (h.executed hexec)
    rw [List.map_append, List.append_assoc]
    exact List.nodup_middle.2 (List.nodup_cons.2 ⟨hnew, h.once⟩)

/-- The server receives the handler id and the bytes of the call. -/
theorem Request.exists_incoming (c : Request) (net : Buffers) (self : NetAddr) :
    ∃ req : Incoming, req.message = net.receive c.id ⟨self, .tcp⟩ c.payload ∧
      req.message.header.id = c.id ∧ req.handlerId = c.handlerId ∧ req.body = c.body := by
  have hlen : (storeBytes 2 c.handlerId).length = 2 := length_storeBytes 2 c.handlerId
  have hlength : c.payload.length = 2 + c.body.length := by simp [Request.payload]
  have hloaded := net.loaded c.payload (by omega) (hlength ▸ c.short)
  refine ⟨⟨_, c.payload, hloaded, by omega, rfl, c.id_lt⟩, rfl, rfl, ?_, ?_⟩
  · change BigEndian.decode ((storeBytes 2 c.handlerId ++ c.body).take 2) = c.handlerId
    rw [List.take_left' hlen, storeBytes_eq_encode]
    exact BigEndian.decode_encode_of_lt c.handlerId_lt
  · change (storeBytes 2 c.handlerId ++ c.body).drop 2 = c.body
    rw [List.drop_left' hlen]

/-- What a server sends for a call is the result of the call, and the handler was run. -/
theorem mem_procMsg_replies {server : RpcServer R} {c : Request} {x : Reply}
    {out : Processed R} (hout : out = server.procMsg
      (.message (some (net.receive c.id ⟨self, .tcp⟩ c.payload))))
    (hx : x ∈ out.replies pb c.peer) :
    x.payload.length ≤ maxMsgPayloadSize ∧ x.id = c.id ∧
      out.submitted.any (·.response.isFull) = true ∧
      ∃ res, server.result c.handlerId c.body = some res ∧ x.payload =
        storeBytes 2 RpcCode.ok.toNat ++ storeBytes 2 c.handlerId ++ bodyBytes pb res := by
  obtain ⟨req, hmessage, hid, hhandler, hbody⟩ := c.exists_incoming net self
  rw [RpcServer.procMsg, ← hmessage] at hout
  subst hout
  obtain ⟨m, hm, rfl⟩ := List.mem_map.1 hx
  obtain ⟨hsubmitted, hsends⟩ := List.mem_filter.1 hm
  obtain ⟨htcp, hlength⟩ := of_decide_eq_true hsends
  obtain ⟨res, hres, r, hr, hrid, hcode, hht, hmsg⟩ :=
    procRequest_submitted server req hsubmitted htcp
  rw [hhandler, hbody] at hres
  refine ⟨hlength, ?_, ?_, res, hres, ?_⟩
  · simp only [hr, Response.toBase, hrid, hid]
  · exact List.any_eq_true.2 ⟨m, hsubmitted, by rw [hr, Response.isFull]⟩
  · simp only [hr, Response.payload, RpcResponse.payload, hcode, hht, hmsg, hhandler]

/-- A request that a server has received is on the way no more and can count as run. -/
theorem RemoteInv.once_of_served (h : RemoteInv pb servers s) {i : Nat} {c : Request}
    {run : List Nat} (hc : s.requests[i]? = some c) (hrun : run.Sublist [c.id]) :
    ((s.requests.eraseIdx i).map Request.id ++ (s.executed ++ run)).Nodup := by
  obtain ⟨hlt, rfl⟩ := List.getElem?_eq_some_iff.1 hc
  have hperm := (List.getElem_cons_eraseIdx_perm hlt).map Request.id
  have hcons : (s.requests[i].id :: ((s.requests.eraseIdx i).map Request.id ++ s.executed)).Nodup :=
    (hperm.append_right s.executed).nodup_iff.2 h.once
  have hsnoc := (List.perm_append_singleton _ _).nodup_iff.2 hcons
  rw [← List.append_assoc]
  exact hsnoc.sublist ((List.Sublist.refl _).append hrun)

/-- A server works on a request. -/
theorem RemoteInv.serve (h : RemoteInv pb servers s) {i : Nat} {c : Request}
    (hc : s.requests[i]? = some c) (hstep : remoteStep pb net self s (.serve i) = some s') :
    RemoteInv pb servers s' := by
  have hcall : c ∈ s.calls := h.requests (List.mem_of_getElem? hc)
  obtain ⟨out, hout⟩ : ∃ out, out = (s.servers c.peer).procMsg
      (.message (some (net.receive c.id ⟨self, .tcp⟩ c.payload))) := ⟨_, rfl⟩
  obtain ⟨run, hrun⟩ : ∃ run, run =
      if out.submitted.any (·.response.isFull) then [c.id] else [] := ⟨_, rfl⟩
  have hsub : run.Sublist [c.id] := by
    rw [hrun]
    split_ifs <;> simp
  simp only [remoteStep, hc, Option.map_some, Option.some.injEq, ← hout, ← hrun] at hstep
  subst hstep
  -- answers stay answers while the record of the runs grows
  have hgrows : s.executed ⊆ s.executed ++ run := List.subset_append_left _ _
  refine { h with
    requests := List.Subset.trans (List.eraseIdx_sublist _ _).subset h.requests
    once := h.once_of_served hc hsub
    executed := List.append_subset.2 ⟨h.executed, List.Subset.trans hsub.subset ?_⟩
    handlers := ?_, replies := ?_
    holds := h.holds.mono (AnswerIn.mono (fun _ hd => hd) hgrows fun _ hrc => hrc) }
  · simpa using ⟨c, hcall, rfl⟩
  · intro peer j
    by_cases hpeer : peer = c.peer
    · subst hpeer
      simp only [Function.update_self, hout, RpcServer.procMsg, procRequest_handler]
      exact h.handlers c.peer j
    · simp only [Function.update_of_ne hpeer]
      exact h.handlers peer j
  · intro x hx
    rcases List.mem_append.1 hx with hold | hnew
    · exact (h.replies x hold).mono (fun _ hd => hd) hgrows
    · obtain ⟨hxshort, hxid, hany, res, hres, hpayload⟩ := mem_procMsg_replies hout hnew
      have hmem : x.id ∈ run := by simp [hrun, hany, hxid]
      rw [RpcServer.result_congr (h.handlers c.peer)] at hres
      exact ⟨hxshort, List.mem_append_right _ hmem, c, hcall, hxid.symm, res, hres, hpayload⟩

/-- Every step keeps the invariant. -/
theorem remoteStep_inv (h : RemoteInv pb servers s) {a : RemoteLabel}
    (hstep : remoteStep pb net self s a = some s') : RemoteInv pb servers s' := by
  cases a with
  | call c =>
    obtain ⟨⟨hid, hfresh⟩, hsome⟩ := Option.ite_none_right_eq_some.1 hstep
    obtain ⟨client, hclient, rfl⟩ := Option.map_eq_some_iff.1 hsome
    exact (h.client_step hfresh nofun hclient).request hid
  | serve i =>
    cases hc : s.requests[i]? with
    | none => simp [remoteStep, hc] at hstep
    | some c => exact h.serve hc hstep
  | reply i =>
    obtain ⟨x, hx, hsome⟩ := Option.bind_eq_some_iff.1 hstep
    obtain ⟨client, hclient, rfl⟩ := Option.map_eq_some_iff.1 hsome
    have hanswer := h.replies x (List.mem_of_getElem? hx)
    have hloaded := net.loaded x.payload hanswer.one_le hanswer.short
    have hinv := h.client_step (a := .message _ _) trivial (fun id rm ha => by
      cases ha
      exact ⟨x.payload, hloaded, hanswer⟩) hclient
    exact { hinv with replies := fun y hy => h.replies y (List.mem_of_mem_eraseIdx hy) }
  | client a =>
    obtain ⟨hlocal, hsome⟩ := Option.ite_none_right_eq_some.1 hstep
    obtain ⟨client, hclient, rfl⟩ := Option.map_eq_some_iff.1 hsome
    refine h.client_step ?_ ?_ hclient
    · cases a <;> trivial
    · rintro id rm rfl
      cases hlocal

end Invariant

/-! ## A call that returns -/

section Returns

variable {R : Type} {pb : PbType R} {servers : NetPeerInfo → RpcServer R} {s : Remote R}

/-- What a client reads from the bytes of a result: an absent one is sent as no bytes. -/
def PbType.received (pb : PbType R) : Option R → Option R
  | some m => some m
  | none => pb.parseFromArray []

/-- The caller of a context has returned with a message.  It reads as what the handler of the
called server makes of the bytes of the only call with its id, and the handler was run once. -/
def ReturnsResult (pb : PbType R) (servers : NetPeerInfo → RpcServer R) (s : Remote R)
    (rc : RpcCtx) (o : Option RcvMessage) : Prop :=
  ∃ c ∈ s.calls, (∀ d ∈ s.calls, d.id = rc.msgId ↔ d = c) ∧ s.executed.count c.id = 1 ∧
    ∃ rm res, o = some rm ∧ (servers c.peer).result c.handlerId c.body = some res ∧
      readReply pb rm = some (RpcCode.ok.toNat, c.handlerId, pb.received res)

theorem readReply_loaded {rm : RcvMessage} {handlerId : Nat} {res : Option R}
    (hhandlerId : handlerId < 2 ^ 16)
    (h : Loaded rm.buffer
      (storeBytes 2 RpcCode.ok.toNat ++ storeBytes 2 handlerId ++ bodyBytes pb res)) :
    readReply pb rm = some (RpcCode.ok.toNat, handlerId, pb.received res) := by
  obtain ⟨rest, hparse, hrest⟩ := parseResponse_loaded RpcCode.ok.toNat_lt hhandlerId h
  rw [readReply, hparse, Option.map_some, deserialize, hrest]
  cases res with
  | none => rfl
  | some m => rw [bodyBytes, pb.parse_serialize, PbType.received]

theorem RemoteInv.returns (h : RemoteInv pb servers s) {rc : RpcCtx} {o : Option RcvMessage}
    (hrc : rc ∈ s.client.made)
    (hreturned : (s.client.vars rc.address).caller = .returned (.reply o)) :
    ReturnsResult pb servers s rc o := by
  obtain ⟨rm, rfl, d, hd, haddress, payload, hloaded, hanswer⟩ :=
    h.holds.returned (h.vars _) hreturned
  obtain rfl := h.client.eq_of_address hd hrc haddress
  obtain ⟨c, hc, hid, res, hres, rfl⟩ := hanswer.made
  refine ⟨c, hc, fun e he => ⟨fun heq => ?_, fun heq => heq ▸ hid⟩, ?_, rm, res, rfl, hres,
    readReply_loaded c.handlerId_lt hloaded⟩
  · exact List.inj_on_of_nodup_map h.ids he hc (heq.trans hid.symm)
  · rw [hid]
    exact List.count_eq_one_of_mem (List.nodup_append.1 h.once).2.1 hanswer.run

/-- Whatever is on the way, lost, timed out or disconnected: a call that returns a message returns
what its handler makes of its bytes, as a local call would, and the handler was run once for it. -/
theorem remote_call_returns_result (pb : PbType R) (net : Buffers) (self : NetAddr)
    (servers : NetPeerInfo → RpcServer R) (labels : List RemoteLabel) :
    Always (remoteStep pb net self)
      (fun s => ∀ rc ∈ s.client.made, ∀ o,
        (s.client.vars rc.address).caller = .returned (.reply o) → ReturnsResult pb servers s rc o)
      (Remote.start servers) labels := by
  have halways : Always (remoteStep pb net self) (RemoteInv pb servers) (Remote.start servers)
      labels :=
    always_of_forall (fun _ _ _ h _ hstep => remoteStep_inv h hstep) (RemoteInv.start pb servers)
      fun _ _ => trivial
  exact halways.mono fun _ h rc hrc o hreturned => h.returns hrc hreturned

end Returns

/-- The address of a caller that is back with a message. -/
def SyncClient.isAnswered {R : Type} (s : SyncClient R) (address : Nat) : Bool :=
  match (s.vars address).caller with
  | .returned (.reply _) => true
  | _ => false

/-- Two calls to two servers that reverse what they get: the first request is lost, and the second
call returns. -/
theorem remote_call_returns_result_second :
    let a : NetPeerInfo := ⟨⟨"10.0.0.1", 7000⟩, .tcp⟩
    let b : NetPeerInfo := ⟨⟨"10.0.0.2", 7000⟩, .tcp⟩
    let reverse : IRpcHandler (List UInt8) := ⟨List UInt8, some .bytes, fun m => some m.reverse⟩
    let servers (_ : NetPeerInfo) : RpcServer (List UInt8) :=
      ⟨⟨false, fun _ => true⟩, 0, AList.singleton 5 (some reverse)⟩
    let labels : List RemoteLabel :=
      [.call ⟨1, a, 5, [1], by decide, by decide, by decide⟩,
        .call ⟨2, b, 5, [2, 3], by decide, by decide, by decide⟩, .client (.register 1 a),
        .client (.register 2 b), .client (.subscribe 1 (some 9)), .serve 1, .reply 0,
        .client (.complete 0), .client (.wake 1)]
    ∃ t, run (remoteStep .bytes .holding ⟨"10.0.0.3", 7000⟩) (Remote.start servers) labels =
        some t ∧ ∃ rc ∈ t.client.made, rc.msgId = 2 ∧
      ∃ o, (t.client.vars rc.address).caller = .returned (.reply o) ∧
        ReturnsResult .bytes servers t rc o := by
  intro a b reverse servers labels
  obtain ⟨t, hrun, hmade, hanswered⟩ :
      ∃ t ∈ run (remoteStep .bytes .holding ⟨"10.0.0.3", 7000⟩) (Remote.start servers) labels,
        t.client.made = [⟨0, a, 1⟩, ⟨1, b, 2⟩] ∧ t.client.isAnswered 1 = true := by
    decide +kernel
  have hmem : (⟨1, b, 2⟩ : RpcCtx) ∈ t.client.made := by
    rw [hmade]
    decide
  unfold SyncClient.isAnswered at hanswered
  split at hanswered
  · next o ho =>
      exact ⟨t, hrun, _, hmem, rfl, o, ho,
        (remote_call_returns_result .bytes .holding _ servers labels).last hrun _ hmem o ho⟩
  · cases hanswered

end Rpc
end CCraft
