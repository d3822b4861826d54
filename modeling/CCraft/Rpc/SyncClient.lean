import CCraft.Common.ResourcePool
import CCraft.Lib.GroupIndex
import CCraft.Net.Message

/-!
# Calls of a synchronous RPC client

`ARpcSyncClient` keeps the context of every call that waits in two tables, by message id
and by peer.  A response, a broken connection and a timeout race to finish a call: each of
them takes the context out of both tables under one lock, and a response or a timeout
completes it after the lock is released.

Main results:

- Theorem {lit}`clientStep_move`: what a step can do.
- Theorem {lit}`clientStep_inv`: every step keeps the tables in step with each other and
  moves each context on from the tables to the threads that complete it and from there to
  its completion.
- Theorem {lit}`call_tables_agree`: in every interleaving of calls with distinct ids the
  tables agree and every context is completed at most once.
-/

namespace CCraft
namespace Rpc

open Net Runs PageMap

/-! ## Contexts and tables -/

/-- `RpcCtx::State`. -/
inductive CtxState where
  | ok
  | timeout
  | brokenPipe
deriving DecidableEq, Repr

/-- An `RpcCtx *` with the fields that are set before the context is registered and do not
change afterwards. -/
structure RpcCtx where
  address : Nat
  peer : NetPeerInfo
  msgId : Nat
deriving DecidableEq, Repr

/-- How `recvMessage` ends: with the notification in the context, or with one of its
exceptions. -/
inductive Outcome (R : Type) where
  | reply (sspNm : Option R)
  | sendTimeout
  | brokenPipe
  | internal

/-- Where the caller of a registered context is: before the subscription of its timer, in
the loop that waits for the completion, or back from `recvMessage`. -/
inductive CallerPc (R : Type) where
  | subscribing
  | waiting
  | returned (o : Outcome R)

/-- What completes a context. -/
inductive Completion (R : Type) where
  | reply (r : R)
  | timeout
  | brokenPipe

/-- The fields of a context that change, its caller, and, for the record, how often it was
completed. -/
structure CtxVars (R : Type) where
  complete : Bool := false
  state : CtxState := .ok
  timerEv : Option Nat := none
  sspNm : Option R := none
  caller : CallerPc R := .subscribing
  completions : Nat := 0

/-- Set `complete` and the result.  The notification about a broken connection, which no
caller reads, is not kept. -/
def CtxVars.finish {R : Type} (v : CtxVars R) : Completion R → CtxVars R
  | .reply r => { v with complete := true, sspNm := some r, completions := v.completions + 1 }
  | .timeout =>
    { v with complete := true, state := .timeout, completions := v.completions + 1 }
  | .brokenPipe =>
    { v with complete := true, state := .brokenPipe, completions := v.completions + 1 }

/-- A client: the calls behind `SendMessageAsync` that are not registered yet, the contexts
made so far, `m_hmapRpcCtxs` and `m_hmapPeerRpcs`, the changing fields by address, and the
contexts that a thread has taken out of the tables and is about to complete. -/
structure SyncClient (R : Type) where
  sent : List (Nat × NetPeerInfo)
  made : List RpcCtx
  tables : GroupIndex Nat NetPeerInfo RpcCtx
  vars : Nat → CtxVars R
  jobs : List (RpcCtx × Completion R)

namespace SyncClient

variable {R : Type}

def new : SyncClient R :=
  ⟨[], [], .empty, fun _ => {}, []⟩

/-- The context of a new call and its registration in `recvMessage`.  The context is new, see
{lit}`register_gets`. -/
def register (s : SyncClient R) (id : Nat) (peer : NetPeerInfo) : SyncClient R :=
  let rc : RpcCtx := ⟨s.made.length, peer, id⟩
  { s with
    sent := s.sent.erase (id, peer)
    made := s.made ++ [rc]
    tables := s.tables.add id peer rc }

/-- The locked part of a response and of a timeout: take the context out of the tables. -/
def take (s : SyncClient R) (id : Nat) (c : Completion R) : SyncClient R :=
  match s.tables.entries.lookup id with
  | none => s
  | some rc =>
    { s with tables := s.tables.remove id rc.peer rc, jobs := s.jobs ++ [(rc, c)] }

/-- A notification about a broken connection completes all calls to the peer. -/
def breakPeer (s : SyncClient R) (peer : NetPeerInfo) : SyncClient R :=
  match s.tables.groups.lookup peer with
  | none => s
  | some rcs =>
    { s with
      tables := s.tables.removeGroup RpcCtx.msgId peer
      vars := fun a =>
        if ∃ rc ∈ rcs, rc.address = a then (s.vars a).finish .brokenPipe else s.vars a }

/-- The caller subscribes its timer, whose id the timer answers with, and waits.  Without
an id it leaves with an exception. -/
def subscribe (s : SyncClient R) (address : Nat) (timerEv : Option Nat) : SyncClient R :=
  let v := s.vars address
  let v' : CtxVars R := match timerEv with
    | none => { v with caller := .returned .internal }
    | some when => { v with timerEv := some when, caller := .waiting }
  { s with vars := Function.update s.vars address v' }

/-- What the caller makes of a completed context. -/
def outcome (v : CtxVars R) : Outcome R :=
  match v.state with
  | .timeout => .sendTimeout
  | .brokenPipe => .brokenPipe
  | .ok => .reply v.sspNm

/-- `m_rpcCtxPool.Get()` never hands out a context again, since the pool does not count what it
holds: the contexts can be numbered in the order of the calls. -/
theorem register_gets {s : SyncClient R} {pool : Common.ResourcePool} (h : Common.PoolInv pool)
    (hnext : pool.next = s.made.length) (id : Nat) (peer : NetPeerInfo) :
    ∃ pool', pool.get = some (s.made.length, pool') ∧
      (s.register id peer).made = s.made ++ [⟨s.made.length, peer, id⟩] ∧
      pool'.next = (s.register id peer).made.length := by
  refine ⟨_, h.get_eq.trans (by rw [hnext]), rfl, ?_⟩
  simp [register]

theorem take_of_none {s : SyncClient R} {id : Nat} {c : Completion R}
    (h : s.tables.entries.lookup id = none) : s.take id c = s := by
  rw [take, h]

theorem take_of_some {s : SyncClient R} {id : Nat} {c : Completion R} {rc : RpcCtx}
    (h : s.tables.entries.lookup id = some rc) :
    s.take id c =
      { s with tables := s.tables.remove id rc.peer rc, jobs := s.jobs ++ [(rc, c)] } := by
  rw [take, h]

theorem lookup_of_take {s : SyncClient R} {id j : Nat} {c : Completion R} {rc : RpcCtx}
    (h : (s.take id c).tables.entries.lookup j = some rc) :
    s.tables.entries.lookup j = some rc := by
  unfold take at h
  split at h
  · exact h
  · have hlookup := lookup_erase_eq.symm.trans h
    split_ifs at hlookup
    exact hlookup

/-- After the notification the calls to the peer have left the table. -/
theorem breakPeer_lookup (s : SyncClient R) (peer : NetPeerInfo) (j : Nat) :
    (s.breakPeer peer).tables.entries.lookup j =
      if ∃ rc ∈ s.tables.members peer, rc.msgId = j then none
      else s.tables.entries.lookup j := by
  unfold breakPeer
  split
  case h_1 hg => simp [GroupIndex.members, hg]
  case h_2 rcs hg => exact GroupIndex.lookup_eraseAll

/-- After the notification the calls to the peer are complete. -/
theorem breakPeer_vars (s : SyncClient R) (peer : NetPeerInfo) (address : Nat) :
    (s.breakPeer peer).vars address =
      if ∃ rc ∈ s.tables.members peer, rc.address = address then
        (s.vars address).finish .brokenPipe
      else s.vars address := by
  unfold breakPeer
  split
  case h_1 hg => simp [GroupIndex.members, hg]
  case h_2 rcs hg => simp [GroupIndex.members, hg]

theorem lookup_of_breakPeer {s : SyncClient R} {peer : NetPeerInfo} {j : Nat} {rc : RpcCtx}
    (h : (s.breakPeer peer).tables.entries.lookup j = some rc) :
    s.tables.entries.lookup j = some rc := by
  rw [breakPeer_lookup] at h
  split_ifs at h
  exact h

theorem take_made (s : SyncClient R) (id : Nat) (c : Completion R) :
    (s.take id c).made = s.made := by
  unfold take
  split <;> rfl

theorem breakPeer_made (s : SyncClient R) (peer : NetPeerInfo) :
    (s.breakPeer peer).made = s.made := by
  unfold breakPeer
  split <;> rfl

theorem breakPeer_jobs (s : SyncClient R) (peer : NetPeerInfo) :
    (s.breakPeer peer).jobs = s.jobs := by
  unfold breakPeer
  split <;> rfl

theorem breakPeer_sent (s : SyncClient R) (peer : NetPeerInfo) :
    (s.breakPeer peer).sent = s.sent := by
  unfold breakPeer
  split <;> rfl

end SyncClient

/-- The steps of the callers and of the threads that finish calls. -/
inductive ClientLabel (R : Type) where
  | sendMessageAsync (id : Nat) (peer : NetPeerInfo)
  | register (id : Nat) (peer : NetPeerInfo)
  | subscribe (address : Nat) (timerEv : Option Nat)
  | message (id : Nat) (r : R)
  | worker (peer : NetPeerInfo)
  | timeout (id : Nat)
  | complete (i : Nat)
  | wake (address : Nat)

/-- The caller of a context is before its subscription. -/
def CallerPc.isSubscribing {R : Type} : CallerPc R → Bool
  | .subscribing => true
  | _ => false

/-- The caller of a context waits for its completion. -/
def CallerPc.isWaiting {R : Type} : CallerPc R → Bool
  | .waiting => true
  | _ => false

/-- One step of a client.  The id zero stands for a request that was not sent. -/
def clientStep {R : Type} (s : SyncClient R) : ClientLabel R → Option (SyncClient R)
  | .sendMessageAsync id peer =>
    if id ≠ 0 then some { s with sent := s.sent ++ [(id, peer)] } else none
  | .register id peer => if (id, peer) ∈ s.sent then some (s.register id peer) else none
  | .subscribe address timerEv =>
    if address < s.made.length ∧ (s.vars address).caller.isSubscribing = true then
      some (s.subscribe address timerEv)
    else none
  | .message id r => some (s.take id (.reply r))
  | .worker peer => some (s.breakPeer peer)
  | .timeout id => some (s.take id .timeout)
  | .complete i =>
    match s.jobs[i]? with
    | none => none
    | some (rc, c) =>
      some { s with
        vars := Function.update s.vars rc.address ((s.vars rc.address).finish c)
        jobs := s.jobs.eraseIdx i }
  | .wake address =>
    let v := s.vars address
    if v.caller.isWaiting = true ∧ v.complete = true then
      some { s with
        vars := Function.update s.vars address
          { v with caller := .returned (SyncClient.outcome v) } }
    else none

/-- What a step can do. -/
inductive ClientMove {R : Type} (s : SyncClient R) : ClientLabel R → SyncClient R → Prop where
  | sendMessageAsync {id : Nat} {peer : NetPeerInfo} (sent : id ≠ 0) :
      ClientMove s (.sendMessageAsync id peer) { s with sent := s.sent ++ [(id, peer)] }
  | register {id : Nat} {peer : NetPeerInfo} (sent : (id, peer) ∈ s.sent) :
      ClientMove s (.register id peer) (s.register id peer)
  | subscribe {address : Nat} {timerEv : Option Nat} (made : address < s.made.length)
      (subscribing : (s.vars address).caller.isSubscribing = true) :
      ClientMove s (.subscribe address timerEv) (s.subscribe address timerEv)
  | message {id : Nat} {r : R} : ClientMove s (.message id r) (s.take id (.reply r))
  | worker {peer : NetPeerInfo} : ClientMove s (.worker peer) (s.breakPeer peer)
  | timeout {id : Nat} : ClientMove s (.timeout id) (s.take id .timeout)
  | complete {i : Nat} {rc : RpcCtx} {c : Completion R} (job : s.jobs[i]? = some (rc, c)) :
      ClientMove s (.complete i)
        { s with
          vars := Function.update s.vars rc.address ((s.vars rc.address).finish c)
          jobs := s.jobs.eraseIdx i }
  | wake {address : Nat} (waiting : (s.vars address).caller.isWaiting = true)
      (complete : (s.vars address).complete = true) :
      ClientMove s (.wake address)
        { s with
          vars := Function.update s.vars address
            { s.vars address with caller := .returned (SyncClient.outcome (s.vars address)) } }

/-- Every step does one of these things. -/
theorem clientStep_move {R : Type} {s s' : SyncClient R} {a : ClientLabel R}
    (hstep : clientStep s a = some s') : ClientMove s a s' := by
  cases a with
  | sendMessageAsync id peer =>
    obtain ⟨hsent, ⟨⟩⟩ := Option.ite_none_right_eq_some.1 hstep
    exact .sendMessageAsync hsent
  | register id peer =>
    obtain ⟨hsent, ⟨⟩⟩ := Option.ite_none_right_eq_some.1 hstep
    exact .register hsent
  | subscribe address timerEv =>
    obtain ⟨⟨hmade, hsubscribing⟩, ⟨⟩⟩ := Option.ite_none_right_eq_some.1 hstep
    exact .subscribe hmade hsubscribing
  | message id r =>
    cases hstep
    exact .message
  | worker peer =>
    cases hstep
    exact .worker
  | timeout id =>
    cases hstep
    exact .timeout
  | complete i =>
    cases hjob : s.jobs[i]? with
    | none => simp [clientStep, hjob] at hstep
    | some job =>
      simp only [clientStep, hjob] at hstep
      cases hstep
      exact .complete hjob
  | wake address =>
    obtain ⟨⟨hwaiting, hcomplete⟩, ⟨⟩⟩ := Option.ite_none_right_eq_some.1 hstep
    exact .wake hwaiting hcomplete

/-- A step makes at most one context, at the next address and for a call that was sent, and
registers it; it puts no other context into the table. -/
theorem clientStep_grows {R : Type} {s s' : SyncClient R} {a : ClientLabel R}
    (hstep : clientStep s a = some s') :
    (s'.made = s.made ∧ ∀ id rc, s'.tables.entries.lookup id = some rc →
      s.tables.entries.lookup id = some rc) ∨
    ∃ rc : RpcCtx, rc.address = s.made.length ∧ s'.made = s.made ++ [rc] ∧
      s'.tables.entries = s.tables.entries.insert rc.msgId rc ∧
      (rc.msgId, rc.peer) ∈ s.sent := by
  cases clientStep_move hstep with
  | @register id peer sent =>
    exact .inr ⟨⟨s.made.length, peer, id⟩, rfl, rfl, rfl, sent⟩
  | message | timeout =>
    exact .inl ⟨s.take_made _ _, fun j rc hj => SyncClient.lookup_of_take hj⟩
  | worker =>
    exact .inl ⟨s.breakPeer_made _, fun j rc hj => SyncClient.lookup_of_breakPeer hj⟩
  | sendMessageAsync | subscribe | complete | wake => exact .inl ⟨rfl, fun _ _ hj => hj⟩

/-- Contexts are never unmade. -/
theorem clientStep_made {R : Type} {s s' : SyncClient R} {a : ClientLabel R}
    (hstep : clientStep s a = some s') : s.made <+: s'.made := by
  rcases clientStep_grows hstep with ⟨hmade, _⟩ | ⟨rc, _, hmade, _⟩
  · rw [hmade]
  · rw [hmade]
    exact List.prefix_append _ _

/-! ## The tables and the completions -/

/-- Each set of `m_hmapPeerRpcs` holds the contexts of its peer that `m_hmapRpcCtxs` maps
their id to, and no peer has an empty set. -/
def TablesAgree {R : Type} (s : SyncClient R) : Prop :=
  (∀ peer rc, rc ∈ s.tables.members peer ↔
    rc.peer = peer ∧ s.tables.entries.lookup rc.msgId = some rc) ∧
  ∀ peer, s.tables.groups.lookup peer ≠ some ∅

/-- No context was completed twice. -/
def CompletedOnce {R : Type} (s : SyncClient R) : Prop :=
  ∀ address, (s.vars address).completions ≤ 1

/-- A call is sent with an id that no other call of the client has. -/
def FreshId {R : Type} (s : SyncClient R) : ClientLabel R → Prop
  | .sendMessageAsync id _ => id ∉ s.sent.map Prod.fst ∧ id ∉ s.made.map RpcCtx.msgId
  | _ => True

instance {R : Type} (s : SyncClient R) (a : ClientLabel R) : Decidable (FreshId s a) := by
  unfold FreshId
  split <;> infer_instance

/-- The places a context can be in: in the tables, with a thread that is about to complete
it, or completed. -/
def SyncClient.places {R : Type} (s : SyncClient R) (rc : RpcCtx) : Nat :=
  (if s.tables.entries.lookup rc.msgId = some rc then 1 else 0) +
    (s.jobs.map Prod.fst).count rc + (s.vars rc.address).completions

/-- The invariant: the tables agree, and every context is in exactly one place. -/
structure ClientInv {R : Type} (s : SyncClient R) : Prop where
  address_eq : ∀ i (rc : RpcCtx), s.made[i]? = some rc → rc.address = i
  grouped : s.tables.WellGrouped RpcCtx.msgId RpcCtx.peer
  entries_made : ∀ id rc, s.tables.entries.lookup id = some rc → rc ∈ s.made
  jobs_made : ∀ job ∈ s.jobs, job.1 ∈ s.made
  sent_nodup : (s.sent.map Prod.fst).Nodup
  sent_made : ∀ x ∈ s.sent, ∀ rc ∈ s.made, rc.msgId ≠ x.1
  places : ∀ rc ∈ s.made, s.places rc = 1
  unused : ∀ address, s.made.length ≤ address → (s.vars address).completions = 0

section Step

variable {R : Type} {s s' : SyncClient R} {a : ClientLabel R} {rc d : RpcCtx}

theorem new_inv : ClientInv (SyncClient.new : SyncClient R) := by
  refine ⟨?_, GroupIndex.wellGrouped_empty, ?_, ?_, ?_, ?_, ?_, ?_⟩ <;>
    simp [SyncClient.new, GroupIndex.empty]

theorem ClientInv.tablesAgree (h : ClientInv s) : TablesAgree s :=
  ⟨h.grouped.mem_members, h.grouped.no_empty⟩

/-- A context is known by its address. -/
theorem ClientInv.eq_of_address (h : ClientInv s) (hrc : rc ∈ s.made) (hd : d ∈ s.made)
    (haddress : rc.address = d.address) : rc = d := by
  obtain ⟨i, hi⟩ := List.mem_iff_getElem?.1 hrc
  obtain ⟨j, hj⟩ := List.mem_iff_getElem?.1 hd
  have hij : i = j := by rw [← h.address_eq i rc hi, ← h.address_eq j d hj, haddress]
  rw [hij, hj] at hi
  exact (Option.some.inj hi).symm

theorem ClientInv.address_lt (h : ClientInv s) (hrc : rc ∈ s.made) :
    rc.address < s.made.length := by
  obtain ⟨i, hi⟩ := List.mem_iff_getElem?.1 hrc
  rw [h.address_eq i rc hi]
  exact (List.getElem?_eq_some_iff.1 hi).1

theorem ClientInv.completedOnce (h : ClientInv s) : CompletedOnce s := by
  intro address
  by_cases hlt : address < s.made.length
  · have hmade := h.places _ (List.getElem_mem hlt)
    have haddress : s.made[address].address = address :=
      h.address_eq address _ (List.getElem?_eq_getElem hlt)
    rw [SyncClient.places, haddress] at hmade
    omega
  · rw [h.unused address (Nat.le_of_not_lt hlt)]
    exact Nat.zero_le 1

/-- A context whose id is not in the table. -/
theorem ClientInv.lookup_sent (h : ClientInv s) {id : Nat} {peer : NetPeerInfo}
    (hsent : (id, peer) ∈ s.sent) : s.tables.entries.lookup id = none := by
  cases hlookup : s.tables.entries.lookup id with
  | none => rfl
  | some rc =>
    exact absurd (h.grouped.key_eq id rc hlookup)
      (h.sent_made _ hsent rc (h.entries_made id rc hlookup))

/-- A step that leaves the tables, the jobs and the completions alone. -/
theorem ClientInv.of_vars (h : ClientInv s) {vars : Nat → CtxVars R}
    (hvars : ∀ address, (vars address).completions = (s.vars address).completions) :
    ClientInv { s with vars := vars } := by
  refine { h with places := ?_, unused := ?_ }
  · intro rc hrc
    rw [← h.places rc hrc]
    simp only [SyncClient.places, hvars]
  · intro address hle
    rw [hvars]
    exact h.unused address hle

theorem completions_update {address : Nat} {v : CtxVars R}
    (hv : v.completions = (s.vars address).completions) (address' : Nat) :
    (Function.update s.vars address v address').completions =
      (s.vars address').completions := by
  by_cases heq : address' = address
  · rw [heq, Function.update_self, hv]
  · rw [Function.update_of_ne heq]

theorem register_lookup (s : SyncClient R) (id : Nat) (peer : NetPeerInfo) (j : Nat) :
    (s.register id peer).tables.entries.lookup j =
      if j = id then some ⟨s.made.length, peer, id⟩ else s.tables.entries.lookup j :=
  lookup_insert_eq

/-- The new context is in the table and nowhere else, and the others stay where they are. -/
theorem register_places (h : ClientInv s) {id : Nat} {peer : NetPeerInfo}
    (hsent : (id, peer) ∈ s.sent) (hd : d ∈ (s.register id peer).made) :
    (s.register id peer).places d = 1 := by
  rcases List.mem_append.1 hd with hold | hnew
  · have hid : d.msgId ≠ id := h.sent_made _ hsent d hold
    rw [← h.places d hold]
    simp only [SyncClient.places, register_lookup, if_neg hid]
    rfl
  · rw [List.mem_singleton.1 hnew]
    have hjobs : (s.jobs.map Prod.fst).count ⟨s.made.length, peer, id⟩ = 0 := by
      apply List.count_eq_zero.2
      intro hmem
      obtain ⟨job, hjob, heq⟩ := List.mem_map.1 hmem
      have hlt := h.address_lt (h.jobs_made job hjob)
      rw [heq] at hlt
      exact absurd hlt (lt_irrefl _)
    have hunused : (s.vars s.made.length).completions = 0 := h.unused _ le_rfl
    simp only [SyncClient.places, register_lookup, if_true]
    change 1 + (s.jobs.map Prod.fst).count _ + (s.vars s.made.length).completions = 1
    rw [hjobs, hunused]

/-- A new call is registered. -/
theorem register_inv (h : ClientInv s) {id : Nat} {peer : NetPeerInfo}
    (hsent : (id, peer) ∈ s.sent) : ClientInv (s.register id peer) := by
  have hnone := h.lookup_sent hsent
  have hsub : ∀ x ∈ s.sent.erase (id, peer), x ∈ s.sent := fun x hx => List.mem_of_mem_erase hx
  refine ⟨?_, ?_, ?_, ?_, ?_, ?_, fun d hd => register_places h hsent hd, ?_⟩
  · intro i rc hi
    rcases Nat.lt_trichotomy i s.made.length with hlt | rfl | hgt
    · rw [SyncClient.register, List.getElem?_append_left hlt] at hi
      exact h.address_eq i rc hi
    · simp only [SyncClient.register, List.getElem?_concat_length, Option.some.injEq] at hi
      rw [← hi]
    · rw [SyncClient.register, List.getElem?_eq_none (by simpa using hgt)] at hi
      cases hi
  · exact h.grouped.add (c := ⟨s.made.length, peer, id⟩) hnone
  · intro j rc hj
    rw [register_lookup] at hj
    split_ifs at hj
    · rw [← Option.some.inj hj]
      exact List.mem_append_right _ (List.mem_singleton_self _)
    · exact List.mem_append_left _ (h.entries_made j rc hj)
  · intro job hjob
    exact List.mem_append_left _ (h.jobs_made job hjob)
  · exact h.sent_nodup.sublist (List.erase_sublist.map _)
  · intro x hx rc hrc
    rcases List.mem_append.1 hrc with hold | hnew
    · exact h.sent_made x (hsub x hx) rc hold
    · rw [List.mem_singleton.1 hnew]
      intro hid
      -- the id of the new context has left the list with its only entry
      have heq : x = (id, peer) :=
        List.inj_on_of_nodup_map h.sent_nodup (hsub x hx) hsent hid.symm
      exact h.sent_nodup.of_map.not_mem_erase (heq ▸ hx)
  · intro address hle
    have hlen : s.made.length ≤ address := by
      simp only [SyncClient.register, List.length_append] at hle
      omega
    exact h.unused address hlen

/-- A context is taken out of the tables. -/
theorem take_inv (h : ClientInv s) (id : Nat) (c : Completion R) : ClientInv (s.take id c) := by
  cases hl : s.tables.entries.lookup id with
  | none =>
    rw [SyncClient.take_of_none hl]
    exact h
  | some rc =>
    rw [SyncClient.take_of_some hl]
    have hlookup : ∀ j, (s.tables.remove id rc.peer rc).entries.lookup j =
        if j = id then none else s.tables.entries.lookup j := fun j => lookup_erase_eq
    refine { h with
      grouped := h.grouped.remove hl
      entries_made := ?_
      jobs_made := ?_
      places := ?_ }
    · intro j d hd
      rw [hlookup] at hd
      split_ifs at hd
      exact h.entries_made j d hd
    · refine List.forall_mem_append.2 ⟨h.jobs_made, List.forall_mem_singleton.2 ?_⟩
      exact h.entries_made id rc hl
    · intro d hd
      have hplaces := h.places d hd
      simp only [SyncClient.places, hlookup, List.map_append, List.count_append] at hplaces ⊢
      by_cases hid : d.msgId = id
      · rw [hid, hl] at hplaces
        by_cases hdrc : d = rc
        · subst hdrc
          simp [hid] at hplaces ⊢
          omega
        · have hrcd : rc ≠ d := fun heq => hdrc heq.symm
          simp [hid, hrcd] at hplaces ⊢
          omega
      · have hrcd : rc ≠ d := by
          rintro rfl
          exact hid (h.grouped.key_eq id rc hl)
        simp [hid, hrcd] at hplaces ⊢
        omega

/-- The contexts of the peer are complete, and the others stay where they are. -/
theorem breakPeer_places (h : ClientInv s) (peer : NetPeerInfo) (hd : d ∈ s.made) :
    (s.breakPeer peer).places d = 1 := by
  have hmem := h.grouped.mem_members peer
  have hplaces := h.places d hd
  have haddress : (∃ rc ∈ s.tables.members peer, rc.address = d.address) ↔
      d ∈ s.tables.members peer := by
    constructor
    · rintro ⟨rc, hrc, heq⟩
      have hmade : rc ∈ s.made := h.entries_made _ rc ((hmem rc).1 hrc).2
      rwa [← h.eq_of_address hmade hd heq]
    · exact fun hd' => ⟨d, hd', rfl⟩
  simp only [SyncClient.places, SyncClient.breakPeer_lookup, SyncClient.breakPeer_vars,
    SyncClient.breakPeer_jobs, haddress] at hplaces ⊢
  by_cases hlook : s.tables.entries.lookup d.msgId = some d
  · rw [if_pos hlook] at hplaces
    simp only [h.grouped.key_mem_iff hlook]
    by_cases hin : d ∈ s.tables.members peer
    · simp only [if_pos hin, CtxVars.finish, reduceCtorEq, if_false]
      omega
    · simp only [if_neg hin, if_pos hlook]
      exact hplaces
  · have hin : d ∉ s.tables.members peer := fun hin => hlook ((hmem d).1 hin).2
    rw [if_neg hlook] at hplaces
    rw [if_neg (by split_ifs <;> simp [hlook]), if_neg hin]
    exact hplaces

/-- The calls to a peer are broken. -/
theorem breakPeer_inv (h : ClientInv s) (peer : NetPeerInfo) : ClientInv (s.breakPeer peer) := by
  have hmade := s.breakPeer_made peer
  refine ⟨?_, ?_, ?_, ?_, ?_, ?_, ?_, ?_⟩
  · rw [hmade]
    exact h.address_eq
  · unfold SyncClient.breakPeer
    split
    · exact h.grouped
    · exact h.grouped.removeGroup
  · intro j d hd
    rw [hmade]
    exact h.entries_made j d (SyncClient.lookup_of_breakPeer hd)
  · rw [hmade, s.breakPeer_jobs]
    exact h.jobs_made
  · rw [s.breakPeer_sent]
    exact h.sent_nodup
  · rw [hmade, s.breakPeer_sent]
    exact h.sent_made
  · intro d hd
    exact breakPeer_places h peer (hmade ▸ hd)
  · intro address hle
    have hnone : ¬ ∃ rc ∈ s.tables.members peer, rc.address = address := by
      rintro ⟨rc, hrc, rfl⟩
      have hlt := h.address_lt (h.entries_made _ rc ((h.grouped.mem_members peer rc).1 hrc).2)
      rw [hmade] at hle
      exact absurd hlt (Nat.not_lt.2 hle)
    rw [s.breakPeer_vars, if_neg hnone]
    exact h.unused address (hmade ▸ hle)

/-- A thread completes a context that it has taken out of the tables. -/
theorem complete_inv (h : ClientInv s) {i : Nat} {c : Completion R}
    (hjob : s.jobs[i]? = some (rc, c)) :
    ClientInv { s with
      vars := Function.update s.vars rc.address ((s.vars rc.address).finish c)
      jobs := s.jobs.eraseIdx i } := by
  obtain ⟨hi, hget⟩ := List.getElem?_eq_some_iff.1 hjob
  have hrc : rc ∈ s.made := h.jobs_made (rc, c) (List.mem_of_getElem? hjob)
  have hfinish : ((s.vars rc.address).finish c).completions =
      (s.vars rc.address).completions + 1 := by cases c <;> rfl
  have hperm : ((s.jobs.map Prod.fst)).Perm (rc :: (s.jobs.eraseIdx i).map Prod.fst) := by
    have hp := (List.getElem_cons_eraseIdx_perm hi).symm.map Prod.fst
    rwa [hget] at hp
  refine { h with jobs_made := ?_, places := ?_, unused := ?_ }
  · intro job hmem
    exact h.jobs_made job (List.mem_of_mem_eraseIdx hmem)
  · intro d hd
    have hplaces := h.places d hd
    simp only [SyncClient.places, hperm.count_eq, List.count_cons] at hplaces ⊢
    by_cases hdrc : d = rc
    · subst hdrc
      simp only [beq_self_eq_true, if_true] at hplaces
      rw [Function.update_self, hfinish]
      omega
    · have haddress : d.address ≠ rc.address := fun heq => hdrc (h.eq_of_address hd hrc heq)
      have hbeq : (rc == d) = false := by simpa using fun heq => hdrc (Eq.symm heq)
      simp only [hbeq, Bool.false_eq_true, if_false] at hplaces
      rw [Function.update_of_ne haddress]
      omega
  · intro address hle
    have hne : address ≠ rc.address := by
      rintro rfl
      exact absurd (h.address_lt hrc) (Nat.not_lt.2 hle)
    simp only [Function.update_of_ne hne]
    exact h.unused address hle

/-- Every step of a client whose ids are fresh keeps the invariant. -/
theorem clientStep_inv (h : ClientInv s) (ha : FreshId s a)
    (hstep : clientStep s a = some s') : ClientInv s' := by
  cases clientStep_move hstep with
  | sendMessageAsync =>
    refine { h with sent_nodup := ?_, sent_made := ?_ }
    · rw [List.map_append]
      exact h.sent_nodup.append (List.nodup_singleton _) (by simpa using ha.1)
    · refine List.forall_mem_append.2 ⟨h.sent_made, List.forall_mem_singleton.2 ?_⟩
      exact fun rc hrc heq => ha.2 (List.mem_map.2 ⟨rc, hrc, heq⟩)
  | register sent => exact register_inv h sent
  | @subscribe address timerEv =>
    refine h.of_vars (completions_update ?_)
    cases timerEv <;> rfl
  | message | timeout => exact take_inv h _ _
  | worker => exact breakPeer_inv h _
  | complete job => exact complete_inv h job
  | wake => exact h.of_vars (completions_update rfl)

/-- A step registers a context only under an id that no context has had. -/
theorem clientStep_ids (h : ClientInv s) (hids : (s.made.map RpcCtx.msgId).Nodup)
    (hstep : clientStep s a = some s') : (s'.made.map RpcCtx.msgId).Nodup := by
  rcases clientStep_grows hstep with ⟨hmade, -⟩ | ⟨rc, -, hmade, -, hsent⟩
  · rw [hmade]
    exact hids
  · rw [hmade, List.map_append]
    refine hids.append (List.nodup_singleton _) ?_
    rw [List.map_singleton, List.disjoint_singleton]
    intro hmem
    obtain ⟨d, hd, hid⟩ := List.mem_map.1 hmem
    exact h.sent_made _ hsent d hd hid

end Step

/-- In every interleaving of calls with distinct ids, responses, broken connections and
timeouts of any id, the two tables agree, no peer has an empty set, and every context is
completed at most once. -/
theorem call_tables_agree {R : Type} (labels : List (ClientLabel R))
    (hfresh : Guarded clientStep FreshId SyncClient.new labels) :
    Always clientStep (fun s => TablesAgree s ∧ CompletedOnce s) SyncClient.new labels := by
  have halways : Always clientStep ClientInv SyncClient.new labels :=
    always_of_guarded (fun _ _ _ h ha hstep => clientStep_inv h ha hstep) new_inv hfresh
  exact halways.mono fun _ h => ⟨h.tablesAgree, h.completedOnce⟩

/-- Two calls to one peer, the first one answered while the connection breaks. -/
theorem call_tables_agree_two_calls :
    let peer : NetPeerInfo := ⟨⟨"localhost", 80⟩, .tcp⟩
    let labels : List (ClientLabel Nat) := [.sendMessageAsync 1 peer, .sendMessageAsync 2 peer,
      .register 2 peer, .register 1 peer, .subscribe 0 (some 9), .message 1 7, .worker peer,
      .timeout 2, .complete 0, .wake 0]
    (run clientStep SyncClient.new labels).map (fun s =>
        ((s.vars 0).state, (s.vars 0).completions, (s.vars 1).state, (s.vars 1).completions)) =
          some (.brokenPipe, 1, .ok, 1) ∧
      Always clientStep (fun s => TablesAgree s ∧ CompletedOnce s) SyncClient.new labels := by
  intro peer labels
  refine ⟨by decide +kernel, ?_⟩
  exact call_tables_agree labels (by decide +kernel)

end Rpc
end CCraft
