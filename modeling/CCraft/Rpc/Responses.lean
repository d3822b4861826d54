import CCraft.Rpc.SyncClient

/-!
# Responses that come in time

A request leaves before its context is registered.  A response that arrives between the
two is dropped, and its call waits until it times out.  A call whose timer is refused leaves
with an exception, whether its response has come or not.

Main results:

- Theorem {lit}`clientStep_moves`: what a step does to the fields of the contexts and to the
  threads that complete them.
- Theorem {lit}`Answered.step`: a response that was handed over stays with its call.
- Theorem {lit}`response_completes_call_iff`: every response that comes in time completes its
  call, exactly when each of them finds its call registered and its caller there, and no timer is
  refused behind the response.
-/

namespace CCraft
namespace Rpc

open Net Runs

/-! ## Calls and their responses -/

/-- A client with its calls that have neither been answered nor timed out nor lost their
connection, and the responses that arrived for such calls. -/
structure Calls (R : Type) where
  client : SyncClient R
  unanswered : List (Nat × NetPeerInfo)
  delivered : List (Nat × R)

def Calls.new {R : Type} : Calls R :=
  ⟨.new, [], []⟩

/-- What a step of the client does to the record of its calls. -/
def Calls.note {R : Type} (s : Calls R) (client : SyncClient R) : ClientLabel R → Calls R
  | .sendMessageAsync id peer =>
    { s with client := client, unanswered := s.unanswered ++ [(id, peer)] }
  | .message id r =>
    if id ∈ s.unanswered.map Prod.fst then
      { client := client
        unanswered := s.unanswered.filter fun x => x.1 ≠ id
        delivered := s.delivered ++ [(id, r)] }
    else { s with client := client }
  | .worker peer =>
    { s with client := client, unanswered := s.unanswered.filter fun x => x.2 ≠ peer }
  | .timeout id =>
    if (s.client.tables.entries.lookup id).isSome = true then
      { s with client := client, unanswered := s.unanswered.filter fun x => x.1 ≠ id }
    else { s with client := client }
  | _ => { s with client := client }

def callsStep {R : Type} (s : Calls R) (a : ClientLabel R) : Option (Calls R) :=
  (clientStep s.client a).map fun client => s.note client a

/-- The response is in the hands of the thread that completes the context with it, or the
context is complete with it; a caller that has returned has it. -/
def Answered {R : Type} (s : SyncClient R) (rc : RpcCtx) (r : R) : Prop :=
  ((rc, .reply r) ∈ s.jobs ∨ ((s.vars rc.address).complete = true ∧
    SyncClient.outcome (s.vars rc.address) = .reply (some r))) ∧
  ∀ o, (s.vars rc.address).caller = .returned o → o = .reply (some r)

/-- Every response that came in time completes its call. -/
def Completes {R : Type} (s : Calls R) : Prop :=
  ∀ x ∈ s.delivered, ∃ rc ∈ s.client.made, rc.msgId = x.1 ∧ Answered s.client rc x.2

/-- The caller of a context has not left `recvMessage`. -/
def CallerPc.isThere {R : Type} (pc : CallerPc R) : Bool :=
  pc.isSubscribing || pc.isWaiting

/-- A response to a call that is neither answered nor timed out nor broken finds the call
registered and its caller there; a call whose response has come is not refused its timer. -/
def MeetsCall {R : Type} (s : Calls R) : ClientLabel R → Prop
  | .message id _ => id ∈ s.unanswered.map Prod.fst →
      ∃ rc ∈ s.client.tables.entries.lookup id, (s.client.vars rc.address).caller.isThere = true
  | .subscribe address none =>
    ∀ rc ∈ s.client.made[address]?, rc.msgId ∉ s.delivered.map Prod.fst
  | _ => True

instance {R : Type} (s : Calls R) (a : ClientLabel R) : Decidable (MeetsCall s a) :=
  match a with
  | .message id _ => inferInstanceAs (Decidable (id ∈ s.unanswered.map Prod.fst →
      ∃ rc ∈ s.client.tables.entries.lookup id, (s.client.vars rc.address).caller.isThere = true))
  | .subscribe address none => inferInstanceAs (Decidable
      (∀ rc ∈ s.client.made[address]?, rc.msgId ∉ s.delivered.map Prod.fst))
  | .subscribe _ (some _) | .sendMessageAsync _ _ | .register _ _ | .worker _ | .timeout _
  | .complete _ | .wake _ => isTrue trivial

/-- The fields of a context before its completion, and the outcome of a caller that has
returned. -/
structure VarsInv {R : Type} (v : CtxVars R) : Prop where
  pristine : v.completions = 0 → v.complete = false ∧ v.state = .ok
  returned : ∀ o, v.caller = .returned o →
    o = .internal ∨ (v.complete = true ∧ o = SyncClient.outcome v)

section Vars

variable {R : Type} {v : CtxVars R}

theorem varsInv_new : VarsInv ({} : CtxVars R) :=
  ⟨fun _ => ⟨rfl, rfl⟩, fun _ h => by cases h⟩

/-- A context is completed for the first time. -/
theorem VarsInv.finish (h : VarsInv v) (hnew : v.completions = 0) (c : Completion R) :
    VarsInv (v.finish c) := by
  refine ⟨?_, ?_⟩
  · intro hzero
    cases c <;> simp [CtxVars.finish] at hzero
  · intro o ho
    have hcaller : v.caller = .returned o := by cases c <;> exact ho
    rcases h.returned o hcaller with hinternal | ⟨hcomplete, _⟩
    · exact .inl hinternal
    · rw [(h.pristine hnew).1] at hcomplete
      cases hcomplete

theorem outcome_finish_reply (h : VarsInv v) (hnew : v.completions = 0) (r : R) :
    SyncClient.outcome (v.finish (.reply r)) = .reply (some r) := by
  have hstate := (h.pristine hnew).2
  simp [CtxVars.finish, SyncClient.outcome, hstate]

end Vars

/-! ## What a step does to the contexts -/

/-- A step changes no context, takes one out of the tables for a thread to complete,
completes all those of a peer, moves a caller on, or completes the context of a thread. -/
inductive Moves {R : Type} (s : SyncClient R) (a : ClientLabel R) (s' : SyncClient R) : Prop
  | quiet (vars : s'.vars = s.vars) (jobs : s'.jobs = s.jobs)
  | taken (rc : RpcCtx) (c : Completion R) (vars : s'.vars = s.vars)
      (jobs : s'.jobs = s.jobs ++ [(rc, c)])
  | broken (rcs : Finset RpcCtx)
      (lookup : ∀ rc ∈ rcs, s.tables.entries.lookup rc.msgId = some rc)
      (vars : ∀ address, s'.vars address =
        if ∃ rc ∈ rcs, rc.address = address then (s.vars address).finish .brokenPipe
        else s.vars address)
      (jobs : s'.jobs = s.jobs)
  | caller (x : Nat) (timerEv : Option Nat) (pc : CallerPc R)
      (pc_cases : pc = .waiting ∨ (a = .subscribe x none ∧ pc = .returned .internal) ∨
        (s.vars x).complete = true ∧ pc = .returned (SyncClient.outcome (s.vars x)))
      (vars : s'.vars =
        Function.update s.vars x { s.vars x with timerEv := timerEv, caller := pc })
      (jobs : s'.jobs = s.jobs)
  | completed (i : Nat) (rc : RpcCtx) (c : Completion R) (job : s.jobs[i]? = some (rc, c))
      (vars : s'.vars =
        Function.update s.vars rc.address ((s.vars rc.address).finish c))
      (jobs : s'.jobs = s.jobs.eraseIdx i)

section Step

variable {R : Type} {s s' : SyncClient R} {a : ClientLabel R} {rc : RpcCtx} {r : R}

theorem take_moves (s : SyncClient R) (id : Nat) (c : Completion R) :
    Moves s a (s.take id c) := by
  unfold SyncClient.take
  split
  · exact .quiet rfl rfl
  · exact .taken _ c rfl rfl

theorem breakPeer_moves (h : ClientInv s) (peer : NetPeerInfo) :
    Moves s a (s.breakPeer peer) := by
  refine .broken (s.tables.members peer) ?_ (s.breakPeer_vars peer) (s.breakPeer_jobs peer)
  intro rc hrc
  exact ((h.grouped.mem_members peer rc).1 hrc).2

/-- Every step is one of the moves. -/
theorem clientStep_moves (h : ClientInv s) (hstep : clientStep s a = some s') :
    Moves s a s' := by
  cases clientStep_move hstep with
  | sendMessageAsync | register => exact .quiet rfl rfl
  | @subscribe x timerEv =>
    cases timerEv with
    | none => exact .caller x _ _ (.inr (.inl ⟨rfl, rfl⟩)) rfl rfl
    | some when => exact .caller x _ _ (.inl rfl) rfl rfl
  | message | timeout => exact take_moves s _ _
  | worker => exact breakPeer_moves h _
  | complete job => exact .completed _ _ _ job rfl rfl
  | @wake x _ complete => exact .caller x _ _ (.inr (.inr ⟨complete, rfl⟩)) rfl rfl

/-- The threads that complete a context that is in the tables or has one such thread. -/
theorem ClientInv.completions_of_lookup (h : ClientInv s)
    (hl : s.tables.entries.lookup rc.msgId = some rc) :
    (s.vars rc.address).completions = 0 ∧ ∀ c, (rc, c) ∉ s.jobs := by
  have hplaces := h.places rc (h.entries_made _ rc hl)
  rw [SyncClient.places, if_pos hl] at hplaces
  refine ⟨by omega, ?_⟩
  intro c hjob
  have hcount : rc ∉ s.jobs.map Prod.fst := List.count_eq_zero.1 (by omega)
  exact hcount (List.mem_map_of_mem hjob)

theorem ClientInv.completions_of_job (h : ClientInv s) {c : Completion R}
    (hjob : (rc, c) ∈ s.jobs) : (s.vars rc.address).completions = 0 := by
  have hplaces := h.places rc (h.jobs_made _ hjob)
  have hcount : 0 < (s.jobs.map Prod.fst).count rc :=
    List.count_pos_iff.2 (List.mem_map_of_mem hjob)
  rw [SyncClient.places] at hplaces
  omega

/-- A context has at most one thread that completes it. -/
theorem ClientInv.job_unique (h : ClientInv s) {i : Nat} {c c' : Completion R}
    (hi : s.jobs[i]? = some (rc, c)) : (rc, c') ∉ s.jobs.eraseIdx i := by
  intro hmem
  obtain ⟨hlt, hget⟩ := List.getElem?_eq_some_iff.1 hi
  have hplaces := h.places rc (h.jobs_made _ (List.mem_of_getElem? hi))
  have hperm := (List.getElem_cons_eraseIdx_perm hlt).symm.map Prod.fst
  rw [hget] at hperm
  have hcount : 0 < ((s.jobs.eraseIdx i).map Prod.fst).count rc :=
    List.count_pos_iff.2 (List.mem_map_of_mem hmem)
  rw [SyncClient.places, hperm.count_eq, List.map_cons, List.count_cons_self] at hplaces
  omega

/-- Every step keeps what is known of the fields of the contexts. -/
theorem clientStep_vars (h : ClientInv s) (hv : ∀ address, VarsInv (s.vars address))
    (hstep : clientStep s a = some s') (address : Nat) : VarsInv (s'.vars address) := by
  have hupdate : ∀ {x : Nat} {v : CtxVars R}, VarsInv v →
      VarsInv (Function.update s.vars x v address) := by
    intro x v hvx
    by_cases heq : address = x
    · rw [heq, Function.update_self]
      exact hvx
    · rw [Function.update_of_ne heq]
      exact hv address
  cases clientStep_moves h hstep with
  | quiet vars | taken rc c vars => exact vars ▸ hv address
  | broken rcs lookup vars _ =>
    rw [vars]
    split_ifs with hmem
    · obtain ⟨rc, hrc, rfl⟩ := hmem
      exact (hv _).finish (h.completions_of_lookup (lookup rc hrc)).1 _
    · exact hv address
  | caller x timerEv pc pc_cases vars _ =>
    rw [vars]
    refine hupdate ⟨(hv x).pristine, ?_⟩
    rintro o rfl
    rcases pc_cases with hpc | ⟨-, hpc⟩ | ⟨hcomplete, hpc⟩
    · cases hpc
    · cases hpc
      exact .inl rfl
    · cases hpc
      exact .inr ⟨hcomplete, rfl⟩
  | completed i rc c job vars _ =>
    rw [vars]
    exact hupdate ((hv _).finish (h.completions_of_job (List.mem_of_getElem? job)) c)

/-- A step that touches neither the job nor the fields of a context. -/
theorem Answered.congr (h : Answered s rc r)
    (hjobs : (rc, Completion.reply r) ∈ s.jobs → (rc, Completion.reply r) ∈ s'.jobs)
    (hvars : s'.vars rc.address = s.vars rc.address) : Answered s' rc r := by
  unfold Answered
  rw [hvars]
  exact ⟨h.1.imp_left hjobs, h.2⟩

/-- Only a context whose response is still in the hands of a thread is not completed. -/
theorem Answered.job_of_completions (h : Answered s rc r) (hv : VarsInv (s.vars rc.address))
    (hzero : (s.vars rc.address).completions = 0) : (rc, Completion.reply r) ∈ s.jobs := by
  rcases h.1 with hjob | ⟨hcomplete, _⟩
  · exact hjob
  · rw [(hv.pristine hzero).1] at hcomplete
    cases hcomplete

/-- A caller that moves on while a response is under way. -/
theorem Answered.caller {x : Nat} {timerEv : Option Nat} {pc : CallerPc R} (h : ClientInv s)
    (hv : ∀ address, VarsInv (s.vars address)) (hans : Answered s rc r)
    (hpc : pc = .waiting ∨ rc.address ≠ x ∨
      (s.vars x).complete = true ∧ pc = .returned (SyncClient.outcome (s.vars x)))
    (hvars : s'.vars =
      Function.update s.vars x { s.vars x with timerEv := timerEv, caller := pc })
    (hjobs : s'.jobs = s.jobs) : Answered s' rc r := by
  by_cases hx : rc.address = x
  · subst hx
    unfold Answered
    rw [hvars, hjobs, Function.update_self]
    refine ⟨hans.1, ?_⟩
    rintro o rfl
    rcases hpc with hpc | hne | ⟨hcomplete, hpc⟩
    · cases hpc
    · exact absurd rfl hne
    · cases hpc
      rcases hans.1 with hjob | ⟨_, houtcome⟩
      · have hpristine := (hv rc.address).pristine (h.completions_of_job hjob)
        rw [hpristine.1] at hcomplete
        cases hcomplete
      · exact houtcome
  · refine hans.congr (fun hjob => hjobs ▸ hjob) ?_
    rw [hvars, Function.update_of_ne hx]

/-- A thread completes some context while a response is under way. -/
theorem Answered.completed {i : Nat} {d : RpcCtx} {c : Completion R} (h : ClientInv s)
    (hv : ∀ address, VarsInv (s.vars address)) (hrc : rc ∈ s.made) (hans : Answered s rc r)
    (hjob : s.jobs[i]? = some (d, c))
    (hvars : s'.vars = Function.update s.vars d.address ((s.vars d.address).finish c))
    (hjobs : s'.jobs = s.jobs.eraseIdx i) : Answered s' rc r := by
  have hd : d ∈ s.made := h.jobs_made _ (List.mem_of_getElem? hjob)
  have hstays : (d, c) ≠ (rc, .reply r) → (rc, Completion.reply r) ∈ s.jobs →
      (rc, Completion.reply r) ∈ s.jobs.eraseIdx i := by
    intro hne hmem
    obtain ⟨j, hj⟩ := List.mem_iff_getElem?.1 hmem
    refine List.mem_eraseIdx_iff_getElem?.2 ⟨j, ?_, hj⟩
    rintro rfl
    exact hne (Option.some.inj (hjob.symm.trans hj))
  by_cases hdrc : d = rc
  · subst hdrc
    have hzero := h.completions_of_job (List.mem_of_getElem? hjob)
    have hmem := hans.job_of_completions (hv _) hzero
    have hc : c = .reply r := by
      by_contra hne
      exact h.job_unique hjob (hstays (by simpa using hne) hmem)
    subst hc
    unfold Answered
    rw [hvars, Function.update_self]
    exact ⟨.inr ⟨rfl, outcome_finish_reply (hv _) hzero r⟩, hans.2⟩
  · have haddress : rc.address ≠ d.address := fun heq =>
      hdrc (h.eq_of_address hrc hd heq).symm
    refine hans.congr (fun hmem => hjobs ▸ hstays (by simp [hdrc]) hmem) ?_
    rw [hvars, Function.update_of_ne haddress]

/-- A response that was handed over stays with its call, unless the caller is refused its
timer. -/
theorem Answered.step (h : ClientInv s) (hv : ∀ address, VarsInv (s.vars address))
    (hrc : rc ∈ s.made) (hans : Answered s rc r) (hrefused : a ≠ .subscribe rc.address none)
    (hstep : clientStep s a = some s') : Answered s' rc r := by
  cases clientStep_moves h hstep with
  | quiet vars jobs => exact hans.congr (fun hjob => jobs ▸ hjob) (by rw [vars])
  | taken d c vars jobs =>
    exact hans.congr (fun hjob => jobs ▸ List.mem_append_left _ hjob) (by rw [vars])
  | broken rcs lookup vars jobs =>
    refine hans.congr (fun hjob => jobs ▸ hjob) ?_
    rw [vars, if_neg]
    rintro ⟨d, hd, haddress⟩
    have hlookup := lookup d hd
    have heq : d = rc := h.eq_of_address (h.entries_made _ d hlookup) hrc haddress
    subst heq
    obtain ⟨hzero, hnojob⟩ := h.completions_of_lookup hlookup
    exact hnojob _ (hans.job_of_completions (hv _) hzero)
  | caller x timerEv pc pc_cases vars jobs =>
    refine hans.caller h hv (pc_cases.imp_right (Or.imp_left ?_)) vars jobs
    rintro ⟨rfl, -⟩ rfl
    exact hrefused rfl
  | completed i d c job vars jobs => exact hans.completed h hv hrc job vars jobs

end Step

/-! ## Calls that wait for their response -/

/-- A call without a response is still to be registered, or its context is in the tables. -/
structure Tracked {R : Type} (s : SyncClient R) (unanswered : List (Nat × NetPeerInfo)) :
    Prop where
  registered : ∀ x ∈ unanswered, ∀ rc ∈ s.made, rc.msgId = x.1 →
    rc.peer = x.2 ∧ s.tables.entries.lookup rc.msgId = some rc
  sent_eq : ∀ x ∈ unanswered, ∀ y ∈ s.sent, x.1 = y.1 → x = y
  known : ∀ x ∈ unanswered, x ∈ s.sent ∨ ∃ rc ∈ s.made, rc.msgId = x.1

section Tracked

variable {R : Type} {s s' : SyncClient R} {unanswered unanswered' : List (Nat × NetPeerInfo)}
variable {id : Nat} {peer : NetPeerInfo}

theorem Tracked.sendMessageAsync (h : Tracked s unanswered)
    (hfresh : id ∉ s.sent.map Prod.fst ∧ id ∉ s.made.map RpcCtx.msgId) :
    Tracked { s with sent := s.sent ++ [(id, peer)] } (unanswered ++ [(id, peer)]) := by
  have hsent : ∀ y ∈ s.sent, y.1 ≠ id := fun y hy heq =>
    hfresh.1 (heq ▸ List.mem_map_of_mem hy)
  have hmade : ∀ rc ∈ s.made, rc.msgId ≠ id := fun rc hrc heq =>
    hfresh.2 (heq ▸ List.mem_map_of_mem hrc)
  have hknown : ∀ x ∈ unanswered, x.1 ≠ id := by
    intro x hx heq
    rcases h.known x hx with hx | ⟨rc, hrc, hid⟩
    · exact hsent x hx heq
    · exact hmade rc hrc (hid.trans heq)
  refine ⟨?_, ?_, ?_⟩
  · refine List.forall_mem_append.2 ⟨h.registered, List.forall_mem_singleton.2 ?_⟩
    exact fun rc hrc hid => absurd hid (hmade rc hrc)
  · intro x hx y hy hid
    rcases List.mem_append.1 hx with hx | hx <;> rcases List.mem_append.1 hy with hy | hy
    · exact h.sent_eq x hx y hy hid
    · rw [List.mem_singleton.1 hy] at hid
      exact absurd hid (hknown x hx)
    · rw [List.mem_singleton.1 hx] at hid
      exact absurd hid.symm (hsent y hy)
    · rw [List.mem_singleton.1 hx, List.mem_singleton.1 hy]
  · refine List.forall_mem_append.2 ⟨fun x hx => ?_, fun x hx => ?_⟩
    · exact (h.known x hx).imp_left (List.mem_append_left _)
    · exact .inl (List.mem_append_right _ hx)

theorem Tracked.register (h : Tracked s unanswered) (hinv : ClientInv s)
    (hsent : (id, peer) ∈ s.sent) : Tracked (s.register id peer) unanswered := by
  have hlookup : ∀ j, (s.register id peer).tables.entries.lookup j =
      if j = id then some ⟨s.made.length, peer, id⟩ else s.tables.entries.lookup j :=
    fun j => PageMap.lookup_insert_eq
  refine ⟨?_, ?_, ?_⟩
  · intro x hx rc hrc hid
    rw [hlookup]
    rcases List.mem_append.1 hrc with hold | hnew
    · rw [if_neg (hinv.sent_made _ hsent rc hold)]
      exact h.registered x hx rc hold hid
    · rw [List.mem_singleton.1 hnew] at hid ⊢
      have heq := h.sent_eq x hx _ hsent hid.symm
      exact ⟨by rw [heq], if_pos rfl⟩
  · intro x hx y hy hid
    exact h.sent_eq x hx y (List.mem_of_mem_erase hy) hid
  · intro x hx
    rcases h.known x hx with hmem | ⟨rc, hrc, hid⟩
    · by_cases heq : x = (id, peer)
      · refine .inr ⟨⟨s.made.length, peer, id⟩, ?_, by rw [heq]⟩
        exact List.mem_append_right _ (List.mem_singleton_self _)
      · exact .inl ((List.mem_erase_of_ne heq).2 hmem)
    · exact .inr ⟨rc, List.mem_append_left _ hrc, hid⟩

/-- Calls may be dropped, and contexts that belong to none of the others. -/
theorem Tracked.narrow (h : Tracked s unanswered) (hsent : s'.sent = s.sent)
    (hmade : s'.made = s.made) (hsub : ∀ x ∈ unanswered', x ∈ unanswered)
    (hlookup : ∀ x ∈ unanswered', ∀ rc : RpcCtx, rc.msgId = x.1 → rc.peer = x.2 →
      s.tables.entries.lookup rc.msgId = some rc → s'.tables.entries.lookup rc.msgId = some rc) :
    Tracked s' unanswered' := by
  refine ⟨?_, ?_, ?_⟩
  · intro x hx rc hrc hid
    obtain ⟨hpeer, hlook⟩ := h.registered x (hsub x hx) rc (hmade ▸ hrc) hid
    exact ⟨hpeer, hlookup x hx rc hid hpeer hlook⟩
  · intro x hx y hy hid
    exact h.sent_eq x (hsub x hx) y (hsent ▸ hy) hid
  · intro x hx
    rw [hsent, hmade]
    exact h.known x (hsub x hx)

theorem Tracked.take (h : Tracked s unanswered) (c : Completion R)
    (hsub : ∀ x ∈ unanswered', x ∈ unanswered) (hid : ∀ x ∈ unanswered', x.1 ≠ id) :
    Tracked (s.take id c) unanswered' := by
  cases hl : s.tables.entries.lookup id with
  | none =>
    rw [SyncClient.take_of_none hl]
    exact h.narrow rfl rfl hsub fun _ _ _ _ _ hlook => hlook
  | some rc =>
    rw [SyncClient.take_of_some hl]
    refine h.narrow rfl rfl hsub ?_
    intro x hx d hd _ hlook
    have hne : d.msgId ≠ id := fun heq => hid x hx (hd.symm.trans heq)
    exact PageMap.lookup_erase_eq.trans ((if_neg hne).trans hlook)

theorem Tracked.breakPeer (h : Tracked s unanswered) (hinv : ClientInv s)
    (hsub : ∀ x ∈ unanswered', x ∈ unanswered) (hpeer : ∀ x ∈ unanswered', x.2 ≠ peer) :
    Tracked (s.breakPeer peer) unanswered' := by
  refine h.narrow (s.breakPeer_sent peer) (s.breakPeer_made peer) hsub ?_
  intro x hx d _ hd hlook
  rw [s.breakPeer_lookup, if_neg, hlook]
  rintro ⟨rc, hrc, hid⟩
  obtain ⟨hrcpeer, hrclook⟩ := (hinv.grouped.mem_members peer rc).1 hrc
  rw [hid, hlook] at hrclook
  rw [← Option.some.inj hrclook, hd] at hrcpeer
  exact hpeer x hx hrcpeer

end Tracked

/-! ## Whole runs -/

structure CallsInv {R : Type} (s : Calls R) : Prop where
  client : ClientInv s.client
  ids : (s.client.made.map RpcCtx.msgId).Nodup
  vars : ∀ address, VarsInv (s.client.vars address)
  tracked : Tracked s.client s.unanswered
  completes : Completes s

section Calls

variable {R : Type} {s s' : Calls R} {a : ClientLabel R}

theorem new_callsInv : CallsInv (Calls.new : Calls R) := by
  refine ⟨new_inv, List.nodup_nil, fun _ => varsInv_new, ⟨?_, ?_, ?_⟩, ?_⟩
  · simp [Calls.new]
  · simp [Calls.new]
  · simp [Calls.new]
  · simp [Completes, Calls.new]

/-- Every step keeps track of the calls without a response. -/
theorem note_tracked (h : CallsInv s) (hf : FreshId s.client a) {client : SyncClient R}
    (hstep : clientStep s.client a = some client) :
    Tracked (s.note client a).client (s.note client a).unanswered := by
  cases clientStep_move hstep with
  | sendMessageAsync => exact h.tracked.sendMessageAsync hf
  | register sent => exact h.tracked.register h.client sent
  | @message id r =>
    simp only [Calls.note]
    split_ifs with hmem
    · refine h.tracked.take _ (fun x hx => List.mem_of_mem_filter hx) ?_
      intro x hx
      simpa using List.of_mem_filter hx
    · refine h.tracked.take _ (fun x hx => hx) ?_
      rintro x hx rfl
      exact hmem (List.mem_map_of_mem hx)
  | worker =>
    refine h.tracked.breakPeer h.client (fun x hx => List.mem_of_mem_filter hx) ?_
    intro x hx
    simpa using List.of_mem_filter hx
  | timeout =>
    simp only [Calls.note]
    split_ifs with hfound
    · refine h.tracked.take _ (fun x hx => List.mem_of_mem_filter hx) ?_
      intro x hx
      simpa using List.of_mem_filter hx
    · rw [SyncClient.take_of_none (by simpa using hfound)]
      exact h.tracked
  | subscribe | complete | wake =>
    exact h.tracked.narrow rfl rfl (fun _ hx => hx) fun _ _ _ _ _ hlook => hlook

theorem note_client (client : SyncClient R) : (s.note client a).client = client := by
  unfold Calls.note
  split
  · rfl
  · split_ifs <;> rfl
  · rfl
  · split_ifs <;> rfl
  · rfl

/-- The responses that the step adds to the record. -/
theorem note_delivered (client : SyncClient R) :
    (s.note client a).delivered = s.delivered ∨
      ∃ id r, a = .message id r ∧ id ∈ s.unanswered.map Prod.fst ∧
        (s.note client a).delivered = s.delivered ++ [(id, r)] := by
  cases a with
  | message id r =>
    simp only [Calls.note]
    split_ifs with hmem
    · exact .inr ⟨id, r, rfl, hmem, rfl⟩
    · exact .inl rfl
  | timeout id =>
    refine .inl ?_
    simp only [Calls.note]
    split_ifs <;> rfl
  | _ => exact .inl rfl

theorem CallsInv.getElem?_address (h : CallsInv s) {rc : RpcCtx} (hrc : rc ∈ s.client.made) :
    s.client.made[rc.address]? = some rc := by
  obtain ⟨i, hi⟩ := List.mem_iff_getElem?.1 hrc
  rw [h.client.address_eq i rc hi, hi]

/-- The caller of a call in the tables is there, or it has left with the exception. -/
theorem CallsInv.returned_of_lookup (h : CallsInv s) {rc : RpcCtx} {o : Outcome R}
    (hlook : s.client.tables.entries.lookup rc.msgId = some rc)
    (ho : (s.client.vars rc.address).caller = .returned o) : o = .internal := by
  have hzero := (h.client.completions_of_lookup hlook).1
  rcases (h.vars _).returned o ho with hinternal | ⟨hcomplete, _⟩
  · exact hinternal
  · rw [((h.vars _).pristine hzero).1] at hcomplete
    cases hcomplete

/-- A response that meets its call is handed over. -/
theorem note_completes (h : CallsInv s) (hg : MeetsCall s a) {client : SyncClient R}
    (hstep : clientStep s.client a = some client) : Completes (s.note client a) := by
  have hold : ∀ x ∈ s.delivered, ∃ rc ∈ client.made, rc.msgId = x.1 ∧
      Answered client rc x.2 := by
    intro x hx
    obtain ⟨rc, hrc, hid, hans⟩ := h.completes x hx
    refine ⟨rc, (clientStep_made hstep).subset hrc, hid,
      hans.step h.client h.vars hrc ?_ hstep⟩
    rintro rfl
    exact hg rc (h.getElem?_address hrc) (hid ▸ List.mem_map_of_mem hx)
  unfold Completes
  rw [note_client]
  rcases note_delivered (s := s) (a := a) client with hsame | ⟨id, r, rfl, hmem, hnew⟩
  · rw [hsame]
    exact hold
  · rw [hnew]
    intro x hx
    rcases List.mem_append.1 hx with hx | hx
    · exact hold x hx
    · rw [List.mem_singleton.1 hx]
      obtain ⟨rc, hlook, hthere⟩ := hg hmem
      rw [Option.mem_def] at hlook
      simp only [clientStep, SyncClient.take_of_some hlook] at hstep
      cases hstep
      have hid := h.client.grouped.key_eq id rc hlook
      refine ⟨rc, h.client.entries_made id rc hlook, hid, ?_, ?_⟩
      · exact .inl (List.mem_append_right _ (List.mem_singleton_self _))
      · intro o ho
        rw [show (s.client.vars rc.address).caller = .returned o from ho] at hthere
        cases hthere

theorem callsStep_inv (h : CallsInv s) (hf : FreshId s.client a) (hg : MeetsCall s a)
    (hstep : callsStep s a = some s') : CallsInv s' := by
  simp only [callsStep, Option.map_eq_some_iff] at hstep
  obtain ⟨client, hclient, rfl⟩ := hstep
  refine ⟨?_, ?_, ?_, note_tracked h hf hclient, note_completes h hg hclient⟩
  · rw [note_client]
    exact clientStep_inv h.client hf hclient
  · rw [note_client]
    exact clientStep_ids h.client h.ids hclient
  · rw [note_client]
    exact clientStep_vars h.client h.vars hclient

/-- A response is lost on a call that is not registered or whose caller has left. -/
theorem message_lost (h : CallsInv s) {id : Nat} {r : R} (hmem : id ∈ s.unanswered.map Prod.fst)
    (hg : ∀ rc, s.client.tables.entries.lookup id = some rc →
      (s.client.vars rc.address).caller.isThere = false) :
    ¬ Completes (s.note (s.client.take id (.reply r)) (.message id r)) := by
  simp only [Calls.note, if_pos hmem]
  intro hcompletes
  obtain ⟨rc, hrc, hid, hans⟩ :=
    hcompletes (id, r) (List.mem_append_right _ (List.mem_singleton_self _))
  obtain ⟨x, hx, rfl⟩ := List.mem_map.1 hmem
  have hmade : rc ∈ s.client.made := SyncClient.take_made s.client x.1 (.reply r) ▸ hrc
  obtain ⟨_, hfound⟩ := h.tracked.registered x hx rc hmade hid
  have hid' : rc.msgId = x.1 := hid
  -- the context is in the tables, so its caller has left with the exception
  have hgone := hg rc (hid' ▸ hfound)
  have hvars : (s.client.take x.1 (.reply r)).vars = s.client.vars := by
    unfold SyncClient.take
    split <;> rfl
  cases hcaller : (s.client.vars rc.address).caller with
  | subscribing => simp [CallerPc.isThere, CallerPc.isSubscribing, hcaller] at hgone
  | waiting => simp [CallerPc.isThere, CallerPc.isWaiting, hcaller] at hgone
  | returned o =>
    have hreply := hans.2 o (by rw [hvars, hcaller])
    rw [h.returned_of_lookup hfound hcaller] at hreply
    cases hreply

/-- A response is lost when it does not meet its call. -/
theorem callsStep_lost (h : CallsInv s) (hg : ¬ MeetsCall s a)
    (hstep : callsStep s a = some s') : ¬ Completes s' := by
  simp only [callsStep, Option.map_eq_some_iff] at hstep
  obtain ⟨client, hclient, rfl⟩ := hstep
  cases a with
  | message id r =>
    simp only [MeetsCall, Classical.not_imp, not_exists, not_and, Bool.not_eq_true] at hg
    cases hclient
    exact message_lost h hg.1 hg.2
  | subscribe address timerEv =>
    cases timerEv with
    | some when => exact absurd trivial hg
    | none =>
      simp only [MeetsCall, not_forall, not_not] at hg
      obtain ⟨rc, hget, hid⟩ := hg
      obtain ⟨x, hx, hxid⟩ := List.mem_map.1 hid
      obtain ⟨-, ⟨⟩⟩ := Option.ite_none_right_eq_some.1 hclient
      intro hcompletes
      obtain ⟨rc', hrc', hid', hans⟩ := hcompletes x hx
      obtain rfl : rc' = rc := List.inj_on_of_nodup_map h.ids hrc'
        (List.mem_of_getElem? hget) (hid'.trans hxid)
      have haddress := h.client.address_eq address rc' hget
      have hcaller := hans.2 .internal (by
        simp [Calls.note, SyncClient.subscribe, haddress])
      cases hcaller
  | _ => exact absurd trivial hg

end Calls

/-- In every interleaving of calls with distinct ids: every response that arrives before its
call is answered, timed out or lost its connection completes that call, exactly when each of
these responses finds its call registered and its caller there, and no call is refused its timer
after its response has come. -/
theorem response_completes_call_iff {R : Type} (labels : List (ClientLabel R)) (t : Calls R)
    (hrun : run callsStep Calls.new labels = some t)
    (hfresh : Guarded callsStep (fun s a => FreshId s.client a) Calls.new labels) :
    Always callsStep Completes Calls.new labels ↔
      Guarded callsStep MeetsCall Calls.new labels :=
  always_iff_guarded_of_guarded (I := CallsInv)
    (fun _ _ _ h hf hg hstep => callsStep_inv h hf hg hstep) (fun _ h => h.completes)
    (fun _ _ _ h _ hg hstep => callsStep_lost h hg hstep) new_callsInv hfresh hrun

/-- Two calls are answered after they were registered, in the other order. -/
theorem response_completes_two_calls :
    let peer : NetPeerInfo := ⟨⟨"localhost", 80⟩, .tcp⟩
    let labels : List (ClientLabel Nat) := [.sendMessageAsync 1 peer, .sendMessageAsync 2 peer,
      .register 2 peer, .register 1 peer, .message 1 7, .subscribe 1 (some 9), .message 2 8,
      .complete 1, .complete 0, .wake 1]
    (run callsStep Calls.new labels).map (fun s => s.delivered) = some [(1, 7), (2, 8)] ∧
      Always callsStep Completes Calls.new labels := by
  intro peer labels
  have hmap : (run callsStep Calls.new labels).map (fun s => s.delivered) =
      some [(1, 7), (2, 8)] := by decide +kernel
  obtain ⟨t, hrun, _⟩ := Option.map_eq_some_iff.1 hmap
  refine ⟨hmap, ?_⟩
  exact (response_completes_call_iff labels t hrun (by decide +kernel)).2 (by decide +kernel)

/-- The response overtakes the registration: it is dropped and the call is left pending. -/
theorem response_lost :
    let peer : NetPeerInfo := ⟨⟨"localhost", 80⟩, .tcp⟩
    let labels : List (ClientLabel Nat) := [.sendMessageAsync 1 peer, .message 1 7,
      .register 1 peer, .subscribe 0 (some 9)]
    ∃ t, run callsStep Calls.new labels = some t ∧ t.delivered = [(1, 7)] ∧
      t.client.tables.entries.lookup 1 = some ⟨0, peer, 1⟩ ∧ t.client.jobs.length = 0 ∧
      (t.client.vars 0).complete = false ∧ ¬ Completes t := by
  intro peer labels
  obtain ⟨t, hrun, hdelivered, hlookup, hmade, hjobs, hcomplete⟩ :
      ∃ t ∈ run callsStep Calls.new labels, t.delivered = [(1, 7)] ∧
        t.client.tables.entries.lookup 1 = some ⟨0, peer, 1⟩ ∧ t.client.made = [⟨0, peer, 1⟩] ∧
        t.client.jobs.length = 0 ∧ (t.client.vars 0).complete = false := by decide +kernel
  refine ⟨t, hrun, hdelivered, hlookup, hjobs, hcomplete, ?_⟩
  intro hcompletes
  obtain ⟨rc, hrc, _, hans, _⟩ := hcompletes (1, 7) (by simp [hdelivered])
  rw [hmade, List.mem_singleton] at hrc
  subst hrc
  rcases hans with hjob | ⟨hdone, _⟩
  · rw [List.length_eq_zero_iff.1 hjobs] at hjob
    simp at hjob
  · rw [hcomplete] at hdone
    cases hdone

end Rpc
end CCraft
