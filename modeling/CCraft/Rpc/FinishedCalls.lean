import CCraft.Rpc.Responses
import CCraft.Rpc.Timeout

/-!
# What a finished call leaves behind

`recvMessage` registers its context in both tables and leaves it to others to take it out: the
thread that hands it a response, a broken connection or a timeout.  A caller that waits for its
completion returns after one of them has done so.  A caller whose timer subscription is refused
throws at once, and nobody has taken its context out, unless a response, a broken connection or
a timeout came between the registration and the subscription.

Main results:

- Theorem {lit}`clientStep_returns`: which steps let a caller return.
- Theorems {lit}`clientStep_gone` and {lit}`clientStep_leaves_trace`: after which of them its
  context is out of the tables.
- Theorem {lit}`finished_call_leaves_no_trace_iff`: the same for every interleaving.
-/

namespace CCraft
namespace Rpc

open Net Runs PageMap

/-! ## Traces -/

/-- The id of a call whose caller has returned is not in `m_hmapRpcCtxs`, and its context is in
no set of `m_hmapPeerRpcs`. -/
def NoTrace {R : Type} (s : SyncClient R) : Prop :=
  ∀ rc ∈ s.made, ∀ o, (s.vars rc.address).caller = .returned o →
    s.tables.entries.lookup rc.msgId = none ∧ ∀ peer, rc ∉ s.tables.members peer

/-- A timer subscription is refused only when the context of the call has been taken out of
the tables. -/
def RefusedLate {R : Type} (s : SyncClient R) : ClientLabel R → Prop
  | .subscribe address none =>
    ∀ rc ∈ s.made[address]?, s.tables.entries.lookup rc.msgId ≠ some rc
  | _ => True

instance {R : Type} (s : SyncClient R) : (a : ClientLabel R) → Decidable (RefusedLate s a)
  | .subscribe address none => inferInstanceAs (Decidable
      (∀ rc ∈ s.made[address]?, s.tables.entries.lookup rc.msgId ≠ some rc))
  | .sendMessageAsync _ _ | .register _ _ | .subscribe _ (some _) | .message _ _ | .worker _
  | .timeout _ | .complete _ | .wake _ => isTrue trivial

/-- The invariant: the tables are right, ids are not used twice, the caller of an address that
is not in use has not begun, and the context of a caller that has returned is not in the
table. -/
structure TraceInv {R : Type} (s : SyncClient R) : Prop where
  client : ClientInv s
  vars : ∀ address, VarsInv (s.vars address)
  ids_nodup : (s.made.map RpcCtx.msgId).Nodup
  unused : ∀ address, s.made.length ≤ address → (s.vars address).caller = .subscribing
  gone : ∀ rc ∈ s.made, ∀ o, (s.vars rc.address).caller = .returned o →
    s.tables.entries.lookup rc.msgId ≠ some rc

section Traces

variable {R : Type} {s s' : SyncClient R} {a : ClientLabel R} {rc : RpcCtx}

theorem new_traceInv : TraceInv (SyncClient.new : SyncClient R) := by
  refine ⟨new_inv, fun _ => varsInv_new, ?_, fun _ _ => rfl, ?_⟩
  · simp [SyncClient.new]
  · simp [SyncClient.new]

/-- With ids that are not used twice, a context that is not in the table has left no trace. -/
theorem TraceInv.noTrace (h : TraceInv s) : NoTrace s := by
  intro rc hrc o ho
  have hgone := h.gone rc hrc o ho
  refine ⟨?_, ?_⟩
  · cases hlookup : s.tables.entries.lookup rc.msgId with
    | none => rfl
    | some d =>
      have hid : d.msgId = rc.msgId := h.client.grouped.key_eq _ d hlookup
      have hd : d ∈ s.made := h.client.entries_made _ d hlookup
      obtain rfl : d = rc := List.inj_on_of_nodup_map h.ids_nodup hd hrc hid
      exact absurd hlookup hgone
  · intro peer hmem
    exact hgone ((h.client.grouped.mem_members peer rc).1 hmem).2

/-! ## Steps -/

theorem finish_caller (v : CtxVars R) (c : Completion R) : (v.finish c).caller = v.caller := by
  cases c <;> rfl

theorem take_vars (s : SyncClient R) (id : Nat) (c : Completion R) :
    (s.take id c).vars = s.vars := by
  unfold SyncClient.take
  split <;> rfl

theorem breakPeer_caller (s : SyncClient R) (peer : NetPeerInfo) (address : Nat) :
    ((s.breakPeer peer).vars address).caller = (s.vars address).caller := by
  rw [s.breakPeer_vars]
  split_ifs
  · exact finish_caller _ _
  · rfl

/-- A caller moves on by its own steps: it subscribes its timer, or it wakes up with its
context complete. -/
theorem clientStep_caller (hstep : clientStep s a = some s') (address : Nat) :
    (s'.vars address).caller = (s.vars address).caller ∨
    (∃ timerEv, a = .subscribe address timerEv ∧ address < s.made.length) ∨
    a = .wake address ∧ (s.vars address).caller.isWaiting = true ∧
      (s.vars address).complete = true := by
  cases clientStep_move hstep with
  | sendMessageAsync | register => exact .inl rfl
  | @subscribe x timerEv made =>
    by_cases hx : address = x
    · subst hx
      exact .inr (.inl ⟨timerEv, rfl, made⟩)
    · refine .inl ?_
      simp only [SyncClient.subscribe, Function.update_of_ne hx]
  | message | timeout =>
    rw [take_vars]
    exact .inl rfl
  | worker => exact .inl (breakPeer_caller s _ address)
  | @complete i rc c job =>
    refine .inl ?_
    by_cases hx : address = rc.address
    · subst hx
      simp only [Function.update_self, finish_caller]
    · simp only [Function.update_of_ne hx]
  | @wake x waiting complete =>
    by_cases hx : address = x
    · subst hx
      exact .inr (.inr ⟨rfl, waiting, complete⟩)
    · refine .inl ?_
      simp only [Function.update_of_ne hx]

/-- A caller returns when its subscription is refused, and when it wakes up with its context
complete. -/
theorem clientStep_returns (hstep : clientStep s a = some s') {address : Nat} {o : Outcome R}
    (ho : (s'.vars address).caller = .returned o) :
    (s.vars address).caller = .returned o ∨ a = .subscribe address none ∨
      a = .wake address ∧ (s.vars address).complete = true := by
  rcases clientStep_caller hstep address with hsame | ⟨timerEv, rfl, -⟩ | ⟨rfl, -, hcomplete⟩
  · exact .inl (hsame.symm.trans ho)
  · cases timerEv with
    | none => exact .inr (.inl rfl)
    | some when =>
      cases clientStep_move hstep
      simp only [SyncClient.subscribe, Function.update_self] at ho
      cases ho
  · exact .inr (.inr ⟨rfl, hcomplete⟩)

/-- The caller of an address that is not in use does not move. -/
theorem clientStep_unused (hunused : ∀ address, s.made.length ≤ address →
    (s.vars address).caller = .subscribing) (hstep : clientStep s a = some s') (address : Nat)
    (hle : s'.made.length ≤ address) : (s'.vars address).caller = .subscribing := by
  have hold : s.made.length ≤ address := (clientStep_made hstep).length_le.trans hle
  rcases clientStep_caller hstep address with hsame | ⟨timerEv, -, hlt⟩ | ⟨-, hwaiting, -⟩
  · exact hsame.trans (hunused address hold)
  · exact absurd hlt (Nat.not_lt.2 hold)
  · rw [hunused address hold] at hwaiting
    cases hwaiting

/-- A context that is complete is not in the table. -/
theorem lookup_ne_of_complete (h : ClientInv s) (hv : VarsInv (s.vars rc.address))
    (hcomplete : (s.vars rc.address).complete = true) :
    s.tables.entries.lookup rc.msgId ≠ some rc := by
  intro hlookup
  rw [(hv.pristine (h.completions_of_lookup hlookup).1).1] at hcomplete
  cases hcomplete

/-- A step puts no context that was there before into the table. -/
theorem clientStep_lookup (h : ClientInv s) (hrc : rc ∈ s.made)
    (hstep : clientStep s a = some s') (hlookup : s'.tables.entries.lookup rc.msgId = some rc) :
    s.tables.entries.lookup rc.msgId = some rc := by
  rcases clientStep_grows hstep with ⟨-, hshrinks⟩ | ⟨d, haddress, -, hentries, -⟩
  · exact hshrinks _ rc hlookup
  · rw [hentries, lookup_insert_eq] at hlookup
    split_ifs at hlookup
    · have hlt := h.address_lt hrc
      rw [← Option.some.inj hlookup, haddress] at hlt
      exact absurd hlt (lt_irrefl _)
    · exact hlookup

/-- Unless its subscription is refused too early, a caller that returns has its context out of
the table. -/
theorem clientStep_gone (h : TraceInv s) (ha : RefusedLate s a)
    (hstep : clientStep s a = some s') {o : Outcome R} (hrc : rc ∈ s'.made)
    (ho : (s'.vars rc.address).caller = .returned o) :
    s'.tables.entries.lookup rc.msgId ≠ some rc := by
  by_cases hold : rc ∈ s.made
  · intro hlookup
    have hbefore := clientStep_lookup h.client hold hstep hlookup
    rcases clientStep_returns hstep ho with hret | rfl | ⟨-, hcomplete⟩
    · exact h.gone rc hold o hret hbefore
    · obtain ⟨i, hi⟩ := List.mem_iff_getElem?.1 hold
      rw [h.client.address_eq i rc hi] at ha
      exact ha rc hi hbefore
    · exact lookup_ne_of_complete h.client (h.vars _) hcomplete hbefore
  · -- the context is new, and its caller has not begun
    rcases clientStep_grows hstep with ⟨hmade, -⟩ | ⟨d, haddress, hmade, -, -⟩
    · rw [hmade] at hrc
      exact absurd hrc hold
    · rw [hmade] at hrc
      rcases List.mem_append.1 hrc with hmem | hnew
      · exact absurd hmem hold
      · obtain rfl := List.mem_singleton.1 hnew
        have hbegin := h.unused rc.address (Nat.le_of_eq haddress.symm)
        rcases clientStep_returns hstep ho with hret | rfl | ⟨-, hcomplete⟩
        · rw [hbegin] at hret
          cases hret
        · cases clientStep_move hstep with
          | subscribe made => omega
        · have hpristine := (h.vars rc.address).pristine
            (h.client.unused rc.address (Nat.le_of_eq haddress.symm))
          rw [hpristine.1] at hcomplete
          cases hcomplete

/-- Such steps keep the invariant. -/
theorem clientStep_traceInv (h : TraceInv s) (hfresh : FreshId s a) (ha : RefusedLate s a)
    (hstep : clientStep s a = some s') : TraceInv s' where
  client := clientStep_inv h.client hfresh hstep
  vars := clientStep_vars h.client h.vars hstep
  ids_nodup := clientStep_ids h.client h.ids_nodup hstep
  unused := clientStep_unused h.unused hstep
  gone := fun _ hrc _ ho => clientStep_gone h ha hstep hrc ho

/-- A caller whose subscription is refused while its context is registered leaves it there. -/
theorem clientStep_leaves_trace (h : TraceInv s) (ha : ¬ RefusedLate s a)
    (hstep : clientStep s a = some s') : ¬ NoTrace s' := by
  intro hnone
  cases a with
  | subscribe address timerEv =>
    cases timerEv with
    | some when => exact ha trivial
    | none =>
      cases clientStep_move hstep
      apply ha
      intro rc hrc hlookup
      obtain rfl := h.client.address_eq address rc hrc
      have hreturned : ((s.subscribe rc.address none).vars rc.address).caller =
          .returned .internal := by
        simp only [SyncClient.subscribe, Function.update_self]
      have htrace := (hnone rc (List.mem_of_getElem? hrc) _ hreturned).1
      rw [show (s.subscribe rc.address none).tables = s.tables from rfl, hlookup] at htrace
      cases htrace
  | _ => exact ha trivial

/-- In every interleaving of calls with distinct ids, a call that has returned or thrown has left
nothing in the tables exactly when every subscription that was refused was refused after the
context had been taken out of them. -/
theorem finished_call_leaves_no_trace_iff (labels : List (ClientLabel R)) (t : SyncClient R)
    (hfresh : Guarded clientStep FreshId SyncClient.new labels)
    (hrun : run clientStep SyncClient.new labels = some t) :
    Always clientStep NoTrace SyncClient.new labels ↔
      Guarded clientStep RefusedLate SyncClient.new labels :=
  always_iff_guarded_of_guarded (I := TraceInv) (H := FreshId)
    (fun _ _ _ h hf ha hstep => clientStep_traceInv h hf ha hstep) (fun _ h => h.noTrace)
    (fun _ _ _ h _ ha hstep => clientStep_leaves_trace h ha hstep) new_traceInv hfresh hrun

end Traces

/-- One call is answered, one times out, one loses its connection, and one is answered before
its subscription is refused. -/
theorem finished_call_leaves_no_trace_four_ways :
    let near : NetPeerInfo := ⟨⟨"localhost", 80⟩, .tcp⟩
    let far : NetPeerInfo := ⟨⟨"10.0.0.2", 80⟩, .tcp⟩
    Always clientStep NoTrace (SyncClient.new : SyncClient Nat)
      [.sendMessageAsync 1 near, .sendMessageAsync 2 near, .sendMessageAsync 3 far,
        .sendMessageAsync 4 near, .register 1 near, .register 2 near, .register 3 far,
        .register 4 near, .subscribe 0 (some 8), .subscribe 1 (some 9), .subscribe 2 (some 10),
        .message 1 7, .complete 0, .wake 0, .timeout 2, .complete 0, .wake 1, .worker far, .wake 2,
        .message 4 7, .subscribe 3 none] := by
  intro near far
  exact (finished_call_leaves_no_trace_iff _ _ (by decide +kernel)
    (Option.some_get (by decide +kernel)).symm).2 (by decide +kernel)

/-- Two calls subscribe their timers at the same time.  The timer refuses the second one, whose
caller throws and leaves its context in both tables. -/
theorem refused_call_leaves_trace :
    let peer : NetPeerInfo := ⟨⟨"localhost", 80⟩, .tcp⟩
    ∃ w : TimedClients Nat, run (timedStep fun _ => 5) TimedClients.new
        [.client 0 (.sendMessageAsync 1 peer), .client 0 (.sendMessageAsync 2 peer),
          .client 0 (.register 1 peer), .client 0 (.register 2 peer), .capture 0 0, .capture 0 1,
          .subscribe 0 0 100, .subscribe 0 1 100] = some w ∧
      ((w.clients 0).vars 1).caller = .returned .internal ∧
      (w.clients 0).tables.entries.lookup 2 = some ⟨1, peer, 2⟩ ∧
      ⟨1, peer, 2⟩ ∈ (w.clients 0).tables.members peer ∧ ¬ NoTrace (w.clients 0) := by
  intro peer
  refine ⟨_, rfl, rfl, rfl, by decide, ?_⟩
  intro hnone
  have htrace := (hnone ⟨1, peer, 2⟩ (by decide) .internal rfl).1
  exact absurd htrace (by decide)

end Rpc
end CCraft
