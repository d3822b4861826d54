import CCraft.Lib.KeyedTable
import CCraft.Lib.Run
import CCraft.Net.Manager

/-!
# The three tables of the manager

The tables of `UniqueWorkerManager` are indexes of one set of connections.  Each operation
has to change all three, and one of them does not: the removal for a connection that the
peer has closed leaves the entry of `m_hmap_handler_rp` behind, under the address of a
handler that is deleted soon after.

Main results:

- Theorem {lit}`manager_tables_agree_iff`: the tables describe the same connections along a
  run exactly when no registered handler is removed with both of its addresses.
- Theorem {lit}`workers_and_real_peers_agree`: along every run the other two tables describe
  the same connections, and the third one locates each of them.
-/

namespace CCraft
namespace Net

open KeyedTable Runs

/-- A handler that is alive, with its peers. -/
structure LiveHandler (H : Type) where
  handler : H
  logicPeer : NetPeerInfo
  realPeer : NetPeerInfo
deriving DecidableEq, Repr

/-- The manager beside the handlers that are alive. -/
structure ManagedHandlers (H : Type) where
  sspMgr : UniqueWorkerManager H
  live : List (LiveHandler H)

/-- The calls of the manager, and the beginning and the end of a handler. -/
inductive ManagerLabel (H : Type) where
  | create (c : LiveHandler H)
  | put (c : LiveHandler H)
  | removeClosed (c : LiveHandler H)
  | remove (c : LiveHandler H)
  | delete (c : LiveHandler H)
deriving DecidableEq, Repr

namespace ManagedHandlers

variable {H : Type}

def new : ManagedHandlers H :=
  ⟨.new, []⟩

/-- The handler is in `m_hmap_workers` under its logic peer. -/
def Registered (s : ManagedHandlers H) (c : LiveHandler H) : Prop :=
  s.sspMgr.lookupWorker c.logicPeer = some c.handler

/-- No handler that is alive has the address or the real peer of this one. -/
def Distinct (s : ManagedHandlers H) (c : LiveHandler H) : Prop :=
  ∀ d ∈ s.live, d.handler ≠ c.handler ∧ d.realPeer ≠ c.realPeer

variable [DecidableEq H]

instance (s : ManagedHandlers H) (c : LiveHandler H) : Decidable (s.Registered c) :=
  inferInstanceAs (Decidable (s.sspMgr.lookupWorker c.logicPeer = some c.handler))

instance (s : ManagedHandlers H) (c : LiveHandler H) : Decidable (s.Distinct c) :=
  inferInstanceAs (Decidable (∀ d ∈ s.live, d.handler ≠ c.handler ∧ d.realPeer ≠ c.realPeer))

/-- One call.  Handlers that are alive together have different addresses and real peers,
the manager is called for handlers that are alive, and a registered handler is not
deleted. -/
def step (s : ManagedHandlers H) : ManagerLabel H → Option (ManagedHandlers H)
  | .create c => if s.Distinct c then some { s with live := c :: s.live } else none
  | .put c =>
    if c ∈ s.live then
      some { s with
        sspMgr := (s.sspMgr.putWorkerEventHandler c.handler c.logicPeer c.realPeer).2 }
    else none
  | .removeClosed c =>
    if c ∈ s.live then
      some { s with sspMgr := (s.sspMgr.removeWorkerEventHandler c.logicPeer c.realPeer).2 }
    else none
  | .remove c =>
    if c ∈ s.live then
      some { s with sspMgr := (s.sspMgr.removeWorkerEventHandlerOf c.logicPeer).2 }
    else none
  | .delete c =>
    if c ∈ s.live ∧ ¬ s.Registered c then
      some { s with live := s.live.filter (· ≠ c) }
    else none

end ManagedHandlers

section Statements

variable {H : Type} [DecidableEq H]

/-- The tables describe the same connections: a handler is in one of them exactly when it is
in the others, and they have no other entries. -/
structure TablesAgree (s : ManagedHandlers H) : Prop where
  workers_rpLp : ∀ c ∈ s.live,
    s.Registered c ↔ s.sspMgr.rpLp.lookup c.realPeer = some c.logicPeer
  rpLp_handlerRp : ∀ c ∈ s.live, s.sspMgr.rpLp.lookup c.realPeer = some c.logicPeer ↔
    s.sspMgr.handlerRp.lookup c.handler = some c.realPeer
  workers_only : ∀ logic h, s.sspMgr.workers.lookup logic = some h →
    ∃ c ∈ s.live, c.logicPeer = logic ∧ c.handler = h
  rpLp_only : ∀ real logic, s.sspMgr.rpLp.lookup real = some logic →
    ∃ c ∈ s.live, c.realPeer = real ∧ c.logicPeer = logic
  handlerRp_only : ∀ h real, s.sspMgr.handlerRp.lookup h = some real →
    ∃ c ∈ s.live, c.handler = h ∧ c.realPeer = real

/-- The call does not remove a registered handler with both of its addresses. -/
def KeepsHandlerRp (s : ManagedHandlers H) : ManagerLabel H → Prop
  | .removeClosed c => ¬ s.Registered c
  | _ => True

instance (s : ManagedHandlers H) : ∀ a, Decidable (KeepsHandlerRp s a)
  | .removeClosed c => inferInstanceAs (Decidable (¬ s.Registered c))
  | .create _ | .put _ | .remove _ | .delete _ => isTrue trivial

end Statements

/-! ## The tables as indexes of one set -/

section Tables

variable {H : Type} [DecidableEq H] {s t : ManagedHandlers H} {c d : LiveHandler H}
  {R : Set (LiveHandler H)} {a : ManagerLabel H}

/-- Two of the tables list the registered connections and the third one has each of them,
maybe beside entries that are left over. -/
structure Describes (s : ManagedHandlers H) (R : Set (LiveHandler H)) : Prop where
  handlers : ∀ c ∈ s.live, ∀ d ∈ s.live, c.handler = d.handler → c = d
  realPeers : ∀ c ∈ s.live, ∀ d ∈ s.live, c.realPeer = d.realPeer → c = d
  alive : ∀ c ∈ R, c ∈ s.live
  workers : Lists s.sspMgr.workers LiveHandler.logicPeer LiveHandler.handler R
  rpLp : Lists s.sspMgr.rpLp LiveHandler.realPeer LiveHandler.logicPeer R
  located : ∀ c ∈ R, s.sspMgr.handlerRp.lookup c.handler = some c.realPeer

/-- The third table has nothing left over. -/
def NothingLeft (s : ManagedHandlers H) (R : Set (LiveHandler H)) : Prop :=
  Lists s.sspMgr.handlerRp LiveHandler.handler LiveHandler.realPeer R

/-- The connections with an entry in `m_hmap_workers` are the registered handlers. -/
theorem Describes.registered_iff (h : Describes s R) (hc : c ∈ s.live) :
    s.Registered c ↔ c ∈ R := by
  constructor
  · intro hreg
    obtain ⟨d, hd, -, hhandler⟩ := (h.workers _ _).1 hreg
    rw [← h.handlers d (h.alive d hd) c hc hhandler]
    exact hd
  · exact h.workers.lookup_eq

theorem Describes.rpLp_iff (h : Describes s R) (hc : c ∈ s.live) :
    s.sspMgr.rpLp.lookup c.realPeer = some c.logicPeer ↔ c ∈ R := by
  constructor
  · intro hlookup
    obtain ⟨d, hd, hreal, -⟩ := (h.rpLp _ _).1 hlookup
    rw [← h.realPeers d (h.alive d hd) c hc hreal]
    exact hd
  · exact h.rpLp.lookup_eq

theorem Describes.handlerRp_iff (h : Describes s R) (hleft : NothingLeft s R)
    (hc : c ∈ s.live) : s.sspMgr.handlerRp.lookup c.handler = some c.realPeer ↔ c ∈ R := by
  constructor
  · intro hlookup
    obtain ⟨d, hd, hhandler, -⟩ := (hleft _ _).1 hlookup
    rw [← h.handlers d (h.alive d hd) c hc hhandler]
    exact hd
  · exact hleft.lookup_eq

/-- Tables that list one set of connections agree. -/
theorem Describes.tablesAgree (h : Describes s R) (hleft : NothingLeft s R) : TablesAgree s := by
  refine ⟨?_, ?_, ?_, ?_, ?_⟩
  · intro c hc
    rw [h.registered_iff hc, h.rpLp_iff hc]
  · intro c hc
    rw [h.rpLp_iff hc, h.handlerRp_iff hleft hc]
  · intro logic handler hlookup
    obtain ⟨c, hc, hpeers⟩ := (h.workers _ _).1 hlookup
    exact ⟨c, h.alive c hc, hpeers⟩
  · intro real logic hlookup
    obtain ⟨c, hc, hpeers⟩ := (h.rpLp _ _).1 hlookup
    exact ⟨c, h.alive c hc, hpeers⟩
  · intro handler real hlookup
    obtain ⟨c, hc, hpeers⟩ := (hleft _ _).1 hlookup
    exact ⟨c, h.alive c hc, hpeers⟩

theorem Describes.logicPeer_inj (h : Describes s R) (hc : c ∈ R) (hd : d ∈ R)
    (hlogic : d.logicPeer = c.logicPeer) : d = c :=
  h.handlers d (h.alive d hd) c (h.alive c hc) (h.workers.val_eq hd hc hlogic)

theorem new_describes : Describes (.new : ManagedHandlers H) ∅ where
  handlers := by simp [ManagedHandlers.new]
  realPeers := by simp [ManagedHandlers.new]
  alive := by simp
  workers := lists_empty
  rpLp := lists_empty
  located := by simp

theorem new_nothingLeft : NothingLeft (.new : ManagedHandlers H) ∅ :=
  lists_empty

/-! ## The operations -/

/-- The tables after a registration. -/
def ManagedHandlers.withEntry (s : ManagedHandlers H) (c : LiveHandler H) : ManagedHandlers H :=
  { s with sspMgr := ⟨s.sspMgr.workers.insert c.logicPeer c.handler,
      s.sspMgr.rpLp.insert c.realPeer c.logicPeer,
      s.sspMgr.handlerRp.insert c.handler c.realPeer⟩ }

/-- The tables after a removal, with the third one as given. -/
def ManagedHandlers.withoutEntry (s : ManagedHandlers H) (c : LiveHandler H)
    (handlerRp : AList fun _ : H => NetPeerInfo) : ManagedHandlers H :=
  { s with sspMgr := ⟨s.sspMgr.workers.erase c.logicPeer, s.sspMgr.rpLp.erase c.realPeer,
      handlerRp⟩ }

theorem Describes.not_mem_of_free (h : Describes s R)
    (hfree : s.sspMgr.lookupWorker c.logicPeer = none) : c ∉ R := by
  intro hc
  exact h.workers.key_ne hfree hc rfl

theorem Describes.withEntry (h : Describes s R) (hc : c ∈ s.live)
    (hfree : s.sspMgr.lookupWorker c.logicPeer = none) :
    Describes (s.withEntry c) (insert c R) where
  handlers := h.handlers
  realPeers := h.realPeers
  alive := by
    rintro d (rfl | hd)
    · exact hc
    · exact h.alive d hd
  workers := h.workers.insert fun d hd => h.workers.key_ne hfree hd
  rpLp := by
    refine h.rpLp.insert ?_
    intro d hd hreal
    have hdc : d = c := h.realPeers d (h.alive d hd) c hc hreal
    exact h.not_mem_of_free hfree (hdc ▸ hd)
  located := by
    rintro d hd
    change (s.sspMgr.handlerRp.insert c.handler c.realPeer).lookup d.handler = some d.realPeer
    rw [PageMap.lookup_insert_eq]
    split_ifs with hhandler
    · rcases hd with rfl | hd
      · rfl
      · rw [h.handlers d (h.alive d hd) c hc hhandler]
    · rcases hd with rfl | hd
      · exact absurd rfl hhandler
      · exact h.located d hd

theorem NothingLeft.withEntry (hleft : NothingLeft s R) (h : Describes s R) (hc : c ∈ s.live)
    (hfree : s.sspMgr.lookupWorker c.logicPeer = none) :
    NothingLeft (s.withEntry c) (insert c R) := by
  refine hleft.insert ?_
  intro d hd hhandler
  have hdc : d = c := h.handlers d (h.alive d hd) c hc hhandler
  exact h.not_mem_of_free hfree (hdc ▸ hd)

/-- A removal takes a registered connection out of two tables; the third one may keep what
it has about it. -/
theorem Describes.withoutEntry {handlerRp : AList fun _ : H => NetPeerInfo} (h : Describes s R)
    (hc : c ∈ R)
    (hkeep : ∀ d, d ≠ c.handler → handlerRp.lookup d = s.sspMgr.handlerRp.lookup d) :
    Describes (s.withoutEntry c handlerRp) (R \ {c}) where
  handlers := h.handlers
  realPeers := h.realPeers
  alive := fun d hd => h.alive d hd.1
  workers := h.workers.erase fun d hd => h.logicPeer_inj hc hd
  rpLp := h.rpLp.erase fun d hd => h.realPeers d (h.alive d hd) c (h.alive c hc)
  located := by
    rintro d ⟨hd, hne⟩
    have hhandler : d.handler ≠ c.handler := fun hhandler =>
      hne (h.handlers d (h.alive d hd) c (h.alive c hc) hhandler)
    exact (hkeep d.handler hhandler).trans (h.located d hd)

theorem NothingLeft.withoutEntry (hleft : NothingLeft s R) (h : Describes s R) (hc : c ∈ R) :
    NothingLeft (s.withoutEntry c (s.sspMgr.handlerRp.erase c.handler)) (R \ {c}) :=
  hleft.erase fun d hd => h.handlers d (h.alive d hd) c (h.alive c hc)

/-! ## One call -/

/-- What a call does to the handlers and the tables, where they describe a set of
connections. -/
inductive ManagerMove (s : ManagedHandlers H) (R : Set (LiveHandler H)) :
    ManagerLabel H → ManagedHandlers H → Set (LiveHandler H) → Prop
  | create {c : LiveHandler H} (hnew : s.Distinct c) :
      ManagerMove s R (.create c) { s with live := c :: s.live } R
  | put {c : LiveHandler H} (hc : c ∈ s.live)
      (hfree : s.sspMgr.lookupWorker c.logicPeer = none) :
      ManagerMove s R (.put c) (s.withEntry c) (insert c R)
  | removeClosed {c : LiveHandler H} (hc : c ∈ R) :
      ManagerMove s R (.removeClosed c) (s.withoutEntry c s.sspMgr.handlerRp) (R \ {c})
  | remove {c d : LiveHandler H} (hd : d ∈ R) (hlogic : d.logicPeer = c.logicPeer) :
      ManagerMove s R (.remove c) (s.withoutEntry d (s.sspMgr.handlerRp.erase d.handler))
        (R \ {d})
  | delete {c : LiveHandler H} (hc : c ∉ R) :
      ManagerMove s R (.delete c) { s with live := s.live.filter (· ≠ c) } R
  | nothing {a : ManagerLabel H} (hkeeps : KeepsHandlerRp s a) : ManagerMove s R a s R

theorem put_move (R : Set (LiveHandler H)) (hc : c ∈ s.live) :
    ∃ R', ManagerMove s R (.put c)
      { s with sspMgr := (s.sspMgr.putWorkerEventHandler c.handler c.logicPeer c.realPeer).2 }
      R' := by
  cases hlookup : s.sspMgr.lookupWorker c.logicPeer with
  | none =>
    refine ⟨insert c R, ?_⟩
    simp only [UniqueWorkerManager.putWorkerEventHandler, hlookup]
    exact .put hc hlookup
  | some other =>
    rw [UniqueWorkerManager.put_of_taken hlookup]
    exact ⟨R, .nothing trivial⟩

theorem removeClosed_move (h : Describes s R) (hc : c ∈ s.live) :
    ∃ R', ManagerMove s R (.removeClosed c)
      { s with sspMgr := (s.sspMgr.removeWorkerEventHandler c.logicPeer c.realPeer).2 } R' := by
  by_cases hreg : c ∈ R
  · have hreal : c.realPeer ∈ s.sspMgr.rpLp :=
      AList.lookup_isSome.1 (Option.isSome_iff_exists.2 ⟨_, h.rpLp.lookup_eq hreg⟩)
    have hlookup : s.sspMgr.lookupWorker c.logicPeer = some c.handler := h.workers.lookup_eq hreg
    refine ⟨R \ {c}, ?_⟩
    simp only [UniqueWorkerManager.removeWorkerEventHandler, if_pos hreal, hlookup]
    exact .removeClosed hreg
  · have hreal : c.realPeer ∉ s.sspMgr.rpLp := by
      intro hmem
      obtain ⟨logic, hlogic⟩ := Option.isSome_iff_exists.1 (AList.lookup_isSome.2 hmem)
      obtain ⟨d, hd, hpeer, -⟩ := (h.rpLp _ _).1 hlogic
      exact hreg (h.realPeers d (h.alive d hd) c hc hpeer ▸ hd)
    refine ⟨R, ?_⟩
    simp only [UniqueWorkerManager.removeWorkerEventHandler, if_neg hreal]
    exact .nothing fun hregistered => hreg ((h.registered_iff hc).1 hregistered)

theorem remove_move (h : Describes s R) :
    ∃ R', ManagerMove s R (.remove c)
      { s with sspMgr := (s.sspMgr.removeWorkerEventHandlerOf c.logicPeer).2 } R' := by
  cases hlookup : s.sspMgr.lookupWorker c.logicPeer with
  | none =>
    simp only [UniqueWorkerManager.removeWorkerEventHandlerOf, hlookup]
    exact ⟨R, .nothing trivial⟩
  | some handler =>
    obtain ⟨d, hd, hlogic, rfl⟩ := (h.workers _ _).1 hlookup
    refine ⟨R \ {d}, ?_⟩
    rw [← hlogic] at hlookup ⊢
    simp only [UniqueWorkerManager.removeWorkerEventHandlerOf, hlookup, h.located d hd,
      Option.getD_some]
    exact .remove hd hlogic

/-- Every call is one of these moves. -/
theorem step_move (h : Describes s R) (hstep : s.step a = some t) :
    ∃ R', ManagerMove s R a t R' := by
  cases a with
  | create c =>
    obtain ⟨hnew, ht⟩ := Option.ite_none_right_eq_some.1 hstep
    cases ht
    exact ⟨R, .create hnew⟩
  | put c =>
    obtain ⟨hc, ht⟩ := Option.ite_none_right_eq_some.1 hstep
    cases ht
    exact put_move R hc
  | removeClosed c =>
    obtain ⟨hc, ht⟩ := Option.ite_none_right_eq_some.1 hstep
    cases ht
    exact removeClosed_move h hc
  | remove c =>
    obtain ⟨-, ht⟩ := Option.ite_none_right_eq_some.1 hstep
    cases ht
    exact remove_move h
  | delete c =>
    obtain ⟨⟨hc, hreg⟩, ht⟩ := Option.ite_none_right_eq_some.1 hstep
    cases ht
    exact ⟨R, .delete fun hR => hreg ((h.registered_iff hc).2 hR)⟩

/-- The two tables and the locations survive every call. -/
theorem ManagerMove.describes {R' : Set (LiveHandler H)} (hmove : ManagerMove s R a t R')
    (h : Describes s R) : Describes t R' := by
  cases hmove with
  | @create c hnew =>
    have hcd : ∀ d ∈ s.live, d.handler ≠ c.handler ∧ d.realPeer ≠ c.realPeer := hnew
    refine ⟨?_, ?_, fun d hd => List.mem_cons_of_mem c (h.alive d hd), h.workers, h.rpLp,
      h.located⟩
    · simp only [List.mem_cons]
      rintro x (rfl | hx) y (rfl | hy) hxy
      · rfl
      · exact absurd hxy.symm (hcd y hy).1
      · exact absurd hxy (hcd x hx).1
      · exact h.handlers x hx y hy hxy
    · simp only [List.mem_cons]
      rintro x (rfl | hx) y (rfl | hy) hxy
      · rfl
      · exact absurd hxy.symm (hcd y hy).2
      · exact absurd hxy (hcd x hx).2
      · exact h.realPeers x hx y hy hxy
  | put hc hfree => exact h.withEntry hc hfree
  | removeClosed hc => exact h.withoutEntry hc fun _ _ => rfl
  | remove hd hlogic => exact h.withoutEntry hd fun _ hne => AList.lookup_erase_ne hne
  | @delete c hc =>
    have hsub : ∀ d ∈ s.live.filter (· ≠ c), d ∈ s.live := fun d hd => List.mem_of_mem_filter hd
    refine ⟨fun x hx y hy => h.handlers x (hsub x hx) y (hsub y hy),
      fun x hx y hy => h.realPeers x (hsub x hx) y (hsub y hy), ?_, h.workers, h.rpLp,
      h.located⟩
    intro d hd
    refine List.mem_filter.2 ⟨h.alive d hd, decide_eq_true ?_⟩
    rintro rfl
    exact hc hd
  | nothing => exact h

/-- A call that removes no registered handler with both addresses leaves nothing over. -/
theorem ManagerMove.nothingLeft {R' : Set (LiveHandler H)} (hmove : ManagerMove s R a t R')
    (h : Describes s R) (hleft : NothingLeft s R) (hkeeps : KeepsHandlerRp s a) :
    NothingLeft t R' := by
  cases hmove with
  | create | delete | nothing => exact hleft
  | put hc hfree => exact hleft.withEntry h hc hfree
  | removeClosed hc => exact absurd ((h.registered_iff (h.alive _ hc)).2 hc) hkeeps
  | remove hd => exact hleft.withoutEntry h hd

/-- The handler that was removed with both addresses is still in the third table. -/
theorem ManagerMove.not_tablesAgree {R' : Set (LiveHandler H)} (hmove : ManagerMove s R a t R')
    (h : Describes s R) (hkeeps : ¬ KeepsHandlerRp s a) : ¬ TablesAgree t := by
  cases hmove with
  | @removeClosed c hc =>
    intro hagree
    have hlive : c ∈ s.live := h.alive c hc
    have hlocated : s.sspMgr.handlerRp.lookup c.handler = some c.realPeer := h.located c hc
    have hreal := (hagree.rpLp_handlerRp c hlive).2 hlocated
    have herased : (s.sspMgr.rpLp.erase c.realPeer).lookup c.realPeer = none :=
      AList.lookup_erase ..
    exact absurd (herased.symm.trans hreal) (by simp)
  | nothing h' => exact absurd h' hkeeps
  | _ => exact absurd trivial hkeeps

/-! ## Whole runs -/

/-- Along every run, two tables describe the same connections and the third one locates each
of them. -/
theorem workers_and_real_peers_agree (labels : List (ManagerLabel H)) :
    Always ManagedHandlers.step (fun s => ∃ R, Describes s R) .new labels := by
  refine always_of_forall (Q := fun _ => True) ?_ ⟨∅, new_describes⟩ fun _ _ => trivial
  rintro s a t ⟨R, h⟩ - hstep
  obtain ⟨R', hmove⟩ := step_move h hstep
  exact ⟨R', hmove.describes h⟩

/-- The tables describe the same connections in every state of a run exactly when no
registered handler is removed with both of its addresses. -/
theorem manager_tables_agree_iff {labels : List (ManagerLabel H)}
    (hrun : run ManagedHandlers.step .new labels = some t) :
    Always ManagedHandlers.step TablesAgree .new labels ↔
      Guarded ManagedHandlers.step KeepsHandlerRp .new labels := by
  refine always_iff_guarded (I := fun s => ∃ R, Describes s R ∧ NothingLeft s R)
    (Q := fun _ => True) ?_ ?_ ?_ ⟨∅, new_describes, new_nothingLeft⟩ (fun _ _ => trivial) hrun
  · rintro s a s' ⟨R, h, hleft⟩ - hkeeps hstep
    obtain ⟨R', hmove⟩ := step_move h hstep
    exact ⟨R', hmove.describes h, hmove.nothingLeft h hleft hkeeps⟩
  · rintro s ⟨R, h, hleft⟩
    exact h.tablesAgree hleft
  · rintro s a s' ⟨R, h, -⟩ - hkeeps hstep
    obtain ⟨R', hmove⟩ := step_move h hstep
    exact hmove.not_tablesAgree h hkeeps

end Tables

/-- A handler at the given address, of a connection from the given port to one peer. -/
def sampleHandler (address port : Nat) : LiveHandler Nat :=
  ⟨address, ⟨⟨"10.0.0.2", 80⟩, .tcp⟩, ⟨⟨"10.0.0.2", port⟩, .tcp⟩⟩

/-- Two connections with one peer: the second one is turned away and finishes, and takes the
place of the first one when that is given up. -/
def reconnecting : List (ManagerLabel Nat) :=
  [.create (sampleHandler 1 4001), .put (sampleHandler 1 4001),
    .create (sampleHandler 2 4002), .put (sampleHandler 2 4002),
    .removeClosed (sampleHandler 2 4002), .remove (sampleHandler 1 4001),
    .delete (sampleHandler 1 4001), .put (sampleHandler 2 4002)]

theorem manager_tables_agree_reconnecting :
    Always ManagedHandlers.step TablesAgree .new reconnecting :=
  (manager_tables_agree_iff (Option.some_get (by decide +kernel)).symm).2 (by decide +kernel)

/-- A connection is registered and then closed by the peer. -/
def closing : List (ManagerLabel Nat) :=
  [.create (sampleHandler 1 4001), .put (sampleHandler 1 4001),
    .removeClosed (sampleHandler 1 4001)]

/-- The handler of the closed connection is no longer found, and stays in the third table. -/
theorem closed_handler_stays_located :
    ∃ t, run ManagedHandlers.step .new closing = some t ∧
      ¬ t.Registered (sampleHandler 1 4001) ∧
      t.sspMgr.handlerRp.lookup 1 = some (sampleHandler 1 4001).realPeer ∧
      ¬ TablesAgree t := by
  obtain ⟨t, hrun, hlive, hgone, hlocated⟩ : ∃ t ∈ run ManagedHandlers.step .new closing,
      t.live = [sampleHandler 1 4001] ∧ ¬ t.Registered (sampleHandler 1 4001) ∧
        t.sspMgr.handlerRp.lookup 1 = some (sampleHandler 1 4001).realPeer := by
    decide +kernel
  refine ⟨t, hrun, hgone, hlocated, ?_⟩
  intro hagree
  have halive : sampleHandler 1 4001 ∈ t.live := by simp [hlive]
  have hreal := (hagree.rpLp_handlerRp _ halive).2 hlocated
  exact hgone ((hagree.workers_rpLp _ halive).2 hreal)

end Net
end CCraft
