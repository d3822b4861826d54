import CCraft.Lib.PageLists
import CCraft.Lib.Run

/-!
# The tables of the internal messenger

`ServerInternalMessenger` keeps the handler of every request that waits for its
response in one table and the ids that were sent to each peer in another one.  The
two tables are to describe one relation of pending requests.  They rarely do: the
first id of a peer is inserted into a copy of the peer's set, removing a handler
finds it missing exactly when it is there, and no handler is ever removed.

Main results:

- Theorem {lit}`mapStep_move`: what an operation can do.
- Theorems {lit}`mapStep_conforms` and {lit}`mapStep_diverges`: after which operations the
  tables still describe the pending requests, from any tables that do.
- Theorem {lit}`tables_conform_iff`: the same for runs.
-/

namespace CCraft
namespace Server

open PageMap

/-! ## The tables -/

/-- `m_msgHandlerMapper` and `m_addrMsgMapper`. -/
structure Tables (ι η π : Type) where
  msgHandlerMapper : AList fun _ : ι => η
  addrMsgMapper : AList fun _ : π => Finset ι

/-- The exception of `add_msg_to_mapper`, and an end iterator that is dereferenced. -/
inductive MapFault where
  | conflict
  | endIterator
deriving DecidableEq, Repr

section Tables

variable {ι η π : Type} [DecidableEq ι] [DecidableEq π]

namespace Tables

def empty : Tables ι η π :=
  ⟨∅, ∅⟩

/-- `add_msg_to_mapper`. -/
def addMsgToMapper (t : Tables ι η π) (id : ι) (handler : η) (peer : π) :
    Except MapFault (Tables ι η π) :=
  match t.msgHandlerMapper.lookup id with
  | some _ => .error .conflict
  | none =>
    let msgHandlerMapper := t.msgHandlerMapper.insert id handler
    match t.addrMsgMapper.lookup peer with
    | some s => .ok ⟨msgHandlerMapper, t.addrMsgMapper.insert peer (insert id s)⟩
    | none =>
      -- the set is copied into the table before the id is inserted into it
      .ok ⟨msgHandlerMapper, t.addrMsgMapper.insert peer ∅⟩

/-- `remove_msg_from_msg_handler_map`. -/
def removeMsgFromMsgHandlerMap (t : Tables ι η π) (id : ι) : Except MapFault (Option η) :=
  match t.msgHandlerMapper.lookup id with
  | some _ => .ok none
  | none => .error .endIterator

/-- `remove_msg_from_map`. -/
def removeMsgFromMap (t : Tables ι η π) (id : ι) (peer : π) :
    Except MapFault (Option η × Tables ι η π) :=
  match t.removeMsgFromMsgHandlerMap id with
  | .error fault => .error fault
  | .ok none => .ok (none, t)
  | .ok (some handler) =>
    match t.addrMsgMapper.lookup peer with
    | none => .ok (none, t)
    | some s =>
      .ok (some handler, { t with addrMsgMapper := t.addrMsgMapper.insert peer (s.erase id) })

/-- `clear_peer_msg_map`. -/
def clearPeerMsgMap (t : Tables ι η π) (peer : π) : Except MapFault (Tables ι η π) :=
  match t.addrMsgMapper.lookup peer with
  | none => .ok t
  | some s =>
    if s.card = 0 then .ok t
    -- the calls in the loop change nothing, but each of them may fail
    else if ∀ id ∈ s, (t.removeMsgFromMsgHandlerMap id).toBool then
      .ok { t with addrMsgMapper := t.addrMsgMapper.erase peer }
    else .error .endIterator

/-- The ids that are listed for a peer. -/
def peerSet (t : Tables ι η π) (peer : π) : Finset ι :=
  (t.addrMsgMapper.lookup peer).getD ∅

variable {t : Tables ι η π} {id : ι} {peer : π}

/-- Adding a new id stores its handler; the id is listed for its peer unless it is the first
one. -/
theorem addMsgToMapper_ok {t' : Tables ι η π} {handler : η}
    (h : t.addMsgToMapper id handler peer = .ok t') :
    t'.msgHandlerMapper = t.msgHandlerMapper.insert id handler ∧
      t'.peerSet peer = (t.addrMsgMapper.lookup peer).elim ∅ (insert id) ∧
      ∀ q, q ≠ peer → t'.peerSet q = t.peerSet q := by
  unfold addMsgToMapper at h
  cases hid : t.msgHandlerMapper.lookup id with
  | some _ =>
    rw [hid] at h
    cases h
  | none =>
    cases hpeer : t.addrMsgMapper.lookup peer with
    | none | some =>
      simp only [hid, hpeer] at h
      cases h
      refine ⟨rfl, by simp [peerSet], ?_⟩
      intro q hq
      simp only [peerSet, lookup_insert_eq, if_neg hq]

/-- Only an id that has a handler is refused. -/
theorem addMsgToMapper_error {handler : η} {fault : MapFault}
    (h : t.addMsgToMapper id handler peer = .error fault) :
    t.msgHandlerMapper.lookup id ≠ none := by
  intro hnone
  simp only [addMsgToMapper, hnone] at h
  split at h <;> cases h

/-- A handler that is there is not found. -/
theorem removeMsgFromMap_some {handler : η} (h : t.msgHandlerMapper.lookup id = some handler) :
    t.removeMsgFromMap id peer = .ok (none, t) := by
  simp only [removeMsgFromMap, removeMsgFromMsgHandlerMap, h]

/-- A handler that is not there is read behind the end of the table. -/
theorem removeMsgFromMap_none (h : t.msgHandlerMapper.lookup id = none) :
    t.removeMsgFromMap id peer = .error .endIterator := by
  simp only [removeMsgFromMap, removeMsgFromMsgHandlerMap, h]

/-- Clearing a peer without ids changes nothing. -/
theorem clearPeerMsgMap_of_empty (h : t.peerSet peer = ∅) : t.clearPeerMsgMap peer = .ok t := by
  unfold clearPeerMsgMap
  rw [peerSet] at h
  cases hids : t.addrMsgMapper.lookup peer with
  | none => rfl
  | some ids =>
    rw [hids, Option.getD_some] at h
    simp [h]

/-- Clearing a peer empties its set; the handlers and the other sets stay. -/
theorem clearPeerMsgMap_ok {t' : Tables ι η π} (h : t.clearPeerMsgMap peer = .ok t') :
    t'.msgHandlerMapper = t.msgHandlerMapper ∧
      ∀ q, t'.peerSet q = if q = peer then ∅ else t.peerSet q := by
  unfold clearPeerMsgMap at h
  split at h
  case h_1 hnone =>
    cases h
    refine ⟨rfl, fun q => ?_⟩
    split_ifs with hq
    · rw [hq, peerSet, hnone, Option.getD_none]
    · rfl
  case h_2 s hs =>
    split_ifs at h with hcard hall
    · cases h
      refine ⟨rfl, fun q => ?_⟩
      split_ifs with hq
      · rw [hq, peerSet, hs, Option.getD_some, Finset.card_eq_zero.1 hcard]
      · rfl
    · cases h
      refine ⟨rfl, fun q => ?_⟩
      simp only [peerSet, lookup_erase_eq]
      split_ifs <;> rfl

end Tables

end Tables

/-! ## Pending requests -/

/-- What the tables are for: the requests that wait for a response, with the handler
and the peer they were added for. -/
abbrev Pending (ι η π : Type) := ι → Option (η × π)

namespace Pending

variable {ι η π : Type} [DecidableEq ι] [DecidableEq π]

def add (a : Pending ι η π) (id : ι) (handler : η) (peer : π) : Pending ι η π :=
  Function.update a id (some (handler, peer))

/-- Take a request out, if it was sent to that peer. -/
def remove (a : Pending ι η π) (id : ι) (peer : π) : Option η × Pending ι η π :=
  match a id with
  | some (handler, q) => if q = peer then (some handler, Function.update a id none) else (none, a)
  | none => (none, a)

/-- Forget the requests that were sent to a peer. -/
def clear (a : Pending ι η π) (peer : π) : Pending ι η π :=
  fun id => (a id).filter fun r => r.2 ≠ peer

/-- What is still pending after a removal was so before it. -/
theorem of_remove {a : Pending ι η π} {id id' : ι} {peer : π} {r : η × π}
    (h : (a.remove id peer).2 id' = some r) : a id' = some r := by
  unfold remove at h
  split at h
  · split_ifs at h
    · simp only [Function.update_apply] at h
      split_ifs at h
      exact h
    · exact h
  · exact h

end Pending

/-- The tables describe the pending requests. -/
structure Represents {ι η π : Type} [DecidableEq ι] [DecidableEq π] (t : Tables ι η π)
    (a : Pending ι η π) : Prop where
  handler_eq : ∀ id, t.msgHandlerMapper.lookup id = (a id).map Prod.fst
  peer_iff : ∀ id peer, id ∈ t.peerSet peer ↔ ∃ handler, a id = some (handler, peer)

/-! ## Runs -/

/-- The tables next to the requests that are really pending, the result of the last
`remove_msg_from_map` next to the one it should have had, and the fault, if any. -/
structure Mapper (ι η π : Type) where
  tables : Tables ι η π
  pending : Pending ι η π
  returned : Option (Option η × Option η)
  fault : Option MapFault

/-- The operations on the tables. -/
inductive MapLabel (ι η π : Type) where
  | add (id : ι) (handler : η) (peer : π)
  | remove (id : ι) (peer : π)
  | clear (peer : π)

section Runs

variable {ι η π : Type} [DecidableEq ι] [DecidableEq π]

def Mapper.new : Mapper ι η π :=
  ⟨Tables.empty, fun _ => none, none, none⟩

/-- One operation on the tables and on the pending requests.  Ids are added when they
are not in use. -/
def mapStep (s : Mapper ι η π) : MapLabel ι η π → Option (Mapper ι η π)
  | .add id handler peer =>
    if s.fault = none ∧ (s.pending id).isNone then
      match s.tables.addMsgToMapper id handler peer with
      | .ok t => some { s with tables := t, pending := s.pending.add id handler peer }
      | .error fault => some { s with fault := some fault }
    else none
  | .remove id peer =>
    if s.fault = none then
      match s.tables.removeMsgFromMap id peer with
      | .ok (handler, t) =>
        let (expected, pending) := s.pending.remove id peer
        some { s with tables := t, pending := pending, returned := some (handler, expected) }
      | .error fault => some { s with fault := some fault }
    else none
  | .clear peer =>
    if s.fault = none then
      match s.tables.clearPeerMsgMap peer with
      | .ok t => some { s with tables := t, pending := s.pending.clear peer }
      | .error fault => some { s with fault := some fault }
    else none

/-- What an operation can do. -/
inductive MapMove (s : Mapper ι η π) : MapLabel ι η π → Mapper ι η π → Prop where
  | added {id : ι} {handler : η} {peer : π} {t : Tables ι η π} (fresh : s.pending id = none)
      (ok : s.tables.addMsgToMapper id handler peer = .ok t) :
      MapMove s (.add id handler peer)
        { s with tables := t, pending := s.pending.add id handler peer }
  | addFails {id : ι} {handler : η} {peer : π} {fault : MapFault} (fresh : s.pending id = none)
      (error : s.tables.addMsgToMapper id handler peer = .error fault) :
      MapMove s (.add id handler peer) { s with fault := some fault }
  | removed {id : ι} {handler : η} {peer : π}
      (found : s.tables.msgHandlerMapper.lookup id = some handler) :
      MapMove s (.remove id peer)
        { s with
          pending := (s.pending.remove id peer).2
          returned := some (none, (s.pending.remove id peer).1) }
  | removeFails {id : ι} {peer : π} (missing : s.tables.msgHandlerMapper.lookup id = none) :
      MapMove s (.remove id peer) { s with fault := some .endIterator }
  | cleared {peer : π} {t : Tables ι η π} (ok : s.tables.clearPeerMsgMap peer = .ok t) :
      MapMove s (.clear peer) { s with tables := t, pending := s.pending.clear peer }
  | clearFails {peer : π} {fault : MapFault}
      (error : s.tables.clearPeerMsgMap peer = .error fault) :
      MapMove s (.clear peer) { s with fault := some fault }

/-- The tables describe the pending requests and every operation has returned what it
should. -/
structure Conforms (s : Mapper ι η π) : Prop where
  represents : Represents s.tables s.pending
  returned : ∀ r ∈ s.returned, r.1 = r.2
  no_fault : s.fault = none

/-- An id is added for a peer that has an entry, or removed for a peer it was not sent
to, or a peer is cleared that has no pending request. -/
def Harmless (s : Mapper ι η π) : MapLabel ι η π → Prop
  | .add _ _ peer => (s.tables.addrMsgMapper.lookup peer).isSome
  | .remove id peer => ∃ handler q, s.pending id = some (handler, q) ∧ q ≠ peer
  | .clear peer => s.tables.peerSet peer = ∅

variable {s s' : Mapper ι η π} {a : MapLabel ι η π}

theorem clear_of_peerSet_empty (h : Represents s.tables s.pending) {peer : π}
    (hempty : s.tables.peerSet peer = ∅) : s.pending.clear peer = s.pending := by
  funext id
  cases hid : s.pending id with
  | none => simp [Pending.clear, hid]
  | some r =>
    have hne : r.2 ≠ peer := by
      intro heq
      have hmem := (h.peer_iff id peer).mpr ⟨r.1, by rw [hid, ← heq]⟩
      simp [hempty] at hmem
    simp [Pending.clear, hid, hne]

/-- Every pending request has its handler in the table. -/
def HasHandlers (s : Mapper ι η π) : Prop :=
  ∀ id handler peer, s.pending id = some (handler, peer) →
    s.tables.msgHandlerMapper.lookup id = some handler

/-- Every operation does one of these things. -/
theorem mapStep_move (hstep : mapStep s a = some s') : MapMove s a s' := by
  cases a with
  | add id handler peer =>
    simp only [mapStep, Option.ite_none_right_eq_some, Option.isNone_iff_eq_none] at hstep
    obtain ⟨⟨-, hfresh⟩, hstep⟩ := hstep
    cases hadd : s.tables.addMsgToMapper id handler peer with
    | error fault =>
      simp only [hadd, Option.some.injEq] at hstep
      exact hstep ▸ .addFails hfresh hadd
    | ok t =>
      simp only [hadd, Option.some.injEq] at hstep
      exact hstep ▸ .added hfresh hadd
  | remove id peer =>
    simp only [mapStep, Option.ite_none_right_eq_some] at hstep
    obtain ⟨-, hstep⟩ := hstep
    cases hlookup : s.tables.msgHandlerMapper.lookup id with
    | none =>
      simp only [Tables.removeMsgFromMap_none hlookup, Option.some.injEq] at hstep
      exact hstep ▸ .removeFails hlookup
    | some handler =>
      simp only [Tables.removeMsgFromMap_some hlookup, Option.some.injEq] at hstep
      exact hstep ▸ .removed hlookup
  | clear peer =>
    simp only [mapStep, Option.ite_none_right_eq_some] at hstep
    obtain ⟨-, hstep⟩ := hstep
    cases hclear : s.tables.clearPeerMsgMap peer with
    | error fault =>
      simp only [hclear, Option.some.injEq] at hstep
      exact hstep ▸ .clearFails hclear
    | ok t =>
      simp only [hclear, Option.some.injEq] at hstep
      exact hstep ▸ .cleared hclear

/-- No operation takes a handler out. -/
theorem mapStep_hasHandlers (h : HasHandlers s) (hstep : mapStep s a = some s') :
    HasHandlers s' := by
  cases mapStep_move hstep with
  | added fresh ok =>
    intro id' handler' peer' hpending
    simp only [Pending.add, Function.update_apply] at hpending
    simp only [(Tables.addMsgToMapper_ok ok).1, lookup_insert_eq]
    split_ifs at hpending ⊢ with hid
    · cases hpending
      rfl
    · exact h id' handler' peer' hpending
  | removed found =>
    intro id' handler' peer' hpending
    exact h id' handler' peer' (Pending.of_remove hpending)
  | cleared ok =>
    intro id' handler' peer' hpending
    simp only [(Tables.clearPeerMsgMap_ok ok).1]
    exact h id' handler' peer' (Option.filter_eq_some_iff.1 hpending).1
  | addFails | removeFails | clearFails => exact h

theorem run_hasHandlers {labels : List (MapLabel ι η π)}
    (hrun : Runs.run mapStep Mapper.new labels = some s) : HasHandlers s := by
  have hnew : HasHandlers (Mapper.new : Mapper ι η π) := by
    nofun
  exact (Runs.always_of_forall (Q := fun _ => True)
    (fun _ _ _ h _ hstep => mapStep_hasHandlers h hstep) hnew fun _ _ => trivial).last hrun

/-- A harmless operation leaves tables that describe the pending requests. -/
theorem mapStep_conforms (h : Conforms s) (ha : Harmless s a) (hstep : mapStep s a = some s') :
    Conforms s' := by
  have hrep := h.represents
  cases mapStep_move hstep with
  | @added id handler peer t fresh ok =>
    obtain ⟨hhandlers, hpeer, hothers⟩ := Tables.addMsgToMapper_ok ok
    obtain ⟨ids, hids⟩ := Option.isSome_iff_exists.mp ha
    have hlisted : s.tables.peerSet peer = ids := by rw [Tables.peerSet, hids, Option.getD_some]
    rw [hids, Option.elim_some, ← hlisted] at hpeer
    refine ⟨⟨?_, ?_⟩, h.returned, h.no_fault⟩
    · intro id'
      simp only [hhandlers, lookup_insert_eq, Pending.add, Function.update_apply]
      split_ifs
      · rfl
      · exact hrep.handler_eq id'
    · intro id' q
      have hold := hrep.peer_iff id' q
      simp only [Pending.add, Function.update_apply]
      by_cases hq : q = peer
      · rw [hq] at hold ⊢
        rw [hpeer, Finset.mem_insert, hold]
        by_cases hid : id' = id <;> simp [hid]
      · rw [hothers q hq, hold]
        by_cases hid : id' = id
        · simp [hid, fresh, Ne.symm hq]
        · simp [hid]
  | addFails fresh error =>
    refine absurd ?_ (Tables.addMsgToMapper_error error)
    rw [hrep.handler_eq, fresh, Option.map_none]
  | removed found =>
    obtain ⟨handler, q, hid, hne⟩ := ha
    simp only [Pending.remove, hid, if_neg hne]
    exact ⟨hrep, by simp, h.no_fault⟩
  | removeFails missing =>
    obtain ⟨handler, q, hid, -⟩ := ha
    rw [hrep.handler_eq, hid] at missing
    cases missing
  | @cleared peer t ok =>
    obtain rfl : s.tables = t := by
      rw [Tables.clearPeerMsgMap_of_empty ha] at ok
      exact Except.ok.inj ok
    refine ⟨?_, h.returned, h.no_fault⟩
    simp only [clear_of_peerSet_empty hrep ha]
    exact hrep
  | clearFails error =>
    rw [Tables.clearPeerMsgMap_of_empty ha] at error
    cases error

/-- Every other operation fails, returns the wrong handler or leaves tables that do not
describe the pending requests. -/
theorem mapStep_diverges (h : Conforms s) (ha : ¬ Harmless s a) (hstep : mapStep s a = some s') :
    ¬ Conforms s' := by
  have hrep := h.represents
  intro hconf
  cases mapStep_move hstep with
  | @added id handler peer t fresh ok =>
    have hpeer := (Tables.addMsgToMapper_ok ok).2.1
    simp only [Harmless, Bool.not_eq_true, Option.isSome_eq_false_iff,
      Option.isNone_iff_eq_none] at ha
    rw [ha, Option.elim_none] at hpeer
    have hmem := (hconf.represents.peer_iff id peer).mpr ⟨handler, by simp [Pending.add]⟩
    rw [hpeer] at hmem
    exact Finset.notMem_empty id hmem
  | @removed id handler peer found =>
    rw [hrep.handler_eq] at found
    obtain ⟨⟨_, q⟩, hid, rfl⟩ := Option.map_eq_some_iff.1 found
    have hq : q = peer := by
      by_contra hne
      exact ha ⟨_, q, hid, hne⟩
    have hreturned := hconf.returned _ rfl
    simp [Pending.remove, hid, hq] at hreturned
  | @cleared peer t ok =>
    obtain ⟨id, hid⟩ := Finset.nonempty_iff_ne_empty.mpr ha
    obtain ⟨handler, hpending⟩ := (hrep.peer_iff id peer).mp hid
    -- the handlers stay, but no request to the peer is pending any more
    have hid' := hconf.represents.handler_eq id
    simp only [(Tables.clearPeerMsgMap_ok ok).1, hrep.handler_eq, Pending.clear,
      hpending] at hid'
    simp at hid'
  | addFails | removeFails | clearFails => exact absurd hconf.no_fault (by simp)

/-- From any tables that describe the pending requests, a run of operations keeps them
so, and returns the right handlers, exactly when all its operations are harmless. -/
theorem tables_conform_iff (s t : Mapper ι η π) (labels : List (MapLabel ι η π))
    (hs : Conforms s) (hrun : Runs.run mapStep s labels = some t) :
    Runs.Always mapStep Conforms s labels ↔ Runs.Guarded mapStep Harmless s labels :=
  Runs.always_iff_guarded (Q := fun _ => True)
    (fun _ _ _ h _ ha hstep => mapStep_conforms h ha hstep) (fun _ h => h)
    (fun _ _ _ h _ ha hstep => mapStep_diverges h ha hstep) hs (fun _ _ => trivial) hrun

end Runs

/-- A second id is added for a peer that has one pending. -/
theorem tables_conform_iff_second_id :
    let s : Mapper Nat Nat Nat :=
      ⟨⟨(∅ : AList fun _ : Nat => Nat).insert 1 10,
          (∅ : AList fun _ : Nat => Finset Nat).insert 7 {1}⟩,
        Function.update (fun _ => none) 1 (some (10, 7)), none, none⟩
    Conforms s ∧ Runs.Always mapStep Conforms s [.add 2 20 7] := by
  intro s
  have hs : Conforms s := by
    refine ⟨⟨?_, ?_⟩, by simp [s], rfl⟩
    · intro id
      simp only [s, lookup_insert_eq, Function.update_apply]
      split_ifs <;> rfl
    · intro id peer
      simp only [s, Tables.peerSet, lookup_insert_eq, Function.update_apply]
      split_ifs with hpeer hid hid
      · simp [hid, hpeer]
      · simp [hid]
      · simp [Ne.symm hpeer]
      · simp
  obtain ⟨t, ht⟩ : ∃ t, Runs.run mapStep s [.add 2 20 7] = some t := ⟨_, rfl⟩
  exact ⟨hs, (tables_conform_iff s t _ hs ht).mpr ⟨rfl, fun _ _ => trivial⟩⟩

/-- The first id of a peer gets a handler but is in no set, its handler is not returned,
and an id that was never added is read behind the end of the table. -/
theorem tables_diverge :
    (∃ t : Mapper Nat Nat Nat, Runs.run mapStep Mapper.new [.add 1 10 7] = some t ∧
      t.tables.msgHandlerMapper.lookup 1 = some 10 ∧ t.tables.peerSet 7 = ∅ ∧ ¬ Conforms t) ∧
    (∃ t : Mapper Nat Nat Nat,
      Runs.run mapStep Mapper.new [.add 1 10 7, .remove 1 7] = some t ∧
        t.returned = some (none, some 10) ∧ ¬ Conforms t) ∧
    ∃ t : Mapper Nat Nat Nat, Runs.run mapStep Mapper.new [.remove 1 7] = some t ∧
      t.fault = some .endIterator ∧ ¬ Conforms t := by
  refine ⟨⟨_, rfl, rfl, rfl, ?_⟩, ⟨_, rfl, rfl, ?_⟩, ⟨_, rfl, rfl, ?_⟩⟩
  · intro hconf
    have hmem := (hconf.represents.peer_iff 1 7).mpr ⟨10, rfl⟩
    exact absurd hmem (by decide)
  · intro hconf
    exact absurd (hconf.returned _ rfl) (by simp)
  · intro hconf
    exact absurd hconf.no_fault (by simp)

end Server
end CCraft
