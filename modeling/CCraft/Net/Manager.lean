import CCraft.Lib.PageLists
import CCraft.Net.Message

/-!
# The manager of connections

`UniqueWorkerManager` keeps at most one event handler for each logic peer.  Three tables are
changed together: the handlers by logic peer, the logic peers by real peer, and the real
peers by handler.  A handler whose logic peer has one already is turned away, and the
handler of a connection that has ended is removed by the two addresses of the connection.

Main results:

- Theorems {lit}`lookupWorker_put` and {lit}`lookupWorker_remove`: the handlers that are
  found after the two operations.
-/

namespace CCraft
namespace Net

open PageMap

/-- `UniqueWorkerManager` over a type of handlers. -/
structure UniqueWorkerManager (H : Type) where
  workers : AList fun _ : NetPeerInfo => H
  rpLp : AList fun _ : NetPeerInfo => NetPeerInfo
  handlerRp : AList fun _ : H => NetPeerInfo

namespace UniqueWorkerManager

variable {H : Type}

/-- A manager without connections. -/
def new : UniqueWorkerManager H :=
  ⟨∅, ∅, ∅⟩

/-- `lookup_worker`. -/
def lookupWorker (m : UniqueWorkerManager H) (logicNpt : NetPeerInfo) : Option H :=
  m.workers.lookup logicNpt

/-- `GetWorkerEventHandler`. -/
def getWorkerEventHandler (m : UniqueWorkerManager H) (logicNpt : NetPeerInfo) : Option H :=
  m.lookupWorker logicNpt

/-- `PutWorkerEventHandler` of a handler with the given peers. -/
def putWorkerEventHandler [DecidableEq H] (m : UniqueWorkerManager H) (handler : H)
    (lnpt rnpt : NetPeerInfo) : Bool × UniqueWorkerManager H :=
  match m.lookupWorker lnpt with
  | some _ => (false, m)
  | none =>
    (true, ⟨m.workers.insert lnpt handler, m.rpLp.insert rnpt lnpt,
      m.handlerRp.insert handler rnpt⟩)

/-- `RemoveWorkerEventHandler` with both peers, for a connection that has ended. -/
def removeWorkerEventHandler (m : UniqueWorkerManager H) (logicNpt realNpt : NetPeerInfo) :
    Option H × UniqueWorkerManager H :=
  if realNpt ∈ m.rpLp then
    match m.lookupWorker logicNpt with
    | some handler =>
      (some handler,
        { m with rpLp := m.rpLp.erase realNpt, workers := m.workers.erase logicNpt })
    | none => (none, { m with rpLp := m.rpLp.erase realNpt })
  else (none, m)

/-- `RemoveWorkerEventHandler` with the logic peer only, for a connection that is given up. -/
def removeWorkerEventHandlerOf [DecidableEq H] (m : UniqueWorkerManager H)
    (logicNpt : NetPeerInfo) : Option H × UniqueWorkerManager H :=
  match m.lookupWorker logicNpt with
  | some handler =>
    let realNpt := (m.handlerRp.lookup handler).getD .unset
    (some handler, ⟨m.workers.erase logicNpt, m.rpLp.erase realNpt, m.handlerRp.erase handler⟩)
  | none => (none, m)

variable {m : UniqueWorkerManager H} {handler : H} {lnpt rnpt : NetPeerInfo}

@[simp]
theorem lookupWorker_new (key : NetPeerInfo) :
    (new : UniqueWorkerManager H).lookupWorker key = none :=
  rfl

section Put

variable [DecidableEq H]

/-- A handler is accepted exactly when its logic peer has none. -/
theorem put_fst : (m.putWorkerEventHandler handler lnpt rnpt).1 = true ↔
    m.lookupWorker lnpt = none := by
  unfold putWorkerEventHandler
  cases m.lookupWorker lnpt <;> simp

/-- The handler that is accepted is found from then on. -/
theorem lookupWorker_put (hfree : m.lookupWorker lnpt = none) (key : NetPeerInfo) :
    (m.putWorkerEventHandler handler lnpt rnpt).2.lookupWorker key =
      if key = lnpt then some handler else m.lookupWorker key := by
  simp only [putWorkerEventHandler, hfree]
  exact lookup_insert_eq

theorem mem_rpLp_put (hfree : m.lookupWorker lnpt = none) (real : NetPeerInfo) :
    real ∈ (m.putWorkerEventHandler handler lnpt rnpt).2.rpLp ↔ real = rnpt ∨ real ∈ m.rpLp := by
  simp [putWorkerEventHandler, hfree]

theorem put_of_taken {other : H} (htaken : m.lookupWorker lnpt = some other) :
    m.putWorkerEventHandler handler lnpt rnpt = (false, m) := by
  simp only [putWorkerEventHandler, htaken]

end Put

/-- When a handler was removed, its logic peer has none from then on. -/
theorem lookupWorker_remove (hremoved : (m.removeWorkerEventHandler lnpt rnpt).1.isSome)
    (key : NetPeerInfo) :
    (m.removeWorkerEventHandler lnpt rnpt).2.lookupWorker key =
      if key = lnpt then none else m.lookupWorker key := by
  unfold removeWorkerEventHandler at hremoved ⊢
  split at hremoved
  case isTrue hreal =>
    rw [if_pos hreal]
    cases hlookup : m.lookupWorker lnpt with
    | none => simp [hlookup] at hremoved
    | some other => exact lookup_erase_eq
  case isFalse => simp at hremoved

/-- When none was removed, the handlers are the ones before. -/
theorem lookupWorker_remove_of_none (hremoved : (m.removeWorkerEventHandler lnpt rnpt).1 = none)
    (key : NetPeerInfo) :
    (m.removeWorkerEventHandler lnpt rnpt).2.lookupWorker key = m.lookupWorker key := by
  unfold removeWorkerEventHandler at hremoved ⊢
  split
  · cases hlookup : m.lookupWorker lnpt with
    | none => rfl
    | some other => simp_all
  · rfl

/-- A handler is removed when both addresses are known. -/
theorem remove_fst (lnpt : NetPeerInfo) (hreal : rnpt ∈ m.rpLp) :
    (m.removeWorkerEventHandler lnpt rnpt).1 = m.lookupWorker lnpt := by
  unfold removeWorkerEventHandler
  rw [if_pos hreal]
  cases m.lookupWorker lnpt <;> rfl

theorem mem_rpLp_remove (real : NetPeerInfo) :
    real ∈ (m.removeWorkerEventHandler lnpt rnpt).2.rpLp ↔ real ≠ rnpt ∧ real ∈ m.rpLp := by
  unfold removeWorkerEventHandler
  split
  case isTrue => cases m.lookupWorker lnpt <;> simp [AList.mem_erase]
  case isFalse hreal =>
    constructor
    · intro hmem
      refine ⟨?_, hmem⟩
      rintro rfl
      exact hreal hmem
    · exact And.right

end UniqueWorkerManager
end Net
end CCraft
