import CCraft.RfLog.RoundTrip

/-!
# What a synchronisation writes

The format of the log file is a magic number and behind it, for each entry, the length of its
content, the content, and the offset in the file at which this segment begins.  `Sync` gets a
buffer of the right length and moves its cursor by the whole offset three times for each
entry, takes the offsets of the segments from a size that does not count the magic number of
a new file, and does not move on to the entries that come next.

Main results:

- Theorem {lit}`sync_format_iff`: a synchronisation keeps to the format exactly when there is
  nothing to synchronise and the pool accepts an empty request.
-/

namespace CCraft
namespace RfLog

open Common MemPool

/-! ## The format -/

/-- The segments of the given contents, the first of which begins at the given offset. -/
def logSegments : Nat → List (List UInt8) → List UInt8
  | _, [] => []
  | start, content :: contents =>
    storeBytes 4 content.length ++ content ++ storeBytes 4 start ++
      logSegments (start + (8 + content.length)) contents

section Sync

variable {E : Env}

/-- The part of its block that `Sync` has asked for. -/
def askedBlock (E : Env) (v : MemView) (l : RtDiskRfLogger) : MemBlock :=
  { syncBlock E v l with size := syncLength E l.unsynced }

/-- `Sync` writes inside the length it has asked for, appends the segments of the entries
with the offsets they have in the file, and leaves no entry to synchronise. -/
structure SyncsInFormat (E : Env) (v : MemView) (disk : List UInt8) (l : RtDiskRfLogger) :
    Prop where
  inside : ∀ w ∈ syncWrites E l.fileSize (askedBlock E v l).pointer 0 l.unsynced,
    Fits (askedBlock E v l) w
  appends : ∃ v' l', l.sync E v disk =
      .ok (v', SystemCalls.overwrite disk l.fd
        (logSegments l.fd (l.unsynced.map E.proto.serializeToArray)), l') ∧
    l'.unsynced = []

/-! ## The synchronisations in the format -/

/-- `Sync` leaves the same entries to synchronise. -/
theorem sync_unsynced {v v' : MemView} {disk disk' : List UInt8} {l l' : RtDiskRfLogger}
    (h : l.sync E v disk = .ok (v', disk', l')) : l'.unsynced = l.unsynced := by
  obtain ⟨hentries, hidx⟩ := sync_keeps h
  rw [RtDiskRfLogger.unsynced, hentries, hidx, RtDiskRfLogger.unsynced]

/-- Where `assert` is compiled in, `Sync` without entries does not return. -/
theorem sync_empty_asserts {v : MemView} {disk : List UInt8} {l : RtDiskRfLogger}
    (hnone : l.unsynced = []) (hasserts : E.asserts = true) :
    l.sync E v disk = .error (.fatal .assertSize) := by
  have hzero : syncLength E l.unsynced = 0 := by
    rw [hnone]
    rfl
  simp only [RtDiskRfLogger.sync, hasserts, hzero, and_self, if_true]

/-- A synchronisation keeps to the format exactly when there is nothing to synchronise and
the empty request is not asserted against. -/
theorem sync_format_iff (E : Env) (v : MemView) (disk : List UInt8) (l : RtDiskRfLogger) :
    SyncsInFormat E v disk l ↔ l.unsynced = [] ∧ E.asserts = false := by
  constructor
  · rintro ⟨-, v', l', hsync, hdone⟩
    have hnone : l.unsynced = [] := (sync_unsynced hsync).symm.trans hdone
    refine ⟨hnone, ?_⟩
    cases hasserts : E.asserts with
    | false => rfl
    | true =>
      rw [sync_empty_asserts hnone hasserts] at hsync
      cases hsync
  · rintro ⟨hnone, hasserts⟩
    have hwrites : ∀ base, syncWrites E l.fileSize base 0 l.unsynced = [] := by
      intro base
      rw [hnone]
      rfl
    constructor
    · simp [hwrites]
    · have hsafe : SyncSafe E v l := by
        refine ⟨?_, by simp [hwrites]⟩
        simp [hasserts]
      obtain ⟨v', disk', l', hsync, -, hdisk⟩ := sync_of_safe hsafe disk
      refine ⟨v', l', ?_, (sync_unsynced hsync).trans hnone⟩
      rw [hsync, hdisk hnone, hnone]
      simp [logSegments]

end Sync

/-- A logger of a new file without entries. -/
theorem sync_format_new :
    SyncsInFormat (slotsEnv false) ⟨0, []⟩ header ⟨false, 4, [], 0, 0⟩ :=
  (sync_format_iff (slotsEnv false) ⟨0, []⟩ header ⟨false, 4, [], 0, 0⟩).2 ⟨rfl, rfl⟩

/-- One entry of eight bytes in a new file: its offset is written behind the sixteen bytes
that were asked for. -/
theorem sync_writes_outside :
    let l : RtDiskRfLogger := ⟨false, 4, [⟨200, 200, .data, []⟩], 0, 0⟩
    syncLength (slotsEnv false) l.unsynced = 16 ∧
    (4112, storeBytes 4 0) ∈
      syncWrites (slotsEnv false) l.fileSize (askedBlock (slotsEnv false) ⟨0, []⟩ l).pointer 0
        l.unsynced ∧
    (askedBlock (slotsEnv false) ⟨0, []⟩ l).pointer + 16 = 4112 ∧
    ¬ SyncsInFormat (slotsEnv false) ⟨0, []⟩ header l := by
  intro l
  refine ⟨by decide +kernel, by decide +kernel, by decide +kernel, ?_⟩
  intro hformat
  have hfits := hformat.inside (4112, storeBytes 4 0) (by decide +kernel)
  exact absurd hfits (by decide +kernel)

end RfLog
end CCraft
