import CCraft.Common.Buffer
import CCraft.Common.Codec
import CCraft.Fsio.IoUtils
import CCraft.Lib.Fallible
import CCraft.MemPool.Sizes
import CCraft.RfLog.Entry

/-!
# The log file

`RtDiskRfLogger` keeps the log entries in memory and writes them to a file.  The writer
and the reader of the file each have their own cursor arithmetic, which is modelled as
it is, down to the places where it leaves the buffer.

The file is a byte string, and system calls succeed, so that `WriteFully` leaves
{lit}`SystemCalls.overwrite`.  A run of the program that writes outside its block, reads outside the
mapping, frees what was not allocated or takes the data of an entry from a null pointer is
undefined and ends there, and so does one that logs a fatal message.

Main results:

- Theorem {lit}`loadLoop_ok`: the loading loop ends normally only if it has nothing to
  load or has put a pointer into the mapped file into its buffer.
- Theorem {lit}`initializeLog_rounds`: two rounds of it are enough.
- Theorem {lit}`initializeLog_ok`: `initialize` returns only when it has loaded nothing, because
  the buffer frees that pointer.
- Theorems {lit}`sync_of_safe` and {lit}`sync_of_not_safe`: when `Sync` returns.
- Theorem {lit}`appendEntries_map`: what an append does to the logger.
-/

namespace CCraft
namespace RfLog

open Common MemPool Fallible

/-! ## The surroundings of the logger -/

/-- What the logger runs on: the memory pool, protobuf, where files are mapped, the size
of a memory page, and whether `assert` is compiled in. -/
structure Env where
  pool : MemSource
  proto : Protobuf
  mapAddr : Nat
  mapAddr_pos : 0 < mapAddr
  pageSize : Nat
  pageSize_pos : 0 < pageSize
  asserts : Bool

/-- The messages after which the process is aborted. -/
inductive Fatal where
  | assertSize
  | headerCorrupt
  | parseFailed (offset : Nat)
  | deserializeFailed (offset : Nat)
deriving DecidableEq, Repr

/-- Undefined behaviour. -/
inductive Undefined where
  | writeOutsideBlock
  | readOutsideMap
  | negativeLength
  | deleteMapped
  | nullData
deriving DecidableEq, Repr

/-- Why a run ends.  The loading loop of the model also counts its rounds. -/
inductive Halt where
  | fatal (message : Fatal)
  | undefined (cause : Undefined)
  | outOfRounds
deriving DecidableEq, Repr

/-- `RFLOG_MAGIC_NO`. -/
def rflogMagicNo : Nat :=
  0x72666c67

/-- `RFLOG_MAGIC_NO_LEN`. -/
def rflogMagicNoLen : Nat :=
  4

/-- `RtDiskRfLogger`; the descriptor `m_iFd` is the offset of the next write. -/
structure RtDiskRfLogger where
  autoSync : Bool
  fd : Nat
  entries : List RfLogEntry
  curIdxToSync : Nat
  fileSize : Nat
deriving DecidableEq, Repr

/-! ## Writing -/

section Sync

variable (E : Env)

/-- The first loop of `Sync`: the length of the buffer. -/
def syncLength (entries : List RfLogEntry) : Nat :=
  entries.foldl (fun len e => u32 (u32 (len + 8) + E.proto.byteSize e)) 0

/-- The second loop of `Sync`: what is written to which address.  The cursor moves by
the whole offset each time, not by the part that was just written. -/
def syncWrites (curFileSize : Nat) : Nat → Nat → List RfLogEntry → List (Nat × List UInt8)
  | _, _, [] => []
  | pos, offset, e :: entries =>
    let entryStartOffset := u32 (curFileSize + offset)
    let entrySize := u32 (E.proto.byteSize e)
    let offset₁ := u32 (offset + 4)
    let pos₁ := pos + offset₁
    let offset₂ := u32 (offset₁ + entrySize)
    let pos₂ := pos₁ + offset₂
    let offset₃ := u32 (offset₂ + 4)
    (pos, storeBytes 4 entrySize) ::
      (pos₁, E.proto.serializeToArray e) ::
        (pos₂, storeBytes 4 entryStartOffset) ::
          syncWrites curFileSize (pos₂ + offset₃) offset₃ entries

/-- A write stays inside a block. -/
def Fits (block : MemBlock) (w : Nat × List UInt8) : Prop :=
  w.2 = [] ∨ block.pointer ≤ w.1 ∧ w.1 + w.2.length ≤ block.pointer + block.size

instance (block : MemBlock) : DecidablePred (Fits block) :=
  fun _ => inferInstanceAs (Decidable (_ ∨ _ ∧ _))

/-- The entries that `Sync` writes. -/
def RtDiskRfLogger.unsynced (l : RtDiskRfLogger) : List RfLogEntry :=
  l.entries.drop l.curIdxToSync

/-- The block that `Sync` gets from the pool. -/
def syncBlock (v : MemView) (l : RtDiskRfLogger) : MemBlock :=
  (E.pool.get v (syncLength E l.unsynced)).1.block

/-- `Sync` does not ask for an empty block where that is asserted, and all its writes
stay inside the block. -/
def SyncSafe (v : MemView) (l : RtDiskRfLogger) : Prop :=
  (E.asserts = true → syncLength E l.unsynced ≠ 0) ∧
    ∀ w ∈ syncWrites E l.fileSize (syncBlock E v l).pointer 0 l.unsynced, Fits (syncBlock E v l) w

instance (v : MemView) (l : RtDiskRfLogger) : Decidable (SyncSafe E v l) :=
  inferInstanceAs (Decidable (_ ∧ _))

/-- `Sync`: it gives the pool its block back, the file and the logger. -/
def RtDiskRfLogger.sync (v : MemView) (disk : List UInt8) (l : RtDiskRfLogger) :
    Except Halt (MemView × List UInt8 × RtDiskRfLogger) :=
  let len := syncLength E l.unsynced
  if E.asserts = true ∧ len = 0 then .error (.fatal .assertSize)
  else
    let mpo := (E.pool.get v len).1
    let writes := syncWrites E l.fileSize mpo.block.pointer 0 l.unsynced
    if ∀ w ∈ writes, Fits mpo.block w then
      let mem := writes.foldl (fun m w => Memory.write m w.1 w.2) mpo.block.mem
      let bytes := Memory.read mem mpo.block.pointer len
      .ok ((E.pool.get v len).2.put mpo.id, SystemCalls.overwrite disk l.fd bytes,
        -- the index of the next entry to synchronise stays where it is
        { l with fd := l.fd + len, fileSize := u32 (l.fileSize + len) })
    else .error (.undefined .writeOutsideBlock)

/-- A safe `Sync` returns and keeps the entries; without entries to write it leaves the
file as it is. -/
theorem sync_of_safe {E : Env} {v : MemView} {l : RtDiskRfLogger} (h : SyncSafe E v l)
    (disk : List UInt8) :
    ∃ v' disk' l', l.sync E v disk = .ok (v', disk', l') ∧ l'.entries = l.entries ∧
      (l.unsynced = [] → disk' = disk) := by
  obtain ⟨hassert, hfits⟩ := h
  have hlen : ¬ (E.asserts = true ∧ syncLength E l.unsynced = 0) := by
    rintro ⟨ha, hzero⟩
    exact hassert ha hzero
  unfold RtDiskRfLogger.sync
  rw [if_neg hlen]
  simp only [syncBlock] at hfits
  rw [if_pos hfits]
  refine ⟨_, _, _, rfl, rfl, ?_⟩
  intro hnone
  have hzero : syncLength E l.unsynced = 0 := by rw [hnone]; rfl
  simp [hzero]

/-- Every other `Sync` ends the run. -/
theorem sync_of_not_safe {E : Env} {v : MemView} {l : RtDiskRfLogger} (h : ¬ SyncSafe E v l)
    (disk : List UInt8) : ∃ halt, l.sync E v disk = .error halt := by
  unfold RtDiskRfLogger.sync
  by_cases hassert : E.asserts = true ∧ syncLength E l.unsynced = 0
  · rw [if_pos hassert]
    exact ⟨_, rfl⟩
  · rw [if_neg hassert, if_neg]
    · exact ⟨_, rfl⟩
    · intro hfits
      exact h ⟨fun ha hzero => hassert ⟨ha, hzero⟩, hfits⟩

/-- A `Sync` that returns leaves the entries and the index of the next one to write. -/
theorem sync_keeps {E : Env} {v v' : MemView} {disk disk' : List UInt8} {l l' : RtDiskRfLogger}
    (h : l.sync E v disk = .ok (v', disk', l')) :
    l'.entries = l.entries ∧ l'.curIdxToSync = l.curIdxToSync := by
  unfold RtDiskRfLogger.sync at h
  simp only at h
  split_ifs at h
  cases h
  exact ⟨rfl, rfl⟩

/-- The copy of an entry that the logger keeps, and what is left of the caller's.  The data is
moved out of what `release_data` gives, whatever that is. -/
def copyEntry (e : RfLogEntry) : Except Halt (RfLogEntry × RfLogEntry) :=
  match E.proto.releaseData e with
  | none => .error (.undefined .nullData)
  | some data => .ok (⟨e.term, e.index, e.type, data⟩, { e with data := [] })

/-- The logger keeps copies of the entries. -/
def RtDiskRfLogger.push (l : RtDiskRfLogger) (entries : List RfLogEntry) : RtDiskRfLogger :=
  { l with entries := l.entries ++ entries }

/-- `Sync` after an append, if the logger is told to. -/
def RtDiskRfLogger.syncIfAuto (v : MemView) (disk : List UInt8) (l : RtDiskRfLogger) :
    Except Halt (MemView × List UInt8 × RtDiskRfLogger) :=
  if l.autoSync then l.sync E v disk else .ok (v, disk, l)

/-- `AppendEntries`; the entries of the caller lose their data. -/
def RtDiskRfLogger.appendEntries (v : MemView) (disk : List UInt8) (l : RtDiskRfLogger)
    (entries : List RfLogEntry) :
    Except Halt ((MemView × List UInt8 × RtDiskRfLogger) × List RfLogEntry) := do
  let copies ← entries.mapM (copyEntry E)
  let r ← (l.push (copies.map Prod.fst)).syncIfAuto E v disk
  .ok (r, copies.map Prod.snd)

/-- `AppendEntry`; the entry of the caller loses its data. -/
def RtDiskRfLogger.appendEntry (v : MemView) (disk : List UInt8) (l : RtDiskRfLogger)
    (rfEntry : RfLogEntry) :
    Except Halt ((MemView × List UInt8 × RtDiskRfLogger) × RfLogEntry) := do
  let (entry, rest) ← copyEntry E rfEntry
  let r ← (l.push [entry]).syncIfAuto E v disk
  .ok (r, rest)

/-- The data of every entry can be taken, and the synchronisation after the append is safe. -/
def AppendSafe (v : MemView) (l : RtDiskRfLogger) (entries : List RfLogEntry) : Prop :=
  (∀ e ∈ entries, E.proto.releaseData e ≠ none) ∧
    (l.autoSync = true → SyncSafe E v (l.push entries))

instance (v : MemView) (l : RtDiskRfLogger) (entries : List RfLogEntry) :
    Decidable (AppendSafe E v l entries) :=
  inferInstanceAs (Decidable (_ ∧ _))

variable {E} {v : MemView} {disk : List UInt8} {l : RtDiskRfLogger} {entries : List RfLogEntry}

/-- A copy is equal to its entry. -/
theorem copyEntry_eq (e : RfLogEntry) :
    copyEntry E e = if E.proto.releaseData e = none then .error (.undefined .nullData)
      else .ok (e, { e with data := [] }) := by
  unfold copyEntry
  cases hdata : E.proto.releaseData e with
  | none => rfl
  | some data =>
    obtain rfl := E.proto.releaseData_eq e data hdata
    rfl

/-- Entries are copied one after the other until one has no data to take. -/
theorem mapM_copyEntry (entries : List RfLogEntry) :
    entries.mapM (copyEntry E) =
      if ∀ e ∈ entries, E.proto.releaseData e ≠ none then
        .ok (entries.map fun e => (e, { e with data := [] }))
      else .error (.undefined .nullData) := by
  induction entries with
  | nil => rfl
  | cons e entries ih =>
    rw [List.mapM_cons, copyEntry_eq, ih]
    simp only [List.forall_mem_cons]
    by_cases hnull : E.proto.releaseData e = none
    · have hnot : ¬ (E.proto.releaseData e ≠ none ∧
          ∀ e ∈ entries, E.proto.releaseData e ≠ none) := fun hall => hall.1 hnull
      rw [if_pos hnull, if_neg hnot]
      rfl
    · by_cases hrest : ∀ e ∈ entries, E.proto.releaseData e ≠ none
      · rw [if_neg hnull, if_pos hrest, if_pos ⟨hnull, hrest⟩]
        rfl
      · have hnot : ¬ (E.proto.releaseData e ≠ none ∧
            ∀ e ∈ entries, E.proto.releaseData e ≠ none) := fun hall => hrest hall.2
        rw [if_neg hnull, if_neg hrest, if_neg hnot]
        rfl

/-- `AppendEntries` as far as the logger is concerned. -/
theorem appendEntries_map (v : MemView) (disk : List UInt8) (l : RtDiskRfLogger)
    (entries : List RfLogEntry) :
    (l.appendEntries E v disk entries).map Prod.fst =
      if ∀ e ∈ entries, E.proto.releaseData e ≠ none then (l.push entries).syncIfAuto E v disk
      else .error (.undefined .nullData) := by
  unfold RtDiskRfLogger.appendEntries
  rw [mapM_copyEntry]
  split_ifs
  · have hcopies : (entries.map fun e => (e, ({ e with data := [] } : RfLogEntry))).map Prod.fst =
        entries :=
      List.map_map.trans (List.map_id entries)
    rw [ok_bind, hcopies]
    cases (l.push entries).syncIfAuto E v disk <;> rfl
  · rfl

/-- `AppendEntry` does to the logger what `AppendEntries` of the one entry does. -/
theorem appendEntry_map (v : MemView) (disk : List UInt8) (l : RtDiskRfLogger) (e : RfLogEntry) :
    (l.appendEntry E v disk e).map Prod.fst = (l.appendEntries E v disk [e]).map Prod.fst := by
  rw [appendEntries_map, RtDiskRfLogger.appendEntry, copyEntry_eq]
  by_cases hnull : E.proto.releaseData e = none
  · simp [hnull, Except.map]
  · simp only [hnull, List.mem_singleton, forall_eq, ne_eq, not_false_eq_true, if_true, if_false,
      ok_bind]
    cases (l.push [e]).syncIfAuto E v disk <;> rfl

/-- An append that returns has appended the entries. -/
theorem appendEntries_entries {v' : MemView} {disk' : List UInt8} {l' : RtDiskRfLogger}
    (h : (l.appendEntries E v disk entries).map Prod.fst = .ok (v', disk', l')) :
    l'.entries = l.entries ++ entries := by
  rw [appendEntries_map] at h
  split_ifs at h
  unfold RtDiskRfLogger.syncIfAuto at h
  split_ifs at h
  · exact (sync_keeps h).1
  · cases h
    rfl

end Sync

/-! ## Reading -/

section Initialize

variable (E : Env)

/-- The memory that shows the mapped file; a page is filled up with zeros. -/
def mapping (disk : List UInt8) : Mem :=
  fun a => disk.getD (a - E.mapAddr) 0

/-- The `n` bytes at an address, if they lie in the pages that were mapped for `size`
bytes. -/
def readMapped (disk : List UInt8) (size a n : Nat) : Except Halt (List UInt8) :=
  if n = 0 ∨ E.mapAddr ≤ a ∧ a + n ≤ E.mapAddr + (size + E.pageSize - 1) / E.pageSize * E.pageSize
  then .ok (Memory.read (mapping E disk) a n)
  else .error (.undefined .readOutsideMap)

/-- `ReadUInt32` of the mapped file. -/
def readUInt32Mapped (disk : List UInt8) (size a : Nat) : Except Halt Nat :=
  (readMapped E disk size a 4).map (loadBytes 4)

/-- `ProtoBufUtils::Deserialize` of a buffer over the mapped file.  A negative length comes from
the cast of a distance above `2 ^ 31` or from the addition that overflows at `2 ^ 31 - 1`. -/
def deserialize (disk : List UInt8) (size : Nat) (b : Buffer) :
    Except Halt (Option RfLogEntry) :=
  if b.availableLength < 0 then .error (.undefined .negativeLength)
  else
    (readMapped E disk size (b.pos.getD 0) b.availableLength.toNat).map E.proto.parseFromArray

/-- The local state of the loading loop with the fields of the logger that it changes. -/
structure Loading where
  offset : Nat
  b : Buffer
  curIdxToSync : Nat
  entries : List RfLogEntry

/-- `Buffer::Refresh` with a range of the mapped file.  A buffer that holds one already
hands it to `delete[]`. -/
def refreshMapped (disk : List UInt8) (b : Buffer) (startPtr endPtr : Nat) : Except Halt Buffer :=
  match b.gives with
  | .deleteArray _ => .error (.undefined .deleteMapped)
  | _ =>
    .ok (Buffer.refresh (some startPtr) (some endPtr) (some startPtr) (some endPtr) none
      (mapping E disk))

/-- One round of the loading loop. -/
def loadEntry (disk : List UInt8) (size : Nat) (st : Loading) : Except Halt Loading := do
  let len ← readUInt32Mapped E disk size (E.mapAddr + st.offset)
  let startPos ← readUInt32Mapped E disk size (E.mapAddr + st.offset + len)
  if startPos ≠ st.offset then .error (.fatal (.parseFailed st.offset))
  else
    let startPtr := E.mapAddr + st.offset
    let endPtr := E.mapAddr + len - 1
    let b ← refreshMapped E disk st.b startPtr endPtr
    match ← deserialize E disk size b with
    | none => .error (.fatal (.deserializeFailed st.offset))
    | some rflogEntry =>
      .ok ⟨u32 (st.offset + (len + 4)), b, u32 (st.curIdxToSync + 1),
        st.entries ++ [rflogEntry]⟩

/-- The loading loop, for at most `rounds` rounds. -/
def loadLoop (disk : List UInt8) (size : Nat) : Nat → Loading → Except Halt Loading
  | rounds, st =>
    if st.offset ≤ size - 1 then
      match rounds with
      | 0 => .error .outOfRounds
      | rounds + 1 => loadEntry E disk size st >>= loadLoop disk size rounds
    else .ok st

/-- `Buffer::~Buffer` of the buffer over the mapped file. -/
def destroyMapped (b : Buffer) : Except Halt Unit :=
  match b.gives with
  | .deleteArray _ => .error (.undefined .deleteMapped)
  | _ => .ok ()

/-- A buffer as its constructor leaves it. -/
def emptyBuffer : Buffer :=
  ⟨none, none, none, none, none, false, fun _ => 0⟩

/-- `initialize` with at most the given number of rounds, from an absent or an existing file: it
gives the file and the logger. -/
def initializeLogIn (rounds : Nat) (file : Option (List UInt8)) (autoSync : Bool) :
    Except Halt (List UInt8 × RtDiskRfLogger) :=
  match file with
  | none =>
    -- the size of the new file is not stored
    .ok (storeBytes 4 rflogMagicNo, ⟨autoSync, rflogMagicNoLen, [], 0, 0⟩)
  | some disk =>
    let fileSize := u32 disk.length
    -- an empty file does not get its header
    if fileSize = 0 then .ok (disk, ⟨autoSync, 0, [], 0, fileSize⟩)
    else if fileSize < rflogMagicNoLen then .error (.fatal .headerCorrupt)
    else do
      let magicNo ← readUInt32Mapped E disk fileSize E.mapAddr
      if rflogMagicNo ≠ magicNo then .error (.fatal .headerCorrupt)
      else
        let st ← loadLoop E disk fileSize rounds ⟨rflogMagicNoLen, emptyBuffer, 0, []⟩
        destroyMapped st.b
        .ok (disk, ⟨autoSync, disk.length, st.entries, st.curIdxToSync, fileSize⟩)

/-- `initialize`: two rounds of the loading loop are enough. -/
def initializeLog (file : Option (List UInt8)) (autoSync : Bool) :
    Except Halt (List UInt8 × RtDiskRfLogger) :=
  initializeLogIn E 2 file autoSync

end Initialize

section Loaded

variable {E : Env} {disk : List UInt8} {size : Nat}

/-- A buffer over the mapped file has a pointer that is not its own. -/
theorem refresh_gives {startPtr endPtr : Nat} {mem : Mem} :
    (Buffer.refresh (some startPtr) (some endPtr) (some startPtr) (some endPtr) none mem).gives =
      .deleteArray startPtr := by
  simp [Buffer.refresh, Buffer.checkAvailable, Buffer.gives]

/-- After a round of the loop the buffer holds a pointer into the mapped file. -/
theorem loadEntry_ok {st st' : Loading} (h : loadEntry E disk size st = .ok st') :
    ∃ p, st'.b.gives = .deleteArray p := by
  simp only [loadEntry, bind_eq_ok] at h
  obtain ⟨len, -, startPos, -, h⟩ := h
  split_ifs at h with hpos
  simp only [bind_eq_ok] at h
  obtain ⟨b, hb, parsed, -, h⟩ := h
  cases parsed with
  | none => cases h
  | some rflogEntry =>
    cases h
    simp only [refreshMapped] at hb
    split at hb
    · cases hb
    · cases hb
      exact ⟨_, refresh_gives⟩

/-- A round cannot succeed when the buffer holds such a pointer, which it would free. -/
theorem loadEntry_ne_ok {st st' : Loading} {p : Nat} (hp : st.b.gives = .deleteArray p) :
    loadEntry E disk size st ≠ .ok st' := by
  intro h
  simp only [loadEntry, bind_eq_ok] at h
  obtain ⟨len, -, startPos, -, h⟩ := h
  split_ifs at h with hpos
  simp only [bind_eq_ok, refreshMapped, hp] at h
  obtain ⟨b, hb, -⟩ := h
  cases hb

/-- Nothing is loaded, or a pointer into the mapped file is in the buffer. -/
theorem loadLoop_ok {rounds : Nat} {st st' : Loading}
    (h : loadLoop E disk size rounds st = .ok st') :
    st' = st ∨ ∃ p, st'.b.gives = .deleteArray p := by
  induction rounds generalizing st with
  | zero =>
    unfold loadLoop at h
    split_ifs at h
    cases h
    exact .inl rfl
  | succ rounds ih =>
    unfold loadLoop at h
    split_ifs at h
    · obtain ⟨next, hnext, hrest⟩ := bind_eq_ok.1 h
      obtain ⟨p, hp⟩ := loadEntry_ok hnext
      rcases ih hrest with rfl | hlater
      · exact .inr ⟨p, hp⟩
      · exact .inr hlater
    · cases h
      exact .inl rfl

/-- After a round a single further one is enough. -/
theorem loadLoop_of_gives {st : Loading} {p : Nat} (hp : st.b.gives = .deleteArray p) (n : Nat) :
    loadLoop E disk size (n + 1) st = loadLoop E disk size 1 st := by
  unfold loadLoop
  split_ifs
  · cases hnext : loadEntry E disk size st with
    | ok next => exact absurd hnext (loadEntry_ne_ok hp)
    | error halt => rfl
  · rfl

theorem loadLoop_rounds (st : Loading) (n : Nat) :
    loadLoop E disk size (n + 2) st = loadLoop E disk size 2 st := by
  rw [loadLoop, loadLoop]
  split_ifs
  · cases hnext : loadEntry E disk size st with
    | ok next =>
      obtain ⟨p, hp⟩ := loadEntry_ok hnext
      exact loadLoop_of_gives hp n
    | error halt => rfl
  · rfl

/-- With more rounds `initialize` does nothing else. -/
theorem initializeLog_rounds (file : Option (List UInt8)) (autoSync : Bool) (n : Nat) :
    initializeLogIn E (n + 2) file autoSync = initializeLog E file autoSync := by
  unfold initializeLog initializeLogIn
  simp only [loadLoop_rounds _ n]

/-- `initialize` returns only when it has loaded nothing. -/
theorem initializeLog_ok {file : Option (List UInt8)} {autoSync : Bool} {disk' : List UInt8}
    {l : RtDiskRfLogger} (h : initializeLog E file autoSync = .ok (disk', l)) :
    l.entries = [] ∧ l.curIdxToSync = 0 := by
  unfold initializeLog initializeLogIn at h
  split at h
  · cases h
    exact ⟨rfl, rfl⟩
  · rename_i disk
    simp only at h
    split_ifs at h
    · cases h
      exact ⟨rfl, rfl⟩
    · obtain ⟨magicNo, -, h⟩ := bind_eq_ok.1 h
      split_ifs at h
      obtain ⟨st, hload, h⟩ := bind_eq_ok.1 h
      obtain ⟨_, hdestroy, h⟩ := bind_eq_ok.1 h
      rcases loadLoop_ok hload with rfl | ⟨p, hp⟩
      · cases h
        exact ⟨rfl, rfl⟩
      · simp [destroyMapped, hp] at hdestroy

/-! ### Files without entries -/

/-- The pages that are mapped cover the file. -/
theorem le_pages {p : Nat} (hp : 0 < p) (n : Nat) : n ≤ (n + p - 1) / p * p := by
  have hdiv := Nat.div_add_mod (n + p - 1) p
  have hmod := Nat.mod_lt (n + p - 1) hp
  rw [Nat.mul_comm]
  omega

/-- The mapping shows the file. -/
theorem read_mapping (E : Env) (disk : List UInt8) :
    Memory.read (mapping E disk) E.mapAddr disk.length = disk := by
  apply List.ext_getElem
  · simp
  · intro i h₁ h₂
    simp [Memory.read, mapping, h₂]

/-- The file header. -/
def header : List UInt8 :=
  storeBytes 4 rflogMagicNo

theorem readUInt32Mapped_header : readUInt32Mapped E header 4 E.mapAddr = .ok rflogMagicNo := by
  have hpages := le_pages E.pageSize_pos 4
  have hinside : E.mapAddr ≤ E.mapAddr ∧
      E.mapAddr + 4 ≤ E.mapAddr + (4 + E.pageSize - 1) / E.pageSize * E.pageSize := by omega
  have hread : Memory.read (mapping E header) E.mapAddr 4 = header := read_mapping E header
  simp only [readUInt32Mapped, readMapped, hinside, and_self, or_true, if_true, hread, Except.map]
  rfl

/-- `initialize` returns for an absent file, an empty one, and one with only a header,
and leaves the latter two as they are. -/
theorem initializeLog_blank {file : Option (List UInt8)} (autoSync : Bool)
    (hfile : file = none ∨ file = some [] ∨ file = some header) :
    ∃ disk l, initializeLog E file autoSync = .ok (disk, l) ∧ (disk = [] ∨ disk = header) := by
  rcases hfile with rfl | rfl | rfl
  · exact ⟨_, _, rfl, .inr rfl⟩
  · exact ⟨_, _, rfl, .inl rfl⟩
  · refine ⟨header, ⟨autoSync, 4, [], 0, 4⟩, ?_, .inr rfl⟩
    have hsize : u32 header.length = 4 := rfl
    simp only [initializeLog, initializeLogIn, hsize, readUInt32Mapped_header, ok_bind,
      rflogMagicNoLen, loadLoop]
    rfl

end Loaded

end RfLog
end CCraft
