import CCraft.RfLog.Format

/-!
# Loading any file

The loading loop takes the length of a segment from the file and reads the word behind it
without looking at the size of the file.  A file that is read only inside is one that loads
the same way when every read behind its last byte is undefined, also one inside the last
page of the mapping.

Main results:

- Theorem {lit}`initializeLog_goesAlong`: the mapping with whole pages shows a difference only
  where a read leaves the file.
- Theorems {lit}`loadEntry_unframed`, {lit}`loadEntry_mismatched` and
  {lit}`loadEntry_matched`: what a round of the loop does.
- Theorem {lit}`load_safe_iff`: which files are loaded safely.
-/

namespace CCraft
namespace RfLog

open Common MemPool Fallible

/-! ## What a round looks at -/

/-- The word at an offset of the file. -/
def wordAt (disk : List UInt8) (off : Nat) : Nat :=
  loadBytes 4 ((disk.drop off).take 4)

/-- Both words that a round at this offset reads lie in the file. -/
def Framed (disk : List UInt8) (off : Nat) : Prop :=
  off + 4 ≤ disk.length ∧ off + wordAt disk off + 4 ≤ disk.length

instance (disk : List UInt8) (off : Nat) : Decidable (Framed disk off) :=
  inferInstanceAs (Decidable (_ ∧ _))

/-- The second word is not the offset of the round. -/
def Mismatched (disk : List UInt8) (off : Nat) : Prop :=
  wordAt disk (off + wordAt disk off) ≠ off

instance (disk : List UInt8) (off : Nat) : Decidable (Mismatched disk off) :=
  inferInstanceAs (Decidable (_ ≠ _))

/-- The bytes that a round hands to protobuf: they begin with the length and end at the
address that has the length as its offset. -/
def contentAt (disk : List UInt8) (off : Nat) : List UInt8 :=
  (disk.drop off).take (wordAt disk off - off)

/-! ## Safe loading -/

/-- The same surroundings with a mapping that ends with the last byte of the file. -/
def Env.exact (E : Env) : Env :=
  { E with pageSize := 1, pageSize_pos := Nat.one_pos }

/-- The segments of the entries are the file behind its magic number. -/
def CoversFile (E : Env) (disk : List UInt8) (entries : List RfLogEntry) : Prop :=
  ∃ contents, contents.map E.proto.parseFromArray = entries.map some ∧
    disk.drop rflogMagicNoLen = logSegments rflogMagicNoLen contents

/-- `initialize` does nothing else however many rounds it may make, it reads inside the file, and
it ends with a fatal message or with entries whose segments cover the file. -/
structure LoadSafe (E : Env) (disk : List UInt8) (autoSync : Bool) : Prop where
  terminates : ∀ n, initializeLogIn E (n + 2) (some disk) autoSync =
    initializeLog E (some disk) autoSync
  reads_inside : initializeLog E.exact (some disk) autoSync ≠ .error (.undefined .readOutsideMap)
  ends : (∃ message, initializeLog E (some disk) autoSync = .error (.fatal message)) ∨
    ∃ l, initializeLog E (some disk) autoSync = .ok (disk, l) ∧ CoversFile E disk l.entries

/-- The first round stops with a fatal message, or the second one does. -/
def StopsInside (E : Env) (disk : List UInt8) : Prop :=
  Framed disk 4 ∧ (Mismatched disk 4 ∨
    wordAt disk 4 < 4 + 2 ^ 31 ∧ (E.proto.parseFromArray (contentAt disk 4) = none ∨
      Framed disk (8 + wordAt disk 4) ∧ Mismatched disk (8 + wordAt disk 4)))

instance (E : Env) (disk : List UInt8) : Decidable (StopsInside E disk) :=
  inferInstanceAs (Decidable (_ ∧ (_ ∨ _ ∧ (_ ∨ _ ∧ _))))

/-! ## Whole pages and the exact mapping -/

section Pages

variable {E : Env} {disk : List UInt8} {size : Nat}

theorem readMapped_goesAlong (a n : Nat) :
    GoesAlong (.undefined .readOutsideMap) (readMapped E.exact disk size a n)
      (readMapped E disk size a n) := by
  have hpages := le_pages E.pageSize_pos size
  have hexact : (size + 1 - 1) / 1 * 1 = size := by omega
  unfold readMapped
  simp only [Env.exact, hexact]
  by_cases hinside : n = 0 ∨ E.mapAddr ≤ a ∧ a + n ≤ E.mapAddr + size
  · have hpage : n = 0 ∨ E.mapAddr ≤ a ∧
        a + n ≤ E.mapAddr + (size + E.pageSize - 1) / E.pageSize * E.pageSize := by
      rcases hinside with hzero | ⟨hlo, hhi⟩
      · exact .inl hzero
      · exact .inr ⟨hlo, by omega⟩
    rw [if_pos hinside, if_pos hpage]
    exact .inr rfl
  · rw [if_neg hinside]
    exact .inl rfl

theorem deserialize_goesAlong (b : Buffer) :
    GoesAlong (.undefined .readOutsideMap) (deserialize E.exact disk size b)
      (deserialize E disk size b) := by
  unfold deserialize
  split_ifs
  · exact .refl _ _
  · exact (readMapped_goesAlong _ _).map _

theorem loadEntry_goesAlong (st : Loading) :
    GoesAlong (.undefined .readOutsideMap) (loadEntry E.exact disk size st)
      (loadEntry E disk size st) := by
  unfold loadEntry
  apply ((readMapped_goesAlong _ _).map _).bind
  intro len
  apply ((readMapped_goesAlong _ _).map _).bind
  intro startPos
  split_ifs
  · exact .refl _ _
  · apply GoesAlong.bind (.refl _ _)
    intro b
    apply (deserialize_goesAlong b).bind
    intro parsed
    exact .refl _ _

theorem loadLoop_goesAlong (rounds : Nat) (st : Loading) :
    GoesAlong (.undefined .readOutsideMap) (loadLoop E.exact disk size rounds st)
      (loadLoop E disk size rounds st) := by
  induction rounds generalizing st with
  | zero =>
    unfold loadLoop
    exact .refl _ _
  | succ rounds ih =>
    unfold loadLoop
    split_ifs
    · exact (loadEntry_goesAlong st).bind ih
    · exact .refl _ _

/-- `initialize` does the same with both mappings unless a read leaves the file. -/
theorem initializeLog_goesAlong (file : Option (List UInt8)) (autoSync : Bool) :
    GoesAlong (.undefined .readOutsideMap) (initializeLog E.exact file autoSync)
      (initializeLog E file autoSync) := by
  cases file with
  | none => exact .refl _ _
  | some disk =>
    unfold initializeLog initializeLogIn
    simp only
    split_ifs
    · exact .refl _ _
    · exact .refl _ _
    · apply ((readMapped_goesAlong _ _).map _).bind
      intro magicNo
      split_ifs
      · exact .refl _ _
      · apply (loadLoop_goesAlong _ _).bind
        intro st
        exact .refl _ _

end Pages

/-! ## A round with the exact mapping -/

section Round

variable {E : Env} {disk : List UInt8}

/-- A range of the mapping is a range of the file. -/
theorem read_mapping_range {off n : Nat} (h : off + n ≤ disk.length) :
    Memory.read (mapping E disk) (E.mapAddr + off) n = (disk.drop off).take n := by
  apply List.ext_getElem
  · simp
    omega
  · intro i h₁ h₂
    have hi : i < n := by simpa using h₁
    have hlt : off + i < disk.length := by omega
    have haddr : E.mapAddr + off + i - E.mapAddr = off + i := by omega
    simp [Memory.read, mapping, haddr, hlt]

theorem readMapped_exact (off n : Nat) (h : off + n ≤ disk.length) :
    readMapped E.exact disk disk.length (E.mapAddr + off) n = .ok ((disk.drop off).take n) := by
  have hinside : n = 0 ∨ E.mapAddr ≤ E.mapAddr + off ∧
      E.mapAddr + off + n ≤ E.mapAddr + (disk.length + 1 - 1) / 1 * 1 := by omega
  rw [← read_mapping_range (E := E) h]
  exact if_pos hinside

theorem readUInt32Mapped_exact (off : Nat) (h : off + 4 ≤ disk.length) :
    readUInt32Mapped E.exact disk disk.length (E.mapAddr + off) = .ok (wordAt disk off) := by
  rw [readUInt32Mapped, readMapped_exact off 4 h]
  rfl

theorem readUInt32Mapped_outside {off : Nat} (h : ¬ off + 4 ≤ disk.length) :
    readUInt32Mapped E.exact disk disk.length (E.mapAddr + off) =
      .error (.undefined .readOutsideMap) := by
  have houtside : ¬ (4 = 0 ∨ E.mapAddr ≤ E.mapAddr + off ∧
      E.mapAddr + off + 4 ≤ E.mapAddr + (disk.length + 1 - 1) / 1 * 1) := by omega
  have hread : readMapped E.exact disk disk.length (E.mapAddr + off) 4 =
      .error (.undefined .readOutsideMap) := if_neg houtside
  rw [readUInt32Mapped, hread]
  rfl

/-- A round whose words are not both in the file reads outside. -/
theorem loadEntry_unframed {st : Loading} (h : ¬ Framed disk st.offset) :
    loadEntry E.exact disk disk.length st = .error (.undefined .readOutsideMap) := by
  have haddr : E.exact.mapAddr = E.mapAddr := rfl
  unfold loadEntry
  rw [haddr]
  by_cases hlen : st.offset + 4 ≤ disk.length
  · have hpos : ¬ st.offset + wordAt disk st.offset + 4 ≤ disk.length := fun hpos => h ⟨hlen, hpos⟩
    rw [readUInt32Mapped_exact _ hlen, ok_bind, Nat.add_assoc E.mapAddr,
      readUInt32Mapped_outside hpos]
    rfl
  · rw [readUInt32Mapped_outside hlen]
    rfl

/-- What a round does with a framed segment, once it has read both words. -/
theorem loadEntry_framed (st : Loading) (h : Framed disk st.offset) :
    loadEntry E.exact disk disk.length st =
      if Mismatched disk st.offset then .error (.fatal (.parseFailed st.offset))
      else (do
        let b ← refreshMapped E.exact disk st.b (E.mapAddr + st.offset)
          (E.mapAddr + wordAt disk st.offset - 1)
        match ← deserialize E.exact disk disk.length b with
        | none => .error (.fatal (.deserializeFailed st.offset))
        | some rflogEntry =>
          .ok ⟨u32 (st.offset + (wordAt disk st.offset + 4)), b, u32 (st.curIdxToSync + 1),
            st.entries ++ [rflogEntry]⟩) := by
  have haddr : E.exact.mapAddr = E.mapAddr := rfl
  unfold loadEntry
  rw [haddr, readUInt32Mapped_exact _ h.1, ok_bind, Nat.add_assoc E.mapAddr,
    readUInt32Mapped_exact _ h.2, ok_bind]
  rfl

/-- A round that finds another offset behind the segment is stopped by a message. -/
theorem loadEntry_mismatched {st : Loading} (h : Framed disk st.offset)
    (hpos : Mismatched disk st.offset) :
    loadEntry E.exact disk disk.length st = .error (.fatal (.parseFailed st.offset)) := by
  rw [loadEntry_framed _ h, if_pos hpos]

/-- A round that finds its offset and has a range of the mapping in its buffer frees that. -/
theorem loadEntry_frees {st : Loading} {p : Nat} (h : Framed disk st.offset)
    (hpos : ¬ Mismatched disk st.offset) (hp : st.b.gives = .deleteArray p) :
    loadEntry E.exact disk disk.length st = .error (.undefined .deleteMapped) := by
  have hrefresh : ∀ startPtr endPtr, refreshMapped E.exact disk st.b startPtr endPtr =
      .error (.undefined .deleteMapped) := by
    intro startPtr endPtr
    unfold refreshMapped
    rw [hp]
  rw [loadEntry_framed _ h, if_neg hpos, hrefresh]
  rfl

/-- The length of the range that protobuf gets. -/
theorem availableLength_refresh {a off len : Nat} (ha : 0 < a) {mem : Mem} :
    (Buffer.refresh (some (a + off)) (some (a + len - 1)) (some (a + off)) (some (a + len - 1))
      none mem).availableLength =
        if off < len then int32 (int32 ((len : Int) - 1 - off) + 1) else 0 := by
  have havailable : a + off ≤ a + len - 1 ↔ off < len := by omega
  by_cases hlt : off < len
  · have hdiff : ((a + len - 1 : Nat) : Int) - (a + off : Nat) = (len : Int) - 1 - off := by omega
    simp only [Buffer.refresh, Buffer.checkAvailable, Buffer.availableLength, havailable, hlt,
      decide_true, if_true, hdiff]
  · simp only [Buffer.refresh, Buffer.checkAvailable, Buffer.availableLength, havailable, hlt,
      decide_false, Bool.false_eq_true, if_false]

/-- The length is right below half of the range of an unsigned word: at the half the addition
overflows, and beyond it the cast gives a negative number. -/
theorem deserialize_exact (off len : Nat) {b : Buffer} (hlen : len ≤ disk.length)
    (hoff : off ≤ disk.length) (hsmall : disk.length < 2 ^ 32)
    (hb : b = Buffer.refresh (some (E.mapAddr + off)) (some (E.mapAddr + len - 1))
      (some (E.mapAddr + off)) (some (E.mapAddr + len - 1)) none (mapping E.exact disk)) :
    deserialize E.exact disk disk.length b =
      if len < off + 2 ^ 31 then .ok (E.proto.parseFromArray ((disk.drop off).take (len - off)))
      else .error (.undefined .negativeLength) := by
  have hpos : b.pos.getD 0 = E.mapAddr + off := by
    subst hb
    rfl
  have havailable : b.availableLength =
      if off < len then int32 (int32 ((len : Int) - 1 - off) + 1) else 0 := by
    subst hb
    exact availableLength_refresh E.mapAddr_pos
  by_cases hhalf : len < off + 2 ^ 31
  · have hlength : b.availableLength = ((len - off : Nat) : Int) := by
      rw [havailable]
      split_ifs with hlt
      · have hsub : (len : Int) - 1 - off = ((len - off : Nat) : Int) - 1 := by omega
        rw [hsub]
        exact int32_pred_succ (by omega) (by omega)
      · omega
    rw [deserialize, hlength, if_neg (by omega), if_pos hhalf, hpos, Int.toNat_natCast,
      readMapped_exact off (len - off) (by omega)]
    rfl
  · have hnegative : b.availableLength < 0 := by
      rw [havailable, if_pos (by omega)]
      have hcast : int32 (int32 ((len : Int) - 1 - off) + 1) = (len : Int) - off - 2 ^ 32 := by
        unfold int32
        rw [Int.bmod_add_bmod, Int.bmod_def]
        norm_num
        omega
      omega
    rw [deserialize, if_pos hnegative, if_neg hhalf]

/-- The state of the loop before its first round. -/
def loadingStart : Loading :=
  ⟨rflogMagicNoLen, emptyBuffer, 0, []⟩

/-- What the first round does when it finds its offset: it loads what protobuf accepts. -/
theorem loadEntry_matched (hsmall : disk.length < 2 ^ 32) (h : Framed disk 4)
    (hpos : ¬ Mismatched disk 4) :
    ∃ b p, b.gives = .deleteArray p ∧ loadEntry E.exact disk disk.length loadingStart =
      if wordAt disk 4 < 4 + 2 ^ 31 then
        match E.proto.parseFromArray (contentAt disk 4) with
        | none => .error (.fatal (.deserializeFailed 4))
        | some rflogEntry => .ok ⟨8 + wordAt disk 4, b, 1, [rflogEntry]⟩
      else .error (.undefined .negativeLength) := by
  obtain ⟨hlen, hend⟩ := h
  refine ⟨Buffer.refresh (some (E.mapAddr + 4)) (some (E.mapAddr + wordAt disk 4 - 1))
    (some (E.mapAddr + 4)) (some (E.mapAddr + wordAt disk 4 - 1)) none (mapping E.exact disk),
    E.mapAddr + 4, refresh_gives, ?_⟩
  have hrefresh : refreshMapped E.exact disk loadingStart.b (E.mapAddr + 4)
      (E.mapAddr + wordAt disk 4 - 1) = .ok (Buffer.refresh (some (E.mapAddr + 4))
        (some (E.mapAddr + wordAt disk 4 - 1)) (some (E.mapAddr + 4))
        (some (E.mapAddr + wordAt disk 4 - 1)) none (mapping E.exact disk)) := rfl
  have hoffset : u32 (4 + (wordAt disk 4 + 4)) = 8 + wordAt disk 4 := by
    unfold u32
    omega
  have hstart : ¬ Mismatched disk loadingStart.offset := hpos
  rw [loadEntry_framed loadingStart ⟨hlen, hend⟩, if_neg hstart]
  simp only [loadingStart, rflogMagicNoLen] at hrefresh ⊢
  rw [hrefresh, ok_bind, deserialize_exact 4 (wordAt disk 4)
    (by omega) (by omega) hsmall rfl, hoffset]
  split_ifs with hhalf
  · rfl
  · rfl

end Round

/-! ## The files that are loaded safely -/

section Files

variable {E : Env} {disk : List UInt8} {autoSync : Bool}

/-- With the exact mapping the outcome alone says whether loading is safe. -/
theorem loadSafe_iff_exact : LoadSafe E disk autoSync ↔
    (∃ message, initializeLog E.exact (some disk) autoSync = .error (.fatal message)) ∨
      ∃ l, initializeLog E.exact (some disk) autoSync = .ok (disk, l) ∧
        CoversFile E disk l.entries := by
  constructor
  · rintro ⟨-, hinside, hends⟩
    rcases initializeLog_goesAlong (E := E) (some disk) autoSync with houtside | hsame
    · exact absurd houtside hinside
    · rw [hsame] at hends
      exact hends
  · intro hends
    have hinside : initializeLog E.exact (some disk) autoSync ≠
        .error (.undefined .readOutsideMap) := by
      rcases hends with ⟨message, hfatal⟩ | ⟨l, hok, -⟩
      · rw [hfatal]
        simp
      · rw [hok]
        simp
    rcases initializeLog_goesAlong (E := E) (some disk) autoSync with houtside | hsame
    · exact absurd houtside hinside
    · refine ⟨initializeLog_rounds (some disk) autoSync, hinside, ?_⟩
      rw [hsame]
      exact hends

/-- A run that ends otherwise than by returning is safe if a message ends it. -/
theorem loadSafe_iff_fatal {halt : Halt}
    (h : initializeLog E.exact (some disk) autoSync = .error halt) :
    LoadSafe E disk autoSync ↔ ∃ message, halt = .fatal message := by
  rw [loadSafe_iff_exact, h]
  simp

/-- A file without segments is loaded or refused. -/
theorem loadSafe_of_short (h : disk.length ≤ 4) : LoadSafe E disk autoSync := by
  have hsize : u32 disk.length = disk.length := Nat.mod_eq_of_lt (by omega)
  have hcovers : CoversFile E disk [] := by
    refine ⟨[], rfl, ?_⟩
    rw [logSegments]
    exact List.drop_eq_nil_of_le h
  rw [loadSafe_iff_exact]
  unfold initializeLog initializeLogIn
  simp only [hsize]
  by_cases hzero : disk.length = 0
  · rw [if_pos hzero]
    exact .inr ⟨_, rfl, hcovers⟩
  · rw [if_neg hzero]
    by_cases hshort : disk.length < rflogMagicNoLen
    · rw [if_pos hshort]
      exact .inl ⟨_, rfl⟩
    · have hfour : disk.length = 4 := by
        simp only [rflogMagicNoLen] at hshort
        omega
      have hmagic : readUInt32Mapped E.exact disk disk.length (E.mapAddr + 0) =
          .ok (wordAt disk 0) := readUInt32Mapped_exact 0 (by omega)
      rw [if_neg hshort]
      simp only [Env.exact, Nat.add_zero] at hmagic ⊢
      rw [hmagic, ok_bind]
      split_ifs
      · exact .inl ⟨_, rfl⟩
      · have hdone : ¬ rflogMagicNoLen ≤ disk.length - 1 := by
          rw [hfour]
          decide
        rw [loadLoop, if_neg hdone, ok_bind]
        exact .inr ⟨_, rfl, hcovers⟩

/-- `initialize` of a longer file with the exact mapping. -/
theorem initializeLog_long (E : Env) (autoSync : Bool) (hlong : 4 < disk.length)
    (hsmall : disk.length < 2 ^ 32) :
    initializeLog E.exact (some disk) autoSync =
      if rflogMagicNo ≠ wordAt disk 0 then .error (.fatal .headerCorrupt)
      else (do
        let next ← loadEntry E.exact disk disk.length loadingStart
        let st ← loadLoop E.exact disk disk.length 1 next
        destroyMapped st.b
        .ok (disk, ⟨autoSync, disk.length, st.entries, st.curIdxToSync, disk.length⟩)) := by
  have hsize : u32 disk.length = disk.length := Nat.mod_eq_of_lt hsmall
  have hmagic : readUInt32Mapped E.exact disk disk.length E.exact.mapAddr = .ok (wordAt disk 0) :=
    readUInt32Mapped_exact (E := E) 0 (by omega)
  have hround : loadingStart.offset ≤ disk.length - 1 := by
    simp only [loadingStart, rflogMagicNoLen]
    omega
  have hloop : loadLoop E.exact disk disk.length 2 loadingStart =
      loadEntry E.exact disk disk.length loadingStart >>= loadLoop E.exact disk disk.length 1 := by
    rw [loadLoop, if_pos hround]
  have hne : ¬ disk.length = 0 := by omega
  have hge : ¬ disk.length < rflogMagicNoLen := by
    simp only [rflogMagicNoLen]
    omega
  unfold initializeLog initializeLogIn
  simp only [hsize]
  rw [if_neg hne, if_neg hge, hmagic, ok_bind]
  rw [loadingStart] at hloop
  rw [hloop, bind_assoc]
  rfl

/-- After a segment has been loaded nothing returns: the second round is stopped by a message,
or what happens is undefined. -/
theorem loadLoop_second {α : Type} (E : Env) (disk : List UInt8) (st : Loading) {p : Nat}
    (hp : st.b.gives = .deleteArray p) (finish : Loading → Except Halt α) :
    ∃ halt, (loadLoop E.exact disk disk.length 1 st >>= fun st' =>
        destroyMapped st'.b >>= fun _ => finish st') = .error halt ∧
      ((∃ message, halt = .fatal message) ↔
        Framed disk st.offset ∧ Mismatched disk st.offset) := by
  by_cases hframed : Framed disk st.offset
  · have hround : st.offset ≤ disk.length - 1 := by
      have hlen := hframed.1
      omega
    rw [loadLoop, if_pos hround]
    by_cases hpos : Mismatched disk st.offset
    · rw [loadEntry_mismatched hframed hpos]
      exact ⟨_, rfl, fun _ => ⟨hframed, hpos⟩, fun _ => ⟨_, rfl⟩⟩
    · rw [loadEntry_frees hframed hpos hp]
      refine ⟨_, rfl, ?_⟩
      simp [hpos]
  · rw [loadLoop]
    split_ifs
    · rw [loadEntry_unframed hframed]
      refine ⟨_, rfl, ?_⟩
      simp [hframed]
    · have hfreed : destroyMapped st.b = .error (.undefined .deleteMapped) := by
        unfold destroyMapped
        rw [hp]
      rw [ok_bind, hfreed]
      refine ⟨_, rfl, ?_⟩
      simp [hframed]

/-- A first segment whose offset is right: what it holds is not a message of half the address
space, and it cannot be parsed or the second round stops. -/
theorem loadSafe_iff_of_matched (hlong : 4 < disk.length) (hsmall : disk.length < 2 ^ 32)
    (hmagic : rflogMagicNo = wordAt disk 0) (hframed : Framed disk 4)
    (hpos : ¬ Mismatched disk 4) :
    LoadSafe E disk autoSync ↔
      wordAt disk 4 < 4 + 2 ^ 31 ∧ (E.proto.parseFromArray (contentAt disk 4) = none ∨
        Framed disk (8 + wordAt disk 4) ∧ Mismatched disk (8 + wordAt disk 4)) := by
  have hrun := initializeLog_long E autoSync hlong hsmall
  obtain ⟨b, p, hp, hround⟩ := loadEntry_matched (E := E) hsmall hframed hpos
  rw [if_neg (not_not.2 hmagic), hround] at hrun
  by_cases hhalf : wordAt disk 4 < 4 + 2 ^ 31
  · rw [if_pos hhalf] at hrun
    rw [and_iff_right hhalf]
    cases hparse : E.proto.parseFromArray (contentAt disk 4) with
    | none =>
      rw [hparse] at hrun
      rw [loadSafe_iff_fatal hrun]
      exact iff_of_true ⟨_, rfl⟩ (.inl rfl)
    | some rflogEntry =>
      obtain ⟨halt, hsecond, hfatal⟩ := loadLoop_second E disk
        ⟨8 + wordAt disk 4, b, 1, [rflogEntry]⟩ hp fun st => Except.ok
          (disk, RtDiskRfLogger.mk autoSync disk.length st.entries st.curIdxToSync disk.length)
      rw [hparse] at hrun
      rw [loadSafe_iff_fatal (hrun.trans hsecond), hfatal]
      simp only [reduceCtorEq, false_or]
  · rw [if_neg hhalf, error_bind] at hrun
    rw [loadSafe_iff_fatal hrun]
    exact iff_of_false (by simp) (fun h => hhalf h.1)

/-- A file with the magic number and more is loaded safely exactly when a message stops the
loop. -/
theorem loadSafe_iff_stopsInside (hlong : 4 < disk.length) (hsmall : disk.length < 2 ^ 32)
    (hmagic : rflogMagicNo = wordAt disk 0) :
    LoadSafe E disk autoSync ↔ StopsInside E disk := by
  have hrun := initializeLog_long E autoSync hlong hsmall
  rw [if_neg (not_not.2 hmagic)] at hrun
  by_cases hframed : Framed disk 4
  · by_cases hpos : Mismatched disk 4
    · rw [loadEntry_mismatched hframed hpos, error_bind] at hrun
      rw [loadSafe_iff_fatal hrun]
      exact iff_of_true ⟨_, rfl⟩ ⟨hframed, .inl hpos⟩
    · rw [loadSafe_iff_of_matched hlong hsmall hmagic hframed hpos, StopsInside,
        and_iff_right hframed, or_iff_right hpos]
  · rw [loadEntry_unframed hframed, error_bind] at hrun
    rw [loadSafe_iff_fatal hrun]
    exact iff_of_false (by simp) (fun h => hframed h.1)

/-- A file of fewer than `2 ^ 32` bytes is loaded safely exactly when it has no segments, has
another magic number, or stops the loop with a message in its first or second round. -/
theorem load_safe_iff (E : Env) (disk : List UInt8) (autoSync : Bool)
    (hsmall : disk.length < 2 ^ 32) :
    LoadSafe E disk autoSync ↔
      disk.length ≤ 4 ∨ wordAt disk 0 ≠ rflogMagicNo ∨ StopsInside E disk := by
  by_cases hshort : disk.length ≤ 4
  · exact iff_of_true (loadSafe_of_short hshort) (.inl hshort)
  by_cases hmagic : rflogMagicNo = wordAt disk 0
  · rw [loadSafe_iff_stopsInside (by omega) hsmall hmagic]
    simp only [hshort, hmagic, ne_eq, not_true_eq_false, false_or]
  · have hrun := initializeLog_long E autoSync (by omega) hsmall
    rw [if_pos hmagic] at hrun
    exact iff_of_true ((loadSafe_iff_fatal hrun).2 ⟨_, rfl⟩) (.inr (.inl (Ne.symm hmagic)))

end Files

/-- Four bytes behind the header that say that the first segment is empty: the word behind it
is the length again and not the offset. -/
theorem load_safe_empty_segment : LoadSafe (slotsEnv false) (header ++ storeBytes 4 0) false :=
  (load_safe_iff _ _ _ (by decide +kernel)).2 (by decide +kernel)

/-- One byte behind the header: the length is read behind the end of the file.  Two words
behind it: the file is mapped memory that the buffer frees, for an entry that it has loaded. -/
theorem load_not_safe :
    initializeLog (slotsEnv false).exact (some (header ++ [0])) false =
      .error (.undefined .readOutsideMap) ∧
    ¬ LoadSafe (slotsEnv false) (header ++ [0]) false ∧
    initializeLog (slotsEnv false) (some (header ++ storeBytes 4 4 ++ storeBytes 4 4)) false =
      .error (.undefined .deleteMapped) ∧
    ¬ LoadSafe (slotsEnv false) (header ++ storeBytes 4 4 ++ storeBytes 4 4) false := by
  have houtside : initializeLog (slotsEnv false).exact (some (header ++ [0])) false =
      .error (.undefined .readOutsideMap) := by
    decide +kernel
  have hfreed : initializeLog (slotsEnv false)
      (some (header ++ storeBytes 4 4 ++ storeBytes 4 4)) false =
        .error (.undefined .deleteMapped) := by
    decide +kernel
  refine ⟨houtside, fun hsafe => hsafe.reads_inside houtside, hfreed, ?_⟩
  intro hsafe
  rcases hsafe.ends with ⟨message, hfatal⟩ | ⟨l, hok, -⟩
  · rw [hfreed] at hfatal
    simp at hfatal
  · rw [hfreed] at hok
    cases hok

end RfLog
end CCraft
