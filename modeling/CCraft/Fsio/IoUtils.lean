import CCraft.Lib.SystemCalls

/-!
# Reading and writing whole buffers

The functions of `io-utils.cc`, which repeat a system call until everything is transferred.
`ReadFully` reads from the position of the descriptor on and counts down what is left;
`ReadFully_V2` reads from the start of the file with explicit offsets and counts up what it has.

A reader puts the bytes into a new array, whose first contents are arbitrary, and hands the array
to its caller through `*buf`.  The loops end because a call that does not end them transfers at
least a byte, and never more than it is asked for.

Main results:

- Theorems {lit}`readFully_ends` and {lit}`readFullyV2_ends`: a reader returns everything there is,
  or it fails because a call did and leaves no array.
- Theorem {lit}`file_readers_agree`: the two readers give the same, however short their reads are.
- Theorem {lit}`writeFully_ends`: the writer writes everything at once, or fails with a call after a
  beginning of it.
-/

namespace CCraft
namespace Fsio

open SystemCalls

/-- The C conversion of a `size_t` to an `ssize_t`. -/
def ssizeT (n : Nat) : Int :=
  Int.bmod n (2 ^ 64)

theorem ssizeT_of_lt {n : Nat} (h : n < 2 ^ 63) : ssizeT n = n := by
  unfold ssizeT
  exact Int.bmod_eq_of_le (by omega) (by omega)

/-! ## The readers -/

/-- What a reader leaves: the value it returns, the array behind `*buf`, and the position of the
descriptor. -/
structure ReadOutcome where
  ret : Int
  buf : Option Mem
  offset : Nat

/-- The first `size` bytes behind `*buf`. -/
def ReadOutcome.contents (r : ReadOutcome) (size : Nat) : List UInt8 :=
  match r.buf with
  | some mem => Memory.read mem 0 size
  | none => []

/-- The loop of `ReadFully`. -/
def readLoop {bytes : List UInt8} (calls : Reads bytes) (size k leftSize : Nat) (mem : Mem)
    (offset : Nat) : ReadOutcome :=
  if leftSize = 0 then ⟨ssizeT size, some mem, offset⟩
  else
    let n := calls.answer k offset leftSize
    if n = -1 then ⟨-1, none, offset⟩
    else if n = 0 then ⟨ssizeT (size - leftSize), some mem, offset⟩
    else
      readLoop calls size (k + 1) (leftSize - n.toNat)
        (Memory.write mem (size - leftSize) (calls.data k offset leftSize)) (offset + n.toNat)
termination_by leftSize
decreasing_by
  have := calls.answer_ge k offset leftSize
  omega

/-- `IOUtils::ReadFully`, with `*buf` before the call, the contents of a new array, and the
position of the descriptor. -/
def readFully {bytes : List UInt8} (calls : Reads bytes) (fd : Int) (buf : Option Mem) (raw : Mem)
    (size offset : Nat) : ReadOutcome :=
  if fd = -1 ∨ size = 0 then ⟨0, buf, offset⟩
  else readLoop calls size 0 size (Memory.zero raw 0 size) offset

/-- The loop of `ReadFully_V2`.  It also asks for nothing when it has everything, and ends when
that is what it gets. -/
def preadLoop {bytes : List UInt8} (calls : Reads bytes) (total k nread : Nat) (mem : Mem)
    (offset : Nat) : ReadOutcome :=
  let n := calls.answer k nread (total - nread)
  if 0 < n then
    preadLoop calls total (k + 1) (nread + n.toNat)
      (Memory.write mem nread (calls.data k nread (total - nread))) offset
  else if n = -1 then ⟨-1, none, offset⟩
  else ⟨ssizeT nread, some mem, offset⟩
termination_by total - nread
decreasing_by
  have := calls.answer_le k nread (total - nread)
  omega

/-- `IOUtils::ReadFully_V2`; `pread` does not move the position of the descriptor. -/
def readFullyV2 {bytes : List UInt8} (calls : Reads bytes) (fd : Int) (buf : Option Mem)
    (raw : Mem) (size offset : Nat) : ReadOutcome :=
  if fd = -1 ∨ size = 0 then ⟨0, buf, offset⟩
  else preadLoop calls size 0 0 (Memory.zero raw 0 size) offset

/-- A reader has returned what there is of some bytes, up to the wanted size, and the rest of its
array is zero. -/
structure Complete (bytes : List UInt8) (size : Nat) (r : ReadOutcome) : Prop where
  ret_eq : r.ret = (min size bytes.length : Nat)
  contents_eq :
    r.contents size = bytes.take size ++ List.replicate (size - bytes.length) 0

/-- A reader has failed because one of its calls did, and has deleted its array. -/
structure Failed {bytes : List UInt8} (calls : Reads bytes) (r : ReadOutcome) : Prop where
  ret_eq : r.ret = -1
  buf_eq : r.buf = none
  cause : ∃ k offset count, calls.answer k offset count = -1

/-- How a reader of some bytes ends, and where it leaves the position if it does not fail. -/
def Ends {file : List UInt8} (calls : Reads file) (bytes : List UInt8) (size offset : Nat)
    (r : ReadOutcome) : Prop :=
  Failed calls r ∨ Complete bytes size r ∧ r.offset = offset

section Readers

variable {bytes : List UInt8} {mem : Mem} {size got : Nat}

/-- A reader that has nothing left to transfer. -/
theorem complete_of_holds (h : Holds bytes mem size got) (hlt : bytes.length < 2 ^ 63)
    (hend : size ≤ got ∨ bytes.length ≤ got) (offset : Nat) :
    Complete bytes size ⟨ssizeT got, some mem, offset⟩ := by
  have hsize := h.le_size
  have hlength := h.le_length
  have hgot : got = min size bytes.length := by omega
  have hret : ssizeT got = got := ssizeT_of_lt (by omega)
  rw [hret, hgot]
  rw [hgot] at h
  exact ⟨rfl, h.read_eq⟩

/-- Asking for nothing. -/
theorem complete_zero (bytes : List UInt8) (buf : Option Mem) (offset : Nat) :
    Complete bytes 0 ⟨0, buf, offset⟩ := by
  constructor
  · simp
  · cases buf <;> simp [ReadOutcome.contents]

/-- From a state in which the array holds what has been read, the loop of `ReadFully` reads on to
the end. -/
theorem readLoop_ends (file : File) (calls : Reads file.bytes) (start k leftSize : Nat)
    {mem : Mem} {got : Nat} (h : Holds (file.bytes.drop start) mem size got)
    (hleft : got + leftSize = size) :
    Ends calls (file.bytes.drop start) size (start + min size (file.bytes.drop start).length)
      (readLoop calls size k leftSize mem (start + got)) := by
  have hlt : (file.bytes.drop start).length < 2 ^ 63 := by
    have := file.length_lt
    rw [List.length_drop]
    omega
  have hlength := h.le_length
  rw [readLoop]
  dsimp only
  split_ifs with hzero hfail hend
  · have hgot : got = size := by omega
    right
    rw [hgot] at h hlength ⊢
    refine ⟨complete_of_holds h hlt (.inl le_rfl) _, ?_⟩
    simp only
    omega
  · left
    exact ⟨rfl, rfl, k, _, _, hfail⟩
  · have hgot : size - leftSize = got := by omega
    have hall : (file.bytes.drop start).length ≤ got := by
      have := calls.answer_eq_zero _ _ _ hend
      rw [List.length_drop]
      omega
    right
    rw [hgot]
    refine ⟨complete_of_holds h hlt (.inr hall) _, ?_⟩
    simp only
    omega
  · -- a further round, in which the array holds the new piece behind the others
    have hge := calls.answer_ge k (start + got) leftSize
    have hle := calls.answer_le k (start + got) leftSize
    set n := (calls.answer k (start + got) leftSize).toNat with hn
    have hgot : size - leftSize = got := by omega
    have hdata : calls.data k (start + got) leftSize =
        ((file.bytes.drop start).drop got).take n := by
      rw [Reads.data, List.drop_drop]
    rw [hgot, hdata, Nat.add_assoc]
    have hwrite : Holds (file.bytes.drop start)
        (Memory.write mem got (((file.bytes.drop start).drop got).take n)) size (got + n) := by
      apply h.write
      · omega
      · rw [List.length_drop]
        omega
    exact readLoop_ends file calls start (k + 1) (leftSize - n) hwrite (by omega)
termination_by leftSize
decreasing_by omega

/-- The same for the loop of `ReadFully_V2`, which leaves the position where it is. -/
theorem preadLoop_ends (file : File) (calls : Reads file.bytes) (k nread offset : Nat) {mem : Mem}
    (h : Holds file.bytes mem size nread) :
    Ends calls file.bytes size offset (preadLoop calls size k nread mem offset) := by
  have hsize := h.le_size
  have hge := calls.answer_ge k nread (size - nread)
  have hle := calls.answer_le k nread (size - nread)
  rw [preadLoop]
  split_ifs with hpos hfail
  · set n := (calls.answer k nread (size - nread)).toNat with hn
    have hwrite : Holds file.bytes (Memory.write mem nread ((file.bytes.drop nread).take n)) size
        (nread + n) := by
      apply h.write
      · omega
      · omega
    exact preadLoop_ends file calls (k + 1) (nread + n) offset hwrite
  · left
    exact ⟨rfl, rfl, k, _, _, hfail⟩
  · -- nothing is left to ask for, or the file has ended
    have hend := calls.answer_eq_zero k nread (size - nread) (by omega)
    right
    exact ⟨complete_of_holds h file.length_lt (by omega) offset, rfl⟩
termination_by size - nread
decreasing_by omega

/-- `ReadFully` returns what there is from the position on, and moves the position behind it. -/
theorem readFully_ends (file : File) (calls : Reads file.bytes) {fd : Int} (hfd : fd ≠ -1)
    (buf : Option Mem) (raw : Mem) (size offset : Nat) :
    Ends calls (file.bytes.drop offset) size (offset + min size (file.bytes.drop offset).length)
      (readFully calls fd buf raw size offset) := by
  unfold readFully
  split_ifs with hnothing
  · obtain rfl : size = 0 := hnothing.resolve_left hfd
    right
    exact ⟨complete_zero _ buf offset, by simp⟩
  · exact readLoop_ends file calls offset 0 size (holds_zero _ raw size) (Nat.zero_add size)

/-- `ReadFully_V2` returns what there is from the start of the file on. -/
theorem readFullyV2_ends (file : File) (calls : Reads file.bytes) {fd : Int} (hfd : fd ≠ -1)
    (buf : Option Mem) (raw : Mem) (size offset : Nat) :
    Ends calls file.bytes size offset (readFullyV2 calls fd buf raw size offset) := by
  unfold readFullyV2
  split_ifs with hnothing
  · obtain rfl : size = 0 := hnothing.resolve_left hfd
    right
    exact ⟨complete_zero _ buf offset, rfl⟩
  · exact preadLoop_ends file calls 0 0 offset (holds_zero _ raw size)

/-- Where no call fails, a reader does not. -/
theorem Ends.complete {file bytes : List UInt8} {calls : Reads file} {size offset : Nat}
    {r : ReadOutcome} (h : Ends calls bytes size offset r) (hcalls : calls.Succeed) :
    Complete bytes size r := by
  rcases h with hfailed | ⟨hcomplete, -⟩
  · obtain ⟨k, o, count, hcause⟩ := hfailed.cause
    exact absurd hcause (hcalls k o count)
  · exact hcomplete

/-- However short their reads are, `ReadFully` from the start of a file and `ReadFully_V2` return
the same count with the same bytes: a beginning of the file, followed by zeros. -/
theorem file_readers_agree (file : File) (size : Nat) (reads preads : Reads file.bytes)
    (hreads : reads.Succeed) (hpreads : preads.Succeed) (fd fd' : Int) (hfd : fd ≠ -1)
    (hfd' : fd' ≠ -1) (buf buf' : Option Mem) (raw raw' : Mem) (offset : Nat) :
    (readFully reads fd buf raw size 0).ret = (min size file.bytes.length : Nat) ∧
      (readFullyV2 preads fd' buf' raw' size offset).ret = (min size file.bytes.length : Nat) ∧
      (readFully reads fd buf raw size 0).contents size =
        file.bytes.take size ++ List.replicate (size - file.bytes.length) 0 ∧
      (readFullyV2 preads fd' buf' raw' size offset).contents size =
        file.bytes.take size ++ List.replicate (size - file.bytes.length) 0 := by
  have hread := (readFully_ends file reads hfd buf raw size 0).complete hreads
  have hpread := (readFullyV2_ends file preads hfd' buf' raw' size offset).complete hpreads
  rw [List.drop_zero] at hread
  exact ⟨hread.ret_eq, hpread.ret_eq, hread.contents_eq, hpread.contents_eq⟩

/-- A file of four bytes is read into an array of six, by reads of one, two and one bytes and by
reads of three and one. -/
theorem file_readers_agree_four_of_six :
    (readFully (Reads.limited [1, 2, 3, 4] [0, 1]) 3 none (fun _ => 9) 6 0).ret = 4 ∧
      (readFullyV2 (Reads.limited [1, 2, 3, 4] [2]) 3 none (fun _ => 8) 6 0).contents 6 =
        [1, 2, 3, 4, 0, 0] :=
  have h := file_readers_agree ⟨[1, 2, 3, 4], by decide⟩ 6 (Reads.limited _ [0, 1])
    (Reads.limited _ [2]) (Reads.limited_succeed _ _) (Reads.limited_succeed _ _) 3 3 (by decide)
    (by decide) none none (fun _ => 9) (fun _ => 8) 0
  ⟨h.1, h.2.2.2⟩

end Readers

/-! ## The writer -/

/-- What the writer leaves: the value it returns, the file, and the position of the
descriptor. -/
structure WriteOutcome where
  ret : Int
  file : List UInt8
  offset : Nat

/-- The loop of `WriteFully`. -/
def writeLoop (calls : Writes) (mem : Mem) (size k leftSize : Nat) (file : List UInt8)
    (offset : Nat) : WriteOutcome :=
  if leftSize = 0 then ⟨ssizeT size, file, offset⟩
  else
    let n := calls.answer k leftSize
    if n = -1 then ⟨-1, file, offset⟩
    else
      writeLoop calls mem size (k + 1) (leftSize - n.toNat)
        (overwrite file offset (Memory.read mem (size - leftSize) n.toNat)) (offset + n.toNat)
termination_by leftSize
decreasing_by
  have := calls.answer_ge k leftSize
  have := calls.answer_ne_zero k leftSize (by omega)
  omega

/-- `IOUtils::WriteFully`. -/
def writeFully (calls : Writes) (fd : Int) (buf : Option Mem) (size : Nat) (file : List UInt8)
    (offset : Nat) : WriteOutcome :=
  match buf with
  | none => ⟨-1, file, offset⟩
  | some mem =>
    if fd = -1 then ⟨-1, file, offset⟩
    else if size = 0 then ⟨0, file, offset⟩
    else writeLoop calls mem size 0 size file offset

/-- The writer has failed because one of its calls did, after a beginning of the bytes. -/
structure Torn (calls : Writes) (bytes file : List UInt8) (offset : Nat) (r : WriteOutcome) :
    Prop where
  ret_eq : r.ret = -1
  file_eq : ∃ n < bytes.length, r.file = overwrite file offset (bytes.take n)
  cause : ∃ k count, calls.answer k count = -1

/-- The writer has written all the bytes. -/
structure Written (bytes file : List UInt8) (offset : Nat) (r : WriteOutcome) : Prop where
  ret_eq : r.ret = ssizeT bytes.length
  file_eq : r.file = overwrite file offset bytes
  offset_eq : r.offset = offset + bytes.length

/-- How the writer ends. -/
def WriteEnds (calls : Writes) (bytes file : List UInt8) (offset : Nat) (r : WriteOutcome) :
    Prop :=
  Torn calls bytes file offset r ∨ Written bytes file offset r

section Writer

variable {size : Nat}

/-- From a state in which the first `done` bytes are written, the loop writes on to the end. -/
theorem writeLoop_ends (calls : Writes) (mem : Mem) (file : List UInt8)
    (offset k leftSize done : Nat) (hleft : done + leftSize = size) :
    WriteEnds calls (Memory.read mem 0 size) file offset
      (writeLoop calls mem size k leftSize
        (overwrite file offset (Memory.read mem 0 done)) (offset + done)) := by
  rw [writeLoop]
  dsimp only
  split_ifs with hzero hfail
  · obtain rfl : done = size := by omega
    right
    exact ⟨by simp, rfl, by simp⟩
  · left
    refine ⟨rfl, ⟨done, ?_, ?_⟩, k, leftSize, hfail⟩
    · rw [Memory.length_read]
      omega
    · rw [← hleft, Memory.read_add, List.take_left' Memory.length_read]
  · have hge := calls.answer_ge k leftSize
    have hle := calls.answer_le k leftSize
    have hne := calls.answer_ne_zero k leftSize (by omega)
    set n := (calls.answer k leftSize).toNat with hn
    have hdone : size - leftSize = 0 + done := by omega
    have hwrite : overwrite (overwrite file offset (Memory.read mem 0 done)) (offset + done)
        (Memory.read mem (size - leftSize) n) =
          overwrite file offset (Memory.read mem 0 (done + n)) := by
      have hadjacent := overwrite_overwrite file (Memory.read mem 0 done)
        (Memory.read mem (0 + done) n) offset
      rwa [Memory.length_read, ← Memory.read_add, ← hdone] at hadjacent
    rw [hwrite, Nat.add_assoc]
    exact writeLoop_ends calls mem file offset (k + 1) (leftSize - n) (done + n) (by omega)
termination_by leftSize
decreasing_by omega

/-- `WriteFully` writes everything as if with one call, or fails with a call after a beginning of
the bytes. -/
theorem writeFully_ends (calls : Writes) {fd : Int} (hfd : fd ≠ -1) (mem : Mem) (size : Nat)
    (file : List UInt8) (offset : Nat) :
    WriteEnds calls (Memory.read mem 0 size) file offset
      (writeFully calls fd (some mem) size file offset) := by
  simp only [writeFully, if_neg hfd]
  split_ifs with hzero
  · subst hzero
    right
    refine ⟨?_, overwrite_nil.symm, rfl⟩
    rw [Memory.length_read, ssizeT_of_lt (Nat.two_pow_pos 63)]
    rfl
  · have hloop := writeLoop_ends calls mem file offset 0 size 0 (Nat.zero_add size)
    rwa [Memory.read_zero, overwrite_nil, Nat.add_zero] at hloop

theorem written_of_succeed {calls : Writes} (hcalls : calls.Succeed) {fd : Int} (hfd : fd ≠ -1)
    (mem : Mem) (size : Nat) (file : List UInt8) (offset : Nat) :
    Written (Memory.read mem 0 size) file offset
      (writeFully calls fd (some mem) size file offset) := by
  rcases writeFully_ends calls hfd mem size file offset with htorn | hwritten
  · obtain ⟨k, count, hcause⟩ := htorn.cause
    exact absurd hcause (hcalls k count)
  · exact hwritten

end Writer

end Fsio
end CCraft
