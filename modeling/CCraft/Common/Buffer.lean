import CCraft.Lib.Memory

/-!
# Buffers over pool memory

The cursor object of `buffer.h` and the view its users have of the memory pool.
Pointers are optional addresses, with {lit}`none` for the null pointer.  A buffer
owns the block its pointers run over, so the block's contents are a field of it.

The pool is seen here from the outside: `MemPool::Get(n)` hands out a private
block of at least `n` bytes with arbitrary contents.  {lit}`MemSource` carries
that promise as a field, {lit}`MemView` records what one user has obtained.

Main results:

- Theorem {lit}`Filling.append`: reading more bytes behind the last one extends
  the contents of a partly filled buffer.
- Theorem {lit}`Loaded.moveHeadBack`: consuming bytes at the head leaves the rest
  of the contents and clears the availability flag exactly at the end.
- Theorem {lit}`cursor_law_iff`: in which pieces a buffer can be consumed.
-/

namespace CCraft
namespace Common

/-! ## The pool as its users see it -/

/-- A block of memory as it comes from the pool. -/
structure MemBlock where
  pointer : Nat
  size : Nat
  mem : Mem

/-- What callers of `MemPool::Get` rely on: the `k`-th call, for `n` bytes, gives a
block that is large enough and not at the null address. -/
structure MemSource where
  alloc : Nat → Nat → MemBlock
  size_ge : ∀ k n, n ≤ (alloc k n).size
  pointer_pos : ∀ k n, 0 < (alloc k n).pointer

/-- A source that starts a new page for every block. -/
def pagePool : MemSource :=
  ⟨fun k n => ⟨4096 * (k + 1), n, fun _ => 0⟩, fun _ _ => le_rfl,
    fun k _ => Nat.mul_pos (Nat.succ_pos 4095) (Nat.succ_pos k)⟩

/-- A handle on a pool object: the block together with the number of the call
that obtained it. -/
structure MemPoolObject where
  id : Nat
  block : MemBlock

/-- What one user of the pool has obtained so far and not given back. -/
structure MemView where
  gets : Nat
  out : List Nat
deriving DecidableEq, Repr

/-- `MemPool::Get`. -/
def MemSource.get (P : MemSource) (v : MemView) (n : Nat) : MemPoolObject × MemView :=
  (⟨v.gets, P.alloc v.gets n⟩, ⟨v.gets + 1, v.out ++ [v.gets]⟩)

/-- `MemPool::Put`. -/
def MemView.put (v : MemView) (id : Nat) : MemView :=
  { v with out := v.out.erase id }

/-! ## The buffer object -/

/-- The C cast to `int32_t`. -/
def int32 (x : Int) : Int :=
  Int.bmod x (2 ^ 32)

theorem int32_eq_self {x : Int} (hlo : 0 ≤ x) (hhi : x < 2 ^ 31) : int32 x = x := by
  unfold int32
  exact Int.bmod_eq_of_le (by norm_num; omega) (by norm_num; omega)

/-- A length below `2 ^ 31` is computed from the distance of the two ends of its closed range. -/
theorem int32_pred_succ {n : Nat} (hone : 1 ≤ n) (hmax : n < 2 ^ 31) :
    int32 (int32 ((n : Int) - 1) + 1) = n := by
  have hpred : int32 ((n : Int) - 1) = (n : Int) - 1 := int32_eq_self (by omega) (by omega)
  rw [hpred, Int.sub_add_cancel]
  exact int32_eq_self (by omega) (by omega)

/-- The C cast to `uint32_t`. -/
def uint32 (x : Int) : Nat :=
  (x % 2 ^ 32).toNat

theorem uint32_natCast {n : Nat} (hn : n < 2 ^ 32) : uint32 n = n := by
  unfold uint32
  omega

/-- The C cast to `size_t`. -/
def sizeT (x : Int) : Nat :=
  (x % 2 ^ 64).toNat

theorem sizeT_natCast {n : Nat} (hn : n < 2 ^ 64) : sizeT n = n := by
  unfold sizeT
  omega

/-- `common::Buffer`: the valid range is `[pos, last]`, the whole one
`[start, endPtr]`, both closed. -/
structure Buffer where
  pos : Option Nat
  last : Option Nat
  start : Option Nat
  endPtr : Option Nat
  mpObject : Option Nat
  available : Bool
  mem : Mem

namespace Buffer

/-- `Buffer::check_available`. -/
def checkAvailable (b : Buffer) : Buffer :=
  match b.start, b.endPtr, b.pos, b.last with
  | some _, some _, some p, some l => { b with available := decide (p ≤ l) }
  | _, _, _, _ => { b with available := false }

/-- `Buffer::Refresh` on a buffer that holds nothing: the pointers are set and the
availability is recomputed.  What a buffer that does hold something gives up is
{lit}`Buffer.gives`. -/
def refresh (pos last start endPtr : Option Nat) (mpObject : Option Nat) (mem : Mem) : Buffer :=
  checkAvailable ⟨pos, last, start, endPtr, mpObject, false, mem⟩

/-- What `Refresh` releases of the old contents: the pool object if there is one,
else the array at `start`, which is then handed to `delete[]`. -/
inductive Given where
  | nothing
  | put (id : Nat)
  | deleteArray (p : Nat)
deriving DecidableEq, Repr

/-- The release that `Refresh`, `Put` and the destructor start with. -/
def gives (b : Buffer) : Given :=
  match b.mpObject, b.start with
  | some id, _ => .put id
  | none, some p => .deleteArray p
  | none, none => .nothing

/-- `Buffer::Valid`. -/
def valid (b : Buffer) : Bool :=
  b.available

/-- `Buffer::BZero`. -/
def bZero (b : Buffer) : Buffer :=
  let mem := match b.start, b.endPtr with
    | some s, some e => Memory.zero b.mem s (e - s + 1)
    | _, _ => b.mem
  { b with pos := none, last := none, available := false, mem := mem }

/-- `Buffer::MoveHeadBack`; `n - 1` is computed in `uint32_t`. -/
def moveHeadBack (b : Buffer) (n : Nat) : Buffer :=
  match b.pos, b.last with
  | some p, some l =>
    { b with
      available := decide ((l : Int) - p > ((n + (2 ^ 32 - 1)) % 2 ^ 32 : Nat))
      pos := some (p + n) }
  | _, _ => { b with available := false }

/-- `Buffer::MoveTailBack`. -/
def moveTailBack (b : Buffer) (n : Nat) : Buffer :=
  match b.last with
  | some l => { b with last := some (l + n) }
  | none => checkAvailable { b with last := b.start.map fun s => s + n - 1 }

/-- `Buffer::TotalLength`.  The addition is one of `int32_t` and wraps round behind
`2 ^ 31 - 1`. -/
def totalLength (b : Buffer) : Int :=
  match b.start, b.endPtr with
  | some s, some e => int32 (int32 ((e : Int) - s) + 1)
  | _, _ => 0

/-- `Buffer::AvailableLength`, with the addition of `TotalLength`. -/
def availableLength (b : Buffer) : Int :=
  if b.available then
    match b.last, b.pos with
    | some l, some p => int32 (int32 ((l : Int) - p) + 1)
    | _, _ => 0
  else 0

/-- `Buffer::UnusedSize`. -/
def unusedSize (b : Buffer) : Nat :=
  if b.available then
    match b.endPtr, b.last, b.start with
    | some e, some l, _ => e - l
    | some e, none, some s => e - s + 1
    | _, _, _ => 0
  else 0

/-- `Buffer::SetPos`. -/
def setPos (b : Buffer) (p : Option Nat) : Buffer :=
  checkAvailable { b with pos := p }

/-- The bytes in the valid range. -/
def bytes (b : Buffer) : List UInt8 :=
  match b.pos with
  | some p => Memory.read b.mem p b.availableLength.toNat
  | none => []

end Buffer

/-! ## The valid range and its head -/

section Head

variable {b : Buffer} {p l L n : Nat}

/-- The available length is the length of the closed range `[pos, last]`. -/
theorem Buffer.availableLength_of_range (hpos : b.pos = some p) (hlast : b.last = some l)
    (havail : b.available = true) (hlen : p + L = l + 1) (hone : 1 ≤ L) (hmax : L < 2 ^ 31) :
    b.availableLength = L := by
  have hsub : (l : Int) - p = (L : Int) - 1 := by omega
  unfold Buffer.availableLength
  rw [havail, hpos, hlast]
  simp only [if_true, hsub]
  exact int32_pred_succ hone hmax

/-- Moving the head replaces the position and the flag, whatever the flag was before. -/
theorem Buffer.moveHeadBack_eq (hpos : b.pos = some p) (hlast : b.last = some l) (n : Nat) :
    b.moveHeadBack n =
      { b with
        pos := some (p + n)
        available := decide ((l : Int) - p > ((n + (2 ^ 32 - 1)) % 2 ^ 32 : Nat)) } := by
  simp only [Buffer.moveHeadBack, hpos, hlast]

/-- The flag says that bytes are left, except that an empty move always clears it. -/
theorem headFlag_iff (hlen : p + L = l + 1) (hmax : L < 2 ^ 31) (hn : n ≤ L) :
    (l : Int) - p > ((n + (2 ^ 32 - 1)) % 2 ^ 32 : Nat) ↔ 1 ≤ n ∧ n < L := by
  rcases Nat.eq_zero_or_pos n with rfl | hpos
  · omega
  · have hmod : (n + (2 ^ 32 - 1)) % 2 ^ 32 = n - 1 := by omega
    rw [hmod]
    omega

end Head

/-! ## Filling a buffer from its tail -/

/-- The buffer spans `n` bytes from address `a` on. -/
structure Spans (b : Buffer) (a n : Nat) : Prop where
  start_eq : b.start = some a
  end_eq : b.endPtr = some (a + n - 1)
  size_pos : 1 ≤ n
  size_lt : n < 2 ^ 31

/-- The first bytes of a buffer of `n` bytes hold `bs` and `[pos, last]` covers
exactly them. -/
structure Filling (b : Buffer) (a n : Nat) (bs : List UInt8) : Prop extends Spans b a n where
  pos_eq : b.pos = some a
  last_eq : b.last = some (a + bs.length - 1)
  available_eq : b.available = true
  nonempty : 1 ≤ bs.length
  fits : bs.length ≤ n
  read_eq : Memory.read b.mem a bs.length = bs

section Filling

variable {b : Buffer} {a n : Nat} {bs : List UInt8}

theorem Spans.totalLength_eq (h : Spans b a n) : b.totalLength = n := by
  have h1 := h.size_pos
  have h2 := h.size_lt
  have hsub : ((a + n - 1 : Nat) : Int) - a = (n : Int) - 1 := by omega
  unfold Buffer.totalLength
  rw [h.start_eq, h.end_eq]
  simp only [hsub]
  exact int32_pred_succ h1 h2

theorem Spans.bZero (h : Spans b a n) : Spans b.bZero a n :=
  ⟨h.start_eq, h.end_eq, h.size_pos, h.size_lt⟩

theorem Filling.availableLength_eq (h : Filling b a n bs) :
    b.availableLength = bs.length := by
  have h1 := h.nonempty
  have h2 := h.fits
  have h3 := h.size_lt
  have hlen : a + bs.length = a + bs.length - 1 + 1 := by omega
  exact Buffer.availableLength_of_range h.pos_eq h.last_eq h.available_eq hlen h1 (by omega)

theorem Filling.bytes_eq (h : Filling b a n bs) : b.bytes = bs := by
  unfold Buffer.bytes
  rw [h.pos_eq, h.availableLength_eq]
  exact h.read_eq

theorem Filling.unusedSize_eq (h : Filling b a n bs) :
    b.unusedSize = n - bs.length := by
  have h1 := h.nonempty
  have h2 := h.fits
  unfold Buffer.unusedSize
  rw [h.available_eq, h.end_eq, h.last_eq]
  simp only [if_true]
  omega

/-- The first bytes read into a buffer without a last pointer start its contents. -/
theorem Spans.fill {new : List UInt8} (h : Spans b a n) (hlast : b.last = none)
    (hnew : 1 ≤ new.length) (hfit : new.length ≤ n) :
    Filling ((({ b with mem := Memory.write b.mem a new } : Buffer).setPos
      b.start).moveTailBack new.length) a n new := by
  have hs := h.start_eq
  have he := h.end_eq
  have hle : a ≤ a + new.length - 1 := by omega
  refine ⟨⟨?_, ?_, h.size_pos, h.size_lt⟩, ?_, ?_, ?_, hnew, hfit, ?_⟩ <;>
    simp [Buffer.setPos, Buffer.moveTailBack, Buffer.checkAvailable, hs, he, hlast, hle,
      Memory.read_write_self]

/-- Reading more bytes behind the last one extends the contents. -/
theorem Filling.append {new : List UInt8} (h : Filling b a n bs)
    (hfit : bs.length + new.length ≤ n) :
    Filling (({ b with mem := Memory.write b.mem (a + bs.length) new } : Buffer).moveTailBack
      new.length) a n (bs ++ new) := by
  have hl := h.last_eq
  have h1 := h.nonempty
  refine ⟨⟨?_, ?_, h.size_pos, h.size_lt⟩, ?_, ?_, ?_, ?_, ?_, ?_⟩
  · simpa [Buffer.moveTailBack, hl] using h.start_eq
  · simpa [Buffer.moveTailBack, hl] using h.end_eq
  · simpa [Buffer.moveTailBack, hl] using h.pos_eq
  · simp only [Buffer.moveTailBack, hl, List.length_append, Option.some.injEq]
    omega
  · simpa [Buffer.moveTailBack, hl] using h.available_eq
  · rw [List.length_append]
    omega
  · simpa using hfit
  · simp only [Buffer.moveTailBack, hl, List.length_append]
    rw [Memory.read_write_extend _ _ rfl, h.read_eq]

end Filling

/-! ## Draining a buffer from its head -/

/-- The valid range holds exactly the bytes `bs`, at least one of them. -/
structure Loaded (b : Buffer) (bs : List UInt8) : Prop where
  nonempty : 1 ≤ bs.length
  size_lt : bs.length < 2 ^ 31
  available_eq : b.available = true
  cursor : ∃ p, b.pos = some p ∧ b.last = some (p + bs.length - 1) ∧
    Memory.read b.mem p bs.length = bs

section Loaded

variable {b : Buffer} {bs : List UInt8}

theorem Loaded.availableLength_eq (h : Loaded b bs) : b.availableLength = bs.length := by
  obtain ⟨p, hp, hl, -⟩ := h.cursor
  have h1 := h.nonempty
  have hlen : p + bs.length = p + bs.length - 1 + 1 := by omega
  exact Buffer.availableLength_of_range hp hl h.available_eq hlen h1 h.size_lt

theorem Loaded.bytes_eq (h : Loaded b bs) : b.bytes = bs := by
  obtain ⟨p, hp, -, hread⟩ := h.cursor
  unfold Buffer.bytes
  rw [hp, h.availableLength_eq]
  exact hread

theorem Filling.loaded {a n : Nat} (h : Filling b a n bs) : Loaded b bs :=
  ⟨h.nonempty, lt_of_le_of_lt h.fits h.size_lt, h.available_eq, a, h.pos_eq, h.last_eq,
    h.read_eq⟩

/-- Consuming all the bytes clears the availability flag. -/
theorem Loaded.moveHeadBack_all (h : Loaded b bs) :
    (b.moveHeadBack bs.length).availableLength = 0 := by
  obtain ⟨p, hp, hl, -⟩ := h.cursor
  have h1 := h.nonempty
  have hlen : p + bs.length = p + bs.length - 1 + 1 := by omega
  have hflag := headFlag_iff hlen h.size_lt le_rfl
  simp only [Buffer.availableLength, Buffer.moveHeadBack_eq hp hl, hflag, lt_irrefl, and_false,
    decide_false, Bool.false_eq_true, if_false]

/-- Consuming some but not all of the bytes leaves the rest of them. -/
theorem Loaded.moveHeadBack {n : Nat} (h : Loaded b bs) (hn : 1 ≤ n) (hlt : n < bs.length) :
    Loaded (b.moveHeadBack n) (bs.drop n) := by
  obtain ⟨p, hp, hl, hread⟩ := h.cursor
  have h2 := h.size_lt
  have hlen : p + bs.length = p + bs.length - 1 + 1 := by omega
  have hflag := (headFlag_iff hlen h2 hlt.le).2 ⟨hn, hlt⟩
  have hdrop : (bs.drop n).length = bs.length - n := List.length_drop
  have hrest : Memory.read b.mem (p + n) (bs.length - n) = bs.drop n := by
    have hsplit := Memory.read_add (m := b.mem) (a := p) (n := n) (k := bs.length - n)
    rw [show n + (bs.length - n) = bs.length by omega, hread] at hsplit
    rw [hsplit, List.drop_append_of_le_length (by simp)]
    simp
  rw [Buffer.moveHeadBack_eq hp hl]
  refine ⟨by omega, by omega, decide_eq_true hflag, p + n, rfl, ?_, ?_⟩
  · rw [hdrop]
    refine hl.trans (congrArg some ?_)
    omega
  · rw [hdrop]
    exact hrest

/-- Consuming a beginning of the bytes leaves the rest of them, also when that is none. -/
theorem Loaded.bytes_moveHeadBack {front rest : List UInt8} (h : Loaded b (front ++ rest))
    (hfront : 1 ≤ front.length) : (b.moveHeadBack front.length).bytes = rest := by
  by_cases hrest : rest = []
  · subst hrest
    rw [List.append_nil] at h
    have hall := h.moveHeadBack_all
    unfold Buffer.bytes
    split
    · rw [hall]
      rfl
    · rfl
  · have hlt : front.length < (front ++ rest).length := by
      rw [List.length_append]
      exact Nat.lt_add_of_pos_right (List.length_pos_iff.2 hrest)
    have hloaded := h.moveHeadBack hfront hlt
    rw [List.drop_left] at hloaded
    exact hloaded.bytes_eq

/-- A buffer that holds the given bytes. -/
def Buffer.holding (bs : List UInt8) : Buffer :=
  Buffer.refresh (some 1) (some bs.length) (some 1) (some bs.length) none
    (Memory.write (fun _ => 0) 1 bs)

theorem Buffer.holding_loaded {bs : List UInt8} (hpos : 1 ≤ bs.length)
    (hlt : bs.length < 2 ^ 31) : Loaded (Buffer.holding bs) bs := by
  refine ⟨hpos, hlt, ?_, 1, rfl, ?_, ?_⟩
  · simp only [Buffer.holding, Buffer.refresh, Buffer.checkAvailable, decide_eq_true_eq]
    exact hpos
  · simp only [Buffer.holding, Buffer.refresh, Buffer.checkAvailable, Option.some.injEq]
    omega
  · exact Memory.read_write_self _ 1 bs

end Loaded

/-! ## Consuming a buffer in pieces -/

/-- One `MoveHeadBack` after the other. -/
def Buffer.consume (b : Buffer) (ns : List Nat) : Buffer :=
  ns.foldl Buffer.moveHeadBack b

/-- `s` of the `L` bytes from `p` on are consumed. -/
structure Consumed (b : Buffer) (p L s : Nat) : Prop where
  pos_eq : b.pos = some (p + s)
  availableLength_eq : b.availableLength = (L : Int) - s
  valid_iff : b.valid = true ↔ s < L

/-- After each of the moves exactly their sum is consumed, as if by a single move. -/
def CursorLaw (b : Buffer) (p L : Nat) (ns : List Nat) : Prop :=
  ∀ j ≤ ns.length,
    Consumed (b.consume (ns.take j)) p L (ns.take j).sum ∧
    (1 ≤ j → b.consume (ns.take j) = b.moveHeadBack (ns.take j).sum)

section Consume

variable {b : Buffer} {p l L n : Nat} {ns : List Nat}

@[simp]
theorem Buffer.consume_nil (b : Buffer) : b.consume [] = b :=
  rfl

theorem Buffer.consume_concat (b : Buffer) (ns : List Nat) (n : Nat) :
    b.consume (ns ++ [n]) = (b.consume ns).moveHeadBack n := by
  rw [Buffer.consume, List.foldl_append]
  rfl

/-- Moves change the position by their sum, and otherwise at most the flag. -/
theorem Buffer.consume_frame (hpos : b.pos = some p) (hlast : b.last = some l) (ns : List Nat) :
    ∃ flag, b.consume ns = { b with pos := some (p + ns.sum), available := flag } := by
  induction ns generalizing b p with
  | nil =>
    refine ⟨b.available, ?_⟩
    rw [List.sum_nil, Nat.add_zero, ← hpos]
    rfl
  | cons n ns ih =>
    have hmove := Buffer.moveHeadBack_eq hpos hlast n
    obtain ⟨flag, hrest⟩ := ih (b := b.moveHeadBack n) (p := p + n) (by rw [hmove])
      (by rw [hmove]; exact hlast)
    refine ⟨flag, ?_⟩
    rw [List.sum_cons, ← Nat.add_assoc]
    exact hrest.trans (by rw [hmove])

/-- The last move alone decides about the flag. -/
theorem Buffer.consume_concat_eq (hpos : b.pos = some p) (hlast : b.last = some l)
    (hlen : p + L = l + 1) (hmax : L < 2 ^ 31) (ns : List Nat) (n : Nat)
    (hsum : ns.sum + n ≤ L) :
    b.consume (ns ++ [n]) =
      { b with
        pos := some (p + (ns.sum + n))
        available := decide (1 ≤ n ∧ ns.sum + n < L) } := by
  obtain ⟨flag, hframe⟩ := Buffer.consume_frame hpos hlast ns
  have hlast' : (b.consume ns).last = some l := by rw [hframe]; exact hlast
  have hflag : (l : Int) - (p + ns.sum : Nat) > ((n + (2 ^ 32 - 1)) % 2 ^ 32 : Nat) ↔
      1 ≤ n ∧ n < L - ns.sum := headFlag_iff (by omega) (by omega) (by omega)
  have hleft : n < L - ns.sum ↔ ns.sum + n < L := by omega
  rw [Buffer.consume_concat, Buffer.moveHeadBack_eq (by rw [hframe]) hlast', hframe]
  simp only [hflag, hleft, Nat.add_assoc]

/-- A position and a flag that fit together. -/
theorem Consumed.of_flag {s : Nat} (hpos : b.pos = some (p + s)) (hlast : b.last = some l)
    (hlen : p + L = l + 1) (hmax : L < 2 ^ 31) (hs : s ≤ L)
    (hflag : b.available = decide (s < L)) : Consumed b p L s := by
  refine ⟨hpos, ?_, ?_⟩
  · by_cases hlt : s < L
    · have havail : b.available = true := by rw [hflag]; exact decide_eq_true hlt
      have hleft : p + s + (L - s) = l + 1 := by omega
      rw [Buffer.availableLength_of_range hpos hlast havail hleft (by omega) (by omega)]
      omega
    · have havail : b.available = false := by rw [hflag]; exact decide_eq_false hlt
      simp only [Buffer.availableLength, havail, Bool.false_eq_true, if_false]
      omega
  · rw [Buffer.valid, hflag, decide_eq_true_eq]

/-- A further move consumes what it should, and the moves together as much as one move over
their sum, unless it is an empty move before the end. -/
theorem Buffer.consumed_concat_iff (hpos : b.pos = some p) (hlast : b.last = some l)
    (hlen : p + L = l + 1) (hmax : L < 2 ^ 31) (hsum : ns.sum + n ≤ L) :
    Consumed (b.consume (ns ++ [n])) p L (ns.sum + n) ∧
      b.consume (ns ++ [n]) = b.moveHeadBack (ns.sum + n) ↔ (n = 0 → ns.sum = L) := by
  have hpieces := Buffer.consume_concat_eq hpos hlast hlen hmax ns n hsum
  have honce := Buffer.consume_concat_eq hpos hlast hlen hmax [] (ns.sum + n) (by simpa using hsum)
  rw [Buffer.consume_concat, Buffer.consume_nil, List.sum_nil, Nat.zero_add] at honce
  rw [hpieces, honce]
  constructor
  · rintro ⟨hconsumed, -⟩ hn
    have hvalid := hconsumed.valid_iff
    simp only [Buffer.valid, decide_eq_true_eq] at hvalid
    omega
  · intro hempty
    have hflag : decide (1 ≤ n ∧ ns.sum + n < L) = decide (ns.sum + n < L) :=
      decide_eq_decide.2 (by omega)
    have hflag' : decide (1 ≤ ns.sum + n ∧ ns.sum + n < L) = decide (ns.sum + n < L) :=
      decide_eq_decide.2 (by omega)
    rw [hflag, hflag']
    exact ⟨Consumed.of_flag rfl hlast hlen hmax hsum rfl, rfl⟩

/-- The same for the move with index `j` of a sequence. -/
theorem Buffer.consumed_take_iff (hpos : b.pos = some p) (hlast : b.last = some l)
    (hlen : p + L = l + 1) (hmax : L < 2 ^ 31) {j : Nat} (hj : j < ns.length)
    (hsum : (ns.take (j + 1)).sum ≤ L) :
    Consumed (b.consume (ns.take (j + 1))) p L (ns.take (j + 1)).sum ∧
      b.consume (ns.take (j + 1)) = b.moveHeadBack (ns.take (j + 1)).sum ↔
      (ns[j] = 0 → (ns.take j).sum = L) := by
  rw [← List.take_concat_get' ns j hj, List.sum_append, List.sum_singleton] at hsum ⊢
  exact Buffer.consumed_concat_iff hpos hlast hlen hmax hsum

/-- Whatever pieces a buffer with `L` bytes is consumed in, each move advances the position and
reduces the available length by its piece and keeps the buffer valid while bytes are left,
exactly when no piece is empty before everything is consumed. -/
theorem cursor_law_iff (b : Buffer) (p l L : Nat) (ns : List Nat) (hpos : b.pos = some p)
    (hlast : b.last = some l) (hlen : p + L = l + 1) (hL : b.availableLength = L)
    (hone : 1 ≤ L) (hmax : L < 2 ^ 31) (hsum : ∀ j ≤ ns.length, (ns.take j).sum ≤ L) :
    CursorLaw b p L ns ↔ ∀ j (hj : j < ns.length), ns[j] = 0 → (ns.take j).sum = L := by
  constructor
  · intro hlaw j hj
    obtain ⟨hconsumed, honce⟩ := hlaw (j + 1) hj
    apply (Buffer.consumed_take_iff hpos hlast hlen hmax hj (hsum (j + 1) hj)).1
    exact ⟨hconsumed, honce (by omega)⟩
  · intro hempty j hj
    cases j with
    | zero =>
      have havail : b.available = true := by
        by_contra hnot
        simp only [Buffer.availableLength, hnot, if_false] at hL
        omega
      have hflag : b.available = decide (0 < L) := by
        rw [havail]
        exact (decide_eq_true hone).symm
      refine ⟨Consumed.of_flag hpos hlast hlen hmax (Nat.zero_le L) hflag, ?_⟩
      intro hpositive
      omega
    | succ j =>
      obtain ⟨hconsumed, honce⟩ :=
        (Buffer.consumed_take_iff hpos hlast hlen hmax hj (hsum (j + 1) hj)).2 (hempty j hj)
      exact ⟨hconsumed, fun _ => honce⟩

/-- Three bytes in pieces of one and two, with an empty one behind them. -/
theorem cursor_law_iff_three_bytes :
    (Buffer.holding [7, 8, 9]).availableLength = 3 ∧
      CursorLaw (Buffer.holding [7, 8, 9]) 1 3 [1, 2, 0] :=
  ⟨by decide, (cursor_law_iff (Buffer.holding [7, 8, 9]) 1 3 3 [1, 2, 0] rfl rfl rfl (by decide)
    (by decide) (by decide) (by decide)).2 (by decide)⟩

/-- An empty piece in the middle: two bytes are left, and the buffer says that there are none. -/
theorem empty_piece_ends_buffer :
    (Buffer.holding [7, 8, 9]).availableLength = 3 ∧
      ((Buffer.holding [7, 8, 9]).consume [1]).availableLength = 2 ∧
      ((Buffer.holding [7, 8, 9]).consume [1, 0]).pos = some 2 ∧
      ((Buffer.holding [7, 8, 9]).consume [1, 0]).availableLength = 0 ∧
      ((Buffer.holding [7, 8, 9]).consume [1, 0]).valid = false ∧
      ¬ CursorLaw (Buffer.holding [7, 8, 9]) 1 3 [1, 0] := by
  refine ⟨by decide, by decide, by decide, by decide, by decide, ?_⟩
  intro hlaw
  have hlength := (hlaw 2 (by decide)).1.availableLength_eq
  revert hlength
  decide

end Consume
end Common
end CCraft
