import CCraft.Lib.Fallible
import CCraft.Lib.OrderedMap
import CCraft.MemPool.Sizes

/-!
# The memory pool

An embedding of `MemPool`.  The free objects of a slot are kept in lists under
the pages they belong to; the slots of tiny, small and big objects are fixed by
the constructor, the slots of bulk objects come and go in two indexes, one of
which refers into the other.

Undefined behaviour of the source (an end iterator or an empty list that is
dereferenced, an iterator or a pointer to an erased node, a block freed twice) is
a {lit}`Fault`; a pool with a fault takes no further step.  The iteration order of
the unordered containers and the results of `PosixMemAlign` are inputs.
-/

namespace CCraft
namespace MemPool

open Slab PageMap Fallible

/-! ## Objects and slots -/

/-- `MemObjectType`. -/
inductive MemObjectType where
  | tiny
  | small
  | big
  | bulk
deriving DecidableEq, Repr

/-- The fields of a `MemObject`. -/
structure MemObject where
  type : MemObjectType
  slotSize : Nat
  objPv : Nat
  objPagePv : Nat
deriving DecidableEq, Repr

inductive Fault where
  | noSlot
  | emptyList
  | divideByZero
  | danglingEntry
  | erasedIterator
  | noPageSet
  | badFree
deriving DecidableEq, Repr

/-- The faults of a search that meets an empty or a removed slot. -/
def Fault.OfSearch : Fault → Prop
  | .emptyList => True
  | .danglingEntry => True
  | .erasedIterator => True
  | _ => False

/-- `SlotObjPage`. -/
structure SlotObjPage where
  objs : PageMap Nat Nat
  cnt : Nat

def SlotObjPage.empty : SlotObjPage :=
  ⟨∅, 0⟩

/-- The page set of a slot and its free objects. -/
structure Slot where
  pages : Finset Nat
  free : SlotObjPage

/-- `alloc_page_objs`, with the result of `PosixMemAlign`. -/
def allocPageObjs (size slotSize : Nat) (objP : Option Nat) (pages : Finset Nat)
    (freeObjs : PageMap Nat Nat) : Except Fault (Option (Finset Nat × PageMap Nat Nat)) :=
  match objP with
  | some pagePv =>
    if slotSize = 0 then .error .divideByZero
    else .ok (some (insert pagePv pages,
      freeObjs.insert pagePv (splitMemPage slotSize pagePv size)))
  | none => .ok none

/-- `get_free_obj_from_slot_page`: the page and the object, if there is one. -/
def getFreeObjFromSlotPage (it : IterOrder Nat) (pages : PageMap Nat Nat) :
    Except Fault (Option (Nat × Nat) × PageMap Nat Nat) :=
  match it.order pages.keys with
  | [] => .ok (none, pages)
  | slotPagePv :: _ =>
    match popFront pages slotPagePv with
    | some (objPv, pages) => .ok (some (slotPagePv, objPv), pages)
    | none => .error .emptyList

/-- The first half of `Get` in a slot: when nothing is free, a new block is split. -/
def Slot.expand (expandPageSize slotSize : Nat) (objP : Option Nat) (s : Slot) :
    Except Fault (Slot × Option Nat) := do
  if s.free.objs.keys = [] then
    match ← allocPageObjs expandPageSize slotSize objP s.pages s.free.objs with
    | some (pages, objs) => .ok (⟨pages, ⟨objs, expandPageSize / slotSize⟩⟩, objP)
    | none => .ok (s, none)
  else .ok (s, none)

/-- The second half of `Get` in a slot: the first object of some page is taken. -/
def Slot.take (it : IterOrder Nat) (s : Slot) : Except Fault (Option (Nat × Nat) × Slot) := do
  let (got, objs) ← getFreeObjFromSlotPage it s.free.objs
  match got with
  | some _ => .ok (got, { s with free := ⟨objs, u32 (s.free.cnt + (2 ^ 32 - 1))⟩ })
  | none => .ok (none, s)

/-- `put` in a slot: the object goes back to its page, and when there are too many free
objects the first page whose objects are all free is given up. -/
def Slot.put (residentCnts onePageObjsCnt : Nat) (it : IterOrder Nat) (objPv objPagePv : Nat)
    (s : Slot) : Slot × Option Nat :=
  let objs := pushBack s.free.objs objPagePv objPv
  let cnt := u32 (s.free.cnt + 1)
  if cnt ≥ u32 (residentCnts + onePageObjsCnt) then
    match (it.order objs.keys).find? fun p => (listAt objs p).length = onePageObjsCnt with
    | some freePtr =>
      (⟨s.pages.erase freePtr, ⟨objs.erase freePtr, u32 (cnt + (2 ^ 32 - onePageObjsCnt))⟩⟩,
        some freePtr)
    | none => (⟨s.pages, ⟨objs, cnt⟩⟩, none)
  else (⟨s.pages, ⟨objs, cnt⟩⟩, none)

/-! ## Bulk slots -/

/-- A node of the hash index; the stamp tells nodes apart that have lived under one
key. -/
structure HashEntry where
  stamp : Nat
  page : SlotObjPage

/-- A pointer to a node of the hash index. -/
structure EntryPtr where
  slot : Nat
  stamp : Nat
deriving DecidableEq, Repr

/-- `m_bulk_obj_pages`, `m_free_hash_bulk_objs` and `m_free_bulk_objs`, and the number
of nodes made so far. -/
structure Bulk where
  pages : AList fun _ : Nat => Finset Nat
  hash : AList fun _ : Nat => HashEntry
  ordered : OrderedMap EntryPtr
  nodes : Nat

/-- What `get_suitable_bulk_page` found. -/
structure Suitable where
  slotIdx : Nat
  objPv : Nat
  pagePv : Nat
deriving DecidableEq, Repr

namespace Bulk

def empty : Bulk :=
  ⟨∅, ∅, OrderedMap.empty, 0⟩

/-- The first object of the first page of a slot, which is expected to have one. -/
def takeFirst (it : IterOrder Nat) (objs : PageMap Nat Nat) :
    Except Fault (Nat × Nat × PageMap Nat Nat) :=
  match it.order objs.keys with
  | [] => .error .emptyList
  | pagePv :: _ =>
    match popFront objs pagePv with
    | some (objPv, objs) => .ok (pagePv, objPv, objs)
    | none => .error .emptyList

/-- Follow a pointer of the ordered index. -/
def deref (b : Bulk) (ptr : EntryPtr) : Except Fault HashEntry :=
  match b.hash.lookup ptr.slot with
  | some e => if e.stamp = ptr.stamp then .ok e else .error .danglingEntry
  | none => .error .danglingEntry

/-- The exact match of `get_suitable_bulk_page`. -/
def takeExact (it : IterOrder Nat) (b : Bulk) (n : Nat) (e : HashEntry) :
    Except Fault (Suitable × Bulk) := do
  let (pagePv, objPv, objs) ← takeFirst it e.page.objs
  if objs.keys = [] then
    .ok (⟨n, objPv, pagePv⟩, { b with hash := b.hash.erase n, ordered := b.ordered.erase n })
  else
    .ok (⟨n, objPv, pagePv⟩,
      { b with hash := b.hash.insert n ⟨e.stamp, ⟨objs, e.page.cnt⟩⟩ })

/-- The case of `get_suitable_bulk_page` in which the smallest slot is taken.  After
its last object the node of the ordered index is erased and then read once more
for its key. -/
def takeSmallest (it : IterOrder Nat) (b : Bulk) (s : Nat) (ptr : EntryPtr) :
    Except Fault (Suitable × Bulk) := do
  let e ← b.deref ptr
  let (pagePv, objPv, objs) ← takeFirst it e.page.objs
  if objs.keys = [] then .error .erasedIterator
  else
    .ok (⟨s, objPv, pagePv⟩,
      { b with hash := b.hash.insert ptr.slot ⟨e.stamp, ⟨objs, e.page.cnt⟩⟩ })

/-- The case of `get_suitable_bulk_page` in which a slot is found on the way down from
the largest.  After its last object the node of the ordered index is erased, and
the reverse iterator then stands on the slot before it, whose hash entry goes. -/
def takeScanned (it : IterOrder Nat) (b : Bulk) (s : Nat) (ptr : EntryPtr) :
    Except Fault (Suitable × Bulk) := do
  let e ← b.deref ptr
  let (pagePv, objPv, objs) ← takeFirst it e.page.objs
  let hash := b.hash.insert ptr.slot ⟨e.stamp, ⟨objs, e.page.cnt⟩⟩
  if objs.keys = [] then
    match b.ordered.below? s with
    | some (s', _) =>
      .ok (⟨s, objPv, pagePv⟩, { b with hash := hash.erase s', ordered := b.ordered.erase s })
    | none => .error .erasedIterator
  else .ok (⟨s, objPv, pagePv⟩, { b with hash := hash })

/-- `get_suitable_bulk_page`. -/
def getSuitableBulkPage (it : IterOrder Nat) (needSlotIdx : Nat) (b : Bulk) :
    Except Fault (Option Suitable × Bulk) :=
  match b.hash.lookup needSlotIdx with
  | some e => do
    let (found, b) ← b.takeExact it needSlotIdx e
    .ok (some found, b)
  | none =>
    match b.ordered.first?, b.ordered.last? with
    | some (slotBegin, ptr), some (slotLast, _) =>
      -- `needSlotIdx * 2.0` in single precision, exact below `2 ^ 24`
      let maxPageSize := needSlotIdx * 2
      if slotLast < needSlotIdx then .ok (none, b)
      else if slotBegin > needSlotIdx then
        if slotBegin > maxPageSize then .ok (none, b)
        else do
          let (found, b) ← b.takeSmallest it slotBegin ptr
          .ok (some found, b)
      else
        match b.ordered.findLast? fun s => needSlotIdx < s && s ≤ maxPageSize with
        | some (s, ptr) => do
          let (found, b) ← b.takeScanned it s ptr
          .ok (some found, b)
        | none => .ok (none, b)
    | _, _ => .ok (none, b)

end Bulk

/-! ## The pool -/

/-- A call of `free`, with the objects that were outstanding at that moment. -/
structure FreeRecord where
  page : Nat
  outstanding : List MemObject
deriving DecidableEq, Repr

/-- A pool with its users and its heap.  `MemObject` wrappers are numbers; a wrapper is
outstanding, on its way back between the two halves of `Put`, or in
`m_free_mem_objs`.  The live blocks carry the slot they were obtained for. -/
structure Pool where
  slots : Key → Option Slot
  bulk : Bulk
  objects : Nat → MemObject
  made : Nat
  freeMemObjs : List Nat
  retired : List Nat
  out : List Nat
  live : List (Block Key)
  frees : List FreeRecord
  fault : Option Fault

namespace Pool

/-- The constructor; `m_free_tiny_objs_cnt` is left uninitialised. -/
def init (c : Config) (garbage : Nat) : Pool where
  slots k :=
    match k with
    | .tiny => some ⟨∅, ⟨∅, garbage⟩⟩
    | .bulk _ => none
    | k => if c.Valid k then some ⟨∅, SlotObjPage.empty⟩ else none
  bulk := Bulk.empty
  objects _ := ⟨.tiny, 0, 0, 0⟩
  made := 0
  freeMemObjs := []
  retired := []
  out := []
  live := []
  frees := []
  fault := none

/-- `get_mem_object`: the wrapper of a new outstanding object. -/
def getMemObject (s : Pool) (o : MemObject) : Nat × Pool :=
  match s.freeMemObjs with
  | h :: rest =>
    (h, { s with
      objects := Function.update s.objects h o
      freeMemObjs := rest
      out := s.out ++ [h] })
  | [] =>
    (s.made, { s with
      objects := Function.update s.objects s.made o
      made := s.made + 1
      out := s.out ++ [s.made] })

/-- Add the block that an allocation has obtained for a slot. -/
def addLive (s : Pool) (k : Key) (objP : Option Nat) : Pool :=
  match objP with
  | some p => { s with live := ⟨k, p⟩ :: s.live }
  | none => s

def setSlot (s : Pool) (k : Key) (slot : Slot) : Pool :=
  { s with slots := Function.update s.slots k (some slot) }

def setBulk (s : Pool) (b : Bulk) : Pool :=
  { s with bulk := b }

/-- The outstanding objects. -/
def outstanding (s : Pool) : List MemObject :=
  s.out.map s.objects

/-- `free`. -/
def freeBlock (s : Pool) (p : Nat) : Except Fault Pool :=
  match s.live.find? fun b => b.addr = p with
  | some b =>
    .ok { s with live := s.live.erase b, frees := s.frees ++ [⟨p, s.outstanding⟩] }
  | none => .error .badFree

/-- `Get` in a slot of tiny, small or big objects. -/
def getSlot (s : Pool) (type : MemObjectType) (k : Key) (slotSize expandPageSize : Nat)
    (objP : Option Nat) (it : IterOrder Nat) : Except Fault (Option Nat × Pool) :=
  match s.slots k with
  | none => .error .noSlot
  | some slot => do
    let (slot, newPage) ← slot.expand expandPageSize slotSize objP
    let (got, slot) ← slot.take it
    let s := (s.addLive k newPage).setSlot k slot
    match got with
    | some (pagePv, objPv) =>
      let (h, s) := s.getMemObject ⟨type, slotSize, objPv, pagePv⟩
      .ok (some h, s)
    | none => .ok (none, s)

def getTiny (c : Config) (s : Pool) (objP : Option Nat) (it : IterOrder Nat) :
    Except Fault (Option Nat × Pool) :=
  s.getSlot .tiny .tiny tinyObjThreshold c.sysPageSize objP it

def getSmall (c : Config) (s : Pool) (size : Nat) (objP : Option Nat) (it : IterOrder Nat) :
    Except Fault (Option Nat × Pool) :=
  let slotSize := roundupToTheNextHighestMultipleOfExponent2 size smallObjSlotFootstepExponent
  let slotIdx := convertSlotObjSizeToSlotIdx slotSize smallObjSlotFootstepSize
  s.getSlot .small (.small slotIdx) slotSize
    (genExpandSlotPageSize slotSize expandObjCntFactor c.sysPageSize) objP it

def getBig (c : Config) (s : Pool) (size : Nat) (objP : Option Nat) (it : IterOrder Nat) :
    Except Fault (Option Nat × Pool) :=
  let slotSize := roundupToTheNextHighestMultipleOfExponent2 size c.exponent
  let slotIdx := convertSlotObjSizeToSlotIdx slotSize c.sysPageSize
  s.getSlot .big (.big slotIdx) slotSize
    (genExpandSlotPageSize slotSize expandObjCntFactor c.sysPageSize) objP it

/-- The new slot that `Get` makes when no bulk object fits: the page set and the hash
entry of the slot start empty and are filled from the allocation. -/
def expandBulk (c : Config) (needSlotIdx needPageSize : Nat) (objP : Option Nat) (b : Bulk) :
    Except Fault (Bulk × Option Nat) := do
  let expandPageSize :=
    if needPageSize < availableReserveBulkObjMaxSize then
      genExpandSlotPageSize needPageSize expandBulkObjCntFactor c.sysPageSize
    else needPageSize
  let (stamp, nodes) := match b.hash.lookup needSlotIdx with
    | some e => (e.stamp, b.nodes)
    | none => (b.nodes, b.nodes + 1)
  let pages := b.pages.insert needSlotIdx ∅
  let hash := b.hash.insert needSlotIdx ⟨stamp, SlotObjPage.empty⟩
  let ordered := b.ordered.insert needSlotIdx ⟨needSlotIdx, stamp⟩
  match ← allocPageObjs expandPageSize needPageSize objP ∅ ∅ with
  | some (set, objs) =>
    .ok (⟨pages.insert needSlotIdx set,
      hash.insert needSlotIdx ⟨stamp, ⟨objs, expandPageSize / needPageSize⟩⟩, ordered, nodes⟩,
      objP)
  | none => .ok (⟨pages, hash.erase needSlotIdx, ordered.erase needSlotIdx, nodes⟩, none)

/-- The counter of the slot an object was taken from, if the slot is still there. -/
def decreaseCnt (b : Bulk) (slotIdx : Nat) : Bulk :=
  match b.hash.lookup slotIdx with
  | some e =>
    { b with
      hash := b.hash.insert slotIdx
        ⟨e.stamp, ⟨e.page.objs, u32 (e.page.cnt + (2 ^ 32 - 1))⟩⟩ }
  | none => b

/-- The search of `Get` for a bulk object, with the expansion when there is none. -/
def findBulk (c : Config) (needSlotIdx needPageSize : Nat) (objP : Option Nat)
    (it : IterOrder Nat) (b : Bulk) : Except Fault (Option Suitable × Bulk × Option Nat) := do
  let (found, b) ← b.getSuitableBulkPage it needSlotIdx
  match found with
  | some _ => .ok (found, b, none)
  | none => do
    let (b, newPage) ← expandBulk c needSlotIdx needPageSize objP b
    let (found, b) ← b.getSuitableBulkPage it needSlotIdx
    .ok (found, b, newPage)

def getBulk (c : Config) (s : Pool) (size : Nat) (objP : Option Nat) (it : IterOrder Nat) :
    Except Fault (Option Nat × Pool) := do
  let needPageSize := roundupToTheNextHighestMultipleOfExponent2 size c.exponent
  let needSlotIdx := convertSlotObjSizeToSlotIdx needPageSize c.sysPageSize
  let (found, b, newPage) ← findBulk c needSlotIdx needPageSize objP it s.bulk
  let s := s.addLive (.bulk needSlotIdx) newPage
  match found with
  | some f =>
    let s := s.setBulk (decreaseCnt b f.slotIdx)
    let (h, s) := s.getMemObject ⟨.bulk, u32 (f.slotIdx * c.sysPageSize), f.objPv, f.pagePv⟩
    .ok (some h, s)
  | none => .ok (none, s.setBulk b)

/-- `MemPool::Get`: the wrapper, or {lit}`none` for the null pointer. -/
def get (c : Config) (s : Pool) (size : Nat) (objP : Option Nat) (it : IterOrder Nat) :
    Except Fault (Option Nat × Pool) :=
  if tinyObjThreshold ≥ size then s.getTiny c objP it
  else if bulkObjThreshold ≥ size then
    if c.sysPageSize < size then s.getBig c size objP it
    else s.getSmall c size objP it
  else s.getBulk c size objP it

/-- The first half of `Put`: the wrapper is no longer outstanding. -/
def retire (s : Pool) (h : Nat) : Pool :=
  { s with out := s.out.erase h, retired := h :: s.retired }

/-- Free the page that a slot has given up, if any. -/
def freePage (s : Pool) (freed : Option Nat) : Except Fault Pool :=
  match freed with
  | some p => s.freeBlock p
  | none => .ok s

/-- `put` in a slot of tiny, small or big objects. -/
def putSlot (s : Pool) (k : Key) (residentCnts onePageObjsCnt : Nat) (o : MemObject)
    (it : IterOrder Nat) : Except Fault Pool :=
  match s.slots k with
  | none => .error .noSlot
  | some slot =>
    let r := slot.put residentCnts onePageObjsCnt it o.objPv o.objPagePv
    (s.setSlot k r.1).freePage r.2

def putTiny (c : Config) (s : Pool) (o : MemObject) (it : IterOrder Nat) : Except Fault Pool :=
  s.putSlot .tiny c.torc (c.sysPageSize / tinyObjThreshold) o it

def putSmall (c : Config) (s : Pool) (o : MemObject) (it : IterOrder Nat) : Except Fault Pool :=
  let slotIdx := convertSlotObjSizeToSlotIdx o.slotSize smallObjSlotFootstepSize
  let onePageSize := genExpandSlotPageSize o.slotSize expandObjCntFactor c.sysPageSize
  s.putSlot (.small slotIdx) c.sorc (onePageSize / o.slotSize) o it

def putBig (c : Config) (s : Pool) (o : MemObject) (it : IterOrder Nat) : Except Fault Pool :=
  let slotIdx := convertSlotObjSizeToSlotIdx o.slotSize c.sysPageSize
  let onePageSize := genExpandSlotPageSize o.slotSize expandObjCntFactor c.sysPageSize
  s.putSlot (.big slotIdx) c.borc (onePageSize / o.slotSize) o it

/-- `put` of a bulk object above the resident limit: its page is freed at once. -/
def dropBulk (s : Pool) (slotIdx : Nat) (o : MemObject) : Except Fault Pool :=
  match s.bulk.pages.lookup slotIdx with
  | none => .error .noPageSet
  | some set =>
    let set := set.erase o.objPagePv
    let pages := if set = ∅ then s.bulk.pages.erase slotIdx else s.bulk.pages.insert slotIdx set
    (s.setBulk { s.bulk with pages := pages }).freeBlock o.objPagePv

/-- The hash entry of a slot, made together with its ordered entry when it is not
there. -/
def bulkEntry (b : Bulk) (slotIdx : Nat) : HashEntry × Bulk :=
  match b.hash.lookup slotIdx with
  | some e => (e, b)
  | none =>
    let e : HashEntry := ⟨b.nodes, SlotObjPage.empty⟩
    (e, { b with
      hash := b.hash.insert slotIdx e
      ordered := b.ordered.insert slotIdx ⟨slotIdx, b.nodes⟩
      nodes := b.nodes + 1 })

/-- `put` of a bulk object that stays in the pool: the indexes after it, and the page
that is given up. -/
def residentBulk (residentCnts onePageObjsCnt slotIdx : Nat) (it : IterOrder Nat)
    (o : MemObject) (b : Bulk) : Bulk × Option Nat :=
  let (e, b) := bulkEntry b slotIdx
  let objs := pushBack e.page.objs o.objPagePv o.objPv
  let cnt := u32 (e.page.cnt + 1)
  let full := (it.order objs.keys).find? fun p => (listAt objs p).length = onePageObjsCnt
  match if cnt ≥ u32 (residentCnts + onePageObjsCnt) then full else none with
  | some freePtr =>
    let set := ((b.pages.lookup slotIdx).getD ∅).erase freePtr
    let cnt := u32 (cnt + (2 ^ 32 - onePageObjsCnt))
    let b := { b with pages := b.pages.insert slotIdx set }
    if cnt = 0 then
      ({ b with hash := b.hash.erase slotIdx, ordered := b.ordered.erase slotIdx }, some freePtr)
    else
      ({ b with hash := b.hash.insert slotIdx ⟨e.stamp, ⟨objs.erase freePtr, cnt⟩⟩ },
        some freePtr)
  | none => ({ b with hash := b.hash.insert slotIdx ⟨e.stamp, ⟨objs, cnt⟩⟩ }, none)

def putBulk (c : Config) (s : Pool) (o : MemObject) (it : IterOrder Nat) : Except Fault Pool :=
  let slotIdx := convertSlotObjSizeToSlotIdx o.slotSize c.sysPageSize
  if o.slotSize > availableReserveBulkObjMaxSize then s.dropBulk slotIdx o
  else
    let onePageSize := genExpandSlotPageSize o.slotSize expandBulkObjCntFactor c.sysPageSize
    let r := residentBulk c.nprocs (onePageSize / o.slotSize) slotIdx it o s.bulk
    (s.setBulk r.1).freePage r.2

/-- `MemPool::Put` up to the release of the slot lock. -/
def put (c : Config) (s : Pool) (h : Nat) (it : IterOrder Nat) : Except Fault Pool :=
  let o := s.objects h
  let s := s.retire h
  match o.type with
  | .tiny => s.putTiny c o it
  | .small => s.putSmall c o it
  | .big => s.putBig c o it
  | .bulk => s.putBulk c o it

/-- The second half of `MemPool::Put`: the wrapper joins the free ones. -/
def recycle (s : Pool) (h : Nat) : Pool :=
  { s with retired := s.retired.erase h, freeMemObjs := s.freeMemObjs ++ [h] }

end Pool

/-! ## Runs -/

/-- The slot a request is served from. -/
def requestKey (c : Config) (size : Nat) : Key :=
  if tinyObjThreshold ≥ size then .tiny
  else if bulkObjThreshold ≥ size then
    if c.sysPageSize < size then
      .big (convertSlotObjSizeToSlotIdx
        (roundupToTheNextHighestMultipleOfExponent2 size c.exponent) c.sysPageSize)
    else
      .small (convertSlotObjSizeToSlotIdx (roundupToTheNextHighestMultipleOfExponent2 size
        smallObjSlotFootstepExponent) smallObjSlotFootstepSize)
  else
    .bulk (convertSlotObjSizeToSlotIdx
      (roundupToTheNextHighestMultipleOfExponent2 size c.exponent) c.sysPageSize)

/-- The results of `PosixMemAlign` for a slot: null, or a block of user space that has no
byte in common with a live one. -/
def AllocOk (c : Config) (s : Pool) (k : Key) : Option Nat → Prop
  | none => True
  | some p => 0 < p ∧ p + c.pageBytes k ≤ 2 ^ 47 ∧ ∀ b ∈ s.live, c.carver.Apart ⟨k, p⟩ b

/-- The steps of the users of a pool: `Get` with the result of the allocation, in case
there is one, the two halves of `Put`, each with the iteration order of the
containers. -/
inductive Label where
  | get (size : Nat) (objP : Option Nat) (it : IterOrder Nat)
  | put (h : Nat) (it : IterOrder Nat)
  | recycle (h : Nat)

/-- A step that faults leaves everything else as it was. -/
def Pool.settle (s : Pool) (r : Except Fault Pool) : Pool :=
  match r with
  | .ok s' => s'
  | .error f => { s with fault := some f }

instance (c : Config) (b b' : Block Key) : Decidable (c.carver.Apart b b') :=
  inferInstanceAs (Decidable (_ ∨ _))

instance (c : Config) (s : Pool) (k : Key) : DecidablePred (AllocOk c s k)
  | none => isTrue trivial
  | some _ => inferInstanceAs (Decidable (_ ∧ _ ∧ _))

/-- The transition system of a pool. -/
def step (c : Config) (s : Pool) : Label → Option Pool
  | .get size objP it =>
    if s.fault = none ∧ AllocOk c s (requestKey c size) objP then
      some (s.settle ((s.get c size objP it).map Prod.snd))
    else none
  | .put h it =>
    if s.fault = none ∧ h ∈ s.out then some (s.settle (s.put c h it)) else none
  | .recycle h =>
    if s.fault = none ∧ h ∈ s.retired then some (s.recycle h) else none

section Step

variable {c : Config} {s s' : Pool} {size h : Nat} {objP : Option Nat} {it : IterOrder Nat}

theorem step_get (hstep : step c s (.get size objP it) = some s') :
    s.fault = none ∧ AllocOk c s (requestKey c size) objP ∧
      s' = s.settle ((s.get c size objP it).map Prod.snd) := by
  obtain ⟨⟨hfault, hobjP⟩, hs'⟩ := Option.ite_none_right_eq_some.1 hstep
  exact ⟨hfault, hobjP, (Option.some.inj hs').symm⟩

theorem step_put (hstep : step c s (.put h it) = some s') :
    s.fault = none ∧ h ∈ s.out ∧ s' = s.settle (s.put c h it) := by
  obtain ⟨⟨hfault, hmem⟩, hs'⟩ := Option.ite_none_right_eq_some.1 hstep
  exact ⟨hfault, hmem, (Option.some.inj hs').symm⟩

theorem step_recycle (hstep : step c s (.recycle h) = some s') :
    s.fault = none ∧ h ∈ s.retired ∧ s' = s.recycle h := by
  obtain ⟨⟨hfault, hmem⟩, hs'⟩ := Option.ite_none_right_eq_some.1 hstep
  exact ⟨hfault, hmem, (Option.some.inj hs').symm⟩

end Step

end MemPool
end CCraft
