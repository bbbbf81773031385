import Bitvisor.Mm.Page

namespace Bitvisor.Mm

open PageState

/-- `NUM_OF_SMALL_ALLOCSIZE`. -/
def numOfSmallAllocsize : Nat := 5

/-- `SMALL_ALLOCSIZE (n)`: the slot size of a small page. -/
def smallAllocsize (n : Nat) : Nat := 0x80 <<< n

/-- `NUM_OF_TINY_ALLOCSIZE`. -/
def numOfTinyAllocsize : Nat := 3

/-- `TINY_ALLOCSIZE (n)`: the slot size of a tiny block. -/
def tinyAllocsize (n : Nat) : Nat := 0x10 <<< n

/-- `FIND_NEXT_BIT`: the lowest clear bit of a bitmap. -/
def findNextBit (bitmap : UInt32) : UInt32 := ~~~bitmap &&& (bitmap + 1)

/-- `BIT_TO_INDEX`, that is `__builtin_ffs (bit) - 1`: the index of the lowest
set bit, and `-1` for `0`. -/
def bitToIndex (bit : UInt32) : Int :=
  match (List.range 32).find? fun i => bit.toNat.testBit i with
  | some i => i
  | none => -1

structure SmallPage where
  smallBitmap : UInt32
  smallAllocsize : Nat
  deriving DecidableEq, Repr

/-- `struct tiny_allocdata`, the header at the start of a tiny block. -/
structure TinyAllocdata where
  tinyBitmap : UInt32
  tinyAllocsize : Nat
  deriving DecidableEq, Repr

/-- The allocator's state: the page allocator's, the small fields of every
page with `small_freelist`, and the tiny headers, by the virtual address of
their block, with `tiny_freelist`. Lists are read from their head. -/
structure MmState where
  pages : PageState
  small : Nat → SmallPage
  smallFreelist : Nat → List Nat
  tiny : Nat → TinyAllocdata
  tinyFreelist : Nat → List Nat

namespace MmState

def setSmall (st : MmState) (p : Nat) (s : SmallPage) : MmState :=
  { st with small := fun j => if j = p then s else st.small j }

def setTiny (st : MmState) (b : Nat) (d : TinyAllocdata) : MmState :=
  { st with tiny := fun a => if a = b then d else st.tiny a }

/-- `LIST1_PUSH` on `small_freelist[k]`. -/
def smallPush (st : MmState) (k p : Nat) : MmState :=
  { st with smallFreelist := fun i => if i = k then p :: st.smallFreelist k else st.smallFreelist i }

/-- `LIST1_DEL` on `small_freelist[k]`. -/
def smallDel (st : MmState) (k p : Nat) : MmState :=
  { st with
    smallFreelist := fun i => if i = k then (st.smallFreelist k).erase p else st.smallFreelist i }

/-- `LIST1_PUSH` on `tiny_freelist[t]`. -/
def tinyPush (st : MmState) (t b : Nat) : MmState :=
  { st with tinyFreelist := fun i => if i = t then b :: st.tinyFreelist t else st.tinyFreelist i }

/-- `LIST1_DEL` on `tiny_freelist[t]`. -/
def tinyDel (st : MmState) (t b : Nat) : MmState :=
  { st with
    tinyFreelist := fun i => if i = t then (st.tinyFreelist t).erase b else st.tinyFreelist i }

@[simp] theorem pages_setSmall (st : MmState) (p : Nat) (s : SmallPage) :
    (st.setSmall p s).pages = st.pages := rfl

@[simp] theorem pages_setTiny (st : MmState) (b : Nat) (d : TinyAllocdata) :
    (st.setTiny b d).pages = st.pages := rfl

@[simp] theorem pages_smallPush (st : MmState) (k p : Nat) : (st.smallPush k p).pages = st.pages := rfl

@[simp] theorem pages_smallDel (st : MmState) (k p : Nat) : (st.smallDel k p).pages = st.pages := rfl

@[simp] theorem pages_tinyPush (st : MmState) (t b : Nat) : (st.tinyPush t b).pages = st.pages := rfl

@[simp] theorem pages_tinyDel (st : MmState) (t b : Nat) : (st.tinyDel t b).pages = st.pages := rfl

@[simp] theorem small_setSmall (st : MmState) (p : Nat) (s : SmallPage) (j : Nat) :
    (st.setSmall p s).small j = if j = p then s else st.small j := rfl

@[simp] theorem tiny_setSmall (st : MmState) (p : Nat) (s : SmallPage) :
    (st.setSmall p s).tiny = st.tiny := rfl

@[simp] theorem smallFreelist_setSmall (st : MmState) (p : Nat) (s : SmallPage) :
    (st.setSmall p s).smallFreelist = st.smallFreelist := rfl

@[simp] theorem tinyFreelist_setSmall (st : MmState) (p : Nat) (s : SmallPage) :
    (st.setSmall p s).tinyFreelist = st.tinyFreelist := rfl

@[simp] theorem tiny_setTiny (st : MmState) (b : Nat) (d : TinyAllocdata) (a : Nat) :
    (st.setTiny b d).tiny a = if a = b then d else st.tiny a := rfl

@[simp] theorem small_setTiny (st : MmState) (b : Nat) (d : TinyAllocdata) :
    (st.setTiny b d).small = st.small := rfl

@[simp] theorem smallFreelist_setTiny (st : MmState) (b : Nat) (d : TinyAllocdata) :
    (st.setTiny b d).smallFreelist = st.smallFreelist := rfl

@[simp] theorem tinyFreelist_setTiny (st : MmState) (b : Nat) (d : TinyAllocdata) :
    (st.setTiny b d).tinyFreelist = st.tinyFreelist := rfl

@[simp] theorem smallFreelist_smallPush (st : MmState) (k p i : Nat) :
    (st.smallPush k p).smallFreelist i =
      if i = k then p :: st.smallFreelist k else st.smallFreelist i := rfl

@[simp] theorem smallFreelist_smallDel (st : MmState) (k p i : Nat) :
    (st.smallDel k p).smallFreelist i =
      if i = k then (st.smallFreelist k).erase p else st.smallFreelist i := rfl

@[simp] theorem tinyFreelist_tinyPush (st : MmState) (t b i : Nat) :
    (st.tinyPush t b).tinyFreelist i =
      if i = t then b :: st.tinyFreelist t else st.tinyFreelist i := rfl

@[simp] theorem tinyFreelist_tinyDel (st : MmState) (t b i : Nat) :
    (st.tinyDel t b).tinyFreelist i =
      if i = t then (st.tinyFreelist t).erase b else st.tinyFreelist i := rfl

@[simp] theorem small_smallPush (st : MmState) (k p : Nat) : (st.smallPush k p).small = st.small := rfl

@[simp] theorem small_smallDel (st : MmState) (k p : Nat) : (st.smallDel k p).small = st.small := rfl

@[simp] theorem small_tinyPush (st : MmState) (t b : Nat) : (st.tinyPush t b).small = st.small := rfl

@[simp] theorem small_tinyDel (st : MmState) (t b : Nat) : (st.tinyDel t b).small = st.small := rfl

@[simp] theorem tiny_smallPush (st : MmState) (k p : Nat) : (st.smallPush k p).tiny = st.tiny := rfl

@[simp] theorem tiny_smallDel (st : MmState) (k p : Nat) : (st.smallDel k p).tiny = st.tiny := rfl

@[simp] theorem tiny_tinyPush (st : MmState) (t b : Nat) : (st.tinyPush t b).tiny = st.tiny := rfl

@[simp] theorem tiny_tinyDel (st : MmState) (t b : Nat) : (st.tinyDel t b).tiny = st.tiny := rfl

@[simp] theorem tinyFreelist_smallPush (st : MmState) (k p : Nat) :
    (st.smallPush k p).tinyFreelist = st.tinyFreelist := rfl

@[simp] theorem tinyFreelist_smallDel (st : MmState) (k p : Nat) :
    (st.smallDel k p).tinyFreelist = st.tinyFreelist := rfl

@[simp] theorem smallFreelist_tinyPush (st : MmState) (t b : Nat) :
    (st.tinyPush t b).smallFreelist = st.smallFreelist := rfl

@[simp] theorem smallFreelist_tinyDel (st : MmState) (t b : Nat) :
    (st.tinyDel t b).smallFreelist = st.smallFreelist := rfl

end MmState

/-- `mm_init_global` from the page structures on: every page reserved, every
list empty, then `mm_page_free` of each usable page in order. -/
def mmInitGlobal (usable : List Nat) : Option MmState :=
  (usable.foldlM mmPageFree mmInit).map fun pages =>
    ⟨pages, fun _ => ⟨0, 0⟩, fun _ => [], fun _ => ⟨0, 0⟩, fun _ => []⟩

/-- `get_alloc_pages_size`: the level of the block and, if the request needs
a second block behind it, the level of that one; `none` is `-1`. The size
`n * PAGESIZE` is an `int`. -/
def getAllocPagesSize (n : Int32) : Option (Nat × Option Nat) :=
  let sz := n * 4096
  let size (i : Nat) : Int32 := Int32.ofNat (4096 <<< i)
  (List.range numOfAllocsize).findSome? fun i =>
    if size i ≥ sz then some (i, none)
    else if i > 0 ∧ size i + size (i - 1) ≥ sz then
      let secondsz := sz - size i
      some (i, some (((List.range (i - 1)).find? fun j => size j ≥ secondsz).getD (i - 1)))
    else none

/-- `alloc_pages` with its virtual address; `none` is a panic. -/
def allocPages (st : MmState) (n : Int32) : Option (MmState × Nat) :=
  match getAllocPagesSize n with
  | none => none
  | some (i, none) => (mmPageAlloc st.pages i).map fun (pages, p) => ({ st with pages }, pageToVirt p)
  | some (i, some j) =>
      (mmPageAllocCont st.pages i j).map fun (pages, p) => ({ st with pages }, pageToVirt p)

/-- `get_small_allocsize`; `none` is `-1`. -/
def getSmallAllocsize (len : UInt32) : Option Nat :=
  (List.range numOfSmallAllocsize).find? fun i => len.toNat ≤ smallAllocsize i

/-- `get_tiny_allocsize`; `none` is `-1`. -/
def getTinyAllocsize (len : UInt32) : Option Nat :=
  (List.range numOfTinyAllocsize).find? fun i => len.toNat ≤ tinyAllocsize i

def smallNbits (k : Nat) : Nat := 4096 / smallAllocsize k

def smallFull (k : Nat) : UInt32 := (2 <<< (smallNbits k - 1).toUInt32) - 1

/-- `small_alloc`: a slot of the first page of `small_freelist[k]`, or of a
fresh page. -/
def smallAlloc (st : MmState) (k : Nat) : Option (MmState × Nat) :=
  if k < numOfSmallAllocsize then
    match st.smallFreelist k with
    | p :: _ =>
        let n := findNextBit (st.small p).smallBitmap
        let bitmap := (st.small p).smallBitmap ||| n
        let st := st.setSmall p { st.small p with smallBitmap := bitmap }
        let st := if bitmap = smallFull k then st.smallDel k p else st
        ok st p n
    | [] =>
        match mmPageAlloc st.pages 0 with
        | none => none
        | some (pages, p) =>
            if (pages.page p).type ≠ .allocated then none
            else
              let st := { st with pages := pages.setType p .allocatedSmall }
              let st := st.setSmall p ⟨1, k⟩
              ok (st.smallPush k p) p 1
  else none
where
  ok (st : MmState) (p : Nat) (n : UInt32) : Option (MmState × Nat) :=
    let i := bitToIndex n
    if 0 ≤ i ∧ i < smallNbits k then some (st, pageToVirt p + smallAllocsize k * i.toNat) else none

/-- `small_getlen`. -/
def smallGetlen (st : MmState) (p : Nat) : Option Nat :=
  if (st.pages.page p).type = .allocatedSmall ∧ (st.small p).smallAllocsize < numOfSmallAllocsize then
    some (smallAllocsize (st.small p).smallAllocsize)
  else none

/-- `small_free`; `none` is a failed `ASSERT` or the double-free panic. A page
whose last slot is freed goes back to the page allocator. -/
def smallFree (st : MmState) (p pageOffset : Nat) : Option MmState :=
  let k := (st.small p).smallAllocsize
  if (st.pages.page p).type ≠ .allocatedSmall ∨ numOfSmallAllocsize ≤ k then none
  else if pageOffset % smallAllocsize k ≠ 0 ∨ smallNbits k ≤ pageOffset / smallAllocsize k then none
  else
    let n : UInt32 := 1 <<< (pageOffset / smallAllocsize k).toUInt32
    let st := if (st.small p).smallBitmap = smallFull k then st.smallPush k p else st
    let bitmap := (st.small p).smallBitmap ^^^ n
    let st := st.setSmall p { st.small p with smallBitmap := bitmap }
    let st := if bitmap = 0 then st.smallDel k p else st
    if bitmap &&& n ≠ 0 then none
    else if bitmap = 0 then
      (mmPageFree (st.pages.setType p .allocated) p).map fun pages => { st with pages }
    else some st

def tinyEmptyBitmap (t : Nat) : UInt32 := if t ≠ 0 then 1 else 3

/-- `tiny_alloc`: a slot of the first block of `tiny_freelist[t]`, or of a
fresh small block of 32 slots. -/
def tinyAlloc (st : MmState) (t : Nat) : Option (MmState × Nat) :=
  if t < numOfTinyAllocsize then
    match st.tinyFreelist t with
    | b :: _ =>
        let n := findNextBit (st.tiny b).tinyBitmap
        let bitmap := (st.tiny b).tinyBitmap ||| n
        let st := st.setTiny b { st.tiny b with tinyBitmap := bitmap }
        let st := if ~~~bitmap = 0 then st.tinyDel t b else st
        ok st b n
    | [] =>
        match getSmallAllocsize (tinyAllocsize t * 32).toUInt32 with
        | none => none
        | some k =>
            match smallAlloc st k with
            | none => none
            | some (st, b) =>
                let n := findNextBit (tinyEmptyBitmap t)
                let st := st.setTiny b ⟨tinyEmptyBitmap t ||| n, t⟩
                ok (st.tinyPush t b) b n
  else none
where
  ok (st : MmState) (b : Nat) (n : UInt32) : Option (MmState × Nat) :=
    let i := bitToIndex n
    if 0 < i ∧ i < 32 then some (st, b + tinyAllocsize t * i.toNat) else none

/-- `tiny_getlen`. -/
def tinyGetlen (st : MmState) (b : Nat) : Option Nat :=
  if (st.tiny b).tinyAllocsize < numOfTinyAllocsize then some (tinyAllocsize (st.tiny b).tinyAllocsize)
  else none

/-- `tiny_free` of the slot at `blockOffset` in the block at `b` of the page
`p`. A block whose last slot is freed goes back to `small_free`. -/
def tinyFree (st : MmState) (p b blockOffset : Nat) : Option MmState :=
  let t := (st.tiny b).tinyAllocsize
  if numOfTinyAllocsize ≤ t then none
  else if blockOffset % tinyAllocsize t ≠ 0 ∨ 32 ≤ blockOffset / tinyAllocsize t then none
  else
    let n : UInt32 := 1 <<< (blockOffset / tinyAllocsize t).toUInt32
    if tinyEmptyBitmap t &&& n ≠ 0 then none
    else
      let st := if ~~~(st.tiny b).tinyBitmap = 0 then st.tinyPush t b else st
      let bitmap := (st.tiny b).tinyBitmap ^^^ n
      let st := st.setTiny b { st.tiny b with tinyBitmap := bitmap }
      let st := if bitmap = tinyEmptyBitmap t then st.tinyDel t b else st
      if bitmap &&& n ≠ 0 then none
      else if bitmap = tinyEmptyBitmap t then smallFree st p (b % 4096)
      else some st

/-- `alloc`: pages above the largest small size, tiny slots up to 64 bytes,
small slots in between. The page count `(len + 4095) / 4096` is computed in
`uint` and passed as an `int`. -/
def alloc (st : MmState) (len : UInt32) : Option (MmState × Nat) :=
  match getSmallAllocsize len with
  | none => allocPages st ((len + 4095) / 4096).toInt32
  | some small =>
      match (if small = 0 then getTinyAllocsize len else none) with
      | none => smallAlloc st small
      | some tiny => tinyAlloc st tiny

/-- `free`: the layer is read from the page type and, for a small page, from
the offset within its slot. -/
def free (st : MmState) (virt : Nat) : Option MmState :=
  match virtToPage virt with
  | none => none
  | some p =>
      if (st.pages.page p).type = .allocatedSmall then
        let pageOffset := virt % 4096
        let blockOffset := pageOffset % smallAllocsize (st.small p).smallAllocsize
        if blockOffset ≠ 0 then tinyFree st p (virt - blockOffset) blockOffset
        else smallFree st p pageOffset
      else (mmPageFree st.pages p).map fun pages => { st with pages }

/-- `get_alloc_len`: a block of the page allocator counts its buddy part. -/
def getAllocLen (st : MmState) (virt : Nat) : Option Nat :=
  match virtToPage virt with
  | none => none
  | some p =>
      if (st.pages.page p).type = .allocatedSmall then
        let blockOffset := virt % 4096 % smallAllocsize (st.small p).smallAllocsize
        if blockOffset ≠ 0 then tinyGetlen st (virt - blockOffset) else smallGetlen st p
      else
        match mmPageGetAllocsize (st.pages.page p).allocsize with
        | none => none
        | some len =>
            if (st.pages.page p).type = .allocatedCont then
              match virtToPage (virt ||| len) with
              | none => none
              | some q => (mmPageGetAllocsize (st.pages.page q).allocsize).map (len + ·)
            else some len

/-- `get_actual_allocate_size`: the capacity `alloc (len)` is meant to hand
out; `none` is its failed `ASSERT (i >= 0)`. -/
def getActualAllocateSize (len : UInt32) : Option Nat :=
  match getSmallAllocsize len with
  | none =>
      match getAllocPagesSize ((len + 4095) / 4096).toInt32 with
      | none => none
      | some (i, j) =>
          match mmPageGetAllocsize i with
          | none => none
          | some size => some (size + ((j.bind mmPageGetAllocsize).getD 0))
  | some small =>
      match (if small = 0 then getTinyAllocsize len else none) with
      | none => some (smallAllocsize small)
      | some tiny => some (tinyAllocsize tiny)

/-- `realloc`, with addresses as numbers and `0` for `NULL`; `none` is a
panic or a failed `ASSERT`. The bytes `memcpy` moves are not modelled, only
the blocks. -/
def realloc (st : MmState) (virt : Nat) (len : UInt32) : Option (MmState × Nat) :=
  if virt = 0 ∧ len = 0 then some (st, 0)
  else if virt = 0 then alloc st len
  else if len = 0 then (free st virt).map (·, 0)
  else
    match getAllocLen st virt with
    | none => none
    | some oldlen =>
        -- the capacity does not change: the same block
        if oldlen = len.toNat then some (st, virt)
        else if oldlen < len.toNat then
          (alloc st len).bind fun (st, p) => (free st virt).map (·, p)
        else
          match getActualAllocateSize len with
          | none => none
          | some newActualSize =>
              if oldlen < newActualSize then none
              else if oldlen = newActualSize then some (st, virt)
              else (alloc st len).bind fun (st, p) => (free st virt).map (·, p)

/-- Growing a 16-byte block to `0xFFFFFFFF` bytes: `alloc` counts the pages
with `len + 4095` wrapped, so `realloc` hands out one page of 4096 bytes, the
size `get_actual_allocate_size` reports too. -/
theorem realloc_grows_to_one_page :
    ((mmInitGlobal (List.range 8)).bind fun st => (alloc st 16).bind fun (st, v) =>
      (realloc st v 0xFFFFFFFF).bind fun (st, p) => getAllocLen st p) = some 4096 ∧
    getActualAllocateSize 0xFFFFFFFF = some 4096 := by
  decide

/-- A request of `0xFFFFFFFF` bytes: `len + 4095` wraps to `4094` in `uint`,
so `alloc_pages` is asked for no page and `alloc` hands out one page of
4096 bytes, which is what `get_alloc_len` then reports. -/
theorem alloc_len_wraps :
    ((mmInitGlobal (List.range 8)).bind fun st => (alloc st 0xFFFFFFFF).bind fun (st, v) =>
      getAllocLen st v) = some 4096 ∧
    4096 < (0xFFFFFFFF : UInt32).toNat := by
  decide

inductive MmOp
  | alloc (len : UInt32)
  | free (virt : Nat)

def mmStep (st : MmState) : MmOp → Option (MmState × Option Nat)
  | .alloc len => (alloc st len).map fun (st, v) => (st, some v)
  | .free virt => (free st virt).map (·, none)

def mmRun (st : MmState) (ops : List MmOp) : Option (MmState × List (Option Nat)) :=
  StepRun.runSteps mmStep st ops

end Bitvisor.Mm
