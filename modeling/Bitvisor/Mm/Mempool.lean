import Mathlib.Data.List.Basic

namespace Bitvisor.Mm

def pagesize : Int := 4096

/-- `struct mempool_list`: a segment `[off, off + len)` of a block. -/
structure MempoolList where
  off : Int
  len : Int
  deriving DecidableEq, Repr

abbrev SegId := Nat

abbrev BlockId := Nat

/-- `struct mempool_block_list`: its `alloc` and `free` lists hold segment
pointers; `p` is the address of its pages. -/
structure MempoolBlockList where
  alloc : List SegId
  free : List SegId
  p : Int
  len : Int
  deriving DecidableEq, Repr

/-- `struct mempool` with its list of blocks, and the heap cells its list
nodes live in. -/
structure Mempool where
  block : List BlockId
  blocks : List (Option MempoolBlockList)
  segs : List (Option MempoolList)
  numpages : Int
  numkeeps : Int
  clear : Bool
  keep : Int
  deriving DecidableEq, Repr

/-- `mempool_new`. The source never writes `keep`; `keep` is whatever the
freshly allocated memory held. -/
def mempoolNew (blocksize : Int) (numkeeps : Int) (clear : Bool) (keep : Int) : Mempool :=
  ⟨[], [], [], grow blocksize 1 blocksize.toNat, numkeeps, clear, keep⟩
where
  /-- `while (PAGESIZE * numpages < blocksize) numpages <<= 1` in `int`, which
  stops within `blocksize` rounds. -/
  grow (blocksize : Int) (numpages : Int) : Nat → Int
    | 0 => numpages
    | fuel + 1 => if pagesize * numpages < blocksize then grow blocksize (numpages * 2) fuel else numpages

namespace Mempool

def seg (mp : Mempool) (id : SegId) : MempoolList := ((mp.segs[id]?).join).getD ⟨0, 0⟩

def blk (mp : Mempool) (id : BlockId) : MempoolBlockList := ((mp.blocks[id]?).join).getD ⟨[], [], 0, 0⟩

def setSeg (mp : Mempool) (id : SegId) (q : MempoolList) : Mempool :=
  { mp with segs := mp.segs.set id (some q) }

def setBlk (mp : Mempool) (id : BlockId) (b : MempoolBlockList) : Mempool :=
  { mp with blocks := mp.blocks.set id (some b) }

def newSeg (mp : Mempool) (q : MempoolList) : Mempool × SegId :=
  ({ mp with segs := mp.segs ++ [some q] }, mp.segs.length)

end Mempool

def firstFit (mp : Mempool) (len : UInt32) : Option (BlockId × SegId) :=
  mp.block.findSome? fun b =>
    ((mp.blk b).free.find? fun q => UInt32.ofInt (mp.seg q).len ≥ len).map (b, ·)

/-- `while (PAGESIZE * npages < len) npages <<= 1` in `unsigned int`; the loop
runs forever once `npages` has been shifted out to 0, which takes at most 32
rounds, so `none` after 33 is a loop that does not end. -/
def growNpages (len : UInt32) (npages : UInt32) : Nat → Option UInt32
  | 0 => none
  | fuel + 1 => if 4096 * npages < len then growNpages len (npages <<< 1) fuel else some npages

section Alloc

-- `allocPages n` is the address `alloc_pages` returns for `n` pages
variable (allocPages : UInt32 → Nat)

/-- `mempool_allocmem`: the new pool and the returned pointer, `none` for
`NULL`; the outer `none` is a loop that does not end. -/
def mempoolAllocmem (mp : Mempool) (len : UInt32) : Option (Mempool × Option Int) :=
  if len = 0 then some (mp, none)
  else
    match firstFit mp len with
    | some (b, q) => some (found mp b q)
    | none =>
        (growNpages len (UInt32.ofInt mp.numpages) 33).map fun npages =>
          let blen := (4096 * npages).toInt32.toInt
          let (mp, q) := mp.newSeg ⟨0, blen⟩
          let b := mp.blocks.length
          let mp := { mp with
            blocks := mp.blocks ++ [some (⟨[], [q], allocPages npages, blen⟩ : MempoolBlockList)] }
          let mp := { mp with block := mp.block ++ [b], keep := mp.keep + 1 }
          found mp b q
where
  found (mp : Mempool) (b : BlockId) (q : SegId) : Mempool × Option Int :=
    let p := mp.blk b
    let qs := mp.seg q
    let mp := if qs.len = p.len then { mp with keep := mp.keep - 1 } else mp
    if UInt32.ofInt qs.len = len then
      let mp := mp.setBlk b { p with free := p.free.erase q, alloc := p.alloc ++ [q] }
      (mp, some (p.p + qs.off))
    else
      let (mp, qq) := mp.newSeg ⟨qs.off, len.toInt32.toInt⟩
      -- `q->off += len`, with `q->len` left as it was
      let mp := mp.setSeg q { qs with off := (UInt32.ofInt qs.off + len).toInt32.toInt }
      let mp := mp.setBlk b { p with alloc := p.alloc ++ [qq] }
      (mp, some (p.p + qs.off))

end Alloc

/-- `mempool_freemem`; `none` is the double-free `panic` or a failed
`ASSERT`. Releasing a block's pages (`free_page`) leaves no trace here. -/
def mempoolFreemem (mp : Mempool) (virt : Int) : Option Mempool :=
  (mp.block.find? fun b => let p := mp.blk b; p.p ≤ virt && virt < p.p + p.len).bind fun b =>
    let p := mp.blk b
    (p.alloc.find? fun q => p.p + (mp.seg q).off = virt).bind fun q =>
      let p := { p with alloc := p.alloc.erase q, free := p.free ++ [q] }
      let (mp, p, q) := coalesceLeft (mp.setBlk b p) p q
      let (mp, p) := coalesceRight mp p q
      release (mp.setBlk b p) b p
where
  coalesceLeft (mp : Mempool) (p : MempoolBlockList) (q : SegId) :
      Mempool × MempoolBlockList × SegId :=
    let qs := mp.seg q
    match p.free.find? fun qq => (mp.seg qq).off + (mp.seg qq).len = qs.off with
    | some qq =>
        let qqs := mp.seg qq
        let mp := mp.setSeg qq { qqs with len := qqs.len + qs.len }
        ({ mp with segs := mp.segs.set q none }, { p with free := p.free.erase q }, qq)
    | none => (mp, p, q)
  coalesceRight (mp : Mempool) (p : MempoolBlockList) (q : SegId) : Mempool × MempoolBlockList :=
    let qs := mp.seg q
    match p.free.find? fun qq => qs.off + qs.len = (mp.seg qq).off with
    | some qq =>
        let mp := mp.setSeg q { qs with len := qs.len + (mp.seg qq).len }
        ({ mp with segs := mp.segs.set qq none }, { p with free := p.free.erase qq })
    | none => (mp, p)
  -- the last `LIST1_FOREACH` breaks on every path: it looks at the first free segment only
  release (mp : Mempool) (b : BlockId) (p : MempoolBlockList) : Option Mempool :=
    match p.free with
    | [] => some mp
    | q :: rest =>
        if (mp.seg q).len ≠ p.len then some mp
        else if mp.keep < mp.numkeeps then some { mp with keep := mp.keep + 1 }
        else if p.alloc = [] ∧ rest = [] then
          some { mp with block := mp.block.erase b, blocks := mp.blocks.set b none,
                         segs := mp.segs.set q none }
        else none

inductive Call
  | allocmem (len : UInt32)
  | freemem (virt : Int)

def runCalls (allocPages : UInt32 → Nat) (mp : Mempool) : List Call → Option (Mempool × List (Option Int))
  | [] => some (mp, [])
  | .allocmem len :: cs =>
      (mempoolAllocmem allocPages mp len).bind fun (mp, r) =>
        (runCalls allocPages mp cs).map fun (mp, rs) => (mp, r :: rs)
  | .freemem virt :: cs => (mempoolFreemem mp virt).bind fun mp => runCalls allocPages mp cs

/-- The first allocation of 4000 bytes splits the block's one free segment
`[0, 4096)` into the allocated `[0, 4000)` and a free segment that keeps its
length 4096 at offset 4000; the next allocation of 200 bytes fits in it and
returns the region `[4000, 4200)`, past the end of the block's 4096 bytes. -/
theorem mempoolAllocmem_split_keeps_len :
    ((runCalls (fun _ => 0x100000) (mempoolNew 0 1 true 0) [.allocmem 4000, .allocmem 200]).map
      fun (mp, rs) => (rs, mp.block.map fun b => ((mp.blk b).p, (mp.blk b).len))) =
      some ([some 0x100000, some (0x100000 + 4000)], [(0x100000, 4096)]) ∧
    0x100000 + 4000 + 200 > 0x100000 + 4096 := by
  decide

end Bitvisor.Mm
