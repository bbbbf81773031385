import Bitvisor.Ept.Cursor
import Bitvisor.Ept.Clear
import Bitvisor.X86Mmio.PageSize

namespace Bitvisor.Ept

/-! The EPT of `core/x86/vt_ept.c` with the memory its tables live in: the
pool of table pages, `cur_fill` and the functions that map, invalidate,
clear and search it. Physical and virtual addresses of the tables are the
same (`phys_to_virt` is the identity), `invept` and the MMIO lock change
nothing here, and `alloc_page` gives table `i` the page `allocPage i`. -/

/-- `MAXNUM_OF_EPTBL`. -/
def maxnumOfEptbl : Nat := 256

/-- `DEFNUM_OF_EPTBL`. -/
def defnumOfEptbl : Nat := 16

def epteRead : UInt64 := 0x1
def epteReadexec : UInt64 := 0x5
def epteWrite : UInt64 := 0x2
def epteIgnBit11 : UInt64 := 0x800

/-- `GMM_GP2HP_2M_1G_FAIL`. -/
def gmmGp2hp2m1gFail : UInt64 := 0xFFFFFFFFFFFFFFFF

/-- `pagesizes`: 4 KiB, 2 MiB and 1 GiB. -/
def pagesizes : List UInt64 := [0x1000, 0x200000, 0x40000000]

structure Gmm where
  gp2hp : UInt64 → UInt64 × Bool
  gp2hp2m : UInt64 → UInt64
  gp2hp1g : UInt64 → UInt64
  gmtrrType : UInt64 → UInt8
  gmtrrTypeEqual : UInt64 → UInt64 → Bool

/-- `struct vt_ept` with the memory of its tables. `tbl i` is `tbl_phys[i]`
once `tbl[i]` is allocated, `mem` is memory by byte and `storage` the
`mm_get_page_storage` word of each page, by page number. `maxnumtbl` is
stored by `vt_ept_new` and read nowhere, so it is left out. -/
structure VtEptState where
  ept : VtEpt
  cnt : Nat
  tbl : Nat → Option UInt64
  avlPagesizesLen : Nat
  mem : Nat → UInt8
  storage : Nat → UInt32

def wordsOf (mem : Nat → UInt8) : Words := fun a => (ByteMem.readLe mem a.toNat 8).toUInt64

def pageNum (a : UInt64) : Nat := a.toNat / 4096

namespace VtEptState

/-- `*p = v`. -/
@[simps]
def store (s : VtEptState) (p v : UInt64) : VtEptState :=
  { s with mem := ByteMem.write s.mem p.toNat (entryBytes v) }

def page (s : VtEptState) (p : UInt64) : TablePage :=
  ⟨fun j => s.mem (pageNum p * 4096 + j), s.storage (pageNum p)⟩

/-- `ept_tbl_alloc (ept, i)`: a table page is allocated once, with every
128-byte chunk marked as used. -/
def eptTblAlloc (allocPage : Nat → UInt64) (s : VtEptState) (i : Nat) : VtEptState :=
  match s.tbl i with
  | some _ => s
  | none =>
    { s with
      tbl := Function.update s.tbl i (some (allocPage i))
      storage := Function.update s.storage (pageNum (allocPage i)) 0xFFFFFFFF }

/-- `set_bitmap_for_ept_entry (p)`. -/
@[simps]
def setBitmapForEptEntry (s : VtEptState) (p : UInt64) : VtEptState :=
  { s with storage := Function.update s.storage (pageNum p) (Ept.setBitmapForEptEntry (s.page p) p.toNat).storage }

/-- `clear_ept_based_on_bitmap (p)` on the page at `p`. Its loop stays in the
page (chunks 0 to 31), so the bytes past it are kept. -/
@[simps]
def clearEptBasedOnBitmap (s : VtEptState) (p : UInt64) : VtEptState :=
  { s with
    mem := fun x =>
      if pageNum p * 4096 ≤ x ∧ x < pageNum p * 4096 + 4096 then
        (Ept.clearEptBasedOnBitmap (s.page p)).bytes (x - pageNum p * 4096)
      else s.mem x
    storage := Function.update s.storage (pageNum p) (Ept.clearEptBasedOnBitmap (s.page p)).storage }

/-- `update_ept_pml4e_used (p)`: the storage word of the root table holds the
last byte of the highest entry written. -/
def updateEptPml4eUsed (s : VtEptState) (p : UInt64) : VtEptState :=
  let off : UInt32 := (p.toNat % 4096).toUInt32 ||| 7
  if s.storage (pageNum p) < off then { s with storage := Function.update s.storage (pageNum p) off } else s

/-- `clear_ncr3tbl (ept)`: zero the used part of the root table. -/
def clearNcr3tbl (s : VtEptState) : VtEptState :=
  let r := s.ept.ncr3tbl
  let off := s.storage (pageNum r)
  let s := if off ≠ 0 then { s with mem := ByteMem.write s.mem r.toNat (List.replicate (off + 1).toNat 0) } else s
  { s with storage := Function.update s.storage (pageNum r) 0 }

@[simps]
def setCurLevel (s : VtEptState) (level : Nat) : VtEptState :=
  { s with ept := { s.ept with cur := { s.ept.cur with level := level } } }

/-- `cur_move (ept, gphys)` on the memory of the state. -/
@[simps]
def curMove (s : VtEptState) (gphys : UInt64) : VtEptState :=
  { s with ept := Ept.curMove (wordsOf s.mem) s.ept gphys }

end VtEptState

def curFillLoop (allocPage : Nat → UInt64) (gphys : UInt64) (level : Nat) :
    Nat → VtEptState → UInt64 → Nat → VtEptState × UInt64
  | 0, s, p, _ => (s, p)
  | fuel + 1, s, p, l =>
    if level < l then
      let s := s.eptTblAlloc allocPage s.cnt
      let s := if l < 3 then s.setBitmapForEptEntry p else s.updateEptPml4eUsed p
      let t := (s.tbl s.cnt).getD 0
      let s := s.store p (t ||| epteReadexec ||| epteWrite)
      let s := { s with cnt := s.cnt + 1 }
      let s := s.clearEptBasedOnBitmap t
      curFillLoop allocPage gphys level fuel s (t + 8 * ((gphys >>> (9 * l + 3).toUInt64) &&& 0x1FF)) (l - 1)
    else (s, p)

/-- `cur_fill (ept, gphys, level)`, after `cur_move (ept, gphys)`: the entry of
level `level` on the walk of `gphys`, marked as used, with the tables above
it attached. When the pool cannot hold the tables the walk needs, the root
table is cleared, the pool emptied and the walk started again from the
root. -/
def curFill (allocPage : Nat → UInt64) (s : VtEptState) (gphys : UInt64) (level : Nat) :
    VtEptState × UInt64 :=
  let s := if (s.cnt : Int) + (s.ept.cur.level : Int) - (level : Int) > (maxnumOfEptbl : Int) then
      { s.clearNcr3tbl with cnt := 0 }.setCurLevel 3
    else s
  let l := s.ept.cur.level
  let r := curFillLoop allocPage gphys level l s (s.ept.cur.entry l) l
  let s := if level < 3 then r.1.setBitmapForEptEntry r.2 else r.1.updateEptPml4eUsed r.2
  (s, r.2)

def mapPageEntry (env : Gmm) (gphys : UInt64) : UInt64 :=
  let hphys := (env.gp2hp gphys).1 &&& ~~~0xFFF
  let hattr := ((env.gmtrrType gphys).toUInt64 <<< 3) ||| epteReadexec ||| epteWrite
  let hattr := if (env.gp2hp gphys).2 then hattr &&& ~~~epteWrite else hattr
  hphys ||| hattr

/-- `vt_ept_map_page (ept, write, gphys)`; `none` is the panic on a write to
VMM memory. -/
def vtEptMapPage (env : Gmm) (allocPage : Nat → UInt64) (s : VtEptState) (write : Bool)
    (gphys : UInt64) : Option VtEptState :=
  let r := curFill allocPage s gphys 0
  if (env.gp2hp gphys).2 && write then none
  else some (r.1.store r.2 (mapPageEntry env gphys))

def map2mpageEntry (env : Gmm) (gphys : UInt64) : UInt64 :=
  let hphys := env.gp2hp2m (gphys &&& ~~~0x1FFFFF)
  let hattr := ((env.gmtrrType (gphys &&& ~~~0x1FFFFF)).toUInt64 <<< 3) ||| epteReadexec ||| epteWrite |||
    epteLarge
  hphys ||| hattr

/-- `vt_ept_map_2mpage (ept, gphys)`: `true` when no 2 MiB page is mapped. -/
def vtEptMap2mpage (env : Gmm) (allocPage : Nat → UInt64) (s : VtEptState) (gphys : UInt64) :
    Bool × VtEptState :=
  if s.ept.cur.level < 1 then (true, s)
  else if env.gp2hp2m (gphys &&& ~~~0x1FFFFF) = gmmGp2hp2m1gFail then (true, s)
  else if !env.gmtrrTypeEqual (gphys &&& ~~~0x1FFFFF) 0x1FFFFF then (true, s)
  else
    let r := curFill allocPage s gphys 1
    (false, r.1.store r.2 (map2mpageEntry env gphys))

def map1gpageEntry (env : Gmm) (gphys : UInt64) : UInt64 :=
  let hphys := env.gp2hp1g (gphys &&& ~~~0x3FFFFFFF)
  let hattr := ((env.gmtrrType (gphys &&& ~~~0x3FFFFFFF)).toUInt64 <<< 3) ||| epteReadexec ||| epteWrite |||
    epteLarge ||| epteIgnBit11
  hphys ||| hattr

/-- `vt_ept_map_1gpage (ept, gphys)`: `true` when no 1 GiB page is mapped. -/
def vtEptMap1gpage (env : Gmm) (allocPage : Nat → UInt64) (s : VtEptState) (gphys : UInt64) :
    Bool × VtEptState :=
  if s.avlPagesizesLen < 3 then (true, s)
  else if s.ept.cur.level < 2 then (true, s)
  else if env.gp2hp1g (gphys &&& ~~~0x3FFFFFFF) = gmmGp2hp2m1gFail then (true, s)
  else if !env.gmtrrTypeEqual (gphys &&& ~~~0x3FFFFFFF) 0x3FFFFFFF then (true, s)
  else
    let r := curFill allocPage s gphys 2
    (false, r.1.store r.2 (map1gpageEntry env gphys))

def leafEntry (env : Gmm) (gphys : UInt64) : Nat → UInt64
  | 0 => mapPageEntry env gphys
  | 1 => map2mpageEntry env gphys
  | _ => map1gpageEntry env gphys

/-- `case 1:` of the switch of `vt_ept_violation`. -/
def violationPage (env : Gmm) (allocPage : Nat → UInt64) (s : VtEptState) (write : Bool)
    (gphys : UInt64) : Option (Bool × VtEptState) :=
  (vtEptMapPage env allocPage s write gphys).map fun s => (false, s)

/-- `case 2:`, falling through to `case 1:` when no 2 MiB page is mapped. -/
def violation2m (env : Gmm) (allocPage : Nat → UInt64) (s : VtEptState) (write : Bool)
    (gphys : UInt64) : Option (Bool × VtEptState) :=
  let r := vtEptMap2mpage env allocPage s gphys
  if r.1 then violationPage env allocPage r.2 write gphys else some (false, r.2)

/-- `case 3:`, falling through to `case 2:` when no 1 GiB page is mapped. -/
def violation1g (env : Gmm) (allocPage : Nat → UInt64) (s : VtEptState) (write : Bool)
    (gphys : UInt64) : Option (Bool × VtEptState) :=
  let r := vtEptMap1gpage env allocPage s gphys
  if r.1 then violation2m env allocPage r.2 write gphys else some (false, r.2)

/-- `vt_ept_violation (write, gphys, emulation)`: map `gphys` with the largest
page that meets no MMIO range, or return `true` for an MMIO access (which
`cpu_interpreter` then emulates, outside the EPT). A `none` of the MMIO
search, which runs out of its fuel only on a malformed registry, is taken
as the MMIO case. -/
def vtEptViolation (env : Gmm) (allocPage : Nat → UInt64) (reg : X86Mmio.Registry) (s : VtEptState)
    (write : Bool) (gphys : UInt64) : Option (Bool × VtEptState) :=
  let s := s.curMove gphys
  let psArrayLen :=
    if s.ept.cur.level + 1 < s.avlPagesizesLen then s.ept.cur.level + 1 else s.avlPagesizesLen
  match X86Mmio.mmioRangeEachPageSize gphys pagesizes reg psArrayLen with
  | some 3 => violation1g env allocPage s write gphys
  | some 2 => violation2m env allocPage s write gphys
  | some 1 => violationPage env allocPage s write gphys
  | _ => some (true, s)

/-- `vt_ept_shadow_invalidate (ept, gphys)`. -/
def vtEptShadowInvalidate (s : VtEptState) (gphys : UInt64) : VtEptState :=
  let s := s.curMove gphys
  let p := s.ept.cur.entry s.ept.cur.level
  if wordsOf s.mem p &&& eptePresentMask ≠ 0 then s.store p 0 else s

/-- `vt_ept_clear (ept)`: the cursor is reset to level `EPT_LEVELS`. -/
def vtEptClear (s : VtEptState) : VtEptState :=
  { s.clearNcr3tbl with cnt := 0 }.setCurLevel 4

def mapsearchHit (mask start endAddr e : UInt64) : Bool :=
  let tmp1 := e &&& mask
  let tmp2 := tmp1 ||| 0xFFF
  -- the 1 GiB and the 2 MiB page sizes
  let tmp := if e &&& epteIgnBit11 ≠ 0 then (tmp1 &&& ~~~0x3FFFFFFF, tmp2 ||| 0x3FFFFFFF)
    else if e &&& epteLarge ≠ 0 then (tmp1 &&& ~~~0x1FFFFF, tmp2 ||| 0x1FFFFF)
    else (tmp1, tmp2)
  start ≤ tmp.2 && tmp.1 ≤ endAddr

def mapsearchEntries (mask start endAddr : UInt64) (isCurrent : Bool) (t : UInt64) :
    List Nat → VtEptState → Bool × VtEptState
  | [], s => (false, s)
  | j :: js, s =>
    let a := t + 8 * j.toUInt64
    let e := wordsOf s.mem a
    if e &&& epteRead ≠ 0 ∧ mapsearchHit mask start endAddr e then
      if !isCurrent then (true, s) else mapsearchEntries mask start endAddr isCurrent t js (s.store a 0)
    else mapsearchEntries mask start endAddr isCurrent t js s

def mapsearchTables (mask start endAddr : UInt64) (isCurrent : Bool) :
    List Nat → VtEptState → Bool × VtEptState
  | [], s => (false, s)
  | i :: is, s =>
    let r := mapsearchEntries mask start endAddr isCurrent ((s.tbl i).getD 0) (List.range 512) s
    if r.1 then (true, r.2) else mapsearchTables mask start endAddr isCurrent is r.2

/-- `vt_ept_extern_mapsearch (p, start, end)` with `mask` the vcpu's
`pte_addr_mask`; `isCurrent` is `p == current`. -/
def vtEptExternMapsearch (mask start endAddr : UInt64) (isCurrent : Bool) (s : VtEptState) :
    Bool × VtEptState :=
  mapsearchTables mask start endAddr isCurrent (List.range s.cnt) s

/-- `vt_ept_map_1mb ()`: clear the EPT and map every page below 1 MiB that
is not MMIO (`mmio_access_page`). -/
def vtEptMap1mb (env : Gmm) (allocPage : Nat → UInt64) (isMmio : UInt64 → Bool) (s : VtEptState) :
    Option VtEptState :=
  (List.range 256).foldlM
    (fun s i =>
      let gphys : UInt64 := (i * 4096).toUInt64
      if isMmio gphys then some s else vtEptMapPage env allocPage (s.curMove gphys) false gphys)
    (vtEptClear s)

/-- `vt_ept_new (maxnumtbl)` with the root table at `ncr3tbl`, over the memory
`mem` and storage words `storage` it finds. The cursor's address and entries
are not set by the source; at level `EPT_LEVELS` they are never read. -/
def vtEptNew (allocPage : Nat → UInt64) (ncr3tbl : UInt64) (maxnumtbl : Int) (ept1gb : Bool)
    (mem : Nat → UInt8) (storage : Nat → UInt32) : VtEptState :=
  let maxnumtbl := if maxnumtbl < 8 then 8 else if maxnumtbl > (maxnumOfEptbl : Int) then (maxnumOfEptbl : Int)
    else maxnumtbl
  let s : VtEptState :=
    { ept := ⟨ncr3tbl, ⟨4, 0, fun _ => 0⟩⟩
      cnt := 0
      tbl := fun _ => none
      avlPagesizesLen := if ept1gb then 3 else 2
      mem := ByteMem.write mem ncr3tbl.toNat (List.replicate 4096 0)
      storage := Function.update storage (pageNum ncr3tbl) 0 }
  -- the first tables are allocated as `ept_tbl_alloc` allocates a free slot
  (List.range defnumOfEptbl).foldl
    (fun s (i : Nat) => if (i : Int) < maxnumtbl then s.eptTblAlloc allocPage i else s) s

end Bitvisor.Ept
