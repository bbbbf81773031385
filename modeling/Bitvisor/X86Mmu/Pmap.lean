import Mathlib
import Bitvisor.Lib.ByteMem

namespace Bitvisor.X86Mmu

/-! The guest page-table cursor of `core/x86/pmap.c` as `cpu_mmu.c` uses it:
opened on a guest with atomic accesses, so that reads go through
`cmpxchg_gphys` with an old value of 0 (which reads) and writes through
`cmpxchg_gphys` with the entry last read as the old value. Guest physical
memory is a byte memory and entries are little-endian. -/

abbrev Mem := Nat → UInt8

def leNat : List UInt8 → Nat
  | [] => 0
  | b :: bs => b.toNat + 256 * leNat bs

def leBytes (n v : Nat) : List UInt8 := (List.range n).map fun i => (v / 256 ^ i).toUInt8

/-- `read_gphys_l` / `read_gphys_q` of `n` bytes at `phys`. -/
def readGphys (mem : Mem) (phys : UInt64) (n : Nat) : UInt64 :=
  (leNat (ByteMem.read mem phys.toNat n)).toUInt64

/-- `cmpxchg_gphys_l` / `_q` of `n` bytes: `false` when `old` was there and
`data` replaced it, `true` with the value found otherwise. -/
def cmpxchgGphys (mem : Mem) (phys : UInt64) (n : Nat) (old data : UInt64) :
    Bool × UInt64 × Mem :=
  let cur := readGphys mem phys n
  if cur = old then (false, old, ByteMem.write mem phys.toNat (leBytes n data.toNat))
  else (true, cur, mem)

/-- `pmap_t`; only the guest atomic type occurs here. -/
structure Pmap where
  entry : Nat → UInt64
  entryaddr : Nat → UInt64
  curaddr : UInt64
  curlevel : Nat
  readlevel : Nat
  levels : Nat

def pdePBit : UInt64 := 0x1
def pdeRwBit : UInt64 := 0x2
def pdeUsBit : UInt64 := 0x4
def pdePwtBit : UInt64 := 0x8
def pdePcdBit : UInt64 := 0x10
def pdeABit : UInt64 := 0x20
def pdeDBit : UInt64 := 0x40
def pdePsBit : UInt64 := 0x80
def pde4mPatBit : UInt64 := 0x1000
def pdeNxBit : UInt64 := 0x8000000000000000
def ptePatBit : UInt64 := 0x80

/-- `pmap_open_guest (m, cr3, levels, true)`. The other fields are not set
by the C code; they are read only after a seek or a read sets them. -/
def pmapOpenGuest (cr3 : UInt64) (levels : Nat) : Pmap where
  entry := fun i =>
    if i = levels then
      (if levels = 3 then cr3 &&& (~~~0x1F ||| 0x8 ||| 0x10)
        else cr3 &&& (~~~0xFFF ||| 0x8 ||| 0x10)) ||| pdePBit
    else 0
  entryaddr := fun _ => 0
  curaddr := 0
  curlevel := levels - 1
  readlevel := levels
  levels := levels

def pmapSetlevel (m : Pmap) (level : Nat) : Pmap := { m with curlevel := level - 1 }

/-- `masks[levels - 2][readlevel]` of `pmap_seek`. -/
def seekMask (levels readlevel : Nat) : UInt64 :=
  match levels, readlevel with
  | 2, 0 => 0xFFFFF000 | 2, 1 => 0xFFC00000
  | 3, 0 => 0xFFFFF000 | 3, 1 => 0xFFE00000 | 3, 2 => 0xC0000000
  | 4, 0 => 0x0000FFFFFFFFF000 | 4, 1 => 0x0000FFFFFFE00000
  | 4, 2 => 0x0000FFFFC0000000 | 4, 3 => 0x0000FF8000000000
  | _, _ => 0

def pmapSeekLoop (virtaddr : UInt64) : Nat → Pmap → Pmap
  | 0, m => m
  | fuel + 1, m =>
    if m.readlevel < m.levels then
      let mask := seekMask m.levels m.readlevel
      if m.curaddr &&& mask = virtaddr &&& mask then m
      else pmapSeekLoop virtaddr fuel { m with readlevel := m.readlevel + 1 }
    else m

def pmapSeek (m : Pmap) (virtaddr : UInt64) (level : Nat) : Pmap :=
  let m := pmapSetlevel m level
  { pmapSeekLoop virtaddr m.levels m with curaddr := virtaddr }

/-- `handle_pde_ps_bit` of `pmap_read`: the entry of the 4 KiB page inside
a large page. -/
def handlePdePsBit (m : Pmap) (tmp : UInt64) : UInt64 :=
  let tmp := tmp &&& ~~~pdePsBit
  let tmp := if tmp &&& pde4mPatBit ≠ 0 then (tmp ||| ptePatBit) &&& ~~~pde4mPatBit else tmp
  if m.levels = 2 then
    let tmp := tmp ||| (((tmp &&& 0x1FE000) >>> 13) <<< 32)
    (tmp &&& ~~~0x3FF000) ||| (m.curaddr &&& 0x3FF000)
  else (tmp &&& ~~~0x1FF000) ||| (m.curaddr &&& 0x1FF000)

def pmapReadLoop (mem : Mem) : Nat → Pmap → UInt64 × Pmap
  | 0, m => (m.entry m.curlevel, m)
  | fuel + 1, m =>
    if m.readlevel > m.curlevel then
      let tmp := m.entry m.readlevel
      if tmp &&& pdePBit = 0 then (0, m)
      else if m.readlevel = 2 ∧ tmp &&& pdePsBit ≠ 0 then
        -- a 1 GiB page seen as a 2 MiB one
        let tmp := (tmp &&& ~~~0x3FE00000) ||| (m.curaddr &&& 0x3FE00000)
        if m.curlevel = 0 then (handlePdePsBit m tmp, m) else (tmp, m)
      else if m.readlevel = 1 ∧ tmp &&& pdePsBit ≠ 0 then (handlePdePsBit m tmp, m)
      else
        let tmp := if m.levels = 3 ∧ m.readlevel = 3 then tmp &&& 0xFFFFFFE0
          else tmp &&& 0x0000FFFFFFFFF000
        let rl := m.readlevel - 1
        let (addr, width) :=
          if m.levels = 2 then (tmp ||| ((m.curaddr >>> (10 + 10 * rl).toUInt64) &&& 0xFFC), 4)
          else (tmp ||| ((m.curaddr >>> (9 + 9 * rl).toUInt64) &&& 0xFF8), 8)
        pmapReadLoop mem fuel
          { m with readlevel := rl,
                   entryaddr := Function.update m.entryaddr rl addr,
                   entry := Function.update m.entry rl (readGphys mem addr width) }
    else (m.entry m.curlevel, m)

def pmapRead (mem : Mem) (m : Pmap) : UInt64 × Pmap := pmapReadLoop mem m.readlevel m

/-- `pmap_write (m, e, attrmask)`: compare-exchange of the entry at the
current level against the value last read. On a failure the value found is
cached and the caller reads again. -/
def pmapWrite (mem : Mem) (m : Pmap) (e : UInt64) (attrmask : UInt64) : Bool × Pmap × Mem :=
  let attrdef : UInt64 :=
    if m.levels = 3 ∧ m.curlevel = 2 then 0
    else if m.curlevel = 0 then 0x2 ||| 0x4 ||| 0x20 ||| 0x40
    else 0x2 ||| 0x4 ||| 0x20
  let e := (e &&& (~~~0xFFF ||| attrmask)) ||| (attrdef &&& ~~~attrmask)
  let (fail, e, mem) :=
    if m.levels = 2 then
      let (fail, found, mem) :=
        cmpxchgGphys mem (m.entryaddr m.curlevel) 4 (m.entry m.curlevel).toUInt32.toUInt64
          e.toUInt32.toUInt64
      (fail, if fail then found else e, mem)
    else
      let (fail, found, mem) := cmpxchgGphys mem (m.entryaddr m.curlevel) 8 (m.entry m.curlevel) e
      (fail, if fail then found else e, mem)
  let m := { m with entry := Function.update m.entry m.curlevel e }
  (fail, if fail then { m with readlevel := m.curlevel } else m, mem)

/-- `m->entry[levels]` of `pmap_open_guest` for `levels` other than 3. -/
def openEntry (cr3 : UInt64) : UInt64 := (cr3 &&& (~~~0xFFF ||| 0x8 ||| 0x10)) ||| pdePBit

theorem or_and_distrib (x y z : UInt64) : (x ||| y) &&& z = (x &&& z) ||| (y &&& z) :=
  UInt64.toBitVec_inj.1 BitVec.and_or_distrib_right

theorem pmapReadLoop_of_le (mem : Mem) {m : Pmap} (h : m.readlevel ≤ m.curlevel) (fuel : Nat) :
    pmapReadLoop mem fuel m = (m.entry m.curlevel, m) := by
  cases fuel with
  | zero => rfl
  | succ n => simp [pmapReadLoop]; omega

theorem pmapRead_of_le (mem : Mem) {m : Pmap} (h : m.readlevel ≤ m.curlevel) :
    pmapRead mem m = (m.entry m.curlevel, m) :=
  pmapReadLoop_of_le mem h _

theorem pmapSeek_open (cr3 virt : UInt64) (levels : Nat) :
    pmapSeek (pmapOpenGuest cr3 levels) virt (levels + 1) =
      { pmapOpenGuest cr3 levels with curlevel := levels, curaddr := virt } := by
  simp [pmapSeek, pmapSetlevel, pmapOpenGuest]
  cases levels <;> simp [pmapSeekLoop]

theorem pmapRead_table32 (mem : Mem) {m : Pmap} (hl : m.levels = 2)
    (hr : m.readlevel = m.curlevel + 1) (hp : m.entry m.readlevel &&& pdePBit ≠ 0)
    (hps : m.entry m.readlevel &&& pdePsBit = 0) :
    (pmapRead mem m).1 = readGphys mem ((m.entry m.readlevel &&& 0x0000FFFFFFFFF000) |||
      ((m.curaddr >>> (10 + 10 * m.curlevel).toUInt64) &&& 0xFFC)) 4 := by
  rw [hr] at hp hps ⊢
  simp only [pmapRead, hr, pmapReadLoop, if_pos (Nat.lt_succ_self _), if_neg hp, hps, ne_eq,
    not_true_eq_false, and_false, if_false, hl, Nat.add_sub_cancel]
  rw [pmapReadLoop_of_le mem (by simp)]
  simp

@[simp] theorem pmapOpenGuest_readlevel (cr3 : UInt64) (levels : Nat) :
    (pmapOpenGuest cr3 levels).readlevel = levels := rfl

@[simp] theorem pmapOpenGuest_levels (cr3 : UInt64) (levels : Nat) :
    (pmapOpenGuest cr3 levels).levels = levels := rfl

theorem pmapOpenGuest_entry_self {levels : Nat} (cr3 : UInt64) (h : levels ≠ 3) :
    (pmapOpenGuest cr3 levels).entry levels = openEntry cr3 := by
  simp [pmapOpenGuest, openEntry, h]

theorem openEntry_and (cr3 k : UInt64) :
    openEntry cr3 &&& k = (cr3 &&& ((~~~0xFFF ||| 0x8 ||| 0x10) &&& k)) ||| (pdePBit &&& k) := by
  rw [openEntry, or_and_distrib, UInt64.and_assoc]

theorem openEntry_present (cr3 : UInt64) : openEntry cr3 &&& pdePBit ≠ 0 := by
  rw [openEntry_and]
  have h₁ : (~~~0xFFF ||| 0x8 ||| 0x10 : UInt64) &&& pdePBit = 0 := by decide
  have h₂ : pdePBit &&& pdePBit = 1 := by decide
  simp [h₁, h₂]

theorem openEntry_ps (cr3 : UInt64) : openEntry cr3 &&& pdePsBit = 0 := by
  rw [openEntry_and]
  have h₁ : (~~~0xFFF ||| 0x8 ||| 0x10 : UInt64) &&& pdePsBit = 0 := by decide
  have h₂ : pdePBit &&& pdePsBit = 0 := by decide
  simp [h₁, h₂]

theorem openEntry_table (cr3 : UInt64) :
    openEntry cr3 &&& 0x0000FFFFFFFFF000 = cr3 &&& 0x0000FFFFFFFFF000 := by
  rw [openEntry_and]
  have h₁ : (~~~0xFFF ||| 0x8 ||| 0x10 : UInt64) &&& 0x0000FFFFFFFFF000 = 0x0000FFFFFFFFF000 := by
    decide
  have h₂ : pdePBit &&& 0x0000FFFFFFFFF000 = 0 := by decide
  simp [h₁, h₂]

end Bitvisor.X86Mmu
