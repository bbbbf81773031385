import Bitvisor.X86Mmu.Pmap

namespace Bitvisor.X86Mmu

/-! `cpu_mmu_get_pte` of `core/x86/cpu_mmu.c`: the guest page walk that
checks presence, reserved bits and the access rights level by level, and
sets the accessed and dirty flags as it goes. `pteAddrMask` is
`current->pte_addr_mask`, the address bits of the processor's physical
address width. -/

/-- `struct get_pte_data`. -/
structure GetPteData where
  pg : Bool
  wp : Bool
  pse : Bool
  pae : Bool
  pcide : Bool
  lme : Bool
  nxe : Bool
  write : Bool
  user : Bool
  exec : Bool
  deriving DecidableEq, Repr

inductive Vmmerr
  | success
  | pageNotPresent
  | pageBadReservedBit
  | pageNotAccessible
  | pageNotExecutable
  deriving DecidableEq, Repr

def pteAddrMask64 : UInt64 := 0x0000000FFFFFF000

/-- `reserved_bit_table[nxe][levels - 2][level]`; `level` is 0 for a PDE
of a large page, 1 for a PTE, 2 for a PDE, 3 for a PDPE, 4 for a PML4E and
5 for a PDPE of a 1 GiB page. -/
def reservedBitTable (nxe : Bool) (levels level : Nat) : UInt64 :=
  let rows : List (List UInt64) :=
    if nxe then
      [[0x0000000000200000, 0, 0, 0xFFFFFFFFFFFFFFFF, 0xFFFFFFFFFFFFFFFF, 0xFFFFFFFFFFFFFFFF],
       [0x7FFFFFF0001FE000, 0x7FFFFFF000000000, 0x7FFFFFF000000000, 0xFFFFFFF0000001E6,
        0xFFFFFFFFFFFFFFFF, 0xFFFFFFFFFFFFFFFF],
       [0x000FFFF0001FE000, 0x000FFFF000000000, 0x000FFFF000000000, 0x000FFFF000000100,
        0x000FFFF000000180, 0x000FFFF03FFFE000]]
    else
      [[0x0000000000200000, 0, 0, 0xFFFFFFFFFFFFFFFF, 0xFFFFFFFFFFFFFFFF, 0xFFFFFFFFFFFFFFFF],
       [0xFFFFFFF0001FE000, 0xFFFFFFF000000000, 0xFFFFFFF000000000, 0xFFFFFFF0000001E6,
        0xFFFFFFFFFFFFFFFF, 0xFFFFFFFFFFFFFFFF],
       [0x800FFFF0001FE000, 0x800FFFF000000000, 0x800FFFF000000000, 0x800FFFF000000100,
        0x800FFFF000000180, 0x800FFFF03FFFE000]]
  (rows.getD (levels - 2) []).getD level 0

def testPmapEntryReservedBit (pteAddrMask entry : UInt64) (level levels : Nat) (d : GetPteData) :
    Bool :=
  if !d.pae ∧ !d.pse then false
  else
    let level := if level = 2 ∧ entry &&& pdePsBit ≠ 0 then 0 else level
    let level := if level = 3 ∧ levels = 4 ∧ entry &&& pdePsBit ≠ 0 then 5 else level
    let mask := reservedBitTable d.nxe levels level ^^^ (pteAddrMask ^^^ pteAddrMask64)
    entry &&& mask ≠ 0

/-- `set_ad_bit (m, &entry, seta, setd)`: the entry with the flags it
sets, and whether the write found another value (the caller retries). -/
def setAdBit (mem : Mem) (m : Pmap) (entry : UInt64) (seta setd : Bool) :
    Bool × UInt64 × Pmap × Mem :=
  let seta := seta ∧ entry &&& pdeABit = 0
  let setd := setd ∧ entry &&& pdeDBit = 0
  if seta ∨ setd then
    let entry := if seta then entry ||| pdeABit else entry
    let entry := if setd then entry ||| pdeDBit else entry
    let (fail, m, mem) := pmapWrite mem m entry 0xFFF
    (fail, entry, m, mem)
  else (false, entry, m, mem)

structure GetPteOut where
  r : Vmmerr
  entries : Nat → UInt64
  levels : Nat
  mem : Mem

def getPteLoop (pteAddrMask : UInt64) (d : GetPteData) (levels : Nat) :
    Nat → Nat → Pmap → Mem → (Nat → UInt64) → Option GetPteOut
  | 0, _, _, _, _ => none
  | _ + 1, 0, _, mem, entries => some ⟨.success, entries, levels, mem⟩
  | fuel + 1, i + 1, m, mem, entries =>
    let m := pmapSetlevel m (i + 1)
    let (entry, m) := pmapRead mem m
    let stop (r : Vmmerr) := some ⟨r, entries, levels, mem⟩
    if entry &&& pdePBit = 0 then stop .pageNotPresent
    else if testPmapEntryReservedBit pteAddrMask entry (i + 1) levels d then stop .pageBadReservedBit
    else
      let entry := if levels = 3 ∧ i + 1 = 3 then entry ||| pdeRwBit ||| pdeUsBit ||| pdeABit
        else entry
      if entry &&& pdeUsBit = 0 ∧ d.user then stop .pageNotAccessible
      else if entry &&& pdeRwBit = 0 ∧ d.write ∧ (d.wp ∨ d.user) then stop .pageNotAccessible
      else if entry &&& pdeNxBit ≠ 0 ∧ d.exec ∧ d.nxe then stop .pageNotExecutable
      else
        let entry := if i + 1 = 2 ∧ !d.pse then entry &&& ~~~pdePsBit else entry
        let setd := if (i + 1 = 2 ∧ entry &&& pdePsBit ≠ 0) ∨ i + 1 = 1 ∨
            (i + 1 = 3 ∧ entry &&& pdePsBit ≠ 0) then d.write else false
        let (retry, entry, m, mem) := setAdBit mem m entry true setd
        if retry then getPteLoop pteAddrMask d levels fuel (i + 1) m mem entries
        else getPteLoop pteAddrMask d levels fuel i m mem (Function.update entries i entry)

/-- `get_pte_sub (virt, cr3, d, entries, plevels)`. The fuel allows one
retry per level beyond the walk itself. -/
def getPteSub (pteAddrMask : UInt64) (mem : Mem) (virt cr3 : UInt64) (d : GetPteData) :
    Option GetPteOut :=
  if !d.pg then
    some ⟨.success, fun i =>
      if i = 0 then (virt &&& pteAddrMask) ||| 0x1 ||| 0x2 ||| 0x4 ||| 0x20 ||| 0x40
      else if i = 1 then 0x1 ||| 0x2 ||| 0x4 ||| 0x20 ||| 0x40 ||| 0x80
      else 0, 1, mem⟩
  else
    let (d, levels) : GetPteData × Nat :=
      if d.lme then ({ d with pae := true, pse := true }, 4)
      else if d.pae then ({ d with pse := true }, 3)
      else (d, 2)
    let cr3 := if levels = 4 ∧ d.pcide then cr3 &&& ~~~0xFFF else cr3
    let m := pmapSeek (pmapOpenGuest cr3 levels) virt (levels + 1)
    let (entry, m) := pmapRead mem m
    let entry := entry ||| pdeRwBit ||| pdeUsBit ||| pdeABit
    getPteLoop pteAddrMask d levels (2 * levels + 1) levels m mem (fun i => if i = levels then entry else 0)

/-- `cpu_mmu_get_pte (virt, cr0, cr3, cr4, efer, write, user, exec, ...)`. -/
def cpuMmuGetPte (pteAddrMask : UInt64) (mem : Mem) (virt cr0 cr3 cr4 efer : UInt64)
    (write user exec : Bool) : Option GetPteOut :=
  getPteSub pteAddrMask mem virt cr3
    { pg := cr0 &&& 0x80000000 ≠ 0, wp := cr0 &&& 0x10000 ≠ 0, pse := cr4 &&& 0x10 ≠ 0,
      pae := cr4 &&& 0x20 ≠ 0, pcide := cr4 &&& 0x20000 ≠ 0, lme := efer &&& 0x100 ≠ 0,
      nxe := efer &&& 0x800 ≠ 0, write, user, exec }

def pde32 (mem : Mem) (cr3 virt : UInt64) : UInt64 :=
  readGphys mem ((cr3 &&& 0x0000FFFFFFFFF000) ||| ((virt >>> (20 : UInt64)) &&& 0xFFC)) 4

theorem getPteLoop_user_supervisor (pteAddrMask : UInt64) (d : GetPteData) (levels fuel i : Nat)
    (m : Pmap) (mem : Mem) (entries : Nat → UInt64) {e : UInt64}
    (he : (pmapRead mem (pmapSetlevel m (i + 1))).1 = e) (hp : e &&& pdePBit ≠ 0)
    (hres : testPmapEntryReservedBit pteAddrMask e (i + 1) levels d = false)
    (hpdpt : ¬(levels = 3 ∧ i + 1 = 3)) (hus : e &&& pdeUsBit = 0) (huser : d.user = true) :
    (getPteLoop pteAddrMask d levels (fuel + 1) (i + 1) m mem entries).map GetPteOut.r =
      some .pageNotAccessible := by
  simp only [getPteLoop, he, if_neg hp, hres, Bool.false_eq_true, if_false, if_neg hpdpt, hus,
    huser, and_self, if_true, Option.map_some]

theorem cpuMmuGetPte_user_supervisor_pde32 (pteAddrMask : UInt64) (mem : Mem)
    (virt cr0 cr3 cr4 efer : UInt64) (write exec : Bool)
    (hpg : cr0 &&& 0x80000000 ≠ 0) (hpse : cr4 &&& 0x10 = 0) (hpae : cr4 &&& 0x20 = 0)
    (hlme : efer &&& 0x100 = 0) (hp : pde32 mem cr3 virt &&& pdePBit ≠ 0)
    (hus : pde32 mem cr3 virt &&& pdeUsBit = 0) :
    (cpuMmuGetPte pteAddrMask mem virt cr0 cr3 cr4 efer write true exec).map GetPteOut.r =
      some .pageNotAccessible := by
  simp only [cpuMmuGetPte, getPteSub, hpg, hpse, hpae, hlme, ne_eq, not_true_eq_false,
    not_false_eq_true, decide_false, decide_true, Bool.not_true, Bool.false_eq_true, if_false,
    Nat.reduceEqDiff, false_and, Nat.reduceAdd, pmapSeek_open]
  rw [pmapRead_of_le mem (by simp)]
  refine getPteLoop_user_supervisor _ _ 2 4 1 _ mem _ ?_ hp ?_ (by decide) hus rfl
  · have := pmapRead_table32 mem
      (m := pmapSetlevel { pmapOpenGuest cr3 2 with curlevel := 2, curaddr := virt } 2)
      rfl rfl (by simpa [pmapSetlevel, pmapOpenGuest_entry_self] using openEntry_present cr3)
      (by simpa [pmapSetlevel, pmapOpenGuest_entry_self] using openEntry_ps cr3)
    simpa [pmapSetlevel, pmapOpenGuest_entry_self, openEntry_table, pde32] using this
  · simp [testPmapEntryReservedBit]

inductive Walk32
  | notPresent
  | noAccess
  | frame (pte : UInt64)
  deriving DecidableEq, Repr

def sdmWalk32 (mem : Mem) (cr3 virt : UInt64) (write user : Bool) (wp : Bool) : Walk32 :=
  let pde := readGphys mem ((cr3 &&& 0xFFFFF000) ||| (((virt >>> (22 : UInt64)) &&& 0x3FF) <<< (2 : UInt64))) 4
  if pde &&& pdePBit = 0 then .notPresent
  else
    let pte := readGphys mem ((pde &&& 0xFFFFF000) ||| (((virt >>> (12 : UInt64)) &&& 0x3FF) <<< (2 : UInt64))) 4
    if pte &&& pdePBit = 0 then .notPresent
    else
      let us := pde &&& pte &&& pdeUsBit ≠ 0
      let rw := pde &&& pte &&& pdeRwBit ≠ 0
      if (user ∧ !us) ∨ (write ∧ !rw ∧ (user ∨ wp)) then .noAccess else .frame pte

def supervisorPdeMem : Mem := fun a =>
  if a = 0x1000 then 0x03 else if a = 0x1001 then 0x20 else 0

/-- A user read of address 0 under 32-bit paging: the architectural walk
stops at the PTE, which is not present, and the fault is a not-present one;
`cpu_mmu_get_pte` stops at the PDE on its U/S bit and answers
`VMMERR_PAGE_NOT_ACCESSIBLE`. -/
theorem cpuMmuGetPte_supervisor_pde_before_absent_pte :
    sdmWalk32 supervisorPdeMem 0x1000 0 false true false = .notPresent ∧
    (cpuMmuGetPte pteAddrMask64 supervisorPdeMem 0 0x80000000 0x1000 0 0 false true false).map
      GetPteOut.r = some .pageNotAccessible := by
  decide

end Bitvisor.X86Mmu
