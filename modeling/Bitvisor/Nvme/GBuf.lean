import Mathlib

namespace Bitvisor.Nvme

/-- `NVME_VENDOR_ID_APPLE`. -/
def nvmeVendorIdApple : UInt16 := 0x106B

structure NvmeHost where
  vendorId : UInt16
  pageNbytes : UInt64
  pageMask : UInt64
  page_ok : pageNbytes = 4096 ∧ pageMask = ~~~0xFFF

structure NvmeRequest where
  isHReq : Bool
  flags : UInt8
  ptr1 : UInt64
  ptr2 : UInt64
  totalNbytes : UInt64
  deriving DecidableEq, Repr

abbrev GuestMem := UInt64 → UInt64

/-- `struct g_buf_list` as a list element: `buf` is the mapping of
`addr_phys` for `nbytes` bytes. -/
structure GBufList where
  addrPhys : UInt64
  nbytes : UInt64
  deriving DecidableEq, Repr

/-- `struct nvme_io_g_buf`. -/
structure NvmeIoGBuf where
  bufList : List GBufList
  totalNbytes : UInt64
  deriving DecidableEq, Repr

def prpNextSlot (host : NvmeHost) (mem : GuestMem) (lastIdx : UInt32) (list : UInt64)
    (idx : UInt32) : UInt64 × UInt32 :=
  if idx = lastIdx then (mem (list + idx.toUInt64 * 8) &&& host.pageMask, 0) else (list, idx)

def prpListLoop (host : NvmeHost) (mem : GuestMem) (lastIdx : UInt32) :
    Nat → UInt64 → UInt32 → UInt64 → Option (List GBufList)
  | 0, _, _, _ => none
  | fuel + 1, list, idx, remaining =>
      if remaining = 0 then some []
      else
        let slot := prpNextSlot host mem lastIdx list idx
        let addr := mem (slot.1 + slot.2.toUInt64 * 8)
        if addr = 0 then none
        else
          let nbytes := if remaining ≤ host.pageNbytes then remaining else host.pageNbytes
          (prpListLoop host mem lastIdx fuel slot.1 (slot.2 + 1) (remaining - nbytes)).map
            (⟨addr, nbytes⟩ :: ·)

theorem toNat_add_toNat_sub {a b : UInt64} (h : b ≤ a) : b.toNat + (a - b).toNat = a.toNat := by
  rw [UInt64.toNat_sub_of_le a b h]
  rw [UInt64.le_iff_toNat_le] at h
  omega

theorem chunk_le (remaining page : UInt64) :
    (if remaining ≤ page then remaining else page) ≤ remaining := by
  split
  · exact UInt64.le_refl remaining
  · rename_i h
    rw [UInt64.le_iff_toNat_le] at h ⊢
    omega

section Loop

variable (host : NvmeHost) (mem : GuestMem) (lastIdx : UInt32)

def prpDataSlots : Nat → UInt64 → UInt32 → UInt64 → List UInt64
  | 0, _, _, _ => []
  | fuel + 1, list, idx, remaining =>
      if remaining = 0 then []
      else
        let slot := prpNextSlot host mem lastIdx list idx
        let nbytes := if remaining ≤ host.pageNbytes then remaining else host.pageNbytes
        (slot.1 + slot.2.toUInt64 * 8) :: prpDataSlots fuel slot.1 (slot.2 + 1) (remaining - nbytes)

theorem prpListLoop_sum :
    ∀ fuel list idx (remaining : UInt64), remaining.toNat < fuel →
      (∀ a ∈ prpDataSlots host mem lastIdx fuel list idx remaining, mem a ≠ 0) →
      ∃ segs, prpListLoop host mem lastIdx fuel list idx remaining = some segs ∧
        (segs.map (·.nbytes.toNat)).sum = remaining.toNat := by
  intro fuel
  induction fuel with
  | zero => intro _ _ _ h; omega
  | succ fuel ih =>
    intro list idx remaining hfuel hmem
    by_cases h0 : remaining = 0
    · exact ⟨[], by simp [prpListLoop, h0], by simp [h0]⟩
    · have hp := host.page_ok.1
      have hle := chunk_le remaining host.pageNbytes
      have hsum := toNat_add_toNat_sub hle
      have hpos : 0 < (if remaining ≤ host.pageNbytes then remaining else host.pageNbytes).toNat := by
        split
        · have : remaining.toNat ≠ 0 := fun h => h0 (UInt64.toNat_inj.1 (by simpa using h))
          omega
        · simp [hp]
      simp only [prpDataSlots, h0, if_false, List.mem_cons, forall_eq_or_imp] at hmem
      obtain ⟨haddr, hrest⟩ := hmem
      obtain ⟨segs, hsegs, hs⟩ := ih (prpNextSlot host mem lastIdx list idx).1
        ((prpNextSlot host mem lastIdx list idx).2 + 1)
        (remaining - if remaining ≤ host.pageNbytes then remaining else host.pageNbytes) (by omega) hrest
      refine ⟨⟨mem ((prpNextSlot host mem lastIdx list idx).1 +
          (prpNextSlot host mem lastIdx list idx).2.toUInt64 * 8),
        if remaining ≤ host.pageNbytes then remaining else host.pageNbytes⟩ :: segs, ?_, ?_⟩
      · simp [prpListLoop, h0, haddr, hsegs]
      · simp only [List.map_cons, List.sum_cons, hs]
        omega

end Loop

/-- `nvme_io_alloc_g_buf`: `some none` is the `NULL` returned for a host
request, `none` a failed `ASSERT`. -/
def nvmeIoAllocGBuf (host : NvmeHost) (mem : GuestMem) (gReq : NvmeRequest) :
    Option (Option NvmeIoGBuf) :=
  if gReq.isHReq then some none
  else if gReq.ptr1 = 0 then none
  else if host.vendorId = nvmeVendorIdApple ∧ gReq.flags &&& 0x20 ≠ 0 then
    some (some ⟨[⟨gReq.ptr1, gReq.totalNbytes⟩], gReq.totalNbytes⟩)
  else
    let ptr1Offset := gReq.ptr1 &&& ~~~host.pageMask
    let ptr1Nbytes :=
      if ptr1Offset + gReq.totalNbytes ≤ host.pageNbytes then gReq.totalNbytes
      else host.pageNbytes - ptr1Offset
    let first : GBufList := ⟨gReq.ptr1, ptr1Nbytes⟩
    let remaining := gReq.totalNbytes - ptr1Nbytes
    if remaining = 0 then some (some ⟨[first], gReq.totalNbytes⟩)
    else if remaining ≤ host.pageNbytes then
      if gReq.ptr2 = 0 then none
      else some (some ⟨[first, ⟨gReq.ptr2, remaining⟩], gReq.totalNbytes⟩)
    else
      let idx := ((gReq.ptr2 &&& ~~~host.pageMask) >>> 3).toUInt32
      let lastIdx := (~~~host.pageMask >>> 3).toUInt32
      (prpListLoop host mem lastIdx (remaining.toNat + 1) (gReq.ptr2 &&& host.pageMask) idx
        remaining).map fun rest => some ⟨first :: rest, gReq.totalNbytes⟩

/-- The PRP list slots `nvme_io_alloc_g_buf` reads data entries from: none
unless the transfer needs a PRP list. -/
def gBufListSlots (host : NvmeHost) (mem : GuestMem) (gReq : NvmeRequest) : List UInt64 :=
  let ptr1Offset := gReq.ptr1 &&& ~~~host.pageMask
  let ptr1Nbytes :=
    if ptr1Offset + gReq.totalNbytes ≤ host.pageNbytes then gReq.totalNbytes
    else host.pageNbytes - ptr1Offset
  let remaining := gReq.totalNbytes - ptr1Nbytes
  if remaining ≤ host.pageNbytes then []
  else
    prpDataSlots host mem (~~~host.pageMask >>> 3).toUInt32 (remaining.toNat + 1) (gReq.ptr2 &&& host.pageMask)
      ((gReq.ptr2 &&& ~~~host.pageMask) >>> 3).toUInt32 remaining

theorem ptr1Nbytes_le (host : NvmeHost) (ptr1 total : UInt64) :
    (if (ptr1 &&& ~~~host.pageMask) + total ≤ host.pageNbytes then total
      else host.pageNbytes - (ptr1 &&& ~~~host.pageMask)) ≤ total := by
  obtain ⟨hp, hm⟩ := host.page_ok
  have hoff : (ptr1 &&& ~~~host.pageMask).toNat < 4096 := by
    rw [hm, UInt64.toNat_and]
    calc _ ≤ (~~~~~~(0xFFF : UInt64)).toNat := Nat.and_le_right
      _ < 4096 := by decide
  have htotal := total.toNat_lt
  split
  · exact UInt64.le_refl total
  · rename_i h
    rw [UInt64.le_iff_toNat_le, UInt64.toNat_add, hp] at h
    have hsub : ptr1 &&& ~~~host.pageMask ≤ host.pageNbytes := by
      rw [UInt64.le_iff_toNat_le, hp]
      simp only [UInt64.reduceToNat]
      omega
    rw [UInt64.le_iff_toNat_le, UInt64.toNat_sub_of_le _ _ hsub, hp]
    simp only [UInt64.reduceToNat] at h ⊢
    omega

/-- When the pointers the code `ASSERT`s on are nonzero, `nvme_io_alloc_g_buf`
returns a segment list whose lengths add up to `total_nbytes`. -/
theorem nvmeIoAllocGBuf_nbytes_sum (host : NvmeHost) (mem : GuestMem) (gReq : NvmeRequest)
    (hg : gReq.isHReq = false) (h1 : gReq.ptr1 ≠ 0) (h2 : gReq.ptr2 ≠ 0)
    (hmem : ∀ a ∈ gBufListSlots host mem gReq, mem a ≠ 0) :
    ∃ g, nvmeIoAllocGBuf host mem gReq = some (some g) ∧
      (g.bufList.map (·.nbytes.toNat)).sum = gReq.totalNbytes.toNat := by
  by_cases happle : host.vendorId = nvmeVendorIdApple ∧ gReq.flags &&& 0x20 ≠ 0
  · exact ⟨⟨[⟨gReq.ptr1, gReq.totalNbytes⟩], gReq.totalNbytes⟩,
      by simp [nvmeIoAllocGBuf, hg, h1, happle], by simp⟩
  set n1 := if (gReq.ptr1 &&& ~~~host.pageMask) + gReq.totalNbytes ≤ host.pageNbytes then
    gReq.totalNbytes else host.pageNbytes - (gReq.ptr1 &&& ~~~host.pageMask) with hn1
  have hsum := toNat_add_toNat_sub (ptr1Nbytes_le host gReq.ptr1 gReq.totalNbytes)
  rw [← hn1] at hsum
  by_cases hr0 : gReq.totalNbytes - n1 = 0
  · refine ⟨⟨[⟨gReq.ptr1, n1⟩], gReq.totalNbytes⟩, ?_, ?_⟩
    · simp [nvmeIoAllocGBuf, hg, h1, happle, ← hn1, hr0]
    · simp only [hr0] at hsum
      simpa using hsum
  by_cases hr : gReq.totalNbytes - n1 ≤ host.pageNbytes
  · refine ⟨⟨[⟨gReq.ptr1, n1⟩, ⟨gReq.ptr2, gReq.totalNbytes - n1⟩], gReq.totalNbytes⟩, ?_, ?_⟩
    · simp [nvmeIoAllocGBuf, hg, h1, h2, happle, ← hn1, hr0, hr]
    · simpa using hsum
  have hslots : ∀ a ∈ prpDataSlots host mem ((~~~host.pageMask >>> 3).toUInt32)
      ((gReq.totalNbytes - n1).toNat + 1) (gReq.ptr2 &&& host.pageMask)
      ((gReq.ptr2 &&& ~~~host.pageMask) >>> 3).toUInt32 (gReq.totalNbytes - n1), mem a ≠ 0 := by
    simpa only [gBufListSlots, ← hn1, if_neg hr] using hmem
  obtain ⟨rest, hrest, hs⟩ := prpListLoop_sum host mem ((~~~host.pageMask >>> 3).toUInt32)
    ((gReq.totalNbytes - n1).toNat + 1) (gReq.ptr2 &&& host.pageMask)
    ((gReq.ptr2 &&& ~~~host.pageMask) >>> 3).toUInt32 (gReq.totalNbytes - n1) (by omega) hslots
  refine ⟨⟨⟨gReq.ptr1, n1⟩ :: rest, gReq.totalNbytes⟩, ?_, ?_⟩
  · simp [nvmeIoAllocGBuf, hg, h1, happle, ← hn1, hr0, hr, hrest]
  · simp only [List.map_cons, List.sum_cons, hs]
    exact hsum

def listedMem : GuestMem := fun a =>
  if a = 0x2FF0 then 0x5000 else if a = 0x2FF8 then 0x6000 else if a = 0x6000 then 0x7000
  else if a = 0x6008 then 0x8000 else 0

def listedHost : NvmeHost := ⟨0x8086, 4096, ~~~0xFFF, rfl, rfl⟩

theorem nvmeIoAllocGBuf_nbytes_sum_listed :
    (∀ a ∈ gBufListSlots listedHost listedMem ⟨false, 0, 0x1800, 0x2FF0, 0x3000⟩, listedMem a ≠ 0) ∧
    ∃ g, nvmeIoAllocGBuf listedHost listedMem ⟨false, 0, 0x1800, 0x2FF0, 0x3000⟩ = some (some g) ∧
      (g.bufList.map (·.nbytes.toNat)).sum = 0x3000 := by
  have hslots : ∀ a ∈ gBufListSlots listedHost listedMem ⟨false, 0, 0x1800, 0x2FF0, 0x3000⟩,
      listedMem a ≠ 0 := by
    rw [show gBufListSlots listedHost listedMem ⟨false, 0, 0x1800, 0x2FF0, 0x3000⟩ =
      [0x2FF0, 0x6000, 0x6008] by decide]
    intro a ha
    simp only [List.mem_cons, List.not_mem_nil, or_false] at ha
    rcases ha with rfl | rfl | rfl <;> decide
  exact ⟨hslots, nvmeIoAllocGBuf_nbytes_sum _ _ _ rfl (by decide) (by decide) hslots⟩

/-- The data segments `(address, length)` of a PRP list walk as the NVMe
rules define them, from the entry at `entry` with `rest` bytes still to
place: the last entry of a list page points to the next list page only when
more than one further entry is needed. -/
def prpEntries (mem : GuestMem) : Nat → UInt64 → Nat → List (Nat × Nat)
  | 0, _, _ => []
  | fuel + 1, entry, rest =>
      if rest = 0 then []
      else if entry % 4096 = 4088 ∧ rest > 4096 then prpEntries mem fuel (mem entry) rest
      else (((mem entry).toNat, min rest 4096)) :: prpEntries mem fuel (entry + 8) (rest - min rest 4096)

def prpSegments (mem : GuestMem) (ptr1 ptr2 : UInt64) (total : Nat) : List (Nat × Nat) :=
  let first := min total (4096 - ptr1.toNat % 4096)
  let rest := total - first
  if rest = 0 then [(ptr1.toNat, first)]
  else if rest ≤ 4096 then [(ptr1.toNat, first), (ptr2.toNat, rest)]
  else (ptr1.toNat, first) :: prpEntries mem (2 * total + 2) ptr2 rest

/-- A PRP list starting at slot 510 of the list page `0x2000`, for a
transfer of three pages: after the data page `0x5000` of slot 510 one entry
is still needed, and the PRP rules take slot 511 (`0x6000`) as data. The code
takes it as the next list page and reads the data page `0x7000` from it. -/
theorem nvmeIoAllocGBuf_last_slot_chained :
    (nvmeIoAllocGBuf ⟨0x8086, 4096, ~~~0xFFF, rfl, rfl⟩
        (fun a => if a = 0x2FF0 then 0x5000 else if a = 0x2FF8 then 0x6000 else
          if a = 0x6000 then 0x7000 else 0)
        ⟨false, 0, 0x1000, 0x2FF0, 12288⟩).map
      (·.map fun g => g.bufList.map fun s => (s.addrPhys.toNat, s.nbytes.toNat)) =
      some (some [(0x1000, 4096), (0x5000, 4096), (0x7000, 4096)]) ∧
    prpSegments (fun a => if a = 0x2FF0 then 0x5000 else if a = 0x2FF8 then 0x6000 else
          if a = 0x6000 then 0x7000 else 0) 0x1000 0x2FF0 12288 =
      [(0x1000, 4096), (0x5000, 4096), (0x6000, 4096)] := by
  decide

end Bitvisor.Nvme
