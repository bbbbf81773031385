import Bitvisor.X86Mmio.Access

namespace Bitvisor.X86Mmio

inductive Walk
  | ret (n : Nat)
  | again (i j n : Nat) (gend : UInt64)
  | done (j n : Nat) (gend : UInt64)
  deriving DecidableEq, Repr

section Search

variable (gphys : UInt64) (pagesizes : List UInt64)

/-- `gphys & ~(pagesizes[k] - 1)`. -/
def alignedTo (k : Nat) : UInt64 :=
  gphys &&& ~~~(pagesizes.getD k 0 - 1)

def firstHit (h : MmioHandle) (n : Nat) : Option Nat :=
  (List.range n).find? fun k =>
    (rangecheck h (alignedTo gphys pagesizes k) (pagesizes.getD k 0).toUInt32).isSome

/-- `LIST1_FOREACH` over the list of bucket `i`, with the current `j`,
`array_len` and `gphys_aligned_end`. -/
def walkList (i : Nat) : List MmioHandle → Nat → Nat → UInt64 → Walk
  | [], j, n, gend => .done j n gend
  | h :: hs, j, n, gend =>
      if h.gphys ≥ gend then .ret n
      else
        match firstHit gphys pagesizes h n with
        | none => walkList i hs j n gend
        | some k =>
            if k = 0 then .ret 0
            else
              let ga := alignedTo gphys pagesizes (k - 1)
              let gend := ga + pagesizes.getD (k - 1) 0
              let newI := bucketOf ga
              let j := bucketOf (gend - 1)
              if i < newI then .again newI j k gend
              else if j < i then .ret k
              else walkList i hs j k gend

def searchBuckets (reg : Registry) : Nat → Bool → Nat → Nat → Nat → UInt64 → Option Nat
  | 0, _, _, _, _, _ => none
  | fuel + 1, check, i, j, n, gend =>
      if check ∧ j < i then some n
      else
        match walkList gphys pagesizes i (reg.mmio i) j n gend with
        | .ret n => some n
        | .again i j n gend => searchBuckets reg fuel false i j n gend
        | .done j n gend => searchBuckets reg fuel true (i + 1) j n gend

/-- `mmio_range_each_page_size`. -/
def mmioRangeEachPageSize (reg : Registry) (arrayLen : Nat) : Option Nat :=
  let ga := alignedTo gphys pagesizes (arrayLen - 1)
  let gend := ga + pagesizes.getD (arrayLen - 1) 0
  searchBuckets gphys pagesizes reg 18 true (bucketOf ga) (bucketOf (gend - 1)) arrayLen gend

end Search

/-- The `size`-aligned block that holds `gphys` meets the range of `h`. -/
def BlockMeets (size gphys : Nat) (h : MmioHandle) : Prop :=
  gphys / size * size < h.gphys.toNat + h.len.toNat ∧ h.gphys.toNat < gphys / size * size + size

instance (size gphys : Nat) (h : MmioHandle) : Decidable (BlockMeets size gphys h) :=
  inferInstanceAs (Decidable (_ ∧ _))

/-- What `mmio_range_each_page_size` is for: the least `k` whose
`pagesizes[k]`-aligned block around `gphys` meets a live handle, or
`array_len`. -/
def leastMeeting (reg : Registry) (gphys : UInt64) (pagesizes : List UInt64) (arrayLen : Nat) : Nat :=
  ((List.range arrayLen).find? fun k =>
    reg.handle.any fun h => !h.unregistered && decide (BlockMeets (pagesizes.getD k 0).toNat gphys.toNat h)).getD
    arrayLen

/-- Page sizes strictly increasing powers of two. -/
def PowersIncreasing (pagesizes : List UInt64) : Prop :=
  (∀ p ∈ pagesizes, ∃ e, p.toNat = 2 ^ e) ∧ pagesizes.Pairwise (· < ·)

def highHandle : MmioHandle := ⟨0x100001000, 0x1000, 0, false, false⟩

def highRegistry : Registry := ⟨[highHandle], fun i => if i = 16 then [highHandle] else []⟩

theorem highRegistry_wf : highRegistry.Wf :=
  ⟨by decide, by decide, by decide, by decide, by decide⟩

/-- One 4 GiB page size: the 4 GiB block at 8 GiB does not meet the handle,
but `rangecheck` is called with the size cut to a 32-bit 0, takes every
handle below the block for a hit, and the search returns 0. -/
theorem mmioRangeEachPageSize_four_gib_truncated :
    highRegistry.Wf ∧ PowersIncreasing [0x100000000] ∧
      mmioRangeEachPageSize 0x200000000 [0x100000000] highRegistry 1 = some 0 ∧
      leastMeeting highRegistry 0x200000000 [0x100000000] 1 = 1 :=
  ⟨highRegistry_wf, ⟨by simp only [List.mem_singleton, forall_eq]; exact ⟨32, by decide⟩, by simp⟩,
    by decide, by decide⟩

end Bitvisor.X86Mmio
