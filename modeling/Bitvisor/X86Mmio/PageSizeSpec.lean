import Bitvisor.X86Mmio.PageSize
import Bitvisor.Lib.Align

namespace Bitvisor.X86Mmio

/-! `mmio_range_each_page_size` against `leastMeeting`. The search keeps a
window, the block of the size just below the best answer found so far, and
walks the buckets of that window in order; a handle that meets a smaller
block but has not been seen yet is `Pending`, and the invariant says where it
still is: later in the current list, or in a later bucket. -/

/-- `bucketOf` on the number an address stands for. -/
def bucketNat (x : Nat) : Nat :=
  if x ≤ 0xFFFFFFFF then x / 2 ^ 28 else 16

theorem bucketOf_eq (a : UInt64) : bucketOf a = bucketNat a.toNat := by
  unfold bucketOf bucketNat
  have hle : a ≤ 0xFFFFFFFF ↔ a.toNat ≤ 0xFFFFFFFF := UInt64.le_iff_toNat_le
  by_cases h : a ≤ 0xFFFFFFFF
  · rw [if_pos h, if_pos (hle.1 h), UInt64.toNat_shiftRight, Nat.shiftRight_eq_div_pow]
    rfl
  · rw [if_neg h, if_neg (mt hle.2 h)]

theorem bucketOf_sub_one {a : UInt64} (h : 0 < a.toNat) : bucketOf (a - 1) = bucketNat (a.toNat - 1) := by
  rw [bucketOf_eq, UInt64.toNat_sub_of_le _ _ (UInt64.le_iff_toNat_le.2 (by rw [UInt64.toNat_one]; omega)),
    UInt64.toNat_one]

theorem bucketNat_le (x : Nat) : bucketNat x ≤ 16 := by
  unfold bucketNat
  split <;> omega

theorem bucketNat_mono {x y : Nat} (h : x ≤ y) : bucketNat x ≤ bucketNat y := by
  unfold bucketNat
  split <;> split <;> omega

theorem lt_of_bucketNat_lt {x y : Nat} (h : bucketNat x < bucketNat y) : x < y :=
  Nat.lt_of_not_le fun hle => Nat.not_le.2 h (bucketNat_mono hle)

section Spec

variable (gphys : UInt64) (pagesizes : List UInt64)

/-- `pagesizes[k]`. -/
def pageSize (k : Nat) : Nat := (pagesizes.getD k 0).toNat

def blockStart (k : Nat) : Nat := gphys.toNat / pageSize pagesizes k * pageSize pagesizes k

def Hit (h : MmioHandle) (k : Nat) : Prop :=
  h.unregistered = false ∧ BlockMeets (pageSize pagesizes k) gphys.toNat h

instance (h : MmioHandle) (k : Nat) : Decidable (Hit gphys pagesizes h k) :=
  inferInstanceAs (Decidable (_ ∧ _))

theorem hit_iff {h : MmioHandle} {k : Nat} : Hit gphys pagesizes h k ↔
    h.unregistered = false ∧ blockStart gphys pagesizes k < h.gphys.toNat + h.len.toNat ∧
      h.gphys.toNat < blockStart gphys pagesizes k + pageSize pagesizes k :=
  Iff.rfl

def lowBucket (n : Nat) (h : MmioHandle) : Nat :=
  bucketNat (max h.gphys.toNat (blockStart gphys pagesizes (n - 1)))

variable (reg : Registry) (arrayLen : Nat)

def Pending (n : Nat) (h : MmioHandle) : Prop :=
  h ∈ reg.handle ∧ ∃ k < n, Hit gphys pagesizes h k

/-- `n` is `array_len` or some registered handle meets its block. -/
def Achieves (n : Nat) : Prop :=
  n = arrayLen ∨ ∃ h ∈ reg.handle, Hit gphys pagesizes h n

structure Candidate (n j : Nat) (gend : UInt64) : Prop where
  pos : 1 ≤ n
  le : n ≤ arrayLen
  achieves : Achieves gphys pagesizes reg arrayLen n
  gend_eq : gend.toNat = blockStart gphys pagesizes (n - 1) + pageSize pagesizes (n - 1)
  j_eq : j = bucketOf (gend - 1)

/-- Where `searchBuckets` starts a round on bucket `i`: no pending handle lies
below it, and without the test `i <= j` it is inside the window. -/
structure SearchOk (check : Bool) (i j n : Nat) (gend : UInt64) : Prop
    extends Candidate gphys pagesizes reg arrayLen n j gend where
  pending : ∀ h, Pending gphys pagesizes reg n h → i ≤ lowBucket gphys pagesizes n h
  i_le : i ≤ 17
  check_le : check = false → i ≤ j

def WalkOk (i : Nat) : Walk → Prop
  | .ret m => m = leastMeeting reg gphys pagesizes arrayLen
  | .again i' j n gend => i < i' ∧ SearchOk gphys pagesizes reg arrayLen false i' j n gend
  | .done j n gend => SearchOk gphys pagesizes reg arrayLen true (i + 1) j n gend

/-- What the callers and the registry code guarantee. Every bucket lists
registered handles whose range touches it (`scan` with `add`); the page sizes
are increasing powers of two that fit the `uint` length of `rangecheck`; and
the largest block ends below `2 ^ 64`. -/
structure Setting : Prop where
  wf : reg.Wf
  lists : ∀ i < 17, ∀ h ∈ reg.mmio i, h ∈ reg.handle ∧ Touches h i
  pow : PowersIncreasing pagesizes
  small : ∀ p ∈ pagesizes, p.toNat < 2 ^ 32
  len_pos : 0 < arrayLen
  len_le : arrayLen ≤ pagesizes.length
  no_wrap : gphys.toNat + pageSize pagesizes (arrayLen - 1) < 2 ^ 64

end Spec

section Blocks

variable {gphys : UInt64} {pagesizes : List UInt64} {reg : Registry} {arrayLen : Nat}
  (hs : Setting gphys pagesizes reg arrayLen)
include hs

theorem Setting.pageSize_pow {k : Nat} (hk : k < arrayLen) :
    ∃ e < 32, pageSize pagesizes k = 2 ^ e := by
  have hmem : pagesizes.getD k 0 ∈ pagesizes := by
    rw [List.getD_eq_getElem _ _ (by have := hs.len_le; omega)]
    exact List.getElem_mem _
  obtain ⟨e, he⟩ := hs.pow.1 _ hmem
  have hlt := hs.small _ hmem
  rw [he] at hlt
  exact ⟨e, (Nat.pow_lt_pow_iff_right (by omega)).1 hlt, he⟩

theorem Setting.pageSize_pos {k : Nat} (hk : k < arrayLen) : 0 < pageSize pagesizes k := by
  obtain ⟨e, -, he⟩ := hs.pageSize_pow hk
  rw [he]
  exact Nat.two_pow_pos e

theorem Setting.pageSize_dvd {k k' : Nat} (hkk : k ≤ k') (hk : k' < arrayLen) :
    pageSize pagesizes k ∣ pageSize pagesizes k' := by
  obtain ⟨e, -, he⟩ := hs.pageSize_pow (Nat.lt_of_le_of_lt hkk hk)
  obtain ⟨e', -, he'⟩ := hs.pageSize_pow hk
  rw [he, he']
  apply Nat.pow_dvd_pow
  rcases Nat.lt_or_eq_of_le hkk with hlt | rfl
  · have hl := hs.len_le
    have hsorted := List.pairwise_iff_getElem.1 hs.pow.2 k k' (by omega) (by omega) hlt
    have hsizes : 2 ^ e < 2 ^ e' := by
      rw [← he, ← he', pageSize, pageSize, List.getD_eq_getElem _ _ (by omega),
        List.getD_eq_getElem _ _ (by omega)]
      exact UInt64.lt_iff_toNat_lt.1 hsorted
    exact Nat.le_of_lt ((Nat.pow_lt_pow_iff_right (by omega)).1 hsizes)
  · exact le_of_eq (Nat.pow_right_injective le_rfl (he.symm.trans he'))

theorem Setting.block_nest {k k' : Nat} (hkk : k ≤ k') (hk : k' < arrayLen) :
    blockStart gphys pagesizes k' ≤ blockStart gphys pagesizes k ∧
      blockStart gphys pagesizes k + pageSize pagesizes k ≤
        blockStart gphys pagesizes k' + pageSize pagesizes k' :=
  ⟨Align.div_mul_le_div_mul_of_dvd _ (hs.pageSize_dvd hkk hk),
    Align.div_mul_add_le_of_dvd _ (hs.pageSize_pos hk) (hs.pageSize_dvd hkk hk)⟩

theorem Setting.blockEnd_lt {k : Nat} (hk : k < arrayLen) :
    blockStart gphys pagesizes k + pageSize pagesizes k < 2 ^ 64 := by
  have hnest := (hs.block_nest (show k ≤ arrayLen - 1 by omega) (show arrayLen - 1 < arrayLen by omega)).2
  have hstart : blockStart gphys pagesizes (arrayLen - 1) ≤ gphys.toNat := Nat.div_mul_le_self _ _
  have := hs.no_wrap
  omega

theorem Setting.toNat_alignedTo {k : Nat} (hk : k < arrayLen) :
    (alignedTo gphys pagesizes k).toNat = blockStart gphys pagesizes k := by
  obtain ⟨e, -, he⟩ := hs.pageSize_pow hk
  exact Align.toNat_and_not_sub_one gphys he

theorem Setting.toNat_blockEnd {k : Nat} (hk : k < arrayLen) :
    (alignedTo gphys pagesizes k + pagesizes.getD k 0).toNat =
      blockStart gphys pagesizes k + pageSize pagesizes k := by
  have hend := hs.blockEnd_lt hk
  rw [MachineInt.toNat_add_of_lt (by rw [hs.toNat_alignedTo hk]; exact hend), hs.toNat_alignedTo hk]
  rfl

theorem Setting.bucketOf_blockEnd {k : Nat} (hk : k < arrayLen) :
    bucketOf (alignedTo gphys pagesizes k + pagesizes.getD k 0 - 1) =
      bucketNat (blockStart gphys pagesizes k + pageSize pagesizes k - 1) := by
  have hpos := hs.pageSize_pos hk
  rw [bucketOf_sub_one (by rw [hs.toNat_blockEnd hk]; omega), hs.toNat_blockEnd hk]

/-- The page size fits the `uint` length of `rangecheck`. -/
theorem Setting.toNat_toUInt32_pageSize {k : Nat} (hk : k < arrayLen) :
    ((pagesizes.getD k 0).toUInt32).toNat = pageSize pagesizes k := by
  obtain ⟨e, he32, he⟩ := hs.pageSize_pow hk
  rw [UInt64.toNat_toUInt32, ← pageSize, he]
  exact Nat.mod_eq_of_lt (Nat.pow_lt_pow_right (by omega) he32)

theorem Setting.meets_iff_blockMeets {h : MmioHandle} (hh : h ∈ reg.handle) (hreg : h.unregistered = false)
    {k : Nat} (hk : k < arrayLen) :
    Meets h (alignedTo gphys pagesizes k) (pagesizes.getD k 0).toUInt32 ↔
      BlockMeets (pageSize pagesizes k) gphys.toNat h := by
  have hpos := hs.pageSize_pos hk
  have hhl := hs.wf.len_pos h hh hreg
  unfold Meets BlockMeets
  rw [hs.toNat_alignedTo hk, hs.toNat_toUInt32_pageSize hk, ← blockStart]
  omega

theorem Setting.isSome_rangecheck_iff {h : MmioHandle} (hh : h ∈ reg.handle) {k : Nat} (hk : k < arrayLen) :
    (rangecheck h (alignedTo gphys pagesizes k) (pagesizes.getD k 0).toUInt32).isSome ↔
      Hit gphys pagesizes h k := by
  cases hreg : h.unregistered
  · have hlen := hs.toNat_toUInt32_pageSize hk
    have hpos := hs.pageSize_pos hk
    have hend := hs.blockEnd_lt hk
    have hhl := hs.wf.len_pos h hh hreg
    have hhw := hs.wf.no_wrap h hh hreg
    have hl : 0 < ((pagesizes.getD k 0).toUInt32).toNat := by omega
    have hw : (alignedTo gphys pagesizes k).toNat + ((pagesizes.getD k 0).toUInt32).toNat ≤ 2 ^ 64 := by
      rw [hs.toNat_alignedTo hk, hlen]
      omega
    have hmeets := hs.meets_iff_blockMeets hh hreg hk
    by_cases hm : Meets h (alignedTo gphys pagesizes k) (pagesizes.getD k 0).toUInt32
    · obtain ⟨g₂, l₂, hr, -⟩ := rangecheck_of_meets hreg hhl hhw hl hw hm
      simp only [hr, Option.isSome_some, true_iff]
      exact ⟨hreg, hmeets.1 hm⟩
    · rw [rangecheck_of_not_meets hreg hhl hhw hl hw hm]
      simp only [Option.isSome_none, Bool.false_eq_true, false_iff]
      exact fun hhit => hm (hmeets.2 hhit.2)
  · simp [rangecheck, hreg, Hit]

theorem Setting.not_hit_of_firstHit_none {h : MmioHandle} (hh : h ∈ reg.handle) {n : Nat}
    (hn : n ≤ arrayLen) (hf : firstHit gphys pagesizes h n = none) :
    ∀ k < n, ¬Hit gphys pagesizes h k := by
  intro k hk hhit
  have := List.find?_range_eq_none.1 hf k hk
  rw [(hs.isSome_rangecheck_iff hh (by omega)).2 hhit] at this
  exact Bool.false_ne_true this

theorem Setting.hit_of_firstHit_some {h : MmioHandle} (hh : h ∈ reg.handle) {n k : Nat}
    (hn : n ≤ arrayLen) (hf : firstHit gphys pagesizes h n = some k) :
    k < n ∧ Hit gphys pagesizes h k ∧ ∀ k' < k, ¬Hit gphys pagesizes h k' := by
  obtain ⟨hhit, hmem, hmin⟩ := List.find?_range_eq_some.1 hf
  have hk : k < n := List.mem_range.1 hmem
  refine ⟨hk, (hs.isSome_rangecheck_iff hh (by omega)).1 hhit, fun k' hk' hhit' => ?_⟩
  have := hmin k' hk'
  rw [(hs.isSome_rangecheck_iff hh (by omega)).2 hhit'] at this
  exact Bool.false_ne_true this

theorem Setting.hit_within {h : MmioHandle} {k n : Nat} (hkn : k < n) (hn : n ≤ arrayLen)
    (hhit : Hit gphys pagesizes h k) :
    blockStart gphys pagesizes (n - 1) < h.gphys.toNat + h.len.toNat ∧
      h.gphys.toNat < blockStart gphys pagesizes (n - 1) + pageSize pagesizes (n - 1) := by
  obtain ⟨-, hlo, hhi⟩ := hhit
  have hnest := hs.block_nest (show k ≤ n - 1 by omega) (show n - 1 < arrayLen by omega)
  change blockStart gphys pagesizes k < _ at hlo
  change _ < blockStart gphys pagesizes k + pageSize pagesizes k at hhi
  omega

theorem Setting.lowBucket_le {n j : Nat} {gend : UInt64} (hc : Candidate gphys pagesizes reg arrayLen n j gend)
    {h : MmioHandle} (hp : Pending gphys pagesizes reg n h) : lowBucket gphys pagesizes n h ≤ j := by
  obtain ⟨-, k, hkn, hhit⟩ := hp
  have hw := hs.hit_within hkn hc.le hhit
  have hpos := hs.pageSize_pos (k := n - 1) (by have := hc.le; omega)
  rw [hc.j_eq, bucketOf_sub_one (by rw [hc.gend_eq]; omega), hc.gend_eq]
  exact bucketNat_mono (by omega)

theorem Setting.touches_iff {h : MmioHandle} (hh : h ∈ reg.handle) (hreg : h.unregistered = false)
    (i : Nat) : Touches h i ↔
      bucketNat h.gphys.toNat ≤ i ∧ i ≤ bucketNat (h.gphys.toNat + h.len.toNat - 1) := by
  unfold Touches
  rw [bucketOf_eq, bucketOf_eq,
    toNat_accessLast (hs.wf.len_pos h hh hreg) (hs.wf.no_wrap h hh hreg)]

theorem Setting.mem_lowBucket {n : Nat} (hn : n ≤ arrayLen) {h : MmioHandle}
    (hp : Pending gphys pagesizes reg n h) : h ∈ reg.mmio (lowBucket gphys pagesizes n h) := by
  obtain ⟨hh, k, hkn, hhit⟩ := hp
  have hw := hs.hit_within hkn hn hhit
  have hhl := hs.wf.len_pos h hh hhit.1
  refine hs.wf.listed h hh hhit.1 _ (Nat.lt_succ_of_le (bucketNat_le _)) ?_
  rw [hs.touches_iff hh hhit.1]
  exact ⟨bucketNat_mono (le_max_left _ _), bucketNat_mono (by omega)⟩

theorem Setting.lowBucket_mono {k n : Nat} (hkn : k ≤ n) (hk : 1 ≤ k) (hn : n ≤ arrayLen)
    (h : MmioHandle) : lowBucket gphys pagesizes n h ≤ lowBucket gphys pagesizes k h :=
  bucketNat_mono (max_le_max le_rfl (hs.block_nest (show k - 1 ≤ n - 1 by omega) (show n - 1 < arrayLen by omega)).1)

end Blocks

theorem Pending.mono {gphys : UInt64} {pagesizes : List UInt64} {reg : Registry} {k n : Nat}
    {h : MmioHandle} (hkn : k ≤ n) (hp : Pending gphys pagesizes reg k h) : Pending gphys pagesizes reg n h :=
  let ⟨hh, k', hk', hhit⟩ := hp
  ⟨hh, k', by omega, hhit⟩

theorem any_hit_iff {gphys : UInt64} {pagesizes : List UInt64} {reg : Registry} (k : Nat) :
    (reg.handle.any fun h => !h.unregistered && decide (BlockMeets (pagesizes.getD k 0).toNat gphys.toNat h)) =
        true ↔ ∃ h ∈ reg.handle, Hit gphys pagesizes h k := by
  simp only [List.any_eq_true, Bool.and_eq_true, Bool.not_eq_true', decide_eq_true_eq]
  rfl

/-- The answer `n` is the least one once it is achieved and nothing is
pending below it. -/
theorem leastMeeting_eq {gphys : UInt64} {pagesizes : List UInt64} {reg : Registry} {arrayLen n : Nat}
    (hn : n ≤ arrayLen) (ha : Achieves gphys pagesizes reg arrayLen n)
    (hnone : ∀ h, ¬Pending gphys pagesizes reg n h) : leastMeeting reg gphys pagesizes arrayLen = n := by
  have hbelow : ∀ k < n, ¬∃ h ∈ reg.handle, Hit gphys pagesizes h k :=
    fun k hk ⟨h, hh, hhit⟩ => hnone h ⟨hh, k, hk, hhit⟩
  unfold leastMeeting
  by_cases hlt : n < arrayLen
  · have hsome : ∃ h ∈ reg.handle, Hit gphys pagesizes h n := ha.resolve_left (by omega)
    rw [List.find?_range_eq_some.2 ⟨(any_hit_iff n).2 hsome, List.mem_range.2 hlt, fun k hk => ?_⟩]
    · rfl
    · rw [Bool.not_eq_true']
      exact Bool.eq_false_iff.2 fun hk' => hbelow k hk ((any_hit_iff k).1 hk')
  · rw [List.find?_range_eq_none.2 fun k hk => ?_]
    · simp only [Option.getD_none]
      omega
    · rw [Bool.not_eq_true']
      exact Bool.eq_false_iff.2 fun hk' => hbelow k (by omega) ((any_hit_iff k).1 hk')

/-- What `leastMeeting` is: at most `array_len`, met when below it, and
no block below it meets a live handle. -/
theorem leastMeeting_spec (reg : Registry) (gphys : UInt64) (pagesizes : List UInt64) (arrayLen : Nat) :
    leastMeeting reg gphys pagesizes arrayLen ≤ arrayLen ∧
      (leastMeeting reg gphys pagesizes arrayLen < arrayLen →
        ∃ h ∈ reg.handle, Hit gphys pagesizes h (leastMeeting reg gphys pagesizes arrayLen)) ∧
      ∀ k < leastMeeting reg gphys pagesizes arrayLen, ∀ h ∈ reg.handle, ¬Hit gphys pagesizes h k := by
  unfold leastMeeting
  cases hf : List.find? (fun k => reg.handle.any fun h =>
      !h.unregistered && decide (BlockMeets (pagesizes.getD k 0).toNat gphys.toNat h)) (List.range arrayLen) with
  | none =>
    refine ⟨le_rfl, fun hlt => absurd hlt (Nat.lt_irrefl _), fun k hk h hh hhit => ?_⟩
    have := List.find?_range_eq_none.1 hf k hk
    rw [(any_hit_iff k).2 ⟨h, hh, hhit⟩] at this
    exact Bool.false_ne_true this
  | some m =>
    obtain ⟨hm, hmem, hmin⟩ := List.find?_range_eq_some.1 hf
    refine ⟨(List.mem_range.1 hmem).le, fun _ => (any_hit_iff m).1 hm, fun k hk h hh hhit => ?_⟩
    have := hmin k hk
    rw [(any_hit_iff k).2 ⟨h, hh, hhit⟩] at this
    exact Bool.false_ne_true this

section Walk

variable {gphys : UInt64} {pagesizes : List UInt64} {reg : Registry} {arrayLen : Nat}

theorem pending_tail {i n k : Nat} {h : MmioHandle} {rest : List MmioHandle}
    (hmin : ∀ k' < k, ¬Hit gphys pagesizes h k')
    (hmono : ∀ h', Pending gphys pagesizes reg k h' → Pending gphys pagesizes reg n h')
    (hlow : ∀ h', lowBucket gphys pagesizes n h' ≤ lowBucket gphys pagesizes k h')
    (hinv : ∀ h', Pending gphys pagesizes reg n h' → h' ∈ h :: rest ∨ i < lowBucket gphys pagesizes n h') :
    ∀ h', Pending gphys pagesizes reg k h' → h' ∈ rest ∨ i < lowBucket gphys pagesizes k h' := by
  intro h' hp
  rcases hinv h' (hmono h' hp) with hmem | hlt
  · rcases List.mem_cons.1 hmem with rfl | hmem
    · obtain ⟨k', hk', hhit⟩ := hp.2
      exact absurd hhit (hmin k' hk')
    · exact Or.inl hmem
  · exact Or.inr (Nat.lt_of_lt_of_le hlt (hlow h'))

theorem searchOk_done {i j n : Nat} {gend : UInt64} (hi : i < 17)
    (hc : Candidate gphys pagesizes reg arrayLen n j gend)
    (hinv : ∀ h, Pending gphys pagesizes reg n h → h ∈ ([] : List MmioHandle) ∨ i < lowBucket gphys pagesizes n h) :
    SearchOk gphys pagesizes reg arrayLen true (i + 1) j n gend :=
  ⟨hc, fun h hp => (hinv h hp).resolve_left List.not_mem_nil, hi, fun hf => Bool.noConfusion hf⟩

variable (hs : Setting gphys pagesizes reg arrayLen)
include hs

theorem Setting.not_pending_of_le {i n j : Nat} {gend : UInt64}
    (hc : Candidate gphys pagesizes reg arrayLen n j gend) {h : MmioHandle} {rest : List MmioHandle}
    (hsorted : (h :: rest).Pairwise fun h₁ h₂ => h₁.gphys ≤ h₂.gphys) (hbucket : bucketOf h.gphys ≤ i)
    (hge : gend ≤ h.gphys)
    (hinv : ∀ h', Pending gphys pagesizes reg n h' → h' ∈ h :: rest ∨ i < lowBucket gphys pagesizes n h') :
    ∀ h', ¬Pending gphys pagesizes reg n h' := by
  intro h' hp
  obtain ⟨k, hkn, hhit⟩ := hp.2
  have hw := hs.hit_within hkn hc.le hhit
  have hend : blockStart gphys pagesizes (n - 1) + pageSize pagesizes (n - 1) ≤ h.gphys.toNat := by
    rw [← hc.gend_eq]
    exact UInt64.le_iff_toNat_le.1 hge
  rcases hinv h' hp with hmem | hlt
  · have hle : h.gphys.toNat ≤ h'.gphys.toNat := by
      rcases List.mem_cons.1 hmem with rfl | hmem
      · exact le_rfl
      · exact UInt64.le_iff_toNat_le.1 (List.rel_of_pairwise_cons hsorted hmem)
    omega
  · have hlow : lowBucket gphys pagesizes n h' ≤ bucketNat h.gphys.toNat := bucketNat_mono (by omega)
    rw [bucketOf_eq] at hbucket
    omega

theorem Setting.candidate_of_hit {h : MmioHandle} (hh : h ∈ reg.handle) {k : Nat} (hk1 : 1 ≤ k)
    (hk : k < arrayLen) (hhit : Hit gphys pagesizes h k) :
    Candidate gphys pagesizes reg arrayLen k
      (bucketOf (alignedTo gphys pagesizes (k - 1) + pagesizes.getD (k - 1) 0 - 1))
      (alignedTo gphys pagesizes (k - 1) + pagesizes.getD (k - 1) 0) :=
  ⟨hk1, hk.le, Or.inr ⟨h, hh, hhit⟩, hs.toNat_blockEnd (by omega), rfl⟩

theorem Setting.not_pending_of_lt {i n j k : Nat} {gend : UInt64}
    (hc : Candidate gphys pagesizes reg arrayLen n j gend) {h : MmioHandle} {rest : List MmioHandle}
    (hsorted : (h :: rest).Pairwise fun h₁ h₂ => h₁.gphys ≤ h₂.gphys) (hh : h ∈ reg.handle)
    (htouch : Touches h i) (hk1 : 1 ≤ k) (hkn : k < n) (hhit : Hit gphys pagesizes h k)
    (hmin : ∀ k' < k, ¬Hit gphys pagesizes h k')
    (hj : bucketOf (alignedTo gphys pagesizes (k - 1) + pagesizes.getD (k - 1) 0 - 1) < i)
    (hinv : ∀ h', Pending gphys pagesizes reg n h' → h' ∈ h :: rest ∨ i < lowBucket gphys pagesizes n h') :
    ∀ h', ¬Pending gphys pagesizes reg k h' := by
  intro h' hp
  have hn := hc.le
  obtain ⟨k', hk', hhit'⟩ := hp.2
  have hw := hs.hit_within hk' (by omega) hhit'
  have hnest := hs.block_nest (show k - 1 ≤ n - 1 by omega) (show n - 1 < arrayLen by omega)
  have hpos := hs.pageSize_pos (k := k - 1) (by omega)
  rw [hs.bucketOf_blockEnd (by omega)] at hj
  rcases hinv h' (hp.mono hkn.le) with hmem | hlt
  · rcases List.mem_cons.1 hmem with rfl | hmem
    · exact hmin k' hk' hhit'
    · have hle : h.gphys.toNat ≤ h'.gphys.toNat := UInt64.le_iff_toNat_le.1 (List.rel_of_pairwise_cons hsorted hmem)
      have hmiss := hmin (k - 1) (by omega)
      have hhl := hs.wf.len_pos h hh hhit.1
      have hbefore : h.gphys.toNat + h.len.toNat ≤ blockStart gphys pagesizes (k - 1) :=
        Nat.le_of_not_lt fun hlt => hmiss ((hit_iff gphys pagesizes).2 ⟨hhit.1, hlt, by omega⟩)
      have hend := ((hs.touches_iff hh hhit.1 i).1 htouch).2
      have := bucketNat_mono (x := h.gphys.toNat + h.len.toNat - 1)
        (y := blockStart gphys pagesizes (k - 1) + pageSize pagesizes (k - 1) - 1) (by omega)
      omega
  · have hlow : lowBucket gphys pagesizes n h' ≤
        bucketNat (blockStart gphys pagesizes (k - 1) + pageSize pagesizes (k - 1) - 1) :=
      bucketNat_mono (by omega)
    have := hs.lowBucket_mono hkn.le hk1 hn h'
    omega

theorem Setting.searchOk_again {k j : Nat} {gend : UInt64}
    (hc : Candidate gphys pagesizes reg arrayLen k j gend) (hj : j = bucketOf (gend - 1))
    (hgend : gend = alignedTo gphys pagesizes (k - 1) + pagesizes.getD (k - 1) 0) :
    SearchOk gphys pagesizes reg arrayLen false (bucketOf (alignedTo gphys pagesizes (k - 1))) j k gend := by
  have hk := hc.le
  have hk1 := hc.pos
  have hpos := hs.pageSize_pos (k := k - 1) (by omega)
  have hstart : bucketOf (alignedTo gphys pagesizes (k - 1)) = bucketNat (blockStart gphys pagesizes (k - 1)) := by
    rw [bucketOf_eq, hs.toNat_alignedTo (by omega)]
  refine ⟨hc, fun h _ => ?_, ?_, fun _ => ?_⟩
  · rw [hstart]
    exact bucketNat_mono (le_max_right _ _)
  · have := bucketOf_eq (alignedTo gphys pagesizes (k - 1))
    have := bucketNat_le (alignedTo gphys pagesizes (k - 1)).toNat
    omega
  · rw [hj, hgend, hs.bucketOf_blockEnd (by omega), hstart]
    exact bucketNat_mono (by omega)

/-- The walk of bucket `i` ends as `WalkOk` says, from any window whose pending
handles are in the rest of the list or in a later bucket. -/
theorem Setting.walkList_ok {i : Nat} (hi : i < 17) (rest : List MmioHandle) :
    ∀ (j n : Nat) (gend : UInt64), rest.Pairwise (fun h₁ h₂ => h₁.gphys ≤ h₂.gphys) →
      (∀ h ∈ rest, h ∈ reg.handle ∧ Touches h i) → Candidate gphys pagesizes reg arrayLen n j gend →
      (∀ h, Pending gphys pagesizes reg n h → h ∈ rest ∨ i < lowBucket gphys pagesizes n h) →
      WalkOk gphys pagesizes reg arrayLen i (walkList gphys pagesizes i rest j n gend) := by
  induction rest with
  | nil =>
    intro j n gend _ _ hc hinv
    exact searchOk_done hi hc hinv
  | cons h rest ih =>
    intro j n gend hsorted hlist hc hinv
    obtain ⟨hh, htouch⟩ := hlist h List.mem_cons_self
    have hlist' : ∀ h' ∈ rest, h' ∈ reg.handle ∧ Touches h' i :=
      fun h' hh' => hlist h' (List.mem_cons_of_mem _ hh')
    rw [walkList]
    split
    case isTrue hge =>
      exact (leastMeeting_eq hc.le hc.achieves (hs.not_pending_of_le hc hsorted htouch.1 hge hinv)).symm
    case isFalse =>
      split
      case h_1 hf =>
        exact ih j n gend hsorted.of_cons hlist' hc
          (pending_tail (hs.not_hit_of_firstHit_none hh hc.le hf) (fun _ hp => hp) (fun _ => le_rfl) hinv)
      case h_2 k hf =>
        obtain ⟨hkn, hhit, hmin⟩ := hs.hit_of_firstHit_some hh hc.le hf
        split
        case isTrue hk0 =>
          subst hk0
          exact (leastMeeting_eq (Nat.zero_le _) (Or.inr ⟨h, hh, hhit⟩)
            fun _ hp => absurd hp.2 fun ⟨_, hk, _⟩ => Nat.not_lt_zero _ hk).symm
        case isFalse hk0 =>
          have hc' := hs.candidate_of_hit hh (Nat.one_le_iff_ne_zero.2 hk0) (by have := hc.le; omega) hhit
          dsimp only
          split
          case isTrue hnew => exact ⟨hnew, hs.searchOk_again hc' rfl rfl⟩
          case isFalse =>
            split
            case isTrue hj =>
              exact (leastMeeting_eq hc'.le hc'.achieves (hs.not_pending_of_lt hc hsorted hh htouch
                hc'.pos hkn hhit hmin hj hinv)).symm
            case isFalse =>
              exact ih _ k _ hsorted.of_cons hlist' hc' (pending_tail hmin (fun _ hp => hp.mono hkn.le)
                (hs.lowBucket_mono hkn.le hc'.pos hc.le) hinv)

/-- Each round of the bucket loop raises `i`, so fuel that reaches 18 from `i`
is enough, and the loop returns `leastMeeting` from every state of `SearchOk`. -/
theorem Setting.searchBuckets_ok (fuel : Nat) : ∀ (check : Bool) (i j n : Nat) (gend : UInt64),
    18 ≤ fuel + i → SearchOk gphys pagesizes reg arrayLen check i j n gend →
    searchBuckets gphys pagesizes reg fuel check i j n gend = some (leastMeeting reg gphys pagesizes arrayLen) := by
  induction fuel with
  | zero =>
    intro check i j n gend hfuel hok
    have := hok.i_le
    omega
  | succ fuel ih =>
    intro check i j n gend hfuel hok
    rw [searchBuckets]
    split
    case isTrue hcj =>
      refine congrArg some (leastMeeting_eq hok.le hok.achieves fun h hp => ?_).symm
      have := hok.pending h hp
      have := hs.lowBucket_le hok.toCandidate hp
      omega
    case isFalse hcj =>
      have hij : i ≤ j := by
        cases check
        · exact hok.check_le rfl
        · simp only [true_and, Nat.not_lt] at hcj
          exact hcj
      have hi : i < 17 := by
        have := bucketNat_le (gend - 1).toNat
        rw [hok.j_eq, bucketOf_eq] at hij
        omega
      have hinv : ∀ h, Pending gphys pagesizes reg n h → h ∈ reg.mmio i ∨ i < lowBucket gphys pagesizes n h := by
        intro h hp
        rcases Nat.lt_or_eq_of_le (hok.pending h hp) with hlt | heq
        · exact Or.inr hlt
        · exact Or.inl (heq ▸ hs.mem_lowBucket hok.le hp)
      have hw := hs.walkList_ok hi (reg.mmio i) j n gend (hs.wf.sorted i hi) (hs.lists i hi) hok.toCandidate hinv
      generalize walkList gphys pagesizes i (reg.mmio i) j n gend = w at hw ⊢
      cases w with
      | ret m => exact congrArg some hw
      | again i' j' n' gend' => exact ih false i' j' n' gend' (by have := hw.1; omega) hw.2
      | done j' n' gend' => exact ih true (i + 1) j' n' gend' (by omega) hw

theorem Setting.searchOk_start :
    SearchOk gphys pagesizes reg arrayLen true (bucketOf (alignedTo gphys pagesizes (arrayLen - 1)))
      (bucketOf (alignedTo gphys pagesizes (arrayLen - 1) + pagesizes.getD (arrayLen - 1) 0 - 1)) arrayLen
      (alignedTo gphys pagesizes (arrayLen - 1) + pagesizes.getD (arrayLen - 1) 0) := by
  have hL := hs.len_pos
  refine ⟨⟨hL, le_rfl, Or.inl rfl, hs.toNat_blockEnd (by omega), rfl⟩, fun h _ => ?_, ?_, nofun⟩
  · rw [bucketOf_eq, hs.toNat_alignedTo (by omega)]
    exact bucketNat_mono (le_max_right _ _)
  · rw [bucketOf_eq]
    have := bucketNat_le (alignedTo gphys pagesizes (arrayLen - 1)).toNat
    omega

theorem Setting.mmioRangeEachPageSize_eq :
    mmioRangeEachPageSize gphys pagesizes reg arrayLen = some (leastMeeting reg gphys pagesizes arrayLen) :=
  hs.searchBuckets_ok 18 true _ _ _ _ (by omega) hs.searchOk_start

end Walk

/-- `mmio_range_each_page_size` returns the least `k` whose
`pagesizes[k]`-aligned block around `gphys` meets a live handle, or
`array_len`, for page sizes that are increasing powers of two below `2 ^ 32`,
as its callers pass, on a registry whose buckets list the registered handles
that touch them. -/
theorem mmioRangeEachPageSize_least (gphys : UInt64) (pagesizes : List UInt64) (reg : Registry)
    (arrayLen : Nat) (hwf : reg.Wf) (hlists : ∀ i < 17, ∀ h ∈ reg.mmio i, h ∈ reg.handle ∧ Touches h i)
    (hpow : PowersIncreasing pagesizes) (hsmall : ∀ p ∈ pagesizes, p.toNat < 2 ^ 32)
    (hlen : 0 < arrayLen ∧ arrayLen ≤ pagesizes.length)
    (hwrap : gphys.toNat + (pagesizes.getD (arrayLen - 1) 0).toNat < 2 ^ 64) :
    mmioRangeEachPageSize gphys pagesizes reg arrayLen = some (leastMeeting reg gphys pagesizes arrayLen) := by
  have hs : Setting gphys pagesizes reg arrayLen := ⟨hwf, hlists, hpow, hsmall, hlen.1, hlen.2, hwrap⟩
  exact hs.mmioRangeEachPageSize_eq

def apicHandle : MmioHandle := ⟨0xFEE00000, 0x1000, 0, false, false⟩

def vgaHandle : MmioHandle := ⟨0xA0000, 0x20000, 1, false, false⟩

def apicRegistry : Registry :=
  ⟨[apicHandle, vgaHandle], fun i => if i = 0 then [vgaHandle] else if i = 15 then [apicHandle] else []⟩

/-- The page just above the APIC page, with the page sizes of `vt_ept.c`. -/
theorem mmioRangeEachPageSize_least_apic :
    apicRegistry.Wf ∧
      (∀ i < 17, ∀ h ∈ apicRegistry.mmio i, h ∈ apicRegistry.handle ∧ Touches h i) ∧
      PowersIncreasing [0x1000, 0x200000, 0x40000000] ∧
      (∀ p ∈ ([0x1000, 0x200000, 0x40000000] : List UInt64), p.toNat < 2 ^ 32) ∧
      (0 < 3 ∧ 3 ≤ ([0x1000, 0x200000, 0x40000000] : List UInt64).length) ∧
      (0xFEE01000 : UInt64).toNat + (([0x1000, 0x200000, 0x40000000] : List UInt64).getD (3 - 1) 0).toNat < 2 ^ 64 ∧
      mmioRangeEachPageSize 0xFEE01000 [0x1000, 0x200000, 0x40000000] apicRegistry 3 =
        some (leastMeeting apicRegistry 0xFEE01000 [0x1000, 0x200000, 0x40000000] 3) := by
  have hwf : apicRegistry.Wf := ⟨by decide, by decide, by decide, by decide, by decide⟩
  have hlists : ∀ i < 17, ∀ h ∈ apicRegistry.mmio i, h ∈ apicRegistry.handle ∧ Touches h i := by decide
  have hpow : PowersIncreasing [0x1000, 0x200000, 0x40000000] := by
    refine ⟨?_, by decide⟩
    simp only [List.mem_cons, List.not_mem_nil, or_false]
    rintro p (rfl | rfl | rfl)
    exacts [⟨12, by decide⟩, ⟨21, by decide⟩, ⟨30, by decide⟩]
  have hsmall : ∀ p ∈ ([0x1000, 0x200000, 0x40000000] : List UInt64), p.toNat < 2 ^ 32 := by
    simp only [List.mem_cons, List.not_mem_nil, or_false]
    rintro p (rfl | rfl | rfl) <;> decide
  have hlen : 0 < 3 ∧ 3 ≤ ([0x1000, 0x200000, 0x40000000] : List UInt64).length := by decide
  have hwrap : (0xFEE01000 : UInt64).toNat +
      (([0x1000, 0x200000, 0x40000000] : List UInt64).getD (3 - 1) 0).toNat < 2 ^ 64 := by decide
  exact ⟨hwf, hlists, hpow, hsmall, hlen, hwrap,
    mmioRangeEachPageSize_least _ _ _ _ hwf hlists hpow hsmall hlen hwrap⟩

example : mmioRangeEachPageSize 0xFEE01000 [0x1000, 0x200000, 0x40000000] apicRegistry 3 = some 1 := by
  decide

end Bitvisor.X86Mmio
