import Bitvisor.Mm.Alloc
import Bitvisor.Mm.PageAlloc
import Bitvisor.Lib.MachineInt

namespace Bitvisor.Mm

open PageState

theorem smallAlloc_ok_eq {k p : Nat} {st st' : MmState} {n : UInt32} {v : Nat}
    (h : smallAlloc.ok k st p n = some (st', v)) :
    st' = st ∧ 0 ≤ bitToIndex n ∧ bitToIndex n < smallNbits k ∧
      v = pageToVirt p + smallAllocsize k * (bitToIndex n).toNat := by
  unfold smallAlloc.ok at h
  dsimp only at h
  split at h
  · rename_i hi
    obtain ⟨rfl, rfl⟩ := Prod.mk.inj (Option.some.inj h)
    exact ⟨rfl, hi.1, hi.2, rfl⟩
  · cases h

theorem tinyAlloc_ok_eq {t b : Nat} {st st' : MmState} {n : UInt32} {v : Nat}
    (h : tinyAlloc.ok t st b n = some (st', v)) :
    st' = st ∧ 0 < bitToIndex n ∧ bitToIndex n < 32 ∧
      v = b + tinyAllocsize t * (bitToIndex n).toNat := by
  unfold tinyAlloc.ok at h
  dsimp only at h
  split at h
  · rename_i hi
    obtain ⟨rfl, rfl⟩ := Prod.mk.inj (Option.some.inj h)
    exact ⟨rfl, hi.1, hi.2, rfl⟩
  · cases h

theorem smallAlloc_pages {st st' : MmState} {k v : Nat} (hi : PageInv st.pages)
    (h : smallAlloc st k = some (st', v)) : PageInv st'.pages := by
  unfold smallAlloc at h
  split at h
  · split at h
    · rw [(smallAlloc_ok_eq h).1]
      split <;> simpa using hi
    · split at h
      · cases h
      · rename_i pages p hpage
        dsimp only at h
        split at h
        · cases h
        · rename_i hty
          rw [(smallAlloc_ok_eq h).1]
          have ha : (pages.page p).type = .allocated := not_not.1 hty
          exact (mmPageAlloc_inv hi hpage).retype (by rw [ha]; decide) (by rw [ha]; decide)
            (by decide) (by decide)
  · cases h

theorem tinyAlloc_pages {st st' : MmState} {t v : Nat} (hi : PageInv st.pages)
    (h : tinyAlloc st t = some (st', v)) : PageInv st'.pages := by
  unfold tinyAlloc at h
  split at h
  · split at h
    · rw [(tinyAlloc_ok_eq h).1]
      split <;> simpa using hi
    · split at h
      · cases h
      · split at h
        · cases h
        · rename_i st₁ b hsmall
          rw [(tinyAlloc_ok_eq h).1]
          simpa using smallAlloc_pages hi hsmall
  · cases h

theorem smallFree_pages {st st' : MmState} {p off : Nat} (hi : PageInv st.pages)
    (hpN : p < numOfPages) (h : smallFree st p off = some st') : PageInv st'.pages := by
  have retyped : ¬((st.pages.page p).type ≠ .allocatedSmall ∨
      numOfSmallAllocsize ≤ (st.small p).smallAllocsize) →
      PageInv (st.pages.setType p .allocated) := fun hk => by
    have ht : (st.pages.page p).type = .allocatedSmall := by
      by_contra hne
      exact hk (Or.inl hne)
    exact hi.retype (by rw [ht]; decide) (by rw [ht]; decide) (by decide) (by decide)
  unfold smallFree at h
  dsimp only at h
  split_ifs at h with h₁
  · obtain ⟨pages, hfree, rfl⟩ := Option.map_eq_some_iff.1 h
    exact mmPageFree_inv (retyped h₁) hpN (by simpa using hfree)
  · cases h
    simpa using hi
  · obtain ⟨pages, hfree, rfl⟩ := Option.map_eq_some_iff.1 h
    exact mmPageFree_inv (retyped h₁) hpN (by simpa using hfree)
  · cases h
    simpa using hi

theorem tinyFree_pages {st st' : MmState} {p b off : Nat} (hi : PageInv st.pages)
    (hpN : p < numOfPages) (h : tinyFree st p b off = some st') : PageInv st'.pages := by
  unfold tinyFree at h
  dsimp only at h
  split_ifs at h
  · exact smallFree_pages (by simpa using hi) hpN h
  · cases h
    simpa using hi
  · exact smallFree_pages (by simpa using hi) hpN h
  · cases h
    simpa using hi

theorem allocPages_pages {st st' : MmState} {n : Int32} {v : Nat} (hi : PageInv st.pages)
    (h : allocPages st n = some (st', v)) : PageInv st'.pages := by
  unfold allocPages at h
  split at h
  · cases h
  · obtain ⟨⟨pages, p⟩, hpage, heq⟩ := Option.map_eq_some_iff.1 h
    cases heq
    exact mmPageAlloc_inv hi hpage
  · obtain ⟨⟨pages, p⟩, hpage, heq⟩ := Option.map_eq_some_iff.1 h
    cases heq
    exact mmPageAllocCont_inv hi hpage

theorem alloc_pages {st st' : MmState} {len : UInt32} {v : Nat} (hi : PageInv st.pages)
    (h : alloc st len = some (st', v)) : PageInv st'.pages := by
  unfold alloc at h
  split at h
  · exact allocPages_pages hi h
  · split at h
    · exact smallAlloc_pages hi h
    · exact tinyAlloc_pages hi h

theorem free_pages {st st' : MmState} {virt : Nat} (hi : PageInv st.pages)
    (h : free st virt = some st') : PageInv st'.pages := by
  unfold free at h
  split at h
  · cases h
  · rename_i p hp
    have hpN := virtToPage_eq_some hp
    dsimp only at h
    split_ifs at h
    · exact tinyFree_pages hi hpN h
    · exact smallFree_pages hi hpN h
    · obtain ⟨pages, hfree, rfl⟩ := Option.map_eq_some_iff.1 h
      exact mmPageFree_inv hi hpN hfree

theorem foldlM_mmPageFree_inv (usable : List Nat) (hu : ∀ p ∈ usable, p < numOfPages) :
    ∀ st st' : PageState, PageInv st → usable.foldlM mmPageFree st = some st' → PageInv st' := by
  induction usable with
  | nil =>
    intro st st' hi h
    cases h
    exact hi
  | cons p ps ih =>
    intro st st' hi h
    rw [List.foldlM_cons] at h
    obtain ⟨st₁, h₁, h₂⟩ := Option.bind_eq_some_iff.1 h
    have hpN := hu p List.mem_cons_self
    exact ih (fun q hq => hu q (List.mem_cons_of_mem p hq)) st₁ st'
      (mmPageFree_inv hi hpN h₁) h₂

theorem mmInitGlobal_pages {usable : List Nat} {st : MmState} (hu : ∀ p ∈ usable, p < numOfPages)
    (h : mmInitGlobal usable = some st) : PageInv st.pages := by
  obtain ⟨pages, hfold, rfl⟩ := Option.map_eq_some_iff.1 h
  exact foldlM_mmPageFree_inv usable hu mmInit pages mmInit_inv hfold

theorem mmStep_pages {st st' : MmState} {op : MmOp} {out : Option Nat} (hi : PageInv st.pages)
    (h : mmStep st op = some (st', out)) : PageInv st'.pages := by
  cases op with
  | alloc len =>
    obtain ⟨⟨st₁, v⟩, h₁, heq⟩ := Option.map_eq_some_iff.1 h
    cases heq
    exact alloc_pages hi h₁
  | free virt =>
    obtain ⟨st₁, h₁, heq⟩ := Option.map_eq_some_iff.1 h
    cases heq
    exact free_pages hi h₁

theorem mmRun_pages {usable : List Nat} {st₀ st : MmState} {ops : List MmOp}
    {outs : List (Option Nat)} (hu : ∀ p ∈ usable, p < numOfPages)
    (h₀ : mmInitGlobal usable = some st₀) (h : mmRun st₀ ops = some (st, outs)) :
    PageInv st.pages :=
  StepRun.runSteps_invariant (fun st => PageInv st.pages) (fun _ _ _ _ hs hst => mmStep_pages hs hst)
    ops st₀ st outs (mmInitGlobal_pages hu h₀) h

/-- Under every run of `alloc` and `free` from `mm_init_global`, with the
small and tiny allocators taking and giving back whole pages, the pages keep
the buddy allocator's invariant, and its blocks partition the page array. -/
theorem mmRun_pageInv {usable : List Nat} {st₀ st : MmState} {ops : List MmOp}
    {outs : List (Option Nat)} (hu : ∀ p ∈ usable, p < numOfPages)
    (h₀ : mmInitGlobal usable = some st₀) (h : mmRun st₀ ops = some (st, outs)) :
    PageInv st.pages ∧ ∀ j < numOfPages,
      ∃! h, (st.pages.page h).type ≠ .notHead ∧ h ≤ j ∧ j < h + 2 ^ (st.pages.page h).allocsize := by
  have hi := mmRun_pages hu h₀ h
  exact ⟨hi, hi.partition⟩

theorem mmRun_pageInv_mixed :
    ∃ st₀ st outs, mmInitGlobal (List.range 4) = some st₀ ∧
      mmRun st₀ [.alloc 100, .alloc 5000, .alloc 16, .free 0x40000000] = some (st, outs) ∧
      PageInv st.pages := by
  obtain ⟨st₀, st, outs, h₀, h⟩ : ∃ st₀ st outs, mmInitGlobal (List.range 4) = some st₀ ∧
      mmRun st₀ [.alloc 100, .alloc 5000, .alloc 16, .free 0x40000000] = some (st, outs) :=
    ⟨_, _, _, rfl, rfl⟩
  exact ⟨st₀, st, outs, h₀, h, (mmRun_pageInv (by decide) h₀ h).1⟩

theorem two_pow_le_4096 {i : Nat} (hi : i < numOfAllocsize) : (2 : ℤ) ^ i ≤ 4096 := by
  have h2 : 2 ^ i ≤ 2 ^ 12 :=
    Nat.pow_le_pow_right (by decide) (by simp only [numOfAllocsize] at hi; omega)
  exact_mod_cast h2

theorem toInt_blockSize {i : Nat} (hi : i < numOfAllocsize) :
    (Int32.ofNat (4096 <<< i)).toInt = 4096 * 2 ^ i := by
  have h2 : 2 ^ i ≤ 2 ^ 12 :=
    Nat.pow_le_pow_right (by decide) (by simp only [numOfAllocsize] at hi; omega)
  rw [Int32.toInt_ofNat_of_lt (by rw [Nat.shiftLeft_eq]; omega), Nat.shiftLeft_eq]
  simp only [Int.natCast_mul, Int.natCast_pow]
  rfl

/-- `get_alloc_pages_size (n)` for a page count whose byte size fits an
`int`: a level below `NUM_OF_ALLOCSIZE` whose block holds the `n` pages, or
with a second, smaller level whose block holds the rest. -/
theorem getAllocPagesSize_spec {n : Int32} {i : Nat} {o : Option Nat} (h0 : 0 ≤ n.toInt)
    (h1 : n.toInt * 4096 < 2147483648) (h : getAllocPagesSize n = some (i, o)) :
    i < numOfAllocsize ∧ (o = none → n.toInt ≤ 2 ^ i) ∧
      ∀ j, o = some j → j < i ∧ n.toInt ≤ 2 ^ i + 2 ^ j := by
  unfold getAllocPagesSize at h
  obtain ⟨i', hi', hf⟩ := List.exists_of_findSome?_eq_some h
  have hiN : i' < numOfAllocsize := List.mem_range.1 hi'
  have hsz : (n * 4096).toInt = n.toInt * 4096 := MachineInt.toInt_mul_of_lt (by simp; omega)
    (by simpa using h1)
  have hpow := two_pow_le_4096 hiN
  have hpos : (0 : ℤ) < 2 ^ i' := by exact_mod_cast Nat.two_pow_pos i'
  dsimp only at hf
  split at hf
  · rename_i hge
    rw [ge_iff_le, Int32.le_iff_toInt_le, hsz, toInt_blockSize hiN] at hge
    obtain ⟨rfl, rfl⟩ := Prod.mk.inj (Option.some.inj hf)
    exact ⟨hiN, fun _ => by omega, fun j hj => by cases hj⟩
  · split at hf
    · rename_i hlt hcond
      obtain ⟨hpos', hge⟩ := hcond
      have hi1 : i' - 1 < numOfAllocsize := by omega
      have hpow1 := two_pow_le_4096 hi1
      have hpos1 : (0 : ℤ) < 2 ^ (i' - 1) := by exact_mod_cast Nat.two_pow_pos (i' - 1)
      rw [ge_iff_le, Int32.le_iff_toInt_le, MachineInt.toInt_add_of_lt
        (by rw [toInt_blockSize hiN, toInt_blockSize hi1]; omega)
        (by rw [toInt_blockSize hiN, toInt_blockSize hi1]; omega),
        hsz, toInt_blockSize hiN, toInt_blockSize hi1] at hge
      obtain ⟨rfl, rfl⟩ := Prod.mk.inj (Option.some.inj hf)
      refine ⟨hiN, (fun h => by cases h), fun j hj => ?_⟩
      cases hfind : (List.range (i' - 1)).find? fun j =>
          Int32.ofNat (4096 <<< j) ≥ n * (4096 : Int32) - Int32.ofNat (4096 <<< i') with
      | none =>
        rw [hfind, Option.getD_none, Option.some.injEq] at hj
        subst hj
        exact ⟨by omega, by omega⟩
      | some j' =>
        rw [hfind, Option.getD_some, Option.some.injEq] at hj
        subst hj
        have hj' : j' < i' - 1 := List.mem_range.1 (List.mem_of_find?_eq_some hfind)
        have hjN : j' < numOfAllocsize := by omega
        have hge' := List.find?_some hfind
        simp only [decide_eq_true_eq] at hge'
        rw [ge_iff_le, Int32.le_iff_toInt_le, MachineInt.toInt_sub_of_lt
          (by rw [hsz, toInt_blockSize hiN]; omega) (by rw [hsz, toInt_blockSize hiN]; omega),
          hsz, toInt_blockSize hiN, toInt_blockSize hjN] at hge'
        exact ⟨by omega, by omega⟩
    · cases hf

theorem getAllocLen_allocated {st : MmState} {p : Nat} (hpN : p < numOfPages)
    (ht : (st.pages.page p).type = .allocated)
    (hn : (st.pages.page p).allocsize < numOfAllocsize) :
    getAllocLen st (pageToVirt p) = some (4096 <<< (st.pages.page p).allocsize) := by
  simp [getAllocLen, hpN, ht, mmPageGetAllocsize, hn]

theorem getAllocLen_allocatedCont {st : MmState} {p n m : Nat} (hpN : p < numOfPages)
    (ht : (st.pages.page p).type = .allocatedCont) (hn : (st.pages.page p).allocsize = n)
    (hnN : n < numOfAllocsize) (hal : 2 ^ n ∣ p) (hbit : p.testBit n = false)
    (hqN : p + 2 ^ n < numOfPages) (hm : (st.pages.page (p + 2 ^ n)).allocsize = m)
    (hmN : m < numOfAllocsize) :
    getAllocLen st (pageToVirt p) = some (4096 <<< n + 4096 <<< m) := by
  have hor : pageToVirt p ||| 4096 <<< n = pageToVirt (p + 2 ^ n) := by
    rw [pageToVirt_or hpN hnN, Buddy.or_two_pow_of_dvd hal hbit]
  simp [getAllocLen, hpN, ht, hn, mmPageGetAllocsize, hnN, hor, hqN, hm, hmN]

theorem allocPages_len {st st' : MmState} {n : Int32} {v : Nat} (hi : PageInv st.pages)
    (h0 : 0 ≤ n.toInt) (h1 : n.toInt * 4096 < 2147483648) (h : allocPages st n = some (st', v)) :
    ∃ len, getAllocLen st' v = some len ∧ n.toInt * 4096 ≤ len := by
  unfold allocPages at h
  split at h
  · cases h
  · rename_i i hg
    obtain ⟨hiN, hle, -⟩ := getAllocPagesSize_spec h0 h1 hg
    obtain ⟨⟨pages, p⟩, hpage, heq⟩ := Option.map_eq_some_iff.1 h
    cases heq
    obtain ⟨-, hpN, ht, ha, -⟩ := mmPageAlloc_spec hi hpage
    refine ⟨_, @getAllocLen_allocated { st with pages } p hpN ht (by rw [ha]; exact hiN), ?_⟩
    have hn := hle rfl
    simp only [ha, Nat.shiftLeft_eq, Int.natCast_mul, Int.natCast_pow, Nat.cast_ofNat]
    omega
  · rename_i i j hg
    obtain ⟨hiN, -, hle⟩ := getAllocPagesSize_spec h0 h1 hg
    obtain ⟨hji, hn⟩ := hle j rfl
    obtain ⟨⟨pages, p⟩, hpage, heq⟩ := Option.map_eq_some_iff.1 h
    cases heq
    obtain ⟨hbit, hqN, ht, ha, -, hqa⟩ := mmPageAllocCont_block hi (Nat.le_of_lt hji) hpage
    have hpN : p < numOfPages := Nat.lt_of_le_of_lt (Nat.le_add_right p _) hqN
    have hal : 2 ^ i ∣ p := by
      have hi' := mmPageAllocCont_inv hi hpage
      exact ha ▸ (hi'.head_aligned p hpN (by rw [ht]; decide)).1
    refine ⟨_, @getAllocLen_allocatedCont { st with pages } p i j hpN ht ha hiN hal hbit hqN hqa
      (by omega), ?_⟩
    simp only [Nat.shiftLeft_eq, Int.natCast_add, Int.natCast_mul, Int.natCast_pow, Nat.cast_ofNat]
    omega

theorem getSmallAllocsize_eq_none {len : UInt32} (hlen : 2048 < len.toNat) :
    getSmallAllocsize len = none := by
  rw [getSmallAllocsize, List.find?_eq_none]
  intro i hi
  have hi5 : i ≤ 4 := by
    have := List.mem_range.1 hi
    simp only [numOfSmallAllocsize] at this
    omega
  have hsize : smallAllocsize i ≤ 2048 := by
    have := Nat.pow_le_pow_right (show 0 < 2 by decide) hi5
    simp only [smallAllocsize, Nat.shiftLeft_eq]
    omega
  simp only [decide_eq_true_eq]
  omega

theorem alloc_len_pages {st st' : MmState} {len : UInt32} {v : Nat} (hi : PageInv st.pages)
    (hlen : 2048 < len.toNat) (hmax : len.toNat ≤ 0x7FFFF000) (h : alloc st len = some (st', v)) :
    ∃ l, getAllocLen st' v = some l ∧ len.toNat ≤ l := by
  unfold alloc at h
  rw [getSmallAllocsize_eq_none hlen] at h
  have hcount : ((len + 4095) / 4096).toNat = (len.toNat + 4095) / 4096 := by
    rw [UInt32.toNat_div, UInt32.toNat_add]
    simp only [UInt32.reduceToNat]
    rw [Nat.mod_eq_of_lt (by omega)]
  have hn : ((len + 4095) / 4096).toInt32.toInt = ((len.toNat + 4095) / 4096 : ℕ) := by
    rw [MachineInt.toInt_toInt32 (by omega), hcount]
  obtain ⟨l, hl, hle⟩ := allocPages_len hi (by rw [hn]; omega) (by rw [hn]; omega) h
  exact ⟨l, hl, by rw [hn] at hle; omega⟩

/-- After any run of `alloc` and `free` from `mm_init_global`, `alloc (len)`
above the largest small size, where neither `len + 4095` in `uint` nor the
byte count of the pages in `int` overflows, hands out an address for which
`get_alloc_len` reports at least `len` bytes. -/
theorem mmRun_alloc_len {usable : List Nat} {st₀ st st' : MmState} {ops : List MmOp}
    {outs : List (Option Nat)} {len : UInt32} {v : Nat} (hu : ∀ p ∈ usable, p < numOfPages)
    (h₀ : mmInitGlobal usable = some st₀) (h : mmRun st₀ ops = some (st, outs))
    (hlen : 2048 < len.toNat) (hmax : len.toNat ≤ 0x7FFFF000) (ha : alloc st len = some (st', v)) :
    ∃ l, getAllocLen st' v = some l ∧ len.toNat ≤ l :=
  alloc_len_pages (mmRun_pages hu h₀ h) hlen hmax ha

theorem mmRun_alloc_len_three_pages :
    ∃ st₀ st outs st' v, mmInitGlobal (List.range 16) = some st₀ ∧
      mmRun st₀ [.alloc 100] = some (st, outs) ∧ alloc st 9000 = some (st', v) ∧
      ∃ l, getAllocLen st' v = some l ∧ (9000 : UInt32).toNat ≤ l := by
  have hs₀ : (mmInitGlobal (List.range 16)).isSome = true := by decide
  have hs₁ : (mmRun ((mmInitGlobal (List.range 16)).get hs₀) [.alloc 100]).isSome = true := by
    decide +revert
  have hs₂ : (alloc ((mmRun ((mmInitGlobal (List.range 16)).get hs₀) [.alloc 100]).get hs₁).1
      9000).isSome = true := by
    decide +revert
  have h₀ := (Option.some_get hs₀).symm
  have h := (Option.some_get hs₁).symm
  have ha := (Option.some_get hs₂).symm
  exact ⟨_, _, _, _, _, h₀, h, ha, mmRun_alloc_len (by decide) h₀ h (by decide) (by decide) ha⟩

end Bitvisor.Mm
