import Bitvisor.Ept.Run
import Bitvisor.X86Mmio.PageSizeSpec

namespace Bitvisor.Ept

/-! `vt_ept_violation` against the MMIO ranges of `x86/mmio.c`. The handler
asks `mmio_range_each_page_size` how many of the sizes 4 KiB, 2 MiB and
1 GiB it may use around the faulting address; with that search returning
`leastMeeting`, a violation reports MMIO exactly when the 4 KiB page of the
address meets a live range, and otherwise maps a page whose whole block
meets none. The search is given at most `avl_pagesizes_len` sizes, which
`vt_ept_new` sets and no later call changes. -/

section PageSizes

variable {env : Gmm} {allocPage : Nat → UInt64} {s s' : VtEptState} {g : UInt64} {write b : Bool}

theorem violationPage_avl (h : violationPage env allocPage s write g = some (b, s')) :
    s'.avlPagesizesLen = s.avlPagesizesLen := by
  unfold violationPage at h
  obtain ⟨s1, hmp, hs1⟩ := Option.map_eq_some_iff.1 h
  rw [← (Prod.mk.inj hs1).2]
  exact vtEptMapPage_avl env hmp

theorem violation2m_avl (h : violation2m env allocPage s write g = some (b, s')) :
    s'.avlPagesizesLen = s.avlPagesizesLen := by
  unfold violation2m at h
  dsimp only at h
  split_ifs at h
  · rw [violationPage_avl h, vtEptMap2mpage_avlPagesizesLen]
  · rw [← (Prod.mk.inj (Option.some.inj h)).2, vtEptMap2mpage_avlPagesizesLen]

theorem violation1g_avl (h : violation1g env allocPage s write g = some (b, s')) :
    s'.avlPagesizesLen = s.avlPagesizesLen := by
  unfold violation1g at h
  dsimp only at h
  split_ifs at h
  · rw [violation2m_avl h, vtEptMap1gpage_avlPagesizesLen]
  · rw [← (Prod.mk.inj (Option.some.inj h)).2, vtEptMap1gpage_avlPagesizesLen]

theorem vtEptViolation_avl {reg : X86Mmio.Registry} (h : vtEptViolation env allocPage reg s write g = some (b, s')) :
    s'.avlPagesizesLen = s.avlPagesizesLen := by
  unfold vtEptViolation at h
  dsimp only at h
  split at h
  · rw [violation1g_avl h, VtEptState.curMove_avlPagesizesLen]
  · rw [violation2m_avl h, VtEptState.curMove_avlPagesizesLen]
  · rw [violationPage_avl h, VtEptState.curMove_avlPagesizesLen]
  · rw [← (Prod.mk.inj (Option.some.inj h)).2, VtEptState.curMove_avlPagesizesLen]

@[simp] theorem vtEptShadowInvalidate_avlPagesizesLen (s : VtEptState) (g : UInt64) :
    (vtEptShadowInvalidate s g).avlPagesizesLen = s.avlPagesizesLen := by
  unfold vtEptShadowInvalidate
  dsimp only
  split_ifs <;> rfl

@[simp] theorem vtEptClear_avlPagesizesLen (s : VtEptState) : (vtEptClear s).avlPagesizesLen = s.avlPagesizesLen := by
  simp [vtEptClear]

theorem vtEptExternMapsearch_avlPagesizesLen (mask start endAddr : UInt64) (isCurrent : Bool) (s : VtEptState) :
    (vtEptExternMapsearch mask start endAddr isCurrent s).2.avlPagesizesLen = s.avlPagesizesLen := by
  obtain ⟨m, hm⟩ := mapsearchTables_mem_only mask start endAddr isCurrent (List.range s.cnt) s
  rw [vtEptExternMapsearch, hm]

theorem vtEptMap1mb_avl {isMmio : UInt64 → Bool} (h : vtEptMap1mb env allocPage isMmio s = some s') :
    s'.avlPagesizesLen = s.avlPagesizesLen := by
  refine StepRun.foldlM_invariant (fun t => t.avlPagesizesLen = s.avlPagesizesLen) (fun t i t' ht hs => ?_) _ _ _
    (vtEptClear_avlPagesizesLen s) h
  dsimp only at hs
  split_ifs at hs
  · rw [← Option.some.inj hs]
    exact ht
  · rw [vtEptMapPage_avl env hs]
    exact ht

theorem vtEptNew_avlPagesizesLen (ncr3tbl : UInt64) (maxnumtbl : Int) (ept1gb : Bool) (mem : Nat → UInt8)
    (storage : Nat → UInt32) :
    (vtEptNew allocPage ncr3tbl maxnumtbl ept1gb mem storage).avlPagesizesLen = if ept1gb then 3 else 2 := by
  unfold vtEptNew
  refine List.foldlRecOn (motive := fun t : VtEptState => t.avlPagesizesLen = if ept1gb then 3 else 2) _ _ rfl
    fun t ht i _ => ?_
  rw [apply_ite VtEptState.avlPagesizesLen, eptTblAlloc_avlPagesizesLen, ite_self]
  exact ht

theorem step_avl (hs : Step env allocPage s s') : s'.avlPagesizesLen = s.avlPagesizesLen := by
  cases hs with
  | violation reg write g b hv => exact vtEptViolation_avl hv
  | shadowInvalidate g => exact vtEptShadowInvalidate_avlPagesizesLen s g
  | clear => exact vtEptClear_avlPagesizesLen s
  | mapsearch mask start endAddr isCurrent hmiss =>
    exact vtEptExternMapsearch_avlPagesizesLen mask start endAddr isCurrent s
  | map1mb isMmio hm => exact vtEptMap1mb_avl hm

/-- `avl_pagesizes_len` stays what `vt_ept_new` set it to: 3 with 1 GiB
pages, 2 without. Induction on the run. -/
theorem reach_avl (h : Reach env allocPage s) : s.avlPagesizesLen = 2 ∨ s.avlPagesizesLen = 3 := by
  induction h with
  | init hpg maxnumtbl ept1gb mem storage =>
    rw [vtEptNew_avlPagesizesLen]
    cases ept1gb
    · exact .inl rfl
    · exact .inr rfl
  | step _ hs ih => rwa [step_avl hs]

end PageSizes

theorem pagesizes_powersIncreasing : X86Mmio.PowersIncreasing pagesizes := by
  refine ⟨?_, by decide⟩
  simp only [pagesizes, List.mem_cons, List.not_mem_nil, or_false]
  rintro p (rfl | rfl | rfl)
  exacts [⟨12, by decide⟩, ⟨21, by decide⟩, ⟨30, by decide⟩]

theorem pagesizes_lt (p : UInt64) (hp : p ∈ pagesizes) : p.toNat < 2 ^ 32 := by
  simp only [pagesizes, List.mem_cons, List.not_mem_nil, or_false] at hp
  rcases hp with rfl | rfl | rfl <;> decide

theorem pageSize_pagesizes_le (k : Nat) : X86Mmio.pageSize pagesizes k ≤ 0x40000000 := by
  rcases k with _ | _ | _ | k <;> simp [X86Mmio.pageSize, pagesizes]

section Mmio

variable {env : Gmm} {allocPage : Nat → UInt64} {s s' : VtEptState} {g : UInt64} {write b : Bool}

/-- `vt_ept_violation (write, g, emulation)` from a reachable state, on a
registry in the shape the registration code keeps: it reports an MMIO access
exactly when the 4 KiB page of `g` meets a live range, and otherwise maps `g`
with a page whose whole aligned block meets none. -/
theorem reach_violation_avoids_mmio (hr : Reach env allocPage s) {reg : X86Mmio.Registry} (hwf : reg.Wf)
    (hlists : ∀ i < 17, ∀ h ∈ reg.mmio i, h ∈ reg.handle ∧ X86Mmio.Touches h i)
    (hg : g.toNat + 0x40000000 < 2 ^ 64) (hv : vtEptViolation env allocPage reg s write g = some (b, s')) :
    (b = true ↔ ∃ h ∈ reg.handle, h.unregistered = false ∧ X86Mmio.BlockMeets 0x1000 g.toNat h) ∧
      (b = false → ∃ l ≤ 2, Leaf (wordsOf s'.mem) s'.ept.ncr3tbl g l (leafEntry env g l) ∧
        ∀ h ∈ reg.handle, h.unregistered = false → ¬X86Mmio.BlockMeets (X86Mmio.pageSize pagesizes l) g.toNat h) := by
  have hm := moved_curMove (reach_eptInv hr) g
  have havl := reach_avl hr
  unfold vtEptViolation at hv
  dsimp only at hv
  generalize hn : (if (s.curMove g).ept.cur.level + 1 < (s.curMove g).avlPagesizesLen then
    (s.curMove g).ept.cur.level + 1 else (s.curMove g).avlPagesizesLen) = n at hv
  -- the search gets between one and three page sizes
  have hn13 : 1 ≤ n ∧ n ≤ 3 := by
    rw [← hn, VtEptState.curMove_avlPagesizesLen]
    split <;> omega
  have hs : X86Mmio.Setting g pagesizes reg n :=
    ⟨hwf, hlists, pagesizes_powersIncreasing, pagesizes_lt, hn13.1, hn13.2,
      by have := pageSize_pagesizes_le (n - 1); omega⟩
  obtain ⟨hle, hmeet, hbelow⟩ := X86Mmio.leastMeeting_spec reg g pagesizes n
  rw [hs.mmioRangeEachPageSize_eq] at hv
  generalize X86Mmio.leastMeeting reg g pagesizes n = k at hv hle hmeet hbelow
  have hpage : 1 ≤ k → ¬∃ h ∈ reg.handle, h.unregistered = false ∧ X86Mmio.BlockMeets 0x1000 g.toNat h :=
    fun hk ⟨h, hh, hhit⟩ => hbelow 0 hk h hh hhit
  have hmapped : ∀ l < k, l ≤ 2 → Leaf (wordsOf s'.mem) s'.ept.ncr3tbl g l (leafEntry env g l) →
      ∃ l ≤ 2, Leaf (wordsOf s'.mem) s'.ept.ncr3tbl g l (leafEntry env g l) ∧
        ∀ h ∈ reg.handle, h.unregistered = false → ¬X86Mmio.BlockMeets (X86Mmio.pageSize pagesizes l) g.toNat h :=
    fun l hlk hl2 hleaf => ⟨l, hl2, hleaf, fun h hh hreg hmeets => hbelow l hlk h hh ⟨hreg, hmeets⟩⟩
  rcases k with _ | _ | _ | _ | k
  · -- no page size is free of MMIO: the access is reported
    simp only [Option.some.injEq, Prod.mk.injEq] at hv
    obtain ⟨rfl, rfl⟩ := hv
    obtain ⟨h, hh, hhit⟩ := hmeet (by omega)
    exact ⟨iff_of_true rfl ⟨h, hh, hhit⟩, nofun⟩
  · simp only at hv
    obtain ⟨rfl, -, hleaf⟩ := violationPage_spec hm hv
    exact ⟨iff_of_false nofun (hpage le_rfl), fun _ => hmapped 0 (by omega) (by omega) hleaf⟩
  · simp only at hv
    obtain ⟨rfl, -, l, hl, hleaf⟩ := violation2m_spec hm hv
    exact ⟨iff_of_false nofun (hpage (by omega)), fun _ => hmapped l (by omega) (by omega) hleaf⟩
  · simp only at hv
    obtain ⟨rfl, -, l, hl, hleaf⟩ := violation1g_spec hm hv
    exact ⟨iff_of_false nofun (hpage (by omega)), fun _ => hmapped l (by omega) hl hleaf⟩
  · omega

end Mmio

def pageAboveHandle : X86Mmio.MmioHandle := ⟨0x6000, 0x1000, 0, false, false⟩

def pageAboveRegistry : X86Mmio.Registry := ⟨[pageAboveHandle], fun i => if i = 0 then [pageAboveHandle] else []⟩

/-- `newEpt` after the violation at `0x5000`, one page below an MMIO range. -/
def mmioFaultedEpt : VtEptState :=
  ((vtEptViolation shiftGmm spacedPages pageAboveRegistry newEpt false 0x5000).getD (true, newEpt)).2

set_option maxRecDepth 100000 in
theorem vtEptViolation_pageAbove :
    vtEptViolation shiftGmm spacedPages pageAboveRegistry newEpt false 0x5000 = some (false, mmioFaultedEpt) := by
  rfl

/-- The 2 MiB block of `0x5000` meets the range on the next page, so the
violation maps a page that stops below it. -/
theorem reach_violation_avoids_mmio_pageAbove :
    X86Mmio.BlockMeets 0x200000 (0x5000 : UInt64).toNat pageAboveHandle ∧
      ∃ l ≤ 2, Leaf (wordsOf mmioFaultedEpt.mem) mmioFaultedEpt.ept.ncr3tbl 0x5000 l (leafEntry shiftGmm 0x5000 l) ∧
        ∀ h ∈ pageAboveRegistry.handle, h.unregistered = false →
          ¬X86Mmio.BlockMeets (X86Mmio.pageSize pagesizes l) (0x5000 : UInt64).toNat h := by
  have hwf : pageAboveRegistry.Wf := ⟨by decide, by decide, by decide, by decide, by decide⟩
  have hlists : ∀ i < 17, ∀ h ∈ pageAboveRegistry.mmio i, h ∈ pageAboveRegistry.handle ∧ X86Mmio.Touches h i := by
    decide
  exact ⟨by decide, (reach_violation_avoids_mmio reach_newEpt hwf hlists (by decide) vtEptViolation_pageAbove).2 rfl⟩

set_option maxRecDepth 100000 in
example : (vtEptViolation shiftGmm spacedPages pageAboveRegistry newEpt false 0x6000).map Prod.fst = some true := by
  rfl

end Bitvisor.Ept
