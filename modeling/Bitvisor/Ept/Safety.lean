import Bitvisor.Ept.Run

namespace Bitvisor.Ept

/-! What holds on every run of the EPT code. Each result reads one part of
`EptInv` off `reach_eptInv`, or the specification of one operation on a
state that holds it: the shape of the tables and the pool, the cursor cache,
the entries that walks end on, and the effect of each call on them. -/

section Reachable

variable {env : Gmm} {allocPage : Nat → UInt64} {s : VtEptState}

/-- The pool never overflows `ept->tbl`: at most `MAXNUM_OF_EPTBL` tables
are attached, the first `cnt` slots hold their pages, and only slots below
`MAXNUM_OF_EPTBL` are ever allocated. -/
theorem reach_pool_bounds (hr : Reach env allocPage s) :
    s.cnt ≤ maxnumOfEptbl ∧ (∀ i < s.cnt, s.tbl i = some (allocPage i)) ∧
      ∀ i, s.tbl i ≠ none → i < maxnumOfEptbl ∧ s.tbl i = some (allocPage i) := by
  have hp := (reach_eptInv hr).pool
  refine ⟨hp.cnt_le, hp.attached, fun i hi => ⟨hp.slots i hi, ?_⟩⟩
  exact (hp.tbl i).resolve_left hi

theorem reach_pool_bounds_faulted :
    faultedEpt.cnt ≤ maxnumOfEptbl ∧ (∀ i < faultedEpt.cnt, faultedEpt.tbl i = some (spacedPages i)) ∧
      ∀ i, faultedEpt.tbl i ≠ none → i < maxnumOfEptbl ∧ faultedEpt.tbl i = some (spacedPages i) :=
  reach_pool_bounds reach_faultedEpt

/-- Walks read only the EPT's own pages: every entry a walk reaches is
8-aligned, in the root at depth 0 and below it in one of the `cnt` attached
tables. -/
theorem reach_walkEntry_mem (hr : Reach env allocPage s) {g a : UInt64} {k : Nat} (hk : k ≤ 3)
    (hw : walkEntry (wordsOf s.mem) s.ept.ncr3tbl g k = some a) :
    a.toNat % 8 = 0 ∧ ((k = 0 ∧ InPage s.ept.ncr3tbl a) ∨ (0 < k ∧ ∃ i < s.cnt, InPage (allocPage i) a)) := by
  obtain ⟨lv, ht⟩ := (reach_eptInv hr).pool.tree
  obtain ⟨ha, hin⟩ := ht.walkEntry_mem hk hw
  refine ⟨ha, hin.imp_right fun ⟨hpos, i, hi, _, hpage⟩ => ⟨hpos, i, hi, hpage⟩⟩

set_option maxRecDepth 100000 in
theorem reach_walkEntry_mem_faulted :
    (0x2000 : UInt64).toNat % 8 = 0 ∧ ((1 = 0 ∧ InPage faultedEpt.ept.ncr3tbl 0x2000) ∨
      (0 < 1 ∧ ∃ i < faultedEpt.cnt, InPage (spacedPages i) 0x2000)) :=
  reach_walkEntry_mem reach_faultedEpt (g := 0x5000) (by decide) (by decide)

/-- The tables form a tree: two walks that read one entry read it at the same
depth, and took the same entries down to it. -/
theorem reach_walkEntry_tree (hr : Reach env allocPage s) {g g' a : UInt64} {k k' : Nat} (hk : k ≤ 3)
    (hk' : k' ≤ 3) (hw : walkEntry (wordsOf s.mem) s.ept.ncr3tbl g k = some a)
    (hw' : walkEntry (wordsOf s.mem) s.ept.ncr3tbl g' k' = some a) : k = k' ∧ SameBlock (3 - k) g g' := by
  obtain ⟨lv, ht⟩ := (reach_eptInv hr).pool.tree
  have hkk := ht.depth_eq hk hk' hw hw'
  subst hkk
  exact ⟨rfl, ht.sameBlock_of_walkEntry hk hw hw'⟩

set_option maxRecDepth 100000 in
theorem reach_walkEntry_tree_faulted : 2 = 2 ∧ SameBlock (3 - 2) 0x5000 0x100000 :=
  reach_walkEntry_tree reach_faultedEpt (a := 0x3000) (by decide) (by decide) (by decide) (by decide)

/-- `cur_move (ept, g)`, which reuses the entries the cursor holds from the
previous walk, leaves the cursor as a walk from the root would: its entries
from its level up are the walk's, and the walk goes no further (level 0, or
an entry that is absent or maps a large page). -/
theorem reach_curMove_walk (hr : Reach env allocPage s) (g : UInt64) :
    (s.curMove g).ept.cur.level ≤ 3 ∧
      (∀ l, (s.curMove g).ept.cur.level ≤ l → l ≤ 3 →
        walkEntry (wordsOf s.mem) s.ept.ncr3tbl g (3 - l) = some ((s.curMove g).ept.cur.entry l)) ∧
      ((s.curMove g).ept.cur.level = 0 ∨
        Stops (wordsOf s.mem ((s.curMove g).ept.cur.entry (s.curMove g).ept.cur.level))) := by
  have hm := moved_curMove (reach_eptInv hr) g
  obtain ⟨hL, hwalk⟩ := hm.cursor
  rw [hm.gphys, curMove_mem_eq, curMove_ncr3tbl_eq] at hwalk
  have hbot := hm.bot
  rw [curMove_mem_eq] at hbot
  exact ⟨hL, hwalk, hbot⟩

theorem reach_curMove_walk_faulted :
    (faultedEpt.curMove 0x7000).ept.cur.level ≤ 3 ∧
      (∀ l, (faultedEpt.curMove 0x7000).ept.cur.level ≤ l → l ≤ 3 →
        walkEntry (wordsOf faultedEpt.mem) faultedEpt.ept.ncr3tbl 0x7000 (3 - l) =
          some ((faultedEpt.curMove 0x7000).ept.cur.entry l)) ∧
      ((faultedEpt.curMove 0x7000).ept.cur.level = 0 ∨
        Stops (wordsOf faultedEpt.mem ((faultedEpt.curMove 0x7000).ept.cur.entry
          (faultedEpt.curMove 0x7000).ept.cur.level))) :=
  reach_curMove_walk reach_faultedEpt 0x7000

/-- No stale entry survives: every entry a walk ends on is a 4 KiB, 2 MiB or
1 GiB page (never a root entry), and the one `vt_ept_map_page`,
`vt_ept_map_2mpage` or `vt_ept_map_1gpage` computes for an address of the
block at that level, although tables are recycled and the root is cleared
only up to its recorded end. -/
theorem reach_leaf_leafEntry (hr : Reach env allocPage s) {g e : UInt64} {l : Nat}
    (hl : Leaf (wordsOf s.mem) s.ept.ncr3tbl g l e) : l ≤ 2 ∧ ∃ g', SameBlock l g g' ∧ e = leafEntry env g' l :=
  (reach_eptInv hr).sound hl

set_option maxRecDepth 100000 in
theorem reach_leaf_leafEntry_faulted :
    1 ≤ 2 ∧ ∃ g', SameBlock 1 0x5000 g' ∧ leafEntry shiftGmm 0x5000 1 = leafEntry shiftGmm g' 1 :=
  reach_leaf_leafEntry reach_faultedEpt ⟨by decide, 0x3000, by decide, by decide, by decide, by decide⟩

/-- A violation that is not an MMIO access maps its address: afterwards the
walk of `g` ends, at a level of at most 2, on the entry the map function of
that level computes for `g`. -/
theorem reach_violation_mapped (hr : Reach env allocPage s) {reg : X86Mmio.Registry} {write : Bool}
    {g : UInt64} {s' : VtEptState} (hv : vtEptViolation env allocPage reg s write g = some (false, s')) :
    ∃ l ≤ 2, Leaf (wordsOf s'.mem) s'.ept.ncr3tbl g l (leafEntry env g l) :=
  (vtEptViolation_spec (reach_eptInv hr) hv).2 rfl

theorem reach_violation_mapped_newEpt :
    ∃ l ≤ 2, Leaf (wordsOf faultedEpt.mem) faultedEpt.ept.ncr3tbl 0x5000 l (leafEntry shiftGmm 0x5000 l) :=
  reach_violation_mapped reach_newEpt vtEptViolation_newEpt

/-- `vt_ept_shadow_invalidate (ept, g)` unmaps exactly one block: an address
keeps what its walk ends on unless it shares `g`'s entries down to that
level, and nothing new is mapped. -/
theorem reach_shadowInvalidate_leaf (hr : Reach env allocPage s) (g g' e : UInt64) (l : Nat) :
    Leaf (wordsOf (vtEptShadowInvalidate s g).mem) s.ept.ncr3tbl g' l e ↔
      Leaf (wordsOf s.mem) s.ept.ncr3tbl g' l e ∧ ¬SameBlock l g g' := by
  have h := reach_eptInv hr
  have hm := moved_curMove h g
  have hno : ∀ {l : Nat} {e : UInt64}, ¬Leaf (wordsOf (vtEptShadowInvalidate s g).mem) s.ept.ncr3tbl g l e := by
    intro l e hl
    rw [← vtEptShadowInvalidate_ncr3tbl g] at hl
    exact (vtEptShadowInvalidate_spec h g).2 hl
  have hroot := curMove_ncr3tbl_eq (s := s) g
  obtain ⟨lv, ht⟩ := hm.inv.pool.tree
  obtain ⟨hL, hwalk⟩ := hm.cursor
  have hp := hwalk _ le_rfl hL
  rw [hm.gphys] at hp
  have hzero : (s.curMove g).ept.cur.level = 0 ∨ Stops (0 : UInt64) := .inr (.inl (by decide))
  constructor
  · intro hl
    refine ⟨?_, fun hsb => hno (hl.of_sameBlock hsb)⟩
    unfold vtEptShadowInvalidate at hl
    dsimp only at hl
    split_ifs at hl
    · rw [← hroot] at hl
      rcases leaf_store_stop ht hL hp hm.bot hzero hl with hold | ⟨-, -, rfl⟩
      · rwa [curMove_mem_eq, hroot] at hold
      · exact absurd hl.2 (fun ⟨_, _, _, hpres, _⟩ => hpres (by decide))
    · rwa [curMove_mem_eq] at hl
  · rintro ⟨hl, hsb⟩
    unfold vtEptShadowInvalidate
    dsimp only
    split_ifs
    · rw [← hroot]
      rw [← curMove_mem_eq g, ← hroot] at hl
      exact leaf_store_keep ht hL hp hm.bot hzero hl fun ⟨hlev, hs⟩ => hsb (hlev ▸ hs)
    · rwa [curMove_mem_eq]

theorem reach_shadowInvalidate_leaf_faulted :
    Leaf (wordsOf (vtEptShadowInvalidate faultedEpt 0x5000).mem) faultedEpt.ept.ncr3tbl 0x100000 1
        (leafEntry shiftGmm 0x5000 1) ↔
      Leaf (wordsOf faultedEpt.mem) faultedEpt.ept.ncr3tbl 0x100000 1 (leafEntry shiftGmm 0x5000 1) ∧
        ¬SameBlock 1 0x5000 0x100000 :=
  reach_shadowInvalidate_leaf reach_faultedEpt 0x5000 0x100000 _ 1

/-- `vt_ept_extern_mapsearch (p, start, end)`, over a range that misses the
table pages, leaves nothing mapped that meets the range when it reports
nothing: its test fails on every entry a walk ends on afterwards. On the
current vcpu it zeroes each entry it hits; on another vcpu it reports the
first one instead. -/
theorem reach_mapsearch_miss (hr : Reach env allocPage s) {mask start endAddr : UInt64} {isCurrent : Bool}
    (hmiss : MissesTables mask start endAddr allocPage s.cnt)
    (hres : (vtEptExternMapsearch mask start endAddr isCurrent s).1 = false) {g e : UInt64} {l : Nat}
    (hl : Leaf (wordsOf (vtEptExternMapsearch mask start endAddr isCurrent s).2.mem) s.ept.ncr3tbl g l e) :
    mapsearchHit mask start endAddr e = false := by
  have h := reach_eptInv hr
  have h' : EptInv env allocPage (vtEptExternMapsearch mask start endAddr isCurrent s).2 :=
    vtEptExternMapsearch_inv h hmiss
  obtain ⟨m, hm⟩ := mapsearchTables_mem_only mask start endAddr isCurrent (List.range s.cnt) s
  have hscan := (mapsearchTables_miss (List.range s.cnt) s h.pool.slot_aligned hres).2
  unfold vtEptExternMapsearch at h' hl
  rw [hm] at h' hl hscan
  obtain ⟨hl2, g', -, he⟩ := h'.sound hl
  obtain ⟨-, a, hwalk, hWa, -, -⟩ := hl
  obtain ⟨lv, ht⟩ := h'.pool.tree
  obtain ⟨ha, hloc⟩ := ht.entry_loc (show l ≤ 3 by omega) hwalk
  obtain ⟨-, i, hi, -, hin⟩ := hloc.resolve_left fun ⟨h3, _⟩ => by omega
  obtain ⟨j, hj, rfl⟩ := eq_entry_of_inPage (h.pool.pages.aligned i) ha hin
  have hmissed := hscan i (List.mem_range.mpr hi) j hj
  rw [h.pool.attached i hi, Option.getD_some] at hmissed
  rcases hmissed with hrd | hhit
  · rw [hWa, he] at hrd
    exact absurd hrd (leafEntry_read env g' l)
  · rwa [hWa] at hhit

set_option maxRecDepth 100000 in
theorem reach_mapsearch_miss_twoLeaf :
    Leaf (wordsOf twoLeafEpt.mem) twoLeafEpt.ept.ncr3tbl 0x5000 1 (leafEntry shiftGmm 0x5000 1) ∧
      ¬Leaf (wordsOf (vtEptExternMapsearch 0x000FFFFFFFFFF000 0x100000 0x100FFF true twoLeafEpt).2.mem)
        twoLeafEpt.ept.ncr3tbl 0x5000 1 (leafEntry shiftGmm 0x5000 1) ∧
      Leaf (wordsOf (vtEptExternMapsearch 0x000FFFFFFFFFF000 0x100000 0x100FFF true twoLeafEpt).2.mem)
        twoLeafEpt.ept.ncr3tbl 0x200000 1 (leafEntry shiftGmm 0x200000 1) ∧
      mapsearchHit 0x000FFFFFFFFFF000 0x100000 0x100FFF (leafEntry shiftGmm 0x200000 1) = false := by
  have hmiss : MissesTables 0x000FFFFFFFFFF000 0x100000 0x100FFF spacedPages twoLeafEpt.cnt := by
    unfold MissesTables
    decide
  have hres : (vtEptExternMapsearch 0x000FFFFFFFFFF000 0x100000 0x100FFF true twoLeafEpt).1 = false :=
    vtEptExternMapsearch_current twoLeafEpt
  have hkept : Leaf (wordsOf (vtEptExternMapsearch 0x000FFFFFFFFFF000 0x100000 0x100FFF true twoLeafEpt).2.mem)
      twoLeafEpt.ept.ncr3tbl 0x200000 1 (leafEntry shiftGmm 0x200000 1) :=
    leaf_vtEptExternMapsearch (reach_eptInv reach_twoLeafEpt) hmiss
      ⟨by decide, 0x3008, by decide, by decide, by decide, by decide⟩ (by decide)
  refine ⟨⟨by decide, 0x3000, by decide, by decide, by decide, by decide⟩, fun h => ?_, hkept,
    reach_mapsearch_miss reach_twoLeafEpt hmiss hres hkept⟩
  exact absurd (reach_mapsearch_miss reach_twoLeafEpt hmiss hres h) (by decide)

/-- `clear_ncr3tbl`, which zeroes the root only up to the end its storage
word records, clears exactly the root page, as a `memset` of the whole page
would. -/
theorem reach_clearNcr3tbl_mem (hr : Reach env allocPage s) (y : Nat) :
    s.clearNcr3tbl.mem y =
      if s.ept.ncr3tbl.toNat ≤ y ∧ y < s.ept.ncr3tbl.toNat + 4096 then 0 else s.mem y := by
  have hp := (reach_eptInv hr).pool
  exact clearNcr3tbl_mem s hp.pages.root_aligned hp.rootUsed y

theorem reach_clearNcr3tbl_mem_faulted :
    faultedEpt.clearNcr3tbl.mem 4096 =
      if faultedEpt.ept.ncr3tbl.toNat ≤ 4096 ∧ 4096 < faultedEpt.ept.ncr3tbl.toNat + 4096 then 0
      else faultedEpt.mem 4096 :=
  reach_clearNcr3tbl_mem reach_faultedEpt 4096

/-- `clear_ept_based_on_bitmap` on an allocated table, which zeroes only the
128-byte chunks its bitmap marks, clears exactly the table's page, as a
`memset` of the whole page would. -/
theorem reach_clearEptBasedOnBitmap_mem (hr : Reach env allocPage s) {i : Nat} (hi : s.tbl i ≠ none)
    (y : Nat) :
    (s.clearEptBasedOnBitmap (allocPage i)).mem y =
      if pageNum (allocPage i) * 4096 ≤ y ∧ y < pageNum (allocPage i) * 4096 + 4096 then 0 else s.mem y :=
  clearEptBasedOnBitmap_mem s ((reach_eptInv hr).pool.marked i hi) y

set_option maxRecDepth 100000 in
theorem reach_clearEptBasedOnBitmap_mem_faulted :
    (faultedEpt.clearEptBasedOnBitmap (spacedPages 1)).mem 0x3000 =
      if pageNum (spacedPages 1) * 4096 ≤ 0x3000 ∧ 0x3000 < pageNum (spacedPages 1) * 4096 + 4096 then 0
      else faultedEpt.mem 0x3000 :=
  reach_clearEptBasedOnBitmap_mem reach_faultedEpt (by decide) 0x3000

end Reachable

end Bitvisor.Ept
