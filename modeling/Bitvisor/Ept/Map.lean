import Bitvisor.Ept.Fill

namespace Bitvisor.Ept

/-! What `cur_fill` and the map functions do to the tables. A reset
(`clear_ncr3tbl` with the pool emptied) leaves an empty root, since the
root's storage word covers every byte written there. `cur_fill` as a whole
leaves the walk of its address at the target level, on a zero entry or one
that ends the walk, with its chunk marked; the map functions then store a
leaf there, which changes no walk and adds the one entry for the block of
the address. -/

section Reset

variable {allocPage : Nat → UInt64} {s : VtEptState}

@[simp] theorem setCurLevel_mem_eq (L : Nat) : (s.setCurLevel L).mem = s.mem := rfl

@[simp] theorem setCurLevel_storage_eq (L : Nat) : (s.setCurLevel L).storage = s.storage := rfl

@[simp] theorem setCurLevel_tbl_eq (L : Nat) : (s.setCurLevel L).tbl = s.tbl := rfl

@[simp] theorem clearNcr3tbl_ept : s.clearNcr3tbl.ept = s.ept := by
  unfold VtEptState.clearNcr3tbl
  dsimp only
  split_ifs <;> rfl

@[simp] theorem clearNcr3tbl_tbl : s.clearNcr3tbl.tbl = s.tbl := by
  unfold VtEptState.clearNcr3tbl
  dsimp only
  split_ifs <;> rfl

@[simp] theorem clearNcr3tbl_cnt : s.clearNcr3tbl.cnt = s.cnt := by
  unfold VtEptState.clearNcr3tbl
  dsimp only
  split_ifs <;> rfl

@[simp] theorem clearNcr3tbl_avlPagesizesLen : s.clearNcr3tbl.avlPagesizesLen = s.avlPagesizesLen := by
  unfold VtEptState.clearNcr3tbl
  dsimp only
  split_ifs <;> rfl

theorem clearNcr3tbl_storage :
    s.clearNcr3tbl.storage = Function.update s.storage (pageNum s.ept.ncr3tbl) 0 := by
  unfold VtEptState.clearNcr3tbl
  dsimp only
  split_ifs <;> rfl

theorem wordsOf_clearNcr3tbl_root (hinv : PoolInv allocPage s) {a : UInt64} (ha : a.toNat % 8 = 0)
    (hin : InPage s.ept.ncr3tbl a) : wordsOf s.clearNcr3tbl.mem a = 0 := by
  have hR := pageNum_mul hinv.pages.root_aligned
  apply wordsOf_of_zero
  intro i hi
  rw [clearNcr3tbl_mem s hinv.pages.root_aligned hinv.rootUsed, if_pos]
  unfold InPage pageNum at hin
  unfold pageNum at hR
  omega

theorem not_leaf_of_root_zero {W : Words} {root g e : UInt64} {l : Nat}
    (hz : W (root + 8 * eptIndex g 3) = 0) : ¬Leaf W root g l e := by
  rintro ⟨hl, a, hwalk, he, hpres, -⟩
  by_cases h0 : 3 - l = 0
  · rw [h0, walkEntry, Option.some.injEq] at hwalk
    subst hwalk
    exact hpres (by rw [← he, hz]; decide)
  · have h1 := PtrWalk.walk_isSome_of_le (k := 3 - l) (show 1 ≤ 3 - l by omega)
      (by rw [← walkEntry_eq_walk, hwalk]; rfl)
    obtain ⟨b, hb⟩ := Option.isSome_iff_exists.mp h1
    rw [← walkEntry_eq_walk, walkEntry_succ_eq_some] at hb
    obtain ⟨c, hc, hgo, -⟩ := hb
    rw [walkEntry, Option.some.injEq] at hc
    subst hc
    exact hgo (.inl (by rw [hz]; decide))

theorem tableTree_empty {W : Words} {root : UInt64} {pg : Nat → UInt64} (hr : root.toNat % 4096 = 0)
    (hzero : ∀ a, InPage root a → a.toNat % 8 = 0 → W a = 0) (lv : Nat → Nat) : TableTree W root 0 pg lv := by
  have hstop : ∀ a, InPage root a → a.toNat % 8 = 0 → Stops (W a) := by
    intro a hin ha
    rw [hzero a hin ha]
    exact .inl (by decide)
  refine ⟨hr, fun i hi => absurd hi (Nat.not_lt_zero _),
    fun i hi => absurd hi (Nat.not_lt_zero _), fun i hi => absurd hi (Nat.not_lt_zero _),
    fun i hi => absurd hi (Nat.not_lt_zero _), ?_, fun i hi => absurd hi (Nat.not_lt_zero _), ?_⟩
  · intro a hin ha hgo
    exact absurd (hstop a hin ha) hgo
  · rintro a a' ⟨ha, hroot | ⟨i, hi, -⟩⟩ - hgo
    · exact absurd (hstop a hroot ha) hgo
    · exact absurd hi (Nat.not_lt_zero _)

theorem tableTree_reset (hinv : PoolInv allocPage s) (lv : Nat → Nat) :
    TableTree (wordsOf s.clearNcr3tbl.mem) s.ept.ncr3tbl 0 allocPage lv :=
  tableTree_empty hinv.pages.root_aligned (fun _ hin ha => wordsOf_clearNcr3tbl_root hinv ha hin) lv

theorem poolInv_reset (hinv : PoolInv allocPage s) (L : Nat) :
    PoolInv allocPage ({ s.clearNcr3tbl with cnt := 0 }.setCurLevel L) := by
  have hRp := hinv.pages.ne_root
  have hR := pageNum_mul hinv.pages.root_aligned
  refine ⟨by simpa using hinv.pages, by simp [maxnumOfEptbl], by simpa using hinv.tbl,
    fun i hi => absurd hi (by simp), ⟨fun _ => 0, by simpa using tableTree_reset hinv (fun _ => 0)⟩, ?_, ?_,
    by simpa using hinv.slots⟩
  · intro i hi
    simp only [setCurLevel_tbl_eq, clearNcr3tbl_tbl] at hi
    apply (hinv.marked i hi).mono
    · intro j hj _
      simp only [VtEptState.page, setCurLevel_mem_eq]
      rw [clearNcr3tbl_mem s hinv.pages.root_aligned hinv.rootUsed, if_neg]
      have := hRp i
      unfold pageNum at this hR ⊢
      omega
    · intro k hk
      simpa [VtEptState.page, clearNcr3tbl_storage, Function.update_of_ne (hRp i)] using hk
  · refine ⟨by simp [VtEptState.page, clearNcr3tbl_storage], fun j hj hne => absurd ?_ hne⟩
    simp only [VtEptState.page, setCurLevel_mem_eq, VtEptState.setCurLevel_ept_ncr3tbl, clearNcr3tbl_ept]
    rw [clearNcr3tbl_mem s hinv.pages.root_aligned hinv.rootUsed, if_pos]
    unfold pageNum at hR ⊢
    omega

theorem not_leaf_reset (hinv : PoolInv allocPage s) (L : Nat) {g e : UInt64} {l : Nat} :
    ¬Leaf (wordsOf ({ s.clearNcr3tbl with cnt := 0 }.setCurLevel L).mem) s.ept.ncr3tbl g l e := by
  have hr := hinv.pages.root_aligned
  have hi := eptIndex_toNat_lt g 3
  apply not_leaf_of_root_zero
  apply wordsOf_clearNcr3tbl_root hinv
  · rw [toNat_add_entry hr hi]
    omega
  · rw [InPage, pageNum, pageNum, toNat_add_entry hr hi]
    omega

end Reset

def fillFrom (allocPage : Nat → UInt64) (g : UInt64) (level : Nat) (s : VtEptState) : VtEptState × UInt64 :=
  let l := s.ept.cur.level
  let r := curFillLoop allocPage g level l s (s.ept.cur.entry l) l
  (markEntry r.1 r.2 level, r.2)

theorem curFill_eq (allocPage : Nat → UInt64) (s : VtEptState) (g : UInt64) (level : Nat) :
    curFill allocPage s g level =
      fillFrom allocPage g level
        (if (s.cnt : Int) + (s.ept.cur.level : Int) - (level : Int) > (maxnumOfEptbl : Int) then
          { s.clearNcr3tbl with cnt := 0 }.setCurLevel 3
        else s) := rfl

theorem curFillLoop_avlPagesizesLen (allocPage : Nat → UInt64) (g : UInt64) (level fuel : Nat) :
    ∀ (s : VtEptState) (p : UInt64) (l : Nat),
      (curFillLoop allocPage g level fuel s p l).1.avlPagesizesLen = s.avlPagesizesLen := by
  induction fuel with
  | zero => intro s p l; rfl
  | succ fuel ih =>
    intro s p l
    rw [curFillLoop_succ]
    split_ifs
    · rw [ih, fillRound_avlPagesizesLen]
    · rfl

@[simp] theorem curFill_avlPagesizesLen (allocPage : Nat → UInt64) (s : VtEptState) (g : UInt64) (level : Nat) :
    (curFill allocPage s g level).1.avlPagesizesLen = s.avlPagesizesLen := by
  rw [curFill_eq]
  simp only [fillFrom, markEntry_avlPagesizesLen, curFillLoop_avlPagesizesLen]
  split_ifs <;> simp

structure FillPost (allocPage : Nat → UInt64) (g : UInt64) (level : Nat) (s : VtEptState)
    (r : VtEptState × UInt64) : Prop where
  inv : PoolInv allocPage r.1
  root : r.1.ept.ncr3tbl = s.ept.ncr3tbl
  gphys : r.1.ept.cur.gphys = s.ept.cur.gphys
  cursor : CursorOk (wordsOf r.1.mem) s.ept.ncr3tbl r.1.ept.cur
  avl : r.1.avlPagesizesLen = s.avlPagesizesLen
  walk : walkEntry (wordsOf r.1.mem) s.ept.ncr3tbl g (3 - level) = some r.2
  stop : level = 0 ∨ Stops (wordsOf r.1.mem r.2)
  chunk : (r.1.storage (pageNum r.2)).toNat.testBit (r.2.toNat % 4096 / 128) = true
  leaf : ∀ {g' e : UInt64} {l' : Nat},
    Leaf (wordsOf r.1.mem) s.ept.ncr3tbl g' l' e → Leaf (wordsOf s.mem) s.ept.ncr3tbl g' l' e

section Fill

variable {allocPage : Nat → UInt64} {g : UInt64} {level : Nat}

theorem poolInv_markEntry {s : VtEptState} (hinv : PoolInv allocPage s) {p : UInt64} {l : Nat} (hl : l < 3)
    (hp : pageNum s.ept.ncr3tbl ≠ pageNum p) : PoolInv allocPage (markEntry s p l) := by
  refine ⟨by simpa using hinv.pages, by simpa using hinv.cnt_le, by simpa using hinv.tbl,
    by simpa using hinv.attached, by simpa using hinv.tree, ?_, ?_, by simpa using hinv.slots⟩
  · intro i hi
    rw [markEntry_tbl] at hi
    exact (hinv.marked i hi).mark (.inl hl)
  · apply hinv.rootUsed.of_page (by simp) (fun j _ => by simp)
    exact markEntry_storage_of_ne s p l hp

theorem fillFrom_spec {s s0 : VtEptState} (hinv : PoolInv allocPage s0) (hR : s0.ept.ncr3tbl = s.ept.ncr3tbl)
    (hg0 : s0.ept.cur.gphys = s.ept.cur.gphys) (hok : CursorOk (wordsOf s0.mem) s.ept.ncr3tbl s0.ept.cur)
    (hg : s0.ept.cur.gphys = g) (hlev : level ≤ s0.ept.cur.level) (hl2 : level < 3)
    (hcnt : s0.cnt + (s0.ept.cur.level - level) ≤ maxnumOfEptbl)
    (hstop : s0.ept.cur.level = level → level = 0 ∨ Stops (wordsOf s0.mem (s0.ept.cur.entry level)))
    (hleaf : ∀ {g' e : UInt64} {l' : Nat},
      Leaf (wordsOf s0.mem) s.ept.ncr3tbl g' l' e → Leaf (wordsOf s.mem) s.ept.ncr3tbl g' l' e)
    (havl : s0.avlPagesizesLen = s.avlPagesizesLen) :
    FillPost allocPage g level s (fillFrom allocPage g level s0) := by
  have hL3 := hok.1
  have hp0 : walkEntry (wordsOf s0.mem) s0.ept.ncr3tbl g (3 - s0.ept.cur.level) =
      some (s0.ept.cur.entry s0.ept.cur.level) := by
    rw [hR, ← hg]
    exact hok.2 _ le_rfl hL3
  have hloop : LoopPost allocPage g level s0 s0.ept.cur.level
      (curFillLoop allocPage g level s0.ept.cur.level s0 (s0.ept.cur.entry s0.ept.cur.level) s0.ept.cur.level) :=
    curFillLoop_spec s0.ept.cur.level s0 (s0.ept.cur.entry s0.ept.cur.level) s0.ept.cur.level hinv hlev hL3
      (Nat.sub_le _ _) hcnt hp0
  unfold fillFrom
  dsimp only
  generalize hrdef : curFillLoop allocPage g level s0.ept.cur.level s0 (s0.ept.cur.entry s0.ept.cur.level)
    s0.ept.cur.level = r at hloop
  obtain ⟨hinv', hept, havl', -, hwalk, hupper, hleaf', hfresh⟩ := hloop
  rw [hR] at hwalk hupper hleaf'
  have hpg : PagesOk s.ept.ncr3tbl allocPage := by
    rw [← hR, ← hept]
    exact hinv'.pages
  obtain ⟨lv, ht⟩ := hinv'.tree
  rw [hept, hR] at ht
  obtain ⟨-, hloc⟩ := ht.entry_loc (by omega) hwalk
  have hpR : pageNum s.ept.ncr3tbl ≠ pageNum r.2 := by
    rcases hloc with ⟨h3, -⟩ | ⟨-, i, -, -, hin⟩
    · omega
    · exact fun h => hpg.ne_root i (hin.symm.trans h.symm)
  refine ⟨poolInv_markEntry hinv' hl2 (by rwa [hept, hR]), by simp [hept, hR], by simp [hept, hg0], ?_,
    by simp [havl', havl], by simpa using hwalk, ?_, ?_, ?_⟩
  · simp only [markEntry_mem, markEntry_ept, hept]
    refine ⟨hL3, fun l hl hl3 => ?_⟩
    rw [hupper _ _ (by omega)]
    exact hok.2 l hl hl3
  · simp only [markEntry_mem]
    by_cases hlt : level < s0.ept.cur.level
    · exact .inr (.inl (by rw [hfresh hlt]; decide))
    · rw [← hrdef, curFillLoop_of_not_lt allocPage g _ s0 _ hlt]
      rw [show s0.ept.cur.level = level by omega] at hstop ⊢
      exact hstop rfl
  · rw [testBit_markEntry _ _ _ hl2]
    simp
  · intro g' e l' h
    exact hleaf (hleaf' (by simpa using h))

/-- `cur_fill (ept, g, level)` after `cur_move (ept, g)`: from a cursor on
the walk of `g`, at `level` or above, that stops there when at `level`.
When the pool has no room, the reset empties the root and the loop starts
from the root entry, which the cursor holds at any memory. -/
theorem curFill_spec {s : VtEptState} (hinv : PoolInv allocPage s) (hg : s.ept.cur.gphys = g)
    (hok : CursorOk (wordsOf s.mem) s.ept.ncr3tbl s.ept.cur) (hlev : level ≤ s.ept.cur.level) (hl2 : level < 3)
    (hstop : s.ept.cur.level = level → level = 0 ∨ Stops (wordsOf s.mem (s.ept.cur.entry level))) :
    FillPost allocPage g level s (curFill allocPage s g level) := by
  rw [curFill_eq]
  split_ifs with hfull
  · have hL3 := hok.1
    refine fillFrom_spec (poolInv_reset hinv 3) (by simp) (by simp) ⟨le_rfl, fun l hl hl3 => ?_⟩
      (by simpa using hg) (by simp; omega) hl2 (by simp [maxnumOfEptbl]; omega)
      (fun h => absurd (by simpa using h : 3 = level) (by omega))
      (fun h => absurd h (not_leaf_reset hinv 3)) (by simp)
    simp only [VtEptState.setCurLevel_ept_cur_level] at hl
    obtain rfl : l = 3 := by omega
    have h := hok.2 3 hL3 le_rfl
    simp only [VtEptState.setCurLevel_ept_cur_gphys, VtEptState.setCurLevel_ept_cur_entry, Nat.sub_self,
      walkEntry, clearNcr3tbl_ept] at h ⊢
    exact h
  · have hcnt : s.cnt + (s.ept.cur.level - level) ≤ maxnumOfEptbl := by
      unfold maxnumOfEptbl at hfull ⊢
      omega
    exact fillFrom_spec hinv rfl rfl hok hg hlev hl2 hcnt hstop id rfl

end Fill

section Store

variable {allocPage : Nat → UInt64} {s : VtEptState} {lv : Nat → Nat} {g p v : UInt64} {level : Nat}

theorem walkEntry_store_stop (ht : TableTree (wordsOf s.mem) s.ept.ncr3tbl s.cnt allocPage lv)
    (hl3 : level ≤ 3) (hp : walkEntry (wordsOf s.mem) s.ept.ncr3tbl g (3 - level) = some p)
    (hold : level = 0 ∨ Stops (wordsOf s.mem p)) (hv : level = 0 ∨ Stops v) (g' : UInt64) {k : Nat} (hk : k ≤ 3) :
    walkEntry (wordsOf (s.store p v).mem) s.ept.ncr3tbl g' k = walkEntry (wordsOf s.mem) s.ept.ncr3tbl g' k := by
  have hpa := (ht.entry_loc hl3 hp).1
  rw [walkEntry_eq_walk, walkEntry_eq_walk]
  apply PtrWalk.walk_congr_next
  intro m hm a ha
  rw [← walkEntry_eq_walk] at ha
  have haa := (ht.walkEntry_mem (by omega) ha).1
  by_cases hap : a = p
  · subst a
    have hd := ht.depth_eq (show m ≤ 3 by omega) (show 3 - level ≤ 3 by omega) ha hp
    have hl0 : level ≠ 0 := by omega
    rw [wordsOf_store s v hpa hpa, if_pos rfl, eptNext_eq_none (hv.resolve_left hl0),
      eptNext_eq_none (hold.resolve_left hl0)]
  · rw [wordsOf_store s v hpa haa, if_neg hap]

theorem leaf_store_stop (ht : TableTree (wordsOf s.mem) s.ept.ncr3tbl s.cnt allocPage lv)
    (hl3 : level ≤ 3) (hp : walkEntry (wordsOf s.mem) s.ept.ncr3tbl g (3 - level) = some p)
    (hold : level = 0 ∨ Stops (wordsOf s.mem p)) (hv : level = 0 ∨ Stops v) {g' e : UInt64} {l' : Nat}
    (h : Leaf (wordsOf (s.store p v).mem) s.ept.ncr3tbl g' l' e) :
    Leaf (wordsOf s.mem) s.ept.ncr3tbl g' l' e ∨ (l' = level ∧ SameBlock level g g' ∧ e = v) := by
  have hpa := (ht.entry_loc hl3 hp).1
  obtain ⟨hl', a, hwalk, he, hpres, hlarge⟩ := h
  rw [walkEntry_store_stop ht hl3 hp hold hv g' (by omega)] at hwalk
  have haa := (ht.walkEntry_mem (by omega) hwalk).1
  by_cases hap : a = p
  · subst a
    obtain ⟨hd, hsb⟩ := ht.end_eq hl3 hp hl' hwalk
    rw [wordsOf_store s v hpa hpa, if_pos rfl] at he
    exact .inr ⟨hd, hsb, he.symm⟩
  · rw [wordsOf_store s v hpa haa, if_neg hap] at he
    exact .inl ⟨hl', a, hwalk, he, hpres, hlarge⟩

theorem leaf_store_keep (ht : TableTree (wordsOf s.mem) s.ept.ncr3tbl s.cnt allocPage lv)
    (hl3 : level ≤ 3) (hp : walkEntry (wordsOf s.mem) s.ept.ncr3tbl g (3 - level) = some p)
    (hold : level = 0 ∨ Stops (wordsOf s.mem p)) (hv : level = 0 ∨ Stops v) {g' e : UInt64} {l' : Nat}
    (h : Leaf (wordsOf s.mem) s.ept.ncr3tbl g' l' e) (hne : ¬(l' = level ∧ SameBlock level g g')) :
    Leaf (wordsOf (s.store p v).mem) s.ept.ncr3tbl g' l' e := by
  have hpa := (ht.entry_loc hl3 hp).1
  obtain ⟨hl', a, hwalk, he, hpres, hlarge⟩ := h
  have haa := (ht.walkEntry_mem (by omega) hwalk).1
  have hap : a ≠ p := by
    rintro rfl
    exact hne (ht.end_eq hl3 hp hl' hwalk)
  refine ⟨hl', a, ?_, ?_, hpres, hlarge⟩
  · rw [walkEntry_store_stop ht hl3 hp hold hv g' (by omega)]
    exact hwalk
  · rw [wordsOf_store s v hpa haa, if_neg hap, he]

theorem leaf_store_self (ht : TableTree (wordsOf s.mem) s.ept.ncr3tbl s.cnt allocPage lv)
    (hl3 : level ≤ 3) (hp : walkEntry (wordsOf s.mem) s.ept.ncr3tbl g (3 - level) = some p)
    (hold : level = 0 ∨ Stops (wordsOf s.mem p)) (hpres : v &&& eptePresentMask ≠ 0)
    (hlarge : level = 0 ∨ v &&& epteLarge ≠ 0) :
    Leaf (wordsOf (s.store p v).mem) s.ept.ncr3tbl g level v := by
  have hpa := (ht.entry_loc hl3 hp).1
  refine ⟨hl3, p, ?_, by rw [wordsOf_store s v hpa hpa, if_pos rfl], hpres, hlarge⟩
  rw [walkEntry_store_stop ht hl3 hp hold (hlarge.imp_right Or.inr) g (show 3 - level ≤ 3 by omega)]
  exact hp

theorem poolInv_store_stop (hinv : PoolInv allocPage s)
    (ht : TableTree (wordsOf s.mem) s.ept.ncr3tbl s.cnt allocPage lv) (hl2 : level < 3)
    (hp : walkEntry (wordsOf s.mem) s.ept.ncr3tbl g (3 - level) = some p) (hv : level = 0 ∨ Stops v)
    (hchunk : (s.storage (pageNum p)).toNat.testBit (p.toNat % 4096 / 128) = true) :
    PoolInv allocPage (s.store p v) := by
  obtain ⟨hpa, hloc⟩ := ht.entry_loc (by omega) hp
  obtain ⟨i, hi, hlvi, hin⟩ : ∃ i < s.cnt, lv i = level ∧ InPage (allocPage i) p := by
    rcases hloc with ⟨h3, -⟩ | ⟨-, hloc⟩
    · omega
    · exact hloc
  have hpg := hinv.pages
  refine ⟨by simpa using hpg, hinv.cnt_le, hinv.tbl, hinv.attached, ⟨lv, ht.of_kept ?_⟩, ?_, ?_, hinv.slots⟩
  · intro a hu hgo
    by_cases hap : a = p
    · subst a
      exfalso
      rcases hv with h0 | hstop
      · rcases hu with ⟨-, hroot | ⟨j, hj, hpos, hinj⟩⟩
        · exact hpg.ne_root i (hin.symm.trans hroot)
        · rw [ht.pg_inj j hj i hi (hinj.symm.trans hin)] at hpos
          omega
      · rw [wordsOf_store s v hpa hpa, if_pos rfl] at hgo
        exact hgo hstop
    · rw [wordsOf_store s v hpa hu.1, if_neg hap]
  · intro j hj
    by_cases hinj : InPage (allocPage j) p
    · apply (hinv.marked j hj).store v hpa hinj
      rwa [show pageNum (allocPage j) = pageNum p from hinj.symm]
    · exact (hinv.marked j hj).store_other v hpa hinj
  · have hR := pageNum_mul hpg.root_aligned
    have hne := hpg.ne_root i
    refine hinv.rootUsed.of_page (show (s.store p v).ept.ncr3tbl = s.ept.ncr3tbl from rfl) (fun j hj => ?_) rfl
    apply store_mem_of_not_mem
    unfold InPage pageNum at hin
    unfold pageNum at hR hne ⊢
    omega

end Store

theorem and_ne_zero_of_testBit {e m : UInt64} {i : Nat} (hm : m.toNat.testBit i = true)
    (h : e.toNat.testBit i = true) : e &&& m ≠ 0 := by
  intro h0
  have h' := congrArg (fun x : UInt64 => x.toNat.testBit i) h0
  simp only [testBit_and64, h, hm, Bool.true_and] at h'
  exact absurd h' (by simp)

theorem present_of_testBit {e : UInt64} (h : e.toNat.testBit 0 = true) : e &&& eptePresentMask ≠ 0 :=
  and_ne_zero_of_testBit (by decide) h

theorem large_of_testBit {e : UInt64} (h : e.toNat.testBit 7 = true) : e &&& epteLarge ≠ 0 :=
  and_ne_zero_of_testBit (by decide) h

theorem leafEntry_testBit_zero (env : Gmm) (g : UInt64) (l : Nat) : (leafEntry env g l).toNat.testBit 0 = true := by
  rcases l with _ | _ | l
  · simp only [leafEntry, mapPageEntry]
    split_ifs
    · simp [epteReadexec, epteWrite]
    · simp [epteReadexec]
  · simp [leafEntry, map2mpageEntry, epteReadexec]
  · simp [leafEntry, map1gpageEntry, epteReadexec]

theorem leafEntry_present (env : Gmm) (g : UInt64) (l : Nat) : leafEntry env g l &&& eptePresentMask ≠ 0 :=
  present_of_testBit (leafEntry_testBit_zero env g l)

theorem leafEntry_read (env : Gmm) (g : UInt64) (l : Nat) : leafEntry env g l &&& epteRead ≠ 0 :=
  and_ne_zero_of_testBit (by decide) (leafEntry_testBit_zero env g l)

theorem leafEntry_large (env : Gmm) (g : UInt64) {l : Nat} (hl : l ≠ 0) : leafEntry env g l &&& epteLarge ≠ 0 := by
  apply large_of_testBit
  have h7 : epteLarge.toNat.testBit 7 = true := by decide
  rcases l with _ | _ | l
  · exact absurd rfl hl
  · simp [leafEntry, map2mpageEntry, h7]
  · simp [leafEntry, map1gpageEntry, h7]

structure MapPost (allocPage : Nat → UInt64) (g : UInt64) (level : Nat) (v : UInt64) (s s' : VtEptState) :
    Prop where
  inv : PoolInv allocPage s'
  root : s'.ept.ncr3tbl = s.ept.ncr3tbl
  gphys : s'.ept.cur.gphys = s.ept.cur.gphys
  cursor : CursorOk (wordsOf s'.mem) s.ept.ncr3tbl s'.ept.cur
  avl : s'.avlPagesizesLen = s.avlPagesizesLen
  leaf : ∀ {g' e : UInt64} {l' : Nat}, Leaf (wordsOf s'.mem) s.ept.ncr3tbl g' l' e →
    Leaf (wordsOf s.mem) s.ept.ncr3tbl g' l' e ∨ (l' = level ∧ SameBlock level g g' ∧ e = v)
  mapped : Leaf (wordsOf s'.mem) s.ept.ncr3tbl g level v

section Maps

variable {allocPage : Nat → UInt64} {s : VtEptState} {g : UInt64}

theorem curFill_store_spec {level : Nat} {v : UInt64} (hinv : PoolInv allocPage s) (hg : s.ept.cur.gphys = g)
    (hok : CursorOk (wordsOf s.mem) s.ept.ncr3tbl s.ept.cur) (hlev : level ≤ s.ept.cur.level) (hl2 : level < 3)
    (hstop : s.ept.cur.level = level → level = 0 ∨ Stops (wordsOf s.mem (s.ept.cur.entry level)))
    (hpres : v &&& eptePresentMask ≠ 0) (hlarge : level = 0 ∨ v &&& epteLarge ≠ 0) :
    MapPost allocPage g level v s ((curFill allocPage s g level).1.store (curFill allocPage s g level).2 v) := by
  have hf := curFill_spec hinv hg hok hlev hl2 hstop
  generalize curFill allocPage s g level = r at hf
  obtain ⟨lv, ht⟩ := hf.inv.tree
  have hw := hf.walk
  rw [← hf.root] at hw
  have hv : level = 0 ∨ Stops v := hlarge.imp_right Or.inr
  have hsame := fun g' k (hk : k ≤ 3) => walkEntry_store_stop (v := v) ht (by omega) hw hf.stop hv g' hk
  rw [hf.root] at hsame
  refine ⟨poolInv_store_stop hf.inv ht hl2 hw hv hf.chunk, by simpa using hf.root, by simpa using hf.gphys,
    ⟨hf.cursor.1, fun l hl hl3 => ?_⟩, by simpa using hf.avl, fun h => ?_, ?_⟩
  · rw [VtEptState.store_ept] at hl ⊢
    rw [hsame _ _ (by omega)]
    exact hf.cursor.2 l hl hl3
  · have h' := leaf_store_stop ht (by omega) hw hf.stop hv (by rwa [hf.root])
    rw [hf.root] at h'
    exact h'.imp_left hf.leaf
  · have h' := leaf_store_self ht (by omega) hw hf.stop hpres hlarge
    rwa [hf.root] at h'

/-- `vt_ept_map_page (ept, write, g)` after `cur_move (ept, g)`: unless it
panics, `g` is mapped by the entry of its 4 KiB page. -/
theorem vtEptMapPage_spec (env : Gmm) {write : Bool} {s' : VtEptState} (hinv : PoolInv allocPage s)
    (hg : s.ept.cur.gphys = g) (hok : CursorOk (wordsOf s.mem) s.ept.ncr3tbl s.ept.cur)
    (h : vtEptMapPage env allocPage s write g = some s') : MapPost allocPage g 0 (leafEntry env g 0) s s' := by
  unfold vtEptMapPage at h
  dsimp only at h
  split_ifs at h
  rw [← Option.some.inj h]
  exact curFill_store_spec hinv hg hok (Nat.zero_le _) (by omega) (fun _ => .inl rfl) (leafEntry_present env g 0)
    (.inl rfl)

theorem vtEptMap2mpage_spec (env : Gmm) (hinv : PoolInv allocPage s) (hg : s.ept.cur.gphys = g)
    (hok : CursorOk (wordsOf s.mem) s.ept.ncr3tbl s.ept.cur)
    (hbot : s.ept.cur.level = 0 ∨ Stops (wordsOf s.mem (s.ept.cur.entry s.ept.cur.level))) :
    ((vtEptMap2mpage env allocPage s g).1 = true ∧ (vtEptMap2mpage env allocPage s g).2 = s) ∨
      ((vtEptMap2mpage env allocPage s g).1 = false ∧
        MapPost allocPage g 1 (leafEntry env g 1) s (vtEptMap2mpage env allocPage s g).2) := by
  unfold vtEptMap2mpage
  split_ifs with h1 h2 h3
  · exact .inl ⟨rfl, rfl⟩
  · exact .inl ⟨rfl, rfl⟩
  · exact .inl ⟨rfl, rfl⟩
  · refine .inr ⟨rfl, curFill_store_spec hinv hg hok (by omega) (by omega) (fun h => ?_)
      (leafEntry_present env g 1) (.inr (leafEntry_large env g (by omega)))⟩
    rw [← h]
    exact hbot.imp_left fun h0 => absurd h0 (by omega)

theorem vtEptMap1gpage_spec (env : Gmm) (hinv : PoolInv allocPage s) (hg : s.ept.cur.gphys = g)
    (hok : CursorOk (wordsOf s.mem) s.ept.ncr3tbl s.ept.cur)
    (hbot : s.ept.cur.level = 0 ∨ Stops (wordsOf s.mem (s.ept.cur.entry s.ept.cur.level))) :
    ((vtEptMap1gpage env allocPage s g).1 = true ∧ (vtEptMap1gpage env allocPage s g).2 = s) ∨
      ((vtEptMap1gpage env allocPage s g).1 = false ∧
        MapPost allocPage g 2 (leafEntry env g 2) s (vtEptMap1gpage env allocPage s g).2) := by
  unfold vtEptMap1gpage
  split_ifs with h0 h1 h2 h3
  · exact .inl ⟨rfl, rfl⟩
  · exact .inl ⟨rfl, rfl⟩
  · exact .inl ⟨rfl, rfl⟩
  · exact .inl ⟨rfl, rfl⟩
  · refine .inr ⟨rfl, curFill_store_spec hinv hg hok (by omega) (by omega) (fun h => ?_)
      (leafEntry_present env g 2) (.inr (leafEntry_large env g (by omega)))⟩
    rw [← h]
    exact hbot.imp_left fun h0 => absurd h0 (by omega)

theorem vtEptMapPage_avl (env : Gmm) {write : Bool} {s' : VtEptState}
    (h : vtEptMapPage env allocPage s write g = some s') : s'.avlPagesizesLen = s.avlPagesizesLen := by
  unfold vtEptMapPage at h
  dsimp only at h
  split_ifs at h
  rw [← Option.some.inj h, VtEptState.store_avlPagesizesLen, curFill_avlPagesizesLen]

@[simp] theorem vtEptMap2mpage_avlPagesizesLen (env : Gmm) :
    (vtEptMap2mpage env allocPage s g).2.avlPagesizesLen = s.avlPagesizesLen := by
  unfold vtEptMap2mpage
  split_ifs <;> simp

@[simp] theorem vtEptMap1gpage_avlPagesizesLen (env : Gmm) :
    (vtEptMap1gpage env allocPage s g).2.avlPagesizesLen = s.avlPagesizesLen := by
  unfold vtEptMap1gpage
  split_ifs <;> simp

end Maps

end Bitvisor.Ept
