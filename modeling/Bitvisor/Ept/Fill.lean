import Bitvisor.Ept.Walk

namespace Bitvisor.Ept

/-! What `cur_fill` does to the tables. A table page is cleared when it is
attached, by the chunks its storage word marks; the pool invariant says
those marks cover every byte that is not zero, that the root's storage word
covers the root's, and that the attached tables form a tree under the
root. One round of the loop attaches one table under the entry of the
walk; the whole loop leaves the walk of the address at its target level,
and takes away no entry a walk ends on. -/

/-- What `alloc_page` gives the EPT: 4 KiB aligned pages, none of them the
root's, and one of its own for each slot of the pool up to
`MAXNUM_OF_EPTBL`. -/
structure PagesOk (root : UInt64) (allocPage : Nat → UInt64) : Prop where
  root_aligned : root.toNat % 4096 = 0
  aligned : ∀ i, (allocPage i).toNat % 4096 = 0
  ne_root : ∀ i, pageNum (allocPage i) ≠ pageNum root
  inj : ∀ i j, i ≤ maxnumOfEptbl → j ≤ maxnumOfEptbl → pageNum (allocPage i) = pageNum (allocPage j) → i = j

def PageMarked (s : VtEptState) (t : UInt64) : Prop :=
  ∀ j < 4096, (s.page t).bytes j ≠ 0 → (s.page t).storage.toNat.testBit (j / 128) = true

def RootUsed (s : VtEptState) : Prop :=
  (s.page s.ept.ncr3tbl).storage.toNat < 4096 ∧
    ∀ j < 4096, (s.page s.ept.ncr3tbl).bytes j ≠ 0 →
      0 < (s.page s.ept.ncr3tbl).storage.toNat ∧ j ≤ (s.page s.ept.ncr3tbl).storage.toNat

/-- The table pool: at most `MAXNUM_OF_EPTBL` tables attached, each slot
empty or holding its page, the attached ones in a tree under the root,
every allocated page marked, the root's used part recorded, and only the
slots of `ept->tbl` allocated. -/
structure PoolInv (allocPage : Nat → UInt64) (s : VtEptState) : Prop where
  pages : PagesOk s.ept.ncr3tbl allocPage
  cnt_le : s.cnt ≤ maxnumOfEptbl
  tbl : ∀ i, s.tbl i = none ∨ s.tbl i = some (allocPage i)
  attached : ∀ i < s.cnt, s.tbl i = some (allocPage i)
  tree : ∃ lv, TableTree (wordsOf s.mem) s.ept.ncr3tbl s.cnt allocPage lv
  marked : ∀ i, s.tbl i ≠ none → PageMarked s (allocPage i)
  rootUsed : RootUsed s
  slots : ∀ i, s.tbl i ≠ none → i < maxnumOfEptbl

theorem PoolInv.inj {allocPage : Nat → UInt64} {s : VtEptState} (hinv : PoolInv allocPage s) {i j : Nat}
    (hi : i ≤ s.cnt) (hj : j ≤ s.cnt) (h : pageNum (allocPage i) = pageNum (allocPage j)) : i = j :=
  hinv.pages.inj i j (by have := hinv.cnt_le; omega) (by have := hinv.cnt_le; omega) h

section Helpers

variable {allocPage : Nat → UInt64} (s : VtEptState)

theorem eptTblAlloc_eq {i : Nat} (h : s.tbl i = none ∨ s.tbl i = some (allocPage i)) :
    s.eptTblAlloc allocPage i =
      { s with
        tbl := Function.update s.tbl i (some (allocPage i))
        storage := if s.tbl i = none then Function.update s.storage (pageNum (allocPage i)) 0xFFFFFFFF
          else s.storage } := by
  rcases h with h | h
  · simp [VtEptState.eptTblAlloc, h]
  · rw [VtEptState.eptTblAlloc, h, ← h, Function.update_eq_self]
    simp [h]

theorem updateEptPml4eUsed_eq (p : UInt64) :
    s.updateEptPml4eUsed p =
      { s with
        storage := Function.update s.storage (pageNum p)
          (if s.storage (pageNum p) < ((p.toNat % 4096).toUInt32 ||| 7) then (p.toNat % 4096).toUInt32 ||| 7
          else s.storage (pageNum p)) } := by
  unfold VtEptState.updateEptPml4eUsed
  dsimp only
  split_ifs with h
  · rfl
  · rw [Function.update_eq_self]

theorem testBit_setBitmap (t : TablePage) (off k : Nat) :
    (Ept.setBitmapForEptEntry t off).storage.toNat.testBit k =
      (t.storage.toNat.testBit k || decide (k = off % 4096 / 128)) := by
  have hm : off % 4096 / 128 < 32 := by omega
  have hk : (off % 4096) >>> 7 = off % 4096 / 128 := by rw [Nat.shiftRight_eq_div_pow]
  simp only [Ept.setBitmapForEptEntry, UInt32.toNat_or, Nat.testBit_or, hk]
  rw [UInt32.toNat_shiftLeft, Nat.toUInt32, UInt32.toNat_ofNat', UInt32.toNat_one,
    Nat.mod_eq_of_lt (by omega : off % 4096 / 128 < 2 ^ 32), Nat.mod_eq_of_lt hm, Nat.one_shiftLeft,
    Nat.mod_eq_of_lt (Nat.pow_lt_pow_right (by omega) hm), Nat.testBit_two_pow]
  by_cases h : k = off % 4096 / 128 <;> simp [h, eq_comm]

@[simp] theorem eptTblAlloc_mem (i : Nat) : (s.eptTblAlloc allocPage i).mem = s.mem := by
  unfold VtEptState.eptTblAlloc; split <;> rfl

@[simp] theorem eptTblAlloc_ept (i : Nat) : (s.eptTblAlloc allocPage i).ept = s.ept := by
  unfold VtEptState.eptTblAlloc; split <;> rfl

@[simp] theorem eptTblAlloc_cnt (i : Nat) : (s.eptTblAlloc allocPage i).cnt = s.cnt := by
  unfold VtEptState.eptTblAlloc; split <;> rfl

@[simp] theorem eptTblAlloc_avlPagesizesLen (i : Nat) :
    (s.eptTblAlloc allocPage i).avlPagesizesLen = s.avlPagesizesLen := by
  unfold VtEptState.eptTblAlloc; split <;> rfl

@[simp] theorem store_mem_eq (p v : UInt64) : (s.store p v).mem = ByteMem.write s.mem p.toNat (entryBytes v) := rfl

@[simp] theorem store_tbl_eq (p v : UInt64) : (s.store p v).tbl = s.tbl := rfl

@[simp] theorem store_storage_eq (p v : UInt64) : (s.store p v).storage = s.storage := rfl

@[simp] theorem setBitmapForEptEntry_mem_eq (p : UInt64) : (s.setBitmapForEptEntry p).mem = s.mem := rfl

@[simp] theorem setBitmapForEptEntry_tbl_eq (p : UInt64) : (s.setBitmapForEptEntry p).tbl = s.tbl := rfl

@[simp] theorem clearEptBasedOnBitmap_tbl_eq (p : UInt64) : (s.clearEptBasedOnBitmap p).tbl = s.tbl := rfl

theorem pageNum_mul {t : UInt64} (ht : t.toNat % 4096 = 0) : pageNum t * 4096 = t.toNat := by
  rw [pageNum]
  omega

theorem wordsOf_store {p x : UInt64} (v : UInt64) (hp : p.toNat % 8 = 0) (hx : x.toNat % 8 = 0) :
    wordsOf (s.store p v).mem x = if x = p then v else wordsOf s.mem x := by
  split_ifs with h
  · subst h
    exact wordsOf_write_self _ _ _
  · exact wordsOf_write_of_ne _ v hp hx h

theorem store_mem_of_not_mem {p : UInt64} (v : UInt64) {y : Nat} (hy : ¬(p.toNat ≤ y ∧ y < p.toNat + 8)) :
    (s.store p v).mem y = s.mem y := by
  have hlen : (entryBytes v).length = 8 := by simp [entryBytes]
  simp only [VtEptState.store_mem, ByteMem.write, hlen]
  rw [if_neg hy]

theorem clearEptBasedOnBitmap_mem {t : UInt64} (hm : PageMarked s t) (y : Nat) :
    (s.clearEptBasedOnBitmap t).mem y =
      if pageNum t * 4096 ≤ y ∧ y < pageNum t * 4096 + 4096 then 0 else s.mem y := by
  simp only [VtEptState.clearEptBasedOnBitmap_mem]
  split_ifs with hy
  · rw [clearEptBasedOnBitmap_eq]
    dsimp only
    split_ifs with hbit
    · rfl
    · by_contra hne
      exact hbit (hm _ (by omega) hne)
  · rfl

theorem wordsOf_clearEptBasedOnBitmap {t x : UInt64} (hm : PageMarked s t) (ht : t.toNat % 4096 = 0)
    (hx : x.toNat % 8 = 0) :
    wordsOf (s.clearEptBasedOnBitmap t).mem x = if InPage t x then 0 else wordsOf s.mem x := by
  have hbase := pageNum_mul ht
  split_ifs with hin
  · apply wordsOf_of_zero
    intro i hi
    rw [clearEptBasedOnBitmap_mem s hm, if_pos]
    rw [InPage, pageNum] at hin
    omega
  · apply wordsOf_congr
    intro i hi
    rw [clearEptBasedOnBitmap_mem s hm, if_neg]
    rw [InPage, pageNum, pageNum] at hin
    omega

theorem clearNcr3tbl_mem (hr : s.ept.ncr3tbl.toNat % 4096 = 0) (hu : RootUsed s) (y : Nat) :
    s.clearNcr3tbl.mem y =
      if s.ept.ncr3tbl.toNat ≤ y ∧ y < s.ept.ncr3tbl.toNat + 4096 then 0 else s.mem y := by
  obtain ⟨hlt, hused⟩ := hu
  simp only [VtEptState.page, pageNum_mul hr] at hlt hused
  have hoff : ((s.storage (pageNum s.ept.ncr3tbl)) + 1).toNat = (s.storage (pageNum s.ept.ncr3tbl)).toNat + 1 := by
    rw [UInt32.toNat_add, UInt32.toNat_one, Nat.mod_eq_of_lt (by omega)]
  unfold VtEptState.clearNcr3tbl
  dsimp only
  split_ifs with h0 hy hy
  · simp only [ByteMem.write_replicate_zero, hoff]
    split_ifs with hw
    · rfl
    · by_contra hne
      have := (hused (y - s.ept.ncr3tbl.toNat) (by omega) (by rwa [Nat.add_sub_cancel' hy.1])).2
      omega
  · simp only [ByteMem.write_replicate_zero, hoff]
    rw [if_neg (by omega)]
  · by_contra hne
    have hpos := (hused (y - s.ept.ncr3tbl.toNat) (by omega) (by rwa [Nat.add_sub_cancel' hy.1])).1
    apply h0
    intro h
    rw [h] at hpos
    exact Nat.lt_irrefl 0 hpos
  · rfl

end Helpers

def markEntry (s : VtEptState) (p : UInt64) (l : Nat) : VtEptState :=
  if l < 3 then s.setBitmapForEptEntry p else s.updateEptPml4eUsed p

section Marks

variable (s : VtEptState) (p : UInt64) (l : Nat)

@[simp] theorem markEntry_mem : (markEntry s p l).mem = s.mem := by
  unfold markEntry
  split
  · rfl
  · rw [updateEptPml4eUsed_eq]

@[simp] theorem markEntry_ept : (markEntry s p l).ept = s.ept := by
  unfold markEntry
  split
  · rfl
  · rw [updateEptPml4eUsed_eq]

@[simp] theorem markEntry_cnt : (markEntry s p l).cnt = s.cnt := by
  unfold markEntry
  split
  · rfl
  · rw [updateEptPml4eUsed_eq]

@[simp] theorem markEntry_tbl : (markEntry s p l).tbl = s.tbl := by
  unfold markEntry
  split
  · rfl
  · rw [updateEptPml4eUsed_eq]

@[simp] theorem markEntry_avlPagesizesLen : (markEntry s p l).avlPagesizesLen = s.avlPagesizesLen := by
  unfold markEntry
  split
  · rfl
  · rw [updateEptPml4eUsed_eq]

theorem markEntry_storage_of_ne {q : Nat} (hq : q ≠ pageNum p) : (markEntry s p l).storage q = s.storage q := by
  unfold markEntry
  split
  · simp [Function.update_of_ne hq]
  · simp [updateEptPml4eUsed_eq, Function.update_of_ne hq]

theorem testBit_markEntry (hl : l < 3) (k : Nat) :
    ((markEntry s p l).storage (pageNum p)).toNat.testBit k =
      ((s.storage (pageNum p)).toNat.testBit k || decide (k = p.toNat % 4096 / 128)) := by
  simp only [markEntry, if_pos hl, VtEptState.setBitmapForEptEntry_storage, Function.update_self,
    testBit_setBitmap]
  rfl

theorem markEntry_storage_root (hl : ¬l < 3) (hp : p.toNat % 8 = 0) :
    (s.storage (pageNum p)).toNat ≤ ((markEntry s p l).storage (pageNum p)).toNat ∧
      p.toNat % 4096 + 7 ≤ ((markEntry s p l).storage (pageNum p)).toNat ∧
      ((markEntry s p l).storage (pageNum p)).toNat < 4096 ∨
      (markEntry s p l).storage (pageNum p) = s.storage (pageNum p) ∧
      p.toNat % 4096 + 7 ≤ (s.storage (pageNum p)).toNat := by
  have hoff : ((p.toNat % 4096).toUInt32 ||| 7).toNat = p.toNat % 4096 + 7 := by
    have h7 : (7 : UInt32).toNat < 2 ^ 3 := by decide
    have hb : ((p.toNat % 4096).toUInt32).toNat = p.toNat % 4096 := by
      rw [Nat.toUInt32, UInt32.toNat_ofNat', Nat.mod_eq_of_lt (by omega)]
    rw [UInt32.toNat_or, hb, show (p.toNat % 4096) = (p.toNat % 4096 / 8) <<< 3 by
      rw [Nat.shiftLeft_eq]; omega, ← Nat.shiftLeft_add_eq_or_of_lt h7, Nat.shiftLeft_eq]
    rfl
  simp only [markEntry, if_neg hl, updateEptPml4eUsed_eq, Function.update_self]
  split_ifs with hlt
  · left
    rw [UInt32.lt_iff_toNat_lt, hoff] at hlt
    rw [hoff]
    omega
  · right
    rw [UInt32.lt_iff_toNat_lt, hoff] at hlt
    exact ⟨rfl, by omega⟩

end Marks

section MarkedSteps

variable {s s' : VtEptState} {t : UInt64}

theorem PageMarked.mono (h : PageMarked s t)
    (hb : ∀ j < 4096, (s'.page t).bytes j ≠ 0 → (s'.page t).bytes j = (s.page t).bytes j)
    (hs : ∀ k, (s.page t).storage.toNat.testBit k = true → (s'.page t).storage.toNat.testBit k = true) :
    PageMarked s' t := by
  intro j hj hne
  exact hs _ (h j hj (hb j hj hne ▸ hne))

theorem PageMarked.of_all (h : s.storage (pageNum t) = 0xFFFFFFFF) : PageMarked s t := by
  intro j hj _
  simp only [VtEptState.page, h]
  rw [show (0xFFFFFFFF : UInt32).toNat = 2 ^ 32 - 1 from rfl, Nat.testBit_two_pow_sub_one]
  simp only [decide_eq_true_eq]
  omega

theorem PageMarked.store (h : PageMarked s t) {p : UInt64} (v : UInt64) (hp : p.toNat % 8 = 0)
    (hin : InPage t p) (hbit : (s.storage (pageNum t)).toNat.testBit (p.toNat % 4096 / 128) = true) :
    PageMarked (s.store p v) t := by
  intro j hj hne
  simp only [VtEptState.page, VtEptState.store_storage] at hne ⊢
  by_cases hw : p.toNat ≤ pageNum t * 4096 + j ∧ pageNum t * 4096 + j < p.toNat + 8
  · unfold InPage pageNum at hin
    unfold pageNum at hw
    rw [show j / 128 = p.toNat % 4096 / 128 by omega]
    exact hbit
  · rw [store_mem_of_not_mem s v hw] at hne
    exact h j hj hne

theorem PageMarked.store_other (h : PageMarked s t) {p : UInt64} (v : UInt64) (hp : p.toNat % 8 = 0)
    (hout : ¬InPage t p) : PageMarked (s.store p v) t := by
  apply h.mono
  · intro j hj _
    simp only [VtEptState.page]
    apply store_mem_of_not_mem
    unfold InPage pageNum at hout
    unfold pageNum
    omega
  · intro k hk
    exact hk

theorem PageMarked.alloc (h : PageMarked s t) (allocPage : Nat → UInt64) (i : Nat) :
    PageMarked (s.eptTblAlloc allocPage i) t := by
  unfold VtEptState.eptTblAlloc
  split
  · exact h
  · by_cases ht : pageNum t = pageNum (allocPage i)
    · apply PageMarked.of_all
      simp [ht]
    · apply h.mono
      · intro j _ _
        rfl
      · intro k hk
        simpa [VtEptState.page, Function.update_of_ne ht] using hk

theorem PageMarked.mark (h : PageMarked s t) {p : UInt64} {l : Nat} (hl : l < 3 ∨ pageNum t ≠ pageNum p) :
    PageMarked (markEntry s p l) t := by
  apply h.mono
  · intro j _ _
    simp [VtEptState.page]
  · intro k hk
    simp only [VtEptState.page] at hk ⊢
    by_cases hq : pageNum t = pageNum p
    · have hl' : l < 3 := hl.resolve_right (not_not.mpr hq)
      rw [hq, testBit_markEntry s p l hl', ← hq, hk, Bool.true_or]
    · rwa [markEntry_storage_of_ne s p l hq]

theorem PageMarked.clear_other (h : PageMarked s t) {q : UInt64} (hne : pageNum t ≠ pageNum q) :
    PageMarked (s.clearEptBasedOnBitmap q) t := by
  apply h.mono
  · intro j hj _
    simp only [VtEptState.page, VtEptState.clearEptBasedOnBitmap_mem]
    rw [if_neg (by omega)]
  · intro k hk
    simpa [VtEptState.page, Function.update_of_ne hne] using hk

theorem PageMarked.clear_self (h : PageMarked s t) : PageMarked (s.clearEptBasedOnBitmap t) t := by
  intro j hj hne
  simp only [VtEptState.page] at hne
  rw [clearEptBasedOnBitmap_mem s h, if_pos (by omega)] at hne
  exact absurd rfl hne

theorem RootUsed.of_page (h : RootUsed s) (hR : s'.ept.ncr3tbl = s.ept.ncr3tbl)
    (hb : ∀ j < 4096, s'.mem (pageNum s.ept.ncr3tbl * 4096 + j) = s.mem (pageNum s.ept.ncr3tbl * 4096 + j))
    (hs : s'.storage (pageNum s.ept.ncr3tbl) = s.storage (pageNum s.ept.ncr3tbl)) : RootUsed s' := by
  obtain ⟨hlt, hused⟩ := h
  simp only [RootUsed, VtEptState.page, hR, hs] at hlt hused ⊢
  refine ⟨hlt, fun j hj hne => hused j hj ?_⟩
  rwa [← hb j hj]

theorem RootUsed.markStore (h : RootUsed s) {p : UInt64} {l : Nat} (v : UInt64) (hl : ¬l < 3)
    (hin : InPage s.ept.ncr3tbl p) (hp : p.toNat % 8 = 0) : RootUsed ((markEntry s p l).store p v) := by
  obtain ⟨hlt, hused⟩ := h
  have hR : pageNum p = pageNum s.ept.ncr3tbl := hin
  simp only [RootUsed, VtEptState.page, VtEptState.store_ept, markEntry_ept, VtEptState.store_storage,
    ← hR] at hlt hused ⊢
  have hst : (s.storage (pageNum p)).toNat ≤ ((markEntry s p l).storage (pageNum p)).toNat ∧
      p.toNat % 4096 + 7 ≤ ((markEntry s p l).storage (pageNum p)).toNat ∧
      ((markEntry s p l).storage (pageNum p)).toNat < 4096 := by
    rcases markEntry_storage_root s p l hl hp with h | ⟨heq, hcov⟩
    · exact h
    · rw [heq]
      exact ⟨le_rfl, hcov, hlt⟩
  refine ⟨hst.2.2, fun j hj hne => ?_⟩
  by_cases hw : p.toNat ≤ pageNum p * 4096 + j ∧ pageNum p * 4096 + j < p.toNat + 8
  · unfold pageNum at hw
    omega
  · rw [store_mem_of_not_mem _ v hw, markEntry_mem] at hne
    have := hused j hj hne
    omega

end MarkedSteps

def fillRound (allocPage : Nat → UInt64) (gphys : UInt64) (s : VtEptState) (p : UInt64) (l : Nat) :
    VtEptState × UInt64 :=
  let s := markEntry (s.eptTblAlloc allocPage s.cnt) p l
  let t := (s.tbl s.cnt).getD 0
  let s := s.store p (t ||| epteReadexec ||| epteWrite)
  let s := { s with cnt := s.cnt + 1 }
  (s.clearEptBasedOnBitmap t, t + 8 * ((gphys >>> (9 * l + 3).toUInt64) &&& 0x1FF))

theorem curFillLoop_succ (allocPage : Nat → UInt64) (gphys : UInt64) (level fuel : Nat) (s : VtEptState)
    (p : UInt64) (l : Nat) :
    curFillLoop allocPage gphys level (fuel + 1) s p l =
      if level < l then
        curFillLoop allocPage gphys level fuel (fillRound allocPage gphys s p l).1 (fillRound allocPage gphys s p l).2
          (l - 1)
      else (s, p) := rfl

def fillMid (allocPage : Nat → UInt64) (s : VtEptState) (p : UInt64) (l : Nat) : VtEptState :=
  { (markEntry (s.eptTblAlloc allocPage s.cnt) p l).store p (allocPage s.cnt ||| epteReadexec ||| epteWrite) with
    cnt := s.cnt + 1 }

section Round

variable {allocPage : Nat → UInt64} {s : VtEptState} {lv : Nat → Nat} {g p : UInt64} {l : Nat}

theorem fillRound_eq (htbl : s.tbl s.cnt = none ∨ s.tbl s.cnt = some (allocPage s.cnt)) :
    fillRound allocPage g s p l =
      ((fillMid allocPage s p l).clearEptBasedOnBitmap (allocPage s.cnt),
        allocPage s.cnt + 8 * ((g >>> (9 * l + 3).toUInt64) &&& 0x1FF)) := by
  have hT : ((markEntry (s.eptTblAlloc allocPage s.cnt) p l).tbl
      (markEntry (s.eptTblAlloc allocPage s.cnt) p l).cnt).getD 0 = allocPage s.cnt := by
    rw [markEntry_tbl, markEntry_cnt, eptTblAlloc_eq s htbl]
    simp
  unfold fillRound fillMid
  dsimp only
  rw [hT]
  simp only [VtEptState.store_cnt, markEntry_cnt, eptTblAlloc_cnt]

@[simp] theorem fillMid_cnt : (fillMid allocPage s p l).cnt = s.cnt + 1 := rfl

@[simp] theorem fillMid_ept : (fillMid allocPage s p l).ept = s.ept := by
  simp [fillMid]

@[simp] theorem fillMid_avlPagesizesLen : (fillMid allocPage s p l).avlPagesizesLen = s.avlPagesizesLen := by
  simp [fillMid]

theorem fillMid_tbl (htbl : s.tbl s.cnt = none ∨ s.tbl s.cnt = some (allocPage s.cnt)) :
    (fillMid allocPage s p l).tbl = Function.update s.tbl s.cnt (some (allocPage s.cnt)) := by
  simp [fillMid, eptTblAlloc_eq s htbl]

theorem fillMid_mem :
    (fillMid allocPage s p l).mem = (s.store p (allocPage s.cnt ||| epteReadexec ||| epteWrite)).mem := by
  simp [fillMid]

theorem fillMid_storage :
    (fillMid allocPage s p l).storage = (markEntry (s.eptTblAlloc allocPage s.cnt) p l).storage := by
  simp [fillMid]

theorem TableTree.entry_loc {W : Words} {root : UInt64} {n : Nat} {pg : Nat → UInt64}
    (ht : TableTree W root n pg lv) (hl3 : l ≤ 3) (hp : walkEntry W root g (3 - l) = some p) :
    p.toNat % 8 = 0 ∧ ((l = 3 ∧ InPage root p) ∨ (l < 3 ∧ ∃ i < n, lv i = l ∧ InPage (pg i) p)) := by
  obtain ⟨ha, hin⟩ := ht.walkEntry_mem (by omega) hp
  refine ⟨ha, ?_⟩
  rcases hin with ⟨h0, hroot⟩ | ⟨hpos, i, hi, hlv, hpage⟩
  · exact .inl ⟨by omega, hroot⟩
  · exact .inr ⟨by omega, i, hi, by omega, hpage⟩

theorem not_inPage_next (hinv : PoolInv allocPage s)
    (ht : TableTree (wordsOf s.mem) s.ept.ncr3tbl s.cnt allocPage lv) {a : UInt64} {k : Nat} (hk : k ≤ 3)
    (ha : walkEntry (wordsOf s.mem) s.ept.ncr3tbl g k = some a) : ¬InPage (allocPage s.cnt) a := by
  intro hin
  obtain ⟨_, hloc⟩ := ht.walkEntry_mem hk ha
  rcases hloc with ⟨_, hroot⟩ | ⟨_, i, hi, _, hpage⟩
  · exact hinv.pages.ne_root s.cnt (hin.symm.trans hroot)
  · have := hinv.inj (by omega) le_rfl (hpage.symm.trans hin)
    omega

theorem pageMarked_fillMid (hinv : PoolInv allocPage s)
    (ht : TableTree (wordsOf s.mem) s.ept.ncr3tbl s.cnt allocPage lv) (hl3 : l ≤ 3)
    (hp : walkEntry (wordsOf s.mem) s.ept.ncr3tbl g (3 - l) = some p) :
    PageMarked (fillMid allocPage s p l) (allocPage s.cnt) := by
  have htbl := hinv.tbl s.cnt
  have hpT := not_inPage_next hinv ht (by omega) hp
  have hpa := (ht.entry_loc hl3 hp).1
  have halloc : PageMarked (s.eptTblAlloc allocPage s.cnt) (allocPage s.cnt) := by
    rw [eptTblAlloc_eq s htbl]
    by_cases hnone : s.tbl s.cnt = none
    · apply PageMarked.of_all
      simp [hnone]
    · have hm := hinv.marked s.cnt hnone
      simp only [hnone, if_false]
      exact hm
  have hmark : PageMarked (markEntry (s.eptTblAlloc allocPage s.cnt) p l) (allocPage s.cnt) := by
    apply halloc.mono
    · intro j _ _
      simp [VtEptState.page]
    · intro k hk
      simpa [VtEptState.page, markEntry_storage_of_ne _ _ _ (Ne.symm hpT)] using hk
  have hstore := hmark.store_other (allocPage s.cnt ||| epteReadexec ||| epteWrite) hpa hpT
  exact hstore

theorem wordsOf_fillRound (hinv : PoolInv allocPage s)
    (ht : TableTree (wordsOf s.mem) s.ept.ncr3tbl s.cnt allocPage lv) (hl3 : l ≤ 3)
    (hp : walkEntry (wordsOf s.mem) s.ept.ncr3tbl g (3 - l) = some p) {x : UInt64} (hx : x.toNat % 8 = 0) :
    wordsOf (fillRound allocPage g s p l).1.mem x =
      if InPage (allocPage s.cnt) x then 0
      else if x = p then allocPage s.cnt ||| epteReadexec ||| epteWrite else wordsOf s.mem x := by
  have htbl := hinv.tbl s.cnt
  rw [fillRound_eq htbl, wordsOf_clearEptBasedOnBitmap _ (pageMarked_fillMid hinv ht hl3 hp)
    (hinv.pages.aligned s.cnt) hx, fillMid_mem, wordsOf_store _ _ (ht.entry_loc hl3 hp).1 hx]

theorem TableTree.points_to {W : Words} {root : UInt64} {n : Nat} {pg : Nat → UInt64}
    (ht : TableTree W root n pg lv) {a : UInt64} (hu : UpperEntry root n pg lv a) (hgo : ¬Stops (W a)) :
    ∃ j < n, W a = pg j ||| epteReadexec ||| epteWrite := by
  rcases hu with ⟨ha, hroot | ⟨i, hi, hpos, hin⟩⟩
  · obtain ⟨j, hj, hptr, _⟩ := ht.root_points a hroot ha hgo
    exact ⟨j, hj, hptr⟩
  · obtain ⟨j, hj, hptr, _⟩ := ht.table_points i hi hpos a hin ha hgo
    exact ⟨j, hj, hptr⟩

theorem TableTree.ptr_of_walkEntry {W : Words} {root : UInt64} {n : Nat} {pg : Nat → UInt64}
    (ht : TableTree W root n pg lv) {g a : UInt64} {k : Nat} (hk : k < 3) (h : walkEntry W root g k = some a)
    (hgo : ¬Stops (W a)) : ∃ j < n, W a = pg j ||| epteReadexec ||| epteWrite := by
  obtain ⟨ha, hloc⟩ := ht.walkEntry_mem (by omega) h
  apply ht.points_to _ hgo
  rcases hloc with ⟨-, hroot⟩ | ⟨-, i, hi, hlvi, hin⟩
  · exact ⟨ha, .inl hroot⟩
  · exact ⟨ha, .inr ⟨i, hi, by omega, hin⟩⟩

theorem upperEntry_of_next {root : UInt64} {n : Nat} {pg : Nat → UInt64} {lv' : Nat → Nat} {a : UInt64}
    (hlv : ∀ i < n, lv' i = lv i) (hu : UpperEntry root (n + 1) pg lv' a) (hout : ¬InPage (pg n) a) :
    UpperEntry root n pg lv a := by
  rcases hu with ⟨ha, hroot | ⟨i, hi, hpos, hin⟩⟩
  · exact ⟨ha, .inl hroot⟩
  · have hin' : i ≠ n := fun h => hout (h ▸ hin)
    exact ⟨ha, .inr ⟨i, by omega, hlv i (by omega) ▸ hpos, hin⟩⟩

theorem fillRound_tree (hinv : PoolInv allocPage s)
    (ht : TableTree (wordsOf s.mem) s.ept.ncr3tbl s.cnt allocPage lv) (hl3 : l ≤ 3)
    (hp : walkEntry (wordsOf s.mem) s.ept.ncr3tbl g (3 - l) = some p) :
    TableTree (wordsOf (fillRound allocPage g s p l).1.mem) s.ept.ncr3tbl (s.cnt + 1) allocPage
      (Function.update lv s.cnt (l - 1)) := by
  have hpg := hinv.pages
  obtain ⟨hpa, hloc⟩ := ht.entry_loc hl3 hp
  have hpT := not_inPage_next hinv ht (by omega) hp
  have hW := fun (x : UInt64) (hx : x.toNat % 8 = 0) => wordsOf_fillRound (g := g) hinv ht hl3 hp hx
  have hnew : wordsOf (fillRound allocPage g s p l).1.mem p = allocPage s.cnt ||| epteReadexec ||| epteWrite := by
    rw [hW p hpa, if_neg hpT, if_pos rfl]
  have hzero : ∀ x, x.toNat % 8 = 0 → InPage (allocPage s.cnt) x →
      Stops (wordsOf (fillRound allocPage g s p l).1.mem x) := by
    intro x hx hin
    rw [hW x hx, if_pos hin]
    exact .inl (by decide)
  have hold : ∀ x, x.toNat % 8 = 0 → ¬InPage (allocPage s.cnt) x → x ≠ p →
      wordsOf (fillRound allocPage g s p l).1.mem x = wordsOf s.mem x := by
    intro x hx hout hne
    rw [hW x hx, if_neg hout, if_neg hne]
  have hlv : ∀ i < s.cnt, Function.update lv s.cnt (l - 1) i = lv i :=
    fun i hi => Function.update_of_ne (by omega) _ _
  have hrootT : ∀ a, InPage s.ept.ncr3tbl a → ¬InPage (allocPage s.cnt) a :=
    fun a hroot hin => hpg.ne_root s.cnt (hin.symm.trans hroot)
  refine ⟨ht.root_aligned, fun i _ => hpg.aligned i, fun i _ => hpg.ne_root i, fun i hi j hj => hinv.inj (by omega) (by omega),
    ?_, ?_, ?_, ?_⟩
  · intro i hi
    by_cases hic : i = s.cnt
    · subst hic
      rw [Function.update_self]
      omega
    · rw [hlv i (by omega)]
      exact ht.lv_le i (by omega)
  · intro a hroot ha hgo
    by_cases hap : a = p
    · subst hap
      have hl : l = 3 := by
        rcases hloc with ⟨hl, _⟩ | ⟨_, i, _, _, hpage⟩
        · exact hl
        · exact absurd (hpage.symm.trans hroot) (hpg.ne_root i)
      refine ⟨s.cnt, by omega, hnew, ?_⟩
      rw [Function.update_self]
      omega
    · rw [hold a ha (hrootT a hroot) hap] at hgo ⊢
      obtain ⟨j, hj, hptr, hlvj⟩ := ht.root_points a hroot ha hgo
      exact ⟨j, by omega, hptr, by rw [hlv j hj]; exact hlvj⟩
  · intro i hi hpos a hin ha hgo
    by_cases hic : i = s.cnt
    · subst hic
      exact absurd (hzero a ha hin) hgo
    have hout : ¬InPage (allocPage s.cnt) a := fun h => hic (hinv.inj (by omega) le_rfl (hin.symm.trans h))
    rw [hlv i (by omega)] at hpos ⊢
    by_cases hap : a = p
    · subst hap
      have hli : lv i = l := by
        rcases hloc with ⟨_, hroot⟩ | ⟨_, i', hi', hlvi', hpage⟩
        · exact absurd (hin.symm.trans hroot) (hpg.ne_root i)
        · rw [← hinv.inj (by omega) (by omega) (hpage.symm.trans hin)]
          exact hlvi'
      refine ⟨s.cnt, by omega, hnew, ?_⟩
      rw [Function.update_self]
      omega
    · rw [hold a ha hout hap] at hgo ⊢
      obtain ⟨j, hj, hptr, hlvj⟩ := ht.table_points i (by omega) hpos a hin ha hgo
      exact ⟨j, by omega, hptr, by rw [hlv j hj]; exact hlvj⟩
  · intro a a' hu hu' hgo hgo' hptr
    have hout : ¬InPage (allocPage s.cnt) a := fun h => hgo (hzero a hu.1 h)
    have hout' : ¬InPage (allocPage s.cnt) a' := fun h => hgo' (hzero a' hu'.1 h)
    have hu0 := upperEntry_of_next hlv hu hout
    have hu0' := upperEntry_of_next hlv hu' hout'
    have hfresh : ∀ b, UpperEntry s.ept.ncr3tbl s.cnt allocPage lv b → ¬InPage (allocPage s.cnt) b → b ≠ p →
        ¬Stops (wordsOf (fillRound allocPage g s p l).1.mem b) →
        wordsOf (fillRound allocPage g s p l).1.mem b &&& ~~~(0xFFF : UInt64) ≠ allocPage s.cnt := by
      intro b hub hbout hbp hbgo heq
      rw [hold b hub.1 hbout hbp] at hbgo heq
      obtain ⟨j, hj, hptrj⟩ := ht.points_to hub hbgo
      rw [hptrj, ptr_and_pageMask (hpg.aligned j)] at heq
      have := hinv.inj (i := j) (by omega) le_rfl (by rw [heq])
      omega
    have hptrp : wordsOf (fillRound allocPage g s p l).1.mem p &&& ~~~(0xFFF : UInt64) = allocPage s.cnt := by
      rw [hnew, ptr_and_pageMask (hpg.aligned _)]
    by_cases hap : a = p <;> by_cases hap' : a' = p
    · rw [hap, hap']
    · rw [hap, hptrp] at hptr
      exact absurd hptr.symm (hfresh a' hu0' hout' hap' hgo')
    · rw [hap', hptrp] at hptr
      exact absurd hptr (hfresh a hu0 hout hap hgo)
    · rw [hold a hu.1 hout hap] at hgo hptr
      rw [hold a' hu'.1 hout' hap'] at hgo' hptr
      exact ht.parent_unique a a' hu0 hu0' hgo hgo' hptr

theorem fillRound_snd (htbl : s.tbl s.cnt = none ∨ s.tbl s.cnt = some (allocPage s.cnt))
    (hT : (allocPage s.cnt).toNat % 4096 = 0) (hl : 1 ≤ l) (hl3 : l ≤ 3) :
    (fillRound allocPage g s p l).2 = allocPage s.cnt ||| (eptIndex g (2 - (3 - l)) <<< (3 : UInt64)) := by
  have hidx : (g >>> (9 * l + 3).toUInt64) &&& 0x1FF = eptIndex g (2 - (3 - l)) := by
    rw [eptIndex, show 12 + 9 * (2 - (3 - l)) = 9 * l + 3 by omega]
  rw [fillRound_eq htbl, hidx]
  apply UInt64.toNat_inj.mp
  rw [toNat_add_entry hT (eptIndex_toNat_lt _ _), toNat_entryAddr hT (eptIndex_toNat_lt _ _)]

@[simp] theorem fillRound_ept : (fillRound allocPage g s p l).1.ept = s.ept := by
  simp [fillRound]

@[simp] theorem fillRound_cnt : (fillRound allocPage g s p l).1.cnt = s.cnt + 1 := by
  simp [fillRound]

@[simp] theorem fillRound_avlPagesizesLen :
    (fillRound allocPage g s p l).1.avlPagesizesLen = s.avlPagesizesLen := by
  simp [fillRound]

theorem fillRound_kept (hinv : PoolInv allocPage s)
    (ht : TableTree (wordsOf s.mem) s.ept.ncr3tbl s.cnt allocPage lv) (hl3 : l ≤ 3)
    (hp : walkEntry (wordsOf s.mem) s.ept.ncr3tbl g (3 - l) = some p) {g' a : UInt64} {k : Nat}
    (hk : k < 3 - l) (ha : walkEntry (wordsOf s.mem) s.ept.ncr3tbl g' k = some a) :
    wordsOf (fillRound allocPage g s p l).1.mem a = wordsOf s.mem a := by
  have haa := (ht.walkEntry_mem (by omega) ha).1
  rw [wordsOf_fillRound hinv ht hl3 hp haa, if_neg (not_inPage_next hinv ht (by omega) ha), if_neg]
  intro hap
  subst a
  have := ht.depth_eq (show k ≤ 3 by omega) (show 3 - l ≤ 3 by omega) ha hp
  omega

theorem fillRound_walkEntry_of_le (hinv : PoolInv allocPage s)
    (ht : TableTree (wordsOf s.mem) s.ept.ncr3tbl s.cnt allocPage lv) (hl3 : l ≤ 3)
    (hp : walkEntry (wordsOf s.mem) s.ept.ncr3tbl g (3 - l) = some p) (g' : UInt64) {k : Nat} (hk : k ≤ 3 - l) :
    walkEntry (wordsOf (fillRound allocPage g s p l).1.mem) s.ept.ncr3tbl g' k =
      walkEntry (wordsOf s.mem) s.ept.ncr3tbl g' k := by
  rw [walkEntry_eq_walk, walkEntry_eq_walk]
  apply PtrWalk.walk_congr
  intro m hm a ha
  exact fillRound_kept hinv ht hl3 hp (k := m) (by omega) (by rw [walkEntry_eq_walk]; exact ha)

theorem fillRound_walkEntry (hinv : PoolInv allocPage s)
    (ht : TableTree (wordsOf s.mem) s.ept.ncr3tbl s.cnt allocPage lv) (hl : 1 ≤ l) (hl3 : l ≤ 3)
    (hp : walkEntry (wordsOf s.mem) s.ept.ncr3tbl g (3 - l) = some p) :
    walkEntry (wordsOf (fillRound allocPage g s p l).1.mem) s.ept.ncr3tbl g (3 - (l - 1)) =
      some (fillRound allocPage g s p l).2 := by
  have hT := hinv.pages.aligned s.cnt
  have hpa := (ht.entry_loc hl3 hp).1
  have hnew : wordsOf (fillRound allocPage g s p l).1.mem p = allocPage s.cnt ||| epteReadexec ||| epteWrite := by
    rw [wordsOf_fillRound hinv ht hl3 hp hpa, if_neg (not_inPage_next hinv ht (by omega) hp), if_pos rfl]
  rw [show 3 - (l - 1) = 3 - l + 1 by omega, walkEntry_succ_eq_some]
  refine ⟨p, by rw [fillRound_walkEntry_of_le hinv ht hl3 hp g le_rfl]; exact hp, by rw [hnew]; exact not_stops_ptr hT, ?_⟩
  rw [hnew, ptr_and_pageMask hT, fillRound_snd (hinv.tbl s.cnt) hT hl hl3]

theorem fillRound_fresh (hinv : PoolInv allocPage s)
    (ht : TableTree (wordsOf s.mem) s.ept.ncr3tbl s.cnt allocPage lv) (hl : 1 ≤ l) (hl3 : l ≤ 3)
    (hp : walkEntry (wordsOf s.mem) s.ept.ncr3tbl g (3 - l) = some p) :
    wordsOf (fillRound allocPage g s p l).1.mem (fillRound allocPage g s p l).2 = 0 := by
  have hT := hinv.pages.aligned s.cnt
  obtain ⟨hqa, hqin⟩ := entryAddr_mem hT (eptIndex_toNat_lt g (2 - (3 - l)))
  rw [fillRound_snd (hinv.tbl s.cnt) hT hl hl3, wordsOf_fillRound hinv ht hl3 hp hqa,
    if_pos (show InPage (allocPage s.cnt) _ from hqin)]

theorem fillRound_leaf (hinv : PoolInv allocPage s)
    (ht : TableTree (wordsOf s.mem) s.ept.ncr3tbl s.cnt allocPage lv) (hl : 1 ≤ l) (hl3 : l ≤ 3)
    (hp : walkEntry (wordsOf s.mem) s.ept.ncr3tbl g (3 - l) = some p) {g' e : UInt64} {l' : Nat}
    (h : Leaf (wordsOf (fillRound allocPage g s p l).1.mem) s.ept.ncr3tbl g' l' e) :
    Leaf (wordsOf s.mem) s.ept.ncr3tbl g' l' e := by
  obtain ⟨hl', a, hwalk, he, hpres, hlarge⟩ := h
  have hT := hinv.pages.aligned s.cnt
  have hpa := (ht.entry_loc hl3 hp).1
  have hW := fun (x : UInt64) (hx : x.toNat % 8 = 0) => wordsOf_fillRound (g := g) hinv ht hl3 hp hx
  have hS : ∀ x, ¬(x.toNat % 8 ≠ 0 ∨ x = p ∨ InPage (allocPage s.cnt) x) →
      wordsOf (fillRound allocPage g s p l).1.mem x = wordsOf s.mem x := by
    intro x hx
    push Not at hx
    rw [hW x hx.1, if_neg hx.2.2, if_neg hx.2.1]
  rw [walkEntry_eq_walk] at hwalk
  rcases PtrWalk.walk_eq_or_reads hS (3 - l') with hsame | ⟨m, hm, x, hx, hxW, hxW'⟩
  · rw [hsame, ← walkEntry_eq_walk] at hwalk
    have haa := (ht.walkEntry_mem (by omega) hwalk).1
    by_cases hap : a = p
    · subst a
      have hdepth := ht.depth_eq (show 3 - l' ≤ 3 by omega) (show 3 - l ≤ 3 by omega) hwalk hp
      rw [hW p haa, if_neg (not_inPage_next hinv ht (by omega) hp), if_pos rfl] at he
      rcases hlarge with h0 | hlg
      · omega
      · rw [← he] at hlg
        exact absurd (.inr hlg) (not_stops_ptr hT)
    · rw [hW a haa, if_neg (not_inPage_next hinv ht (by omega) hwalk), if_neg hap] at he
      exact ⟨hl', a, hwalk, he, hpres, hlarge⟩
  · rw [← walkEntry_eq_walk] at hxW hxW'
    have hxa := (ht.walkEntry_mem (by omega) hxW).1
    have hxp : x = p := by
      rcases hx with hx | hx | hx
      · exact absurd hxa hx
      · exact hx
      · exact absurd hx (not_inPage_next hinv ht (by omega) hxW)
    subst x
    have hdepth := ht.depth_eq (show m ≤ 3 by omega) (show 3 - l ≤ 3 by omega) hxW hp
    have hnew : wordsOf (fillRound allocPage g s p l).1.mem p = allocPage s.cnt ||| epteReadexec ||| epteWrite := by
      rw [hW p hxa, if_neg (not_inPage_next hinv ht (by omega) hp), if_pos rfl]
    obtain ⟨hqa, hqin⟩ := entryAddr_mem hT (eptIndex_toNat_lt g' (2 - m))
    have hq : walkEntry (wordsOf (fillRound allocPage g s p l).1.mem) s.ept.ncr3tbl g' (m + 1) =
        some (allocPage s.cnt ||| (eptIndex g' (2 - m) <<< (3 : UInt64))) := by
      rw [walkEntry_succ_eq_some]
      exact ⟨p, hxW', by rw [hnew]; exact not_stops_ptr hT, by rw [hnew, ptr_and_pageMask hT]⟩
    have hq0 : wordsOf (fillRound allocPage g s p l).1.mem (allocPage s.cnt ||| (eptIndex g' (2 - m) <<< (3 : UInt64))) = 0 := by
      rw [hW _ hqa, if_pos (show InPage (allocPage s.cnt) _ from hqin)]
    rw [← walkEntry_eq_walk] at hwalk
    by_cases hlast : 3 - l' = m + 1
    · rw [hlast, hq, Option.some.injEq] at hwalk
      subst hwalk
      rw [hq0] at he
      subst he
      exact absurd rfl hpres
    · have hstop : walkEntry (wordsOf (fillRound allocPage g s p l).1.mem) s.ept.ncr3tbl g' (m + 2) = none := by
        rw [walkEntry_eq_walk, PtrWalk.walk, ← walkEntry_eq_walk, hq, Option.bind_some, hq0]
        rfl
      have hsome := PtrWalk.walk_isSome_of_le (k := 3 - l') (show m + 2 ≤ 3 - l' by omega)
        (by rw [← walkEntry_eq_walk, hwalk]; rfl)
      rw [← walkEntry_eq_walk, hstop] at hsome
      exact absurd hsome (by simp)

theorem fillRound_poolInv (hinv : PoolInv allocPage s)
    (ht : TableTree (wordsOf s.mem) s.ept.ncr3tbl s.cnt allocPage lv) (hl3 : l ≤ 3)
    (hp : walkEntry (wordsOf s.mem) s.ept.ncr3tbl g (3 - l) = some p) (hcnt : s.cnt < maxnumOfEptbl) :
    PoolInv allocPage (fillRound allocPage g s p l).1 := by
  have htbl := hinv.tbl s.cnt
  have hpg := hinv.pages
  obtain ⟨hpa, hloc⟩ := ht.entry_loc hl3 hp
  have hpT := not_inPage_next hinv ht (by omega) hp
  have htree := fillRound_tree hinv ht hl3 hp
  have hT := pageMarked_fillMid hinv ht hl3 hp
  rw [fillRound_eq htbl] at htree ⊢
  have hRT : pageNum s.ept.ncr3tbl ≠ pageNum (allocPage s.cnt) := fun h => hpg.ne_root s.cnt h.symm
  have hRp : l < 3 → pageNum s.ept.ncr3tbl ≠ pageNum p := by
    intro hl hRp
    rcases hloc with ⟨hl', _⟩ | ⟨_, i, hi, _, hin⟩
    · omega
    · exact hpg.ne_root i (hin.symm.trans hRp.symm)
  constructor
  · simpa using hpg
  · simp only [VtEptState.clearEptBasedOnBitmap_cnt, fillMid_cnt]
    exact hcnt
  · intro i
    simp only [clearEptBasedOnBitmap_tbl_eq, fillMid_tbl htbl]
    by_cases hi : i = s.cnt
    · subst hi
      simp
    · rw [Function.update_of_ne hi]
      exact hinv.tbl i
  · intro i hi
    simp only [VtEptState.clearEptBasedOnBitmap_cnt, fillMid_cnt] at hi
    simp only [clearEptBasedOnBitmap_tbl_eq, fillMid_tbl htbl]
    by_cases his : i = s.cnt
    · subst his
      simp
    · rw [Function.update_of_ne his]
      exact hinv.attached i (by omega)
  · exact ⟨_, by simpa using htree⟩
  · intro i hi
    simp only [clearEptBasedOnBitmap_tbl_eq, fillMid_tbl htbl] at hi
    by_cases his : i = s.cnt
    · subst his
      exact hT.clear_self
    · rw [Function.update_of_ne his] at hi
      have hne : pageNum (allocPage i) ≠ pageNum (allocPage s.cnt) :=
        fun h => his (hpg.inj _ _ (by have := hinv.slots i hi; omega) (by omega) h)
      have hmark : PageMarked (markEntry (s.eptTblAlloc allocPage s.cnt) p l) (allocPage i) := by
        apply ((hinv.marked i hi).alloc allocPage s.cnt).mark
        by_cases hl : l < 3
        · exact .inl hl
        · rcases hloc with ⟨_, hroot⟩ | ⟨hl', _⟩
          · exact .inr fun h => hpg.ne_root i (h.trans hroot)
          · omega
      have hstore : PageMarked (fillMid allocPage s p l) (allocPage i) := by
        by_cases hin : InPage (allocPage i) p
        · have hl : l < 3 := by
            by_contra hl
            rcases hloc with ⟨_, hroot⟩ | ⟨hl', _⟩
            · exact hpg.ne_root i (hin.symm.trans hroot)
            · omega
          apply hmark.store _ hpa hin
          rw [show pageNum (allocPage i) = pageNum p from hin.symm, testBit_markEntry _ _ _ hl]
          simp
        · exact hmark.store_other _ hpa hin
      exact hstore.clear_other hne
  · have hmid : RootUsed (fillMid allocPage s p l) := by
      have halloc : RootUsed (s.eptTblAlloc allocPage s.cnt) := by
        apply hinv.rootUsed.of_page (by simp) (fun j _ => by simp)
        rw [eptTblAlloc_eq s htbl]
        split_ifs
        · exact Function.update_of_ne hRT _ _
        · rfl
      by_cases hl : l < 3
      · apply halloc.of_page (by simp)
        · intro j hj
          simp only [fillMid_mem, eptTblAlloc_ept]
          rw [store_mem_of_not_mem _ _ (by unfold pageNum at hRp ⊢; have := hRp hl; omega)]
          simp
        · simp only [fillMid_storage, eptTblAlloc_ept]
          exact markEntry_storage_of_ne _ _ _ (hRp hl)
      · rcases hloc with ⟨_, hroot⟩ | ⟨hl', _⟩
        · exact halloc.markStore _ hl (by simpa using hroot) hpa
        · omega
    apply hmid.of_page (by simp)
    · intro j hj
      simp only [VtEptState.clearEptBasedOnBitmap_mem, fillMid_ept]
      rw [if_neg (by omega)]
    · simp only [VtEptState.clearEptBasedOnBitmap_storage, fillMid_ept]
      exact Function.update_of_ne hRT _ _
  · intro i hi
    simp only [clearEptBasedOnBitmap_tbl_eq, fillMid_tbl htbl] at hi
    by_cases his : i = s.cnt
    · omega
    · rw [Function.update_of_ne his] at hi
      exact hinv.slots i hi

end Round

theorem curFillLoop_of_not_lt (allocPage : Nat → UInt64) (g : UInt64) {level l : Nat} (fuel : Nat)
    (s : VtEptState) (p : UInt64) (h : ¬level < l) : curFillLoop allocPage g level fuel s p l = (s, p) := by
  cases fuel with
  | zero => rfl
  | succ fuel => rw [curFillLoop_succ, if_neg h]

structure LoopPost (allocPage : Nat → UInt64) (g : UInt64) (level : Nat) (s : VtEptState) (l : Nat)
    (r : VtEptState × UInt64) : Prop where
  inv : PoolInv allocPage r.1
  ept : r.1.ept = s.ept
  avl : r.1.avlPagesizesLen = s.avlPagesizesLen
  cnt : r.1.cnt = s.cnt + (l - level)
  walk : walkEntry (wordsOf r.1.mem) s.ept.ncr3tbl g (3 - level) = some r.2
  upper : ∀ g', ∀ k ≤ 3 - l,
    walkEntry (wordsOf r.1.mem) s.ept.ncr3tbl g' k = walkEntry (wordsOf s.mem) s.ept.ncr3tbl g' k
  leaf : ∀ {g' e : UInt64} {l' : Nat},
    Leaf (wordsOf r.1.mem) s.ept.ncr3tbl g' l' e → Leaf (wordsOf s.mem) s.ept.ncr3tbl g' l' e
  fresh : level < l → wordsOf r.1.mem r.2 = 0

section Loop

variable {allocPage : Nat → UInt64} {g : UInt64} {level : Nat}

theorem LoopPost.stop {s : VtEptState} {p : UInt64} (hinv : PoolInv allocPage s)
    (hp : walkEntry (wordsOf s.mem) s.ept.ncr3tbl g (3 - level) = some p) :
    LoopPost allocPage g level s level (s, p) :=
  ⟨hinv, rfl, rfl, by simp, hp, fun _ _ _ => rfl, id, fun h => absurd h (Nat.lt_irrefl _)⟩

theorem curFillLoop_spec (fuel : Nat) : ∀ (s : VtEptState) (p : UInt64) (l : Nat), PoolInv allocPage s →
    level ≤ l → l ≤ 3 → l - level ≤ fuel → s.cnt + (l - level) ≤ maxnumOfEptbl →
    walkEntry (wordsOf s.mem) s.ept.ncr3tbl g (3 - l) = some p →
    LoopPost allocPage g level s l (curFillLoop allocPage g level fuel s p l) := by
  induction fuel with
  | zero =>
    intro s p l hinv hlev _ hfuel _ hp
    rw [curFillLoop_of_not_lt _ _ _ _ _ (by omega)]
    obtain rfl : l = level := by omega
    exact LoopPost.stop hinv hp
  | succ fuel ih =>
    intro s p l hinv hlev hl3 hfuel hcnt hp
    by_cases hl : level < l
    · rw [curFillLoop_succ, if_pos hl]
      obtain ⟨lv, ht⟩ := hinv.tree
      have ih := ih (fillRound allocPage g s p l).1 (fillRound allocPage g s p l).2 (l - 1)
        (fillRound_poolInv hinv ht hl3 hp (by omega)) (by omega) (by omega) (by omega) (by simp; omega)
        (by simpa using fillRound_walkEntry hinv ht (by omega) hl3 hp)
      refine ⟨ih.inv, by simpa using ih.ept, by simpa using ih.avl, by simp [ih.cnt]; omega,
        by simpa using ih.walk, ?_, ?_, ?_⟩
      · intro g' k hk
        have h := ih.upper g' k (by omega)
        simp only [fillRound_ept] at h
        rw [h, fillRound_walkEntry_of_le hinv ht hl3 hp g' hk]
      · intro g' e l' h
        have h' := @ih.leaf g' e l' (by rwa [fillRound_ept])
        simp only [fillRound_ept] at h'
        exact fillRound_leaf hinv ht (by omega) hl3 hp h'
      · intro _
        by_cases hl1 : level < l - 1
        · exact ih.fresh hl1
        · rw [curFillLoop_of_not_lt _ _ _ _ _ hl1]
          exact fillRound_fresh hinv ht (by omega) hl3 hp
    · rw [curFillLoop_of_not_lt _ _ _ _ _ hl]
      obtain rfl : l = level := by omega
      exact LoopPost.stop hinv hp

end Loop

end Bitvisor.Ept
