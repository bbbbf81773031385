import Mathlib.Data.Nat.Bitwise

namespace Bitvisor.Ept

/-! Bits of 64-bit words: the bit rules for the shifts and masks of
`cur_move`. -/

theorem testBit_shiftLeft64 (x : UInt64) {s : Nat} (hs : s < 64) (j : Nat) :
    (x <<< s.toUInt64).toNat.testBit j = (decide (j < 64) && decide (s ≤ j) && x.toNat.testBit (j - s)) := by
  rw [UInt64.toNat_shiftLeft, Nat.toUInt64, UInt64.toNat_ofNat', Nat.mod_eq_of_lt (by omega : s < 2 ^ 64),
    Nat.mod_eq_of_lt hs, Nat.testBit_mod_two_pow, Nat.testBit_shiftLeft]
  simp only [ge_iff_le, Bool.and_assoc]

theorem testBit_shiftRight64 (x : UInt64) {s : Nat} (hs : s < 64) (j : Nat) :
    (x >>> s.toUInt64).toNat.testBit j = x.toNat.testBit (s + j) := by
  rw [UInt64.toNat_shiftRight, Nat.toUInt64, UInt64.toNat_ofNat', Nat.mod_eq_of_lt (by omega : s < 2 ^ 64),
    Nat.mod_eq_of_lt hs, Nat.testBit_shiftRight]

theorem testBit_and64 (x y : UInt64) (j : Nat) :
    (x &&& y).toNat.testBit j = (x.toNat.testBit j && y.toNat.testBit j) := by
  rw [UInt64.toNat_and, Nat.testBit_and]

theorem testBit_ge64 (x : UInt64) {j : Nat} (hj : 64 ≤ j) : x.toNat.testBit j = false :=
  Nat.testBit_lt_two_pow (Nat.lt_of_lt_of_le x.toNat_lt (Nat.pow_le_pow_right (by omega) hj))

theorem eq_of_testBit64 {x y : UInt64} (h : ∀ j < 64, x.toNat.testBit j = y.toNat.testBit j) : x = y := by
  apply UInt64.toNat_inj.mp
  apply Nat.eq_of_testBit_eq
  intro j
  by_cases hj : j < 64
  · exact h j hj
  · rw [testBit_ge64 x (by omega), testBit_ge64 y (by omega)]

theorem testBit_pageMask : ∀ t < 64, (0xFFFFFFFFFFFFF000 : UInt64).toNat.testBit t = decide (12 ≤ t) := by
  decide

theorem testBit_0x1FF : ∀ t < 64, (0x1FF : UInt64).toNat.testBit t = decide (t < 9) := by
  decide

theorem testBit_0xFF8 : ∀ t < 64, (0xFF8 : UInt64).toNat.testBit t = decide (3 ≤ t ∧ t < 12) := by
  decide

abbrev Words := UInt64 → UInt64

def eptePresentMask : UInt64 := 0x7
def epteLarge : UInt64 := 0x80

/-- `ept->cur`. -/
structure Cur where
  level : Nat
  gphys : UInt64
  entry : Nat → UInt64

structure VtEpt where
  ncr3tbl : UInt64
  cur : Cur

def curMoveUp (gphys : UInt64) : Nat → Cur → UInt64 → Cur
  | 0, c, _ => c
  | fuel + 1, c, mask =>
    if c.level < 4 ∧ gphys &&& mask ≠ c.gphys &&& mask then
      curMoveUp gphys fuel { c with level := c.level + 1 } (mask <<< 9)
    else c

def curMoveDown (mem : Words) (gphys : UInt64) : Nat → Cur → UInt64 → Cur
  | 0, c, _ => c
  | fuel + 1, c, p =>
    if c.level > 0 then
      let e := mem p
      if e &&& eptePresentMask = 0 ∨ e &&& epteLarge ≠ 0 then c
      else
        let p := (e &&& ~~~0xFFF) ||| ((gphys >>> (9 * c.level).toUInt64) &&& 0xFF8)
        curMoveDown mem gphys fuel
          { c with level := c.level - 1, entry := Function.update c.entry (c.level - 1) p } p
    else c

/-- `cur_move (ept, gphys)`. -/
def curMove (mem : Words) (ept : VtEpt) (gphys : UInt64) : VtEpt :=
  let mask : UInt64 := 0xFFFFFFFFFFFFF000
  let mask := if ept.cur.level > 0 then mask <<< (9 * ept.cur.level).toUInt64 else mask
  let c := { curMoveUp gphys 4 ept.cur mask with gphys := gphys }
  if c.level = 0 then { ept with cur := c }
  else if c.level ≥ 4 then
    let p := ept.ncr3tbl + 8 * ((gphys >>> (39 : UInt64)) &&& 0x1FF)
    { ept with cur := curMoveDown mem gphys 3 { c with entry := Function.update c.entry 3 p, level := 3 } p }
  else { ept with cur := curMoveDown mem gphys 3 c (c.entry c.level) }

def eptIndex (g : UInt64) (l : Nat) : UInt64 := (g >>> (12 + 9 * l).toUInt64) &&& 0x1FF

/-- The address of the entry `k` levels below the root on the walk of `g`
from the root table at `root`, that is of level `3 - k`, while the entries
above it are present and map no large page. A table is at its entry's
address bits, `e & ~0xFFF`, as BitVisor writes its entries. -/
def walkEntry (mem : Words) (root g : UInt64) : Nat → Option UInt64
  | 0 => some (root + 8 * eptIndex g 3)
  | k + 1 => (walkEntry mem root g k).bind fun a =>
    if mem a &&& eptePresentMask = 0 ∨ mem a &&& epteLarge ≠ 0 then none
    else some ((mem a &&& ~~~(0xFFF : UInt64)) ||| (eptIndex g (2 - k) <<< (3 : UInt64)))

def CursorOk (mem : Words) (root : UInt64) (c : Cur) : Prop :=
  c.level ≤ 3 ∧ ∀ l, c.level ≤ l → l ≤ 3 → walkEntry mem root c.gphys (3 - l) = some (c.entry l)

theorem index_step (g : UInt64) {l : Nat} (hl : l ≤ 2) :
    (g >>> (9 * (l + 1)).toUInt64) &&& 0xFF8 = eptIndex g l <<< (3 : UInt64) := by
  apply eq_of_testBit64
  intro j hj
  rw [testBit_and64, testBit_shiftRight64 _ (by omega), testBit_0xFF8 j hj, eptIndex,
    show (3 : UInt64) = (3 : Nat).toUInt64 from rfl, testBit_shiftLeft64 _ (by omega), testBit_and64, testBit_shiftRight64 _ (by omega)]
  by_cases hj3 : 3 ≤ j
  · rw [testBit_0x1FF (j - 3) (by omega), show 12 + 9 * l + (j - 3) = 9 * (l + 1) + j by omega]
    by_cases hj12 : j < 12 <;> simp [hj, hj3, hj12] <;> omega
  · simp [hj3]

theorem walkEntry_congr (mem : Words) (root : UInt64) {g g' : UInt64} {L : Nat}
    (h : ∀ j, 12 + 9 * L ≤ j → j < 64 → g.toNat.testBit j = g'.toNat.testBit j) :
    ∀ k, k + L ≤ 3 → walkEntry mem root g k = walkEntry mem root g' k := by
  have hidx : ∀ l, L ≤ l → l ≤ 3 → eptIndex g l = eptIndex g' l := by
    intro l hl hl3
    apply eq_of_testBit64
    intro j hj
    rw [eptIndex, eptIndex, testBit_and64, testBit_and64, testBit_shiftRight64 _ (by omega),
      testBit_shiftRight64 _ (by omega), testBit_0x1FF j hj]
    by_cases hj9 : j < 9
    · rw [h _ (by omega) (by omega)]
    · simp [hj9]
  intro k
  induction k with
  | zero => intro hk; simp only [walkEntry, hidx 3 (by omega) le_rfl]
  | succ k ih =>
    intro hk
    simp only [walkEntry, ih (by omega), hidx (2 - k) (by omega) (by omega)]

def maskAt (L : Nat) : UInt64 := 0xFFFFFFFFFFFFF000 <<< (9 * L).toUInt64

theorem testBit_maskAt {L : Nat} (hL : L ≤ 4) {j : Nat} (hj : j < 64) :
    (maskAt L).toNat.testBit j = decide (12 + 9 * L ≤ j) := by
  rw [maskAt, testBit_shiftLeft64 _ (by omega)]
  by_cases h : 9 * L ≤ j
  · rw [testBit_pageMask (j - 9 * L) (by omega)]
    simp only [hj, h, decide_true, Bool.true_and]
    exact decide_eq_decide.mpr (by omega)
  · simp only [h, decide_false, Bool.and_false, Bool.false_and]
    exact (decide_eq_false (by omega)).symm

theorem maskAt_succ {L : Nat} (hL : L ≤ 3) : maskAt L <<< 9 = maskAt (L + 1) := by
  apply eq_of_testBit64
  intro j hj
  rw [show (9 : UInt64) = (9 : Nat).toUInt64 from rfl, testBit_shiftLeft64 _ (by omega),
    testBit_maskAt (by omega) hj]
  by_cases h : 9 ≤ j
  · rw [testBit_maskAt (by omega) (by omega)]
    simp only [hj, h, decide_true, Bool.true_and]
    exact decide_eq_decide.mpr (by omega)
  · simp only [h, decide_false, Bool.and_false, Bool.false_and]
    exact (decide_eq_false (by omega)).symm

theorem maskAt_zero : maskAt 0 = 0xFFFFFFFFFFFFF000 := by
  decide

theorem testBit_eq_of_mask {g g' : UInt64} {L : Nat} (hL : L ≤ 3)
    (h : g &&& maskAt L = g' &&& maskAt L) :
    ∀ j, 12 + 9 * L ≤ j → j < 64 → g.toNat.testBit j = g'.toNat.testBit j := by
  intro j hj hj64
  have := congrArg (fun x : UInt64 => x.toNat.testBit j) h
  simpa [testBit_and64, testBit_maskAt (by omega : L ≤ 4) hj64, hj] using this

structure UpSpec (g : UInt64) (c r : Cur) : Prop where
  gphys : r.gphys = c.gphys
  entry : r.entry = c.entry
  le : c.level ≤ r.level
  le_four : r.level ≤ 4
  agree : r.level < 4 → g &&& maskAt r.level = c.gphys &&& maskAt r.level

theorem curMoveUp_spec (g : UInt64) :
    ∀ (fuel : Nat) (c : Cur), c.level ≤ 4 → 4 ≤ c.level + fuel →
      UpSpec g c (curMoveUp g fuel c (maskAt c.level)) := by
  intro fuel
  induction fuel with
  | zero =>
    intro c hc hfuel
    rw [curMoveUp]
    exact ⟨rfl, rfl, le_rfl, hc, fun h => by omega⟩
  | succ fuel ih =>
    intro c hc hfuel
    by_cases hup : c.level < 4 ∧ g &&& maskAt c.level ≠ c.gphys &&& maskAt c.level
    · rw [curMoveUp, if_pos hup, maskAt_succ (by omega)]
      have h := ih { c with level := c.level + 1 } (by simp; omega) (by simp; omega)
      exact ⟨h.gphys, h.entry, by have := h.le; simp at this; omega, h.le_four, h.agree⟩
    · rw [curMoveUp, if_neg hup]
      refine ⟨rfl, rfl, le_rfl, hc, fun h => ?_⟩
      by_contra hne
      exact hup ⟨h, hne⟩

def Stops (e : UInt64) : Prop := e &&& eptePresentMask = 0 ∨ e &&& epteLarge ≠ 0

theorem CursorOk.down {mem : Words} {root g : UInt64} {c : Cur} (hok : CursorOk mem root c)
    (hg : c.gphys = g) (hlv : c.level > 0)
    (hgo : ¬(mem (c.entry c.level) &&& eptePresentMask = 0 ∨
      mem (c.entry c.level) &&& epteLarge ≠ 0)) :
    CursorOk mem root
      { c with
        level := c.level - 1
        entry := Function.update c.entry (c.level - 1) ((mem (c.entry c.level) &&& ~~~0xFFF) |||
          ((g >>> (9 * c.level).toUInt64) &&& 0xFF8)) } := by
  have h3 := hok.1
  have hnext : walkEntry mem root g (3 - (c.level - 1)) =
      some ((mem (c.entry c.level) &&& ~~~0xFFF) ||| ((g >>> (9 * c.level).toUInt64) &&& 0xFF8)) := by
    rw [show 3 - (c.level - 1) = (3 - c.level) + 1 by omega, walkEntry,
      ← hg, hok.2 c.level le_rfl h3, Option.bind_some, if_neg hgo, hg,
      show 2 - (3 - c.level) = c.level - 1 by omega,
      ← index_step g (by omega), Nat.sub_add_cancel hlv]
  refine ⟨by simp; omega, fun l hl hl3 => ?_⟩
  simp only at hl ⊢
  by_cases hl' : l = c.level - 1
  · subst hl'
    rw [Function.update_self, hg, hnext]
  · rw [Function.update_of_ne hl', hok.2 l (by omega) hl3]

theorem curMoveDown_spec (mem : Words) (root g : UInt64) :
    ∀ (fuel : Nat) (c : Cur), c.gphys = g → c.level ≤ fuel → CursorOk mem root c →
      (curMoveDown mem g fuel c (c.entry c.level)).gphys = g ∧
      CursorOk mem root (curMoveDown mem g fuel c (c.entry c.level)) ∧
      ((curMoveDown mem g fuel c (c.entry c.level)).level = 0 ∨
        Stops (mem ((curMoveDown mem g fuel c (c.entry c.level)).entry
          (curMoveDown mem g fuel c (c.entry c.level)).level))) := by
  intro fuel
  induction fuel with
  | zero =>
    intro c hg hfuel hok
    rw [curMoveDown]
    exact ⟨hg, hok, Or.inl (by omega)⟩
  | succ fuel ih =>
    intro c hg hfuel hok
    by_cases hlv : c.level > 0
    · rw [curMoveDown, if_pos hlv]
      dsimp only
      by_cases hstop : mem (c.entry c.level) &&& eptePresentMask = 0 ∨
          mem (c.entry c.level) &&& epteLarge ≠ 0
      · rw [if_pos hstop]
        exact ⟨hg, hok, Or.inr hstop⟩
      · rw [if_neg hstop]
        have h := ih _ (by exact hg) (by simp; omega) (hok.down hg hlv hstop)
        simp only [Function.update_self] at h
        exact h
    · rw [curMoveDown, if_neg hlv]
      exact ⟨hg, hok, Or.inl (by omega)⟩

theorem curMove_mask (c : Cur) (hc : c.level ≤ 4) :
    (if c.level > 0 then (0xFFFFFFFFFFFFF000 : UInt64) <<< (9 * c.level).toUInt64
      else 0xFFFFFFFFFFFFF000) = maskAt c.level := by
  split_ifs with h
  · rfl
  · rw [show c.level = 0 by omega, maskAt_zero]

theorem walkEntry_of_unchanged {mem0 mem : Words} {root : UInt64} {c : Cur}
    (hok : CursorOk mem0 root c)
    (hsame : ∀ l, c.level < l → l ≤ 3 → mem (c.entry l) = mem0 (c.entry l)) :
    ∀ k, k + c.level ≤ 3 → walkEntry mem root c.gphys k = walkEntry mem0 root c.gphys k := by
  intro k
  induction k with
  | zero => intro _; rfl
  | succ k ih =>
    intro hk
    have hat : walkEntry mem0 root c.gphys k = some (c.entry (3 - k)) := by
      have h := hok.2 (3 - k) (by omega) (by omega)
      rwa [show 3 - (3 - k) = k by omega] at h
    rw [walkEntry, walkEntry, ih (by omega), hat, Option.bind_some, Option.bind_some,
      hsame (3 - k) (by omega) (by omega)]

theorem cursorOk_of_unchanged {mem0 mem : Words} {root : UInt64} {c : Cur}
    (hok : CursorOk mem0 root c)
    (hsame : ∀ l, c.level < l → l ≤ 3 → mem (c.entry l) = mem0 (c.entry l)) :
    CursorOk mem root c := by
  refine ⟨hok.1, fun l hl hl3 => ?_⟩
  rw [walkEntry_of_unchanged hok hsame (3 - l) (by omega)]
  exact hok.2 l hl hl3

/-- `cur_move (ept, g)` in the memory it reads: the cursor ends at `g`,
holding the walk of `g` from its level up, at level 0 or at an entry that
ends the walk. -/
theorem curMove_spec (mem : Words) (ept : VtEpt) (g : UInt64)
    (hpre : ept.cur.level = 4 ∨ CursorOk mem ept.ncr3tbl ept.cur) :
    (curMove mem ept g).cur.gphys = g ∧ CursorOk mem ept.ncr3tbl (curMove mem ept g).cur ∧
      ((curMove mem ept g).cur.level = 0 ∨
        Stops (mem ((curMove mem ept g).cur.entry (curMove mem ept g).cur.level))) := by
  have hlv : ept.cur.level ≤ 4 := by
    rcases hpre with h | h
    · omega
    · have := h.1; omega
  have hup := curMoveUp_spec g 4 ept.cur hlv (by omega)
  have hcache : (curMoveUp g 4 ept.cur (maskAt ept.cur.level)).level < 4 →
      ∀ l, (curMoveUp g 4 ept.cur (maskAt ept.cur.level)).level ≤ l → l ≤ 3 →
        walkEntry mem ept.ncr3tbl g (3 - l) =
          some ((curMoveUp g 4 ept.cur (maskAt ept.cur.level)).entry l) := by
    intro hr l hl hl3
    have hprev : CursorOk mem ept.ncr3tbl ept.cur := hpre.resolve_left (by have := hup.le; omega)
    rw [walkEntry_congr mem ept.ncr3tbl (testBit_eq_of_mask (by omega) (hup.agree hr)) (3 - l)
      (by omega), hup.entry]
    exact hprev.2 l (by have := hup.le; omega) hl3
  simp only [curMove, curMove_mask ept.cur hlv]
  generalize hr : curMoveUp g 4 ept.cur (maskAt ept.cur.level) = r at hup hcache
  by_cases h0 : r.level = 0
  · rw [if_pos h0]
    exact ⟨rfl, ⟨by simp [h0], fun l hl hl3 => hcache (by omega) l hl hl3⟩, Or.inl h0⟩
  · rw [if_neg h0]
    by_cases h4 : r.level ≥ 4
    · rw [if_pos h4]
      have hroot : walkEntry mem ept.ncr3tbl g 0 =
          some (ept.ncr3tbl + 8 * ((g >>> (39 : UInt64)) &&& 0x1FF)) := rfl
      generalize ept.ncr3tbl + 8 * ((g >>> (39 : UInt64)) &&& 0x1FF) = p at hroot ⊢
      have h := curMoveDown_spec mem ept.ncr3tbl g 3
        { r with gphys := g, entry := Function.update r.entry 3 p, level := 3 } rfl le_rfl
        ⟨le_rfl, fun l hl hl3 => by
          dsimp only at hl ⊢
          rw [show l = 3 by omega, Function.update_self]
          exact hroot⟩
      simp only [Function.update_self] at h
      exact h
    · rw [if_neg h4]
      have hlt : r.level < 4 := by omega
      exact curMoveDown_spec mem ept.ncr3tbl g 3 { r with gphys := g } rfl (by dsimp only; omega)
        ⟨by dsimp only; omega, fun l hl hl3 => hcache hlt l hl hl3⟩

theorem curMove_cursorOk (mem0 mem : Words) (ept : VtEpt) (g : UInt64)
    (hpre : ept.cur.level = 4 ∨
      (CursorOk mem0 ept.ncr3tbl ept.cur ∧
        ∀ l, ept.cur.level < l → l ≤ 3 → mem (ept.cur.entry l) = mem0 (ept.cur.entry l))) :
    (curMove mem ept g).cur.gphys = g ∧ CursorOk mem ept.ncr3tbl (curMove mem ept g).cur ∧
      ((curMove mem ept g).cur.level = 0 ∨
        Stops (mem ((curMove mem ept g).cur.entry (curMove mem ept g).cur.level))) :=
  curMove_spec mem ept g (hpre.imp_right fun h => cursorOk_of_unchanged h.1 h.2)

def cachedMem : Words := fun a =>
  if a = 0x1000 then 0x2007 else if a = 0x2000 then 0x3007 else if a = 0x3000 then 0x4007 else 0

def cachedMem0 : Words := fun a =>
  if a = 0x1000 then 0x2007 else if a = 0x2000 then 0x3007 else 0

def cachedEpt : VtEpt :=
  ⟨0x1000, ⟨1, 0, fun l => if l = 3 then 0x1000 else if l = 2 then 0x2000 else if l = 1 then 0x3000 else 0⟩⟩

theorem curMove_cursorOk_cached :
    (CursorOk cachedMem0 cachedEpt.ncr3tbl cachedEpt.cur ∧
      ∀ l, cachedEpt.cur.level < l → l ≤ 3 →
        cachedMem (cachedEpt.cur.entry l) = cachedMem0 (cachedEpt.cur.entry l)) ∧
    (curMove cachedMem cachedEpt 0x1000).cur.gphys = 0x1000 ∧
      CursorOk cachedMem cachedEpt.ncr3tbl (curMove cachedMem cachedEpt 0x1000).cur ∧
      ((curMove cachedMem cachedEpt 0x1000).cur.level = 0 ∨
        Stops (cachedMem ((curMove cachedMem cachedEpt 0x1000).cur.entry
          (curMove cachedMem cachedEpt 0x1000).cur.level))) := by
  have hok : CursorOk cachedMem0 cachedEpt.ncr3tbl cachedEpt.cur := by
    refine ⟨by decide, fun l h1 h2 => ?_⟩
    obtain rfl | rfl | rfl : l = 1 ∨ l = 2 ∨ l = 3 := by
      change 1 ≤ l at h1
      omega
    all_goals decide
  have hkeep : ∀ l, cachedEpt.cur.level < l → l ≤ 3 →
      cachedMem (cachedEpt.cur.entry l) = cachedMem0 (cachedEpt.cur.entry l) := by
    intro l h1 h2
    obtain rfl | rfl : l = 2 ∨ l = 3 := by
      change 1 < l at h1
      omega
    all_goals decide
  exact ⟨⟨hok, hkeep⟩, curMove_cursorOk cachedMem0 cachedMem cachedEpt 0x1000 (Or.inr ⟨hok, hkeep⟩)⟩

example : (curMove cachedMem cachedEpt 0x1000).cur.level = 0 ∧
    (curMove cachedMem cachedEpt 0x1000).cur.entry 0 = 0x4008 := by
  decide

end Bitvisor.Ept
