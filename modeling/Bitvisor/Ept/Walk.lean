import Bitvisor.Ept.Table
import Bitvisor.Lib.PtrWalk

namespace Bitvisor.Ept

/-! The tables as the walk reads them: words of the byte memory, the walk
as a `PtrWalk.walk`, the entry a walk ends on, and the shape of the tables
that every walk stays in. -/

theorem entryBytes_eq (v : UInt64) : entryBytes v = ByteMem.leBytes 8 v.toNat := by
  apply List.ext_getElem (by simp [entryBytes])
  intro k h₁ h₂
  have hk : k < 8 := by simpa [entryBytes] using h₁
  rw [ByteMem.getElem_leBytes]
  apply UInt8.toNat_inj.mp
  have hs : ((8 * k).toUInt64).toNat = 8 * k := by
    rw [Nat.toUInt64, UInt64.toNat_ofNat', Nat.mod_eq_of_lt (by omega)]
  simp only [entryBytes, List.getElem_map, List.getElem_range, UInt64.toNat_toUInt8,
    UInt64.toNat_shiftRight, hs, Nat.mod_eq_of_lt (show 8 * k < 64 by omega), Nat.shiftRight_eq_div_pow,
    Nat.toUInt8_eq, UInt8.toNat_ofNat', Nat.pow_mul]
  norm_num

@[simp] theorem wordsOf_write_self (mem : Nat → UInt8) (p v : UInt64) :
    wordsOf (ByteMem.write mem p.toNat (entryBytes v)) p = v := by
  rw [wordsOf, entryBytes_eq, ByteMem.readLe_write_leBytes, Nat.mod_eq_of_lt (by have := v.toNat_lt; omega)]
  exact UInt64.ofNat_toNat

theorem wordsOf_congr {mem mem' : Nat → UInt8} {x : UInt64}
    (h : ∀ i < 8, mem (x.toNat + i) = mem' (x.toNat + i)) : wordsOf mem x = wordsOf mem' x := by
  rw [wordsOf, wordsOf, ByteMem.readLe_congr h]

theorem wordsOf_of_zero {mem : Nat → UInt8} {x : UInt64} (h : ∀ i < 8, mem (x.toNat + i) = 0) :
    wordsOf mem x = 0 := by
  rw [wordsOf, ByteMem.readLe_of_zero h]
  rfl

theorem wordsOf_write_of_ne (mem : Nat → UInt8) {p x : UInt64} (v : UInt64) (hp : p.toNat % 8 = 0)
    (hx : x.toNat % 8 = 0) (hne : x ≠ p) :
    wordsOf (ByteMem.write mem p.toNat (entryBytes v)) x = wordsOf mem x := by
  have hne' : x.toNat ≠ p.toNat := fun h => hne (UInt64.toNat_inj.mp h)
  have hlen : (entryBytes v).length = 8 := by simp [entryBytes]
  apply wordsOf_congr
  intro i hi
  rcases Nat.lt_or_ge x.toNat p.toNat with hlt | hge
  · exact ByteMem.write_of_lt _ (by omega)
  · exact ByteMem.write_of_ge _ (by omega)

theorem testBit_of_aligned {x : UInt64} {k j : Nat} (hx : x.toNat % 2 ^ k = 0) (hj : j < k) :
    x.toNat.testBit j = false := by
  have h := Nat.testBit_mod_two_pow x.toNat k j
  rw [hx, Nat.zero_testBit] at h
  simpa [hj] using h.symm

theorem toNat_or_of_aligned {b x : UInt64} {k : Nat} (hb : b.toNat % 2 ^ k = 0) (hx : x.toNat < 2 ^ k) :
    (b ||| x).toNat = b.toNat + x.toNat := by
  have hb' : b.toNat = (b.toNat / 2 ^ k) <<< k := by
    rw [Nat.shiftLeft_eq, Nat.div_mul_cancel (Nat.dvd_of_mod_eq_zero hb)]
  rw [UInt64.toNat_or, hb', ← Nat.shiftLeft_add_eq_or_of_lt hx]

theorem eptIndex_toNat_lt (g : UInt64) (l : Nat) : (eptIndex g l).toNat < 512 := by
  have h : (eptIndex g l).toNat ≤ (0x1FF : UInt64).toNat := by
    rw [eptIndex, UInt64.toNat_and]
    exact Nat.and_le_right
  exact Nat.lt_of_le_of_lt h (by decide)

theorem toNat_shiftLeft_three {i : UInt64} (hi : i.toNat < 512) : (i <<< (3 : UInt64)).toNat = 8 * i.toNat := by
  rw [UInt64.toNat_shiftLeft, show (3 : UInt64).toNat % 64 = 3 from rfl, Nat.shiftLeft_eq,
    Nat.mod_eq_of_lt (by omega)]
  omega

theorem toNat_entryAddr {b i : UInt64} (hb : b.toNat % 4096 = 0) (hi : i.toNat < 512) :
    (b ||| (i <<< (3 : UInt64))).toNat = b.toNat + 8 * i.toNat := by
  rw [toNat_or_of_aligned (k := 12) hb (by rw [toNat_shiftLeft_three hi]; omega), toNat_shiftLeft_three hi]

theorem toNat_add_entry {b i : UInt64} (hb : b.toNat % 4096 = 0) (hi : i.toNat < 512) :
    (b + 8 * i).toNat = b.toNat + 8 * i.toNat := by
  have hlt := b.toNat_lt
  rw [UInt64.toNat_add, UInt64.toNat_mul, show (8 : UInt64).toNat = 8 from rfl,
    Nat.mod_eq_of_lt (show 8 * i.toNat < 2 ^ 64 by omega), Nat.mod_eq_of_lt (by omega)]

theorem toNat_and_pageMask (x : UInt64) : (x &&& ~~~(0xFFF : UInt64)).toNat = x.toNat / 4096 * 4096 := by
  apply Nat.eq_of_testBit_eq
  intro j
  rw [UInt64.toNat_and, Nat.testBit_and, show ~~~(0xFFF : UInt64) = 0xFFFFFFFFFFFFF000 by decide,
    show x.toNat / 4096 * 4096 = (x.toNat >>> 12) <<< 12 by
      rw [Nat.shiftLeft_eq, Nat.shiftRight_eq_div_pow],
    Nat.testBit_shiftLeft, Nat.testBit_shiftRight]
  by_cases hj : j < 64
  · rw [testBit_pageMask j hj]
    by_cases h12 : 12 ≤ j
    · simp [h12, Nat.add_sub_cancel' h12]
    · simp [h12]
  · rw [testBit_ge64 x (by omega), Bool.false_and]
    by_cases h12 : 12 ≤ j
    · simp [h12, Nat.add_sub_cancel' h12, testBit_ge64 x (by omega : 64 ≤ j)]
    · simp [h12]

theorem toNat_and_pageMask_mod (x : UInt64) : (x &&& ~~~(0xFFF : UInt64)).toNat % 4096 = 0 := by
  rw [toNat_and_pageMask, Nat.mul_mod_left]

theorem and_pageMask_of_aligned {t : UInt64} (ht : t.toNat % 4096 = 0) (x : UInt64) (hx : x.toNat < 4096) :
    (t ||| x) &&& ~~~(0xFFF : UInt64) = t := by
  apply UInt64.toNat_inj.mp
  rw [toNat_and_pageMask, toNat_or_of_aligned (k := 12) ht hx]
  omega

theorem entryAddr_mem {b i : UInt64} (hb : b.toNat % 4096 = 0) (hi : i.toNat < 512) :
    (b ||| (i <<< (3 : UInt64))).toNat % 8 = 0 ∧ pageNum (b ||| (i <<< (3 : UInt64))) = pageNum b := by
  rw [pageNum, pageNum, toNat_entryAddr hb hi]
  omega

def eptNext (g : UInt64) (k : Nat) (e : UInt64) : Option UInt64 :=
  if e &&& eptePresentMask = 0 ∨ e &&& epteLarge ≠ 0 then none
  else some ((e &&& ~~~(0xFFF : UInt64)) ||| (eptIndex g (2 - k) <<< (3 : UInt64)))

theorem walkEntry_eq_walk (W : Words) (root g : UInt64) (k : Nat) :
    walkEntry W root g k = PtrWalk.walk W (root + 8 * eptIndex g 3) (eptNext g) k := by
  induction k with
  | zero => rfl
  | succ k ih =>
    simp only [walkEntry, PtrWalk.walk, ih]
    rfl

theorem eptNext_eq_none {g : UInt64} {k : Nat} {e : UInt64} (h : Stops e) : eptNext g k e = none :=
  if_pos h

theorem walkEntry_succ_eq_some {W : Words} {root g a : UInt64} {k : Nat} :
    walkEntry W root g (k + 1) = some a ↔
      ∃ b, walkEntry W root g k = some b ∧ ¬Stops (W b) ∧
        a = (W b &&& ~~~(0xFFF : UInt64)) ||| (eptIndex g (2 - k) <<< (3 : UInt64)) := by
  simp only [walkEntry, Option.bind_eq_some_iff]
  constructor
  · rintro ⟨b, hb, h⟩
    split at h
    · cases h
    · exact ⟨b, hb, by assumption, (Option.some.inj h).symm⟩
  · rintro ⟨b, hb, hs, rfl⟩
    exact ⟨b, hb, if_neg hs⟩

/-- The walk of `g` ends at level `l` on the present entry `e`: level 0, or
a large page. This is what the EPT maps `g` to. -/
def Leaf (W : Words) (root g : UInt64) (l : Nat) (e : UInt64) : Prop :=
  l ≤ 3 ∧ ∃ a, walkEntry W root g (3 - l) = some a ∧ W a = e ∧ e &&& eptePresentMask ≠ 0 ∧
    (l = 0 ∨ e &&& epteLarge ≠ 0)

/-- `g` and `g'` have the same entries from level 3 down to level `l`: the
walk cannot tell them apart down to there. -/
def SameBlock (l : Nat) (g g' : UInt64) : Prop := ∀ k, l ≤ k → k ≤ 3 → eptIndex g k = eptIndex g' k

theorem leaf_of_dead {W W' : Words} {root g e : UInt64} {l : Nat}
    (hdead : ∀ a, W' a ≠ W a → W' a &&& eptePresentMask = 0) (h : Leaf W' root g l e) :
    Leaf W root g l e := by
  obtain ⟨hl, a, hwalk, he, hpresent, hlarge⟩ := h
  rw [walkEntry_eq_walk] at hwalk
  have hold := PtrWalk.walk_of_dead (fun b hb m => eptNext_eq_none (Or.inl (hdead b hb))) hwalk
  have hsame : W' a = W a := by
    by_contra hne
    exact hpresent (he ▸ hdead a hne)
  exact ⟨hl, a, by rw [walkEntry_eq_walk]; exact hold, hsame ▸ he, hpresent, hlarge⟩

theorem walkEntry_of_sameBlock {W : Words} {root g g' : UInt64} {l : Nat} (h : SameBlock l g g') :
    ∀ k, k + l ≤ 3 → walkEntry W root g k = walkEntry W root g' k := by
  intro k
  induction k with
  | zero => intro hk; simp only [walkEntry, h 3 (by omega) le_rfl]
  | succ k ih =>
    intro hk
    simp only [walkEntry, ih (by omega), h (2 - k) (by omega) (by omega)]

theorem Leaf.of_sameBlock {W : Words} {root g g' e : UInt64} {l : Nat} (hs : SameBlock l g g')
    (h : Leaf W root g' l e) : Leaf W root g l e := by
  obtain ⟨hl, a, hwalk, hrest⟩ := h
  exact ⟨hl, a, by rw [walkEntry_of_sameBlock hs (3 - l) (by omega)]; exact hwalk, hrest⟩

theorem Leaf.of_kept {W W' : Words} {root g e : UInt64} {l : Nat}
    (hkeep : ∀ k ≤ 3 - l, ∀ a, walkEntry W root g k = some a → W' a = W a) (h : Leaf W root g l e) :
    Leaf W' root g l e := by
  obtain ⟨hl, a, hwalk, hWa, hrest⟩ := h
  have hsame : walkEntry W' root g (3 - l) = walkEntry W root g (3 - l) := by
    rw [walkEntry_eq_walk, walkEntry_eq_walk]
    exact PtrWalk.walk_congr fun m hm b hb => hkeep m (by omega) b (by rw [walkEntry_eq_walk]; exact hb)
  exact ⟨hl, a, hsame.trans hwalk, (hkeep (3 - l) le_rfl a hwalk).trans hWa, hrest⟩

section Pointer

variable {t : UInt64}

theorem ptr_eq (t : UInt64) : t ||| epteReadexec ||| epteWrite = t ||| 7 := by
  rw [UInt64.or_assoc]
  rfl

theorem ptr_and_pageMask (ht : t.toNat % 4096 = 0) :
    (t ||| epteReadexec ||| epteWrite) &&& ~~~(0xFFF : UInt64) = t := by
  rw [ptr_eq]
  exact and_pageMask_of_aligned ht 7 (by decide)

theorem ptr_and_low (ht : t.toNat % 4096 = 0) : (t ||| epteReadexec ||| epteWrite) &&& 0xFFF = 7 := by
  apply UInt64.toNat_inj.mp
  rw [ptr_eq, UInt64.toNat_and, toNat_or_of_aligned (k := 12) ht (by decide),
    show (0xFFF : UInt64).toNat = 2 ^ 12 - 1 from rfl, Nat.and_two_pow_sub_one_eq_mod]
  show (t.toNat + 7) % 4096 = 7
  omega

theorem not_stops_ptr (ht : t.toNat % 4096 = 0) : ¬Stops (t ||| epteReadexec ||| epteWrite) := by
  have hlow := ptr_and_low ht
  have hsplit : ∀ m : UInt64, m &&& 0xFFF = m →
      (t ||| epteReadexec ||| epteWrite) &&& m = 7 &&& m := by
    intro m hm
    rw [show (t ||| epteReadexec ||| epteWrite) &&& m = ((t ||| epteReadexec ||| epteWrite) &&& 0xFFF) &&& m by
      rw [UInt64.and_assoc, UInt64.and_comm 0xFFF m, hm], hlow]
  rintro (h | h)
  · rw [hsplit eptePresentMask (by decide)] at h
    exact absurd h (by decide)
  · rw [hsplit epteLarge (by decide)] at h
    exact h (by decide)

end Pointer

/-- `a` lies in the page of `p`. -/
def InPage (p a : UInt64) : Prop := pageNum a = pageNum p

instance (p a : UInt64) : Decidable (InPage p a) := inferInstanceAs (Decidable (_ = _))

def UpperEntry (root : UInt64) (n : Nat) (pg : Nat → UInt64) (lv : Nat → Nat) (a : UInt64) : Prop :=
  a.toNat % 8 = 0 ∧ (InPage root a ∨ ∃ i < n, 0 < lv i ∧ InPage (pg i) a)

/-- The tables that walks reach: the root, of level 3, and the pages `pg i`
for `i < n`, of level `lv i`. An entry of the root, or of a table above
level 0, that is present and maps no large page points to a table one
level down, and no two such entries point to the same table. -/
structure TableTree (W : Words) (root : UInt64) (n : Nat) (pg : Nat → UInt64) (lv : Nat → Nat) : Prop where
  root_aligned : root.toNat % 4096 = 0
  pg_aligned : ∀ i < n, (pg i).toNat % 4096 = 0
  pg_ne_root : ∀ i < n, pageNum (pg i) ≠ pageNum root
  pg_inj : ∀ i < n, ∀ j < n, pageNum (pg i) = pageNum (pg j) → i = j
  lv_le : ∀ i < n, lv i ≤ 2
  root_points : ∀ a, InPage root a → a.toNat % 8 = 0 → ¬Stops (W a) →
    ∃ j < n, W a = pg j ||| epteReadexec ||| epteWrite ∧ lv j = 2
  table_points : ∀ i < n, 0 < lv i → ∀ a, InPage (pg i) a → a.toNat % 8 = 0 → ¬Stops (W a) →
    ∃ j < n, W a = pg j ||| epteReadexec ||| epteWrite ∧ lv j = lv i - 1
  parent_unique : ∀ a a', UpperEntry root n pg lv a → UpperEntry root n pg lv a' → ¬Stops (W a) →
    ¬Stops (W a') → W a &&& ~~~(0xFFF : UInt64) = W a' &&& ~~~(0xFFF : UInt64) → a = a'

section Tree

variable {W : Words} {root : UInt64} {n : Nat} {pg : Nat → UInt64} {lv : Nat → Nat}

theorem TableTree.walkEntry_mem (ht : TableTree W root n pg lv) {g : UInt64} :
    ∀ {k : Nat} {a : UInt64}, k ≤ 3 → walkEntry W root g k = some a →
      a.toNat % 8 = 0 ∧ ((k = 0 ∧ InPage root a) ∨ (0 < k ∧ ∃ i < n, lv i = 3 - k ∧ InPage (pg i) a))
  | 0, a, _, h => by
    rw [walkEntry, Option.some.injEq] at h
    subst h
    have hr := ht.root_aligned
    have hi := eptIndex_toNat_lt g 3
    refine ⟨by rw [toNat_add_entry hr hi]; omega, .inl ⟨rfl, ?_⟩⟩
    rw [InPage, pageNum, pageNum, toNat_add_entry hr hi]
    omega
  | k + 1, a, hk, h => by
    obtain ⟨b, hb, hgo, rfl⟩ := walkEntry_succ_eq_some.mp h
    obtain ⟨hba, hbin⟩ := ht.walkEntry_mem (by omega) hb
    obtain ⟨j, hj, hptr, hlv⟩ : ∃ j < n, W b = pg j ||| epteReadexec ||| epteWrite ∧ lv j = 3 - (k + 1) := by
      rcases hbin with ⟨rfl, hroot⟩ | ⟨_, i, hi, hlvi, hin⟩
      · exact ht.root_points b hroot hba hgo
      · obtain ⟨j, hj, hptr, hlv⟩ := ht.table_points i hi (by omega) b hin hba hgo
        exact ⟨j, hj, hptr, by omega⟩
    rw [hptr, ptr_and_pageMask (ht.pg_aligned j hj)]
    obtain ⟨ha, hpage⟩ := entryAddr_mem (ht.pg_aligned j hj) (eptIndex_toNat_lt g (2 - k))
    exact ⟨ha, .inr ⟨by omega, j, hj, hlv, hpage⟩⟩

theorem TableTree.depth_eq (ht : TableTree W root n pg lv) {g g' a : UInt64} {k k' : Nat} (hk : k ≤ 3)
    (hk' : k' ≤ 3) (h : walkEntry W root g k = some a) (h' : walkEntry W root g' k' = some a) : k = k' := by
  obtain ⟨_, hin⟩ := ht.walkEntry_mem hk h
  obtain ⟨_, hin'⟩ := ht.walkEntry_mem hk' h'
  rcases hin with ⟨rfl, hroot⟩ | ⟨hpos, i, hi, hlv, hpage⟩ <;>
    rcases hin' with ⟨rfl, hroot'⟩ | ⟨hpos', i', hi', hlv', hpage'⟩
  · rfl
  · exact absurd (hpage'.symm.trans hroot) (ht.pg_ne_root i' hi')
  · exact absurd (hpage.symm.trans hroot') (ht.pg_ne_root i hi)
  · have hii := ht.pg_inj i hi i' hi' (hpage.symm.trans hpage')
    subst hii
    omega

theorem entryAddr_inj {b b' i i' : UInt64} (hb : b.toNat % 4096 = 0) (hb' : b'.toNat % 4096 = 0)
    (hi : i.toNat < 512) (hi' : i'.toNat < 512)
    (h : b ||| (i <<< (3 : UInt64)) = b' ||| (i' <<< (3 : UInt64))) : b = b' ∧ i = i' := by
  have h' := congrArg UInt64.toNat h
  rw [toNat_entryAddr hb hi, toNat_entryAddr hb' hi'] at h'
  exact ⟨UInt64.toNat_inj.mp (by omega), UInt64.toNat_inj.mp (by omega)⟩

theorem TableTree.sameBlock_of_walkEntry (ht : TableTree W root n pg lv) {g g' : UInt64} :
    ∀ {k : Nat} {a : UInt64}, k ≤ 3 → walkEntry W root g k = some a → walkEntry W root g' k = some a →
      SameBlock (3 - k) g g'
  | 0, a, _, h, h' => by
    rw [walkEntry, Option.some.injEq] at h h'
    have hr := ht.root_aligned
    have he := congrArg UInt64.toNat (h.trans h'.symm)
    rw [toNat_add_entry hr (eptIndex_toNat_lt g 3), toNat_add_entry hr (eptIndex_toNat_lt g' 3)] at he
    intro l hl hl3
    rw [show l = 3 by omega]
    exact UInt64.toNat_inj.mp (by omega)
  | k + 1, a, hk, h, h' => by
    obtain ⟨b, hb, hgo, rfl⟩ := walkEntry_succ_eq_some.mp h
    obtain ⟨b', hb', hgo', heq⟩ := walkEntry_succ_eq_some.mp h'
    obtain ⟨hptr, hidx⟩ := entryAddr_inj (toNat_and_pageMask_mod _) (toNat_and_pageMask_mod _)
      (eptIndex_toNat_lt g _) (eptIndex_toNat_lt g' _) heq
    have hupper : ∀ {c : UInt64} {x : UInt64}, walkEntry W root x k = some c → UpperEntry root n pg lv c := by
      intro c x hc
      obtain ⟨hca, hcin⟩ := ht.walkEntry_mem (by omega) hc
      rcases hcin with ⟨_, hroot⟩ | ⟨_, i, hi, hlv, hin⟩
      · exact ⟨hca, .inl hroot⟩
      · exact ⟨hca, .inr ⟨i, hi, by omega, hin⟩⟩
    have hbb := ht.parent_unique b b' (hupper hb) (hupper hb') hgo hgo' hptr
    subst hbb
    have hsame := ht.sameBlock_of_walkEntry (by omega) hb hb'
    intro l hl hl3
    by_cases hlk : l = 2 - k
    · rw [hlk, hidx]
    · exact hsame l (by omega) hl3

theorem TableTree.end_eq (ht : TableTree W root n pg lv) {g g' p : UInt64} {level l : Nat}
    (hl3 : level ≤ 3) (hp : walkEntry W root g (3 - level) = some p) (hl : l ≤ 3)
    (h : walkEntry W root g' (3 - l) = some p) : l = level ∧ SameBlock level g g' := by
  have hd := ht.depth_eq (show 3 - l ≤ 3 by omega) (show 3 - level ≤ 3 by omega) h hp
  have hsb := ht.sameBlock_of_walkEntry (show 3 - level ≤ 3 by omega) hp
    (by rwa [show 3 - level = 3 - l by omega])
  exact ⟨by omega, by rwa [show 3 - (3 - level) = level by omega] at hsb⟩

theorem TableTree.walkEntry_of_kept (ht : TableTree W root n pg lv) {W' : Words}
    (hkept : ∀ a, UpperEntry root n pg lv a → ¬Stops (W a) → W' a = W a) {g b : UInt64} {k : Nat}
    (hk : k ≤ 3) (h : walkEntry W root g k = some b) : walkEntry W' root g k = some b := by
  rw [walkEntry_eq_walk] at h ⊢
  rw [PtrWalk.walk_congr]
  · exact h
  intro m hm c hc
  obtain ⟨hca, hcin⟩ := ht.walkEntry_mem (k := m) (a := c) (by omega) (by rw [walkEntry_eq_walk]; exact hc)
  have hgo : ¬Stops (W c) := by
    intro hstop
    have hnext : (PtrWalk.walk W (root + 8 * eptIndex g 3) (eptNext g) (m + 1)).isSome := by
      exact PtrWalk.walk_isSome_of_le (k := k) (by omega) (by simp [h])
    rw [PtrWalk.walk, hc, Option.bind_some, eptNext_eq_none hstop] at hnext
    exact Bool.false_ne_true hnext
  apply hkept c _ hgo
  rcases hcin with ⟨_, hroot⟩ | ⟨_, i, hi, hlv, hin⟩
  · exact ⟨hca, .inl hroot⟩
  · exact ⟨hca, .inr ⟨i, hi, by omega, hin⟩⟩

theorem TableTree.of_kept (ht : TableTree W root n pg lv) {W' : Words}
    (hsame : ∀ a, UpperEntry root n pg lv a → ¬Stops (W' a) → W' a = W a) : TableTree W' root n pg lv := by
  refine ⟨ht.root_aligned, ht.pg_aligned, ht.pg_ne_root, ht.pg_inj, ht.lv_le, ?_, ?_, ?_⟩
  · intro a hin ha hgo
    have h := hsame a ⟨ha, .inl hin⟩ hgo
    rw [h] at hgo ⊢
    exact ht.root_points a hin ha hgo
  · intro i hi hlv a hin ha hgo
    have h := hsame a ⟨ha, .inr ⟨i, hi, hlv, hin⟩⟩ hgo
    rw [h] at hgo ⊢
    exact ht.table_points i hi hlv a hin ha hgo
  · intro a a' hu hu' hgo hgo' hptr
    have h := hsame a hu hgo
    have h' := hsame a' hu' hgo'
    rw [h] at hgo hptr
    rw [h'] at hgo' hptr
    exact ht.parent_unique a a' hu hu' hgo hgo' hptr

theorem TableTree.of_dead (ht : TableTree W root n pg lv) {W' : Words}
    (hdead : ∀ a, W' a ≠ W a → W' a &&& eptePresentMask = 0) : TableTree W' root n pg lv := by
  apply ht.of_kept
  intro a _ hgo
  by_contra hne
  exact hgo (.inl (hdead a hne))

end Tree

end Bitvisor.Ept
