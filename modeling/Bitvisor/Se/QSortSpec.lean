import Bitvisor.Se.QSort
import Bitvisor.Lib.Segments
import Mathlib.Algebra.Order.BigOperators.Group.List
import Mathlib.Algebra.Order.Group.Nat

namespace Bitvisor.Se

open ThreeWay

/-! `SeQSort` sorts when `width * (num - 1)` fits in `UINT` and `num` is at
most `2 ^ SE_QSORT_STACKSIZE`. A round on `[low, high]` exchanges elements of
the segment only and leaves `[low, high2]` at most the pivot and
`[low2, high]` at least it (the partition invariant of the `while (true)`
loop); the run keeps the array sorted outside the current segment and the
stacked ones, and since the larger part is stacked, a segment `d` entries
deep has at most `num / 2 ^ d` elements. -/

variable {α : Type} {cmp : α → α → Int}

theorem elemAt_exists {a : List α} {k : Int} (h0 : 0 ≤ k) (hk : k < a.length) :
    ∃ x, elemAt a k = some x := by
  have hk' : k.toNat < a.length := by omega
  exact ⟨a[k.toNat], by rw [elemAt, if_pos h0, List.getElem?_eq_getElem hk']⟩

theorem elemAt_some {a : List α} {k : Int} {x : α} (h : elemAt a k = some x) :
    0 ≤ k ∧ a[k.toNat]? = some x := by
  by_cases h0 : 0 ≤ k
  · rw [elemAt, if_pos h0] at h
    exact ⟨h0, h⟩
  · rw [elemAt, if_neg h0] at h
    cases h

section Swap

variable {a : List α} {i j : Int} {x y : α}

theorem seFastSwap_eq (hij : i ≠ j) (hx : elemAt a i = some x) (hy : elemAt a j = some y) :
    seFastSwap a i j = some ((a.set i.toNat y).set j.toNat x) := by
  rw [seFastSwap, if_neg hij, hx, hy]

theorem elemAt_swap (hx : elemAt a i = some x) (hy : elemAt a j = some y) (k : Int) :
    elemAt ((a.set i.toNat y).set j.toNat x) k =
      if k = j then some x else if k = i then some y else elemAt a k := by
  obtain ⟨hi0, hx'⟩ := elemAt_some hx
  obtain ⟨hj0, hy'⟩ := elemAt_some hy
  have hil := (List.getElem?_eq_some_iff.1 hx').1
  have hjl := (List.getElem?_eq_some_iff.1 hy').1
  by_cases hk : 0 ≤ k
  · rw [elemAt, elemAt, if_pos hk, if_pos hk, List.getElem?_set, List.getElem?_set, List.length_set]
    by_cases hkj : k = j
    · rw [if_pos (by omega), if_pos hjl, if_pos hkj]
    · rw [if_neg (by omega), if_neg hkj]
      by_cases hki : k = i
      · rw [if_pos (by omega), if_pos hil, if_pos hki]
      · rw [if_neg (by omega), if_neg hki]
  · rw [if_neg (by omega), if_neg (by omega), elemAt, elemAt, if_neg hk, if_neg hk]

theorem swapStep_of_elemAt {lo hi : Int} (hx : elemAt a i = some x) (hy : elemAt a j = some y)
    (hi₁ : lo ≤ i) (hi₂ : i ≤ hi) (hj₁ : lo ≤ j) (hj₂ : j ≤ hi) :
    SwapStep lo hi a ((a.set i.toNat y).set j.toNat x) := by
  obtain ⟨hi0, hx'⟩ := elemAt_some hx
  obtain ⟨hj0, hy'⟩ := elemAt_some hy
  obtain ⟨hil, rfl⟩ := List.getElem?_eq_some_iff.1 hx'
  obtain ⟨hjl, rfl⟩ := List.getElem?_eq_some_iff.1 hy'
  exact ⟨i.toNat, j.toNat, hil, hjl, by omega, by omega, by omega, by omega, rfl⟩

theorem swapIfGreater_eq (hx : elemAt a i = some x) (hy : elemAt a j = some y) :
    swapIfGreater cmp a i j = if 0 < cmp x y then seFastSwap a i j else some a := by
  simp only [swapIfGreater, hx, hy]

theorem swapIfGreater_spec (hc : TotalPreorder cmp) {lo hi : Int} (hx : elemAt a i = some x)
    (hy : elemAt a j = some y) (hi₁ : lo ≤ i) (hi₂ : i ≤ hi) (hj₁ : lo ≤ j) (hj₂ : j ≤ hi) :
    ∃ b, swapIfGreater cmp a i j = some b ∧ SwapsWithin lo hi a b ∧
      ∃ x' y', elemAt b i = some x' ∧ elemAt b j = some y' ∧ cmp x' y' ≤ 0 ∧
        (x' = x ∧ y' = y ∨ x' = y ∧ y' = x ∧ 0 < cmp x y) ∧
        ∀ k, k ≠ i → k ≠ j → elemAt b k = elemAt a k := by
  by_cases hgt : 0 < cmp x y
  · have hij : i ≠ j := by
      rintro rfl
      rw [hx, Option.some.injEq] at hy
      subst hy
      have := hc.refl x
      omega
    refine ⟨_, by rw [swapIfGreater_eq hx hy, if_pos hgt, seFastSwap_eq hij hx hy],
      .single (swapStep_of_elemAt hx hy hi₁ hi₂ hj₁ hj₂), y, x, ?_, ?_, hc.le_of_pos hgt,
      .inr ⟨rfl, rfl, hgt⟩, fun k hki hkj => ?_⟩
    · rw [elemAt_swap hx hy, if_neg hij, if_pos rfl]
    · rw [elemAt_swap hx hy, if_pos rfl]
    · rw [elemAt_swap hx hy, if_neg hkj, if_neg hki]
  · exact ⟨a, by rw [swapIfGreater_eq hx hy, if_neg hgt], .refl a, x, y, hx, hy, by omega,
      .inl ⟨rfl, rfl⟩, fun _ _ _ => rfl⟩

end Swap

theorem median3_spec (hc : TotalPreorder cmp) {a : List α} {lo mid hi : Int} (h0 : 0 ≤ lo) (hlm : lo < mid)
    (hmh : mid ≤ hi) (hhi : hi < a.length) :
    ∃ a₁ a₂ a₃, swapIfGreater cmp a lo mid = some a₁ ∧ swapIfGreater cmp a₁ lo hi = some a₂ ∧
      swapIfGreater cmp a₂ mid hi = some a₃ ∧ SwapsWithin lo hi a a₃ ∧
      ∃ p, elemAt a₃ mid = some p ∧ (∀ x, elemAt a₃ lo = some x → cmp x p ≤ 0) ∧
        ∀ z, elemAt a₃ hi = some z → cmp p z ≤ 0 := by
  obtain ⟨x, hx⟩ := elemAt_exists (a := a) h0 (by omega)
  obtain ⟨y, hy⟩ := elemAt_exists (a := a) (k := mid) (by omega) (by omega)
  obtain ⟨z, hz⟩ := elemAt_exists (a := a) (k := hi) (by omega) hhi
  obtain ⟨a₁, h₁, hs₁, x₁, y₁, hx₁, hy₁, hle₁, -, hrest₁⟩ :=
    swapIfGreater_spec hc hx hy (Int.le_refl lo) (by omega) (by omega) hmh
  have hz₁ : ∃ z₁, elemAt a₁ hi = some z₁ := by
    by_cases hmi : mid = hi
    · exact ⟨y₁, hmi ▸ hy₁⟩
    · exact ⟨z, by rw [hrest₁ hi (by omega) (Ne.symm hmi), hz]⟩
  obtain ⟨z₁, hz₁⟩ := hz₁
  obtain ⟨a₂, h₂, hs₂, x₂, z₂, hx₂, hz₂, hle₂, hor₂, hrest₂⟩ :=
    swapIfGreater_spec hc hx₁ hz₁ (Int.le_refl lo) (by omega) (by omega) (Int.le_refl hi)
  have hy₂ : ∃ y₂, elemAt a₂ mid = some y₂ ∧ cmp x₂ y₂ ≤ 0 := by
    by_cases hmi : mid = hi
    · exact ⟨z₂, hmi ▸ hz₂, hle₂⟩
    · refine ⟨y₁, by rw [hrest₂ mid (by omega) hmi, hy₁], ?_⟩
      rcases hor₂ with ⟨rfl, -⟩ | ⟨rfl, -, hgt⟩
      · exact hle₁
      · exact hc.trans (hc.le_of_pos hgt) hle₁
  obtain ⟨y₂, hy₂, hle₂'⟩ := hy₂
  obtain ⟨a₃, h₃, hs₃, y₃, z₃, hy₃, hz₃, hle₃, hor₃, hrest₃⟩ :=
    swapIfGreater_spec hc hy₂ hz₂ (show lo ≤ mid by omega) hmh (by omega) (Int.le_refl hi)
  refine ⟨a₁, a₂, a₃, h₁, h₂, h₃, (hs₁.trans hs₂).trans hs₃, y₃, hy₃, fun x' hx' => ?_, fun z' hz' => ?_⟩
  · rw [hrest₃ lo (by omega) (by omega), hx₂, Option.some.injEq] at hx'
    subst hx'
    rcases hor₃ with ⟨rfl, -⟩ | ⟨rfl, -, -⟩
    · exact hle₂'
    · exact hle₂
  · rw [hz₃, Option.some.injEq] at hz'
    exact hz' ▸ hle₃

section Scans

variable (cmp) {a : List α} {mid : Int} (bound : Int) {p : α}

theorem scanUp_spec (hp : elemAt a mid = some p) (l2 : Int)
    (hread : ∀ k, l2 < k → k < bound → ∃ x, elemAt a k = some x) :
    ∃ l2', scanUp cmp a mid bound l2 = some l2' ∧ l2 < l2' ∧ (l2' ≤ bound ∨ l2' = l2 + 1) ∧
      (∀ k x, l2 < k → k < l2' → elemAt a k = some x → cmp x p ≤ 0) ∧
      (∀ x, l2' < bound → elemAt a l2' = some x → 0 < cmp x p) := by
  fun_induction scanUp cmp a mid bound l2 with
  | case1 l2 hlt x y hy hx hle ih =>
    obtain rfl : y = p := Option.some.inj (hy.symm.trans hp)
    obtain ⟨l2', hs, hgt, hb, hall, hstop⟩ := ih fun k hk₁ hk₂ => hread k (by omega) hk₂
    refine ⟨l2', hs, by omega, by omega, fun k z hk₁ hk₂ hz => ?_, hstop⟩
    rcases Int.lt_or_eq_of_le (show l2 + 1 ≤ k by omega) with hk | rfl
    · exact hall k z hk hk₂ hz
    · rw [hx, Option.some.injEq] at hz
      exact hz ▸ hle
  | case2 l2 hlt x y hy hx hgt =>
    obtain rfl : y = p := Option.some.inj (hy.symm.trans hp)
    refine ⟨l2 + 1, rfl, by omega, by omega, fun k z hk₁ hk₂ _ => absurd hk₂ (by omega), fun z _ hz => ?_⟩
    rw [hx, Option.some.injEq] at hz
    exact hz ▸ Int.lt_of_not_ge hgt
  | case3 l2 hlt hnone =>
    obtain ⟨x, hx⟩ := hread (l2 + 1) (by omega) hlt
    exact (hnone x p hx hp).elim
  | case4 l2 hge =>
    exact ⟨l2 + 1, rfl, by omega, Or.inr rfl, fun k z hk₁ hk₂ _ => absurd hk₂ (by omega),
      fun _ h => absurd h (by omega)⟩

theorem scanDown_spec (test : Int → Bool) (hp : elemAt a mid = some p) (h2 : Int)
    (hread : ∀ k, bound < k → k < h2 → ∃ x, elemAt a k = some x) :
    ∃ h2', scanDown cmp test a mid bound h2 = some h2' ∧ h2' < h2 ∧ (bound ≤ h2' ∨ h2' = h2 - 1) ∧
      (∀ k x, h2' < k → k < h2 → elemAt a k = some x → test (cmp x p) = true) ∧
      (∀ x, bound < h2' → elemAt a h2' = some x → test (cmp x p) = false) := by
  fun_induction scanDown cmp test a mid bound h2 with
  | case1 h2 hlt x y hy hx htest ih =>
    obtain rfl : y = p := Option.some.inj (hy.symm.trans hp)
    obtain ⟨h2', hs, hlt', hb, hall, hstop⟩ := ih fun k hk₁ hk₂ => hread k hk₁ (by omega)
    refine ⟨h2', hs, by omega, by omega, fun k z hk₁ hk₂ hz => ?_, hstop⟩
    rcases Int.lt_or_eq_of_le (show k ≤ h2 - 1 by omega) with hk | rfl
    · exact hall k z hk₁ hk hz
    · rw [hx, Option.some.injEq] at hz
      exact hz ▸ htest
  | case2 h2 hlt x y hy hx htest =>
    obtain rfl : y = p := Option.some.inj (hy.symm.trans hp)
    refine ⟨h2 - 1, rfl, by omega, by omega, fun k z hk₁ hk₂ _ => absurd hk₂ (by omega), fun z _ hz => ?_⟩
    rw [hx, Option.some.injEq] at hz
    exact hz ▸ by simpa using htest
  | case3 h2 hlt hnone =>
    obtain ⟨x, hx⟩ := hread (h2 - 1) hlt (by omega)
    exact (hnone x p hx hp).elim
  | case4 h2 hge =>
    exact ⟨h2 - 1, rfl, by omega, Or.inr rfl, fun k z hk₁ hk₂ _ => absurd hk₂ (by omega),
      fun _ h => absurd h (by omega)⟩

variable {cmp}

theorem scanLow2_spec (hc : TotalPreorder cmp) {hi l2 : Int} (hp : elemAt a mid = some p) (hmid : mid ≤ hi)
    (hl2 : l2 ≤ hi) (hread : ∀ k, l2 < k → k ≤ hi → ∃ x, elemAt a k = some x) :
    ∃ l2', scanLow2 cmp a hi mid l2 = some l2' ∧ l2 < l2' ∧ l2' ≤ hi + 1 ∧
      (∀ k x, l2 < k → k < l2' → elemAt a k = some x → cmp x p ≤ 0) ∧
      (∀ x, l2' ≤ hi → elemAt a l2' = some x → 0 < cmp x p) := by
  by_cases h₁ : mid > l2
  · obtain ⟨l2₁, hs₁, hgt₁, hb₁, hall₁, hstop₁⟩ :=
      scanUp_spec cmp mid hp l2 fun k hk₁ hk₂ => hread k hk₁ (by omega)
    by_cases h₂ : mid ≤ l2₁
    · obtain ⟨l2₂, hs₂, hgt₂, hb₂, hall₂, hstop₂⟩ :=
        scanUp_spec cmp (hi + 1) hp l2₁ fun k hk₁ hk₂ => hread k (by omega) (by omega)
      have hmid₁ : l2₁ = mid := by omega
      have hle₂ : l2₂ ≤ hi + 1 := by omega
      refine ⟨l2₂, by rw [scanLow2, if_pos h₁, hs₁, Option.bind_some, if_pos h₂, hs₂], Int.lt_trans hgt₁ hgt₂,
        hle₂, fun k x hk₁ hk₂ hx => ?_, fun x h => hstop₂ x (by omega)⟩
      rcases Int.lt_trichotomy k l2₁ with hk | rfl | hk
      · exact hall₁ k x hk₁ hk hx
      · rw [hmid₁, hp, Option.some.injEq] at hx
        exact hx ▸ hc.refl p
      · exact hall₂ k x hk hk₂ hx
    · exact ⟨l2₁, by rw [scanLow2, if_pos h₁, hs₁, Option.bind_some, if_neg h₂], hgt₁, by omega, hall₁,
        fun x _ => hstop₁ x (by omega)⟩
  · obtain ⟨l2₂, hs₂, hgt₂, hb₂, hall₂, hstop₂⟩ :=
      scanUp_spec cmp (hi + 1) hp l2 fun k hk₁ hk₂ => hread k hk₁ (by omega)
    exact ⟨l2₂, by rw [scanLow2, if_neg h₁, Option.bind_some, if_pos (by omega), hs₂], hgt₂, by omega, hall₂,
      fun x h => hstop₂ x (by omega)⟩

theorem skipEqual_spec (hc : TotalPreorder cmp) {lo : Int} (h2 : Int) (hp : elemAt a mid = some p) (hlo : lo ≤ mid)
    (hread : ∀ k, lo < k → k ≤ h2 → ∃ x, elemAt a k = some x) :
    ∃ h2', skipEqual cmp a lo mid h2 = some h2' ∧ h2' ≤ h2 ∧
      ∀ k x, h2' < k → k ≤ h2 → elemAt a k = some x → cmp p x ≤ 0 := by
  have heq : ∀ x, (cmp x p == 0) = true → cmp p x ≤ 0 := fun x h => hc.le_of_eq_zero (beq_iff_eq.1 h)
  by_cases h₁ : mid < h2 + 1
  · obtain ⟨h2₁, hs₁, hlt₁, hb₁, hall₁, -⟩ :=
      scanDown_spec cmp mid (fun r => r == 0) hp (h2 + 1) fun k hk₁ hk₂ => hread k (by omega) (by omega)
    by_cases h₂ : mid ≥ h2₁
    · obtain ⟨h2₂, hs₂, hlt₂, -, hall₂, -⟩ :=
        scanDown_spec cmp lo (fun r => r == 0) hp h2₁ fun k hk₁ hk₂ => hread k hk₁ (by omega)
      refine ⟨h2₂, by rw [skipEqual, if_pos h₁, hs₁, Option.bind_some, if_pos h₂, hs₂], by omega,
        fun k x hk₁ hk₂ hx => ?_⟩
      rcases Int.lt_trichotomy k h2₁ with hk | rfl | hk
      · exact heq x (hall₂ k x hk₁ hk hx)
      · rw [show k = mid by omega, hp, Option.some.injEq] at hx
        exact hx ▸ hc.refl p
      · exact heq x (hall₁ k x hk (by omega) hx)
    · exact ⟨h2₁, by rw [skipEqual, if_pos h₁, hs₁, Option.bind_some, if_neg h₂], by omega,
        fun k x hk₁ hk₂ hx => heq x (hall₁ k x hk₁ (by omega) hx)⟩
  · obtain ⟨h2₂, hs₂, hlt₂, -, hall₂, -⟩ :=
      scanDown_spec cmp lo (fun r => r == 0) hp (h2 + 1) fun k hk₁ hk₂ => hread k hk₁ (by omega)
    exact ⟨h2₂, by rw [skipEqual, if_neg h₁, Option.bind_some, if_pos (by omega), hs₂], by omega,
      fun k x hk₁ hk₂ hx => heq x (hall₂ k x hk₁ (by omega) hx)⟩

end Scans

structure LowScan (cmp : α → α → Int) (a : List α) (p : α) (hi l2 l2' : Int) : Prop where
  gt : l2 < l2'
  le : l2' ≤ hi + 1
  below : ∀ k x, l2 < k → k < l2' → elemAt a k = some x → cmp x p ≤ 0
  stop : ∀ x, l2' ≤ hi → elemAt a l2' = some x → 0 < cmp x p

structure HighScan (cmp : α → α → Int) (a : List α) (p : α) (mid h2 h2' : Int) : Prop where
  lt : h2' < h2
  ge : mid ≤ h2' ∨ h2' = h2 - 1
  above : ∀ k x, h2' < k → k < h2 → elemAt a k = some x → 0 < cmp x p
  stop : ∀ x, mid < h2' → elemAt a h2' = some x → cmp x p ≤ 0

structure PartInv (cmp : α → α → Int) (lo hi : Int) (p : α) (a : List α) (mid l2 h2 : Int) : Prop where
  lo_nonneg : 0 ≤ lo
  hi_lt : hi < a.length
  lo_le_l2 : lo ≤ l2
  l2_lt_h2 : l2 < h2
  h2_le : h2 ≤ hi
  lo_le_mid : lo ≤ mid
  mid_le : mid ≤ hi
  pivot : elemAt a mid = some p
  below : ∀ k x, lo ≤ k → k ≤ l2 → elemAt a k = some x → cmp x p ≤ 0
  above : ∀ k x, h2 ≤ k → k < hi → elemAt a k = some x → 0 < cmp x p
  top : ∀ x, elemAt a hi = some x → cmp p x ≤ 0
  mid_lt : mid < h2 ∨ (mid = hi ∧ l2 + 1 = hi)

structure PartPost (cmp : α → α → Int) (lo hi : Int) (p : α) (a : List α) (mid l2 h2 : Int) : Prop where
  hi_lt : hi < a.length
  lo_le_mid : lo ≤ mid
  mid_le : mid ≤ hi
  pivot : elemAt a mid = some p
  below : ∀ k x, lo ≤ k → k < l2 → elemAt a k = some x → cmp x p ≤ 0
  above : ∀ k x, h2 < k → k ≤ hi → elemAt a k = some x → cmp p x ≤ 0
  lo_lt_l2 : lo < l2
  h2_lt : h2 < hi
  h2_lt_l2 : h2 < l2

section Partition

variable {lo hi : Int} {p : α} {a : List α} {mid l2 h2 l2' h2' : Int}

theorem PartInv.read (inv : PartInv cmp lo hi p a mid l2 h2) {k : Int} (h₁ : lo ≤ k) (h₂ : k ≤ hi) :
    ∃ x, elemAt a k = some x :=
  elemAt_exists (by have := inv.lo_nonneg; omega) (by have := inv.hi_lt; omega)

theorem PartInv.highScan (inv : PartInv cmp lo hi p a mid l2 h2) :
    ∃ h2', scanDown cmp (fun r => 0 < r) a mid mid h2 = some h2' ∧ HighScan cmp a p mid h2 h2' := by
  obtain ⟨h2', hs, hlt, hge, habove, hstop⟩ :=
    scanDown_spec cmp mid (fun r => 0 < r) inv.pivot h2 fun k h₁ h₂ =>
      inv.read (by have := inv.lo_le_mid; omega) (by have := inv.h2_le; omega)
  exact ⟨h2', hs, hlt, hge, fun k x h₁ h₂ hx => by simpa using habove k x h₁ h₂ hx,
    fun x h hx => by simpa using hstop x h hx⟩

variable (hc : TotalPreorder cmp)
include hc

theorem PartInv.lowScan (inv : PartInv cmp lo hi p a mid l2 h2) :
    ∃ l2', scanLow2 cmp a hi mid l2 = some l2' ∧ LowScan cmp a p hi l2 l2' := by
  obtain ⟨l2', hs, hgt, hle, hbelow, hstop⟩ := scanLow2_spec hc inv.pivot inv.mid_le
    (show l2 ≤ hi by have := inv.l2_lt_h2; have := inv.h2_le; omega)
    fun k h₁ h₂ => inv.read (by have := inv.lo_le_l2; omega) h₂
  exact ⟨l2', hs, hgt, hle, hbelow, hstop⟩

theorem PartInv.post (inv : PartInv cmp lo hi p a mid l2 h2) (hL : LowScan cmp a p hi l2 l2')
    (hH : HighScan cmp a p mid h2 h2') (hcross : h2' < l2') : PartPost cmp lo hi p a mid l2' h2' where
  hi_lt := inv.hi_lt
  lo_le_mid := inv.lo_le_mid
  mid_le := inv.mid_le
  pivot := inv.pivot
  below k x h₁ h₂ hx := by
    by_cases hk : k ≤ l2
    · exact inv.below k x h₁ hk hx
    · exact hL.below k x (by omega) h₂ hx
  above k x h₁ h₂ hx := by
    rcases Int.lt_or_eq_of_le h₂ with h₂ | rfl
    · apply hc.le_of_pos
      by_cases hk : h2 ≤ k
      · exact inv.above k x hk h₂ hx
      · exact hH.above k x h₁ (by omega) hx
    · exact inv.top x hx
  lo_lt_l2 := by have := inv.lo_le_l2; have := hL.gt; omega
  h2_lt := by have := inv.h2_le; have := hH.lt; omega
  h2_lt_l2 := hcross

theorem PartInv.swap (inv : PartInv cmp lo hi p a mid l2 h2) (hL : LowScan cmp a p hi l2 l2')
    (hH : HighScan cmp a p mid h2 h2') (hcross : ¬h2' < l2') :
    ∃ x y, elemAt a l2' = some x ∧ elemAt a h2' = some y ∧ l2' ≠ h2' ∧ lo ≤ l2' ∧ h2' ≤ hi ∧
      PartInv cmp lo hi p ((a.set l2'.toNat y).set h2'.toNat x) (if mid = h2' then l2' else mid) l2' h2' := by
  obtain ⟨hlo, hlen, hll, hlh, hhh, hlm, hmh, hp, hbelow, habove, htop, hmid⟩ := inv
  have hgt := hL.gt
  have hlt := hH.lt
  have hl2hi : l2' ≤ hi := by omega
  obtain ⟨x, hx⟩ := elemAt_exists (a := a) (k := l2') (by omega) (by omega)
  have hxp := hL.stop x hl2hi hx
  have hmidh2 : mid < h2 := by
    rcases hmid with h | ⟨rfl, hl2⟩
    · exact h
    · have hl2m : l2' = mid := by omega
      rw [hl2m, hp, Option.some.injEq] at hx
      rw [← hx] at hxp
      have := hc.refl p
      omega
  have hmh2' : mid ≤ h2' := by rcases hH.ge with h | h <;> omega
  obtain ⟨y, hy⟩ := elemAt_exists (a := a) (k := h2') (by omega) (by omega)
  have hyp : cmp y p ≤ 0 := by
    rcases Int.lt_or_eq_of_le hmh2' with h | h
    · exact hH.stop y h hy
    · rw [← h, hp, Option.some.injEq] at hy
      exact hy ▸ hc.refl p
  have hne : l2' ≠ h2' := by
    rintro rfl
    rw [hx, Option.some.injEq] at hy
    subst hy
    omega
  have hml : mid ≠ l2' := by
    rintro rfl
    rw [hp, Option.some.injEq] at hx
    subst hx
    have := hc.refl p
    omega
  refine ⟨x, y, hx, hy, hne, by omega, by omega, ?_⟩
  have hswap := elemAt_swap hx hy
  refine ⟨hlo, by simpa using hlen, by omega, by omega, by omega, by split <;> omega, by split <;> omega,
    ?_, fun k z h₁ h₂ hz => ?_, fun k z h₁ h₂ hz => ?_, fun z hz => ?_, ?_⟩
  · by_cases hm : mid = h2'
    · rw [if_pos hm, hswap, if_neg hne, if_pos rfl]
      rw [← hm, hp] at hy
      exact hy.symm
    · rw [if_neg hm, hswap, if_neg hm, if_neg hml]
      exact hp
  · rw [hswap, if_neg (by omega)] at hz
    split at hz
    · rw [Option.some.injEq] at hz
      exact hz ▸ hyp
    · by_cases hk : k ≤ l2
      · exact hbelow k z h₁ hk hz
      · exact hL.below k z (by omega) (by omega) hz
  · rw [hswap] at hz
    split at hz
    · rw [Option.some.injEq] at hz
      exact hz ▸ hxp
    · rw [if_neg (by omega)] at hz
      by_cases hk : h2 ≤ k
      · exact habove k z hk h₂ hz
      · exact hH.above k z (by omega) (by omega) hz
  · rw [hswap, if_neg (by omega), if_neg (by omega)] at hz
    exact htop z hz
  · left
    split <;> omega

theorem partitionLoop_spec (n : Nat) :
    ∀ (a : List α) (mid l2 h2 : Int), (h2 - l2).toNat ≤ n → PartInv cmp lo hi p a mid l2 h2 →
      ∃ a' mid' l2' h2', partitionLoop cmp a hi mid l2 h2 = some (a', mid', l2', h2') ∧
        SwapsWithin lo hi a a' ∧ PartPost cmp lo hi p a' mid' l2' h2' := by
  induction n with
  | zero =>
    intro a mid l2 h2 hn inv
    have := inv.l2_lt_h2
    omega
  | succ n ih =>
    intro a mid l2 h2 hn inv
    obtain ⟨l2', hl, hL⟩ := inv.lowScan hc
    obtain ⟨h2', hh, hH⟩ := inv.highScan
    by_cases hcross : h2' < l2'
    · exact ⟨a, mid, l2', h2', partitionLoop_break hl hh hcross, .refl a, inv.post hc hL hH hcross⟩
    · obtain ⟨x, y, hx, hy, hne, hl₁, hh₁, inv'⟩ := inv.swap hc hL hH hcross
      have hmeasure : (h2' - l2').toNat ≤ n := by have := hL.gt; have := hH.lt; omega
      obtain ⟨a', mid', l2'', h2'', heq, hsw, post⟩ := ih _ _ _ _ hmeasure inv'
      refine ⟨a', mid', l2'', h2'', ?_, ?_, post⟩
      · rw [partitionLoop_swap hl hh hcross (seFastSwap_eq hne hx hy), heq]
      · exact (SwapsWithin.single (swapStep_of_elemAt hx hy hl₁ (by omega) (by omega) hh₁)).trans hsw

end Partition

/-- A round of `SeQSort` on `[lo, hi]` up to the choice of the next segment:
the median of three, the partition loop and the scans over elements equal to
the pivot exchange elements of the segment only, and leave `[lo, h2']` at
most a pivot and `[l2, hi]` at least it. -/
theorem round_spec (hc : TotalPreorder cmp) {a : List α} {lo hi : Int} (mid : Int) (h0 : 0 ≤ lo) (hlm : lo < mid)
    (hmh : mid ≤ hi) (hmid : mid = hi → lo + 1 = hi) (hhi : hi < a.length) :
    ∃ a₁ a₂ a₃ a' mid' l2 h2 h2', swapIfGreater cmp a lo mid = some a₁ ∧
      swapIfGreater cmp a₁ lo hi = some a₂ ∧ swapIfGreater cmp a₂ mid hi = some a₃ ∧
      partitionLoop cmp a₃ hi mid lo hi = some (a', mid', l2, h2) ∧ skipEqual cmp a' lo mid' h2 = some h2' ∧
      SwapsWithin lo hi a a' ∧ lo < l2 ∧ h2' < hi ∧ h2' < l2 ∧
      ∃ p, (∀ (k : Nat) x, lo ≤ k → (k : Int) < l2 → a'[k]? = some x → cmp x p ≤ 0) ∧
        ∀ (k : Nat) x, h2' < k → (k : Int) ≤ hi → a'[k]? = some x → cmp p x ≤ 0 := by
  obtain ⟨a₁, a₂, a₃, h₁, h₂, h₃, hs₃, p, hp, hlop, hphi⟩ := median3_spec hc h0 hlm hmh hhi
  have hlen₃ : hi < a₃.length := by rw [hs₃.length_eq]; exact hhi
  have inv : PartInv cmp lo hi p a₃ mid lo hi :=
    ⟨h0, hlen₃, Int.le_refl lo, by omega, Int.le_refl hi, by omega, hmh, hp,
      fun k x h₁ h₂ hx => hlop x (by rwa [show k = lo by omega] at hx),
      fun k x h₁ h₂ _ => absurd h₂ (by omega), hphi,
      by rcases Int.lt_or_eq_of_le hmh with h | h
         · exact .inl h
         · exact .inr ⟨h, hmid h⟩⟩
  obtain ⟨a', mid', l2, h2, hpart, hs', post⟩ := partitionLoop_spec hc _ a₃ mid lo hi (Nat.le_refl _) inv
  have hlen' : hi < a'.length := post.hi_lt
  have h2hi := post.h2_lt
  obtain ⟨h2', hskip, hle', hge'⟩ := skipEqual_spec hc h2 post.pivot post.lo_le_mid
    fun k h₁ h₂ => elemAt_exists (by omega) (by omega)
  refine ⟨a₁, a₂, a₃, a', mid', l2, h2, h2', h₁, h₂, h₃, hpart, hskip, hs₃.trans hs', post.lo_lt_l2,
    by omega, by have := post.h2_lt_l2; omega, p, fun k x h₁ h₂ hx => ?_, fun k x h₁ h₂ hx => ?_⟩
  · exact post.below k x h₁ h₂ (by rwa [elemAt_natCast])
  · by_cases hk : (k : Int) ≤ h2
    · exact hge' k x h₁ hk (by rwa [elemAt_natCast])
    · exact post.above k x (by omega) h₂ (by rwa [elemAt_natCast])

def segSize (s : Int × Int) : Nat := (s.2 - s.1 + 1).toNat

def DepthOK (n : Nat) : List (Int × Int) → Prop
  | [] => True
  | s :: rest => segSize s * 2 ^ rest.length ≤ n ∧ DepthOK n rest

def work (P : List (Int × Int)) : Nat := (P.map fun s => (s.2 - s.1).toNat).sum

section Depth

variable {n : Nat} {c s t : Int × Int} {stack : List (Int × Int)}

theorem DepthOK.replace (h : DepthOK n (c :: stack)) (hs : segSize s ≤ segSize c) : DepthOK n (s :: stack) :=
  ⟨Nat.le_trans (Nat.mul_le_mul_right _ hs) h.1, h.2⟩

theorem DepthOK.push (h : DepthOK n (c :: stack)) (hs : segSize s ≤ segSize c)
    (ht : 2 * segSize t ≤ segSize c) : DepthOK n (t :: s :: stack) := by
  refine ⟨?_, h.replace hs⟩
  calc segSize t * 2 ^ (s :: stack).length = 2 * segSize t * 2 ^ stack.length := by
        rw [List.length_cons, Nat.pow_succ]
        ac_rfl
    _ ≤ segSize c * 2 ^ stack.length := Nat.mul_le_mul_right _ ht
    _ ≤ n := h.1

theorem DepthOK.length_lt {S : Nat} (h : DepthOK n (c :: stack)) (hc : 2 ≤ segSize c) (hS : n ≤ 2 ^ S) :
    stack.length < S := by
  have hpow : 2 ^ (stack.length + 1) ≤ 2 ^ S :=
    calc 2 ^ (stack.length + 1) = 2 * 2 ^ stack.length := by rw [Nat.pow_succ, Nat.mul_comm]
      _ ≤ segSize c * 2 ^ stack.length := Nat.mul_le_mul_right _ hc
      _ ≤ n := h.1
      _ ≤ 2 ^ S := hS
  have := (Nat.pow_le_pow_iff_right (by decide : 1 < 2)).1 hpow
  omega

end Depth

theorem work_le_of_sublist {P Q : List (Int × Int)} (h : P.Sublist Q) : work P ≤ work Q :=
  (h.map _).sum_le_sum fun _ _ => Nat.zero_le _

def pushNext (X Y : Int × Int) (stack : List (Int × Int)) : Option (Int × Int) × List (Int × Int) :=
  (if Y.1 < Y.2 then some Y else none, if X.1 < X.2 then X :: stack else stack)

def pending (r : Option (Int × Int) × List (Int × Int)) : List (Int × Int) := r.1.toList ++ r.2

theorem nextRound_eq {S : Nat} {stack : List (Int × Int)} {low high l2 h2 : Int} (hS : stack.length < S) :
    nextRound S stack low high l2 h2 =
      some (if high - l2 ≤ h2 - low then pushNext (low, h2) (l2, high) stack
        else pushNext (l2, high) (low, h2) stack) := by
  rw [nextRound]
  split_ifs <;> simp [push, pushNext, *]

theorem pending_pushNext {n : Nat} {c X Y : Int × Int} {stack : List (Int × Int)} (hd : DepthOK n (c :: stack))
    (hX : segSize X ≤ segSize c) (hY : 2 * segSize Y ≤ segSize c) :
    (pending (pushNext X Y stack)).Sublist (Y :: X :: stack) ∧
      (∀ s ∈ pending (pushNext X Y stack), s ∈ stack ∨ s.1 < s.2) ∧
      (∀ s, s = X ∨ s = Y ∨ s ∈ stack → s.2 ≤ s.1 ∨ s ∈ pending (pushNext X Y stack)) ∧
      DepthOK n (pending (pushNext X Y stack)) := by
  have hY' : segSize Y ≤ segSize c := by omega
  by_cases hYs : Y.1 < Y.2 <;> by_cases hXs : X.1 < X.2 <;>
    simp only [pending, pushNext, if_pos, if_neg, hYs, hXs, not_false_eq_true, Option.toList_some,
      Option.toList_none, List.singleton_append, List.nil_append]
  · refine ⟨List.Sublist.refl _, fun s hs => ?_, fun s hs => .inr ?_, hd.push hX hY⟩
    · rcases List.mem_cons.1 hs with rfl | hs
      · exact .inr hYs
      · rcases List.mem_cons.1 hs with rfl | hs
        · exact .inr hXs
        · exact .inl hs
    · rcases hs with rfl | rfl | hs <;> simp [*]
  · refine ⟨(List.sublist_cons_self X stack).cons_cons Y, fun s hs => ?_, fun s hs => ?_, hd.replace hY'⟩
    · rcases List.mem_cons.1 hs with rfl | hs
      · exact .inr hYs
      · exact .inl hs
    · rcases hs with rfl | rfl | hs
      · exact .inl (by omega)
      · exact .inr List.mem_cons_self
      · exact .inr (List.mem_cons_of_mem _ hs)
  · refine ⟨List.sublist_cons_self Y _, fun s hs => ?_, fun s hs => ?_, hd.replace hX⟩
    · rcases List.mem_cons.1 hs with rfl | hs
      · exact .inr hXs
      · exact .inl hs
    · rcases hs with rfl | rfl | hs
      · exact .inr List.mem_cons_self
      · exact .inl (by omega)
      · exact .inr (List.mem_cons_of_mem _ hs)
  · refine ⟨(List.sublist_cons_self X stack).trans (List.sublist_cons_self Y _), fun s hs => .inl hs,
      fun s hs => ?_, hd.2⟩
    rcases hs with rfl | rfl | hs
    · exact .inl (by omega)
    · exact .inl (by omega)
    · exact .inr hs

structure RunInv (cmp : α → α → Int) (n : Nat) (a₀ a : List α) (P : List (Int × Int)) : Prop where
  length : a.length = n
  perm : a.Perm a₀
  bounds : ∀ s ∈ P, 0 ≤ s.1 ∧ s.1 < s.2 ∧ s.2 < n
  apart : P.Pairwise SegApart
  sorted : SortedOutside cmp P a
  depth : DepthOK n P

theorem RunInv.pushNext {n : Nat} {a₀ a a' : List α} {low high : Int} {X Y : Int × Int}
    {stack : List (Int × Int)} (inv : RunInv cmp n a₀ a ((low, high) :: stack))
    (hsw : SwapsWithin low high a a') (hX : low ≤ X.1 ∧ X.2 ≤ high) (hY : low ≤ Y.1 ∧ Y.2 ≤ high)
    (hXY : SegApart X Y) (hsorted : SortedOutside cmp (X :: Y :: stack) a')
    (hsX : segSize X ≤ segSize (low, high)) (hsY : 2 * segSize Y ≤ segSize (low, high))
    (hwork : (X.2 - X.1).toNat + (Y.2 - Y.1).toNat < (high - low).toNat) :
    RunInv cmp n a₀ a' (pending (pushNext X Y stack)) ∧
      work (pending (pushNext X Y stack)) < work ((low, high) :: stack) := by
  obtain ⟨hsub, hne, hcov, hdepth⟩ := pending_pushNext inv.depth hsX hsY
  obtain ⟨hstack, hpw⟩ := List.pairwise_cons.1 inv.apart
  have hin : ∀ s, low ≤ s.1 ∧ s.2 ≤ high → ∀ t ∈ stack, SegApart s t := by
    intro s hs t ht
    have := hstack t ht
    unfold SegApart at this ⊢
    simp only at this
    omega
  have hpw' : (Y :: X :: stack).Pairwise SegApart :=
    List.pairwise_cons.2 ⟨fun t ht => (List.mem_cons.1 ht).elim (fun h => h ▸ hXY.symm) (hin Y hY t),
      List.pairwise_cons.2 ⟨hin X hX, hpw⟩⟩
  refine ⟨⟨?_, hsw.perm.trans inv.perm, fun s hs => ?_, hpw'.sublist hsub, SortedOutside.of_covers hsorted fun s hs => ?_,
    hdepth⟩, ?_⟩
  · rw [hsw.length_eq, inv.length]
  · have hc := inv.bounds (low, high) List.mem_cons_self
    simp only at hc
    rcases hne s hs with hs₁ | hs₁
    · exact inv.bounds s (List.mem_cons_of_mem _ hs₁)
    · rcases List.mem_cons.1 (hsub.subset hs) with rfl | hs₂
      · omega
      · rcases List.mem_cons.1 hs₂ with rfl | hs₃
        · omega
        · exact inv.bounds s (List.mem_cons_of_mem _ hs₃)
  · apply hcov
    rcases List.mem_cons.1 hs with rfl | hs
    · exact .inl rfl
    · rcases List.mem_cons.1 hs with rfl | hs
      · exact .inr (.inl rfl)
      · exact .inr (.inr hs)
  · have := work_le_of_sublist hsub
    simp only [work, List.map_cons, List.sum_cons] at this ⊢
    omega

/-- The run of `SeQSort` from any state of the invariant, with fuel for the
pairs of indices left, returns a sorted permutation of the input. Each round
is `round_spec`; the part stacked and the part gone on with are the larger
and the smaller one as `nextRound` chooses them. -/
theorem seQSortLoop_spec (hc : TotalPreorder cmp) {width S n : Nat} {a₀ : List α} (hw : 0 < width)
    (hfit : width * (n - 1) < 2 ^ 32) (hS : n ≤ 2 ^ S) (fuel : Nat) :
    ∀ (a : List α) (low high : Int) (stack : List (Int × Int)), RunInv cmp n a₀ a ((low, high) :: stack) →
      work ((low, high) :: stack) < fuel →
      ∃ l, seQSortLoop cmp width S fuel a low high stack = some l ∧ Sorted cmp l ∧ l.Perm a₀ := by
  induction fuel with
  | zero =>
    intro _ _ _ _ _ hwork
    omega
  | succ fuel ih =>
    intro a low high stack inv hwork
    obtain ⟨h0, hlh, hhn⟩ := inv.bounds (low, high) List.mem_cons_self
    simp only at h0 hlh hhn
    have hsize : width * (high - low).toNat % 2 ^ 32 / width + 1 = (high - low).toNat + 1 := by
      have : width * (high - low).toNat < 2 ^ 32 := Nat.lt_of_le_of_lt (Nat.mul_le_mul_left _ (by omega)) hfit
      rw [Nat.mod_eq_of_lt this, Nat.mul_div_cancel_left _ hw]
    obtain ⟨a₁, a₂, a₃, a', mid', l2, h2, h2', h₁, h₂, h₃, hpart, hskip, hsw, hl2, hh2, hcross, p, hle, hge⟩ :=
      round_spec hc (low + (((high - low).toNat + 1) / 2 : Nat)) h0 (by omega) (by omega) (by omega)
        (show high < a.length by rw [inv.length]; exact hhn)
    have hsplit := SortedOutside.split hc inv.sorted (List.pairwise_cons.1 inv.apart).1 hsw hle hge
    have hpush : stack.length < S := inv.depth.length_lt (by simp only [segSize]; omega) hS
    have hnext : RunInv cmp n a₀ a' (pending (if high - l2 ≤ h2' - low then pushNext (low, h2') (l2, high) stack
          else pushNext (l2, high) (low, h2') stack)) ∧
        work (pending (if high - l2 ≤ h2' - low then pushNext (low, h2') (l2, high) stack
          else pushNext (l2, high) (low, h2') stack)) < work ((low, high) :: stack) := by
      split
      · exact inv.pushNext hsw ⟨Int.le_refl _, by simp only; omega⟩ ⟨by simp only; omega, Int.le_refl _⟩
          (.inl hcross) hsplit (by simp only [segSize]; omega) (by simp only [segSize]; omega) (by simp only; omega)
      · refine inv.pushNext hsw ⟨by simp only; omega, Int.le_refl _⟩ ⟨Int.le_refl _, by simp only; omega⟩
          (.inr hcross) (SortedOutside.of_covers hsplit fun s hs => .inr ?_) (by simp only [segSize]; omega)
          (by simp only [segSize]; omega) (by simp only; omega)
        simp only [List.mem_cons] at hs ⊢
        tauto
    simp only [seQSortLoop, hsize, h₁, h₂, h₃, hpart, hskip, nextRound_eq hpush, Option.bind_eq_bind,
      Option.bind_some]
    generalize (if high - l2 ≤ h2' - low then pushNext (low, h2') (l2, high) stack
      else pushNext (l2, high) (low, h2') stack) = r at hnext
    obtain ⟨inv', hwork'⟩ := hnext
    rcases r with ⟨_ | ⟨l, h⟩, stack'⟩
    · rcases stack' with _ | ⟨⟨l, h⟩, rest⟩
      · exact ⟨a', rfl, SortedOutside.sorted inv'.sorted, inv'.perm⟩
      · exact ih a' l h rest inv' (by simp only [pending, Option.toList_none, List.nil_append] at hwork'; omega)
    · exact ih a' l h stack' inv' (by simp only [pending, Option.toList_some, List.singleton_append] at hwork'; omega)

theorem seQSort_eq_loop {a : List α} {ptrSize width : Nat} (h1 : ¬a.length ≤ 1) (hw : 0 < width)
    (hfit : width * (a.length - 1) < 2 ^ 32) :
    seQSort cmp ptrSize width a =
      seQSortLoop cmp width (seQsortStacksize ptrSize) a.length a 0 ((a.length - 1 : Nat) : Int) [] := by
  have hmod : width * (a.length - 1) % 2 ^ 32 = width * (a.length - 1) := Nat.mod_eq_of_lt hfit
  have hdiv : width * (a.length - 1) / width = a.length - 1 := Nat.mul_div_cancel_left _ hw
  have hcond : ¬(width = 0 ∨ width * (a.length - 1) % width ≠ 0) := by
    rw [Nat.mul_mod_right]
    omega
  rw [seQSort, if_neg h1]
  simp only [hmod, hdiv]
  rw [if_neg hcond]

theorem runInv_whole (cmp : α → α → Int) {a : List α} (h1 : ¬a.length ≤ 1) :
    RunInv cmp a.length a a [(0, ((a.length - 1 : Nat) : Int))] ∧
      work [(0, ((a.length - 1 : Nat) : Int))] < a.length := by
  have hlast : ((a.length - 1 : Nat) : Int) = (a.length : Int) - 1 := by omega
  refine ⟨⟨rfl, List.Perm.refl a, fun s hs => ?_, List.pairwise_singleton _ _, ?_, ?_, trivial⟩, ?_⟩
  · rw [List.mem_singleton.1 hs]
    simp only
    omega
  · rw [hlast]
    exact sortedOutside_whole a
  · simp only [segSize, List.length_nil, Nat.pow_zero, Nat.mul_one]
    omega
  · simp only [work, List.map_cons, List.map_nil, List.sum_cons, List.sum_nil]
    omega

/-- `SeQSort` sorts whenever `width * (num - 1)` fits in `UINT` and `num` is
at most `2 ^ SE_QSORT_STACKSIZE`: it returns a sorted permutation of the
array. -/
theorem seQSort_sorted_perm (hc : TotalPreorder cmp) (a : List α) {ptrSize width : Nat} (hw : 0 < width)
    (hfit : width * (a.length - 1) < 2 ^ 32) (hS : a.length ≤ 2 ^ seQsortStacksize ptrSize) :
    ∃ l, seQSort cmp ptrSize width a = some l ∧ Sorted cmp l ∧ l.Perm a := by
  by_cases h1 : a.length ≤ 1
  · exact ⟨a, by rw [seQSort, if_pos h1], sorted_of_length_le_one h1, List.Perm.refl a⟩
  · obtain ⟨inv, hwork⟩ := runInv_whole cmp h1
    rw [seQSort_eq_loop h1 hw hfit]
    exact seQSortLoop_spec hc hw hfit hS a.length a 0 _ [] inv hwork

theorem seQSort_sorted_perm_sub :
    ∃ l, seQSort (fun a b : Int => a - b) 8 8 [3, 1, 2] = some l ∧ Sorted (fun a b : Int => a - b) l ∧
      l.Perm [3, 1, 2] :=
  seQSort_sorted_perm totalPreorder_sub [3, 1, 2] (by decide) (by decide) (by decide)

end Bitvisor.Se
