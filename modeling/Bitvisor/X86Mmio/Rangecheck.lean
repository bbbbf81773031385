import Bitvisor.Lib.MachineInt

namespace Bitvisor.X86Mmio

/-- `struct mmio_handle`; `handler` names the handler function with its `data`. -/
structure MmioHandle where
  gphys : UInt64
  len : UInt32
  handler : Nat
  unregistered : Bool
  unlockedHandler : Bool
  deriving DecidableEq, Repr

/-- `rangecheck`: `none` when it returns 0; otherwise the value `f` its
`ASSERT` checks and what it stores to `*gphys2` and `*len2`. Both ends are
rebased to `h->gphys` in 64-bit arithmetic, so an access below the handle
wraps past `d`. -/
def rangecheck (h : MmioHandle) (gphys : UInt64) (len : UInt32) : Option (Bool × UInt64 × UInt32) :=
  if h.unregistered then none
  else
    let a := gphys - h.gphys
    let b := gphys + len.toUInt64 - 1 - h.gphys
    let c := h.gphys - h.gphys
    let d := h.gphys + h.len.toUInt64 - 1 - h.gphys
    if d < a ∧ a ≤ b then none
    else
      let a := if d < a then c else a
      let b := if d < b then d else b
      let f := decide (a ≤ b)
      let a := a + h.gphys
      let b := b + h.gphys
      some (f, a, (b - a + 1).toUInt32)

/-- The closed ranges `[gphys, gphys + len - 1]` and `[h.gphys, h.gphys + h.len - 1]`
share a byte. -/
def Meets (h : MmioHandle) (gphys : UInt64) (len : UInt32) : Prop :=
  max gphys.toNat h.gphys.toNat ≤ min (gphys.toNat + len.toNat - 1) (h.gphys.toNat + h.len.toNat - 1)

instance (h : MmioHandle) (gphys : UInt64) (len : UInt32) : Decidable (Meets h gphys len) :=
  inferInstanceAs (Decidable (_ ≤ _))

theorem toNat_lastRebased {h : MmioHandle} (hhl : 0 < h.len.toNat)
    (hhw : h.gphys.toNat + h.len.toNat ≤ 2 ^ 64) :
    (h.gphys + h.len.toUInt64 - 1 - h.gphys).toNat = h.len.toNat - 1 := by
  have hhl' : h.len.toUInt64.toNat = h.len.toNat := UInt32.toNat_toUInt64 h.len
  have hhend : (h.gphys + h.len.toUInt64 - 1).toNat = h.gphys.toNat + h.len.toNat - 1 := by
    rw [MachineInt.toNat_add_sub_one] <;> omega
  rw [UInt64.toNat_sub_of_le _ _ (UInt64.le_iff_toNat_le.2 (by omega)), hhend]
  omega

theorem toNat_accessLast {gphys : UInt64} {len : UInt32} (hl : 0 < len.toNat)
    (hw : gphys.toNat + len.toNat ≤ 2 ^ 64) :
    (gphys + len.toUInt64 - 1).toNat = gphys.toNat + len.toNat - 1 := by
  have hl' : len.toUInt64.toNat = len.toNat := UInt32.toNat_toUInt64 len
  rw [MachineInt.toNat_add_sub_one] <;> omega

section Spec

variable {h : MmioHandle} {gphys : UInt64} {len : UInt32}
  (hreg : h.unregistered = false) (hhl : 0 < h.len.toNat)
  (hhw : h.gphys.toNat + h.len.toNat ≤ 2 ^ 64) (hl : 0 < len.toNat)
  (hw : gphys.toNat + len.toNat ≤ 2 ^ 64)

include hhl hhw hl hw in
theorem toNat_clip (hreach : h.gphys.toNat ≤ gphys.toNat + len.toNat - 1) :
    (if h.gphys + h.len.toUInt64 - 1 - h.gphys < gphys + len.toUInt64 - 1 - h.gphys then
      h.gphys + h.len.toUInt64 - 1 - h.gphys else gphys + len.toUInt64 - 1 - h.gphys).toNat =
      min (gphys.toNat + len.toNat) (h.gphys.toNat + h.len.toNat) - 1 - h.gphys.toNat := by
  have hd := toNat_lastRebased hhl hhw
  have hb : (gphys + len.toUInt64 - 1 - h.gphys).toNat = gphys.toNat + len.toNat - 1 - h.gphys.toNat := by
    rw [UInt64.toNat_sub_of_le _ _ (UInt64.le_iff_toNat_le.2 (by rw [toNat_accessLast hl hw]; omega)),
      toNat_accessLast hl hw]
  split <;> rename_i hc <;> rw [UInt64.lt_iff_toNat_lt, hb, hd] at hc
  · rw [hd]
    omega
  · rw [hb]
    omega

include hreg hhl hhw hl hw

theorem rangecheck_of_meets (hm : Meets h gphys len) :
    ∃ g₂ l₂, rangecheck h gphys len = some (true, g₂, l₂) ∧ g₂.toNat = max gphys.toNat h.gphys.toNat ∧
      l₂.toNat = min (gphys.toNat + len.toNat) (h.gphys.toNat + h.len.toNat) - max gphys.toNat h.gphys.toNat := by
  unfold Meets at hm
  have hd := toNat_lastRebased hhl hhw
  have hclip := toNat_clip hhl hhw hl hw (by omega)
  have hlen32 := UInt32.toNat_lt len
  by_cases hle : h.gphys.toNat ≤ gphys.toNat
  · have ha : (gphys - h.gphys).toNat = gphys.toNat - h.gphys.toNat :=
      UInt64.toNat_sub_of_le _ _ (UInt64.le_iff_toNat_le.2 hle)
    have hda : ¬ h.gphys + h.len.toUInt64 - 1 - h.gphys < gphys - h.gphys := by
      rw [UInt64.lt_iff_toNat_lt, ha, hd]
      omega
    simp only [rangecheck, hreg, Bool.false_eq_true, if_false, hda, false_and, UInt64.sub_add_cancel]
    generalize (if h.gphys + h.len.toUInt64 - 1 - h.gphys < gphys + len.toUInt64 - 1 - h.gphys then
        h.gphys + h.len.toUInt64 - 1 - h.gphys else gphys + len.toUInt64 - 1 - h.gphys) = b' at hclip ⊢
    have hf : gphys - h.gphys ≤ b' := by
      rw [UInt64.le_iff_toNat_le, ha, hclip]
      omega
    have he : (b' + h.gphys).toNat = min (gphys.toNat + len.toNat) (h.gphys.toNat + h.len.toNat) - 1 := by
      rw [MachineInt.toNat_add_of_lt] <;> omega
    refine ⟨gphys, (b' + h.gphys - gphys + 1).toUInt32, by rw [decide_eq_true hf], by omega, ?_⟩
    rw [MachineInt.toNat_toUInt32_sub_add_one] <;> omega
  · have ha : (gphys - h.gphys).toNat = 2 ^ 64 + gphys.toNat - h.gphys.toNat :=
      MachineInt.toNat_sub_of_lt (by omega)
    have hb : (gphys + len.toUInt64 - 1 - h.gphys).toNat = gphys.toNat + len.toNat - 1 - h.gphys.toNat := by
      rw [UInt64.toNat_sub_of_le _ _ (UInt64.le_iff_toNat_le.2 (by rw [toNat_accessLast hl hw]; omega)),
        toNat_accessLast hl hw]
    have hda : h.gphys + h.len.toUInt64 - 1 - h.gphys < gphys - h.gphys := by
      rw [UInt64.lt_iff_toNat_lt, ha, hd]
      omega
    have hab : ¬ gphys - h.gphys ≤ gphys + len.toUInt64 - 1 - h.gphys := by
      rw [UInt64.le_iff_toNat_le, ha, hb]
      omega
    simp only [rangecheck, hreg, Bool.false_eq_true, if_false, hda, hab, and_false, if_true,
      UInt64.sub_self, UInt64.zero_add]
    generalize (if h.gphys + h.len.toUInt64 - 1 - h.gphys < gphys + len.toUInt64 - 1 - h.gphys then
        h.gphys + h.len.toUInt64 - 1 - h.gphys else gphys + len.toUInt64 - 1 - h.gphys) = b' at hclip ⊢
    have he : (b' + h.gphys).toNat = min (gphys.toNat + len.toNat) (h.gphys.toNat + h.len.toNat) - 1 := by
      rw [MachineInt.toNat_add_of_lt] <;> omega
    refine ⟨h.gphys, (b' + h.gphys - h.gphys + 1).toUInt32, by simp, by omega, ?_⟩
    rw [MachineInt.toNat_toUInt32_sub_add_one] <;> omega

theorem rangecheck_of_not_meets (hm : ¬ Meets h gphys len) : rangecheck h gphys len = none := by
  unfold Meets at hm
  have hd := toNat_lastRebased hhl hhw
  have hlast := toNat_accessLast hl hw
  have hnone : h.gphys + h.len.toUInt64 - 1 - h.gphys < gphys - h.gphys ∧
      gphys - h.gphys ≤ gphys + len.toUInt64 - 1 - h.gphys := by
    by_cases hle : h.gphys.toNat ≤ gphys.toNat
    · have ha : (gphys - h.gphys).toNat = gphys.toNat - h.gphys.toNat :=
        UInt64.toNat_sub_of_le _ _ (UInt64.le_iff_toNat_le.2 hle)
      rw [UInt64.lt_iff_toNat_lt, UInt64.le_iff_toNat_le, ha, hd,
        UInt64.toNat_sub_of_le _ _ (UInt64.le_iff_toNat_le.2 (by omega)), hlast]
      omega
    · have ha : (gphys - h.gphys).toNat = 2 ^ 64 + gphys.toNat - h.gphys.toNat :=
        MachineInt.toNat_sub_of_lt (by omega)
      have hb : (gphys + len.toUInt64 - 1 - h.gphys).toNat =
          2 ^ 64 + (gphys.toNat + len.toNat - 1) - h.gphys.toNat := by
        rw [MachineInt.toNat_sub_of_lt (by omega), hlast]
      rw [UInt64.lt_iff_toNat_lt, UInt64.le_iff_toNat_le, ha, hb, hd]
      omega
  simp only [rangecheck, hreg, Bool.false_eq_true, if_false, hnone, and_self, if_true]

end Spec

theorem rangecheck_intersection (h : MmioHandle) (gphys : UInt64) (len : UInt32)
    (hreg : h.unregistered = false) (hhl : 0 < h.len.toNat)
    (hhw : h.gphys.toNat + h.len.toNat ≤ 2 ^ 64) (hl : 0 < len.toNat)
    (hw : gphys.toNat + len.toNat ≤ 2 ^ 64) :
    ((rangecheck h gphys len).isSome ↔ Meets h gphys len) ∧
      ∀ f g₂ l₂, rangecheck h gphys len = some (f, g₂, l₂) →
        f = true ∧ g₂.toNat = max gphys.toNat h.gphys.toNat ∧
          l₂.toNat = min (gphys.toNat + len.toNat) (h.gphys.toNat + h.len.toNat) - max gphys.toNat h.gphys.toNat := by
  by_cases hm : Meets h gphys len
  · obtain ⟨g₂, l₂, hr, hg₂, hl₂⟩ := rangecheck_of_meets hreg hhl hhw hl hw hm
    refine ⟨by simp [hr, hm], fun f g l he => ?_⟩
    rw [hr, Option.some.injEq, Prod.mk.injEq, Prod.mk.injEq] at he
    obtain ⟨rfl, rfl, rfl⟩ := he
    exact ⟨rfl, hg₂, hl₂⟩
  · have hr := rangecheck_of_not_meets hreg hhl hhw hl hw hm
    simp [hr, hm]

theorem rangecheck_intersection_straddle :
    ((rangecheck ⟨0x1000, 0x10, 0, false, false⟩ 0x1008 0x10).isSome ↔
        Meets ⟨0x1000, 0x10, 0, false, false⟩ 0x1008 0x10) ∧
      ∀ f g₂ l₂, rangecheck ⟨0x1000, 0x10, 0, false, false⟩ 0x1008 0x10 = some (f, g₂, l₂) →
        f = true ∧ g₂.toNat = max 0x1008 0x1000 ∧ l₂.toNat = min (0x1008 + 0x10) (0x1000 + 0x10) - max 0x1008 0x1000 :=
  rangecheck_intersection ⟨0x1000, 0x10, 0, false, false⟩ 0x1008 0x10 rfl (by decide) (by decide) (by decide)
    (by decide)

end Bitvisor.X86Mmio
