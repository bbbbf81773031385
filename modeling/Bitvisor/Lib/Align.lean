import Mathlib

namespace Align

/-! Power-of-two blocks: `x & ~(p - 1)` is the start of the `p`-aligned block
that holds `x`, and the blocks of two sizes that divide each other nest. -/

theorem toNat_not_testBit (x : UInt64) (j : Nat) :
    (~~~x).toNat.testBit j = (decide (j < 64) && !x.toNat.testBit j) := by
  have h : (~~~x).toNat = (~~~x.toBitVec).toNat := rfl
  rw [h, BitVec.testBit_toNat, BitVec.getLsbD_not, ← BitVec.testBit_toNat]
  rfl

theorem toNat_and_not_sub_one (x : UInt64) {p : UInt64} {e : Nat} (hp : p.toNat = 2 ^ e) :
    (x &&& ~~~(p - 1)).toNat = x.toNat / p.toNat * p.toNat := by
  have hp1 : (p - 1).toNat = 2 ^ e - 1 := by
    rw [UInt64.toNat_sub_of_le _ _ (UInt64.le_iff_toNat_le.2 (by rw [hp, UInt64.toNat_one]; exact Nat.one_le_two_pow)),
      hp, UInt64.toNat_one]
  have hx : ∀ j, 64 ≤ j → x.toNat.testBit j = false := fun j hj =>
    Nat.testBit_lt_two_pow (lt_of_lt_of_le x.toNat_lt (Nat.pow_le_pow_right (by omega) hj))
  apply Nat.eq_of_testBit_eq
  intro j
  rw [UInt64.toNat_and, Nat.testBit_and, toNat_not_testBit, hp1, Nat.testBit_two_pow_sub_one, hp,
    ← Nat.shiftRight_eq_div_pow, ← Nat.shiftLeft_eq, Nat.testBit_shiftLeft, Nat.testBit_shiftRight]
  by_cases he : e ≤ j
  · rw [Nat.add_sub_cancel' he]
    by_cases hj : j < 64
    · simp [hj, he, Nat.not_lt.2 he]
    · simp [hx j (by omega)]
  · simp [he, Nat.lt_of_not_le he]

theorem div_mul_le_div_mul_of_dvd {s t : Nat} (g : Nat) (hst : s ∣ t) : g / t * t ≤ g / s * s := by
  have ht := Nat.mod_add_div' g t
  have hs := Nat.mod_add_div' g s
  have hmod : g % s ≤ g % t := Nat.mod_mod_of_dvd g hst ▸ Nat.mod_le _ _
  omega

theorem div_mul_add_le_of_dvd {s t : Nat} (g : Nat) (ht : 0 < t) (hst : s ∣ t) :
    g / s * s + s ≤ g / t * t + t := by
  obtain ⟨c, rfl⟩ := hst
  have hlt : g / s * s < (g / (s * c) * c + c) * s := by
    calc g / s * s ≤ g := Nat.div_mul_le_self g s
      _ < g / (s * c) * (s * c) + s * c := Nat.lt_div_mul_add ht
      _ = (g / (s * c) * c + c) * s := by ring
  have hq : g / s + 1 ≤ g / (s * c) * c + c := Nat.lt_of_mul_lt_mul_right hlt
  calc g / s * s + s = (g / s + 1) * s := by ring
    _ ≤ (g / (s * c) * c + c) * s := Nat.mul_le_mul_right s hq
    _ = g / (s * c) * (s * c) + s * c := by ring

end Align
