import Mathlib

namespace MachineInt

/-! Signed 32-bit arithmetic without overflow: when the mathematical result
lies in the range of `Int32`, the machine operation computes it. -/

theorem toInt_add_of_lt {a b : Int32} (h₁ : -2147483648 ≤ a.toInt + b.toInt)
    (h₂ : a.toInt + b.toInt < 2147483648) : (a + b).toInt = a.toInt + b.toInt := by
  rw [Int32.toInt_add]
  exact Int.bmod_eq_of_le (by omega) (by omega)

theorem toInt_sub_of_lt {a b : Int32} (h₁ : -2147483648 ≤ a.toInt - b.toInt)
    (h₂ : a.toInt - b.toInt < 2147483648) : (a - b).toInt = a.toInt - b.toInt := by
  rw [Int32.toInt_sub]
  exact Int.bmod_eq_of_le (by omega) (by omega)

theorem toInt_mul_of_lt {a b : Int32} (h₁ : -2147483648 ≤ a.toInt * b.toInt)
    (h₂ : a.toInt * b.toInt < 2147483648) : (a * b).toInt = a.toInt * b.toInt := by
  rw [Int32.toInt_mul]
  exact Int.bmod_eq_of_le (by omega) (by omega)

theorem toInt_toInt32 {x : UInt32} (h : x.toNat < 2147483648) : x.toInt32.toInt = x.toNat := by
  rw [← Int32.toInt_toBitVec, UInt32.toBitVec_toInt32, BitVec.toInt_eq_toNat_of_lt (by simp; omega)]
  simp

theorem toInt_toInt32_sub_one {n : Nat} (h : n ≤ 2 ^ 31) : (n.toUInt32 - 1).toInt32.toInt = (n : Int) - 1 := by
  rcases Nat.eq_zero_or_pos n with rfl | hpos
  · decide
  · have hn : n.toUInt32.toNat = n := by simp; omega
    have h1 : (n.toUInt32 - 1).toNat = n - 1 := by
      rw [UInt32.toNat_sub_of_le _ _ (UInt32.le_iff_toNat_le.2 (by simp; omega)), hn]
      simp
    rw [toInt_toInt32 (by omega), h1]
    omega

theorem toNat_add_of_lt {a b : UInt64} (h : a.toNat + b.toNat < 2 ^ 64) :
    (a + b).toNat = a.toNat + b.toNat := by
  rw [UInt64.toNat_add]
  exact Nat.mod_eq_of_lt h

theorem toNat_sub_of_lt {a b : UInt64} (h : a.toNat < b.toNat) :
    (a - b).toNat = 2 ^ 64 + a.toNat - b.toNat := by
  have hb := b.toNat_lt
  rw [UInt64.toNat_sub, Nat.mod_eq_of_lt (by omega)]
  omega

theorem toNat_add_sub_one {a b : UInt64} (h₁ : 0 < a.toNat + b.toNat)
    (h₂ : a.toNat + b.toNat ≤ 2 ^ 64) : (a + b - 1).toNat = a.toNat + b.toNat - 1 := by
  have ha := a.toNat_lt
  rw [UInt64.toNat_sub, UInt64.toNat_add, UInt64.toNat_one]
  rcases Nat.lt_or_ge (a.toNat + b.toNat) (2 ^ 64) with h | h
  · rw [Nat.mod_eq_of_lt h]
    omega
  · have hsum : a.toNat + b.toNat = 2 ^ 64 := by omega
    omega

theorem toNat_toUInt32_sub_add_one {a b : UInt64} (h : a.toNat ≤ b.toNat)
    (h₂ : b.toNat - a.toNat + 1 < 2 ^ 32) : (b - a + 1).toUInt32.toNat = b.toNat - a.toNat + 1 := by
  rw [UInt64.toNat_toUInt32, toNat_add_of_lt, UInt64.toNat_sub_of_le _ _ (UInt64.le_iff_toNat_le.2 h),
    UInt64.toNat_one, Nat.mod_eq_of_lt h₂]
  rw [UInt64.toNat_sub_of_le _ _ (UInt64.le_iff_toNat_le.2 h), UInt64.toNat_one]
  omega

end MachineInt
