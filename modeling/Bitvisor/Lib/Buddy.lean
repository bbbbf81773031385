import Mathlib.Data.Nat.Bitwise

namespace Buddy

/-! Blocks of a buddy system as page numbers: a block of level `n` starts at a
multiple of `2 ^ n`, it is the upper half of its parent when bit `n` of its
start is set, and its buddy starts at the start with bit `n` flipped. -/

theorem testBit_false_of_dvd {i a b : ℕ} (h : 2 ^ b ∣ i) (ha : a < b) : i.testBit a = false := by
  obtain ⟨k, rfl⟩ := h
  rw [Nat.testBit_two_pow_mul]
  simp [ha]

theorem dvd_two_pow_succ_iff {i n : ℕ} (h : 2 ^ n ∣ i) :
    2 ^ (n + 1) ∣ i ↔ i.testBit n = false := by
  obtain ⟨k, rfl⟩ := h
  rw [Nat.testBit_two_pow_mul]
  simp only [ge_iff_le, le_refl, decide_true, Nat.sub_self, Nat.testBit_zero, Bool.true_and,
    decide_eq_false_iff_not, pow_succ]
  constructor
  · rintro ⟨c, hc⟩
    rw [Nat.mul_assoc] at hc
    have : k = 2 * c := Nat.eq_of_mul_eq_mul_left (Nat.two_pow_pos n) hc
    omega
  · intro hk
    exact ⟨k / 2, by rw [mul_assoc]; congr 1; omega⟩

theorem dvd_of_dvd_two_pow_succ {i n : ℕ} (h : 2 ^ (n + 1) ∣ i) : 2 ^ n ∣ i :=
  (pow_dvd_pow 2 (Nat.le_succ n)).trans h

theorem level_unique {i a b : ℕ} (ha : 2 ^ a ∣ i) (ta : i.testBit a = true)
    (hb : 2 ^ b ∣ i) (tb : i.testBit b = true) : a = b := by
  rcases Nat.lt_trichotomy a b with hab | hab | hab
  · rw [testBit_false_of_dvd hb hab] at ta
    exact absurd ta Bool.false_ne_true
  · exact hab
  · rw [testBit_false_of_dvd ha hab] at tb
    exact absurd tb Bool.false_ne_true

theorem and_two_pow_ne_zero_iff (i n : ℕ) : i &&& 2 ^ n ≠ 0 ↔ i.testBit n = true := by
  rw [Nat.and_two_pow]
  cases i.testBit n <;> simp

theorem xor_one_eq (k : ℕ) : k ^^^ 1 = if k % 2 = 1 then k - 1 else k + 1 := by
  apply Nat.eq_of_testBit_eq
  intro j
  cases j with
  | zero =>
    rw [Nat.testBit_xor]
    simp only [Nat.testBit_zero]
    by_cases hk : k % 2 = 1
    · have h2 : (k - 1) % 2 = 0 := by omega
      simp [hk, h2]
    · have h2 : (k + 1) % 2 = 1 := by omega
      simp [hk, h2]
  | succ m =>
    have h1 : (1 : ℕ).testBit (m + 1) = false := by
      rw [Nat.testBit_succ]
      simp
    rw [Nat.testBit_xor, h1, Bool.xor_false, Nat.testBit_succ, Nat.testBit_succ]
    congr 1
    split <;> omega

theorem xor_two_pow_of_dvd {i n : ℕ} (h : 2 ^ n ∣ i) :
    i ^^^ 2 ^ n = if i.testBit n then i - 2 ^ n else i + 2 ^ n := by
  obtain ⟨k, rfl⟩ := h
  have hx : 2 ^ n * k ^^^ 2 ^ n = 2 ^ n * (k ^^^ 1) := by
    have := (Nat.shiftLeft_xor_distrib (i := n) (a := k) (b := 1))
    simp only [Nat.shiftLeft_eq, one_mul] at this
    rw [mul_comm (2 ^ n) k, ← this, mul_comm]
  rw [hx, xor_one_eq, Nat.testBit_two_pow_mul]
  simp only [ge_iff_le, le_refl, decide_true, Nat.sub_self, Nat.testBit_zero, Bool.true_and]
  by_cases hk : k % 2 = 1
  · simp only [hk, ↓reduceIte, decide_true]
    rw [Nat.mul_sub, mul_one]
  · simp only [hk, ↓reduceIte, decide_false, Bool.false_eq_true]
    rw [Nat.mul_add, mul_one]

theorem or_two_pow_eq_xor {i n : ℕ} (hb : i.testBit n = false) : i ||| 2 ^ n = i ^^^ 2 ^ n := by
  apply Nat.eq_of_testBit_eq
  intro j
  rw [Nat.testBit_or, Nat.testBit_xor, Nat.testBit_two_pow]
  by_cases hj : n = j
  · subst hj
    simp [hb]
  · simp [hj]

theorem or_two_pow_of_dvd {i n : ℕ} (h : 2 ^ n ∣ i) (hb : i.testBit n = false) :
    i ||| 2 ^ n = i + 2 ^ n := by
  rw [or_two_pow_eq_xor hb, xor_two_pow_of_dvd h, hb]
  rfl

theorem lt_or_two_pow {p c : ℕ} (h : p.testBit c = false) : p < p ||| 2 ^ c := by
  refine lt_of_le_of_ne Nat.left_le_or fun he => ?_
  have h1 := Nat.testBit_or p (2 ^ c) c
  rw [← he, h, Nat.testBit_two_pow_self] at h1
  simp at h1

theorem upper_half {l n : ℕ} (h : 2 ^ (n + 1) ∣ l) :
    2 ^ n ∣ l + 2 ^ n ∧ (l + 2 ^ n).testBit n = true := by
  have hl : 2 ^ n ∣ l := dvd_of_dvd_two_pow_succ h
  have hb : l.testBit n = false := (dvd_two_pow_succ_iff hl).1 h
  refine ⟨Nat.dvd_add hl dvd_rfl, ?_⟩
  have hx := xor_two_pow_of_dvd hl
  rw [hb] at hx
  simp only [Bool.false_eq_true, ↓reduceIte] at hx
  rw [← hx, Nat.testBit_xor, hb, Nat.testBit_two_pow_self]
  rfl

theorem testBit_two_pow_add_of_lt {k x : ℕ} (hx : x < 2 ^ k) (j : ℕ) :
    (2 ^ k + x).testBit j = (decide (j = k) || x.testBit j) := by
  have h := Nat.testBit_two_pow_mul_add 1 hx j
  rw [mul_one] at h
  rw [h]
  by_cases hj : j < k
  · simp [hj, Nat.ne_of_lt hj]
  · have hx' : x.testBit j = false :=
      Nat.testBit_eq_false_of_lt (lt_of_lt_of_le hx (Nat.pow_le_pow_right (by decide) (by omega)))
    have h1 : (1 : ℕ) = 2 ^ 0 := rfl
    rw [if_neg hj, hx', Bool.or_false, h1, Nat.testBit_two_pow]
    by_cases hjk : j = k
    · simp [hjk]
    · simp [hjk]
      omega

theorem two_pow_add_or {k x n : ℕ} (hx : x < 2 ^ k) (hn : n < k) :
    (2 ^ k + x) ||| 2 ^ n = 2 ^ k + (x ||| 2 ^ n) := by
  have hlt : x ||| 2 ^ n < 2 ^ k := Nat.or_lt_two_pow hx (Nat.pow_lt_pow_right (by decide) hn)
  apply Nat.eq_of_testBit_eq
  intro j
  rw [Nat.testBit_or, testBit_two_pow_add_of_lt hx, testBit_two_pow_add_of_lt hlt, Nat.testBit_or,
    Bool.or_assoc]

theorem two_pow_add_xor {k x n : ℕ} (hx : x < 2 ^ k) (hn : n < k) :
    (2 ^ k + x) ^^^ 2 ^ n = 2 ^ k + (x ^^^ 2 ^ n) := by
  have hlt : x ^^^ 2 ^ n < 2 ^ k := Nat.xor_lt_two_pow hx (Nat.pow_lt_pow_right (by decide) hn)
  apply Nat.eq_of_testBit_eq
  intro j
  rw [Nat.testBit_xor, testBit_two_pow_add_of_lt hx, testBit_two_pow_add_of_lt hlt, Nat.testBit_xor,
    Nat.testBit_two_pow]
  by_cases hjk : j = k
  · subst hjk
    simp [Nat.ne_of_lt hn]
  · simp [hjk]

theorem two_pow_add_and {k x n : ℕ} (hx : x < 2 ^ k) (hn : n < k) :
    (2 ^ k + x) &&& 2 ^ n = x &&& 2 ^ n := by
  apply Nat.eq_of_testBit_eq
  intro j
  rw [Nat.testBit_and, testBit_two_pow_add_of_lt hx, Nat.testBit_and, Nat.testBit_two_pow]
  by_cases hjn : n = j
  · subst hjn
    simp [Nat.ne_of_lt hn]
  · simp [hjn]

theorem add_le_of_dvd_of_lt {d h N : ℕ} (hh : d ∣ h) (hN : d ∣ N) (hlt : h < N) : h + d ≤ N := by
  obtain ⟨a, rfl⟩ := hh
  obtain ⟨b, rfl⟩ := hN
  have hab : a < b := Nat.lt_of_mul_lt_mul_left hlt
  calc d * a + d = d * (a + 1) := by rw [Nat.mul_add, Nat.mul_one]
    _ ≤ d * b := Nat.mul_le_mul_left d hab

end Buddy
