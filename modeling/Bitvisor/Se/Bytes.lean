import Mathlib

namespace Bitvisor.Se

/-! Packets as byte lists, read and written the way the C structures lay
them out on a little-endian host: `SeEndian16` and `SeEndian32` fields in
network order, other words in host order. -/

def byteAt (b : List UInt8) (i : Nat) : UInt8 := b.getD i 0

def be16 (b : List UInt8) (i : Nat) : Nat := (byteAt b i).toNat * 256 + (byteAt b (i + 1)).toNat

def le16 (b : List UInt8) (i : Nat) : Nat := (byteAt b i).toNat + (byteAt b (i + 1)).toNat * 256

def le32 (b : List UInt8) (i : Nat) : UInt32 := (le16 b i + le16 b (i + 2) * 65536).toUInt32

def bytesBe16 (v : Nat) : List UInt8 := [(v / 256).toUInt8, v.toUInt8]

def bytesLe16 (v : Nat) : List UInt8 := [v.toUInt8, (v / 256).toUInt8]

def bytesLe32 (v : UInt32) : List UInt8 := bytesLe16 (v.toNat % 65536) ++ bytesLe16 (v.toNat / 65536)

def be32 (b : List UInt8) (i : Nat) : Nat := be16 b i * 65536 + be16 b (i + 2)

def le64 (b : List UInt8) (i : Nat) : UInt64 :=
  (le32 b i).toUInt64 + (le32 b (i + 4)).toUInt64 * 4294967296

def bytesLe64 (v : UInt64) : List UInt8 :=
  bytesLe32 (v.toNat % 4294967296).toUInt32 ++ bytesLe32 (v.toNat / 4294967296).toUInt32

def bytesBe32 (v : Nat) : List UInt8 := bytesBe16 (v / 65536 % 65536) ++ bytesBe16 (v % 65536)

theorem byteAt_append_left {l₁ l₂ : List UInt8} {i : Nat} (h : i < l₁.length) :
    byteAt (l₁ ++ l₂) i = byteAt l₁ i := by
  simp only [byteAt, List.getD_eq_getElem?_getD, List.getElem?_append_left h]

theorem byteAt_append_right {l₁ l₂ : List UInt8} {i : Nat} (h : l₁.length ≤ i) :
    byteAt (l₁ ++ l₂) i = byteAt l₂ (i - l₁.length) := by
  simp only [byteAt, List.getD_eq_getElem?_getD, List.getElem?_append_right h]

@[simp] theorem length_bytesLe32 (v : UInt32) : (bytesLe32 v).length = 4 := rfl

@[simp] theorem length_bytesBe32 (v : Nat) : (bytesBe32 v).length = 4 := rfl

theorem le32_bytesLe32 (v : UInt32) (rest : List UInt8) : le32 (bytesLe32 v ++ rest) 0 = v := by
  have hv := v.toNat_lt
  apply UInt32.toNat_inj.1
  simp only [le32, le16, byteAt, bytesLe32, bytesLe16, List.cons_append, List.nil_append,
    List.getD_cons_zero, List.getD_cons_succ, Nat.toUInt8_eq, UInt8.toNat_ofNat', Nat.reduceAdd,
    Nat.toUInt32_eq, UInt32.toNat_ofNat']
  omega

@[simp] theorem byteAt_cons_zero (a : UInt8) (l : List UInt8) : byteAt (a :: l) 0 = a := rfl

@[simp] theorem byteAt_cons_succ (a : UInt8) (l : List UInt8) (i : Nat) :
    byteAt (a :: l) (i + 1) = byteAt l i := rfl

theorem byteAt_append_length (l r : List UInt8) (i : Nat) : byteAt (l ++ r) (l.length + i) = byteAt r i := by
  rw [byteAt_append_right (by omega), Nat.add_sub_cancel_left]

theorem be16_append_length (l r : List UInt8) (i : Nat) : be16 (l ++ r) (l.length + i) = be16 r i := by
  simp only [be16, Nat.add_assoc, byteAt_append_length]

theorem le16_append_length (l r : List UInt8) (i : Nat) : le16 (l ++ r) (l.length + i) = le16 r i := by
  simp only [le16, Nat.add_assoc, byteAt_append_length]

theorem be32_append_length (l r : List UInt8) (i : Nat) : be32 (l ++ r) (l.length + i) = be32 r i := by
  simp only [be32, Nat.add_assoc, be16_append_length]

theorem le32_append_length (l r : List UInt8) (i : Nat) : le32 (l ++ r) (l.length + i) = le32 r i := by
  simp only [le32, le16, Nat.add_assoc, byteAt_append_length]

@[simp] theorem length_bytesBe16 (v : Nat) : (bytesBe16 v).length = 2 := rfl

@[simp] theorem length_bytesLe16 (v : Nat) : (bytesLe16 v).length = 2 := rfl

@[simp] theorem length_bytesLe64 (v : UInt64) : (bytesLe64 v).length = 8 := rfl

theorem be16_bytesBe16 {v : Nat} (hv : v < 65536) (rest : List UInt8) : be16 (bytesBe16 v ++ rest) 0 = v := by
  simp only [be16, bytesBe16, List.cons_append, byteAt_cons_zero, byteAt_cons_succ, List.nil_append,
    Nat.toUInt8_eq, UInt8.toNat_ofNat']
  omega

theorem be16_bytesLe16 {v : Nat} (hv : v < 65536) (rest : List UInt8) :
    be16 (bytesLe16 v ++ rest) 0 = v % 256 * 256 + v / 256 := by
  simp only [be16, bytesLe16, List.cons_append, byteAt_cons_zero, byteAt_cons_succ, List.nil_append,
    Nat.toUInt8_eq, UInt8.toNat_ofNat']
  omega

theorem le16_bytesLe16 {v : Nat} (hv : v < 65536) (rest : List UInt8) : le16 (bytesLe16 v ++ rest) 0 = v := by
  simp only [le16, bytesLe16, List.cons_append, byteAt_cons_zero, Nat.zero_add, byteAt_cons_succ,
    Nat.toUInt8_eq, UInt8.toNat_ofNat']
  omega

theorem be32_bytesBe32 {v : Nat} (hv : v < 2 ^ 32) (rest : List UInt8) : be32 (bytesBe32 v ++ rest) 0 = v := by
  have h₁ := be16_bytesBe16 (v := v / 65536 % 65536) (by omega) (bytesBe16 (v % 65536) ++ rest)
  have h₂ := be16_append_length (bytesBe16 (v / 65536 % 65536)) (bytesBe16 (v % 65536) ++ rest) 0
  rw [be16_bytesBe16 (by omega)] at h₂
  simp only [be32, bytesBe32, List.append_assoc, length_bytesBe16, Nat.add_zero] at h₁ h₂ ⊢
  rw [h₁, h₂]
  omega

theorem le64_bytesLe64 (v : UInt64) (rest : List UInt8) : le64 (bytesLe64 v ++ rest) 0 = v := by
  have hv := v.toNat_lt
  have h₁ := le32_bytesLe32 (v.toNat % 4294967296).toUInt32 (bytesLe32 (v.toNat / 4294967296).toUInt32 ++ rest)
  have h₂ := le32_append_length (bytesLe32 (v.toNat % 4294967296).toUInt32)
    (bytesLe32 (v.toNat / 4294967296).toUInt32 ++ rest) 0
  rw [le32_bytesLe32] at h₂
  simp only [length_bytesLe32, Nat.add_zero] at h₂
  simp only [le64, bytesLe64, List.append_assoc, h₁, h₂]
  apply UInt64.toNat_inj.mp
  simp only [UInt64.toNat_add, UInt64.toNat_mul, UInt32.toNat_toUInt64, Nat.toUInt32_eq, UInt32.toNat_ofNat',
    UInt64.reduceToNat]
  omega

theorem bytesLe64_le64 {b : List UInt8} (hb : b.length = 8) : bytesLe64 (le64 b 0) = b := by
  match b, hb with
  | [a0, a1, a2, a3, a4, a5, a6, a7], _ =>
    have h0 := a0.toNat_lt
    have h1 := a1.toNat_lt
    have h2 := a2.toNat_lt
    have h3 := a3.toNat_lt
    have h4 := a4.toNat_lt
    have h5 := a5.toNat_lt
    have h6 := a6.toNat_lt
    have h7 := a7.toNat_lt
    simp only [bytesLe64, le64, le32, le16, byteAt, bytesLe32, bytesLe16, List.getD_cons_zero,
      List.getD_cons_succ, List.cons_append, List.nil_append, List.cons.injEq, and_true]
    refine ⟨?_, ?_, ?_, ?_, ?_, ?_, ?_, ?_⟩ <;> apply UInt8.toNat_inj.1 <;>
      simp only [Nat.toUInt8_eq, UInt8.toNat_ofNat', UInt64.toNat_add, UInt64.toNat_mul, UInt32.toNat_toUInt64,
        Nat.toUInt32_eq, UInt32.toNat_ofNat', UInt64.reduceToNat] <;> omega

theorem le64_append_of_length {l : List UInt8} (h : l.length = 8) (r : List UInt8) :
    le64 (l ++ r) 0 = le64 l 0 := by
  conv => lhs; rw [← bytesLe64_le64 h]
  rw [le64_bytesLe64]

theorem bytesLe64_modifyHead_xor (v : UInt64) (c : UInt8) :
    (bytesLe64 v).modifyHead (· ^^^ c) = bytesLe64 (v ^^^ c.toUInt64) := by
  have hc := c.toNat_lt
  have hv := v.toNat_lt
  have hlow : (v ^^^ c.toUInt64).toNat % 256 = v.toNat % 256 ^^^ c.toNat := by
    rw [UInt64.toNat_xor, UInt8.toNat_toUInt64, show (256 : Nat) = 2 ^ 8 from rfl, Nat.xor_mod_two_pow,
      Nat.mod_eq_of_lt (show c.toNat < 2 ^ 8 from hc)]
  have hhigh : (v ^^^ c.toUInt64).toNat / 256 = v.toNat / 256 := by
    rw [UInt64.toNat_xor, UInt8.toNat_toUInt64, show (256 : Nat) = 2 ^ 8 from rfl, ← Nat.shiftRight_eq_div_pow,
      Nat.shiftRight_xor_distrib, Nat.shiftRight_eq_div_pow c.toNat, Nat.div_eq_of_lt (show c.toNat < 2 ^ 8 from hc),
      Nat.xor_zero, Nat.shiftRight_eq_div_pow]
  have hlt : (v ^^^ c.toUInt64).toNat < 2 ^ 64 := (v ^^^ c.toUInt64).toNat_lt
  simp only [bytesLe64, bytesLe32, bytesLe16, List.cons_append, List.nil_append, List.modifyHead_cons,
    List.cons.injEq, and_true]
  refine ⟨?_, ?_, ?_, ?_, ?_, ?_, ?_, ?_⟩ <;> apply UInt8.toNat_inj.1 <;>
    simp only [UInt8.toNat_xor, Nat.toUInt8_eq, UInt8.toNat_ofNat', Nat.toUInt32_eq, UInt32.toNat_ofNat',
      Nat.reducePow]
  · rw [show v.toNat % 4294967296 % 4294967296 % 65536 % 256 = v.toNat % 256 by omega]
    omega
  all_goals omega

theorem bytesBe32_one : bytesBe32 1 = [0, 0, 0, 1] := rfl

theorem be32_one_cons (l : List UInt8) : be32 (0 :: 0 :: 0 :: 1 :: l) 0 = 1 :=
  be32_bytesBe32 (v := 1) (by decide) l

theorem le64_append_length (l r : List UInt8) (i : Nat) : le64 (l ++ r) (l.length + i) = le64 r i := by
  simp only [le64, Nat.add_assoc, le32_append_length]

@[simp] theorem be16_cons_cons (a b : UInt8) (l : List UInt8) (i : Nat) : be16 (a :: b :: l) (i + 2) = be16 l i := by
  rw [show i + 2 = [a, b].length + i by simp only [List.length_cons, List.length_nil]; omega]
  exact be16_append_length [a, b] l i

theorem toNat_toUInt8_of_lt {n : Nat} (h : n < 256) : n.toUInt8.toNat = n := by
  rw [Nat.toUInt8_eq, UInt8.toNat_ofNat']
  omega

section Chunks

variable {α : Type} {L : Nat}

theorem length_flatten_of_forall (xs : List (List α)) (h : ∀ s ∈ xs, s.length = L) :
    xs.flatten.length = xs.length * L := by
  induction xs with
  | nil => simp
  | cons s ss ih =>
    rw [List.flatten_cons, List.length_append, h s List.mem_cons_self, ih fun t ht => h t (List.mem_cons_of_mem s ht),
      List.length_cons, Nat.succ_mul, Nat.add_comm]

theorem range_map_chunk_flatten (xs : List (List α)) (h : ∀ s ∈ xs, s.length = L) :
    (List.range xs.length).map (fun i => (xs.flatten.drop (i * L)).take L) = xs := by
  induction xs with
  | nil => rfl
  | cons s ss ih =>
    have hs : s.length = L := h s List.mem_cons_self
    rw [List.length_cons, List.range_succ_eq_map, List.map_cons, List.map_map, List.flatten_cons]
    congr 1
    · rw [Nat.zero_mul, List.drop_zero, List.take_left' hs]
    · have hih := ih fun t ht => h t (List.mem_cons_of_mem s ht)
      calc (List.range ss.length).map ((fun i => ((s ++ ss.flatten).drop (i * L)).take L) ∘ Nat.succ)
          = (List.range ss.length).map (fun i => (ss.flatten.drop (i * L)).take L) := by
            apply List.map_congr_left
            intro i _
            rw [Function.comp_apply, Nat.succ_mul, Nat.add_comm (i * L) L, List.drop_append,
              List.drop_eq_nil_of_le (by omega), List.nil_append, hs, Nat.add_sub_cancel_left]
        _ = ss := hih

theorem flatten_range'_map_take_drop (l : List α) (r : Nat) :
    ∀ k, l.length ≤ (k + r) * L → ((List.range' k r).map fun i => (l.drop (i * L)).take L).flatten = l.drop (k * L) := by
  induction r with
  | zero =>
    intro k hk
    rw [Nat.add_zero] at hk
    rw [List.range'_zero, List.map_nil, List.flatten_nil, List.drop_eq_nil_of_le hk]
  | succ r ih =>
    intro k hk
    rw [List.range'_succ, List.map_cons, List.flatten_cons, ih (k + 1) (by rwa [Nat.add_assoc, Nat.add_comm 1 r]),
      Nat.succ_mul, ← List.drop_drop, List.take_append_drop]

theorem lt_div_ceil_iff {n k : Nat} (hL : 0 < L) : k < (n + L - 1) / L ↔ k * L < n := by
  rw [← Nat.add_one_le_iff, Nat.le_div_iff_mul_le hL, Nat.succ_mul]
  omega

end Chunks

end Bitvisor.Se
