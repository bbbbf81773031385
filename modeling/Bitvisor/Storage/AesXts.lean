import Bitvisor.Se.Bytes
import Bitvisor.Lib.ByteMem
import Mathlib.Logic.Function.Iterate
import Mathlib.Data.Nat.Bitwise

namespace Bitvisor.Storage

open Bitvisor.Se

/-! `aes_xts.c` on a byte-addressed memory: the sector is read at `src` and
written at `dst`, which may be the same address. The tweak is the local
`u8 tweak[16]`; its `core_mem_t` quadword views are the little-endian words
at offsets 0 and 8, as on the hosts BitVisor runs on. The AES calls are
parameters. -/

variable {KS : Type}

/-- `AES_set_encrypt_key`, `AES_set_decrypt_key`, `AES_encrypt` and
`AES_decrypt` of the vendored OpenSSL, over a key schedule type `KS`. -/
structure Aes (KS : Type) where
  setEncryptKey : List UInt8 → Nat → KS
  setDecryptKey : List UInt8 → Nat → KS
  encrypt : KS → List UInt8 → List UInt8
  decrypt : KS → List UInt8 → List UInt8

structure Aes.Lawful (aes : Aes KS) : Prop where
  length_encrypt : ∀ k b, (aes.encrypt k b).length = 16
  length_decrypt : ∀ k b, (aes.decrypt k b).length = 16
  decrypt_encrypt : ∀ key bits b, b.length = 16 →
    aes.decrypt (aes.setDecryptKey key bits) (aes.encrypt (aes.setEncryptKey key bits) b) = b
  setEncryptKey_take : ∀ key bits, aes.setEncryptKey key bits = aes.setEncryptKey (key.take (bits / 8)) bits
  setDecryptKey_take : ∀ key bits, aes.setDecryptKey key bits = aes.setDecryptKey (key.take (bits / 8)) bits

/-- `struct aes_xts_keyctx`. -/
structure AesXtsKeyctx (KS : Type) where
  encryptTweakKey : KS
  encryptKey : KS
  decryptTweakKey : KS
  decryptKey : KS

/-- `aes_xts_setkey`: the tweak key from the second half of the key, the data
key from the first. -/
def aesXtsSetkey (aes : Aes KS) (key : List UInt8) (bits : Nat) : AesXtsKeyctx KS :=
  let keybit := bits / 2
  let keylen := keybit / 8
  ⟨aes.setEncryptKey (key.drop keylen) keybit, aes.setEncryptKey key keybit,
    aes.setEncryptKey (key.drop keylen) keybit, aes.setDecryptKey key keybit⟩

/-- `xor128 (dst, src, tweak)` with `dst` and `src` in memory: the low
quadword is written before the high one is read. -/
def xor128 (mem : Nat → UInt8) (dst src : Nat) (tweak : List UInt8) : Nat → UInt8 :=
  let mem := ByteMem.write mem dst (bytesLe64 (le64 (ByteMem.read mem src 8) 0 ^^^ le64 tweak 0))
  ByteMem.write mem (dst + 8) (bytesLe64 (le64 (ByteMem.read mem (src + 8) 8) 0 ^^^ le64 tweak 8))

/-- `shl128`: the two quadwords shifted left by one, the top bit of the low
one carried into the high one; the top bit of the high one is returned. -/
def shl128 (src : List UInt8) : List UInt8 × Bool :=
  let c0 : UInt64 := if le64 src 0 &&& (1 : UInt64) <<< 63 ≠ 0 then 1 else 0
  let c1 : Bool := le64 src 8 &&& (1 : UInt64) <<< 63 != 0
  (bytesLe64 (le64 src 0 <<< 1) ++ bytesLe64 (le64 src 8 <<< 1 ||| c0), c1)

/-- `gf_mul128`: byte 0 takes the feedback `0x87` when a bit was carried out. -/
def gfMul128 (src : List UInt8) : List UInt8 :=
  match shl128 src with
  | (dst, carry) => if carry then dst.modifyHead (· ^^^ 0x87) else dst

def xtsCryptLoop (crypt : List UInt8 → List UInt8) :
    Nat → (Nat → UInt8) → List UInt8 → Nat → Nat → (Nat → UInt8)
  | 0, mem, _, _, _ => mem
  | n + 1, mem, tweak, dst, src =>
      let mem := xor128 mem dst src tweak
      let mem := ByteMem.write mem dst (crypt (ByteMem.read mem dst 16))
      let mem := xor128 mem dst dst tweak
      xtsCryptLoop crypt n mem (gfMul128 tweak) (dst + 16) (src + 16)

/-- `aes_xts_crypt`; `none` is its failed `ASSERT`. For a multiple of 16 the
loop `for (i = sector_size; i > 0; i -= 16)` makes `sector_size / 16` rounds. -/
def aesXtsCrypt (aes : Aes KS) (mem : Nat → UInt8) (dst src : Nat) (crypt : List UInt8 → List UInt8)
    (tk : KS) (lba : UInt64) (sectorSize : Nat) : Option (Nat → UInt8) :=
  if sectorSize % 16 ≠ 0 then none
  else
    let tweak := aes.encrypt tk (bytesLe64 lba ++ bytesLe64 0)
    some (xtsCryptLoop crypt (sectorSize / 16) mem tweak dst src)

def aesXtsEncrypt (aes : Aes KS) (k : AesXtsKeyctx KS) (mem : Nat → UInt8) (dst src : Nat) (lba : UInt64)
    (sectorSize : Nat) : Option (Nat → UInt8) :=
  aesXtsCrypt aes mem dst src (aes.encrypt k.encryptKey) k.encryptTweakKey lba sectorSize

def aesXtsDecrypt (aes : Aes KS) (k : AesXtsKeyctx KS) (mem : Nat → UInt8) (dst src : Nat) (lba : UInt64)
    (sectorSize : Nat) : Option (Nat → UInt8) :=
  aesXtsCrypt aes mem dst src (aes.decrypt k.decryptKey) k.decryptTweakKey lba sectorSize

def blockValue (b : List UInt8) : BitVec 128 := (le64 b 8).toBitVec ++ (le64 b 0).toBitVec

def blockBytes (v : BitVec 128) : List UInt8 :=
  bytesLe64 (UInt64.ofBitVec (v.setWidth 64)) ++ bytesLe64 (UInt64.ofBitVec ((v >>> 64).setWidth 64))

def mulAlpha (t : BitVec 128) : BitVec 128 := if t.msb then (t <<< 1) ^^^ 0x87#128 else t <<< 1

def xtsBlock (E : List UInt8 → List UInt8) (t : BitVec 128) (p : List UInt8) : List UInt8 :=
  blockBytes (blockValue (E (blockBytes (blockValue p ^^^ t))) ^^^ t)

def xtsAes (E : List UInt8 → List UInt8) (t : BitVec 128) (n : Nat) (p : List UInt8) : List UInt8 :=
  (List.range n).flatMap fun j => xtsBlock E (mulAlpha^[j] t) ((p.drop (16 * j)).take 16)

def xtsTweak (aes : Aes KS) (key2 : List UInt8) (keybit : Nat) (i : UInt64) : BitVec 128 :=
  blockValue (aes.encrypt (aes.setEncryptKey key2 keybit) (blockBytes (BitVec.ofNat 128 i.toNat)))

/-- XTS-AES encryption with the key `(key1, key2)` of `keybit`-bit halves. -/
def xtsAesEncrypt (aes : Aes KS) (key1 key2 : List UInt8) (keybit : Nat) (i : UInt64) (n : Nat)
    (p : List UInt8) : List UInt8 :=
  xtsAes (aes.encrypt (aes.setEncryptKey key1 keybit)) (xtsTweak aes key2 keybit i) n p

def xtsAesDecrypt (aes : Aes KS) (key1 key2 : List UInt8) (keybit : Nat) (i : UInt64) (n : Nat)
    (c : List UInt8) : List UInt8 :=
  xtsAes (aes.decrypt (aes.setDecryptKey key1 keybit)) (xtsTweak aes key2 keybit i) n c

section Encoding

theorem ushiftRight_append_setWidth (hi lo : BitVec 64) : ((hi ++ lo) >>> 64).setWidth 64 = hi := by
  apply BitVec.eq_of_getLsbD_eq
  intro i hi'
  simp only [BitVec.getLsbD_setWidth, BitVec.getLsbD_ushiftRight, BitVec.getLsbD_append]
  simp [hi']

theorem setWidth_append_ushiftRight (v : BitVec 128) : ((v >>> 64).setWidth 64 ++ v.setWidth 64) = v := by
  apply BitVec.eq_of_getLsbD_eq
  intro i hi
  simp only [BitVec.getLsbD_append, BitVec.getLsbD_setWidth, BitVec.getLsbD_ushiftRight]
  by_cases h : i < 64
  · simp [h]
  · simp [h, show i - 64 < 64 by omega, show 64 + (i - 64) = i by omega]

@[simp] theorem length_blockBytes (v : BitVec 128) : (blockBytes v).length = 16 := by
  simp [blockBytes]

theorem blockValue_bytesLe64 (x y : UInt64) (rest : List UInt8) :
    blockValue (bytesLe64 x ++ bytesLe64 y ++ rest) = y.toBitVec ++ x.toBitVec := by
  have h8 : le64 (bytesLe64 x ++ bytesLe64 y ++ rest) 8 = y := by
    have h := le64_append_length (bytesLe64 x) (bytesLe64 y ++ rest) 0
    rw [length_bytesLe64, Nat.add_zero] at h
    rw [List.append_assoc, h, le64_bytesLe64]
  rw [blockValue, h8, List.append_assoc, le64_bytesLe64]

theorem blockBytes_append (x y : UInt64) : blockBytes (y.toBitVec ++ x.toBitVec) = bytesLe64 x ++ bytesLe64 y := by
  rw [blockBytes, BitVec.setWidth_append_eq_right, ushiftRight_append_setWidth, UInt64.ofBitVec_toBitVec,
    UInt64.ofBitVec_toBitVec]

theorem blockValue_blockBytes (v : BitVec 128) : blockValue (blockBytes v) = v := by
  rw [blockBytes, ← List.append_nil (bytesLe64 _ ++ bytesLe64 _), blockValue_bytesLe64, UInt64.toBitVec_ofBitVec,
    UInt64.toBitVec_ofBitVec, setWidth_append_ushiftRight]

theorem eq_bytesLe64_append {b : List UInt8} (hb : b.length = 16) :
    b = bytesLe64 (le64 b 0) ++ bytesLe64 (le64 b 8) := by
  have h₁ : (b.take 8).length = 8 := by simp [hb]
  have h₂ : (b.drop 8).length = 8 := by simp [hb]
  have hlo : le64 b 0 = le64 (b.take 8) 0 := by
    conv => lhs; rw [← List.take_append_drop 8 b]
    rw [le64_append_of_length h₁]
  have hhi : le64 b 8 = le64 (b.drop 8) 0 := by
    have h := le64_append_length (b.take 8) (b.drop 8) 0
    rwa [h₁, Nat.add_zero, List.take_append_drop] at h
  rw [hlo, hhi, bytesLe64_le64 h₁, bytesLe64_le64 h₂, List.take_append_drop]

theorem blockBytes_blockValue {b : List UInt8} (hb : b.length = 16) : blockBytes (blockValue b) = b := by
  rw [blockValue, blockBytes_append, ← eq_bytesLe64_append hb]

theorem blockBytes_xor (b t : List UInt8) :
    blockBytes (blockValue b ^^^ blockValue t) = bytesLe64 (le64 b 0 ^^^ le64 t 0) ++ bytesLe64 (le64 b 8 ^^^ le64 t 8) := by
  rw [blockValue, blockValue, BitVec.xor_append, ← UInt64.toBitVec_xor, ← UInt64.toBitVec_xor, blockBytes_append]

end Encoding

section Tweak

theorem shl_append (hi lo : BitVec 64) : ((hi <<< 1 ||| lo >>> 63) ++ (lo <<< 1)) = (hi ++ lo) <<< 1 := by
  apply BitVec.eq_of_getLsbD_eq
  intro i hi'
  simp only [BitVec.getLsbD_append, BitVec.getLsbD_shiftLeft, BitVec.getLsbD_or, BitVec.getLsbD_ushiftRight]
  rcases (by omega : i = 0 ∨ (1 ≤ i ∧ i < 64) ∨ i = 64 ∨ (64 < i ∧ i < 128)) with h | ⟨h1, h2⟩ | h | ⟨h1, h2⟩
  · subst h; simp
  · simp [h2, show ¬ i = 0 by omega, show i - 1 < 64 by omega, show i < 128 by omega]
  · subst h; simp
  · simp [h2, show ¬ i < 64 by omega, show ¬ i = 0 by omega, show ¬ i - 1 < 64 by omega,
      show i - 64 < 64 by omega, show ¬ i - 64 = 0 by omega, show 63 + (i - 64) ≥ 64 by omega,
      show i - 64 - 1 = i - 1 - 64 by omega]

theorem and_top_ne_zero_iff (x : UInt64) : x &&& (1 : UInt64) <<< 63 ≠ 0 ↔ x.toNat.testBit 63 = true := by
  rw [ne_eq, ← UInt64.toNat_inj, UInt64.toNat_and, show ((1 : UInt64) <<< 63).toNat = 2 ^ 63 from by decide,
    show (0 : UInt64).toNat = 0 from rfl, Nat.and_two_pow]
  cases x.toNat.testBit 63 <;> simp

theorem msb_toBitVec (x : UInt64) : x.toBitVec.msb = (x &&& (1 : UInt64) <<< 63 != 0) := by
  rw [BitVec.msb_eq_getLsbD_last, ← BitVec.testBit_toNat, UInt64.toNat_toBitVec]
  by_cases h : x.toNat.testBit 63 = true
  · rw [h, eq_comm, bne_iff_ne]
    exact (and_top_ne_zero_iff x).2 h
  · rw [Bool.not_eq_true] at h
    rw [h, eq_comm, bne_eq_false_iff_eq]
    exact not_not.1 fun h' => by simp_all [and_top_ne_zero_iff]

theorem carry_eq_ushiftRight (x : UInt64) :
    (if x &&& (1 : UInt64) <<< 63 ≠ 0 then 1 else 0 : UInt64) = x >>> 63 := by
  have hlt : x.toNat / 2 ^ 63 < 2 := by have := x.toNat_lt; omega
  have hbit := @Nat.testBit_eq_decide_div_mod_eq 63 x.toNat
  apply UInt64.toNat_inj.1
  rw [UInt64.toNat_shiftRight, show (63 : UInt64).toNat % 64 = 63 from rfl, Nat.shiftRight_eq_div_pow]
  by_cases h : x.toNat.testBit 63 = true
  · rw [if_pos ((and_top_ne_zero_iff x).2 h)]
    rw [h, eq_comm, decide_eq_true_eq] at hbit
    simp only [UInt64.toNat_one]
    omega
  · rw [if_neg (mt (and_top_ne_zero_iff x).1 h)]
    simp only [h, Bool.false_eq, decide_eq_false_iff_not] at hbit
    simp only [UInt64.toNat_zero]
    omega

theorem blockValue_shl128 (src : List UInt8) :
    blockValue (shl128 src).1 = blockValue src <<< 1 := by
  rw [shl128, ← List.append_nil (bytesLe64 _ ++ bytesLe64 _), blockValue_bytesLe64, carry_eq_ushiftRight,
    UInt64.toBitVec_or, UInt64.toBitVec_shiftLeft, UInt64.toBitVec_shiftLeft, UInt64.toBitVec_shiftRight,
    blockValue]
  exact shl_append _ _

theorem shl128_carry (src : List UInt8) : (shl128 src).2 = (blockValue src).msb := by
  rw [shl128, blockValue, BitVec.msb_append, if_neg (show (64 : Nat) ≠ 0 by decide), msb_toBitVec]

theorem length_shl128 (src : List UInt8) : (shl128 src).1.length = 16 := by
  simp [shl128]

theorem modifyHead_append_of_ne_nil {α : Type} (f : α → α) {l : List α} (h : l ≠ []) (r : List α) :
    (l ++ r).modifyHead f = l.modifyHead f ++ r := by
  cases l with
  | nil => exact absurd rfl h
  | cons a l => rfl

theorem blockValue_modifyHead_xor {b : List UInt8} (hb : b.length = 16) (c : UInt8) :
    blockValue (b.modifyHead (· ^^^ c)) = blockValue b ^^^ (0#64 ++ c.toUInt64.toBitVec) := by
  have hne : bytesLe64 (le64 b 0) ≠ [] := by
    rw [← List.length_pos_iff_ne_nil, length_bytesLe64]; omega
  rw [eq_bytesLe64_append hb, modifyHead_append_of_ne_nil _ hne, bytesLe64_modifyHead_xor,
    ← List.append_nil (bytesLe64 _ ++ bytesLe64 _), blockValue_bytesLe64, ← List.append_nil (bytesLe64 _ ++ bytesLe64 _),
    blockValue_bytesLe64, UInt64.toBitVec_xor, BitVec.xor_append, BitVec.xor_zero]

theorem blockValue_gfMul128 (t : List UInt8) : blockValue (gfMul128 t) = mulAlpha (blockValue t) := by
  have hv := blockValue_shl128 t
  have hc := shl128_carry t
  have hl := length_shl128 t
  rw [gfMul128, mulAlpha]
  rcases hs : shl128 t with ⟨dst, carry⟩
  rw [hs] at hv hc hl
  dsimp only at hv hc hl ⊢
  subst hc
  cases (blockValue t).msb
  · rw [if_neg Bool.false_ne_true, if_neg Bool.false_ne_true, hv]
  · rw [if_pos rfl, if_pos rfl, blockValue_modifyHead_xor hl, hv]
    rfl

end Tweak

section Spec

variable (E D : List UInt8 → List UInt8)

theorem xtsAes_succ (t : BitVec 128) (n : Nat) (p : List UInt8) :
    xtsAes E t (n + 1) p = xtsBlock E t (p.take 16) ++ xtsAes E (mulAlpha t) n (p.drop 16) := by
  simp only [xtsAes, List.range_succ_eq_map, List.flatMap_cons, List.flatMap_map, Function.iterate_zero_apply,
    Nat.mul_zero, List.drop_zero]
  refine congrArg (xtsBlock E t (p.take 16) ++ ·) (List.flatMap_congr fun j _ => ?_)
  rw [Nat.succ_eq_add_one, Function.iterate_succ_apply, List.drop_drop, Nat.mul_add,
    Nat.mul_one, Nat.add_comm (16 * j)]

@[simp] theorem xtsAes_zero (t : BitVec 128) (p : List UInt8) : xtsAes E t 0 p = [] := rfl

@[simp] theorem length_xtsBlock (t : BitVec 128) (p : List UInt8) : (xtsBlock E t p).length = 16 :=
  length_blockBytes _

theorem length_xtsAes (t : BitVec 128) (n : Nat) (p : List UInt8) : (xtsAes E t n p).length = 16 * n := by
  induction n generalizing t p with
  | zero => rfl
  | succ n ih => rw [xtsAes_succ, List.length_append, ih, length_xtsBlock]; omega

theorem xtsBlock_xtsBlock (hE : ∀ b, (E b).length = 16) (hDE : ∀ b, b.length = 16 → D (E b) = b)
    (t : BitVec 128) {p : List UInt8} (hp : p.length = 16) : xtsBlock D t (xtsBlock E t p) = p := by
  simp only [xtsBlock]
  rw [blockValue_blockBytes, BitVec.xor_assoc, BitVec.xor_self, BitVec.xor_zero, blockBytes_blockValue (hE _),
    hDE _ (length_blockBytes _), blockValue_blockBytes, BitVec.xor_assoc, BitVec.xor_self, BitVec.xor_zero,
    blockBytes_blockValue hp]

theorem xtsAes_xtsAes (hE : ∀ b, (E b).length = 16) (hDE : ∀ b, b.length = 16 → D (E b) = b)
    (t : BitVec 128) (n : Nat) {p : List UInt8} (hp : p.length = 16 * n) : xtsAes D t n (xtsAes E t n p) = p := by
  induction n generalizing t p with
  | zero => simp_all
  | succ n ih =>
    have hblock : (xtsBlock E t (p.take 16)).length = 16 := length_xtsBlock E t _
    rw [xtsAes_succ E, xtsAes_succ D, List.take_append_of_le_length (by omega), List.take_of_length_le (by omega),
      List.drop_append_of_le_length (by omega), List.drop_of_length_le (by omega), List.nil_append,
      xtsBlock_xtsBlock E D hE hDE t (by simp; omega), ih (mulAlpha t) (by simp; omega), List.take_append_drop]

end Spec

section Memory

open ByteMem

variable {mem : Nat → UInt8}

theorem le64_read_lo (a : Nat) : le64 (read mem a 16) 0 = le64 (read mem a 8) 0 := by
  rw [show (16 : Nat) = 8 + 8 from rfl, read_add]
  exact le64_append_of_length (length_read a 8) _

theorem le64_read_hi (a : Nat) : le64 (read mem a 16) 8 = le64 (read mem (a + 8) 8) 0 := by
  have h := le64_append_length (read mem a 8) (read mem (a + 8) 8) 0
  rwa [length_read, Nat.add_zero, ← read_add] at h

theorem xor128_eq {dst src : Nat} (h : dst ≤ src ∨ src + 16 ≤ dst) (tweak : List UInt8) :
    xor128 mem dst src tweak = write mem dst (blockBytes (blockValue (read mem src 16) ^^^ blockValue tweak)) := by
  have hr : read (write mem dst (bytesLe64 (le64 (read mem src 8) 0 ^^^ le64 tweak 0))) (src + 8) 8 =
      read mem (src + 8) 8 :=
    read_write_of_disjoint _ (by rw [length_bytesLe64]; omega)
  rw [xor128, blockBytes_xor, le64_read_lo, le64_read_hi, write_append, length_bytesLe64, hr]

variable (crypt : List UInt8 → List UInt8)

theorem xtsRound_eq (hc : ∀ b, (crypt b).length = 16) {dst src : Nat} (h : dst ≤ src ∨ src + 16 ≤ dst)
    (tweak : List UInt8) :
    xor128 (write (xor128 mem dst src tweak) dst (crypt (read (xor128 mem dst src tweak) dst 16))) dst dst tweak =
      write mem dst (xtsBlock crypt (blockValue tweak) (read mem src 16)) := by
  rw [xor128_eq h, xor128_eq (Or.inl (Nat.le_refl dst)), read_write_of_length _ (length_blockBytes _),
    write_write_self _ (by simp [hc]), read_write_of_length _ (hc _), write_write_self _ (by simp), xtsBlock]

theorem xtsCryptLoop_eq (hc : ∀ b, (crypt b).length = 16) (n : Nat) :
    ∀ (mem : Nat → UInt8) (tweak : List UInt8) (dst src : Nat),
      dst = src ∨ dst + 16 * n ≤ src ∨ src + 16 * n ≤ dst →
      xtsCryptLoop crypt n mem tweak dst src = write mem dst (xtsAes crypt (blockValue tweak) n (read mem src (16 * n))) := by
  induction n with
  | zero =>
    intro mem tweak dst src _
    funext j
    simp [xtsCryptLoop, write]
  | succ n ih =>
    intro mem tweak dst src h
    have hsplit : read mem src (16 * (n + 1)) = read mem src 16 ++ read mem (src + 16) (16 * n) := by
      rw [Nat.mul_succ, Nat.add_comm (16 * n), read_add]
    have hframe : read (write mem dst (xtsBlock crypt (blockValue tweak) (read mem src 16))) (src + 16) (16 * n) =
        read mem (src + 16) (16 * n) :=
      read_write_of_disjoint _ (by rw [length_xtsBlock]; omega)
    rw [xtsCryptLoop, xtsRound_eq crypt hc (by omega), ih _ _ _ _ (by omega), hframe, blockValue_gfMul128, hsplit, xtsAes_succ,
      List.take_append_of_le_length (by simp), List.take_of_length_le (by simp),
      List.drop_append_of_le_length (by simp), List.drop_of_length_le (by simp), List.nil_append, write_append,
      length_xtsBlock]

end Memory

section Correct

open ByteMem

variable {mem : Nat → UInt8}

theorem blockBytes_ofNat_toNat (lba : UInt64) : blockBytes (BitVec.ofNat 128 lba.toNat) = bytesLe64 lba ++ bytesLe64 0 := by
  have hv : BitVec.ofNat 128 lba.toNat = (0 : UInt64).toBitVec ++ lba.toBitVec := by
    apply BitVec.eq_of_toNat_eq
    have hlt := lba.toNat_lt
    simp only [BitVec.toNat_ofNat, BitVec.toNat_append, UInt64.toNat_toBitVec, UInt64.toNat_zero,
      Nat.zero_shiftLeft, Nat.zero_or]
    omega
  rw [hv, blockBytes_append]

/-- `aes_xts_crypt` stores the XTS transform of the sector under the tweak
`crypt`-independent tweak key, for a block cipher `crypt` that writes whole
blocks. -/
theorem aesXtsCrypt_eq (aes : Aes KS) (crypt : List UInt8 → List UInt8) (hc : ∀ b, (crypt b).length = 16)
    (tk : KS) (lba : UInt64) {dst src sectorSize : Nat} (hs : sectorSize % 16 = 0)
    (hp : dst = src ∨ dst + sectorSize ≤ src ∨ src + sectorSize ≤ dst) :
    aesXtsCrypt aes mem dst src crypt tk lba sectorSize =
      some (write mem dst (xtsAes crypt (blockValue (aes.encrypt tk (bytesLe64 lba ++ bytesLe64 0))) (sectorSize / 16)
        (read mem src sectorSize))) := by
  have hn : 16 * (sectorSize / 16) = sectorSize := by omega
  rw [aesXtsCrypt, if_neg (by omega)]
  dsimp only
  rw [xtsCryptLoop_eq crypt hc _ _ _ _ _ (by rw [hn]; exact hp), hn]

section Lawful

variable {aes : Aes KS} (hA : aes.Lawful) (key : List UInt8) (bits : Nat) (lba : UInt64)
include hA

theorem blockValue_tweak :
    blockValue (aes.encrypt (aes.setEncryptKey (key.drop (bits / 2 / 8)) (bits / 2)) (bytesLe64 lba ++ bytesLe64 0)) =
      xtsTweak aes ((key.drop (bits / 2 / 8)).take (bits / 2 / 8)) (bits / 2) lba := by
  rw [xtsTweak, blockBytes_ofNat_toNat, ← hA.setEncryptKey_take]

theorem aesXtsEncrypt_eq {dst src sectorSize : Nat} (hs : sectorSize % 16 = 0)
    (hp : dst = src ∨ dst + sectorSize ≤ src ∨ src + sectorSize ≤ dst) :
    aesXtsEncrypt aes (aesXtsSetkey aes key bits) mem dst src lba sectorSize =
      some (write mem dst (xtsAesEncrypt aes (key.take (bits / 2 / 8)) ((key.drop (bits / 2 / 8)).take (bits / 2 / 8))
        (bits / 2) lba (sectorSize / 16) (read mem src sectorSize))) := by
  rw [aesXtsEncrypt, aesXtsCrypt_eq _ _ (hA.length_encrypt _) _ _ hs hp]
  dsimp only [aesXtsSetkey]
  rw [blockValue_tweak hA, xtsAesEncrypt, ← hA.setEncryptKey_take key (bits / 2)]

theorem aesXtsDecrypt_eq {dst src sectorSize : Nat} (hs : sectorSize % 16 = 0)
    (hp : dst = src ∨ dst + sectorSize ≤ src ∨ src + sectorSize ≤ dst) :
    aesXtsDecrypt aes (aesXtsSetkey aes key bits) mem dst src lba sectorSize =
      some (write mem dst (xtsAesDecrypt aes (key.take (bits / 2 / 8)) ((key.drop (bits / 2 / 8)).take (bits / 2 / 8))
        (bits / 2) lba (sectorSize / 16) (read mem src sectorSize))) := by
  rw [aesXtsDecrypt, aesXtsCrypt_eq _ _ (hA.length_decrypt _) _ _ hs hp]
  dsimp only [aesXtsSetkey]
  rw [blockValue_tweak hA, xtsAesDecrypt, ← hA.setDecryptKey_take key (bits / 2)]

theorem xtsAesDecrypt_xtsAesEncrypt (key1 key2 : List UInt8) (keybit : Nat) (n : Nat) {p : List UInt8}
    (hp : p.length = 16 * n) : xtsAesDecrypt aes key1 key2 keybit lba n (xtsAesEncrypt aes key1 key2 keybit lba n p) = p :=
  xtsAes_xtsAes _ _ (hA.length_encrypt _) (hA.decrypt_encrypt key1 keybit) _ n hp

end Lawful

def xorAes : Aes (List UInt8) where
  setEncryptKey key bits := key.take (bits / 8)
  setDecryptKey key bits := key.take (bits / 8)
  encrypt k b := ((b ++ List.replicate 16 0).take 16).map (· ^^^ k.headD 0)
  decrypt k b := ((b ++ List.replicate 16 0).take 16).map (· ^^^ k.headD 0)

theorem take_append_replicate {b : List UInt8} (hb : b.length = 16) : (b ++ List.replicate 16 0).take 16 = b := by
  rw [List.take_append_of_le_length (by omega), List.take_of_length_le (by omega)]

theorem xorAes_lawful : xorAes.Lawful where
  length_encrypt k b := by simp [xorAes]
  length_decrypt k b := by simp [xorAes]
  decrypt_encrypt key bits b hb := by
    simp only [xorAes]
    rw [take_append_replicate hb, take_append_replicate (by rw [List.length_map, hb]), List.map_map]
    conv => rhs; rw [← List.map_id b]
    apply List.map_congr_left
    intro x _
    rw [Function.comp_apply, UInt8.xor_assoc, UInt8.xor_self, UInt8.xor_zero, id]
  setEncryptKey_take key bits := by simp only [xorAes, List.take_take, Nat.min_self]
  setDecryptKey_take key bits := by simp only [xorAes, List.take_take, Nat.min_self]

theorem aesXtsEncrypt_xts_roundtrip (aes : Aes KS) (hA : aes.Lawful) (key : List UInt8) (bits : Nat)
    (mem : Nat → UInt8) (dst src : Nat) (lba : UInt64) (sectorSize : Nat) (hs : sectorSize % 16 = 0)
    (hp : dst = src ∨ dst + sectorSize ≤ src ∨ src + sectorSize ≤ dst) :
    ∃ mem', aesXtsEncrypt aes (aesXtsSetkey aes key bits) mem dst src lba sectorSize = some mem' ∧
      mem' = write mem dst (xtsAesEncrypt aes (key.take (bits / 2 / 8)) ((key.drop (bits / 2 / 8)).take (bits / 2 / 8))
        (bits / 2) lba (sectorSize / 16) (read mem src sectorSize)) ∧
      ∀ dst', dst' = dst ∨ dst' + sectorSize ≤ dst ∨ dst + sectorSize ≤ dst' →
        (aesXtsDecrypt aes (aesXtsSetkey aes key bits) mem' dst' dst lba sectorSize).map (fun m => read m dst' sectorSize) =
          some (read mem src sectorSize) := by
  refine ⟨_, aesXtsEncrypt_eq hA key bits lba hs hp, rfl, ?_⟩
  intro dst' hp'
  have hn : 16 * (sectorSize / 16) = sectorSize := by omega
  have hlen : (xtsAesEncrypt aes (key.take (bits / 2 / 8)) ((key.drop (bits / 2 / 8)).take (bits / 2 / 8)) (bits / 2)
      lba (sectorSize / 16) (read mem src sectorSize)).length = sectorSize := by
    rw [xtsAesEncrypt, length_xtsAes, hn]
  rw [aesXtsDecrypt_eq hA key bits lba hs hp', Option.map_some, read_write_of_length _ hlen,
    xtsAesDecrypt_xtsAesEncrypt hA lba _ _ _ _ (by rw [length_read, hn])]
  exact congrArg some (read_write_of_length _ (length_read _ _))

theorem aesXtsEncrypt_xts_roundtrip_xorAes :
    ∃ mem', aesXtsEncrypt xorAes (aesXtsSetkey xorAes (List.range 32 |>.map Nat.toUInt8) 256) (fun _ => 0) 0 0 7 32 =
        some mem' ∧
      mem' = write (fun _ => 0) 0 (xtsAesEncrypt xorAes ((List.range 32 |>.map Nat.toUInt8).take (256 / 2 / 8))
        (((List.range 32 |>.map Nat.toUInt8).drop (256 / 2 / 8)).take (256 / 2 / 8)) (256 / 2) 7 (32 / 16)
        (read (fun _ => 0) 0 32)) ∧
      ∀ dst', dst' = 0 ∨ dst' + 32 ≤ 0 ∨ 0 + 32 ≤ dst' →
        (aesXtsDecrypt xorAes (aesXtsSetkey xorAes (List.range 32 |>.map Nat.toUInt8) 256) mem' dst' 0 7 32).map
          (fun m => read m dst' 32) = some (read (fun _ => 0) 0 32) :=
  aesXtsEncrypt_xts_roundtrip xorAes xorAes_lawful _ 256 (fun _ => 0) 0 0 7 32 (by decide) (Or.inl rfl)

end Correct

end Bitvisor.Storage
