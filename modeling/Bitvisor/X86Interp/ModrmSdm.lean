import Mathlib.Data.Int.ModEq
import Bitvisor.X86Mmu.Pmap
import Bitvisor.X86Interp.Modrm

namespace Bitvisor.X86Interp

open X86Mmu (leNat)

/-! The SDM's memory operands (Vol. 2, Tables 2-1 to 2-3, with REX.B, REX.X
and RIP-relative addressing in 64-bit mode), stated as its rules. -/

structure AddrForm where
  base : Option Nat
  index : Option Nat
  scale : Nat
  sib : Bool
  dispLen : Nat
  ripRel : Bool
  deriving DecidableEq, Repr

def AddrForm.length (f : AddrForm) : Nat := (if f.sib then 1 else 0) + f.dispLen

def defsegOf (base : Option Nat) : Sreg := if base = some 4 ∨ base = some 5 then .ss else .ds

def sdmForm16 (mod rm : Nat) : AddrForm :=
  let regs : Option Nat × Option Nat :=
    if rm < 4 then (some (if rm < 2 then 3 else 5), some (if rm % 2 = 0 then 6 else 7))
    else if rm = 4 then (some 6, none)
    else if rm = 5 then (some 7, none)
    else if rm = 6 then (if mod = 0 then none else some 5, none)
    else (some 3, none)
  ⟨regs.1, regs.2, 0, false, if mod = 1 then 1 else if mod = 2 ∨ regs.1 = none then 2 else 0, false⟩

def dispLen32 (mod : Nat) (noBase : Bool) : Nat :=
  if mod = 1 then 1 else if mod = 2 ∨ noBase then 4 else 0

def sdmFormNoSib (longmode : Bool) (mod rm rexB : Nat) : AddrForm :=
  if mod = 0 ∧ rm = 5 then ⟨none, none, 0, false, 4, longmode⟩
  else ⟨some (rm + 8 * rexB), none, 0, false, dispLen32 mod false, false⟩

def sibBase (mod rexB base : Nat) : Option Nat :=
  if mod = 0 ∧ base = 5 then none else some (base + 8 * rexB)

def sibIndex (rexX index : Nat) : Option Nat :=
  if index + 8 * rexX = 4 then none else some (index + 8 * rexX)

def sdmFormSib (mod rexB rexX : Nat) (sib : UInt8) : AddrForm :=
  let base := sibBase mod rexB (sib.toNat % 8)
  ⟨base, sibIndex rexX (sib.toNat / 8 % 8), sib.toNat / 64, true, dispLen32 mod (base = none), false⟩

def sdmForm (op : Op) (sib : UInt8) : AddrForm :=
  if op.addrtype = .bit16 then sdmForm16 op.modrm.mod op.modrm.rm
  else if op.modrm.rm.val = 4 then sdmFormSib op.modrm.mod op.pfx.rexB op.pfx.rexX sib
  else sdmFormNoSib op.longmode op.modrm.mod op.modrm.rm op.pfx.rexB

def Addrtype.bits : Addrtype → Nat
  | .bit16 => 16
  | .bit32 => 32
  | .bit64 => 64

def sdmDisp (bytes : List UInt8) : Int := (leNat bytes : Int).bmod (2 ^ (8 * bytes.length))

def regValue (w : Nat) (regs : Reg → UInt64) : Option Nat → Int
  | none => 0
  | some n => ((regs (Reg.ofNum n)).toNat % 2 ^ w : Nat)

/-- The SDM's effective address in the arithmetic of `w` bits: base plus
scaled index plus displacement, plus the address `next` of the next
instruction when RIP-relative. -/
def sdmEffectiveAddress (w : Nat) (regs : Reg → UInt64) (f : AddrForm) (disp : Int)
    (next : Nat) : Nat :=
  ((regValue w regs f.base + regValue w regs f.index * 2 ^ f.scale + disp +
    if f.ripRel then (next : Int) else 0) % 2 ^ w).toNat

def regOf : Option Nat → Reg
  | none => .no
  | some n => Reg.ofNum n

theorem modrmmatrix16_sdm : ∀ mod < 3, ∀ rm < 8,
    (modrmmatrix16.getD mod []).getD rm default =
      ⟨(sdmForm16 mod rm).dispLen, regOf (sdmForm16 mod rm).base, regOf (sdmForm16 mod rm).index,
        defsegOf (sdmForm16 mod rm).base, false, false⟩ := by
  decide

theorem modrmmatrix32_sdm : ∀ mod < 3, ∀ rexB < 2, ∀ rm < 8,
    ((modrmmatrix32.getD mod []).getD rexB []).getD rm default =
      if rm = 4 then ⟨dispLen32 mod false, .no, .no, .ds, true, false⟩
      else ⟨(sdmFormNoSib true mod rm rexB).dispLen, regOf (sdmFormNoSib true mod rm rexB).base, .no,
        defsegOf (sdmFormNoSib true mod rm rexB).base, false, decide (mod = 0 ∧ rm = 5)⟩ := by
  decide

theorem sibmatrixBase_sdm : ∀ mod < 3, ∀ rexB < 2, ∀ base < 8,
    ((sibmatrixBase.getD mod []).getD rexB []).getD base default =
      ⟨dispLen32 mod (sibBase mod rexB base = none), regOf (sibBase mod rexB base),
        defsegOf (sibBase mod rexB base)⟩ := by
  decide

theorem sibScale_sdm : ∀ rexX < 2, ∀ index < 8,
    (sibScale.getD rexX []).getD index .no = regOf (sibIndex rexX index) := by
  decide

def instrByte (env : Env) (op : Op) (off : Nat) : Except Vmmerr UInt8 :=
  if h : off < op.fetchedBytes.length then .ok op.fetchedBytes[off]
  else env.csRead (op.ip + off.toUInt64)

def Fetches (env : Env) (op : Op) (code : Nat → UInt8) (n : Nat) : Prop :=
  ∀ i < n, op.ipOff + i < 15 ∧ instrByte env op (op.ipOff + i) = .ok (code i)

section Fetch

variable {env : Env} {op : Op} {code : Nat → UInt8} {n : Nat}

theorem readNextB_eq (env : Env) (op : Op) :
    readNextB env op = if op.ipOff ≥ 15 then .error .instructionTooLong
      else (instrByte env op op.ipOff).map fun b => (b, { op with ipOff := op.ipOff + 1 }) := by
  unfold readNextB instrByte
  split_ifs <;> rfl

theorem readNextB_of_fetches (h : Fetches env op code (n + 1)) :
    readNextB env op = .ok (code 0, { op with ipOff := op.ipOff + 1 }) := by
  obtain ⟨h15, hb⟩ := h 0 (by omega)
  rw [Nat.add_zero] at hb
  rw [readNextB_eq, if_neg (by omega), hb]
  rfl

theorem Fetches.next (h : Fetches env op code (n + 1)) :
    Fetches env { op with ipOff := op.ipOff + 1 } (fun i => code (i + 1)) n := by
  intro i hi
  obtain ⟨h15, hb⟩ := h (i + 1) (by omega)
  refine ⟨by dsimp only; omega, ?_⟩
  show instrByte env op (op.ipOff + 1 + i) = .ok (code (i + 1))
  rwa [show op.ipOff + 1 + i = op.ipOff + (i + 1) by omega]

theorem readNextW_of_fetches (h : Fetches env op code (n + 2)) :
    readNextW env op =
      .ok ((code 0).toUInt16 + (code 1).toUInt16 * 256, { op with ipOff := op.ipOff + 2 }) := by
  have h1 := readNextB_of_fetches (n := n + 1) h
  have h2 := readNextB_of_fetches (n := n) h.next
  simp only [readNextW, h1, h2, bind, Except.bind, pure, Except.pure]

theorem readNextL_of_fetches (h : Fetches env op code (n + 4)) :
    readNextL env op =
      .ok (((code 0).toUInt16 + (code 1).toUInt16 * 256).toUInt32 +
        ((code 2).toUInt16 + (code 3).toUInt16 * 256).toUInt32 * 65536,
        { op with ipOff := op.ipOff + 4 }) := by
  have h1 := readNextW_of_fetches (n := n + 2) h
  have h2 := readNextW_of_fetches (n := n) h.next.next
  simp only [readNextL, h1, h2, bind, Except.bind, pure, Except.pure]

theorem readNextQ_of_fetches (h : Fetches env op code (n + 8)) :
    readNextQ env op =
      .ok ((((code 0).toUInt16 + (code 1).toUInt16 * 256).toUInt32 +
          ((code 2).toUInt16 + (code 3).toUInt16 * 256).toUInt32 * 65536).toUInt64 +
        (((code 4).toUInt16 + (code 5).toUInt16 * 256).toUInt32 +
          ((code 6).toUInt16 + (code 7).toUInt16 * 256).toUInt32 * 65536).toUInt64 * 4294967296,
        { op with ipOff := op.ipOff + 8 }) := by
  have h1 := readNextL_of_fetches (n := n + 4) h
  have h2 := readNextL_of_fetches (n := n) h.next.next.next.next
  simp only [readNextQ, h1, h2, bind, Except.bind, pure, Except.pure]

theorem toNat_word (b0 b1 : UInt8) : (b0.toUInt16 + b1.toUInt16 * 256).toNat = leNat [b0, b1] := by
  have := b0.toNat_lt
  have := b1.toNat_lt
  simp [leNat]
  omega

theorem toNat_long (b0 b1 b2 b3 : UInt8) :
    ((b0.toUInt16 + b1.toUInt16 * 256).toUInt32 + (b2.toUInt16 + b3.toUInt16 * 256).toUInt32 * 65536).toNat =
      leNat [b0, b1, b2, b3] := by
  have h01 := toNat_word b0 b1
  have h23 := toNat_word b2 b3
  simp only [leNat] at h01 h23 ⊢
  have := b0.toNat_lt
  have := b1.toNat_lt
  have := b2.toNat_lt
  have := b3.toNat_lt
  simp
  omega

theorem toNat_quad (b0 b1 b2 b3 b4 b5 b6 b7 : UInt8) :
    (((b0.toUInt16 + b1.toUInt16 * 256).toUInt32 + (b2.toUInt16 + b3.toUInt16 * 256).toUInt32 * 65536).toUInt64 +
      ((b4.toUInt16 + b5.toUInt16 * 256).toUInt32 +
        (b6.toUInt16 + b7.toUInt16 * 256).toUInt32 * 65536).toUInt64 * 4294967296).toNat =
      leNat [b0, b1, b2, b3, b4, b5, b6, b7] := by
  have h0 := toNat_long b0 b1 b2 b3
  have h4 := toNat_long b4 b5 b6 b7
  have hl0 := UInt32.toNat_lt ((b0.toUInt16 + b1.toUInt16 * 256).toUInt32 +
    (b2.toUInt16 + b3.toUInt16 * 256).toUInt32 * 65536)
  have hl4 := UInt32.toNat_lt ((b4.toUInt16 + b5.toUInt16 * 256).toUInt32 +
    (b6.toUInt16 + b7.toUInt16 * 256).toUInt32 * 65536)
  rw [UInt64.toNat_add, UInt64.toNat_mul, UInt32.toNat_toUInt64, UInt32.toNat_toUInt64, h0, h4] at *
  rw [h0] at hl0
  rw [h4] at hl4
  simp only [leNat] at hl0 hl4 ⊢
  simp only [UInt64.reduceToNat]
  omega

end Fetch

theorem toInt_toInt8_toInt32 (b : UInt8) : b.toInt8.toInt32.toInt = (b.toNat : Int).bmod (2 ^ 8) := by
  rw [Int8.toInt_toInt32, ← Int8.toInt_toBitVec, UInt8.toBitVec_toInt8, BitVec.toInt_eq_toNat_bmod]
  simp

theorem toInt_toInt16_toInt32 (w : UInt16) : w.toInt16.toInt32.toInt = (w.toNat : Int).bmod (2 ^ 16) := by
  rw [Int16.toInt_toInt32, ← Int16.toInt_toBitVec, UInt16.toBitVec_toInt16, BitVec.toInt_eq_toNat_bmod]
  simp

theorem toInt_toInt32 (l : UInt32) : l.toInt32.toInt = (l.toNat : Int).bmod (2 ^ 32) := by
  rw [← Int32.toInt_toBitVec, UInt32.toBitVec_toInt32, BitVec.toInt_eq_toNat_bmod]
  simp

theorem readDisp_of_fetches {env : Env} {op : Op} {code : Nat → UInt8} {n : Nat}
    (hn : n = 0 ∨ n = 1 ∨ n = 2 ∨ n = 4) (h : Fetches env op code n) :
    ∃ d : Int32, readDisp env op n = .ok (d, { op with ipOff := op.ipOff + n }) ∧
      d.toInt = sdmDisp ((List.range n).map code) := by
  rcases hn with rfl | rfl | rfl | rfl
  · exact ⟨0, rfl, by simp [sdmDisp, leNat]⟩
  · refine ⟨(code 0).toInt8.toInt32, ?_, ?_⟩
    · simp only [readDisp, readNextB_of_fetches (n := 0) h, bind, Except.bind, pure, Except.pure]
    · rw [toInt_toInt8_toInt32]
      simp [sdmDisp, leNat]
  · refine ⟨((code 0).toUInt16 + (code 1).toUInt16 * 256).toInt16.toInt32, ?_, ?_⟩
    · simp only [readDisp, readNextW_of_fetches (n := 0) h, bind, Except.bind, pure, Except.pure]
    · rw [toInt_toInt16_toInt32, toNat_word]
      simp [sdmDisp, List.range_succ]
  · refine ⟨(((code 0).toUInt16 + (code 1).toUInt16 * 256).toUInt32 +
      ((code 2).toUInt16 + (code 3).toUInt16 * 256).toUInt32 * 65536).toInt32, ?_, ?_⟩
    · simp only [readDisp, readNextL_of_fetches (n := 0) h, bind, Except.bind, pure, Except.pure]
    · rw [toInt_toInt32, toNat_long]
      simp [sdmDisp, List.range_succ]

theorem getModrmBase_of_not_sib {env : Env} {op : Op} {m : ModrmInfo} (hm : m.sibflag = false) :
    getModrmBase env op m = .ok (m.displen, m.defseg, getReg env m.reg1 + getReg env m.reg2, op) := by
  simp [getModrmBase, hm, pure, Except.pure]

theorem getModrmBase_of_sib {env : Env} {op : Op} {m : ModrmInfo} {code : Nat → UInt8} {n : Nat}
    (hm : m.sibflag = true) (h : Fetches env op code (n + 1)) :
    getModrmBase env op m =
      let s := Sib.ofByte (code 0)
      let sb := ((sibmatrixBase.getD op.modrm.mod []).getD op.pfx.rexB []).getD s.base default
      .ok (sb.displen, sb.defseg,
        (getReg env ((sibScale.getD op.pfx.rexX []).getD s.index .no) <<< s.scale.val.toUInt64) +
          getReg env sb.reg,
        { op with ipOff := op.ipOff + 1, sib := s }) := by
  simp only [getModrmBase, hm, if_true, readNextB_of_fetches h, bind, Except.bind, pure, Except.pure]

theorem getModrm_of_stages {env : Env} {op op₁ op₂ : Op} {displen : Nat} {defseg : Sreg}
    {addr : UInt64} {d : Int32} (hmod : op.modrm.mod ≠ 3)
    (hbase : getModrmBase env { op with modrmBrm := .no } (modrmInfo op) = .ok (displen, defseg, addr, op₁))
    (hdisp : readDisp env op₁ displen = .ok (d, op₂)) :
    getModrm env op = .ok { op₂ with
      disp := d
      modrmAddr := addr + d.toInt64.toUInt64
      modrmRipflag := op₂.longmode && (modrmInfo op).ripflag
      modrmSeg := op₂.pfx.seg.getD defseg } := by
  have hinfo : modrmInfo { op with modrmBrm := .no } = modrmInfo op := rfl
  simp only [getModrm, if_neg hmod, hinfo, hbase, hdisp, bind, Except.bind, pure, Except.pure]

theorem bits_le (a : Addrtype) : a.bits ≤ 64 := by
  cases a <;> simp [Addrtype.bits]

theorem two_pow_bits_dvd (a : Addrtype) : (2 : Int) ^ a.bits ∣ 2 ^ 64 :=
  pow_dvd_pow 2 (bits_le a)

theorem toNat_add_modEq (a b : UInt64) : ((a + b).toNat : Int) ≡ a.toNat + b.toNat [ZMOD 2 ^ 64] := by
  rw [UInt64.toNat_add]
  push_cast
  exact Int.mod_modEq _ _

theorem toNat_shiftLeft_modEq (a : UInt64) {s : Nat} (hs : s < 64) :
    ((a <<< s.toUInt64).toNat : Int) ≡ a.toNat * 2 ^ s [ZMOD 2 ^ 64] := by
  rw [UInt64.toNat_shiftLeft, Nat.toUInt64, UInt64.toNat_ofNat', Nat.mod_eq_of_lt (by omega : s < 2 ^ 64),
    Nat.mod_eq_of_lt hs, Nat.shiftLeft_eq]
  push_cast
  exact Int.mod_modEq _ _

theorem toNat_toUInt64_modEq (d : Int32) : (d.toInt64.toUInt64.toNat : Int) ≡ d.toInt [ZMOD 2 ^ 64] := by
  rw [← Int32.toInt_toInt64, ← Int64.toInt_toBitVec, ← UInt64.toNat_toBitVec, Int64.toBitVec_toUInt64,
    BitVec.toInt_eq_toNat_bmod]
  exact Int.bmod_emod.symm

theorem ofNum_ne_no : ∀ n < 16, Reg.ofNum n ≠ .no := by
  decide

theorem getReg_of_ne_no (env : Env) {r : Reg} (h : r ≠ .no) : getReg env r = env.regs r := by
  cases r <;> first | rfl | exact absurd rfl h

theorem getReg_regOf_modEq (env : Env) (w : Nat) {r : Option Nat} (hr : r.all (· < 16)) :
    ((getReg env (regOf r)).toNat : Int) ≡ regValue w env.regs r [ZMOD 2 ^ w] := by
  cases r with
  | none => rfl
  | some n =>
    have hn : n < 16 := by simpa using hr
    rw [regOf, getReg_of_ne_no env (ofNum_ne_no n hn), regValue]
    push_cast
    exact (Int.mod_modEq _ _).symm

theorem modrmOff_toNat (op : Op) (o : UInt8) :
    ((modrmOff op o).toNat : Int) =
      (op.modrmAddr.toNat + o.toNat + if op.modrmRipflag then (op.ip.toNat + op.ipOff : Int) else 0) %
        2 ^ op.addrtype.bits := by
  have h16 (x : Nat) : x &&& 65535 = x % 65536 := Nat.and_two_pow_sub_one_eq_mod x 16
  have h32 (x : Nat) : x &&& 4294967295 = x % 4294967296 := Nat.and_two_pow_sub_one_eq_mod x 32
  unfold modrmOff
  cases op.addrtype <;> cases op.modrmRipflag <;>
    simp [Addrtype.bits, UInt64.toNat_add, UInt64.toNat_and, h16, h32]

/-- `get_modrm` succeeds, consumes the bytes of the form `f`, and leaves the
segment and the address (`modrm_off`, after any `k` further bytes of the
instruction) that the SDM gives for `f`. -/
def DecodesTo (env : Env) (op : Op) (code : Nat → UInt8) (f : AddrForm) : Prop :=
  ∃ op', getModrm env op = .ok op' ∧ op'.ipOff = op.ipOff + f.length ∧
    op'.modrmSeg = op.pfx.seg.getD (defsegOf f.base) ∧
    ∀ k, (modrmOff { op' with ipOff := op'.ipOff + k } 0).toNat =
      sdmEffectiveAddress op.addrtype.bits env.regs f
        (sdmDisp ((List.range f.dispLen).map fun i => code ((if f.sib then 1 else 0) + i)))
        (op.ip.toNat + op'.ipOff + k)

section Decode

variable {env : Env} {op : Op} {code : Nat → UInt8}

theorem instrByte_congr {op' : Op} (hip : op'.ip = op.ip) (hf : op'.fetchedBytes = op.fetchedBytes)
    (off : Nat) : instrByte env op' off = instrByte env op off := by
  unfold instrByte
  rw [hip, hf]

theorem Fetches.shift {m n : Nat} (h : Fetches env op code (m + n)) {op' : Op} (hip : op'.ip = op.ip)
    (hf : op'.fetchedBytes = op.fetchedBytes) (ho : op'.ipOff = op.ipOff + m) :
    Fetches env op' (fun i => code (m + i)) n := by
  intro i hi
  obtain ⟨h15, hb⟩ := h (m + i) (by omega)
  refine ⟨by omega, ?_⟩
  rw [instrByte_congr hip hf, ho, Nat.add_assoc]
  exact hb

/-- The second half of `get_modrm`, and `modrm_off`: a first half that read
the SIB byte of `f`, if any, and summed its registers gives the SDM's
address. -/
theorem decodesTo_of_base {f : AddrForm} (addr : UInt64) {s : Sib} (hmod : op.modrm.mod ≠ 3)
    (hbase : getModrmBase env { op with modrmBrm := .no } (modrmInfo op) =
      .ok (f.dispLen, defsegOf f.base, addr,
        { op with modrmBrm := .no, ipOff := op.ipOff + (if f.sib then 1 else 0), sib := s }))
    (haddr : (addr.toNat : Int) ≡ regValue op.addrtype.bits env.regs f.base +
      regValue op.addrtype.bits env.regs f.index * 2 ^ f.scale [ZMOD 2 ^ op.addrtype.bits])
    (hrip : (op.longmode && (modrmInfo op).ripflag) = f.ripRel)
    (hlen : f.dispLen = 0 ∨ f.dispLen = 1 ∨ f.dispLen = 2 ∨ f.dispLen = 4)
    (h : Fetches env op code f.length) :
    DecodesTo env op code f := by
  unfold AddrForm.length at h
  have hf : Fetches env { op with modrmBrm := .no, ipOff := op.ipOff + (if f.sib then 1 else 0), sib := s }
      (fun i => code ((if f.sib then 1 else 0) + i)) f.dispLen := h.shift rfl rfl rfl
  obtain ⟨d, hd, hdv⟩ := readDisp_of_fetches hlen hf
  refine ⟨_, getModrm_of_stages hmod hbase hd, by unfold AddrForm.length; dsimp only; omega, rfl,
    fun k => ?_⟩
  have hdisp := (toNat_toUInt64_modEq d).of_dvd (two_pow_bits_dvd op.addrtype)
  rw [hdv] at hdisp
  have hsum := ((toNat_add_modEq addr d.toInt64.toUInt64).of_dvd (two_pow_bits_dvd op.addrtype)).trans
    (haddr.add hdisp)
  have hrip' := hsum.add_right (if f.ripRel then ((op.ip.toNat + (op.ipOff + (if f.sib then 1 else 0) +
    f.dispLen + k) : Nat) : Int) else 0)
  unfold sdmEffectiveAddress
  apply Int.ofNat_inj.mp
  rw [Int.toNat_of_nonneg (Int.emod_nonneg _ (pow_ne_zero _ two_ne_zero)), modrmOff_toNat]
  dsimp only
  rw [hrip]
  push_cast at hrip' ⊢
  rw [add_zero]
  simp only [add_assoc] at hrip' ⊢
  exact hrip'

theorem mod_lt_three (hmod : op.modrm.mod ≠ 3) : (op.modrm.mod : Nat) < 3 := by
  have h4 := op.modrm.mod.isLt
  have h3 : (op.modrm.mod : Nat) ≠ 3 := fun h => hmod (Fin.ext h)
  omega

theorem rexB_lt (p : Pfx) : p.rexB < 2 := Nat.mod_lt _ (by decide)

theorem rexX_lt (p : Pfx) : p.rexX < 2 := Nat.mod_lt _ (by decide)

theorem dispLen32_cases (mod : Nat) (noBase : Bool) :
    dispLen32 mod noBase = 0 ∨ dispLen32 mod noBase = 1 ∨ dispLen32 mod noBase = 2 ∨
      dispLen32 mod noBase = 4 := by
  unfold dispLen32
  split_ifs <;> simp

theorem modrmInfo_bit16 (h16 : op.addrtype = .bit16) (hmod : op.modrm.mod ≠ 3) :
    modrmInfo op =
      ⟨(sdmForm16 op.modrm.mod op.modrm.rm).dispLen, regOf (sdmForm16 op.modrm.mod op.modrm.rm).base,
        regOf (sdmForm16 op.modrm.mod op.modrm.rm).index,
        defsegOf (sdmForm16 op.modrm.mod op.modrm.rm).base, false, false⟩ := by
  rw [modrmInfo, if_pos h16]
  exact modrmmatrix16_sdm _ (mod_lt_three hmod) _ op.modrm.rm.isLt

theorem modrmInfo_noSib (h16 : op.addrtype ≠ .bit16) (hmod : op.modrm.mod ≠ 3)
    (hrm : op.modrm.rm.val ≠ 4) :
    modrmInfo op =
      ⟨(sdmFormNoSib true op.modrm.mod op.modrm.rm op.pfx.rexB).dispLen,
        regOf (sdmFormNoSib true op.modrm.mod op.modrm.rm op.pfx.rexB).base, .no,
        defsegOf (sdmFormNoSib true op.modrm.mod op.modrm.rm op.pfx.rexB).base, false,
        decide (op.modrm.mod.val = 0 ∧ op.modrm.rm.val = 5)⟩ := by
  rw [modrmInfo, if_neg h16,
    modrmmatrix32_sdm _ (mod_lt_three hmod) _ (rexB_lt op.pfx) _ op.modrm.rm.isLt, if_neg hrm]

theorem modrmInfo_sib (h16 : op.addrtype ≠ .bit16) (hmod : op.modrm.mod ≠ 3)
    (hrm : op.modrm.rm.val = 4) :
    modrmInfo op = ⟨dispLen32 op.modrm.mod false, .no, .no, .ds, true, false⟩ := by
  rw [modrmInfo, if_neg h16,
    modrmmatrix32_sdm _ (mod_lt_three hmod) _ (rexB_lt op.pfx) _ op.modrm.rm.isLt, if_pos hrm]

theorem decodesTo_bit16 (h16 : op.addrtype = .bit16) (hmod : op.modrm.mod ≠ 3)
    (h : Fetches env op code (sdmForm16 op.modrm.mod op.modrm.rm).length) :
    DecodesTo env op code (sdmForm16 op.modrm.mod op.modrm.rm) := by
  have hregs : (sdmForm16 op.modrm.mod op.modrm.rm).base.all (· < 16) ∧
      (sdmForm16 op.modrm.mod op.modrm.rm).index.all (· < 16) := by
    unfold sdmForm16
    split_ifs <;> simp
  refine decodesTo_of_base (getReg env (regOf (sdmForm16 op.modrm.mod op.modrm.rm).base) +
    getReg env (regOf (sdmForm16 op.modrm.mod op.modrm.rm).index)) (s := op.sib) hmod ?_ ?_ ?_ ?_ h
  · rw [modrmInfo_bit16 h16 hmod, getModrmBase_of_not_sib rfl]
    rfl
  · rw [show (sdmForm16 op.modrm.mod op.modrm.rm).scale = 0 from rfl, pow_zero, mul_one]
    exact ((toNat_add_modEq _ _).of_dvd (two_pow_bits_dvd _)).trans
      ((getReg_regOf_modEq env _ hregs.1).add (getReg_regOf_modEq env _ hregs.2))
  · rw [modrmInfo_bit16 h16 hmod, Bool.and_false]
    rfl
  · unfold sdmForm16
    dsimp only
    split_ifs <;> simp

theorem sdmFormNoSib_eq (longmode : Bool) (mod rm rexB : Nat) :
    sdmFormNoSib longmode mod rm rexB =
      { sdmFormNoSib true mod rm rexB with ripRel := longmode && decide (mod = 0 ∧ rm = 5) } := by
  unfold sdmFormNoSib
  split_ifs with h <;> simp [h]

theorem decodesTo_noSib (h16 : op.addrtype ≠ .bit16) (hmod : op.modrm.mod ≠ 3)
    (hrm : op.modrm.rm.val ≠ 4)
    (h : Fetches env op code (sdmFormNoSib op.longmode op.modrm.mod op.modrm.rm op.pfx.rexB).length) :
    DecodesTo env op code (sdmFormNoSib op.longmode op.modrm.mod op.modrm.rm op.pfx.rexB) := by
  have hform : (sdmFormNoSib true op.modrm.mod op.modrm.rm op.pfx.rexB).base.all (· < 16) ∧
      (sdmFormNoSib true op.modrm.mod op.modrm.rm op.pfx.rexB).index = none ∧
      (sdmFormNoSib true op.modrm.mod op.modrm.rm op.pfx.rexB).scale = 0 ∧
      (sdmFormNoSib true op.modrm.mod op.modrm.rm op.pfx.rexB).sib = false ∧
      ((sdmFormNoSib true op.modrm.mod op.modrm.rm op.pfx.rexB).dispLen = 4 ∨
        (sdmFormNoSib true op.modrm.mod op.modrm.rm op.pfx.rexB).dispLen =
          dispLen32 op.modrm.mod false) := by
    have := rexB_lt op.pfx
    have := op.modrm.rm.isLt
    unfold sdmFormNoSib
    split_ifs <;> simp
    omega
  rw [sdmFormNoSib_eq] at h ⊢
  refine decodesTo_of_base (getReg env (regOf (sdmFormNoSib true op.modrm.mod op.modrm.rm op.pfx.rexB).base) +
    getReg env .no) (s := op.sib) hmod ?_ ?_ ?_ ?_ h
  · rw [modrmInfo_noSib h16 hmod hrm, getModrmBase_of_not_sib rfl]
    dsimp only
    rw [hform.2.2.2.1]
    rfl
  · dsimp only
    rw [hform.2.1, hform.2.2.1, pow_zero, mul_one]
    exact ((toNat_add_modEq _ _).of_dvd (two_pow_bits_dvd _)).trans
      ((getReg_regOf_modEq env _ hform.1).add (getReg_regOf_modEq env _ (r := none) rfl))
  · rw [modrmInfo_noSib h16 hmod hrm]
  · dsimp only
    rcases hform.2.2.2.2 with h4 | h32
    · omega
    · rw [h32]
      exact dispLen32_cases _ _

theorem decodesTo_sib (h16 : op.addrtype ≠ .bit16) (hmod : op.modrm.mod ≠ 3)
    (hrm : op.modrm.rm.val = 4)
    (h : Fetches env op code (sdmFormSib op.modrm.mod op.pfx.rexB op.pfx.rexX (code 0)).length) :
    DecodesTo env op code (sdmFormSib op.modrm.mod op.pfx.rexB op.pfx.rexX (code 0)) := by
  set f := sdmFormSib op.modrm.mod op.pfx.rexB op.pfx.rexX (code 0) with hf
  have hregs : f.base.all (· < 16) ∧ f.index.all (· < 16) := by
    have := rexB_lt op.pfx
    have := rexX_lt op.pfx
    have : (code 0).toNat % 8 < 8 := Nat.mod_lt _ (by decide)
    have : (code 0).toNat / 8 % 8 < 8 := Nat.mod_lt _ (by decide)
    simp only [hf, sdmFormSib, sibBase, sibIndex]
    constructor <;> split_ifs <;> simp <;> omega
  have hsc : (Sib.ofByte (code 0)).scale.val = f.scale := by
    have := (code 0).toNat_lt
    simp only [hf, sdmFormSib, Sib.ofByte, Fin.val_ofNat]
    omega
  have h1 : Fetches env { op with modrmBrm := .no } code (f.dispLen + 1) := fun i hi =>
    h i (by show i < 1 + f.dispLen; omega)
  refine decodesTo_of_base ((getReg env (regOf f.index) <<< (Sib.ofByte (code 0)).scale.val.toUInt64) +
    getReg env (regOf f.base)) (s := Sib.ofByte (code 0)) hmod ?_ ?_ ?_ (dispLen32_cases _ _) h
  · rw [modrmInfo_sib h16 hmod hrm, getModrmBase_of_sib rfl h1]
    dsimp only
    rw [sibmatrixBase_sdm _ (mod_lt_three hmod) _ (rexB_lt op.pfx) _ (Sib.ofByte (code 0)).base.isLt,
      sibScale_sdm _ (rexX_lt op.pfx) _ (Sib.ofByte (code 0)).index.isLt]
    rfl
  · have hsh := toNat_shiftLeft_modEq (getReg env (regOf f.index))
      (Nat.lt_of_lt_of_le (Sib.ofByte (code 0)).scale.isLt (by decide))
    rw [hsc] at hsh ⊢
    have hsum := ((toNat_add_modEq _ _).of_dvd (two_pow_bits_dvd op.addrtype)).trans
      (((hsh.of_dvd (two_pow_bits_dvd op.addrtype)).trans
        ((getReg_regOf_modEq env _ hregs.2).mul_right _)).add (getReg_regOf_modEq env _ hregs.1))
    rwa [add_comm (regValue _ _ f.index * _)] at hsum
  · rw [modrmInfo_sib h16 hmod hrm, Bool.and_false]
    rfl

end Decode

theorem readMoffs_of_fetches {env : Env} {op : Op} {code : Nat → UInt8}
    (h : Fetches env op code (op.addrtype.bits / 8)) :
    ∃ op', readMoffs env op = .ok op' ∧ op'.ipOff = op.ipOff + op.addrtype.bits / 8 ∧
      op'.modrmAddr.toNat = leNat ((List.range (op.addrtype.bits / 8)).map code) ∧
      op'.modrmRipflag = false ∧ op'.modrmSeg = op.pfx.seg.getD .ds := by
  dsimp only [readMoffs]
  split
  next ha =>
    have h' : Fetches env { op with modrmBrm := .no } code 2 := by
      rw [ha] at h
      exact h
    refine ⟨_, by simp only [readNextW_of_fetches (n := 0) h', bind, Except.bind, pure, Except.pure]; rfl,
      by simp [ha, Addrtype.bits], ?_, rfl, rfl⟩
    dsimp only
    rw [UInt16.toNat_toUInt64, toNat_word]
    simp [ha, Addrtype.bits, List.range_succ]
  next ha =>
    have h' : Fetches env { op with modrmBrm := .no } code 4 := by
      rw [ha] at h
      exact h
    refine ⟨_, by simp only [readNextL_of_fetches (n := 0) h', bind, Except.bind, pure, Except.pure]; rfl,
      by simp [ha, Addrtype.bits], ?_, rfl, rfl⟩
    dsimp only
    rw [UInt32.toNat_toUInt64, toNat_long]
    simp [ha, Addrtype.bits, List.range_succ]
  next ha =>
    have h' : Fetches env { op with modrmBrm := .no } code 8 := by
      rw [ha] at h
      exact h
    refine ⟨_, by simp only [readNextQ_of_fetches (n := 0) h', bind, Except.bind, pure, Except.pure]; rfl,
      by simp [ha, Addrtype.bits], ?_, rfl, rfl⟩
    simp only [toNat_quad]
    simp [ha, Addrtype.bits, List.range_succ]

/-- `get_modrm` then `modrm_off (op, 0)`: a register operand (`mod = 3`)
reads nothing; a memory operand reads the SIB byte and the displacement its
form has under the SDM, and `modrm_off` gives the SDM's effective address,
RIP-relative from the end of the instruction, in the arithmetic of the
address size, with the SDM's default segment unless a prefix names one. -/
theorem getModrm_modrmOff_sdm (env : Env) (op : Op) (code : Nat → UInt8) :
    (op.modrm.mod = 3 → getModrm env op = .ok op) ∧
    (op.modrm.mod ≠ 3 → Fetches env op code (sdmForm op (code 0)).length →
      ∃ op', getModrm env op = .ok op' ∧
        op'.ipOff = op.ipOff + (sdmForm op (code 0)).length ∧
        op'.modrmSeg = op.pfx.seg.getD (defsegOf (sdmForm op (code 0)).base) ∧
        ∀ k, (modrmOff { op' with ipOff := op'.ipOff + k } 0).toNat =
          sdmEffectiveAddress op.addrtype.bits env.regs (sdmForm op (code 0))
            (sdmDisp ((List.range (sdmForm op (code 0)).dispLen).map fun i =>
              code ((if (sdmForm op (code 0)).sib then 1 else 0) + i)))
            (op.ip.toNat + op'.ipOff + k)) := by
  refine ⟨fun h3 => by simp [getModrm, h3, pure, Except.pure], fun hmod h => ?_⟩
  show DecodesTo env op code (sdmForm op (code 0))
  unfold sdmForm at h ⊢
  split_ifs at h ⊢ with h16 hrm
  · exact decodesTo_bit16 h16 hmod h
  · exact decodesTo_sib h16 hmod hrm h
  · exact decodesTo_noSib h16 hmod hrm h

/-- `mov rax, [rip + 0x10]` at `0x1000` in 64-bit mode, its seven bytes
fetched: REX.W, the opcode, the ModRM byte 05 and a disp32. -/
def ripMovOp : Op :=
  ⟨⟨none, 0x48⟩, Modrm.ofByte 0x05, Sib.ofByte 0, 0, .no, .no, .ds, 0, .bit64, 0x1000, 3, true, false,
    [0x48, 0x8B, 0x05, 0x10, 0x00, 0x00, 0x00]⟩

def ripMovEnv : Env := ⟨fun _ => 0, fun _ => .error .segRead⟩

def ripMovCode (i : Nat) : UInt8 := [0x10, 0x00, 0x00, 0x00].getD i 0

theorem getModrm_modrmOff_sdm_ripMov :
    ripMovOp.modrm.mod ≠ 3 ∧ Fetches ripMovEnv ripMovOp ripMovCode (sdmForm ripMovOp (ripMovCode 0)).length ∧
      ∃ op', getModrm ripMovEnv ripMovOp = .ok op' ∧
        op'.ipOff = ripMovOp.ipOff + (sdmForm ripMovOp (ripMovCode 0)).length ∧
        op'.modrmSeg = ripMovOp.pfx.seg.getD (defsegOf (sdmForm ripMovOp (ripMovCode 0)).base) ∧
        ∀ k, (modrmOff { op' with ipOff := op'.ipOff + k } 0).toNat =
          sdmEffectiveAddress ripMovOp.addrtype.bits ripMovEnv.regs (sdmForm ripMovOp (ripMovCode 0))
            (sdmDisp ((List.range (sdmForm ripMovOp (ripMovCode 0)).dispLen).map fun i =>
              ripMovCode ((if (sdmForm ripMovOp (ripMovCode 0)).sib then 1 else 0) + i)))
            (ripMovOp.ip.toNat + op'.ipOff + k) := by
  have hmod : ripMovOp.modrm.mod ≠ 3 := by decide
  have hfetch : Fetches ripMovEnv ripMovOp ripMovCode (sdmForm ripMovOp (ripMovCode 0)).length := by
    unfold Fetches
    decide
  exact ⟨hmod, hfetch, (getModrm_modrmOff_sdm ripMovEnv ripMovOp ripMovCode).2 hmod hfetch⟩

example : (getModrm ripMovEnv ripMovOp).map (modrmOff · 0) = .ok 0x1017 := by
  decide

end Bitvisor.X86Interp
