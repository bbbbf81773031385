import Mathlib.Data.List.GetD

namespace Bitvisor.X86Interp

/-! The memory operands of `core/x86/cpu_interpreter.c`: the ModRM and SIB
tables, `read_modrm_b`, `get_modrm`, `read_moffs` and `modrm_off`. The
`struct op` of the interpreter keeps the fields these read and write; the
guest's general registers and its code segment are the environment. -/

/-- `enum reg`: `REG_NO` and the general registers. -/
inductive Reg
  | no | ax | cx | dx | bx | sp | bp | si | di
  | r08 | r09 | r10 | r11 | r12 | r13 | r14 | r15
  deriving DecidableEq, Repr, Inhabited

def Reg.ofNum (n : Nat) : Reg :=
  [Reg.ax, .cx, .dx, .bx, .sp, .bp, .si, .di,
    .r08, .r09, .r10, .r11, .r12, .r13, .r14, .r15].getD n .no

/-- `enum sreg`; `SREG_DEFAULT`, no segment prefix, is `none` where it can
occur. -/
inductive Sreg
  | es | cs | ss | ds | fs | gs
  deriving DecidableEq, Repr, Inhabited

inductive Addrtype
  | bit16 | bit32 | bit64
  deriving DecidableEq, Repr

inductive Vmmerr
  | instructionTooLong
  | segRead
  deriving DecidableEq, Repr

/-- `struct modrm_info`. -/
structure ModrmInfo where
  displen : Nat
  reg1 : Reg
  reg2 : Reg
  defseg : Sreg
  sibflag : Bool
  ripflag : Bool
  deriving DecidableEq, Repr, Inhabited

/-- `struct sibbase_info`. -/
structure SibbaseInfo where
  displen : Nat
  reg : Reg
  defseg : Sreg
  deriving DecidableEq, Repr, Inhabited

/-- `modrmmatrix16[mod][rm]`. -/
def modrmmatrix16 : List (List ModrmInfo) :=
  [[⟨0, .bx, .si, .ds, false, false⟩, ⟨0, .bx, .di, .ds, false, false⟩,
    ⟨0, .bp, .si, .ss, false, false⟩, ⟨0, .bp, .di, .ss, false, false⟩,
    ⟨0, .si, .no, .ds, false, false⟩, ⟨0, .di, .no, .ds, false, false⟩,
    ⟨2, .no, .no, .ds, false, false⟩, ⟨0, .bx, .no, .ds, false, false⟩],
   [⟨1, .bx, .si, .ds, false, false⟩, ⟨1, .bx, .di, .ds, false, false⟩,
    ⟨1, .bp, .si, .ss, false, false⟩, ⟨1, .bp, .di, .ss, false, false⟩,
    ⟨1, .si, .no, .ds, false, false⟩, ⟨1, .di, .no, .ds, false, false⟩,
    ⟨1, .bp, .no, .ss, false, false⟩, ⟨1, .bx, .no, .ds, false, false⟩],
   [⟨2, .bx, .si, .ds, false, false⟩, ⟨2, .bx, .di, .ds, false, false⟩,
    ⟨2, .bp, .si, .ss, false, false⟩, ⟨2, .bp, .di, .ss, false, false⟩,
    ⟨2, .si, .no, .ds, false, false⟩, ⟨2, .di, .no, .ds, false, false⟩,
    ⟨2, .bp, .no, .ss, false, false⟩, ⟨2, .bx, .no, .ds, false, false⟩]]

/-- `modrmmatrix32[mod][rex.b][rm]`. -/
def modrmmatrix32 : List (List (List ModrmInfo)) :=
  [[[⟨0, .ax, .no, .ds, false, false⟩, ⟨0, .cx, .no, .ds, false, false⟩,
     ⟨0, .dx, .no, .ds, false, false⟩, ⟨0, .bx, .no, .ds, false, false⟩,
     ⟨0, .no, .no, .ds, true, false⟩, ⟨4, .no, .no, .ds, false, true⟩,
     ⟨0, .si, .no, .ds, false, false⟩, ⟨0, .di, .no, .ds, false, false⟩],
    [⟨0, .r08, .no, .ds, false, false⟩, ⟨0, .r09, .no, .ds, false, false⟩,
     ⟨0, .r10, .no, .ds, false, false⟩, ⟨0, .r11, .no, .ds, false, false⟩,
     ⟨0, .no, .no, .ds, true, false⟩, ⟨4, .no, .no, .ds, false, true⟩,
     ⟨0, .r14, .no, .ds, false, false⟩, ⟨0, .r15, .no, .ds, false, false⟩]],
   [[⟨1, .ax, .no, .ds, false, false⟩, ⟨1, .cx, .no, .ds, false, false⟩,
     ⟨1, .dx, .no, .ds, false, false⟩, ⟨1, .bx, .no, .ds, false, false⟩,
     ⟨1, .no, .no, .ds, true, false⟩, ⟨1, .bp, .no, .ss, false, false⟩,
     ⟨1, .si, .no, .ds, false, false⟩, ⟨1, .di, .no, .ds, false, false⟩],
    [⟨1, .r08, .no, .ds, false, false⟩, ⟨1, .r09, .no, .ds, false, false⟩,
     ⟨1, .r10, .no, .ds, false, false⟩, ⟨1, .r11, .no, .ds, false, false⟩,
     ⟨1, .no, .no, .ds, true, false⟩, ⟨1, .r13, .no, .ds, false, false⟩,
     ⟨1, .r14, .no, .ds, false, false⟩, ⟨1, .r15, .no, .ds, false, false⟩]],
   [[⟨4, .ax, .no, .ds, false, false⟩, ⟨4, .cx, .no, .ds, false, false⟩,
     ⟨4, .dx, .no, .ds, false, false⟩, ⟨4, .bx, .no, .ds, false, false⟩,
     ⟨4, .no, .no, .ds, true, false⟩, ⟨4, .bp, .no, .ss, false, false⟩,
     ⟨4, .si, .no, .ds, false, false⟩, ⟨4, .di, .no, .ds, false, false⟩],
    [⟨4, .r08, .no, .ds, false, false⟩, ⟨4, .r09, .no, .ds, false, false⟩,
     ⟨4, .r10, .no, .ds, false, false⟩, ⟨4, .r11, .no, .ds, false, false⟩,
     ⟨4, .no, .no, .ds, true, false⟩, ⟨4, .r13, .no, .ds, false, false⟩,
     ⟨4, .r14, .no, .ds, false, false⟩, ⟨4, .r15, .no, .ds, false, false⟩]]]

/-- `sibmatrix_base[mod][rex.b][base]`. -/
def sibmatrixBase : List (List (List SibbaseInfo)) :=
  [[[⟨0, .ax, .ds⟩, ⟨0, .cx, .ds⟩, ⟨0, .dx, .ds⟩, ⟨0, .bx, .ds⟩,
     ⟨0, .sp, .ss⟩, ⟨4, .no, .ds⟩, ⟨0, .si, .ds⟩, ⟨0, .di, .ds⟩],
    [⟨0, .r08, .ds⟩, ⟨0, .r09, .ds⟩, ⟨0, .r10, .ds⟩, ⟨0, .r11, .ds⟩,
     ⟨0, .r12, .ds⟩, ⟨4, .no, .ds⟩, ⟨0, .r14, .ds⟩, ⟨0, .r15, .ds⟩]],
   [[⟨1, .ax, .ds⟩, ⟨1, .cx, .ds⟩, ⟨1, .dx, .ds⟩, ⟨1, .bx, .ds⟩,
     ⟨1, .sp, .ss⟩, ⟨1, .bp, .ss⟩, ⟨1, .si, .ds⟩, ⟨1, .di, .ds⟩],
    [⟨1, .r08, .ds⟩, ⟨1, .r09, .ds⟩, ⟨1, .r10, .ds⟩, ⟨1, .r11, .ds⟩,
     ⟨1, .r12, .ds⟩, ⟨1, .r13, .ds⟩, ⟨1, .r14, .ds⟩, ⟨1, .r15, .ds⟩]],
   [[⟨4, .ax, .ds⟩, ⟨4, .cx, .ds⟩, ⟨4, .dx, .ds⟩, ⟨4, .bx, .ds⟩,
     ⟨4, .sp, .ss⟩, ⟨4, .bp, .ss⟩, ⟨4, .si, .ds⟩, ⟨4, .di, .ds⟩],
    [⟨4, .r08, .ds⟩, ⟨4, .r09, .ds⟩, ⟨4, .r10, .ds⟩, ⟨4, .r11, .ds⟩,
     ⟨4, .r12, .ds⟩, ⟨4, .r13, .ds⟩, ⟨4, .r14, .ds⟩, ⟨4, .r15, .ds⟩]]]

/-- `sib_scale[rex.x][index]`, the `reg` of `struct sibscale_info`. -/
def sibScale : List (List Reg) :=
  [[.ax, .cx, .dx, .bx, .no, .bp, .si, .di],
   [.r08, .r09, .r10, .r11, .r12, .r13, .r14, .r15]]

/-- `struct modrm`: the ModRM byte's `rm` (bits 0-2), `reg` (3-5) and `mod`
(6-7). -/
structure Modrm where
  rm : Fin 8
  reg : Fin 8
  mod : Fin 4
  deriving DecidableEq, Repr

def Modrm.ofByte (b : UInt8) : Modrm :=
  ⟨Fin.ofNat 8 b.toNat, Fin.ofNat 8 (b.toNat / 8), Fin.ofNat 4 (b.toNat / 64)⟩

/-- `struct sib`: `base` (bits 0-2), `index` (3-5) and `scale` (6-7). -/
structure Sib where
  base : Fin 8
  index : Fin 8
  scale : Fin 4
  deriving DecidableEq, Repr

def Sib.ofByte (b : UInt8) : Sib :=
  ⟨Fin.ofNat 8 b.toNat, Fin.ofNat 8 (b.toNat / 8), Fin.ofNat 4 (b.toNat / 64)⟩

structure Pfx where
  seg : Option Sreg
  rex : UInt8
  deriving DecidableEq, Repr

/-- `rex.b.b`, `rex.b.x` and `rex.b.r`: bits 0, 1 and 2 of the REX byte. -/
def Pfx.rexB (p : Pfx) : Nat := p.rex.toNat % 2
def Pfx.rexX (p : Pfx) : Nat := p.rex.toNat / 2 % 2
def Pfx.rexR (p : Pfx) : Nat := p.rex.toNat / 4 % 2

structure Op where
  pfx : Pfx
  modrm : Modrm
  sib : Sib
  disp : Int32
  modrmBrm : Reg
  modrmRreg : Reg
  modrmSeg : Sreg
  modrmAddr : UInt64
  addrtype : Addrtype
  ip : UInt64
  ipOff : Nat
  longmode : Bool
  modrmRipflag : Bool
  fetchedBytes : List UInt8

structure Env where
  regs : Reg → UInt64
  csRead : UInt64 → Except Vmmerr UInt8

/-- `get_reg`: `REG_NO` reads as 0. -/
def getReg (env : Env) : Reg → UInt64
  | .no => 0
  | r => env.regs r

/-- `read_next_b`: the next byte of the instruction, from the bytes the
exit already fetched or else from the code segment. -/
def readNextB (env : Env) (op : Op) : Except Vmmerr (UInt8 × Op) :=
  if op.ipOff ≥ 15 then .error .instructionTooLong
  else if h : op.ipOff < op.fetchedBytes.length then
    .ok (op.fetchedBytes[op.ipOff], { op with ipOff := op.ipOff + 1 })
  else (env.csRead (op.ip + op.ipOff.toUInt64)).map fun b => (b, { op with ipOff := op.ipOff + 1 })

/-- `READ_NEXT_W`: two bytes, stored little-endian. -/
def readNextW (env : Env) (op : Op) : Except Vmmerr (UInt16 × Op) := do
  let (b0, op) ← readNextB env op
  let (b1, op) ← readNextB env op
  pure (b0.toUInt16 + b1.toUInt16 * 256, op)

/-- `READ_NEXT_L`: two words, stored little-endian. -/
def readNextL (env : Env) (op : Op) : Except Vmmerr (UInt32 × Op) := do
  let (w0, op) ← readNextW env op
  let (w1, op) ← readNextW env op
  pure (w0.toUInt32 + w1.toUInt32 * 65536, op)

/-- `READ_NEXT_Q`: two longs, stored little-endian. -/
def readNextQ (env : Env) (op : Op) : Except Vmmerr (UInt64 × Op) := do
  let (l0, op) ← readNextL env op
  let (l1, op) ← readNextL env op
  pure (l0.toUInt64 + l1.toUInt64 * 4294967296, op)

/-- `read_modrm_b`. -/
def readModrmB (env : Env) (op : Op) : Except Vmmerr Op := do
  let (b, op) ← readNextB env op
  let op := { op with modrm := Modrm.ofByte b }
  pure { op with
    modrmRreg := Reg.ofNum (op.modrm.reg.val + 8 * op.pfx.rexR)
    modrmBrm := Reg.ofNum (op.modrm.rm.val + 8 * op.pfx.rexB) }

def modrmInfo (op : Op) : ModrmInfo :=
  if op.addrtype = .bit16 then (modrmmatrix16.getD op.modrm.mod []).getD op.modrm.rm default
  else ((modrmmatrix32.getD op.modrm.mod []).getD op.pfx.rexB []).getD op.modrm.rm default

def getModrmBase (env : Env) (op : Op) (m : ModrmInfo) :
    Except Vmmerr (Nat × Sreg × UInt64 × Op) :=
  if m.sibflag then do
    let (b, op) ← readNextB env op
    let op := { op with sib := Sib.ofByte b }
    let sb := ((sibmatrixBase.getD op.modrm.mod []).getD op.pfx.rexB []).getD op.sib.base default
    let ss := (sibScale.getD op.pfx.rexX []).getD op.sib.index .no
    pure (sb.displen, sb.defseg,
      (getReg env ss <<< op.sib.scale.val.toUInt64) + getReg env sb.reg, op)
  else pure (m.displen, m.defseg, getReg env m.reg1 + getReg env m.reg2, op)

def readDisp (env : Env) (op : Op) : Nat → Except Vmmerr (Int32 × Op)
  | 1 => do
    let (b, op) ← readNextB env op
    pure (b.toInt8.toInt32, op)
  | 2 => do
    let (w, op) ← readNextW env op
    pure (w.toInt16.toInt32, op)
  | 4 => do
    let (l, op) ← readNextL env op
    pure (l.toInt32, op)
  | _ => pure (0, op)

/-- `get_modrm`. -/
def getModrm (env : Env) (op : Op) : Except Vmmerr Op :=
  if op.modrm.mod = 3 then pure op
  else do
    let op := { op with modrmBrm := .no }
    let m := modrmInfo op
    let (displen, defseg, addr, op) ← getModrmBase env op m
    let (disp, op) ← readDisp env op displen
    let op := { op with disp := disp }
    pure { op with
      modrmAddr := addr + op.disp.toInt64.toUInt64
      modrmRipflag := op.longmode && m.ripflag
      modrmSeg := op.pfx.seg.getD defseg }

/-- `read_moffs`: an absolute offset of the address size. -/
def readMoffs (env : Env) (op : Op) : Except Vmmerr Op := do
  let op := { op with modrmBrm := .no }
  let (moffs, op) ← match op.addrtype with
    | .bit16 => do
      let (w, op) ← readNextW env op
      pure (w.toUInt64, op)
    | .bit32 => do
      let (l, op) ← readNextL env op
      pure (l.toUInt64, op)
    | .bit64 => readNextQ env op
  pure { op with modrmAddr := moffs, modrmRipflag := false, modrmSeg := op.pfx.seg.getD .ds }

/-- `modrm_off (op, o)`. -/
def modrmOff (op : Op) (o : UInt8) : UInt64 :=
  let addr := op.modrmAddr + o.toUInt64
  let addr := if op.modrmRipflag then addr + (op.ip + op.ipOff.toUInt64) else addr
  match op.addrtype with
  | .bit16 => addr &&& 0xFFFF
  | .bit32 => addr &&& 0xFFFFFFFF
  | .bit64 => addr

end Bitvisor.X86Interp
