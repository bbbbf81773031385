import Mathlib.Data.List.Basic

namespace Bitvisor.Cache

/-- `CACHE_TYPE_UC`, `CACHE_TYPE_WT`, `CACHE_TYPE_WB` and `CACHE_TYPE_UC_MINUS`. -/
def cacheTypeUc : UInt8 := 0x00

def cacheTypeWt : UInt8 := 0x04

def cacheTypeWb : UInt8 := 0x06

def cacheTypeUcMinus : UInt8 := 0x07

/-- `GMTRR_VCNT`, that is `MTRR_VCNT_MAX`. -/
def gmtrrVcnt : Nat := 10

/-- `MSR_IA32_MTRR_PHYSBASE0`. -/
def msrIa32MtrrPhysbase0 : Nat := 0x200

def physbaseTypeMask : UInt64 := 0xFF

def physbasePhysbaseMask : UInt64 := 0xFFFFFFFFFF000

def physmaskVBit : UInt64 := 0x800

def physmaskPhysmaskMask : UInt64 := 0xFFFFFFFFFF000

def defTypeTypeMask : UInt64 := 0xFF

def defTypeFeBit : UInt64 := 0x400

def defTypeEBit : UInt64 := 0x800

def syscfgTom2forcememtypewbBit : UInt64 := 0x400000

def topMem2AddrMask : UInt64 := 0xFFFFFFF800000

structure CacheRegs where
  mtrrDefType : UInt64
  mtrrPhysbase : List UInt64
  mtrrPhysmask : List UInt64
  mtrrFix : List UInt8
  syscfg : UInt64
  topMem2 : UInt64
  deriving DecidableEq, Repr

def CacheRegs.ranges (c : CacheRegs) : List (UInt64 × UInt64) :=
  (List.range gmtrrVcnt).map fun i => (c.mtrrPhysbase.getD i 0, c.mtrrPhysmask.getD i 0)

def fixIndex (phys : UInt64) : Nat :=
  if phys &&& 0x80000 ≠ 0 then
    if phys &&& 0x40000 ≠ 0 then ((phys &&& 0x3F000) >>> 12).toNat
    else 64 + ((phys &&& 0x3C000) >>> 14).toNat
  else 80 + ((phys &&& 0x70000) >>> 16).toNat

def mtrrTypeLoop (phys : UInt64) : List (UInt64 × UInt64) → UInt8 → UInt8 ⊕ UInt8
  | [], type => .inr type
  | (base, mask) :: rest, type =>
      if mask &&& physmaskVBit = 0 then mtrrTypeLoop phys rest type
      else
        let mask := mask &&& physmaskPhysmaskMask
        let basetype := (base &&& physbaseTypeMask).toUInt8
        if mask &&& base = mask &&& phys then
          if basetype = cacheTypeUc then .inl cacheTypeUc
          else if basetype = cacheTypeWt then mtrrTypeLoop phys rest cacheTypeWt
          else mtrrTypeLoop phys rest (if type = cacheTypeUcMinus then basetype else type)
        else mtrrTypeLoop phys rest type

def tom2Wb (c : CacheRegs) (phys : UInt64) : Bool :=
  decide (phys ≥ 0x100000000) && c.syscfg &&& syscfgTom2forcememtypewbBit != 0 &&
    decide (phys < c.topMem2 &&& topMem2AddrMask)

/-- `get_mtrr_type`. -/
def getMtrrType (phys : UInt64) (c : CacheRegs) (passMtrrfix : Bool) : UInt8 :=
  if c.mtrrDefType &&& defTypeEBit = 0 then cacheTypeUc
  else if c.mtrrDefType &&& defTypeFeBit ≠ 0 ∧ phys ≤ 0xFFFFF then
    if passMtrrfix then cacheTypeWb else c.mtrrFix.getD (fixIndex phys) 0
  else
    match mtrrTypeLoop phys c.ranges cacheTypeUcMinus with
    | .inl r => r
    | .inr type =>
        if type ≠ cacheTypeUcMinus then type
        else if tom2Wb c phys then cacheTypeWb
        else (c.mtrrDefType &&& defTypeTypeMask).toUInt8

def mtrrTypeEqualLoop (phys physmask : UInt64) : List (UInt64 × UInt64) → UInt8 → Bool ⊕ UInt8
  | [], type => .inr type
  | (base, mask) :: rest, type =>
      if mask &&& physmaskVBit = 0 then mtrrTypeEqualLoop phys physmask rest type
      else
        let mask := mask &&& physmaskPhysmaskMask
        let maskbase := mask &&& base
        let basetype := (base &&& physbaseTypeMask).toUInt8
        if maskbase = mask &&& phys then
          if mask &&& physmask ≠ 0 then .inl false
          else if basetype = cacheTypeUc then .inl true
          else if basetype = cacheTypeWt then mtrrTypeEqualLoop phys physmask rest cacheTypeWt
          else mtrrTypeEqualLoop phys physmask rest (if type = cacheTypeUcMinus then basetype else type)
        else if mask &&& physmask ≠ 0 ∧ maskbase &&& ~~~physmask = phys &&& ~~~physmask then .inl false
        else mtrrTypeEqualLoop phys physmask rest type

/-- `mtrr_type_equal`: whether every address of `phys..phys | physmask` has
the type of `phys`. -/
def mtrrTypeEqual (phys : UInt64) (c : CacheRegs) (_passMtrrfix : Bool) (physmask : UInt64) : Bool :=
  if c.mtrrDefType &&& defTypeEBit = 0 then false
  else if c.mtrrDefType &&& defTypeFeBit ≠ 0 ∧ (phys ≤ 0xFFFFF ∨ phys ≤ physmask) then false
  else
    match mtrrTypeEqualLoop phys physmask c.ranges cacheTypeUcMinus with
    | .inl r => r
    | .inr type =>
        if type ≠ cacheTypeUcMinus then true
        else if tom2Wb c phys then decide ((phys ||| physmask) < c.topMem2 &&& topMem2AddrMask)
        else true

/-- `is_type_ok` against the host's PAT entries. -/
def isTypeOk (hostPat : List UInt8) (type : UInt8) : Bool := hostPat.contains type

/-- `set_gmtrr_range`: `true` is an error (a `#GP` for the guest), with the
registers left as they were. -/
def setGmtrrRange (hostPat : List UInt8) (g : CacheRegs) (msrNum : Nat) (value : UInt64) : Bool × CacheRegs :=
  let index := (msrNum - msrIa32MtrrPhysbase0) / 2
  if index ≥ gmtrrVcnt then (true, g)
  else if msrNum % 2 = 1 then
    if value &&& ~~~(physmaskPhysmaskMask ||| physmaskVBit) ≠ 0 then (true, g)
    else (false, { g with mtrrPhysmask := g.mtrrPhysmask.set index value })
  else
    if value &&& ~~~(physbasePhysbaseMask ||| physbaseTypeMask) ≠ 0 then (true, g)
    else
      let type := (value &&& physbaseTypeMask).toUInt8
      if !isTypeOk hostPat type || type = cacheTypeUcMinus then (true, g)
      else (false, { g with mtrrPhysbase := g.mtrrPhysbase.set index value })

/-- `pat_default`. -/
def patDefault : List UInt8 :=
  [cacheTypeWb, cacheTypeWt, cacheTypeUcMinus, cacheTypeUc, cacheTypeWb, cacheTypeWt, cacheTypeUcMinus, cacheTypeUc]

def enabledWb : CacheRegs :=
  ⟨defTypeEBit ||| cacheTypeWb.toUInt64, List.replicate gmtrrVcnt 0, List.replicate gmtrrVcnt 0,
    List.replicate 88 0, 0, 0⟩

/-- A guest sets range 0 to the uncached base `0x1000` with a range mask
that leaves out bit 21. For the 2 MiB page at `0x200000` the check compares
`mask & base` outside the page with the page address itself, not with
`mask & phys`, so it misses that the range covers `0x201000`. -/
theorem mtrrTypeEqual_misses_holed_mask :
    (setGmtrrRange patDefault enabledWb 0x200 0x1000).1 = false ∧
    (setGmtrrRange patDefault (setGmtrrRange patDefault enabledWb 0x200 0x1000).2 0x201 0xFFFFFFFDFF800).1 = false ∧
    (0x200000 : UInt64) &&& 0x1FFFFF = 0 ∧ (0x200000 : UInt64) ≤ 0x201000 ∧ (0x201000 : UInt64) ≤ 0x200000 + 0x1FFFFF ∧
    mtrrTypeEqual 0x200000
      (setGmtrrRange patDefault (setGmtrrRange patDefault enabledWb 0x200 0x1000).2 0x201 0xFFFFFFFDFF800).2
      false 0x1FFFFF = true ∧
    getMtrrType 0x201000
      (setGmtrrRange patDefault (setGmtrrRange patDefault enabledWb 0x200 0x1000).2 0x201 0xFFFFFFFDFF800).2
      false = cacheTypeUc ∧
    getMtrrType 0x200000
      (setGmtrrRange patDefault (setGmtrrRange patDefault enabledWb 0x200 0x1000).2 0x201 0xFFFFFFFDFF800).2
      false = cacheTypeWb := by
  decide

end Bitvisor.Cache
