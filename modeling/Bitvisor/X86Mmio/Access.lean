import Bitvisor.X86Mmio.Rangecheck

namespace Bitvisor.X86Mmio

def bucketOf (a : UInt64) : Nat :=
  if a ≤ 0xFFFFFFFF then (a >>> 28).toNat else 16

/-- `current->vcpu0->mmio`: the registered handles and the lists `mmio[0..16]`. -/
structure Registry where
  handle : List MmioHandle
  mmio : Nat → List MmioHandle

/-- The range of `h` touches the bucket `i`, as `scan` walks it. -/
def Touches (h : MmioHandle) (i : Nat) : Prop :=
  bucketOf h.gphys ≤ i ∧ i ≤ bucketOf (h.gphys + h.len.toUInt64 - 1)

instance (h : MmioHandle) (i : Nat) : Decidable (Touches h i) :=
  inferInstanceAs (Decidable (_ ∧ _))

/-- The layout the access loop relies on: live handles are non-empty, do not
wrap and do not overlap, each is listed in every bucket its range touches,
and every bucket is sorted by `gphys`. -/
structure Registry.Wf (reg : Registry) : Prop where
  len_pos : ∀ h ∈ reg.handle, h.unregistered = false → 0 < h.len.toNat
  no_wrap : ∀ h ∈ reg.handle, h.unregistered = false → h.gphys.toNat + h.len.toNat ≤ 2 ^ 64
  disjoint : ∀ h₁ ∈ reg.handle, ∀ h₂ ∈ reg.handle, h₁.unregistered = false →
    h₂.unregistered = false → h₁ ≠ h₂ →
    h₁.gphys.toNat + h₁.len.toNat ≤ h₂.gphys.toNat ∨ h₂.gphys.toNat + h₂.len.toNat ≤ h₁.gphys.toNat
  listed : ∀ h ∈ reg.handle, h.unregistered = false → ∀ i < 17, Touches h i → h ∈ reg.mmio i
  sorted : ∀ i < 17, (reg.mmio i).Pairwise fun h₁ h₂ => h₁.gphys ≤ h₂.gphys

inductive Event
  | gphysAccess (gphys : UInt64) (len : UInt32)
  | handler (h : MmioHandle) (gphys : UInt64) (len : UInt32)
  deriving DecidableEq, Repr

/-- `mmio_gphys_access`, which returns at once on an empty range. -/
def mmioGphysAccess (gphys : UInt64) (len : UInt32) : List Event :=
  if len = 0 then [] else [.gphysAccess gphys len]

structure Window where
  gphysaddr : UInt64
  len : UInt32
  r : Bool
  unlocked : Option (MmioHandle × UInt64 × UInt32)
  events : List Event

section Access

variable (hret : MmioHandle → UInt64 → UInt32 → Bool)

def accessHandle (h : MmioHandle) (w : Window) : Option (Window ⊕ Window) :=
  if h.gphys ≥ w.gphysaddr + w.len.toUInt64 then some (.inl w)
  else
    match rangecheck h w.gphysaddr w.len with
    | none => some (.inr w)
    | some (f, gphys2, len2) =>
        if f = false then none
        else
          let tmp := (gphys2 - w.gphysaddr).toUInt32
          let events := w.events ++ mmioGphysAccess w.gphysaddr tmp
          let gphysaddr := w.gphysaddr + tmp.toUInt64
          let len := w.len - tmp
          let call : Option (Option (MmioHandle × UInt64 × UInt32) × List Event) :=
            if h.unlockedHandler then
              if w.unlocked.isSome then none else some (some (h, gphysaddr, len2), events)
            else
              some (w.unlocked, events ++ .handler h gphysaddr len2 ::
                (if hret h gphysaddr len2 then [] else mmioGphysAccess gphysaddr len2))
          call.map fun (unlocked, events) =>
            let w' : Window := ⟨gphysaddr + len2.toUInt64, len - len2, true, unlocked, events⟩
            if w'.len = 0 then .inl w' else .inr w'

def accessList : List MmioHandle → Window → Option (Window ⊕ Window)
  | [], w => some (.inr w)
  | h :: hs, w =>
      (accessHandle hret h w).bind fun
        | .inl w => some (.inl w)
        | .inr w => accessList hs w

def accessBuckets (reg : Registry) : Nat → Nat → Window → Option (Window ⊕ Window)
  | 0, _, w => some (.inr w)
  | n + 1, i, w =>
      (accessList hret (reg.mmio i) w).bind fun
        | .inl w => some (.inl w)
        | .inr w => accessBuckets reg n (i + 1) w

/-- `do_mmio_access_memory`: the value it returns and the calls it makes,
the unlocked handler's last; `none` is a panic. -/
def doMmioAccessMemory (reg : Registry) (gphysaddr : UInt64) (len : UInt32) :
    Option (Bool × List Event) :=
  let i := bucketOf gphysaddr
  let j := bucketOf (gphysaddr + len.toUInt64 - 1)
  let w₀ : Window := ⟨gphysaddr, len, false, none, []⟩
  let loop : Option Window :=
    if len = 0 then some w₀
    else (accessBuckets hret reg (j + 1 - i) i w₀).map fun
      | .inl w => w
      | .inr w => w
  loop.map fun w =>
    let events := w.events ++ (if w.r then mmioGphysAccess w.gphysaddr w.len else [])
    match w.unlocked with
    | none => (w.r, events)
    | some (h, g, l) =>
        (w.r, events ++ .handler h g l :: (if hret h g l then [] else mmioGphysAccess g l))

end Access

def topHandle : MmioHandle := ⟨0xFFFFFFFFFFFFF000, 0x1000, 0, false, false⟩

def topRegistry : Registry := ⟨[topHandle], fun i => if i = 16 then [topHandle] else []⟩

theorem topRegistry_wf : topRegistry.Wf :=
  ⟨by decide, by decide, by decide, by decide, by decide⟩

/-- An access to the last page, which its handle covers: `gphysaddr + len`
wraps to 0, so the test `h->gphys >= gphysaddr + len` sends the loop to `out`
at the first handle, and the access is reported as not MMIO. -/
theorem doMmioAccessMemory_last_page_missed :
    topRegistry.Wf ∧ topHandle ∈ topRegistry.handle ∧ topHandle.unregistered = false ∧
      (0xFFFFFFFFFFFFF000 : UInt64).toNat + (0x1000 : UInt32).toNat ≤ 2 ^ 64 ∧
      Meets topHandle 0xFFFFFFFFFFFFF000 0x1000 ∧
      doMmioAccessMemory (fun _ _ _ => true) topRegistry 0xFFFFFFFFFFFFF000 0x1000 = some (false, []) :=
  ⟨topRegistry_wf, by decide, rfl, by decide, by decide, by decide⟩

end Bitvisor.X86Mmio
