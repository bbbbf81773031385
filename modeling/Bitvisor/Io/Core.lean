import Bitvisor.Lib.Run

namespace Bitvisor.Io

variable {H : Type}

/-- `enum iotype`. -/
inductive IoType
  | inb | inw | inl | outb | outw | outl
  deriving DecidableEq, Repr

def iotypeGetSize : IoType → Nat
  | .inb | .outb => 1
  | .inw | .outw => 2
  | .inl | .outl => 4

def iotypeIsOut : IoType → Bool
  | .inb | .inw | .inl => false
  | .outb | .outw | .outl => true

/-- `core_io_t`: the port truncated to `ioport_t`, the size and the direction. -/
structure CoreIo where
  port : UInt16
  size : Nat
  dir : Bool
  deriving DecidableEq, Repr

/-- `enum core_io_ret`. -/
inductive CoreIoRet
  | default | next | done | block | invalid
  deriving DecidableEq, Repr

/-- `enum core_io_prio`. -/
inductive CoreIoPrio
  | high | append | exclusive
  deriving DecidableEq, Repr

inductive IoFunc
  | doIoNothing | doIopassDefault | coreIofunc | monitor (n : Nat)
  deriving DecidableEq, Repr

/-- `struct handler_descriptor`; `handler` stands for the handler function
with its `arg`, and `endPort` is the field `end`. The `name` is never read. -/
structure HandlerDescriptor (H : Type) where
  start : UInt32
  endPort : UInt32
  handler : H
  priority : CoreIoPrio
  enabled : Bool
  deriving DecidableEq, Repr

/-- `MAX_HD`. -/
def maxHd : Nat := 64

/-- The descriptor table with `hd_num`, the `iofunc` array of `vcpu0` and the
VMCS I/O bitmap (a set bit makes an access to that port exit). -/
structure IoState (H : Type) where
  handlerDescriptor : List (Option (HandlerDescriptor H))
  hdNum : Nat
  iofunc : UInt16 → IoFunc
  iobmp : UInt16 → Bool

inductive Event (H : Type)
  | handler (h : H) (io : CoreIo)
  | hardware (port : UInt16) (size : Nat) (out : Bool)
  | monitor (n : Nat) (port : UInt16)
  deriving DecidableEq, Repr

def ioInit : IoState H :=
  ⟨List.replicate maxHd none, 0, fun _ => .doIopassDefault, fun _ => false⟩

/-- `set_iofunc` with `vt_iopass`: the port is masked to 16 bits and its bitmap
bit is set unless the function is `do_iopass_default`. -/
def setIofunc (st : IoState H) (port : UInt32) (func : IoFunc) : IoState H :=
  let p := (port &&& 0xFFFF).toUInt16
  { st with
    iofunc := fun q => if q = p then func else st.iofunc q
    iobmp := fun q => if q = p then func != .doIopassDefault else st.iobmp q }

def setIofuncRange (st : IoState H) (start : UInt16) (num : Nat) (func : IoFunc) : IoState H :=
  (List.range num).foldl (fun st i => setIofunc st (start.toUInt32 + i.toUInt32) func) st

/-- `core_io_register_handler`: the descriptor index, or `none` for the
"Out of memory" panic when no slot from `ihd` on is free. -/
def coreIoRegisterHandler (st : IoState H) (start : UInt16) (num : UInt64) (handler : H)
    (priority : CoreIoPrio) : Option (IoState H × Nat) :=
  let endPort : UInt16 := (start.toUInt64 + num - 1).toUInt16
  let new : HandlerDescriptor H :=
    ⟨start.toUInt32, endPort.toUInt32, handler, priority, endPort ≥ start⟩
  let ihd := if priority = .high then 0 else 10
  match (List.range' ihd (maxHd - ihd)).find? fun hd => (st.handlerDescriptor[hd]?).join.isNone with
  | none => none
  | some hd =>
      let st := { st with
        handlerDescriptor := st.handlerDescriptor.set hd (some new), hdNum := st.hdNum + 1 }
      some (if new.enabled then setIofuncRange st start num.toNat .coreIofunc else st, hd)

/-- `core_io_modify_handler`: `none` is the read of `handler_descriptor[hd]`
when it is `NULL` or out of the table. The ports of the old range keep
`core_iofunc`. -/
def coreIoModifyHandler (st : IoState H) (hd : Int) (start : UInt16) (num : UInt64) :
    Option (IoState H) :=
  let endPort : UInt16 := (start.toUInt64 + num - 1).toUInt16
  match (st.handlerDescriptor[hd.toNat]?).join.filter fun _ => 0 ≤ hd ∧ hd < maxHd with
  | none => none
  | some d =>
      let d := { d with start := start.toUInt32, endPort := endPort.toUInt32, enabled := endPort ≥ start }
      let st := { st with handlerDescriptor := st.handlerDescriptor.set hd.toNat (some d) }
      some (if d.enabled then setIofuncRange st start num.toNat .coreIofunc else st)

/-- `core_io_unregister_handler`: `none` is the `printf` reading a `NULL`
descriptor. The ports of the range keep `core_iofunc`. -/
def coreIoUnregisterHandler (st : IoState H) (hd : Int) : Option (IoState H) :=
  match (st.handlerDescriptor[hd.toNat]?).join.filter fun _ => 0 ≤ hd ∧ hd < maxHd with
  | none => none
  | some _ =>
      some { st with handlerDescriptor := st.handlerDescriptor.set hd.toNat none,
                     hdNum := st.hdNum - 1 }

section Dispatch

-- `hret h io` is what the driver's handler `h` returns for the access `io`
variable (hret : H → CoreIo → CoreIoRet)

def handlerLoop (io : CoreIo) (port : UInt32) (ret : CoreIoRet) (hooked : Bool) :
    List (HandlerDescriptor H) → CoreIoRet × Bool × List H
  | [] => (ret, hooked, [])
  | d :: ds =>
      if d.enabled ∧ d.start ≤ port ∧ port ≤ d.endPort then
        let ret := hret d.handler io
        if ret ≠ .next then (ret, true, [d.handler])
        else
          let (r, k, hs) := handlerLoop io port ret true ds
          (r, k, d.handler :: hs)
      else handlerLoop io port ret hooked ds

/-- `core_iofunc`. `none` is a panic: the loop running past the table, or a
handler returning `CORE_IO_RET_INVALID`. -/
def coreIofunc (st : IoState H) (iotype : IoType) (port : UInt32) :
    Option (IoState H × List (Event H)) :=
  let io : CoreIo := ⟨port.toUInt16, iotypeGetSize iotype, iotypeIsOut iotype⟩
  let descs := st.handlerDescriptor.filterMap id
  if descs.length < st.hdNum then none
  else
    let (ret, hooked, called) := handlerLoop hret io port .default false (descs.take st.hdNum)
    -- no handler took the first port: every port of the access is passed through
    let st := if hooked then st else
      (List.range io.size).foldl (fun st i => setIofunc st (port + i.toUInt32) .doIopassDefault) st
    let evs := called.map (Event.handler · io)
    match ret with
    | .default | .next => some (st, evs ++ [.hardware io.port io.size io.dir])
    | .done | .block => some (st, evs)
    | .invalid => none

/-- `call_io`: dispatch on the `iofunc` of the first port only. -/
def callIo (st : IoState H) (iotype : IoType) (port : UInt32) :
    Option (IoState H × List (Event H)) :=
  let port := port &&& 0xFFFF
  match st.iofunc port.toUInt16 with
  | .doIopassDefault =>
      some (st, [.hardware port.toUInt16 (iotypeGetSize iotype) (iotypeIsOut iotype)])
  | .doIoNothing => some (st, [])
  | .coreIofunc => coreIofunc hret st iotype port
  | .monitor n => some (st, [.monitor n port.toUInt16])

def ioExits (st : IoState H) (iotype : IoType) (port : UInt16) : Bool :=
  port.toNat + iotypeGetSize iotype > 0x10000 ||
    (List.range (iotypeGetSize iotype)).any fun i => st.iobmp (port + i.toUInt16)

def guestIo (st : IoState H) (iotype : IoType) (port : UInt16) :
    Option (IoState H × List (Event H)) :=
  if ioExits st iotype port then callIo hret st iotype port.toUInt32
  else some (st, [.hardware port (iotypeGetSize iotype) (iotypeIsOut iotype)])

end Dispatch

inductive Op (H : Type)
  | register (start : UInt16) (num : UInt64) (handler : H) (priority : CoreIoPrio)
  | modify (hd : Int) (start : UInt16) (num : UInt64)
  | unregister (hd : Int)
  | access (iotype : IoType) (port : UInt16)

def step (hret : H → CoreIo → CoreIoRet) (st : IoState H) : Op H → Option (IoState H × List (Event H))
  | .register start num h prio => (coreIoRegisterHandler st start num h prio).map fun (st, _) => (st, [])
  | .modify hd start num => (coreIoModifyHandler st hd start num).map (·, [])
  | .unregister hd => (coreIoUnregisterHandler st hd).map (·, [])
  | .access iotype port => guestIo hret st iotype port

def run (hret : H → CoreIo → CoreIoRet) (st : IoState H) (ops : List (Op H)) :
    Option (IoState H × List (List (Event H))) :=
  StepRun.runSteps (step hret) st ops

/-- Port `0x300` keeps `core_iofunc` after its handler is unregistered, and
`0x301` is hooked. A guest `inw 0x300` then runs on the hardware and passes
both ports through, so a later `inb 0x301` never exits. -/
theorem coreIofunc_pass_whole_width :
    (run (fun _ _ => .done) (ioInit : IoState Nat)
        [.register 0x300 1 1 .append, .register 0x301 1 2 .append, .unregister 10,
         .access .inw 0x300, .access .inb 0x301]).map (·.2) =
      some [[], [], [], [.hardware 0x300 2 false], [.hardware 0x301 1 false]] ∧
    (run (fun _ _ => .done) (ioInit : IoState Nat)
        [.register 0x300 1 1 .append, .register 0x301 1 2 .append, .unregister 10,
         .access .inw 0x300]).map (fun (st, _) =>
          (st.handlerDescriptor[11]?.join.map fun d => (d.start, d.endPort, d.enabled))) =
      some (some (0x301, 0x301, true)) ∧
    (run (fun _ _ => .done) (ioInit : IoState Nat)
        [.register 0x300 1 1 .append, .register 0x301 1 2 .append, .unregister 10,
         .access .inw 0x300]).map (fun (st, _) => (st.iofunc 0x301, st.iobmp 0x301)) =
      some (.doIopassDefault, false) ∧
    (run (fun _ _ => .done) (ioInit : IoState Nat)
        [.register 0x301 1 2 .append, .access .inw 0x300]).map (·.2) =
      some [[], [.hardware 0x300 2 false]] := by
  decide

end Bitvisor.Io
