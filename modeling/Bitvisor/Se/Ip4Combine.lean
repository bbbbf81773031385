import Mathlib.Data.Nat.Basic

namespace Bitvisor.Se

/-- `SE_IPV4_FRAGMENT`: a piece of the datagram already received. -/
structure Fragment where
  offset : UInt32
  size : UInt32
  deriving DecidableEq, Repr

/-- `SE_IPV4_COMBINE`, one datagram being reassembled. `data` holds the bytes
of `Data` that some fragment wrote, and `none` where the buffer still holds
what `SeMalloc` or `SeReAlloc` left there. -/
structure Combine where
  destIpAddress : UInt32
  srcIpAddress : UInt32
  id : UInt16
  protocol : UInt8
  ttl : UInt8
  isBroadcast : Bool
  expire : UInt64
  size : UInt32
  dataReserved : UInt32
  data : Nat → Option UInt8
  ipFragmentList : List Fragment

def seIp4MaxPayloadSize : UInt32 := 65535
def seIpv4CombineInitialBufSize : UInt32 := 4096
def seIpv4CombineQueueSizeQuota : UInt32 := 1024 * 1024
def seIpv4CombineTimeout : UInt64 := 60

structure Delivery where
  srcIpAddress : UInt32
  destIpAddress : UInt32
  id : UInt16
  protocol : UInt8
  ttl : UInt8
  data : List (Option UInt8)
  isBroadcast : Bool

/-- `Se4InsertIpCombine`: a new entry with an empty 4096-byte buffer, unless
the quota would be exceeded. Returns the entry and `CurrentIpQuota`. -/
def se4InsertIpCombine (quota : UInt32) (tick : UInt64) (srcIp destIp : UInt32) (id : UInt16)
    (protocol ttl : UInt8) (isBroadcast : Bool) : Option (Combine × UInt32) :=
  if quota + seIpv4CombineInitialBufSize > seIpv4CombineQueueSizeQuota then none
  else
    some (⟨destIp, srcIp, id, protocol, ttl, isBroadcast, tick + seIpv4CombineTimeout * 1000, 0,
      seIpv4CombineInitialBufSize, fun _ => none, []⟩, quota + seIpv4CombineInitialBufSize)

def reserve : Nat → UInt32 → UInt32 → Option UInt32
  | 0, _, _ => none
  | fuel + 1, r, need => if r < need then reserve fuel (r * 4) need else some r

def trimAgainst (f : Fragment) (offset size : UInt32) : Fragment × UInt32 × UInt32 :=
  let (offset, size) :=
    if f.offset ≤ offset ∧ f.offset + f.size > offset then
      if offset + size ≤ f.offset + f.size then (offset, 0)
      else
        let movingSize := f.offset + f.size - offset
        (offset + movingSize, size - movingSize)
    else (offset, size)
  let size :=
    if f.offset < offset + size ∧ f.offset + f.size ≥ offset + size then
      size - (f.offset + f.size - offset - size)
    else size
  let f := if f.offset ≥ offset ∧ f.offset + f.size ≤ offset + size then { f with size := 0 } else f
  (f, offset, size)

def trimList : List Fragment → UInt32 → UInt32 → List Fragment × UInt32 × UInt32
  | [], offset, size => ([], offset, size)
  | f :: fs, offset, size =>
      let (f, offset, size) := trimAgainst f offset size
      let (fs, offset, size) := trimList fs offset size
      (f :: fs, offset, size)

/-- `SeCopy (Data + offset, data, size)`. -/
def writeBytes (d : Nat → Option UInt8) (offset : Nat) (bytes : List UInt8) : Nat → Option UInt8 :=
  fun i => if offset ≤ i ∧ i < offset + bytes.length then bytes[i - offset]? else d i

def totalSize (fs : List Fragment) : UInt32 :=
  fs.foldl (fun t f => t + f.size) 0

/-- `Se4CombineIp` on the entry `c` for a fragment of `data.length` bytes at
`offset`. It returns the quota, the entry (`none` once the datagram is handed
to `Se4RecvIpComplete` and freed) and what is handed over; `none` when the
buffer loop would not end. -/
def se4CombineIp (quota : UInt32) (tick : UInt64) (c : Combine) (offset : UInt32) (data : List UInt8)
    (lastPacket : Bool) : Option (UInt32 × Option Combine × Option Delivery) :=
  let size := data.length.toUInt32
  if offset + size > seIp4MaxPayloadSize then some (quota, some c, none)
  else if lastPacket = false ∧ c.size ≠ 0 ∧ offset + size > c.size then some (quota, some c, none)
  else
    (reserve 16 c.dataReserved (offset + size)).map fun reserved =>
      let quota := quota + (reserved - c.dataReserved)
      let c := { c with dataReserved := reserved, data := writeBytes c.data offset.toNat data }
      let c := if lastPacket then { c with size := offset + size } else c
      let (fs, offset, size) := trimList c.ipFragmentList offset size
      let c := { c with ipFragmentList := fs }
      let added : Fragment := ⟨offset, size⟩
      let c := if size ≠ 0 then
          { c with ipFragmentList := c.ipFragmentList ++ [added], expire := tick + seIpv4CombineTimeout * 1000 }
        else c
      if c.size ≠ 0 ∧ totalSize c.ipFragmentList = c.size then
        (quota - c.dataReserved, none,
          some ⟨c.srcIpAddress, c.destIpAddress, c.id, c.protocol, c.ttl,
            (List.range c.size.toNat).map c.data, c.isBroadcast⟩)
      else (quota, some c, none)

def combineRun (tick : UInt64) : UInt32 × Combine → List (UInt32 × List UInt8 × Bool) →
    Option (UInt32 × Option Combine × List Delivery)
  | (q, c), [] => some (q, some c, [])
  | (q, c), (offset, data, last) :: rest =>
      (se4CombineIp q tick c offset data last).bind fun
        | (q, none, d) => some (q, none, d.toList)
        | (q, some c, d) => (combineRun tick (q, c) rest).map fun (q, c, ds) => (q, c, d.toList ++ ds)

/-- Fragments of 32 bytes at 0, 8 bytes at 8 and the last 24 bytes at 48:
the second is recorded as the piece `(8, 0xFFFFFFE8)`, the sizes add up
modulo `2 ^ 32` to 72, and the datagram is handed over with bytes 32 to 47
never written. -/
theorem combineRun_delivers_unwritten_bytes :
    ((se4InsertIpCombine 0 0 0x0A000001 0x0A000002 7 17 64 false).bind fun (c, q) =>
      combineRun 0 (q, c) [(0, List.replicate 32 1, false), (8, List.replicate 8 2, false)]).map
        (fun (_, c, _) => c.map (·.ipFragmentList)) = some (some [⟨0, 32⟩, ⟨8, 0xFFFFFFE8⟩]) ∧
    ((se4InsertIpCombine 0 0 0x0A000001 0x0A000002 7 17 64 false).bind fun (c, q) =>
      combineRun 0 (q, c) [(0, List.replicate 32 1, false), (8, List.replicate 8 2, false),
        (48, List.replicate 24 3, true)]).map
        (fun (_, _, ds) => ds.map fun d => (d.data.length, d.data[32]?)) = some [(72, some none)] := by
  decide

end Bitvisor.Se
