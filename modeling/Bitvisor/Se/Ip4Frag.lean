import Bitvisor.Se.Ip4Combine
import Bitvisor.Se.Bytes

namespace Bitvisor.Se

/-! An IPv4 packet is the bytes of `SE_IPV4_HEADER` followed by its data. The
16-bit fields the code stores through `SeEndian16` are in network order; the
checksum and the addresses are stored as host (little-endian) words. -/

/-- `SE_IPV4_GET_HEADER_LEN`, `SE_IPV4_GET_FLAGS` and `SE_IPV4_GET_OFFSET`. -/
def getHeaderLen (ip : List UInt8) : Nat := (byteAt ip 0 &&& 0x0f).toNat

def getFlags (ip : List UInt8) : Nat := ((byteAt ip 6 >>> 5) &&& 0x07).toNat

def getOffset (ip : List UInt8) : Nat := (byteAt ip 6 &&& 0x1f).toNat * 256 + (byteAt ip 7).toNat

/-- `Se4IpChecksum` over the first `size` bytes: the host words summed in an
`int`, the carries folded twice, the complement cut to 16 bits. -/
def se4IpChecksum (buf : List UInt8) (size : Nat) : Nat :=
  let words := (List.range (size / 2)).map fun k => le16 buf (2 * k)
  let sum := words.sum + (if size % 2 = 1 then (byteAt buf (size - 1)).toNat else 0)
  let sum := sum / 65536 + sum % 65536
  let sum := sum + sum / 65536
  65535 - sum % 65536

/-- `Se4IpCheckChecksum`: the checksum of the header with its checksum field
cleared equals the field. -/
def se4IpCheckChecksum (ip : List UInt8) : Bool :=
  let cleared := ip.take 10 ++ [0, 0] ++ ip.drop 12
  se4IpChecksum cleared (getHeaderLen ip * 4) == le16 ip 10

/-- `Se4SendIpFragment`: the packet for `data` at `offset` of a datagram of
`total_size` bytes; nothing for empty data. -/
def se4SendIpFragment (dest src : UInt32) (id totalSize offset : Nat) (protocol ttl : UInt8)
    (data : List UInt8) : Option (List UInt8) :=
  if data.length = 0 then none
  else
    let flags : UInt8 := if offset + data.length ≥ totalSize then 0x00 else 0x01
    let field := offset / 8
    let header0 : List UInt8 :=
      ([0x45, 0] : List UInt8) ++ bytesBe16 ((data.length + 20) % 65536) ++ bytesBe16 id ++
        [(field / 256).toUInt8 ||| ((flags &&& 0x07) <<< 5), (field % 256).toUInt8,
          if ttl = 0 then 128 else ttl, protocol, 0, 0] ++ bytesLe32 src ++ bytesLe32 dest
    let checksum := se4IpChecksum header0 20
    some (header0.take 10 ++ bytesLe16 checksum ++ header0.drop 12 ++ data)

def sendLoop (dest src : UInt32) (id totalSize mss : Nat) (protocol ttl : UInt8) (data : List UInt8) :
    Nat → Nat → Option (List (List UInt8))
  | 0, _ => none
  | fuel + 1, offset =>
      let sizeOfThisPacket := min (mss % 65536) (totalSize - offset)
      let lastPacket := (offset + sizeOfThisPacket) % 65536 = totalSize
      let pkt := (se4SendIpFragment dest src id totalSize offset protocol ttl
        ((data.drop offset).take sizeOfThisPacket)).toList
      if lastPacket then some pkt
      else (sendLoop dest src id totalSize mss protocol ttl data fuel ((offset + sizeOfThisPacket) % 65536)).map
        (pkt ++ ·)

/-- `Se4SendIp`: the next `IdSeed` and the packets sent, in order. -/
def se4SendIp (mtu : UInt32) (idSeed : UInt16) (dest src : UInt32) (protocol ttl : UInt8)
    (data : List UInt8) : Option (UInt16 × List (List UInt8)) :=
  if data.length > 65535 then some (idSeed, [])
  else
    let mss := (mtu - 20).toNat
    (sendLoop dest src idSeed.toNat data.length mss protocol ttl data (data.length + 1) 0).map
      fun pkts => (idSeed + 1, pkts)

structure Ip4Recv where
  currentIpQuota : UInt32
  ipCombineList : List Combine

/-- `Se4RecvIp` on the layer-3 bytes of a packet (its `PacketSize` less the
MAC header): the state after and what reaches `Se4RecvIpComplete`; `none`
when `Se4CombineIp` would not end. -/
def se4RecvIp (p : Ip4Recv) (tick : UInt64) (isBroadcast : Bool) (ip : List UInt8) :
    Option (Ip4Recv × List Delivery) :=
  let headerSize := getHeaderLen ip * 4
  if !se4IpCheckChecksum ip then some (p, [])
  else
    let size := be16 ip 2
    if size ≤ headerSize then some (p, [])
    else
      let size := size - headerSize
      let data := (ip.drop headerSize).take size
      if ip.length - headerSize < size then some (p, [])
      else
        let src := le32 ip 12
        let dst := le32 ip 16
        let id := (be16 ip 4).toUInt16
        let protocol := byteAt ip 9
        let ttl := byteAt ip 8
        if getOffset ip = 0 ∧ getFlags ip &&& 0x01 = 0 then
          some (p, [⟨src, dst, id, protocol, ttl, data.map some, isBroadcast⟩])
        else
          let offset := (getOffset ip * 8).toUInt32
          let isLastPacket := getFlags ip &&& 0x01 = 0
          let key (c : Combine) : Bool :=
            c.destIpAddress == dst && c.srcIpAddress == src && c.id == id && c.protocol == protocol
          let others := p.ipCombineList.filter (!key ·)
          let found : Option (Combine × UInt32) :=
            match p.ipCombineList.find? key with
            | some c => some (c, p.currentIpQuota)
            | none => se4InsertIpCombine p.currentIpQuota tick src dst id protocol ttl isBroadcast
          match found with
          | none => some (p, [])
          | some (c, quota) =>
              (se4CombineIp quota tick c offset data isLastPacket).map fun (quota, c, d) =>
                (⟨quota, c.toList ++ others⟩, d.toList)

def recvRun (tick : UInt64) (isBroadcast : Bool) : Ip4Recv → List (List UInt8) → Option (Ip4Recv × List Delivery)
  | p, [] => some (p, [])
  | p, ip :: rest =>
      (se4RecvIp p tick isBroadcast ip).bind fun (p, ds) =>
        (recvRun tick isBroadcast p rest).map fun (p, ds') => (p, ds ++ ds')

/-- What a fragment says of its piece: `offset field * 8`, the data length
and the MF flag. -/
def pieceOf (ip : List UInt8) : Nat × Nat × Bool :=
  (getOffset ip * 8, be16 ip 2 - getHeaderLen ip * 4, getFlags ip &&& 0x01 = 1)

set_option maxRecDepth 100000 in
/-- With the default `GuestMtuV4` of 1400 the MSS is 1380, not a multiple of 8:
a 1400-byte datagram goes out at offsets 0 and 1380, which the 13-bit field
says as 0 and 1376. The receiver puts the datagram together from overlapping
pieces and hands over 1396 bytes, with byte 1380 at 1376. -/
theorem se4SendIp_mss_not_multiple_of_eight :
    ((se4SendIp 1400 7 0x0200000A 0x0100000A 17 64 (List.range 1400 |>.map Nat.toUInt8)).map
      fun (_, pkts) => pkts.map pieceOf) = some [(0, 1380, true), (1376, 20, false)] ∧
    ((se4SendIp 1400 7 0x0200000A 0x0100000A 17 64 (List.range 1400 |>.map Nat.toUInt8)).bind
      fun (_, pkts) => recvRun 0 false ⟨0, []⟩ pkts).map
        (fun (_, ds) => ds.map fun d => (d.data.length, d.data[1376]?)) =
      some [(1396, some (some 100))] := by
  decide

end Bitvisor.Se
