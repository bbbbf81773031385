import Bitvisor.Se.Bytes

namespace Bitvisor.Se

def seIpv6HeaderHop : UInt8 := 0
def seIpv6HeaderEndpoint : UInt8 := 60
def seIpv6HeaderRouting : UInt8 := 43
def seIpv6HeaderFragment : UInt8 := 44
def seIpv6HeaderNone : UInt8 := 59

/-- `SE_IPV6_HEADER_PACKET_INFO`, with the pointers as offsets into the packet. -/
structure Ip6Info where
  hopHeader : Option Nat := none
  hopHeaderSize : Nat := 0
  endPointHeader : Option Nat := none
  endPointHeaderSize : Nat := 0
  routingHeader : Option Nat := none
  routingHeaderSize : Nat := 0
  fragmentHeader : Option Nat := none
  payload : Option Nat := none
  payloadSize : Nat := 0
  protocol : UInt8 := 0
  deriving DecidableEq, Repr

def parseExtHeader (buf : List UInt8) : Nat → Ip6Info → UInt8 → UInt8 → Nat → Nat → Option (Bool × Ip6Info)
  | 0, _, _, _, _, _ => none
  | fuel + 1, info, nextHeader, nextHeader2, pos, size =>
      let nextHeader2 := if size > 8 then byteAt buf pos else nextHeader2
      if nextHeader = seIpv6HeaderHop ∨ nextHeader = seIpv6HeaderEndpoint ∨
          nextHeader = seIpv6HeaderRouting then
        if size < 8 then some (false, info)
        else
          let optionHeaderSize := ((byteAt buf (pos + 1)).toNat + 1) * 8
          if size < optionHeaderSize then some (false, info)
          else
            let info :=
              if nextHeader = seIpv6HeaderHop then
                { info with hopHeader := some pos, hopHeaderSize := optionHeaderSize }
              else if nextHeader = seIpv6HeaderEndpoint then
                { info with endPointHeader := some pos, endPointHeaderSize := optionHeaderSize }
              else { info with routingHeader := some pos, routingHeaderSize := optionHeaderSize }
            parseExtHeader buf fuel info nextHeader2 nextHeader2 (pos + optionHeaderSize)
              (size - optionHeaderSize)
      else if nextHeader = seIpv6HeaderFragment then
        if size < 8 then some (false, info)
        else
          parseExtHeader buf fuel { info with fragmentHeader := some pos } nextHeader2 nextHeader2 (pos + 8)
            (size - 8)
      else if nextHeader ≠ seIpv6HeaderNone then
        some (true, { info with payload := some pos, payloadSize := size, protocol := nextHeader })
      else some (true, { info with payload := none, payloadSize := 0, protocol := nextHeader })

/-- `SeParseIPv6Packet`: the 40-byte header, its version, then the extension
headers from its `NextHeader`. -/
def seParseIPv6Packet (buf : List UInt8) : Option (Bool × Ip6Info) :=
  if buf.length < 40 then some (false, {})
  else if (byteAt buf 0 >>> 4) &&& 0x0f ≠ 6 then some (false, {})
  else parseExtHeader buf (buf.length - 40 + 1) {} (byteAt buf 6) seIpv6HeaderNone 40 (buf.length - 40)

/-- The chain as the header formats read it: every extension header names the
next one in its own first byte. It gives the protocol at the end of the chain,
where that header starts and how many bytes follow. -/
def extChain (buf : List UInt8) : Nat → UInt8 → Nat → Nat → Option (UInt8 × Nat × Nat)
  | 0, _, _, _ => none
  | fuel + 1, nextHeader, pos, size =>
      if nextHeader = seIpv6HeaderHop ∨ nextHeader = seIpv6HeaderEndpoint ∨
          nextHeader = seIpv6HeaderRouting then
        let len := ((byteAt buf (pos + 1)).toNat + 1) * 8
        if size < len then none else extChain buf fuel (byteAt buf pos) (pos + len) (size - len)
      else if nextHeader = seIpv6HeaderFragment then
        if size < 8 then none else extChain buf fuel (byteAt buf pos) (pos + 8) (size - 8)
      else some (nextHeader, pos, size)

/-- An IPv6 header followed by a hop-by-hop header naming a routing header,
and a routing header naming no next header, the two ending the packet. The
chain fits, but the routing header ends with 8 bytes left, so the loop keeps
the hop-by-hop header's next header (routing) for the round after it, finds
no bytes for it and rejects the packet. -/
theorem seParseIPv6Packet_last_header_at_end :
    extChain ([0x60, 0, 0, 0, 0, 16, 0, 64] ++ List.replicate 32 0 ++
        [43, 0, 1, 4, 0, 0, 0, 0] ++ [59, 0, 0, 0, 0, 0, 0, 0]) 17 0 40 16 = some (59, 56, 0) ∧
      (seParseIPv6Packet ([0x60, 0, 0, 0, 0, 16, 0, 64] ++ List.replicate 32 0 ++
        [43, 0, 1, 4, 0, 0, 0, 0] ++ [59, 0, 0, 0, 0, 0, 0, 0])).map Prod.fst = some false := by
  decide

end Bitvisor.Se
