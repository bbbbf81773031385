import Bitvisor.Se.Bytes

namespace Bitvisor.Se

structure Cbc (K : Type) where
  encrypt : K → List UInt8 → List UInt8 → List UInt8
  decrypt : K → List UInt8 → List UInt8 → List UInt8
  length_encrypt : ∀ k iv m, (encrypt k iv m).length = m.length
  decrypt_encrypt : ∀ k iv m, m.length % 8 = 0 → decrypt k iv (encrypt k iv m) = m

structure Hmac where
  mac : List UInt8 → List UInt8 → List UInt8
  length_mac : ∀ k d, (mac k d).length = 20

/-- `SeMacSha196`: the first 12 bytes of the digest. -/
def seMacSha196 (hm : Hmac) (key data : List UInt8) : List UInt8 :=
  (hm.mac key data).take 12

structure IpsecSa (K A : Type) where
  spi : UInt32
  seq : UInt32
  nextIv : List UInt8
  nextIv_length : nextIv.length = 8
  desKey : K
  hashKey : List UInt8
  srcAddr : A
  destAddr : A
  transferBytes : UInt64
  lastCommTick : UInt64

def espDataBlockSize (size : UInt32) : UInt32 :=
  let dataBlockSize := size + 2
  if dataBlockSize % 8 ≠ 0 then (dataBlockSize / 8 + 1) * 8 else dataBlockSize

def espPadding (n : Nat) : List UInt8 :=
  (List.range n).map fun i => (i + 1).toUInt8

structure EspSent (K A : Type) where
  sa : Option (IpsecSa K A)
  dest : A
  src : A
  esp : List UInt8

section Esp

variable {K A : Type} (c : Cbc K) (hm : Hmac) (ipv6 : Bool)

/-- `SeSecVirtualIpRecvCallback` for an inner packet `data`: SPI, the next
sequence number, the IV, then the encrypted block of the payload, its
padding, pad length and next header (4, or 41 for IPv6), then the ICV over
all of it. The block is put together as the code writes it into its buffer
of `esp_size` bytes, which it is as long as the sizes do not wrap. -/
def seSecVirtualIpRecvCallback (sa : IpsecSa K A) (data : List UInt8) : EspSent K A :=
  let size : UInt32 := data.length.toUInt32
  let dataBlockSize := espDataBlockSize size
  let seq := sa.seq + 1
  let paddingSize := dataBlockSize - (size + 2)
  let nextHeader : UInt8 := if ipv6 then 41 else 4
  let block := data ++ espPadding paddingSize.toNat ++ [paddingSize.toUInt8, nextHeader]
  let cipher := c.encrypt sa.desKey sa.nextIv block
  let head := bytesLe32 sa.spi ++ bytesBe32 seq.toNat ++ sa.nextIv
  let esp := head ++ cipher ++ seMacSha196 hm sa.hashKey (head ++ cipher)
  let sa' : IpsecSa K A :=
    { sa with
      seq := seq
      nextIv := List.ofFn fun i : Fin 8 => byteAt cipher (dataBlockSize.toNat - 8 + i)
      nextIv_length := List.length_ofFn
      transferBytes := sa.transferBytes + size.toUInt64 }
  ⟨if sa'.seq = 0xffffffff then none else some sa', sa.destAddr, sa.srcAddr, esp⟩

variable [DecidableEq A]

/-- `SeSecEspRecvCallback` on the incoming SA: the SA after and what is
passed to `SeSecSendVirtualIp`. Every test that fails returns with nothing
changed, so the tests before the decryption are one condition. -/
def seSecEspRecvCallback (tick : UInt64) (sa : IpsecSa K A) (dest src : A) (esp : List UInt8) :
    IpsecSa K A × Option (List UInt8) :=
  let espSize := esp.length
  let dataBlockSize := espSize - (4 + 4 + 8 + 12)
  if sa.destAddr = src ∧ sa.srcAddr = dest ∧ espSize ≥ 4 + 4 + 8 + 8 + 12 ∧ le32 esp 0 = sa.spi ∧
      0 < dataBlockSize ∧ dataBlockSize % 8 = 0 ∧
      (esp.drop (4 + 4 + 8 + dataBlockSize)).take 12 = seMacSha196 hm sa.hashKey (esp.take (espSize - 12)) then
    let payloadData := c.decrypt sa.desKey ((esp.drop 8).take 8) ((esp.drop 16).take dataBlockSize)
    let paddingSize := (byteAt payloadData (dataBlockSize - 2)).toNat
    let nextHeader := byteAt payloadData (dataBlockSize - 1)
    if dataBlockSize ≥ 2 + paddingSize ∧ nextHeader = (if ipv6 then 41 else 4) then
      let payloadSize := dataBlockSize - (2 + paddingSize)
      ({ sa with transferBytes := sa.transferBytes + payloadSize.toUInt64, lastCommTick := tick },
        some (payloadData.take payloadSize))
    else (sa, none)
  else (sa, none)

end Esp

structure Peers {K A : Type} (out inb : IpsecSa K A) : Prop where
  spi : inb.spi = out.spi
  desKey : inb.desKey = out.desKey
  hashKey : inb.hashKey = out.hashKey
  destAddr : inb.destAddr = out.srcAddr
  srcAddr : inb.srcAddr = out.destAddr

theorem toNat_espDataBlockSize {size : UInt32} (h : size.toNat + 9 < 2 ^ 32) :
    (espDataBlockSize size).toNat = (size.toNat + 9) / 8 * 8 := by
  have h2 : (size + 2).toNat = size.toNat + 2 := by
    rw [UInt32.toNat_add]
    simp only [UInt32.reduceToNat]
    omega
  dsimp only [espDataBlockSize]
  split <;> rename_i hm
  · have hm' : (size.toNat + 2) % 8 ≠ 0 := by
      intro h0
      exact hm (UInt32.toNat_inj.1 (by rw [UInt32.toNat_mod, h2]; simpa using h0))
    rw [UInt32.toNat_mul, UInt32.toNat_add, UInt32.toNat_div, h2]
    simp only [UInt32.reduceToNat]
    omega
  · have hm' : (size.toNat + 2) % 8 = 0 := by
      have := congrArg UInt32.toNat (not_not.1 hm)
      rwa [UInt32.toNat_mod, h2] at this
    rw [h2]
    omega

@[simp] theorem length_espPadding (n : Nat) : (espPadding n).length = n := by
  simp [espPadding]

theorem esp_slices (head block icv : List UInt8) (hh : head.length = 16) (hi : icv.length = 12) :
    ((head ++ block ++ icv).drop 8).take 8 = head.drop 8 ∧
      ((head ++ block ++ icv).drop 16).take block.length = block ∧
      ((head ++ block ++ icv).drop (4 + 4 + 8 + block.length)).take 12 = icv ∧
      (head ++ block ++ icv).take ((head ++ block ++ icv).length - 12) = head ++ block := by
  refine ⟨?_, ?_, ?_, ?_⟩
  · rw [List.append_assoc, List.drop_append_of_le_length (by omega), List.take_append_of_le_length (by simp; omega)]
    exact List.take_of_length_le (by simp; omega)
  · rw [List.append_assoc, List.drop_left' hh, List.take_left' rfl]
  · rw [show 4 + 4 + 8 + block.length = (head ++ block).length by simp; omega, List.drop_left' rfl]
    exact List.take_of_length_le (by omega)
  · rw [List.take_left' (by simp; omega)]

theorem espBlock_trailer (payload : List UInt8) {p : Nat} (hp : p < 256) (nh : UInt8) :
    (payload ++ espPadding p ++ [p.toUInt8, nh]).length = payload.length + p + 2 ∧
      (byteAt (payload ++ espPadding p ++ [p.toUInt8, nh]) (payload.length + p)).toNat = p ∧
      byteAt (payload ++ espPadding p ++ [p.toUInt8, nh]) (payload.length + p + 1) = nh ∧
      (payload ++ espPadding p ++ [p.toUInt8, nh]).take payload.length = payload := by
  have hlast : (payload ++ espPadding p).length = payload.length + p := by simp
  refine ⟨by simp; omega, ?_, ?_, ?_⟩
  · rw [byteAt_append_right (by omega), hlast, Nat.sub_self]
    simp only [byteAt, List.getD_cons_zero, Nat.toUInt8_eq, UInt8.toNat_ofNat']
    omega
  · rw [byteAt_append_right (by omega), hlast, show payload.length + p + 1 - (payload.length + p) = 1 by omega]
    rfl
  · rw [List.append_assoc, List.take_left' rfl]

theorem espPacket_layout (spi : UInt32) {seq iv : List UInt8} (hseq : seq.length = 4) (hiv : iv.length = 8)
    (cipher icv : List UInt8) (hicv : icv.length = 12) :
    (bytesLe32 spi ++ seq ++ iv ++ cipher ++ icv).length = 28 + cipher.length ∧
      le32 (bytesLe32 spi ++ seq ++ iv ++ cipher ++ icv) 0 = spi ∧
      ((bytesLe32 spi ++ seq ++ iv ++ cipher ++ icv).drop 8).take 8 = iv ∧
      ((bytesLe32 spi ++ seq ++ iv ++ cipher ++ icv).drop 16).take cipher.length = cipher ∧
      ((bytesLe32 spi ++ seq ++ iv ++ cipher ++ icv).drop (4 + 4 + 8 + cipher.length)).take 12 = icv ∧
      (bytesLe32 spi ++ seq ++ iv ++ cipher ++ icv).take (28 + cipher.length - 12) =
        bytesLe32 spi ++ seq ++ iv ++ cipher := by
  have hhl : (bytesLe32 spi ++ seq ++ iv).length = 16 := by simp [hseq, hiv]
  obtain ⟨hsiv, hsblock, hsicv, hstake⟩ := esp_slices _ cipher icv hhl hicv
  have hlen : (bytesLe32 spi ++ seq ++ iv ++ cipher ++ icv).length = 28 + cipher.length := by
    simp only [List.length_append, hhl, hicv] at *
    omega
  refine ⟨hlen, ?_, ?_, hsblock, hsicv, ?_⟩
  · rw [List.append_assoc, List.append_assoc, List.append_assoc, le32_bytesLe32]
  · rw [hsiv, List.drop_left' (by simp [hseq])]
  · rw [← hlen, hstake]

section Roundtrip

variable {K A : Type} [DecidableEq A] (c : Cbc K) (hm : Hmac) (ipv6 : Bool)

theorem seSecEspRecvCallback_wellFormed (tick : UInt64) (sa : IpsecSa K A) {dest src : A}
    (hd : sa.destAddr = src) (hs : sa.srcAddr = dest) {seq iv payload : List UInt8} (hseq : seq.length = 4)
    (hiv : iv.length = 8) {p : Nat} (hp : p < 256) (h8 : (payload.length + p + 2) % 8 = 0) :
    seSecEspRecvCallback c hm ipv6 tick sa dest src
        (bytesLe32 sa.spi ++ seq ++ iv ++
          c.encrypt sa.desKey iv (payload ++ espPadding p ++ [p.toUInt8, if ipv6 then 41 else 4]) ++
          seMacSha196 hm sa.hashKey (bytesLe32 sa.spi ++ seq ++ iv ++
            c.encrypt sa.desKey iv (payload ++ espPadding p ++ [p.toUInt8, if ipv6 then 41 else 4]))) =
      ({ sa with transferBytes := sa.transferBytes + payload.length.toUInt64, lastCommTick := tick },
        some payload) := by
  obtain ⟨hbl, hpad, hnh, htake⟩ := espBlock_trailer payload hp (if ipv6 then 41 else 4)
  generalize payload ++ espPadding p ++ [p.toUInt8, if ipv6 then 41 else 4] = block at hbl hpad hnh htake ⊢
  have hcl : (c.encrypt sa.desKey iv block).length = payload.length + p + 2 := by
    rw [c.length_encrypt, hbl]
  have hdec := c.decrypt_encrypt sa.desKey iv block (by omega)
  generalize c.encrypt sa.desKey iv block = cipher at hcl hdec ⊢
  have hicl : (seMacSha196 hm sa.hashKey (bytesLe32 sa.spi ++ seq ++ iv ++ cipher)).length = 12 := by
    simp [seMacSha196, hm.length_mac]
  obtain ⟨hlen, hspi, hsiv, hsblock, hsicv, hstake⟩ := espPacket_layout sa.spi hseq hiv cipher _ hicl
  simp only [seSecEspRecvCallback, hlen]
  rw [show 28 + cipher.length - (4 + 4 + 8 + 12) = cipher.length by omega]
  rw [if_pos ⟨hd, hs, by omega, hspi, by omega, by omega, by rw [hsicv, hstake]⟩, hsblock, hsiv, hdec,
    hcl, show payload.length + p + 2 - 2 = payload.length + p by omega,
    show payload.length + p + 2 - 1 = payload.length + p + 1 by omega, hpad, hnh,
    if_pos ⟨by omega, rfl⟩, show payload.length + p + 2 - (2 + p) = payload.length by omega, htake]

theorem toNat_paddingSize {n : Nat} (hn : n + 9 < 2 ^ 32) :
    (espDataBlockSize n.toUInt32 - (n.toUInt32 + 2)).toNat = (n + 9) / 8 * 8 - (n + 2) ∧
      (espDataBlockSize n.toUInt32 - (n.toUInt32 + 2)).toUInt8 =
        ((n + 9) / 8 * 8 - (n + 2)).toUInt8 := by
  have hsize : n.toUInt32.toNat = n := by
    rw [Nat.toUInt32_eq, UInt32.toNat_ofNat']
    omega
  have hdbs := @toNat_espDataBlockSize n.toUInt32 (by omega)
  rw [hsize] at hdbs
  have hsum : (n.toUInt32 + 2).toNat = n + 2 := by
    rw [UInt32.toNat_add, hsize]
    simp
    omega
  have hpad : (espDataBlockSize n.toUInt32 - (n.toUInt32 + 2)).toNat = (n + 9) / 8 * 8 - (n + 2) := by
    rw [UInt32.toNat_sub_of_le _ _ (by rw [UInt32.le_iff_toNat_le, hsum, hdbs]; omega), hsum, hdbs]
  refine ⟨hpad, ?_⟩
  apply UInt8.toNat_inj.mp
  rw [UInt32.toNat_toUInt8, hpad, Nat.toUInt8_eq, UInt8.toNat_ofNat']

theorem seSecEspRecvCallback_sent (tick : UInt64) {out inb : IpsecSa K A} (hp : Peers out inb)
    (data : List UInt8) (hn : data.length + 37 < 2 ^ 32) :
    seSecEspRecvCallback c hm ipv6 tick inb (seSecVirtualIpRecvCallback c hm ipv6 out data).dest
        (seSecVirtualIpRecvCallback c hm ipv6 out data).src (seSecVirtualIpRecvCallback c hm ipv6 out data).esp =
      ({ inb with transferBytes := inb.transferBytes + data.length.toUInt64, lastCommTick := tick }, some data) := by
  obtain ⟨hpad, hpad8⟩ := toNat_paddingSize (n := data.length) (by omega)
  dsimp only [seSecVirtualIpRecvCallback]
  rw [hpad, hpad8, ← hp.spi, ← hp.desKey, ← hp.hashKey]
  apply seSecEspRecvCallback_wellFormed c hm ipv6 tick inb hp.destAddr hp.srcAddr
  · simp
  · exact out.nextIv_length
  · omega
  · omega

def MacVerifies (hm : Hmac) (hashKey esp : List UInt8) : Prop :=
  esp.drop (esp.length - 12) = seMacSha196 hm hashKey (esp.take (esp.length - 12))

theorem seSecEspRecvCallback_rejected (tick : UInt64) (sa : IpsecSa K A) (dest src : A) (esp : List UInt8)
    (h : (¬∃ k ≥ 1, esp.length = 4 + 4 + 8 + 8 * k + 12) ∨ ¬MacVerifies hm sa.hashKey esp) :
    seSecEspRecvCallback c hm ipv6 tick sa dest src esp = (sa, none) := by
  simp only [seSecEspRecvCallback]
  rw [if_neg]
  rintro ⟨-, -, hge, -, hpos, hmod, hmac⟩
  rcases h with h | h
  · exact h ⟨(esp.length - 28) / 8, by omega, by omega⟩
  · apply h
    rw [show 4 + 4 + 8 + (esp.length - (4 + 4 + 8 + 12)) = esp.length - 12 by omega,
      List.take_of_length_le (by simp; omega)] at hmac
    exact hmac

/-- The tunnel between two peer SAs: the receiver hands over exactly what the
sender was given, and drops, with the SA as it was, every packet of a length
no sender produces or with an ICV that does not verify. -/
theorem seSecEspRecvCallback_tunnel (tick : UInt64) {out inb : IpsecSa K A} (hp : Peers out inb) :
    (∀ data : List UInt8, data.length + 37 < 2 ^ 32 →
      seSecEspRecvCallback c hm ipv6 tick inb (seSecVirtualIpRecvCallback c hm ipv6 out data).dest
          (seSecVirtualIpRecvCallback c hm ipv6 out data).src (seSecVirtualIpRecvCallback c hm ipv6 out data).esp =
        ({ inb with transferBytes := inb.transferBytes + data.length.toUInt64, lastCommTick := tick }, some data)) ∧
      ∀ (dest src : A) (esp : List UInt8),
        ((¬∃ k ≥ 1, esp.length = 4 + 4 + 8 + 8 * k + 12) ∨ ¬MacVerifies hm inb.hashKey esp) →
          seSecEspRecvCallback c hm ipv6 tick inb dest src esp = (inb, none) :=
  ⟨fun data hn => seSecEspRecvCallback_sent c hm ipv6 tick hp data hn,
    fun dest src esp h => seSecEspRecvCallback_rejected c hm ipv6 tick inb dest src esp h⟩

end Roundtrip

def plainCbc : Cbc Unit :=
  ⟨fun _ _ m => m, fun _ _ m => m, fun _ _ _ => rfl, fun _ _ _ _ => rfl⟩

def zeroHmac : Hmac :=
  ⟨fun _ _ => List.replicate 20 0, fun _ _ => List.length_replicate⟩

def outboundSa : IpsecSa Unit Nat :=
  ⟨0x1234, 0, List.replicate 8 0, List.length_replicate, (), [1, 2, 3], 1, 2, 0, 0⟩

def inboundSa : IpsecSa Unit Nat :=
  ⟨0x1234, 0, List.replicate 8 0, List.length_replicate, (), [1, 2, 3], 2, 1, 0, 0⟩

theorem seSecEspRecvCallback_tunnel_plain :
    Peers outboundSa inboundSa ∧
      ((∀ data : List UInt8, data.length + 37 < 2 ^ 32 →
        seSecEspRecvCallback plainCbc zeroHmac false 5 inboundSa
            (seSecVirtualIpRecvCallback plainCbc zeroHmac false outboundSa data).dest
            (seSecVirtualIpRecvCallback plainCbc zeroHmac false outboundSa data).src
            (seSecVirtualIpRecvCallback plainCbc zeroHmac false outboundSa data).esp =
          ({ inboundSa with transferBytes := inboundSa.transferBytes + data.length.toUInt64, lastCommTick := 5 },
            some data)) ∧
        ∀ (dest src : Nat) (esp : List UInt8),
          ((¬∃ k ≥ 1, esp.length = 4 + 4 + 8 + 8 * k + 12) ∨ ¬MacVerifies zeroHmac inboundSa.hashKey esp) →
            seSecEspRecvCallback plainCbc zeroHmac false 5 inboundSa dest src esp = (inboundSa, none)) := by
  have hp : Peers outboundSa inboundSa := ⟨rfl, rfl, rfl, rfl, rfl⟩
  exact ⟨hp, seSecEspRecvCallback_tunnel plainCbc zeroHmac false 5 hp⟩

end Bitvisor.Se
