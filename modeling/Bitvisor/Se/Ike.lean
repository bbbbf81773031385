import Bitvisor.Se.Esp

namespace Bitvisor.Se

/-! ISAKMP packets as `SeIkeBuild` writes them and `SeIkeParse` reads them
back (SeIke.c). A list the parser may leave `NULL` is an `Option`. -/

structure TransformValue where
  type : UInt8
  value : UInt32
deriving DecidableEq, Repr

/-- `SE_IKE_PACKET_PAYLOAD` by payload kind; `data` is the generic data
payload of the key exchange, hash, signature, nonce and vendor ID kinds. -/
inductive Payload where
  | sa (payloadList : Option (List Payload))
  | proposal (number protocolId : UInt8) (spi : List UInt8) (payloadList : Option (List Payload))
  | transform (number transformId : UInt8) (valueList : Option (List TransformValue))
  | id (type protocolId : UInt8) (port : UInt16) (idData : List UInt8)
  | cert (certType : UInt8) (certData : List UInt8)
  | certRequest (certType : UInt8) (data : List UInt8)
  | notice (protocolId : UInt8) (messageType : UInt16) (spi messageData : List UInt8)
  | delete (protocolId : UInt8) (spiList : List (List UInt8))
  | data (payloadType : UInt8) (data : List UInt8)
deriving Repr

def Payload.payloadType : Payload → UInt8
  | .sa _ => 1
  | .proposal .. => 2
  | .transform .. => 3
  | .id .. => 5
  | .cert .. => 6
  | .certRequest .. => 7
  | .notice .. => 11
  | .delete .. => 12
  | .data t _ => t

mutual

def Payload.beq : Payload → Payload → Bool
  | .sa l, .sa l' => Payload.optionBeq l l'
  | .proposal n p s l, .proposal n' p' s' l' => n == n' && p == p' && s == s' && Payload.optionBeq l l'
  | .transform n t v, .transform n' t' v' => n == n' && t == t' && v == v'
  | .id t p po d, .id t' p' po' d' => t == t' && p == p' && po == po' && d == d'
  | .cert c d, .cert c' d' => c == c' && d == d'
  | .certRequest c d, .certRequest c' d' => c == c' && d == d'
  | .notice p m s d, .notice p' m' s' d' => p == p' && m == m' && s == s' && d == d'
  | .delete p s, .delete p' s' => p == p' && s == s'
  | .data t d, .data t' d' => t == t' && d == d'
  | _, _ => false

def Payload.listBeq : List Payload → List Payload → Bool
  | [], [] => true
  | a :: as, b :: bs => a.beq b && Payload.listBeq as bs
  | _, _ => false

def Payload.optionBeq : Option (List Payload) → Option (List Payload) → Bool
  | none, none => true
  | some l, some l' => Payload.listBeq l l'
  | _, _ => false

end

mutual

theorem Payload.eq_of_beq : (a b : Payload) → a.beq b = true → a = b
  | .sa l, .sa l', h => by
    rw [Payload.eq_of_optionBeq l l' (by simpa only [Payload.beq] using h)]
  | .proposal n p s l, .proposal n' p' s' l', h => by
    simp only [Payload.beq, Bool.and_eq_true, beq_iff_eq] at h
    rw [h.1.1.1, h.1.1.2, h.1.2, Payload.eq_of_optionBeq l l' h.2]
  | .sa _, .proposal .., h | .sa _, .transform .., h | .sa _, .id .., h | .sa _, .cert .., h
  | .sa _, .certRequest .., h | .sa _, .notice .., h | .sa _, .delete .., h | .sa _, .data .., h => by
    simp [Payload.beq] at h
  | .proposal .., .sa _, h | .proposal .., .transform .., h | .proposal .., .id .., h
  | .proposal .., .cert .., h | .proposal .., .certRequest .., h | .proposal .., .notice .., h
  | .proposal .., .delete .., h | .proposal .., .data .., h => by
    simp [Payload.beq] at h
  | .transform .., b, h | .id .., b, h | .cert .., b, h | .certRequest .., b, h | .notice .., b, h
  | .delete .., b, h | .data .., b, h => by
    cases b <;> simp_all [Payload.beq]

theorem Payload.eq_of_listBeq : (a b : List Payload) → Payload.listBeq a b = true → a = b
  | [], [], _ => rfl
  | a :: as, b :: bs, h => by
    simp only [Payload.listBeq, Bool.and_eq_true] at h
    rw [Payload.eq_of_beq a b h.1, Payload.eq_of_listBeq as bs h.2]
  | [], _ :: _, h | _ :: _, [], h => by simp [Payload.listBeq] at h

theorem Payload.eq_of_optionBeq : (a b : Option (List Payload)) → Payload.optionBeq a b = true → a = b
  | none, none, _ => rfl
  | some l, some l', h => by rw [Payload.eq_of_listBeq l l' h]
  | none, some _, h | some _, none, h => by simp [Payload.optionBeq] at h

end

mutual

theorem Payload.beq_self : (a : Payload) → a.beq a = true
  | .sa l => by simpa only [Payload.beq] using Payload.optionBeq_self l
  | .proposal _ _ _ l => by simpa [Payload.beq] using Payload.optionBeq_self l
  | .transform .. | .id .. | .cert .. | .certRequest .. | .notice .. | .delete .. | .data .. => by
    simp [Payload.beq]

theorem Payload.listBeq_self : (a : List Payload) → Payload.listBeq a a = true
  | [] => rfl
  | a :: as => by simp [Payload.listBeq, Payload.beq_self a, Payload.listBeq_self as]

theorem Payload.optionBeq_self : (a : Option (List Payload)) → Payload.optionBeq a a = true
  | none => rfl
  | some l => Payload.listBeq_self l

end

instance : DecidableEq Payload := fun a b =>
  if h : a.beq b then isTrue (Payload.eq_of_beq a b h)
  else isFalse fun e => h (e ▸ Payload.beq_self a)

def seIkeGetFirstPayloadType : List Payload → UInt8
  | [] => 0
  | p :: _ => p.payloadType

/-- `SeIkeBuildTransformValue`: a value below 65536 in the TV form, any other
in the TLV form, whose length field `sizeof(UINT)` is written without
`SeEndian16`. -/
def seIkeBuildTransformValue (v : TransformValue) : List UInt8 :=
  if v.value.toNat ≥ 65536 then [0, v.type] ++ bytesLe16 4 ++ bytesBe32 v.value.toNat
  else [0x80, v.type] ++ bytesBe16 v.value.toNat

mutual

/-- `SeIkeBuildPayload`: the body of one payload, after its common header.
The delete payload's SPI count is written without `SeEndian16`, and the
notice payload's message data not at all. -/
def seIkeBuildPayload : Payload → List UInt8
  | .sa l => bytesBe32 1 ++ bytesBe32 1 ++ seIkeBuildOptionList l
  | .proposal n pid spi l =>
    [n, pid, spi.length.toUInt8, (seIkeListNum l).toUInt8] ++ spi ++ seIkeBuildOptionList l
  | .transform n tid vs => [n, tid, 0, 0] ++ (vs.getD []).flatMap seIkeBuildTransformValue
  | .id t pid port d => [t, pid] ++ bytesBe16 port.toNat ++ d
  | .cert ct d => ct :: d
  | .certRequest ct d => ct :: d
  | .notice pid mt spi _ => bytesBe32 1 ++ [pid, spi.length.toUInt8] ++ bytesBe16 mt.toNat ++ spi
  | .delete pid spis =>
    bytesBe32 1 ++ [pid, (spis.headD []).length.toUInt8] ++ bytesLe16 (spis.length % 65536) ++ spis.flatten
  | .data _ d => d

/-- `SeIkeBuildPayloadList`: each payload behind a common header naming the
kind of the next one and its own size. -/
def seIkeBuildPayloadList : List Payload → List UInt8
  | [] => []
  | p :: rest =>
    [seIkeGetFirstPayloadType rest, 0] ++ bytesBe16 ((seIkeBuildPayload p).length + 4) ++
      seIkeBuildPayload p ++ seIkeBuildPayloadList rest

def seIkeBuildOptionList : Option (List Payload) → List UInt8
  | none => []
  | some l => seIkeBuildPayloadList l

def seIkeListNum : Option (List Payload) → Nat
  | none => 0
  | some l => l.length

end

theorem length_seIkeBuildPayloadList_cons (p : Payload) (ps : List Payload) :
    (seIkeBuildPayloadList (p :: ps)).length = (seIkeBuildPayload p).length + 4 + (seIkeBuildPayloadList ps).length := by
  simp only [seIkeBuildPayloadList, List.length_append, List.length_cons, List.length_nil, length_bytesBe16]
  omega

/-- `SeIkeParseTransformValueList` over what follows the transform header.
Every round reads at least four bytes, so one more than the length of the
buffer is fuel enough. -/
def seIkeParseTransformValueList : Nat → List UInt8 → Option (List TransformValue)
  | _, [] => some []
  | 0, _ :: _ => none
  | fuel + 1, b@(_ :: _) =>
    if b.length < 4 then none
    else
      let size := be16 b 2
      if byteAt b 0 = 0 then
        if b.length - 4 < size then none
        else
          let tmp := (b.drop 4).take size
          let value : UInt32 :=
            if size = 4 then (be32 tmp 0).toUInt32
            else if size = 2 then (be16 tmp 0).toUInt32
            else if size = 1 then (byteAt tmp 0).toUInt32
            else 0
          (seIkeParseTransformValueList fuel (b.drop (4 + size))).map (⟨byteAt b 1, value⟩ :: ·)
      else (seIkeParseTransformValueList fuel (b.drop 4)).map (⟨byteAt b 1, size.toUInt32⟩ :: ·)

mutual

/-- `SeIkeParsePayload` of a payload of kind `t` from its body. -/
def seIkeParsePayload : Nat → UInt8 → List UInt8 → Option Payload
  | 0, _, _ => none
  | fuel + 1, t, b =>
    match t.toNat with
    | 1 =>
      if b.length < 8 then none
      else if be32 b 0 ≠ 1 ∨ be32 b 4 ≠ 1 then none
      else some (.sa (seIkeParsePayloadList fuel (b.drop 8) 2))
    | 2 =>
      let spiSize := (byteAt b 2).toNat
      if b.length < 4 then none
      else if b.length - 4 < spiSize then none
      else
        some (.proposal (byteAt b 0) (byteAt b 1) ((b.drop 4).take spiSize)
          (seIkeParsePayloadList fuel (b.drop (4 + spiSize)) 3))
    | 3 =>
      if b.length < 4 then none
      else some (.transform (byteAt b 0) (byteAt b 1) (seIkeParseTransformValueList b.length (b.drop 4)))
    | 5 => if b.length < 4 then none else some (.id (byteAt b 0) (byteAt b 1) (be16 b 2).toUInt16 (b.drop 4))
    | 6 => if b.length < 1 then none else some (.cert (byteAt b 0) (b.drop 1))
    | 7 => if b.length < 1 then none else some (.certRequest (byteAt b 0) (b.drop 1))
    | 11 =>
      let spiSize := (byteAt b 5).toNat
      if b.length < 8 then none
      else if be32 b 0 ≠ 1 then none
      else if b.length - 8 < spiSize then none
      else some (.notice (byteAt b 4) (be16 b 6).toUInt16 ((b.drop 8).take spiSize) (b.drop (8 + spiSize)))
    | 12 =>
      let numSpi := be16 b 6
      let spiSize := (byteAt b 5).toNat
      if b.length < 8 then none
      else if be32 b 0 ≠ 1 then none
      else if b.length - 8 < numSpi * spiSize then none
      else some (.delete (byteAt b 4) ((List.range numSpi).map fun i => (b.drop (8 + i * spiSize)).take spiSize))
    | 4 | 8 | 9 | 10 | 13 => some (.data t b)
    | _ => none

/-- `SeIkeParsePayloadListEx` from a buffer whose first payload is of kind
`t`; a payload of a kind it does not know is skipped. -/
def seIkeParsePayloadList : Nat → List UInt8 → UInt8 → Option (List Payload)
  | 0, _, _ => none
  | fuel + 1, b, t =>
    if t = 0 then some []
    else if b.length < 4 then none
    else
      let payloadSize := be16 b 2
      if payloadSize < 4 then none
      else if b.length - 4 < payloadSize - 4 then none
      else
        let rest := seIkeParsePayloadList fuel (b.drop payloadSize) (byteAt b 0)
        if 1 ≤ t.toNat ∧ t.toNat ≤ 13 then
          match seIkeParsePayload fuel t ((b.drop 4).take (payloadSize - 4)) with
          | none => none
          | some p => rest.map (p :: ·)
        else rest

end

theorem seIkeParsePayloadList_end (fuel : Nat) (b : List UInt8) : seIkeParsePayloadList (fuel + 1) b 0 = some [] := by
  rw [seIkeParsePayloadList, if_pos rfl]

theorem seIkeParsePayload_data (fuel : Nat) {t : UInt8} (ht : t = 4 ∨ t = 8 ∨ t = 9 ∨ t = 10 ∨ t = 13)
    (d : List UInt8) :
    seIkeParsePayload (fuel + 1) t (seIkeBuildPayload (.data t d)) = some (.data t d) := by
  simp only [seIkeBuildPayload]
  rcases ht with rfl | rfl | rfl | rfl | rfl <;> rw [seIkeParsePayload] <;> rfl

def seIkeParsePayloadListEx (b : List UInt8) (t : UInt8) : Option (List Payload) :=
  seIkeParsePayloadList (b.length + 1) b t

/-- `SE_IKE_PACKET` without the decrypted payload kept for hashing. -/
structure IkePacket where
  initiatorCookie : UInt64
  responderCookie : UInt64
  exchangeType : UInt8
  flagEncrypted : Bool
  flagCommit : Bool
  flagAuthOnly : Bool
  messageId : UInt32
  payloadList : Option (List Payload)
deriving DecidableEq, Repr

/-- `SE_IKE_CRYPTO_PARAM`. -/
structure IkeCryptoParam (K : Type) where
  desKey : K
  iv : List UInt8
  nextIv : List UInt8

section Crypt

variable {K : Type} (c : Cbc K)

/-- `SeIkeEncrypt`, keeping the last cipher block as the next IV. -/
def seIkeEncrypt (cp : IkeCryptoParam K) (data : List UInt8) : Option (List UInt8 × IkeCryptoParam K) :=
  if data.length % 8 ≠ 0 then none
  else
    let tmp := c.encrypt cp.desKey cp.iv data
    some (tmp, { cp with nextIv := if data.length ≥ 8 then tmp.drop (data.length - 8) else List.replicate 8 0 })

/-- `SeIkeEncryptWithPadding`: the padding bytes `1, 2, ...` up to a whole,
non-empty number of blocks. -/
def seIkeEncryptWithPadding (cp : IkeCryptoParam K) (data : List UInt8) :
    Option (List UInt8 × IkeCryptoParam K) :=
  let totalSize := (data.length / 8 + if data.length % 8 = 0 then 0 else 1) * 8
  let totalSize := if totalSize = 0 then 8 else totalSize
  seIkeEncrypt c cp (data ++ espPadding (totalSize - data.length))

def seIkeDecrypt (cp : IkeCryptoParam K) (data : List UInt8) : Option (List UInt8 × IkeCryptoParam K) :=
  if data.length % 8 ≠ 0 then none
  else
    some (c.decrypt cp.desKey cp.iv data,
      { cp with nextIv := if data.length ≥ 8 then data.drop (data.length - 8) else List.replicate 8 0 })

/-- `SeIkeBuild`: the 28-byte ISAKMP header, the cookies in host order, then
the payload list, encrypted when the packet says so. A packet without a
payload list is dereferenced as `NULL`. -/
def seIkeBuild (p : IkePacket) (cp : IkeCryptoParam K) : Option (List UInt8 × IkeCryptoParam K) := do
  let payloadList ← p.payloadList
  let msg := seIkeBuildPayloadList payloadList
  let (msg, cp) ← if p.flagEncrypted then seIkeEncryptWithPadding c cp msg else some (msg, cp)
  let flag : UInt8 := (if p.flagEncrypted then 1 else 0) ||| (if p.flagCommit then 2 else 0) |||
    (if p.flagAuthOnly then 4 else 0)
  some (bytesLe64 p.initiatorCookie ++ bytesLe64 p.responderCookie ++
    [seIkeGetFirstPayloadType payloadList, 0x10, p.exchangeType, flag] ++ bytesBe32 p.messageId.toNat ++
      bytesBe32 (msg.length + 28) ++ msg, cp)

/-- `SeIkeParse`: the header, then the payloads up to the message size,
decrypted first when the header says so. -/
def seIkeParse (data : List UInt8) (cp : IkeCryptoParam K) : Option (IkePacket × IkeCryptoParam K) :=
  let messageSize := be32 data 24
  if data.length < 28 then none
  else if data.length < messageSize ∨ messageSize < 28 then none
  else
    let flag := byteAt data 19
    let encrypted := flag &&& 1 ≠ 0
    let payload := (data.drop 28).take (messageSize - 28)
    let decrypted := if encrypted then seIkeDecrypt c cp payload else some (payload, cp)
    decrypted.map fun (payload, cp) =>
      (⟨le64 data 0, le64 data 8, byteAt data 18, encrypted, flag &&& 2 ≠ 0, flag &&& 4 ≠ 0,
        (be32 data 20).toUInt32, seIkeParsePayloadListEx payload (byteAt data 16)⟩, cp)

end Crypt

def dayLifetimePacket : IkePacket :=
  ⟨1, 2, 2, false, false, false, 0,
    some [.sa (some [.proposal 1 1 [] (some [.transform 1 1 (some [⟨11, 1⟩, ⟨12, 86400⟩])])])]⟩

def deleteOnePacket : IkePacket :=
  ⟨1, 2, 5, false, false, false, 7, some [.delete 3 [[0, 0, 1, 0]]]⟩

def noticeDataPacket : IkePacket :=
  ⟨1, 2, 5, false, false, false, 7, some [.notice 3 24576 [0, 0, 1, 0] [1, 2]]⟩

def clearParam : IkeCryptoParam Unit :=
  ⟨(), List.replicate 8 0, List.replicate 8 0⟩

/-- Three small packets that do not come back: the transform loses its value
list, the delete payload makes the whole list `NULL`, and the notice loses its
message data. -/
theorem seIkeParse_seIkeBuild_loses_payloads :
    (seIkeBuild plainCbc dayLifetimePacket clearParam).map (·.1.length) = some 68 ∧
      ((seIkeBuild plainCbc dayLifetimePacket clearParam).bind fun (b, _) =>
        seIkeParse plainCbc b clearParam).map (·.1.payloadList) =
        some (some [.sa (some [.proposal 1 1 [] (some [.transform 1 1 none])])]) ∧
      (seIkeBuild plainCbc deleteOnePacket clearParam).map (·.1.length) = some 44 ∧
      ((seIkeBuild plainCbc deleteOnePacket clearParam).bind fun (b, _) =>
        seIkeParse plainCbc b clearParam).map (·.1.payloadList) = some none ∧
      (seIkeBuild plainCbc noticeDataPacket clearParam).map (·.1.length) = some 44 ∧
      ((seIkeBuild plainCbc noticeDataPacket clearParam).bind fun (b, _) =>
        seIkeParse plainCbc b clearParam).map (·.1.payloadList) =
        some (some [.notice 3 24576 [0, 0, 1, 0] []]) :=
  ⟨by decide, by decide, by decide, by decide, by decide,
    by decide⟩

end Bitvisor.Se
