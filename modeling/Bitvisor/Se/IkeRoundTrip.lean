import Bitvisor.Se.Ike

namespace Bitvisor.Se

/-! `SeIkeParse` reads back what `SeIkeBuild` writes, for every packet whose
payloads stay clear of the writer's faults: no transform value in the TLV form,
no notice data, a delete count that reads the same in either byte order, and
lengths that fit their fields. -/

mutual

/-- A payload `SeIkeBuildPayload` writes in the form `SeIkeParsePayload`
reads: nested lists present, non-empty and of the kind the parser expects. -/
def Payload.Fits : Payload → Bool
  | .sa l => Payload.optionFits 2 l
  | .proposal _ _ spi l => decide (spi.length < 256) && Payload.optionFits 3 l
  | .transform _ _ vs => match vs with
    | none => false
    | some vs => vs.all fun v => decide (v.value.toNat < 65536)
  | .id .. | .cert .. | .certRequest .. => true
  | .notice _ _ spi d => decide (spi.length < 256) && d.isEmpty
  | .delete _ spis =>
    decide (spis.length < 65536) && decide (spis.length % 256 = spis.length / 256) &&
      decide ((spis.headD []).length < 256) && spis.all fun s => decide (s.length = (spis.headD []).length)
  | .data t _ => decide (t = 4 ∨ t = 8 ∨ t = 9 ∨ t = 10 ∨ t = 13)

def Payload.listFits : List Payload → Bool
  | [] => true
  | p :: ps => p.Fits && decide ((seIkeBuildPayload p).length + 4 < 65536) && Payload.listFits ps

def Payload.optionFits (first : UInt8) : Option (List Payload) → Bool
  | none => false
  | some ps => decide (seIkeGetFirstPayloadType ps = first) && Payload.listFits ps

end

theorem Payload.payloadType_of_fits {p : Payload} (hp : p.Fits = true) :
    1 ≤ p.payloadType.toNat ∧ p.payloadType.toNat ≤ 13 := by
  cases p with
  | data t d =>
    simp only [Payload.Fits, decide_eq_true_eq] at hp
    rcases hp with rfl | rfl | rfl | rfl | rfl <;> simp [Payload.payloadType]
  | _ => simp [Payload.payloadType]

theorem seIkeParseTransformValueList_build (vs : List TransformValue)
    (hvs : vs.all (fun v => decide (v.value.toNat < 65536)) = true) (fuel : Nat) (hf : vs.length ≤ fuel) :
    seIkeParseTransformValueList fuel (vs.flatMap seIkeBuildTransformValue) = some vs := by
  induction vs generalizing fuel with
  | nil => simp [seIkeParseTransformValueList]
  | cons v vs ih =>
    simp only [List.all_cons, Bool.and_eq_true, decide_eq_true_eq] at hvs
    obtain ⟨fuel, rfl⟩ : ∃ f, fuel = f + 1 := ⟨fuel - 1, by simp at hf; omega⟩
    have hv : seIkeBuildTransformValue v = [0x80, v.type] ++ bytesBe16 v.value.toNat := by
      simp [seIkeBuildTransformValue, hvs.1]
    have hsize : be16 ([0x80, v.type] ++ (bytesBe16 v.value.toNat ++ vs.flatMap seIkeBuildTransformValue)) 2 =
        v.value.toNat := by
      rw [show 2 = [(0x80 : UInt8), v.type].length + 0 from rfl, be16_append_length, be16_bytesBe16 hvs.1]
    rw [List.flatMap_cons, hv, List.append_assoc] at *
    simp only [List.cons_append, List.nil_append] at hsize ⊢
    rw [seIkeParseTransformValueList]
    have hlen : ¬(bytesBe16 v.value.toNat ++ vs.flatMap seIkeBuildTransformValue).length + 1 + 1 < 4 := by
      simp
    simp only [List.length_cons, hsize, hlen, if_false, byteAt_cons_zero, byteAt_cons_succ, List.drop_succ_cons,
      show ((128 : UInt8) = 0) = False by decide]
    rw [show 2 = (bytesBe16 v.value.toNat).length from rfl, List.drop_left, ih hvs.2 fuel (by simp at hf; omega)]
    simp [Nat.toUInt32_eq]

theorem length_le_flatMap_buildTransformValue (vs : List TransformValue) :
    vs.length ≤ (vs.flatMap seIkeBuildTransformValue).length := by
  induction vs with
  | nil => simp
  | cons v vs ih =>
    have hv : 1 ≤ (seIkeBuildTransformValue v).length := by
      unfold seIkeBuildTransformValue
      split <;> simp
    simp only [List.flatMap_cons, List.length_append, List.length_cons]
    omega

theorem seIkeParsePayload_sa (fuel : Nat) (ps : List Payload) :
    seIkeParsePayload (fuel + 1) 1 (seIkeBuildPayload (.sa (some ps))) =
      some (.sa (seIkeParsePayloadList fuel (seIkeBuildPayloadList ps) 2)) := by
  have h0 := be32_bytesBe32 (v := 1) (by decide) (bytesBe32 1 ++ seIkeBuildPayloadList ps)
  have h4 := be32_append_length (bytesBe32 1) (bytesBe32 1 ++ seIkeBuildPayloadList ps) 0
  rw [be32_bytesBe32 (by decide)] at h4
  simp only [length_bytesBe32, Nat.add_zero] at h4
  simp only [seIkeBuildPayload, seIkeBuildOptionList, List.append_assoc]
  rw [seIkeParsePayload]
  simp only [UInt8.reduceToNat, h0, h4, ne_eq, not_true_eq_false, or_self, if_false, List.length_append,
    length_bytesBe32]
  rw [if_neg (by omega), show 8 = (bytesBe32 1 ++ bytesBe32 1).length from rfl, ← List.append_assoc,
    List.drop_left]

theorem seIkeParsePayload_proposal (fuel : Nat) (n pid : UInt8) {spi : List UInt8} (hspi : spi.length < 256)
    (ps : List Payload) :
    seIkeParsePayload (fuel + 1) 2 (seIkeBuildPayload (.proposal n pid spi (some ps))) =
      some (.proposal n pid spi (seIkeParsePayloadList fuel (seIkeBuildPayloadList ps) 3)) := by
  simp only [seIkeBuildPayload, seIkeBuildOptionList, seIkeListNum]
  rw [seIkeParsePayload]
  simp only [UInt8.reduceToNat, List.cons_append, List.nil_append, byteAt_cons_zero, byteAt_cons_succ,
    toNat_toUInt8_of_lt hspi, List.length_cons, List.length_append]
  rw [if_neg (by omega), if_neg (by omega), ← List.drop_drop]
  simp only [List.drop_succ_cons, List.drop_zero, List.drop_left, List.take_left]

theorem seIkeParsePayload_transform (fuel : Nat) (n tid : UInt8) {vs : List TransformValue}
    (hvs : vs.all (fun v => decide (v.value.toNat < 65536)) = true) :
    seIkeParsePayload (fuel + 1) 3 (seIkeBuildPayload (.transform n tid (some vs))) =
      some (.transform n tid (some vs)) := by
  simp only [seIkeBuildPayload, Option.getD_some]
  rw [seIkeParsePayload]
  simp only [UInt8.reduceToNat, List.cons_append, List.nil_append, byteAt_cons_zero, byteAt_cons_succ,
    List.length_cons, List.drop_succ_cons, List.drop_zero]
  rw [if_neg (by omega), seIkeParseTransformValueList_build vs hvs _ (by
    have := length_le_flatMap_buildTransformValue vs
    omega)]

theorem seIkeParsePayload_id (fuel : Nat) (t pid : UInt8) (port : UInt16) (d : List UInt8) :
    seIkeParsePayload (fuel + 1) 5 (seIkeBuildPayload (.id t pid port d)) = some (.id t pid port d) := by
  have hport := be16_bytesBe16 port.toNat_lt d
  simp only [seIkeBuildPayload]
  rw [seIkeParsePayload]
  simp only [UInt8.reduceToNat, List.cons_append, List.nil_append, byteAt_cons_zero, byteAt_cons_succ,
    List.length_cons, List.drop_succ_cons, be16_cons_cons, hport]
  rw [if_neg (by simp), show 2 = (bytesBe16 port.toNat).length from rfl, List.drop_left]
  simp

theorem seIkeParsePayload_cert (fuel : Nat) (ct : UInt8) (d : List UInt8) :
    seIkeParsePayload (fuel + 1) 6 (seIkeBuildPayload (.cert ct d)) = some (.cert ct d) := by
  simp only [seIkeBuildPayload]
  rw [seIkeParsePayload]
  simp

theorem seIkeParsePayload_certRequest (fuel : Nat) (ct : UInt8) (d : List UInt8) :
    seIkeParsePayload (fuel + 1) 7 (seIkeBuildPayload (.certRequest ct d)) = some (.certRequest ct d) := by
  simp only [seIkeBuildPayload]
  rw [seIkeParsePayload]
  simp

theorem seIkeParsePayload_notice (fuel : Nat) (pid : UInt8) (mt : UInt16) {spi : List UInt8}
    (hspi : spi.length < 256) :
    seIkeParsePayload (fuel + 1) 11 (seIkeBuildPayload (.notice pid mt spi [])) = some (.notice pid mt spi []) := by
  have hmt := be16_bytesBe16 mt.toNat_lt spi
  simp only [seIkeBuildPayload, bytesBe32_one]
  rw [seIkeParsePayload]
  simp only [UInt8.reduceToNat, List.cons_append, List.nil_append, byteAt_cons_zero, byteAt_cons_succ,
    toNat_toUInt8_of_lt hspi, List.length_cons, List.length_append, length_bytesBe16]
  have h1 := be32_one_cons (pid :: spi.length.toUInt8 :: (bytesBe16 mt.toNat ++ spi))
  have h6 : be16 (0 :: 0 :: 0 :: 1 :: pid :: spi.length.toUInt8 :: (bytesBe16 mt.toNat ++ spi)) 6 = mt.toNat := by
    simp only [be16_cons_cons, hmt]
  rw [if_neg (by omega), if_neg (by simp [h1]), if_neg (by omega), h6, ← List.drop_drop]
  simp only [List.drop_succ_cons, show 2 = (bytesBe16 mt.toNat).length from rfl, List.drop_left,
    List.take_length, List.drop_length]
  simp

theorem seIkeParsePayload_delete (fuel : Nat) (pid : UInt8) {spis : List (List UInt8)}
    (hn : spis.length < 65536) (hsym : spis.length % 256 = spis.length / 256)
    (hL : (spis.headD []).length < 256) (hall : ∀ s ∈ spis, s.length = (spis.headD []).length) :
    seIkeParsePayload (fuel + 1) 12 (seIkeBuildPayload (.delete pid spis)) = some (.delete pid spis) := by
  have hflat := length_flatten_of_forall spis hall
  have hcount := be16_bytesLe16 hn spis.flatten
  have h1 := be32_one_cons (pid :: (spis.headD []).length.toUInt8 :: (bytesLe16 spis.length ++ spis.flatten))
  simp only [seIkeBuildPayload, Nat.mod_eq_of_lt hn, bytesBe32_one]
  rw [seIkeParsePayload]
  simp only [UInt8.reduceToNat, List.cons_append, List.nil_append, byteAt_cons_zero, byteAt_cons_succ,
    List.length_cons, List.length_append, length_bytesLe16, be16_cons_cons, hcount]
  generalize (spis.headD []).length = L at hL hall hflat h1 ⊢
  rw [toNat_toUInt8_of_lt hL, show spis.length % 256 * 256 + spis.length / 256 = spis.length by omega,
    if_neg (by omega), if_neg (by simp [h1]), if_neg (by omega)]
  have hdrop : ∀ i, (0 :: 0 :: 0 :: 1 :: pid :: L.toUInt8 :: (bytesLe16 spis.length ++ spis.flatten)).drop
      (8 + i * L) = spis.flatten.drop (i * L) := by
    intro i
    rw [← List.drop_drop]
    simp only [List.drop_succ_cons, show 2 = (bytesLe16 spis.length).length from rfl, List.drop_left]
  simp only [hdrop, range_map_chunk_flatten spis hall]

theorem seIkeParsePayloadList_cons (fuel : Nat) (p : Payload) (ps : List Payload) (tail : List UInt8)
    (ht : 1 ≤ p.payloadType.toNat ∧ p.payloadType.toNat ≤ 13) (hsize : (seIkeBuildPayload p).length + 4 < 65536) :
    seIkeParsePayloadList (fuel + 1) (seIkeBuildPayloadList (p :: ps) ++ tail) p.payloadType =
      (seIkeParsePayload fuel p.payloadType (seIkeBuildPayload p)).bind fun q =>
        (seIkeParsePayloadList fuel (seIkeBuildPayloadList ps ++ tail) (seIkeGetFirstPayloadType ps)).map (q :: ·) := by
  have hsz := be16_bytesBe16 hsize (seIkeBuildPayload p ++ seIkeBuildPayloadList ps ++ tail)
  have ht0 : p.payloadType ≠ 0 := by
    intro h
    rw [h] at ht
    simp at ht
  simp only [seIkeBuildPayloadList, List.append_assoc]
  rw [seIkeParsePayloadList]
  simp only [List.cons_append, List.nil_append, byteAt_cons_zero, be16_cons_cons, List.append_assoc] at hsz ⊢
  rw [hsz, if_neg ht0, if_neg (by simp), if_neg (by omega),
    if_neg (by simp only [List.length_cons, List.length_append, length_bytesBe16]; omega), if_pos ht,
    Nat.add_sub_cancel]
  have hhdr : (bytesBe16 ((seIkeBuildPayload p).length + 4)).length = 2 := rfl
  generalize bytesBe16 ((seIkeBuildPayload p).length + 4) = hdr at hhdr ⊢
  have hbody : (seIkeGetFirstPayloadType ps :: 0 :: (hdr ++ (seIkeBuildPayload p ++ (seIkeBuildPayloadList ps ++ tail)))).drop 4 =
      seIkeBuildPayload p ++ (seIkeBuildPayloadList ps ++ tail) := by
    simp only [List.drop_succ_cons, ← hhdr, List.drop_left]
  rw [Nat.add_comm _ 4, ← List.drop_drop, hbody, List.drop_left, List.take_left]
  cases seIkeParsePayload fuel p.payloadType (seIkeBuildPayload p) <;> rfl

section Nested

variable {fuel : Nat}
  (ihl : ∀ ps : List Payload, Payload.listFits ps = true → (seIkeBuildPayloadList ps).length < fuel →
    seIkeParsePayloadList fuel (seIkeBuildPayloadList ps) (seIkeGetFirstPayloadType ps) = some ps)
include ihl

theorem seIkeParseOptionList_build {first : UInt8} {l : Option (List Payload)}
    (hl : Payload.optionFits first l = true) (hlen : (seIkeBuildOptionList l).length < fuel) :
    ∃ ps, l = some ps ∧ seIkeParsePayloadList fuel (seIkeBuildPayloadList ps) first = some ps := by
  cases l with
  | none => simp [Payload.optionFits] at hl
  | some ps =>
    simp only [Payload.optionFits, Bool.and_eq_true, decide_eq_true_eq] at hl
    refine ⟨ps, rfl, ?_⟩
    rw [← hl.1]
    exact ihl ps hl.2 hlen

theorem seIkeParsePayload_build {p : Payload} (hp : p.Fits = true) (hlen : (seIkeBuildPayload p).length < fuel + 1) :
    seIkeParsePayload (fuel + 1) p.payloadType (seIkeBuildPayload p) = some p := by
  cases p with
  | sa l =>
    simp only [Payload.Fits] at hp
    obtain ⟨ps, rfl, hps⟩ := seIkeParseOptionList_build ihl hp (by
      simp only [seIkeBuildPayload, List.length_append, length_bytesBe32] at hlen
      omega)
    rw [show Payload.payloadType (.sa (some ps)) = 1 from rfl, seIkeParsePayload_sa, hps]
  | proposal n pid spi l =>
    simp only [Payload.Fits, Bool.and_eq_true, decide_eq_true_eq] at hp
    obtain ⟨ps, rfl, hps⟩ := seIkeParseOptionList_build ihl hp.2 (by
      simp only [seIkeBuildPayload, List.length_append, List.length_cons] at hlen
      omega)
    rw [show Payload.payloadType (.proposal n pid spi (some ps)) = 2 from rfl, seIkeParsePayload_proposal fuel n pid hp.1,
      hps]
  | transform n tid vs =>
    cases vs with
    | none => simp [Payload.Fits] at hp
    | some vs => exact seIkeParsePayload_transform fuel n tid hp
  | id t pid port d => exact seIkeParsePayload_id fuel t pid port d
  | cert ct d => exact seIkeParsePayload_cert fuel ct d
  | certRequest ct d => exact seIkeParsePayload_certRequest fuel ct d
  | notice pid mt spi d =>
    simp only [Payload.Fits, Bool.and_eq_true, decide_eq_true_eq, List.isEmpty_iff] at hp
    obtain ⟨hspi, rfl⟩ := hp
    exact seIkeParsePayload_notice fuel pid mt hspi
  | delete pid spis =>
    simp only [Payload.Fits, Bool.and_eq_true, decide_eq_true_eq, List.all_eq_true] at hp
    exact seIkeParsePayload_delete fuel pid hp.1.1.1 hp.1.1.2 hp.1.2 hp.2
  | data t d =>
    simp only [Payload.Fits, decide_eq_true_eq] at hp
    exact seIkeParsePayload_data fuel hp d

end Nested

/-- The parser reads back every payload and every list the builder writes
from payloads that fit, given fuel beyond the length of what it reads; a list
is read back whatever follows it. -/
theorem seIkeParse_build_fuel (fuel : Nat) :
    (∀ p : Payload, p.Fits = true → (seIkeBuildPayload p).length < fuel →
      seIkeParsePayload fuel p.payloadType (seIkeBuildPayload p) = some p) ∧
    (∀ (ps : List Payload) (tail : List UInt8), Payload.listFits ps = true →
      (seIkeBuildPayloadList ps).length < fuel →
      seIkeParsePayloadList fuel (seIkeBuildPayloadList ps ++ tail) (seIkeGetFirstPayloadType ps) = some ps) := by
  induction fuel with
  | zero => exact ⟨fun _ _ h => absurd h (Nat.not_lt_zero _), fun _ _ _ h => absurd h (Nat.not_lt_zero _)⟩
  | succ fuel ih =>
    obtain ⟨ihp, ihl⟩ := ih
    have ihl₀ : ∀ ps : List Payload, Payload.listFits ps = true → (seIkeBuildPayloadList ps).length < fuel →
        seIkeParsePayloadList fuel (seIkeBuildPayloadList ps) (seIkeGetFirstPayloadType ps) = some ps := by
      intro ps hps hlen
      simpa only [List.append_nil] using ihl ps [] hps hlen
    refine ⟨fun p hp hlen => seIkeParsePayload_build ihl₀ hp hlen, ?_⟩
    intro ps tail hps hlen
    cases ps with
    | nil => exact seIkeParsePayloadList_end fuel tail
    | cons p ps =>
      simp only [Payload.listFits, Bool.and_eq_true, decide_eq_true_eq] at hps
      obtain ⟨⟨hp, hsize⟩, hps⟩ := hps
      rw [length_seIkeBuildPayloadList_cons] at hlen
      rw [show seIkeGetFirstPayloadType (p :: ps) = p.payloadType from rfl,
        seIkeParsePayloadList_cons fuel p ps tail (Payload.payloadType_of_fits hp) hsize, ihp p hp (by omega),
        Option.bind_some, ihl ps tail hps (by omega)]
      rfl

section Crypt

variable {K : Type} (c : Cbc K)

theorem seIkeParse_header (cp : IkeCryptoParam K) (ic rc : UInt64)
    (first et flag : UInt8) (mid : UInt32) (msg : List UInt8) (hmsg : msg.length + 28 < 2 ^ 32) :
    seIkeParse c (bytesLe64 ic ++ bytesLe64 rc ++ [first, 0x10, et, flag] ++ bytesBe32 mid.toNat ++
        bytesBe32 (msg.length + 28) ++ msg) cp =
      (if flag &&& 1 ≠ 0 then seIkeDecrypt c cp msg else some (msg, cp)).map fun (payload, cp) =>
        (⟨ic, rc, et, flag &&& 1 ≠ 0, flag &&& 2 ≠ 0, flag &&& 4 ≠ 0, mid, seIkeParsePayloadListEx payload first⟩,
          cp) := by
  have hmid := mid.toNat_lt
  have hhead : (bytesLe64 ic ++ bytesLe64 rc ++ [first, 0x10, et, flag] ++ bytesBe32 mid.toNat ++
      bytesBe32 (msg.length + 28)).length = 28 := rfl
  generalize hd : bytesLe64 ic ++ bytesLe64 rc ++ [first, 0x10, et, flag] ++ bytesBe32 mid.toNat ++
      bytesBe32 (msg.length + 28) ++ msg = data
  have hsize : be32 data 24 = msg.length + 28 := by
    rw [← hd, List.append_assoc, show 24 = (bytesLe64 ic ++ bytesLe64 rc ++ [first, 0x10, et, flag] ++
      bytesBe32 mid.toNat).length + 0 from rfl, be32_append_length, be32_bytesBe32 (by omega)]
  have hlen : data.length = msg.length + 28 := by
    rw [← hd, List.length_append, hhead, Nat.add_comm]
  have hdrop : data.drop 28 = msg := by
    rw [← hd]
    exact List.drop_left' hhead
  have hcookie₁ : le64 data 0 = ic := by
    rw [← hd]
    simp only [List.append_assoc, le64_bytesLe64]
  have hcookie₂ : le64 data 8 = rc := by
    rw [← hd, show 8 = (bytesLe64 ic).length + 0 from rfl]
    simp only [List.append_assoc, le64_append_length, le64_bytesLe64]
  have hbyte (i : Nat) : byteAt data (16 + i) =
      byteAt ([first, 0x10, et, flag] ++ bytesBe32 mid.toNat ++ bytesBe32 (msg.length + 28) ++ msg) i := by
    rw [← hd, show 16 = (bytesLe64 ic).length + (bytesLe64 rc).length from rfl]
    simp only [List.append_assoc, Nat.add_assoc, byteAt_append_length]
  have hmsgid : be32 data 20 = mid.toNat := by
    rw [← hd, show 20 = (bytesLe64 ic).length + ((bytesLe64 rc).length + ([first, 0x10, et, flag].length + 0))
      from rfl]
    simp only [List.append_assoc, be32_append_length]
    exact be32_bytesBe32 hmid _
  have hfirst := hbyte 0
  have het := hbyte 2
  have hflag := hbyte 3
  simp only [Nat.add_zero, List.cons_append, byteAt_cons_zero, byteAt_cons_succ] at hfirst het hflag
  unfold seIkeParse
  rw [if_neg (by omega), if_neg (by omega)]
  simp only [hsize, hdrop, hcookie₁, hcookie₂, hmsgid, hfirst, het, hflag, Nat.add_sub_cancel,
    List.take_length, UInt32.ofNat_toNat]

theorem seIkeDecrypt_seIkeEncrypt (cp : IkeCryptoParam K) {data : List UInt8} (h : data.length % 8 = 0) :
    ∃ out cp', out.length = data.length ∧ seIkeEncrypt c cp data = some (out, cp') ∧
      seIkeDecrypt c cp out = some (data, cp') := by
  have hlen := c.length_encrypt cp.desKey cp.iv data
  refine ⟨_, { cp with nextIv := if data.length ≥ 8 then (c.encrypt cp.desKey cp.iv data).drop (data.length - 8)
    else List.replicate 8 0 }, hlen, ?_, ?_⟩
  · simp only [seIkeEncrypt, h, ne_eq, not_true_eq_false, if_false]
  · simp only [seIkeDecrypt, hlen, h, ne_eq, not_true_eq_false, if_false, c.decrypt_encrypt _ _ _ h]

theorem seIkeEncryptWithPadding_eq (cp : IkeCryptoParam K) (msg : List UInt8) :
    ∃ pad : List UInt8, (msg ++ pad).length % 8 = 0 ∧ (msg ++ pad).length ≤ msg.length + 8 ∧
      seIkeEncryptWithPadding c cp msg = seIkeEncrypt c cp (msg ++ pad) := by
  refine ⟨_, ?_, ?_, rfl⟩ <;>
  · simp only [List.length_append, length_espPadding]
    split_ifs <;> first | omega | contradiction

theorem ikeFlag_bits (e cm a : Bool) :
    let flag : UInt8 := (if e then 1 else 0) ||| (if cm then 2 else 0) ||| (if a then 4 else 0)
    decide (flag &&& 1 ≠ 0) = e ∧ decide (flag &&& 2 ≠ 0) = cm ∧ decide (flag &&& 4 ≠ 0) = a := by
  cases e <;> cases cm <;> cases a <;> decide

/-- A packet that `SeIkeBuild` writes in a form `SeIkeParse` reads back:
payloads avoiding the writer's faults, and a message size, padding included,
that fits its 32-bit field. -/
def IkePacket.Fits (p : IkePacket) : Bool :=
  match p.payloadList with
  | none => false
  | some ps => Payload.listFits ps && decide ((seIkeBuildPayloadList ps).length + 36 < 2 ^ 32)

/-- `SeIkeParse` reads back every packet that fits, encrypted or not, and
leaves the crypto parameters, next IV included, as `SeIkeBuild` left them. -/
theorem seIkeParse_seIkeBuild (p : IkePacket) (cp : IkeCryptoParam K)
    (hp : p.Fits = true) :
    ∃ bytes cp', seIkeBuild c p cp = some (bytes, cp') ∧ seIkeParse c bytes cp = some (p, cp') := by
  obtain ⟨ic, rc, et, enc, com, auth, mid, pl⟩ := p
  cases pl with
  | none => simp [IkePacket.Fits] at hp
  | some ps =>
    simp only [IkePacket.Fits, Bool.and_eq_true, decide_eq_true_eq] at hp
    obtain ⟨hfits, hsize⟩ := hp
    obtain ⟨hbit₁, hbit₂, hbit₄⟩ := ikeFlag_bits enc com auth
    have hlist (pad : List UInt8) : seIkeParsePayloadListEx (seIkeBuildPayloadList ps ++ pad)
        (seIkeGetFirstPayloadType ps) = some ps := by
      apply (seIkeParse_build_fuel _).2 ps pad hfits
      simp only [List.length_append]
      omega
    cases enc with
    | false =>
      simp only [Bool.false_eq_true, ↓reduceIte] at hbit₁ hbit₂ hbit₄
      refine ⟨_, cp, rfl, ?_⟩
      have hplain := hlist []
      rw [List.append_nil] at hplain
      rw [seIkeParse_header c cp _ _ _ _ _ _ _ (by omega)]
      simp only [Bool.false_eq_true, ↓reduceIte, if_neg (of_decide_eq_false hbit₁), Option.map_some, hbit₁,
        hbit₂, hbit₄, hplain]
    | true =>
      obtain ⟨pad, hmod, hpadlen, hpad⟩ := seIkeEncryptWithPadding_eq c cp (seIkeBuildPayloadList ps)
      obtain ⟨out, cp', hout, henc, hdec⟩ := seIkeDecrypt_seIkeEncrypt c cp hmod
      simp only [↓reduceIte] at hbit₁ hbit₂ hbit₄
      refine ⟨bytesLe64 ic ++ bytesLe64 rc ++ [seIkeGetFirstPayloadType ps, 0x10, et,
        (1 ||| if com then 2 else 0) ||| if auth then 4 else 0] ++ bytesBe32 mid.toNat ++
        bytesBe32 (out.length + 28) ++ out, cp', ?_, ?_⟩
      · simp only [seIkeBuild, ↓reduceIte, hpad, henc, Option.bind_eq_bind, Option.bind_some]
      · rw [seIkeParse_header c cp _ _ _ _ _ _ _ (by omega)]
        simp only [if_pos (of_decide_eq_true hbit₁), hdec, Option.map_some, hbit₁, hbit₂, hbit₄, hlist]

end Crypt

def hourLifetimePacket : IkePacket :=
  ⟨1, 2, 2, true, false, false, 0,
    some [.sa (some [.proposal 1 1 [] (some [.transform 1 1 (some [⟨11, 1⟩, ⟨12, 3600⟩])])])]⟩

theorem seIkeParse_seIkeBuild_hourLifetime : hourLifetimePacket.Fits = true ∧
    ∃ bytes cp', seIkeBuild plainCbc hourLifetimePacket clearParam = some (bytes, cp') ∧
      seIkeParse plainCbc bytes clearParam = some (hourLifetimePacket, cp') :=
  ⟨by decide, seIkeParse_seIkeBuild plainCbc hourLifetimePacket clearParam (by decide)⟩

end Bitvisor.Se
