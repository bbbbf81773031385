import Bitvisor.Se.Ip4Frag

namespace Bitvisor.Se

/-! With an MSS that is a positive multiple of 8, `Se4SendIp` cuts a datagram
into packets the receiving side of the same code accepts: each header passes
`Se4IpCheckChecksum` and says where its piece goes, how long it is and whether
more follow, and the pieces are the datagram's bytes in order. -/

theorem offsetByte_bits {a : Nat} (ha : a < 32) {f : UInt8} (hf : f = 0 ∨ f = 1) :
    ((a.toUInt8 ||| ((f &&& 0x07) <<< 5)) &&& 0x1f).toNat = a ∧
      (((a.toUInt8 ||| ((f &&& 0x07) <<< 5)) >>> 5) &&& 0x07).toNat = f.toNat := by
  have key : ∀ i : Fin 32, ∀ g : UInt8, g = 0 ∨ g = 1 →
      ((i.val.toUInt8 ||| ((g &&& 0x07) <<< 5)) &&& 0x1f).toNat = i.val ∧
        (((i.val.toUInt8 ||| ((g &&& 0x07) <<< 5)) >>> 5) &&& 0x07).toNat = g.toNat := by
    intro i g hg
    rcases hg with rfl | rfl <;> revert i <;> decide
  exact key ⟨a, ha⟩ f hf

theorem se4IpChecksum_append {l : List UInt8} {size : Nat} (h : size ≤ l.length) (r : List UInt8) :
    se4IpChecksum (l ++ r) size = se4IpChecksum l size := by
  have hbyte : ∀ i < size, byteAt (l ++ r) i = byteAt l i := fun i hi => byteAt_append_left (by omega)
  have hwords : (List.range (size / 2)).map (fun k => le16 (l ++ r) (2 * k)) =
      (List.range (size / 2)).map (fun k => le16 l (2 * k)) := by
    apply List.map_congr_left
    intro k hk
    rw [List.mem_range] at hk
    simp only [le16, hbyte (2 * k) (by omega), hbyte (2 * k + 1) (by omega)]
  unfold se4IpChecksum
  rw [hwords]
  split_ifs with hodd
  · rw [hbyte (size - 1) (by omega)]
  · rfl

theorem se4IpChecksum_lt (buf : List UInt8) (size : Nat) : se4IpChecksum buf size < 65536 := by
  unfold se4IpChecksum
  dsimp only
  omega

section Patch

variable {hdr : List UInt8} (hlen : hdr.length = 20) (c : Nat) (d : List UInt8)
include hlen

theorem length_take_ten : (hdr.take 10).length = 10 := by
  simp [hlen]

theorem byteAt_patch {i : Nat} (hi : i < 10) :
    byteAt (hdr.take 10 ++ bytesLe16 c ++ hdr.drop 12 ++ d) i = byteAt hdr i := by
  have htake := length_take_ten hlen
  rw [List.append_assoc, List.append_assoc, byteAt_append_left (by omega), ← List.take_append_drop 10 hdr,
    byteAt_append_left (by omega), List.take_append_drop]

theorem drop_patch : (hdr.take 10 ++ bytesLe16 c ++ hdr.drop 12 ++ d).drop 20 = d := by
  apply List.drop_left'
  simp [hlen]

theorem le16_patch (hc : c < 65536) : le16 (hdr.take 10 ++ bytesLe16 c ++ hdr.drop 12 ++ d) 10 = c := by
  have h := le16_append_length (hdr.take 10) (bytesLe16 c ++ (hdr.drop 12 ++ d)) 0
  rw [length_take_ten hlen, le16_bytesLe16 hc] at h
  rw [List.append_assoc, List.append_assoc, h]

theorem getHeaderLen_patch : getHeaderLen (hdr.take 10 ++ bytesLe16 c ++ hdr.drop 12 ++ d) = getHeaderLen hdr := by
  rw [getHeaderLen, byteAt_patch hlen c d (by omega), ← getHeaderLen]

theorem pieceOf_patch : pieceOf (hdr.take 10 ++ bytesLe16 c ++ hdr.drop 12 ++ d) =
    (getOffset hdr * 8, be16 hdr 2 - getHeaderLen hdr * 4, decide (getFlags hdr &&& 0x01 = 1)) := by
  simp only [pieceOf, getOffset, getFlags, be16, getHeaderLen_patch hlen, byteAt_patch hlen c d (i := 2) (by omega),
    byteAt_patch hlen c d (i := 2 + 1) (by omega), byteAt_patch hlen c d (i := 6) (by omega),
    byteAt_patch hlen c d (i := 7) (by omega)]
  rfl

theorem se4IpCheckChecksum_patch (hzero : hdr.take 10 ++ [0, 0] ++ hdr.drop 12 = hdr)
    (hhl : getHeaderLen hdr = 5) :
    se4IpCheckChecksum (hdr.take 10 ++ bytesLe16 (se4IpChecksum hdr 20) ++ hdr.drop 12 ++ d) = true := by
  have htake := length_take_ten hlen
  have hcleared : (hdr.take 10 ++ bytesLe16 (se4IpChecksum hdr 20) ++ hdr.drop 12 ++ d).take 10 ++ [0, 0] ++
      (hdr.take 10 ++ bytesLe16 (se4IpChecksum hdr 20) ++ hdr.drop 12 ++ d).drop 12 = hdr ++ d := by
    have e₁ : (hdr.take 10 ++ bytesLe16 (se4IpChecksum hdr 20) ++ hdr.drop 12 ++ d).take 10 = hdr.take 10 := by
      rw [List.append_assoc, List.append_assoc, List.take_left' htake]
    have e₂ : (hdr.take 10 ++ bytesLe16 (se4IpChecksum hdr 20) ++ hdr.drop 12 ++ d).drop 12 = hdr.drop 12 ++ d := by
      rw [List.append_assoc, List.drop_left' (by simp [htake])]
    rw [e₁, e₂, ← List.append_assoc, hzero]
  have hhl' : getHeaderLen (hdr.take 10 ++ bytesLe16 (se4IpChecksum hdr 20) ++ hdr.drop 12 ++ d) = 5 := by
    rw [getHeaderLen, byteAt_patch hlen _ _ (by omega), ← getHeaderLen, hhl]
  simp only [se4IpCheckChecksum, hcleared, hhl', le16_patch hlen _ _ (se4IpChecksum_lt _ _), Nat.reduceMul,
    se4IpChecksum_append (by omega : 20 ≤ hdr.length), beq_self_eq_true]

end Patch

/-- A fragment of whole 8-byte units passes the receiver's checksum test, its
header says where its data goes, how long it is and whether more follow, and
the data follows the 20-byte header. -/
theorem se4SendIpFragment_spec (dest src : UInt32) (id totalSize offset : Nat) (protocol ttl : UInt8)
    {d : List UInt8} (hd : 0 < d.length) (hlen : d.length + 20 < 65536) (hoff : offset % 8 = 0)
    (hoff' : offset < 65536) :
    ∃ ip, se4SendIpFragment dest src id totalSize offset protocol ttl d = some ip ∧
      se4IpCheckChecksum ip = true ∧ pieceOf ip = (offset, d.length, decide (offset + d.length < totalSize)) ∧
      ip.drop (getHeaderLen ip * 4) = d := by
  unfold se4SendIpFragment
  rw [if_neg (by omega)]
  dsimp only
  generalize hH : ([0x45, 0] : List UInt8) ++ bytesBe16 ((d.length + 20) % 65536) ++ bytesBe16 id ++
    [(offset / 8 / 256).toUInt8 ||| (((if offset + d.length ≥ totalSize then 0x00 else 0x01 : UInt8)) &&& 0x07) <<< 5,
      (offset / 8 % 256).toUInt8, if ttl = 0 then 128 else ttl, protocol, 0, 0] ++ bytesLe32 src ++
    bytesLe32 dest = H
  have hlen20 : H.length = 20 := by rw [← hH]; rfl
  have hzero : H.take 10 ++ [0, 0] ++ H.drop 12 = H := by rw [← hH]; rfl
  have hhl : getHeaderLen H = 5 := by
    rw [← hH]
    simp only [getHeaderLen, List.cons_append, byteAt_cons_zero]
    rfl
  have hsize : be16 H 2 = d.length + 20 := by
    rw [← hH, show (2 : Nat) = ([0x45, 0] : List UInt8).length + 0 from rfl]
    simp only [List.append_assoc, be16_append_length]
    rw [be16_bytesBe16 (Nat.mod_lt _ (by omega)), Nat.mod_eq_of_lt hlen]
  have hbits := offsetByte_bits (a := offset / 8 / 256) (by omega)
    (f := if offset + d.length ≥ totalSize then 0x00 else 0x01) (by split <;> simp)
  have hoffset : getOffset H * 8 = offset := by
    rw [← hH]
    simp only [getOffset, List.cons_append, List.nil_append, bytesBe16, byteAt_cons_zero,
      byteAt_cons_succ]
    rw [hbits.1, toNat_toUInt8_of_lt (Nat.mod_lt _ (by omega))]
    omega
  have hflag : decide (getFlags H &&& 0x01 = 1) = decide (offset + d.length < totalSize) := by
    rw [← hH]
    simp only [getFlags, List.cons_append, List.nil_append, bytesBe16, byteAt_cons_zero,
      byteAt_cons_succ]
    simp only [hbits.2]
    by_cases hlast : offset + d.length ≥ totalSize
    · simp only [if_pos hlast, UInt8.toNat_zero, Nat.zero_and, decide_eq_decide]
      omega
    · simp only [if_neg hlast, UInt8.toNat_one, Nat.reduceAnd, decide_eq_decide, true_iff]
      omega
  refine ⟨_, rfl, se4IpCheckChecksum_patch hlen20 _ hzero hhl, ?_, ?_⟩
  · simp only [pieceOf_patch hlen20, hhl, hsize, hoffset, hflag, Nat.reduceMul, Nat.add_sub_cancel]
  · rw [getHeaderLen_patch hlen20, hhl, drop_patch hlen20]

def fragmentView (ip : List UInt8) : Bool × (Nat × Nat × Bool) × List UInt8 :=
  (se4IpCheckChecksum ip, pieceOf ip, ip.drop (getHeaderLen ip * 4))

/-- The `k`-th piece of `data` cut `m` bytes at a time, as the receiver should
read it. -/
def expectedFragment (data : List UInt8) (m k : Nat) : Bool × (Nat × Nat × Bool) × List UInt8 :=
  (true, (k * m, min m (data.length - k * m), decide ((k + 1) * m < data.length)), (data.drop (k * m)).take m)

section Loop

variable (dest src : UInt32) (id : Nat) (protocol ttl : UInt8) (data : List UInt8) {m : Nat}
  (hm0 : 0 < m) (hm8 : m % 8 = 0) (hm : m + 20 < 65536) (hn : data.length < 65536)
include hm0 hm8 hm hn

theorem se4SendIpFragment_piece {k : Nat} (hk : k * m < data.length) :
    ∃ ip, se4SendIpFragment dest src id data.length (k * m) protocol ttl
        ((data.drop (k * m)).take (min m (data.length - k * m))) = some ip ∧
      fragmentView ip = expectedFragment data m k := by
  have hlen : ((data.drop (k * m)).take (min m (data.length - k * m))).length = min m (data.length - k * m) := by
    simp only [List.length_take, List.length_drop]
    omega
  have hoff : k * m % 8 = 0 := by
    rw [Nat.mul_mod, hm8, Nat.mul_zero, Nat.zero_mod]
  obtain ⟨ip, hip, hsum, hpiece, hdata⟩ := se4SendIpFragment_spec dest src id data.length (k * m) protocol ttl
    (by rw [hlen]; omega) (by rw [hlen]; omega) hoff (by omega)
  refine ⟨ip, hip, ?_⟩
  have hslice : (data.drop (k * m)).take (min m (data.length - k * m)) = (data.drop (k * m)).take m := by
    rw [List.take_eq_take_iff, List.length_drop]
    omega
  have hmore : decide (k * m + min m (data.length - k * m) < data.length) = decide ((k + 1) * m < data.length) := by
    rw [Nat.succ_mul]
    simp only [decide_eq_decide]
    omega
  rw [fragmentView, expectedFragment, hsum, hpiece, hdata, hlen, hmore, hslice]

theorem sendLoop_pieces (r : Nat) : ∀ k fuel, k + r = (data.length + m - 1) / m → 0 < r → r ≤ fuel →
    ∃ pkts, sendLoop dest src id data.length m protocol ttl data fuel (k * m) = some pkts ∧
      pkts.map fragmentView = (List.range' k r).map (expectedFragment data m) := by
  induction r with
  | zero => intro k fuel _ hr0 _; omega
  | succ r ih =>
    intro k fuel hr _ hfuel
    obtain ⟨fuel, rfl⟩ : ∃ f, fuel = f + 1 := ⟨fuel - 1, by omega⟩
    have hk : k * m < data.length := (lt_div_ceil_iff hm0).1 (by omega)
    have hmss : m % 65536 = m := Nat.mod_eq_of_lt (by omega)
    obtain ⟨ip, hip, hview⟩ := se4SendIpFragment_piece dest src id protocol ttl data hm0 hm8 hm hn hk
    rcases Nat.eq_zero_or_pos r with rfl | hr0
    · have hend : ¬ (k + 1) * m < data.length := fun h => by
        have := (lt_div_ceil_iff hm0).2 h
        omega
      rw [Nat.succ_mul] at hend
      have hlast : (k * m + min m (data.length - k * m)) % 65536 = data.length := by omega
      refine ⟨[ip], ?_, ?_⟩
      · simp only [sendLoop, hmss, hlast, hip, Option.toList_some, ↓reduceIte]
      · rw [List.map_singleton, hview, List.range'_one, List.map_singleton]
    · have hmore : (k + 1) * m < data.length := (lt_div_ceil_iff hm0).1 (by omega)
      rw [Nat.succ_mul] at hmore
      have hsize : min m (data.length - k * m) = m := by omega
      have hnext : (k * m + m) % 65536 = (k + 1) * m := by
        rw [Nat.succ_mul]
        omega
      have hnotlast : ¬ (k + 1) * m = data.length := by
        rw [Nat.succ_mul]
        omega
      obtain ⟨pkts, hpkts, hmap⟩ := ih (k + 1) fuel (by omega) hr0 (by omega)
      rw [hsize] at hip
      refine ⟨ip :: pkts, ?_, ?_⟩
      · simp only [sendLoop, hmss, hsize, hip, hnext, hnotlast, hpkts, Option.toList_some,
          ↓reduceIte, Option.map_some, List.singleton_append]
      · rw [List.map_cons, hview, hmap, List.range'_succ, List.map_cons]

end Loop

/-- `Se4SendIp` with an MSS that is a positive multiple of 8 cuts the datagram
into MSS-sized pieces: each packet passes the receiver's checksum check, says
which piece it is, and carries that piece, and the pieces put back in order are
the datagram. -/
theorem se4SendIp_fragments (mtu : UInt32) (idSeed : UInt16) (dest src : UInt32) (protocol ttl : UInt8)
    (data : List UInt8) (hmss : 0 < mtu.toNat - 20) (h8 : (mtu.toNat - 20) % 8 = 0) (hmtu : mtu.toNat < 65536)
    (hdata : data.length ≤ 65535) :
    ∃ pkts, se4SendIp mtu idSeed dest src protocol ttl data = some (idSeed + 1, pkts) ∧
      pkts.map fragmentView = (List.range ((data.length + (mtu.toNat - 20) - 1) / (mtu.toNat - 20))).map
        (expectedFragment data (mtu.toNat - 20)) ∧
      (pkts.map fun ip => ip.drop (getHeaderLen ip * 4)).flatten = data := by
  have hsub : (mtu - 20).toNat = mtu.toNat - 20 :=
    UInt32.toNat_sub_of_le _ _ (UInt32.le_iff_toNat_le.2 (by change 20 ≤ mtu.toNat; omega))
  unfold se4SendIp
  rw [if_neg (by omega)]
  dsimp only
  rw [hsub]
  generalize hm : mtu.toNat - 20 = m at hmss h8
  rcases Nat.eq_zero_or_pos data.length with h0 | hpos
  · rw [List.eq_nil_of_length_eq_zero h0]
    have hnone : (0 + m - 1) / m = 0 := Nat.div_eq_of_lt (by omega)
    refine ⟨[], ?_, ?_, rfl⟩
    · simp only [List.length_nil, sendLoop, Nat.zero_sub, Nat.min_zero, List.drop_zero, List.take_zero,
        se4SendIpFragment, ↓reduceIte, Option.toList_none, Option.map_some]
    · rw [List.length_nil, hnone, List.range_zero, List.map_nil, List.map_nil]
  · have hcount : 0 < (data.length + m - 1) / m := (lt_div_ceil_iff hmss).2 (by rw [Nat.zero_mul]; exact hpos)
    have hfew : (data.length + m - 1) / m ≤ data.length :=
      Nat.le_of_not_lt fun h => Nat.not_lt.2 (Nat.le_mul_of_pos_right _ hmss) ((lt_div_ceil_iff hmss).1 h)
    have hcover : data.length ≤ (0 + (data.length + m - 1) / m) * m := by
      rw [Nat.zero_add]
      exact Nat.le_of_not_lt fun h => Nat.lt_irrefl _ ((lt_div_ceil_iff hmss).2 h)
    obtain ⟨pkts, hpkts, hmap⟩ := sendLoop_pieces dest src idSeed.toNat protocol ttl data hmss h8 (by omega)
      (by omega) _ 0 (data.length + 1) (Nat.zero_add _) hcount (by omega)
    rw [Nat.zero_mul] at hpkts
    have hdata' : (pkts.map fun ip => ip.drop (getHeaderLen ip * 4)) = (pkts.map fragmentView).map (·.2.2) := by
      rw [List.map_map]
      rfl
    refine ⟨pkts, by rw [hpkts, Option.map_some], by rw [hmap, List.range_eq_range'], ?_⟩
    rw [hdata', hmap, List.map_map]
    exact (flatten_range'_map_take_drop data _ 0 hcover).trans (by rw [Nat.zero_mul, List.drop_zero])

theorem se4SendIp_fragments_forty :
    ∃ pkts, se4SendIp 36 7 1 2 17 64 (List.replicate 40 0xab) = some (8, pkts) ∧
      pkts.map fragmentView = (List.range 3).map (expectedFragment (List.replicate 40 0xab) 16) ∧
      (pkts.map fun ip => ip.drop (getHeaderLen ip * 4)).flatten = List.replicate 40 0xab :=
  se4SendIp_fragments 36 7 1 2 17 64 (List.replicate 40 0xab) (by decide) (by decide) (by decide) (by decide)

end Bitvisor.Se
