import Bitvisor.Ept.Run

namespace Bitvisor.Ept

/-! `vt_ept_read_epte`: the walk of an EPT as the processor makes it, from
the EPTP through the address bits `amask` of each entry, with the
permissions of the entries on the way accumulated. From the EPTP that
`vt_ept_get_eptp` loads, and with an `amask` that keeps the addresses of the
tables, it ends where the walk of the model ends, on the same entry. -/

/-- `EPTE_ATTR_MASK`. -/
def epteAttrMask : UInt16 := 0xFFF

/-- `VMCS_EPT_POINTER_EPT_WB`. -/
def vmcsEptPointerEptWb : UInt64 := 0x6

/-- `VMCS_EPT_PAGEWALK_LENGTH_4`. -/
def vmcsEptPagewalkLength4 : UInt64 := 0x18

/-- `vt_ept_get_eptp (ept)`. -/
def vtEptGetEptp (s : VtEptState) : UInt64 :=
  s.ept.ncr3tbl ||| vmcsEptPointerEptWb ||| vmcsEptPagewalkLength4

def readEpteLoop (W : Words) (amask phys : UInt64) : Nat → UInt64 → UInt16 → Nat × UInt64 × UInt16
  | 0, e, attr => (0, e, attr)
  | level + 1, e, attr =>
    let e' := W ((e &&& amask) ||| (((phys >>> (12 + 9 * level).toUInt64) &&& 511) <<< 3))
    let attr := attr &&& e'.toUInt16
    if e' &&& eptePresentMask = 0 then (level, e', attr)
    else if e' &&& epteLarge ≠ 0 then (level, e', attr)
    else readEpteLoop W amask phys level e' attr

/-- `vt_ept_read_epte (as, amask, eptp, phys, &entry)` over the words `W` of
the address space: the level and the entry, whose present bits are those of
every entry on the way. -/
def vtEptReadEpte (W : Words) (amask eptp phys : UInt64) : Nat × UInt64 :=
  let r := readEpteLoop W amask phys 4 eptp epteAttrMask
  (r.1, (r.2.1 &&& ~~~eptePresentMask) ||| (r.2.2.toUInt64 &&& eptePresentMask))

theorem readEpte_index (phys : UInt64) (level : Nat) :
    ((phys >>> (12 + 9 * level).toUInt64) &&& 511) <<< (3 : UInt64) = eptIndex phys level <<< (3 : UInt64) :=
  rfl

theorem testBit_or64 (x y : UInt64) (j : Nat) :
    (x ||| y).toNat.testBit j = (x.toNat.testBit j || y.toNat.testBit j) := by
  rw [UInt64.toNat_or, Nat.testBit_or]

theorem or_low_and_mask {t c amask : UInt64} (hc : c.toNat < 4096) (hm : amask &&& 0xFFF = 0)
    (ht : t &&& amask = t) : (t ||| c) &&& amask = t := by
  apply eq_of_testBit64
  intro j hj
  have hmj := congrArg (fun x : UInt64 => x.toNat.testBit j) hm
  have htj := congrArg (fun x : UInt64 => x.toNat.testBit j) ht
  simp only [testBit_and64] at hmj htj
  rw [testBit_and64, testBit_or64]
  by_cases hj12 : j < 12
  · have h0 : (0xFFF : UInt64).toNat.testBit j = true := by
      rw [show (0xFFF : UInt64).toNat = 2 ^ 12 - 1 from rfl, Nat.testBit_two_pow_sub_one]
      simpa using hj12
    rw [h0, Bool.and_true] at hmj
    have hm0 : amask.toNat.testBit j = false := by simpa using hmj
    rw [hm0, Bool.and_false] at htj ⊢
    exact htj
  · have hcj : c.toNat.testBit j = false :=
      Nat.testBit_lt_two_pow (lt_of_lt_of_le hc (Nat.pow_le_pow_right (by decide : 2 > 0) (by omega : 12 ≤ j)))
    rw [hcj, Bool.or_false, htj]

theorem attr_low (attr : UInt16) (x : UInt64) (h : attr.toUInt64 &&& 7 = 7) :
    (attr &&& x.toUInt16).toUInt64 &&& 7 = x &&& 7 := by
  apply eq_of_testBit64
  intro j hj
  have hj' := congrArg (fun y : UInt64 => y.toNat.testBit j) h
  simp only [testBit_and64] at hj' ⊢
  simp only [UInt16.toNat_toUInt64, UInt16.toNat_and, UInt64.toNat_toUInt16, Nat.testBit_and,
    Nat.testBit_mod_two_pow] at hj' ⊢
  have h7 : Nat.testBit 7 j = decide (j < 3) := by
    rw [show (7 : Nat) = 2 ^ 3 - 1 from rfl, Nat.testBit_two_pow_sub_one]
  rw [show (7 : UInt64).toNat = 7 from rfl, h7] at hj' ⊢
  by_cases hj3 : j < 3
  · simp only [hj3, decide_true, Bool.and_true] at hj' ⊢
    simp [hj', show j < 16 by omega]
  · simp [hj3]

theorem and_not_or_and (x m : UInt64) : (x &&& ~~~m) ||| (x &&& m) = x := by
  apply UInt64.toBitVec_inj.mp
  apply BitVec.eq_of_getLsbD_eq
  intro i hi
  simp only [UInt64.toBitVec_or, UInt64.toBitVec_and, UInt64.toBitVec_not, BitVec.getLsbD_or,
    BitVec.getLsbD_and, BitVec.getLsbD_not, hi, decide_true, Bool.true_and]
  cases x.toBitVec.getLsbD i <;> cases m.toBitVec.getLsbD i <;> rfl

section Walk

variable {W : Words} {root amask phys : UInt64}

theorem walkEntry_not_stops {g a : UInt64} {k m : Nat} (hkm : k < m) (hm : (walkEntry W root g m).isSome)
    (ha : walkEntry W root g k = some a) : ¬Stops (W a) := by
  obtain ⟨c, hc⟩ := Option.isSome_iff_exists.mp (walkEntry_isSome_of_le (show k + 1 ≤ m by omega) hm)
  obtain ⟨b, hb, hgo, -⟩ := walkEntry_succ_eq_some.mp hc
  rw [ha, Option.some.injEq] at hb
  rwa [hb]

theorem leaf_iff_of_end {g b e : UInt64} {L L' : Nat} (hL : L ≤ 3) (hb : walkEntry W root g (3 - L) = some b)
    (hend : L = 0 ∨ Stops (W b)) : Leaf W root g L' e ↔ L' = L ∧ e = W b ∧ W b &&& eptePresentMask ≠ 0 := by
  constructor
  · rintro ⟨hl', a, ha, he, hpres, hlarge⟩
    have hLL : L' = L := by
      rcases Nat.lt_trichotomy L' L with hlt | heq | hgt
      · have hgo := walkEntry_not_stops (show 3 - L < 3 - L' by omega) (by rw [ha]; rfl) hb
        exact absurd (hend.resolve_left (by omega)) hgo
      · exact heq
      · have hgo := walkEntry_not_stops (show 3 - L' < 3 - L by omega) (by rw [hb]; rfl) ha
        exact absurd (.inr (he ▸ hlarge.resolve_left (by omega))) hgo
    subst hLL
    rw [hb, Option.some.injEq] at ha
    subst ha
    exact ⟨rfl, he.symm, he ▸ hpres⟩
  · rintro ⟨rfl, rfl, hpres⟩
    exact ⟨hL, b, hb, rfl, hpres, hend.imp_right fun h => h.resolve_left hpres⟩

/-- Where every entry on the walk of `phys` that leads on points to a table
whose address `amask` keeps, with all its permissions, the loop follows the
walk of the model: from an entry whose masked address and index give the
walk's address at `level`, it stops where the walk ends, with the
permissions of the entry it ends on. Induction on the levels left. -/
theorem readEpteLoop_walk
    (hptr : ∀ k < 3, ∀ a, walkEntry W root phys k = some a → ¬Stops (W a) →
      W a &&& amask = W a &&& ~~~(0xFFF : UInt64) ∧ W a &&& 7 = 7) :
    ∀ level e attr a, level ≤ 3 → walkEntry W root phys (3 - level) = some a →
      (e &&& amask) ||| (eptIndex phys level <<< (3 : UInt64)) = a → attr.toUInt64 &&& 7 = 7 →
      ∃ L b, L ≤ level ∧ walkEntry W root phys (3 - L) = some b ∧ (L = 0 ∨ Stops (W b)) ∧
        (readEpteLoop W amask phys (level + 1) e attr).1 = L ∧
        (readEpteLoop W amask phys (level + 1) e attr).2.1 = W b ∧
        (readEpteLoop W amask phys (level + 1) e attr).2.2.toUInt64 &&& 7 = W b &&& 7 := by
  intro level
  induction level with
  | zero =>
    intro e attr a _ hw haddr hattr
    refine ⟨0, a, le_rfl, hw, .inl rfl, ?_⟩
    rw [readEpteLoop, readEpte_index, haddr]
    split_ifs <;> exact ⟨rfl, rfl, attr_low attr (W a) hattr⟩
  | succ l ih =>
    intro e attr a hl hw haddr hattr
    rw [readEpteLoop, readEpte_index, haddr]
    by_cases hstop : Stops (W a)
    · refine ⟨l + 1, a, le_rfl, hw, .inr hstop, ?_⟩
      rcases hstop with h0 | hlarge
      · rw [if_pos h0]
        exact ⟨rfl, rfl, attr_low attr (W a) hattr⟩
      · split_ifs
        · exact ⟨rfl, rfl, attr_low attr (W a) hattr⟩
        · exact ⟨rfl, rfl, attr_low attr (W a) hattr⟩
    · obtain ⟨hmask, h7⟩ := hptr (3 - (l + 1)) (by omega) a hw hstop
      have hw' : walkEntry W root phys (3 - l) =
          some ((W a &&& ~~~(0xFFF : UInt64)) ||| (eptIndex phys l <<< (3 : UInt64))) := by
        rw [show 3 - l = 3 - (l + 1) + 1 by omega, walkEntry_succ_eq_some,
          show 2 - (3 - (l + 1)) = l by omega]
        exact ⟨a, hw, hstop, rfl⟩
      have hattr' : (attr &&& (W a).toUInt16).toUInt64 &&& 7 = 7 := by
        rw [attr_low attr (W a) hattr, h7]
      obtain ⟨L, b, hL, hb, hend, hres⟩ :=
        ih (W a) (attr &&& (W a).toUInt16) _ (by omega) hw' (by rw [hmask]) hattr'
      refine ⟨L, b, by omega, hb, hend, ?_⟩
      obtain ⟨hpres, hsmall⟩ := not_or.mp hstop
      rw [if_neg hpres, if_neg hsmall]
      exact hres

/-- `vt_ept_read_epte` from an EPTP whose masked address is the root returns
the level and the entry where the walk of the model ends. -/
theorem vtEptReadEpte_walk {eptp : UInt64} (hroot : root.toNat % 4096 = 0) (heptp : eptp &&& amask = root)
    (hptr : ∀ k < 3, ∀ a, walkEntry W root phys k = some a → ¬Stops (W a) →
      W a &&& amask = W a &&& ~~~(0xFFF : UInt64) ∧ W a &&& 7 = 7) :
    ∃ L b, L ≤ 3 ∧ walkEntry W root phys (3 - L) = some b ∧ (L = 0 ∨ Stops (W b)) ∧
      vtEptReadEpte W amask eptp phys = (L, W b) := by
  have hi := eptIndex_toNat_lt phys 3
  have haddr : (eptp &&& amask) ||| (eptIndex phys 3 <<< (3 : UInt64)) = root + 8 * eptIndex phys 3 := by
    rw [heptp]
    exact UInt64.toNat_inj.mp (by rw [toNat_entryAddr hroot hi, toNat_add_entry hroot hi])
  obtain ⟨L, b, hL, hb, hend, h1, h2, h3⟩ :=
    readEpteLoop_walk hptr 3 eptp epteAttrMask _ le_rfl rfl haddr (by decide)
  refine ⟨L, b, hL, hb, hend, ?_⟩
  unfold vtEptReadEpte
  dsimp only
  rw [h1, h2, show eptePresentMask = 7 from rfl, h3, and_not_or_and]

end Walk

section Reachable

variable {env : Gmm} {allocPage : Nat → UInt64} {s : VtEptState}

/-- The processor's walk and the model's agree on every reachable state:
from the EPTP of `vt_ept_get_eptp`, with an `amask` that clears the low 12
bits and keeps the root and table addresses, `vt_ept_read_epte` returns a
present entry exactly when the walk of the address ends on it, at the level
it returns. -/
theorem reach_vtEptReadEpte (hr : Reach env allocPage s) {amask : UInt64} (hlow : amask &&& 0xFFF = 0)
    (hroot : s.ept.ncr3tbl &&& amask = s.ept.ncr3tbl) (hpg : ∀ i < s.cnt, allocPage i &&& amask = allocPage i)
    (phys e : UInt64) (L : Nat) :
    Leaf (wordsOf s.mem) s.ept.ncr3tbl phys L e ↔
      vtEptReadEpte (wordsOf s.mem) amask (vtEptGetEptp s) phys = (L, e) ∧ e &&& eptePresentMask ≠ 0 := by
  have h := reach_eptInv hr
  obtain ⟨lv, ht⟩ := h.pool.tree
  have hptr : ∀ k < 3, ∀ a, walkEntry (wordsOf s.mem) s.ept.ncr3tbl phys k = some a →
      ¬Stops (wordsOf s.mem a) → wordsOf s.mem a &&& amask = wordsOf s.mem a &&& ~~~(0xFFF : UInt64) ∧
        wordsOf s.mem a &&& 7 = 7 := by
    intro k hk a ha hgo
    obtain ⟨j, hj, hp⟩ := ht.ptr_of_walkEntry hk ha hgo
    have hal := ht.pg_aligned j hj
    have h7 : (allocPage j ||| epteReadexec ||| epteWrite) &&& 7 = 7 :=
      calc _ = ((allocPage j ||| epteReadexec ||| epteWrite) &&& 0xFFF) &&& 7 := by
            rw [UInt64.and_assoc, show (0xFFF : UInt64) &&& 7 = 7 by decide]
        _ = 7 := by rw [ptr_and_low hal]; decide
    rw [hp, ptr_and_pageMask hal, h7, ptr_eq]
    exact ⟨or_low_and_mask (by decide) hlow (hpg j hj), rfl⟩
  have heptp : vtEptGetEptp s &&& amask = s.ept.ncr3tbl := by
    rw [vtEptGetEptp, UInt64.or_assoc]
    exact or_low_and_mask (by decide) hlow hroot
  obtain ⟨L₀, b, hL₀, hb, hend, hread⟩ := vtEptReadEpte_walk ht.root_aligned heptp hptr
  rw [leaf_iff_of_end hL₀ hb hend, hread, Prod.mk.injEq]
  constructor
  · rintro ⟨rfl, rfl, hpres⟩
    exact ⟨⟨rfl, rfl⟩, hpres⟩
  · rintro ⟨⟨rfl, rfl⟩, hpres⟩
    exact ⟨rfl, rfl, hpres⟩

set_option maxRecDepth 100000 in
theorem reach_vtEptReadEpte_faulted :
    Leaf (wordsOf faultedEpt.mem) faultedEpt.ept.ncr3tbl 0x5000 1 (leafEntry shiftGmm 0x5000 1) ↔
      vtEptReadEpte (wordsOf faultedEpt.mem) 0x000FFFFFFFFFF000 (vtEptGetEptp faultedEpt) 0x5000 =
          (1, leafEntry shiftGmm 0x5000 1) ∧ leafEntry shiftGmm 0x5000 1 &&& eptePresentMask ≠ 0 :=
  reach_vtEptReadEpte reach_faultedEpt (by decide) (by decide) (by decide) 0x5000 _ 1

end Reachable

end Bitvisor.Ept
