import Bitvisor.Lib.ByteMem
import Mathlib.Data.Nat.Bitwise

namespace Bitvisor.Ept

/-! How `core/x86/vt_ept.c` tracks which parts of a table page are in use:
bit `i` of the page's storage word marks the 128 bytes at `128 * i`, every
entry written is marked first, and `clear_ept_based_on_bitmap` zeroes the
marked parts when a table is attached. A page is its bytes by offset. -/

/-- `__builtin_ffs` on 32 bits: one plus the index of the lowest set bit, or
0 for 0. -/
def builtinFfs (x : UInt32) : Nat :=
  match (List.range 32).find? (fun i => x.toNat.testBit i) with
  | some i => i + 1
  | none => 0

def clearEptLoop : Nat → UInt32 → Nat → (Nat → UInt8) → (Nat → UInt8)
  | 0, _, _, p => p
  | fuel + 1, bitmap, off, p =>
    if builtinFfs bitmap = 0 then p
    else
      let bits0 := builtinFfs bitmap - 1
      let bitmap := bitmap >>> bits0.toUInt32
      let off := off + bits0
      let ffs1 := builtinFfs (~~~bitmap)
      let len := if ffs1 = 0 then 32 else ffs1 - 1
      let p := ByteMem.write p (off * 128) (List.replicate (len * 128) 0)
      if ffs1 = 0 then p
      else clearEptLoop fuel (bitmap >>> len.toUInt32) (off + len) p

theorem builtinFfs_eq_zero {x : UInt32} (h : builtinFfs x = 0) : x = 0 := by
  unfold builtinFfs at h
  split at h
  · omega
  · rename_i hnone
    rw [List.find?_range_eq_none] at hnone
    apply UInt32.toNat_inj.mp
    apply Nat.eq_of_testBit_eq
    intro i
    by_cases hi : i < 32
    · simpa using hnone i hi
    · simp only [UInt32.toNat_zero, Nat.zero_testBit]
      exact Nat.testBit_lt_two_pow (Nat.lt_of_lt_of_le x.toNat_lt (Nat.pow_le_pow_right (by omega) (by omega)))

theorem builtinFfs_eq_succ {x : UInt32} {i : Nat} (h : builtinFfs x = i + 1) :
    i < 32 ∧ x.toNat.testBit i = true ∧ ∀ j < i, x.toNat.testBit j = false := by
  unfold builtinFfs at h
  split at h
  · rename_i k hk
    rw [List.find?_range_eq_some] at hk
    obtain ⟨hbit, hmem, hlow⟩ := hk
    have hki : k = i := by omega
    subst hki
    exact ⟨List.mem_range.mp hmem, hbit, fun j hj => by simpa using hlow j hj⟩
  · omega

theorem toNat_not_testBit (x : UInt32) (j : Nat) :
    (~~~x).toNat.testBit j = (decide (j < 32) && !x.toNat.testBit j) := by
  have h : (~~~x).toNat = (~~~x.toBitVec).toNat := rfl
  rw [h, BitVec.testBit_toNat, BitVec.getLsbD_not, ← BitVec.testBit_toNat]
  rfl

theorem toNat_shiftRight_of_lt (x : UInt32) {k : Nat} (hk : k < 32) :
    (x >>> k.toUInt32).toNat = x.toNat >>> k := by
  rw [UInt32.toNat_shiftRight, Nat.toUInt32, UInt32.toNat_ofNat',
    Nat.mod_eq_of_lt (by omega : k < 2 ^ 32), Nat.mod_eq_of_lt hk]

theorem testBit_of_ge_32 (x : UInt32) {k : Nat} (hk : 32 ≤ k) : x.toNat.testBit k = false :=
  Nat.testBit_lt_two_pow (Nat.lt_of_lt_of_le x.toNat_lt (Nat.pow_le_pow_right (by omega) hk))

/-- The loop from `off` on, `bitmap` being the storage word `b` shifted by
`off`: the chunks of the set bits of `b` from `off` up are zeroed and no
other byte is touched. Induction on the rounds; each round handles the run
of set bits that starts at the lowest set bit left. -/
theorem clearEptLoop_spec (b : UInt32) :
    ∀ (fuel off : Nat) (bitmap : UInt32) (p : Nat → UInt8), 32 ≤ off + fuel →
      bitmap.toNat = b.toNat >>> off →
      clearEptLoop fuel bitmap off p =
        fun j => if off ≤ j / 128 ∧ b.toNat.testBit (j / 128) then 0 else p j := by
  intro fuel
  induction fuel with
  | zero =>
    intro off bitmap p hfuel _
    funext j
    rw [clearEptLoop, if_neg]
    rintro ⟨hoff, hbit⟩
    rw [testBit_of_ge_32 b (by omega)] at hbit
    exact Bool.false_ne_true hbit
  | succ fuel ih =>
    intro off bitmap p hfuel hb
    have hbit : ∀ k, bitmap.toNat.testBit k = b.toNat.testBit (off + k) := by
      intro k
      rw [hb, Nat.testBit_shiftRight]
    by_cases h0 : builtinFfs bitmap = 0
    · have hz := builtinFfs_eq_zero h0
      funext j
      rw [clearEptLoop, if_pos h0, if_neg]
      rintro ⟨hoff, hset⟩
      have := hbit (j / 128 - off)
      rw [hz, Nat.add_sub_cancel' hoff, hset] at this
      simp at this
    · obtain ⟨t, ht⟩ : ∃ t, builtinFfs bitmap = t + 1 := ⟨_, (Nat.succ_pred_eq_of_ne_zero h0).symm⟩
      obtain ⟨ht32, hset, hlow⟩ := builtinFfs_eq_succ ht
      have hclear : ∀ k, off ≤ k → k < off + t → b.toNat.testBit k = false := by
        intro k hk hk'
        rw [← Nat.add_sub_cancel' hk, ← hbit]
        exact hlow _ (by omega)
      have hbm : (bitmap >>> t.toUInt32).toNat = b.toNat >>> (off + t) := by
        rw [toNat_shiftRight_of_lt _ ht32, hb, Nat.shiftRight_add]
      by_cases h1 : builtinFfs (~~~(bitmap >>> t.toUInt32)) = 0
      · have hones := builtinFfs_eq_zero h1
        have hall : ∀ k < 32, b.toNat.testBit (off + t + k) = true := by
          intro k hk
          have := toNat_not_testBit (bitmap >>> t.toUInt32) k
          rw [hones, hbm, Nat.testBit_shiftRight] at this
          simpa [hk] using this
        have hstart : off + t = 0 := by
          by_contra hne
          have := hall 31 (by omega)
          rw [testBit_of_ge_32 b (by omega)] at this
          exact Bool.false_ne_true this
        rw [clearEptLoop, if_neg h0]
        simp only [ht, Nat.add_sub_cancel, h1, if_true, hstart, Nat.zero_mul]
        funext j
        rw [ByteMem.write_replicate_zero]
        by_cases hj : j / 128 < 32
        · rw [if_pos (by omega), if_pos ⟨by omega, by simpa [hstart] using hall (j / 128) hj⟩]
        · rw [if_neg (by omega), if_neg (fun h => by
            rw [testBit_of_ge_32 b (by omega)] at h
            exact Bool.false_ne_true h.2)]
      · obtain ⟨u, hu⟩ : ∃ u, builtinFfs (~~~(bitmap >>> t.toUInt32)) = u + 1 :=
          ⟨_, (Nat.succ_pred_eq_of_ne_zero h1).symm⟩
        obtain ⟨hu32, hend, hrun⟩ := builtinFfs_eq_succ hu
        rw [toNat_not_testBit, hbm, Nat.testBit_shiftRight] at hend
        have hrun' : ∀ k, off + t ≤ k → k < off + t + u → b.toNat.testBit k = true := by
          intro k hk hk'
          have := hrun (k - (off + t)) (by omega)
          rw [toNat_not_testBit, hbm, Nat.testBit_shiftRight, Nat.add_sub_cancel' hk] at this
          simpa [show k - (off + t) < 32 by omega] using this
        have hu0 : 0 < u := by
          rcases Nat.eq_zero_or_pos u with rfl | h
          · have := hbit t
            rw [hset] at this
            simp [hu32, ← this] at hend
          · exact h
        have hnext : (bitmap >>> t.toUInt32 >>> u.toUInt32).toNat = b.toNat >>> (off + t + u) := by
          rw [toNat_shiftRight_of_lt _ hu32, hbm, Nat.shiftRight_add _ (off + t)]
        rw [clearEptLoop, if_neg h0]
        simp only [ht, Nat.add_sub_cancel, hu, Nat.add_one_ne_zero, if_false]
        rw [ih (off + t + u) _ _ (by omega) hnext]
        funext j
        rw [ByteMem.write_replicate_zero]
        by_cases hk1 : j / 128 < off
        · rw [if_neg (by omega), if_neg (by omega), if_neg (by omega)]
        by_cases hk2 : j / 128 < off + t
        · rw [if_neg (by omega), if_neg (by omega), hclear _ (by omega) hk2]
          simp
        by_cases hk3 : j / 128 < off + t + u
        · rw [if_neg (by omega), if_pos (by omega), if_pos ⟨by omega, hrun' _ (by omega) hk3⟩]
        · have hout : ¬((off + t) * 128 ≤ j ∧ j < (off + t) * 128 + u * 128) := by omega
          simp only [hout, if_false, show off + t + u ≤ j / 128 by omega,
            show off ≤ j / 128 by omega, true_and]

structure TablePage where
  bytes : Nat → UInt8
  storage : UInt32

/-- `clear_ept_based_on_bitmap (p)`. -/
def clearEptBasedOnBitmap (t : TablePage) : TablePage :=
  ⟨clearEptLoop 32 t.storage 0 t.bytes, 0⟩

/-- `set_bitmap_for_ept_entry (p)` for the entry at byte `off` of its page. -/
def setBitmapForEptEntry (t : TablePage) (off : Nat) : TablePage :=
  { t with storage := t.storage ||| ((1 : UInt32) <<< ((off % 4096) >>> 7).toUInt32) }

def entryBytes (v : UInt64) : List UInt8 :=
  (List.range 8).map fun k => (v >>> (8 * k).toUInt64).toUInt8

inductive TableOp
  | entry (i : Fin 512) (v : UInt64)
  | zero (i : Fin 512)
  | attach

def tableStep (t : TablePage) : TableOp → TablePage
  | .entry i v =>
    let t := setBitmapForEptEntry t (8 * i)
    { t with bytes := ByteMem.write t.bytes (8 * i) (entryBytes v) }
  | .zero i => { t with bytes := ByteMem.write t.bytes (8 * i) (List.replicate 8 0) }
  | .attach => clearEptBasedOnBitmap t

def tableRun (ops : List TableOp) (t : TablePage) : TablePage := ops.foldl tableStep t

theorem clearEptBasedOnBitmap_eq (t : TablePage) :
    clearEptBasedOnBitmap t =
      ⟨fun j => if t.storage.toNat.testBit (j / 128) then 0 else t.bytes j, 0⟩ := by
  rw [clearEptBasedOnBitmap, clearEptLoop_spec t.storage 32 0 t.storage t.bytes (by omega)
    (by rw [Nat.shiftRight_zero])]
  simp

structure Marked (base : Nat → UInt8) (t : TablePage) : Prop where
  marked : ∀ j < 4096, t.bytes j ≠ 0 → t.storage.toNat.testBit (j / 128) = true
  frame : ∀ j, 4096 ≤ j → t.bytes j = base j

theorem testBit_setBitmapForEptEntry (t : TablePage) (i : Fin 512) (k : Nat) :
    (setBitmapForEptEntry t (8 * i)).storage.toNat.testBit k =
      (t.storage.toNat.testBit k || k = 8 * i / 128) := by
  have hi := i.isLt
  have hk : (8 * i.val % 4096) >>> 7 = 8 * i / 128 := by
    rw [Nat.mod_eq_of_lt (by omega), Nat.shiftRight_eq_div_pow]
  simp only [setBitmapForEptEntry, UInt32.toNat_or, Nat.testBit_or, hk]
  rw [UInt32.toNat_shiftLeft, Nat.toUInt32, UInt32.toNat_ofNat', UInt32.toNat_one,
    Nat.mod_eq_of_lt (by omega : 8 * i.val / 128 < 2 ^ 32), Nat.mod_eq_of_lt (by omega : 8 * i.val / 128 < 32),
    Nat.one_shiftLeft, Nat.mod_eq_of_lt (Nat.pow_lt_pow_right (by omega) (by omega)),
    Nat.testBit_two_pow]
  by_cases h : k = 8 * i / 128 <;> simp [h, eq_comm]

theorem Marked.entry {base : Nat → UInt8} {t : TablePage} (h : Marked base t) (i : Fin 512)
    (v : UInt64) : Marked base (tableStep t (.entry i v)) := by
  have hi := i.isLt
  have hlen : (entryBytes v).length = 8 := by simp [entryBytes]
  constructor
  · intro j hj hne
    simp only [tableStep, testBit_setBitmapForEptEntry, Bool.or_eq_true, decide_eq_true_eq]
    simp only [tableStep, ByteMem.write, hlen] at hne
    by_cases hw : 8 * i.val ≤ j ∧ j < 8 * i.val + 8
    · exact Or.inr (by omega)
    · rw [if_neg hw] at hne
      exact Or.inl (h.marked j hj hne)
  · intro j hj
    simp only [tableStep, ByteMem.write, hlen]
    rw [if_neg (by omega)]
    exact h.frame j hj

theorem Marked.zero {base : Nat → UInt8} {t : TablePage} (h : Marked base t) (i : Fin 512) :
    Marked base (tableStep t (.zero i)) := by
  have hi := i.isLt
  constructor
  · intro j hj hne
    simp only [tableStep, ByteMem.write_replicate_zero] at hne ⊢
    split_ifs at hne with hw
    · exact absurd rfl hne
    · exact h.marked j hj hne
  · intro j hj
    simp only [tableStep, ByteMem.write_replicate_zero]
    rw [if_neg (by omega)]
    exact h.frame j hj

theorem Marked.clear_bytes {base : Nat → UInt8} {t : TablePage} (h : Marked base t) :
    (clearEptBasedOnBitmap t).bytes = fun j => if j < 4096 then 0 else base j := by
  funext j
  rw [clearEptBasedOnBitmap_eq]
  dsimp only
  by_cases hj : j < 4096
  · rw [if_pos hj]
    by_cases hz : t.bytes j = 0
    · simp [hz]
    · simp [h.marked j hj hz]
  · rw [if_neg hj, if_neg (by rw [testBit_of_ge_32 _ (by omega)]; simp), h.frame j (by omega)]

theorem Marked.attach {base : Nat → UInt8} {t : TablePage} (h : Marked base t) :
    Marked base (tableStep t .attach) := by
  constructor
  · intro j hj hne
    simp only [tableStep, h.clear_bytes, if_pos hj] at hne
    exact absurd rfl hne
  · intro j hj
    simp only [tableStep, h.clear_bytes, if_neg (show ¬j < 4096 by omega)]

theorem Marked.step {base : Nat → UInt8} {t : TablePage} (h : Marked base t) :
    ∀ op, Marked base (tableStep t op)
  | .entry i v => h.entry i v
  | .zero i => h.zero i
  | .attach => h.attach

theorem Marked.run {base : Nat → UInt8} :
    ∀ (ops : List TableOp) {t : TablePage}, Marked base t → Marked base (tableRun ops t)
  | [], _, h => h
  | op :: ops, _, h => Marked.run ops (h.step op)

theorem marked_fresh (bytes : Nat → UInt8) : Marked bytes ⟨bytes, 0xFFFFFFFF⟩ := by
  constructor
  · intro j hj _
    have : (0xFFFFFFFF : UInt32).toNat = 2 ^ 32 - 1 := rfl
    rw [this, Nat.testBit_two_pow_sub_one]
    simp
    omega
  · intro j _
    rfl

/-- `clear_ept_based_on_bitmap` zeroes the 128-byte chunks of the set bits
of the storage word, keeps every other byte and clears the word; and a
table page allocated with every chunk marked, then written only through
marked entries and zero stores and cleared on every attach, is the zero
page whenever it is attached. -/
theorem clearEptBasedOnBitmap_zeroes_marked_chunks :
    (∀ t : TablePage, clearEptBasedOnBitmap t =
      ⟨fun j => if t.storage.toNat.testBit (j / 128) then 0 else t.bytes j, 0⟩) ∧
    (∀ (bytes : Nat → UInt8) (ops : List TableOp),
      (clearEptBasedOnBitmap (tableRun ops ⟨bytes, 0xFFFFFFFF⟩)).bytes =
        fun j => if j < 4096 then 0 else bytes j) := by
  refine ⟨clearEptBasedOnBitmap_eq, fun bytes ops => ?_⟩
  exact ((marked_fresh bytes).run ops).clear_bytes

end Bitvisor.Ept
