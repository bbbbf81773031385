import Mathlib.Data.List.Basic

namespace Bitvisor.Storage

/-! `storage_handle_sectors` at the granularity of sectors: a buffer of
`count * sector_size` bytes is a list of `count` sectors, and the `memcpy` of
`sub_count * sector_size` bytes copies `sub_count` of them. In place
(`dst == src`) the skipped `memcpy` leaves the same sectors. -/

variable {K S : Type}

/-- `STORAGE_READ` and `STORAGE_WRITE`. -/
inductive Rw
  | read
  | write
  deriving DecidableEq, Repr

structure Crypto (K S : Type) where
  encrypt : K → Nat → S → S
  decrypt : K → Nat → S → S

/-- `struct storage_keys`: the sectors `lba_low..lba_high` and the key. -/
structure StorageKeys (K : Type) where
  lbaLow : Nat
  lbaHigh : Nat
  keyctx : K

/-- `struct storage_access`. -/
structure StorageAccess where
  lba : Nat
  count : Nat
  rw : Rw

def Crypto.crypt (crypto : Crypto K S) (rw : Rw) : K → Nat → S → S :=
  if rw = .read then crypto.decrypt else crypto.encrypt

structure Cursor (S : Type) where
  lba : Nat
  count : Nat
  src : List S
  dst : List S

def cryptSectors (f : Nat → S → S) : Nat → List S → List S
  | _, [] => []
  | lba, s :: ss => f lba s :: cryptSectors f (lba + 1) ss

/-- `if lba < low then memcpy`: chunks of at most 65535 sectors. Each round
takes at least one sector, so `count + 1` rounds of fuel are enough. -/
def copyLoop (low : Nat) : Nat → Cursor S → Option (Cursor S)
  | 0, _ => none
  | fuel + 1, c =>
      if c.count > 0 ∧ low > c.lba then
        let subCount := min (min 65535 (low - c.lba)) c.count
        copyLoop low fuel
          ⟨c.lba + subCount, c.count - subCount, c.src.drop subCount, c.dst ++ c.src.take subCount⟩
      else some c

/-- `if low <= lba <= high then crypt`. -/
def cryptLoop (high : Nat) (f : Nat → S → S) : Nat → Cursor S → Option (Cursor S)
  | 0, _ => none
  | fuel + 1, c =>
      if c.count > 0 ∧ high ≥ c.lba then
        let subCount := min c.count (if high - c.lba ≥ 65535 then 65535 else high - c.lba + 1)
        cryptLoop high f fuel
          ⟨c.lba + subCount, c.count - subCount, c.src.drop subCount,
            c.dst ++ cryptSectors f c.lba (c.src.take subCount)⟩
      else some c

def keyLoop (crypto : Crypto K S) (rw : Rw) : List (StorageKeys K) → Cursor S → Option (Cursor S)
  | [], c => some c
  | k :: ks, c =>
      if c.count > 0 then
        (copyLoop k.lbaLow (c.count + 1) c).bind fun c =>
          (cryptLoop k.lbaHigh (crypto.crypt rw k.keyctx) (c.count + 1) c).bind (keyLoop crypto rw ks)
      else some c

/-- `storage_handle_sectors`: the sectors written to `dst`; `none` only if a
loop ran out of fuel. -/
def storageHandleSectors (crypto : Crypto K S) (keys : List (StorageKeys K)) (access : StorageAccess)
    (src : List S) : Option (List S) :=
  (keyLoop crypto access.rw keys ⟨access.lba, access.count, src, []⟩).map fun c =>
    c.dst ++ c.src.take c.count

section Loops

variable {f : Nat → S → S}

theorem cryptSectors_append (lba : Nat) (l₁ l₂ : List S) :
    cryptSectors f lba (l₁ ++ l₂) = cryptSectors f lba l₁ ++ cryptSectors f (lba + l₁.length) l₂ := by
  induction l₁ generalizing lba with
  | nil => rfl
  | cons s ss ih =>
    rw [List.cons_append, cryptSectors, cryptSectors, ih, List.length_cons, Nat.add_assoc, Nat.add_comm 1,
      List.cons_append]

theorem cryptSectors_eq_mapIdx (lba : Nat) (l : List S) :
    cryptSectors f lba l = l.mapIdx fun j s => f (lba + j) s := by
  induction l generalizing lba with
  | nil => rfl
  | cons s ss ih =>
    rw [cryptSectors, ih, List.mapIdx_cons]
    simp only [Nat.add_zero, Nat.add_assoc, Nat.add_comm 1]

theorem cryptSectors_congr {g : Nat → S → S} (lba : Nat) (l : List S)
    (h : ∀ x s, lba ≤ x → x < lba + l.length → f x s = g x s) :
    cryptSectors f lba l = cryptSectors g lba l := by
  induction l generalizing lba with
  | nil => rfl
  | cons s ss ih =>
    rw [cryptSectors, cryptSectors, h lba s (Nat.le_refl _) (by simp),
      ih (lba + 1) fun x s hx hx' => h x s (by omega) (by simp at hx' ⊢; omega)]

theorem cryptSectors_id (lba : Nat) (l : List S) : cryptSectors (fun _ s => s) lba l = l := by
  induction l generalizing lba with
  | nil => rfl
  | cons s ss ih => rw [cryptSectors, ih]

theorem copyLoop_spec (low : Nat) :
    ∀ fuel (c : Cursor S), c.count < fuel →
      copyLoop low fuel c = some ⟨c.lba + min (low - c.lba) c.count, c.count - min (low - c.lba) c.count,
        c.src.drop (min (low - c.lba) c.count), c.dst ++ c.src.take (min (low - c.lba) c.count)⟩ := by
  intro fuel
  induction fuel with
  | zero => intro c hc; omega
  | succ fuel ih =>
    intro c hc
    rw [copyLoop]
    split_ifs with h
    · rw [ih _ (by dsimp only; omega)]
      dsimp only
      have hsum : min (min 65535 (low - c.lba)) c.count +
          min (low - (c.lba + min (min 65535 (low - c.lba)) c.count)) (c.count - min (min 65535 (low - c.lba)) c.count) =
          min (low - c.lba) c.count := by omega
      rw [List.drop_drop, List.append_assoc, ← List.take_add, Nat.add_assoc, hsum, Nat.sub_sub, hsum]
    · have hzero : min (low - c.lba) c.count = 0 := by omega
      rw [hzero, Nat.add_zero, Nat.sub_zero, List.drop_zero, List.take_zero, List.append_nil]

theorem cryptLoop_spec (high : Nat) :
    ∀ fuel (c : Cursor S), c.count < fuel → c.src.length = c.count →
      cryptLoop high f fuel c = some ⟨c.lba + min (high + 1 - c.lba) c.count,
        c.count - min (high + 1 - c.lba) c.count, c.src.drop (min (high + 1 - c.lba) c.count),
        c.dst ++ cryptSectors f c.lba (c.src.take (min (high + 1 - c.lba) c.count))⟩ := by
  intro fuel
  induction fuel with
  | zero => intro c hc; omega
  | succ fuel ih =>
    intro c hc hsrc
    rw [cryptLoop]
    by_cases h : c.count > 0 ∧ high ≥ c.lba
    · rw [if_pos h]
      generalize hm : min c.count (if high - c.lba ≥ 65535 then 65535 else high - c.lba + 1) = m
      have hm' : m ≤ c.count ∧ 0 < m ∧ m ≤ high + 1 - c.lba := by
        subst hm
        split <;> omega
      rw [ih _ (by dsimp only; omega) (by simp only [List.length_drop]; omega)]
      dsimp only
      have hsum : m + min (high + 1 - (c.lba + m)) (c.count - m) = min (high + 1 - c.lba) c.count := by
        omega
      have hlen : (c.src.take m).length = m := by
        simp only [List.length_take]
        omega
      have happ := cryptSectors_append (f := f) c.lba (c.src.take m)
        ((c.src.drop m).take (min (high + 1 - (c.lba + m)) (c.count - m)))
      rw [hlen] at happ
      rw [List.drop_drop, List.append_assoc, ← happ, ← List.take_add, Nat.add_assoc, hsum, Nat.sub_sub, hsum]
    · have hzero : min (high + 1 - c.lba) c.count = 0 := by omega
      rw [if_neg h, hzero, Nat.add_zero, Nat.sub_zero, List.drop_zero, List.take_zero, cryptSectors, List.append_nil]

end Loops

def keyFor (keys : List (StorageKeys K)) (lba : Nat) : Option (StorageKeys K) :=
  keys.find? fun k => k.lbaLow ≤ lba ∧ lba ≤ k.lbaHigh

/-- What the access should write: sector `j` en- or decrypted with the first
key that holds `lba + j`, copied where no key does. -/
def expectedSectors (crypto : Crypto K S) (keys : List (StorageKeys K)) (access : StorageAccess)
    (src : List S) : List S :=
  src.mapIdx fun j s =>
    match keyFor keys (access.lba + j) with
    | some k => crypto.crypt access.rw k.keyctx (access.lba + j) s
    | none => s

def sectorOut (crypto : Crypto K S) (keys : List (StorageKeys K)) (rw : Rw) (x : Nat) (s : S) : S :=
  match keyFor keys x with
  | some k => crypto.crypt rw k.keyctx x s
  | none => s

theorem expectedSectors_eq (crypto : Crypto K S) (keys : List (StorageKeys K)) (access : StorageAccess)
    (src : List S) :
    expectedSectors crypto keys access src = cryptSectors (sectorOut crypto keys access.rw) access.lba src := by
  rw [cryptSectors_eq_mapIdx]
  rfl

section Ascending

variable (crypto : Crypto K S) (rw : Rw) {k : StorageKeys K} {ks : List (StorageKeys K)} {x : Nat} (s : S)

theorem sectorOut_nil : sectorOut crypto [] rw x s = s := rfl

theorem sectorOut_cons_inside (hlo : k.lbaLow ≤ x) (hhi : x ≤ k.lbaHigh) :
    sectorOut crypto (k :: ks) rw x s = crypto.crypt rw k.keyctx x s := by
  simp [sectorOut, keyFor, hlo, hhi]

theorem sectorOut_cons_above (hhi : k.lbaHigh < x) :
    sectorOut crypto (k :: ks) rw x s = sectorOut crypto ks rw x s := by
  have hout : ¬ (k.lbaLow ≤ x ∧ x ≤ k.lbaHigh) := by omega
  simp [sectorOut, keyFor, hout]

theorem sectorOut_cons_below (hk : k.lbaLow ≤ k.lbaHigh) (hks : ∀ k' ∈ ks, k.lbaHigh < k'.lbaLow)
    (hlo : x < k.lbaLow) : sectorOut crypto (k :: ks) rw x s = s := by
  have hnone : keyFor (k :: ks) x = none := by
    rw [keyFor, List.find?_eq_none]
    intro k' hk'
    rcases List.mem_cons.1 hk' with rfl | hk'
    · simp only [decide_eq_true_eq]
      omega
    · have := hks k' hk'
      simp only [decide_eq_true_eq]
      omega
  simp [sectorOut, hnone]

end Ascending

/-- The loop over ascending keys from any cursor: what it leaves to write and
the final `memcpy` give the expected sectors of the keys still to come. -/
theorem keyLoop_spec (crypto : Crypto K S) (rw : Rw) :
    ∀ (ks : List (StorageKeys K)) (c : Cursor S), (∀ k ∈ ks, k.lbaLow ≤ k.lbaHigh) →
      ks.Pairwise (fun a b => a.lbaHigh < b.lbaLow) → c.src.length = c.count →
      ∃ c', keyLoop crypto rw ks c = some c' ∧
        c'.dst ++ c'.src.take c'.count = c.dst ++ cryptSectors (sectorOut crypto ks rw) c.lba c.src := by
  intro ks
  induction ks with
  | nil =>
    intro c _ _ hsrc
    refine ⟨c, rfl, ?_⟩
    rw [cryptSectors_congr (g := fun _ s => s) _ _ fun x s _ _ => sectorOut_nil crypto rw s, cryptSectors_id,
      ← hsrc, List.take_length]
  | cons k ks ih =>
    intro c hkeys hasc hsrc
    obtain ⟨hks, hasc'⟩ := List.pairwise_cons.1 hasc
    by_cases hc : c.count > 0
    · rw [keyLoop, if_pos hc, copyLoop_spec _ _ _ (by omega), Option.bind_some]
      rw [cryptLoop_spec _ _ _ (by dsimp only; omega) (by simp only [List.length_drop]; omega), Option.bind_some]
      dsimp only
      generalize hn₁ : min (k.lbaLow - c.lba) c.count = n₁
      generalize hn₂ : min (k.lbaHigh + 1 - (c.lba + n₁)) (c.count - n₁) = n₂
      have hk := hkeys k List.mem_cons_self
      obtain ⟨c', hc', heq⟩ := ih ⟨c.lba + n₁ + n₂, c.count - n₁ - n₂, (c.src.drop n₁).drop n₂,
        c.dst ++ c.src.take n₁ ++ cryptSectors (crypto.crypt rw k.keyctx) (c.lba + n₁) ((c.src.drop n₁).take n₂)⟩
        (fun k' hk' => hkeys k' (List.mem_cons_of_mem k hk')) hasc' (by simp only [List.length_drop]; omega)
      refine ⟨c', hc', ?_⟩
      rw [heq]
      dsimp only
      have hsplit : c.src = c.src.take n₁ ++ ((c.src.drop n₁).take n₂ ++ (c.src.drop n₁).drop n₂) := by
        rw [List.take_append_drop, List.take_append_drop]
      have hlen₁ : (c.src.take n₁).length = n₁ := by
        simp only [List.length_take]
        omega
      have hlen₂ : ((c.src.drop n₁).take n₂).length = n₂ := by
        simp only [List.length_take, List.length_drop]
        omega
      have hbelow : cryptSectors (sectorOut crypto (k :: ks) rw) c.lba (c.src.take n₁) = c.src.take n₁ := by
        rw [cryptSectors_congr (g := fun _ s => s), cryptSectors_id]
        intro x s _ hx
        exact sectorOut_cons_below crypto rw s hk hks (by omega)
      have hinside : cryptSectors (sectorOut crypto (k :: ks) rw) (c.lba + n₁) ((c.src.drop n₁).take n₂) =
          cryptSectors (crypto.crypt rw k.keyctx) (c.lba + n₁) ((c.src.drop n₁).take n₂) := by
        apply cryptSectors_congr
        intro x s hx hx'
        exact sectorOut_cons_inside crypto rw s (by omega) (by omega)
      have habove : cryptSectors (sectorOut crypto (k :: ks) rw) (c.lba + n₁ + n₂) ((c.src.drop n₁).drop n₂) =
          cryptSectors (sectorOut crypto ks rw) (c.lba + n₁ + n₂) ((c.src.drop n₁).drop n₂) := by
        apply cryptSectors_congr
        intro x s hx hx'
        simp only [List.length_drop] at hx'
        exact sectorOut_cons_above crypto rw s (by omega)
      conv => rhs; rw [hsplit, cryptSectors_append, cryptSectors_append, hlen₁, hlen₂]
      rw [hbelow, hinside, habove, List.append_assoc, List.append_assoc, List.drop_drop]
    · have hnil : c.src = [] := List.eq_nil_of_length_eq_zero (by omega)
      refine ⟨c, by rw [keyLoop, if_neg hc], ?_⟩
      rw [hnil, List.take_nil, cryptSectors]

/-- With every key's range below the next one's, `storage_handle_sectors`
writes every sector once: transformed with the key whose range holds it,
copied where no key does. -/
theorem storageHandleSectors_ascending (crypto : Crypto K S) (keys : List (StorageKeys K))
    (access : StorageAccess) (src : List S) (hlen : src.length = access.count)
    (hkeys : ∀ k ∈ keys, k.lbaLow ≤ k.lbaHigh) (hasc : keys.Pairwise fun a b => a.lbaHigh < b.lbaLow) :
    storageHandleSectors crypto keys access src = some (expectedSectors crypto keys access src) := by
  obtain ⟨c', hc', heq⟩ := keyLoop_spec crypto access.rw keys ⟨access.lba, access.count, src, []⟩ hkeys hasc hlen
  rw [storageHandleSectors, hc', Option.map_some, heq, List.nil_append, expectedSectors_eq]

def shiftCrypto : Crypto Nat Nat := ⟨fun k lba s => s + k + lba, fun k lba s => s - k - lba⟩

theorem storageHandleSectors_ascending_two_keys :
    ([⟨2, 3, 1⟩, ⟨6, 7, 100⟩] : List (StorageKeys Nat)).Pairwise (fun a b => a.lbaHigh < b.lbaLow) ∧
      storageHandleSectors shiftCrypto [⟨2, 3, 1⟩, ⟨6, 7, 100⟩] ⟨0, 10, .write⟩ (List.replicate 10 0) =
        some (expectedSectors shiftCrypto [⟨2, 3, 1⟩, ⟨6, 7, 100⟩] ⟨0, 10, .write⟩ (List.replicate 10 0)) :=
  ⟨by decide, storageHandleSectors_ascending shiftCrypto _ _ _ (by simp) (by decide) (by decide)⟩

/-- Keys configured with a higher range first: sector 10 lies below the first
key's range, so the loop copies it there and never comes back to it with the
second key, whose range holds it. -/
theorem storageHandleSectors_skips_earlier_range (crypto : Crypto K S) (k₀ k₁ : K) (rw : Rw) (s : S)
    (hs : crypto.crypt rw k₁ 10 s ≠ s) :
    storageHandleSectors crypto [⟨100, 200, k₀⟩, ⟨0, 50, k₁⟩] ⟨10, 1, rw⟩ [s] = some [s] ∧
      expectedSectors crypto [⟨100, 200, k₀⟩, ⟨0, 50, k₁⟩] ⟨10, 1, rw⟩ [s] ≠ [s] := by
  have hkey : keyFor [⟨100, 200, k₀⟩, ⟨0, 50, k₁⟩] 10 = some ⟨0, 50, k₁⟩ := by
    simp [keyFor]
  refine ⟨rfl, ?_⟩
  simp only [expectedSectors, List.mapIdx_cons, List.mapIdx_nil, Nat.add_zero, hkey]
  intro h
  exact hs (List.cons.inj h).1

theorem storageHandleSectors_skips_earlier_range_shift :
    shiftCrypto.crypt .write 9 10 5 ≠ 5 ∧
      (storageHandleSectors shiftCrypto [⟨100, 200, 7⟩, ⟨0, 50, 9⟩] ⟨10, 1, .write⟩ [5] = some [5] ∧
        expectedSectors shiftCrypto [⟨100, 200, 7⟩, ⟨0, 50, 9⟩] ⟨10, 1, .write⟩ [5] ≠ [5]) :=
  ⟨by decide, storageHandleSectors_skips_earlier_range shiftCrypto 7 9 .write 5 (by decide)⟩

end Bitvisor.Storage
