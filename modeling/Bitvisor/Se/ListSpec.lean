import Bitvisor.Se.List
import Bitvisor.Se.QSortSpec
import Bitvisor.Lib.Run
import Bitvisor.Lib.MachineInt
import Mathlib.Data.Multiset.AddSub

namespace Bitvisor.Se

open ThreeWay

/-! What an `SE_LIST` with a comparator is for: a bag of items that is
searched through the comparator. `SeAdd` and `SeInsert` put an item in,
`SeDelete` takes one occurrence of a pointer out and says whether there was
one, `SeSort` changes nothing, and `SeSearch` returns an item that compares
equal to the target, or `NULL` when none does. The list refines the bag while
its items fit the 32-bit arithmetic of `SeQSort`, `SeBSearch` and `SeInsert`;
the `sorted` flag is true only of sorted items. -/

variable {α : Type} {cmp : α → α → Int}

/-- One operation on the bag of items, and what it may return. -/
inductive BagStep [DecidableEq α] (cmp : α → α → Int) : Multiset α → SeOp α → Multiset α → SeRet α → Prop
  | add (m : Multiset α) (p : α) : BagStep cmp m (.add p) (p ::ₘ m) .unit
  | insert (m : Multiset α) (p : α) : BagStep cmp m (.insert p) (p ::ₘ m) .unit
  | delete (m : Multiset α) (p : α) : BagStep cmp m (.delete p) (m.erase p) (.bool (decide (p ∈ m)))
  | sort (m : Multiset α) : BagStep cmp m .sort m .unit
  | found (m : Multiset α) (t x : α) : x ∈ m → cmp t x = 0 → BagStep cmp m (.search t) m (.ptr (some x))
  | missing (m : Multiset α) (t : α) : (∀ x ∈ m, cmp t x ≠ 0) → BagStep cmp m (.search t) m (.ptr none)

/-- The list keeps the comparator `cmp`, and its `sorted` flag is true only
of sorted items. -/
structure ListInv (cmp : α → α → Int) (o : SeList α) : Prop where
  cmp_eq : o.cmp = some cmp
  sorted : o.sorted = true → Sorted cmp o.items

/-- Room for `n` items with pointers of `ptrSize` bytes: the byte offset of
the last one fits in `UINT`, `SE_LIST_NUM (o) - 1` and `low + high` in
`SeInsert` fit in `int`, and the stack of `SeQSort` is deep enough. -/
def Room (ptrSize n : Nat) : Prop :=
  ptrSize * n < 2 ^ 32 ∧ n ≤ 2 ^ 30 ∧ n ≤ 2 ^ seQsortStacksize ptrSize

instance (ptrSize n : Nat) : Decidable (Room ptrSize n) :=
  inferInstanceAs (Decidable (_ ∧ _ ∧ _))

theorem Room.mono {ptrSize n k : Nat} (h : Room ptrSize n) (hk : k ≤ n) : Room ptrSize k :=
  ⟨Nat.lt_of_le_of_lt (Nat.mul_le_mul_left _ hk) h.1, by have := h.2.1; omega, by have := h.2.2; omega⟩

theorem Room.fit {ptrSize n : Nat} (h : Room ptrSize n) : ptrSize * (n - 1) < 2 ^ 32 :=
  Nat.lt_of_le_of_lt (Nat.mul_le_mul_left _ (Nat.sub_le n 1)) h.1

section Sorting

variable (hc : TotalPreorder cmp) {ptrSize : Nat} (hw : 0 < ptrSize)
include hc hw

theorem seSort_spec {o : SeList α} (hcmp : o.cmp = some cmp) (hroom : Room ptrSize o.items.length) :
    ∃ o', seSort ptrSize o = some o' ∧ o'.items.Perm o.items ∧ ListInv cmp o' ∧ o'.sorted = true := by
  have hsort : ∃ l, seQSort cmp ptrSize ptrSize o.items = some l ∧ Sorted cmp l ∧ l.Perm o.items := by
    by_cases h1 : o.items.length ≤ 1
    · exact ⟨o.items, by rw [seQSort, if_pos h1], sorted_of_length_le_one h1, List.Perm.refl _⟩
    · obtain ⟨inv, hwork⟩ := runInv_whole cmp h1
      rw [seQSort_eq_loop h1 hw hroom.fit]
      exact seQSortLoop_spec hc hw hroom.fit hroom.2.2 _ _ 0 _ [] inv hwork
  obtain ⟨l, hl, hsorted, hperm⟩ := hsort
  refine ⟨{ o with items := l, sorted := true }, ?_, hperm, ⟨hcmp, fun _ => hsorted⟩, rfl⟩
  simp only [seSort, hcmp, hl, Option.map_some]

theorem sortIfNot_spec {o : SeList α} (inv : ListInv cmp o) (hroom : Room ptrSize o.items.length) :
    ∃ o', (∀ {β : Type} (f : SeList α → Option β),
        (if o.sorted = true then pure o >>= f else seSort ptrSize o >>= f) = f o') ∧
      o'.items.Perm o.items ∧ ListInv cmp o' ∧ Sorted cmp o'.items := by
  by_cases hs : o.sorted = true
  · exact ⟨o, fun f => by rw [if_pos hs]; rfl, List.Perm.refl _, inv, inv.sorted hs⟩
  · obtain ⟨o', h, hperm, inv', hs'⟩ := seSort_spec hc hw inv.cmp_eq hroom
    exact ⟨o', fun f => by rw [if_neg hs, h]; rfl, hperm, inv', inv'.sorted hs'⟩

end Sorting

section Insert

variable (hc : TotalPreorder cmp) {a : List α} (hs : Sorted cmp a) (p : α)
include hc hs

theorem seInsertPos_spec (low high : Int) :
    0 ≤ low → low ≤ high + 1 → high < a.length →
      (∀ (i : Nat) (h : i < a.length), (i : Int) < low → cmp a[i] p < 0) →
      (∀ (i : Nat) (h : i < a.length), high < i → 0 < cmp a[i] p) →
      ∃ pos, seInsertPos cmp a p low high = some pos ∧ 0 ≤ pos ∧ pos ≤ a.length ∧
        (∀ (i : Nat) (h : i < a.length), (i : Int) < pos → cmp a[i] p ≤ 0) ∧
        (∀ (i : Nat) (h : i < a.length), pos ≤ i → cmp p a[i] ≤ 0) := by
  fun_induction seInsertPos cmp a p low high with
  | case1 low high hle middle hmid hnone =>
    intro h0 _ hhl _ _
    obtain ⟨x, hx⟩ := elemAt_exists (a := a) (k := middle) (by omega) (by omega)
    rw [hnone] at hx
    cases hx
  | case2 low high hle middle hmid y hy heq =>
    intro h0 _ hhl _ _
    obtain ⟨hm0, hget⟩ := elemAt_some hy
    obtain ⟨hml, rfl⟩ := List.getElem?_eq_some_iff.1 hget
    refine ⟨middle, rfl, hm0, by omega, fun i hi hlt => ?_, fun i hi hge => ?_⟩
    · exact hc.trans (hc.getElem_le hs hi hml (by omega)) (by omega)
    · exact hc.trans (hc.le_of_eq_zero heq) (hc.getElem_le hs hml hi (by omega))
  | case3 low high hle middle hmid y hy hne hgt ih =>
    intro h0 hlh hhl hbelow habove
    obtain ⟨hm0, hget⟩ := elemAt_some hy
    obtain ⟨hml, rfl⟩ := List.getElem?_eq_some_iff.1 hget
    refine ih h0 (by omega) (by omega) hbelow fun i hi hgti => ?_
    rcases Nat.lt_or_ge middle.toNat i with hmi | hmi
    · exact hc.pos_of_pos_of_le hgt (hc.getElem_le hs hml hi (Nat.le_of_lt hmi))
    · obtain rfl : i = middle.toNat := by omega
      exact hgt
  | case4 low high hle middle hmid y hy hne hngt ih =>
    intro h0 hlh hhl hbelow habove
    obtain ⟨hm0, hget⟩ := elemAt_some hy
    obtain ⟨hml, rfl⟩ := List.getElem?_eq_some_iff.1 hget
    have hlt : cmp a[middle.toNat] p < 0 := by omega
    refine ih (by omega) (by omega) hhl (fun i hi hlti => ?_) habove
    rcases Nat.lt_or_ge i middle.toNat with hmi | hmi
    · exact hc.neg_of_le_of_neg (hc.getElem_le hs hi hml (Nat.le_of_lt hmi)) hlt
    · obtain rfl : i = middle.toNat := by omega
      exact hlt
  | case5 low high hgt =>
    intro h0 hlh hhl hbelow habove
    exact ⟨low, rfl, h0, by omega, fun i hi hlt => Int.le_of_lt (hbelow i hi hlt),
      fun i hi hge => hc.le_of_pos (habove i hi (by omega))⟩

theorem sorted_insert {pos : Nat} (hbelow : ∀ (i : Nat) (h : i < a.length), i < pos → cmp a[i] p ≤ 0)
    (habove : ∀ (i : Nat) (h : i < a.length), pos ≤ i → cmp p a[i] ≤ 0) :
    Sorted cmp (a.take pos ++ p :: a.drop pos) := by
  have hdrop : Sorted cmp (a.drop pos) := hs.sublist (List.drop_sublist _ _)
  apply hc.sorted_append (hs.sublist (List.take_sublist _ _)) _ (forall_mem_take (P := fun b => cmp b p ≤ 0) hbelow)
  · intro b hb
    rcases List.mem_cons.1 hb with rfl | hb
    · exact hc.refl b
    · exact forall_mem_drop (P := fun b => cmp p b ≤ 0) habove b hb
  · exact List.pairwise_cons.2 ⟨forall_mem_drop (P := fun b => cmp p b ≤ 0) habove, hdrop⟩

end Insert

section Operations

variable (hc : TotalPreorder cmp) {ptrSize : Nat} (hw : 0 < ptrSize)
include hc hw

theorem seInsert_spec (p : α) {o : SeList α} (inv : ListInv cmp o) (hroom : Room ptrSize o.items.length) :
    ∃ o', seInsert ptrSize o p = some o' ∧ o'.items.Perm (p :: o.items) ∧ ListInv cmp o' := by
  obtain ⟨o₁, hbind, hperm, inv₁, hs₁⟩ := sortIfNot_spec hc hw inv hroom
  have hhigh : (o₁.items.length.toUInt32 - 1).toInt32.toInt = (o₁.items.length : Int) - 1 :=
    MachineInt.toInt_toInt32_sub_one (by rw [hperm.length_eq]; have := hroom.2.1; omega)
  obtain ⟨pos, hpos, h0, hle, hbelow, habove⟩ :=
    seInsertPos_spec hc hs₁ p 0 ((o₁.items.length : Int) - 1) le_rfl (by omega) (by omega)
      (fun i _ hi => absurd hi (by omega)) (fun i hi h => absurd h (by omega))
  refine ⟨{ o₁ with items := o₁.items.take pos.toNat ++ p :: o₁.items.drop pos.toNat }, ?_, ?_,
    ⟨inv₁.cmp_eq, fun _ => ?_⟩⟩
  · simp only [seInsert, inv.cmp_eq]
    rw [hbind, hhigh, hpos]
    rfl
  · have hmid := @List.perm_middle _ p (o₁.items.take pos.toNat) (o₁.items.drop pos.toNat)
    rw [List.take_append_drop] at hmid
    exact hmid.trans (hperm.cons p)
  · exact sorted_insert hc hs₁ p (fun i hi h => hbelow i hi (by omega)) (fun i hi h => habove i hi (by omega))

theorem seSearch_spec {o : SeList α} (inv : ListInv cmp o) (hroom : Room ptrSize o.items.length) (t : α) :
    ∃ o' r, seSearch ptrSize o t = some (o', r) ∧ o'.items.Perm o.items ∧ ListInv cmp o' ∧
      (∀ x, r = some x → x ∈ o.items ∧ cmp t x = 0) ∧ (r = none → ∀ x ∈ o.items, cmp t x ≠ 0) := by
  obtain ⟨o₁, hbind, hperm, inv₁, hs₁⟩ := sortIfNot_spec hc hw inv hroom
  have hfit : ptrSize * (o₁.items.length - 1) < 2 ^ 32 := by rw [hperm.length_eq]; exact hroom.fit
  obtain ⟨r, hr, hfound, hnot⟩ := seBSearch_spec hc t hs₁ hw le_rfl hfit
  cases r with
  | none =>
    refine ⟨o₁, none, ?_, hperm, inv₁, nofun, fun _ x hx => ?_⟩
    · simp only [seSearch, inv.cmp_eq]
      rw [hbind, hr]
      rfl
    · obtain ⟨i, hi, rfl⟩ := List.getElem_of_mem (hperm.symm.subset hx)
      exact hnot rfl i hi hi
  | some off =>
    obtain ⟨i, hi, rfl, heq⟩ := hfound _ rfl
    have hread : elemAt o₁.items (ptrSize * i / ptrSize) = some o₁.items[i] := by
      rw [Int.mul_ediv_cancel_left _ (by omega), elemAt_natCast, List.getElem?_eq_getElem hi]
    refine ⟨o₁, some o₁.items[i], ?_, hperm, inv₁, fun x hx => ?_, nofun⟩
    · simp only [seSearch, inv.cmp_eq]
      rw [hbind, hr]
      exact congrArg (Option.map fun x => (o₁, some x)) hread
    · cases hx
      exact ⟨hperm.subset (List.getElem_mem hi), heq⟩

end Operations

theorem seDelete_eq [DecidableEq α] (o : SeList α) (p : α) :
    seDelete o p = (decide (p ∈ o.items), { o with items := o.items.erase p }) := by
  rw [seDelete, List.erase_eq_eraseIdx]
  cases h : o.items.idxOf? p with
  | none =>
    simp [List.idxOf?_eq_none_iff.1 h]
  | some i =>
    obtain ⟨hi, hget, -⟩ := List.idxOf?_eq_some_iff.1 h
    simp [← hget]

/-- One operation on the list is the same operation on its bag of items; it
keeps the invariant and adds at most one item. -/
theorem seStep_refines [DecidableEq α] (hc : TotalPreorder cmp) {ptrSize : Nat} (hw : 0 < ptrSize)
    {o : SeList α} (inv : ListInv cmp o) (hroom : Room ptrSize o.items.length) (op : SeOp α) :
    ∃ o' out, seStep ptrSize o op = some (o', out) ∧
      BagStep cmp (o.items : Multiset α) op (o'.items : Multiset α) out ∧
      ListInv cmp o' ∧ o'.items.length ≤ o.items.length + 1 := by
  cases op with
  | add p =>
    have hbag : ((o.items ++ [p] : List α) : Multiset α) = p ::ₘ o.items := by
      rw [Multiset.cons_coe]
      exact Multiset.coe_eq_coe.2 (List.perm_append_singleton p o.items)
    refine ⟨seAdd o p, .unit, rfl, ?_, ⟨inv.cmp_eq, nofun⟩, by simp [seAdd]⟩
    simp only [seAdd]
    rw [hbag]
    exact BagStep.add _ p
  | insert p =>
    obtain ⟨o', hins, hperm, inv'⟩ := seInsert_spec hc hw p inv hroom
    refine ⟨o', .unit, by simp only [seStep, hins, Option.map_some], ?_, inv', by simp [hperm.length_eq]⟩
    rw [Multiset.coe_eq_coe.2 hperm, ← Multiset.cons_coe]
    exact BagStep.insert _ p
  | delete p =>
    refine ⟨{ o with items := o.items.erase p }, .bool (decide (p ∈ o.items)), by simp only [seStep, seDelete_eq],
      ?_, ⟨inv.cmp_eq, fun h => (inv.sorted h).sublist List.erase_sublist⟩, ?_⟩
    · have hdel : BagStep cmp (o.items : Multiset α) (.delete p) _ _ := BagStep.delete _ p
      simpa using hdel
    · exact Nat.le_succ_of_le List.length_erase_le
  | sort =>
    obtain ⟨o', hsort, hperm, inv', -⟩ := seSort_spec hc hw inv.cmp_eq hroom
    refine ⟨o', .unit, by simp only [seStep, hsort, Option.map_some], ?_, inv', by simp [hperm.length_eq]⟩
    rw [Multiset.coe_eq_coe.2 hperm]
    exact BagStep.sort _
  | search t =>
    obtain ⟨o', r, hsearch, hperm, inv', hfound, hnot⟩ := seSearch_spec hc hw inv hroom t
    refine ⟨o', .ptr r, by simp only [seStep, hsearch, Option.map_some], ?_, inv', by simp [hperm.length_eq]⟩
    rw [Multiset.coe_eq_coe.2 hperm]
    cases r with
    | none => exact BagStep.missing _ t fun x hx => hnot rfl x (Multiset.mem_coe.1 hx)
    | some x =>
      obtain ⟨hx, heq⟩ := hfound x rfl
      exact BagStep.found _ t x (Multiset.mem_coe.2 hx) heq

/-- From a list with the invariant, every sequence of operations that keeps
its items within `Room` runs without failing and returns what the same
operations on the bag of its items return. -/
theorem seList_run_bag [DecidableEq α] (hc : TotalPreorder cmp) {ptrSize : Nat} (hw : 0 < ptrSize)
    {o₀ : SeList α} (inv₀ : ListInv cmp o₀) (ops : List (SeOp α))
    (hroom : Room ptrSize (o₀.items.length + ops.length)) :
    ∃ o outs, StepRun.runSteps (seStep ptrSize) o₀ ops = some (o, outs) ∧
      StepRun.RelRun (BagStep cmp) (o₀.items : Multiset α) ops (o.items : Multiset α) outs ∧ ListInv cmp o := by
  have hstep : ∀ k o (m : Multiset α) op, ListInv cmp o ∧ (o.items : Multiset α) = m →
      Room ptrSize (o.items.length + (k + 1)) →
      ∃ o' out m', seStep ptrSize o op = some (o', out) ∧ BagStep cmp m op m' out ∧
        (ListInv cmp o' ∧ (o'.items : Multiset α) = m') ∧ Room ptrSize (o'.items.length + k) := by
    rintro k o m op ⟨inv, rfl⟩ hroom
    obtain ⟨o', out, hst, hbag, inv', hlen⟩ := seStep_refines hc hw inv (hroom.mono (by omega)) op
    exact ⟨o', out, o'.items, hst, hbag, ⟨inv', rfl⟩, hroom.mono (by omega)⟩
  obtain ⟨o, outs, m, hrun, hrel, inv, hm⟩ :=
    StepRun.runSteps_simulation (BagStep cmp) (fun o m => ListInv cmp o ∧ (o.items : Multiset α) = m)
      (fun k o => Room ptrSize (o.items.length + k)) hstep ops o₀ o₀.items ⟨inv₀, rfl⟩ hroom
  exact ⟨o, outs, hrun, hm ▸ hrel, inv⟩

theorem listInv_seNewList : ListInv cmp (seNewList (some cmp)) :=
  ⟨rfl, fun _ => List.Pairwise.nil⟩

/-- From a new list with the comparator `cmp`, every sequence of
operations short enough for `Room` runs without failing, and returns what
the same operations on a bag return, ending with the bag of its items and
the invariant. -/
theorem seList_refines_bag [DecidableEq α] (hc : TotalPreorder cmp) {ptrSize : Nat} (hw : 0 < ptrSize)
    (ops : List (SeOp α)) (hroom : Room ptrSize ops.length) :
    ∃ o outs, StepRun.runSteps (seStep ptrSize) (seNewList (some cmp)) ops = some (o, outs) ∧
      StepRun.RelRun (BagStep cmp) 0 ops (o.items : Multiset α) outs ∧ ListInv cmp o :=
  seList_run_bag hc hw listInv_seNewList ops (by simpa [seNewList] using hroom)

theorem seList_refines_bag_sub :
    Room 8 3 ∧ ∃ o outs,
      StepRun.runSteps (seStep 8) (seNewList (some fun a b : Int => a - b)) [.insert 3, .insert 1, .search 1] =
        some (o, outs) ∧
      StepRun.RelRun (BagStep fun a b : Int => a - b) 0 [.insert 3, .insert 1, .search 1] (o.items : Multiset Int) outs ∧
      ListInv (fun a b : Int => a - b) o :=
  ⟨by decide, seList_refines_bag totalPreorder_sub (by decide) _ (by decide)⟩

end Bitvisor.Se
