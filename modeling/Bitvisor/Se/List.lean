import Bitvisor.Se.QSort
import Mathlib.Tactic.Linarith

namespace Bitvisor.Se

open ThreeWay

/-! `SE_LIST` of `SeMemory.c`: an array of items kept in a list, the
`sorted` flag, and the comparator `cmp` on items. The reserved size and the
reallocation are left out. `SeBSearch` works on byte offsets from `base`,
which its pointers are; its `high` is computed in `UINT` as the source does. -/

variable {α : Type}

/-- `SeBSearch (key, base, num, width, compare_function)` from the state of
its `while` loop: `some p` is the return value, `p = none` being `NULL`, and
`none` a read outside the array. -/
def seBSearchLoop (cmp : α → α → Int) (key : α) (a : List α) (width : Nat) (low high : Int) (num : Nat) :
    Option (Option Int) :=
  if low ≤ high then
    if num / 2 ≠ 0 then
      let mid := low + ((if num % 2 ≠ 0 then num / 2 else num / 2 - 1) * width : Nat)
      match elemAt a (mid / width) with
      | none => none
      | some y =>
        if cmp key y = 0 then some (some mid)
        else if cmp key y < 0 then
          seBSearchLoop cmp key a width low (mid - width) (if num % 2 ≠ 0 then num / 2 else num / 2 - 1)
        else seBSearchLoop cmp key a width (mid + width) high (num / 2)
    else if num ≠ 0 then
      match elemAt a (low / width) with
      | none => none
      | some y => if cmp key y = 0 then some (some low) else some none
    else some none
  else some none
termination_by num
decreasing_by all_goals first | omega | (split <;> omega)

/-- `SeBSearch`: `high = (UCHAR *)base + width * (num - 1)` with `num - 1`
and the product in `UINT`. -/
def seBSearch (cmp : α → α → Int) (key : α) (a : List α) (num width : Nat) : Option (Option Int) :=
  seBSearchLoop cmp key a width 0 (width * ((num + (2 ^ 32 - 1)) % 2 ^ 32) % 2 ^ 32 : Nat) num

theorem probe_lt {num : Nat} (h : num / 2 ≠ 0) :
    (if num % 2 ≠ 0 then num / 2 else num / 2 - 1) < num ∧
      num / 2 + (if num % 2 ≠ 0 then num / 2 else num / 2 - 1) + 1 = num := by
  split <;> omega

theorem probe_offset {low : Int} {width l : Nat} (k : Nat) (hlow : low = width * l) :
    low + ((k * width : Nat) : Int) = width * ((l + k : Nat) : Int) := by
  rw [hlow, Nat.cast_mul, Nat.cast_add, Int.mul_add, Int.mul_comm (k : Int)]

theorem elemAt_probe {a : List α} {low : Int} {width l : Nat} (hw : 0 < width) (hlow : low = width * l)
    (k : Nat) : elemAt a ((low + ((k * width : Nat) : Int)) / width) = a[l + k]? := by
  rw [probe_offset k hlow, Int.mul_ediv_cancel_left _ (by omega), elemAt_natCast]

theorem seBSearch_zero (cmp : α → α → Int) (key : α) (a : List α) (width : Nat) :
    seBSearch cmp key a 0 width = some none := by
  rw [seBSearch, seBSearchLoop, if_pos (Int.natCast_nonneg _)]
  rfl

theorem seBSearch_eq_loop {cmp : α → α → Int} {key : α} {a : List α} {num width : Nat} (hw : 0 < width)
    (hpos : 0 < num) (hfit : width * (num - 1) < 2 ^ 32) :
    seBSearch cmp key a num width = seBSearchLoop cmp key a width 0 (width * ((0 : Nat) + num) - width) num := by
  have hhigh : ((width * ((num + (2 ^ 32 - 1)) % 2 ^ 32) % 2 ^ 32 : Nat) : Int) =
      width * ((0 : Nat) + num) - width := by
    have hnum : num - 1 ≤ width * (num - 1) := Nat.le_mul_of_pos_left _ hw
    rw [show (num + (2 ^ 32 - 1)) % 2 ^ 32 = num - 1 by omega, Nat.mod_eq_of_lt hfit,
      Nat.cast_mul, Nat.cast_sub hpos, Nat.cast_zero, Int.zero_add, Nat.cast_one, Int.mul_sub, Int.mul_one]
  rw [seBSearch, hhigh]

section BSearch

variable {cmp : α → α → Int} (hc : TotalPreorder cmp) (key : α) {a : List α} (hs : Sorted cmp a)
include hc hs

theorem cmp_ne_of_neg {p i : Nat} (hp : p < a.length) (hi : i < a.length) (hpi : p ≤ i)
    (hneg : cmp key a[p] < 0) : cmp key a[i] ≠ 0 := by
  have := hc.neg_of_neg_of_le hneg (hc.getElem_le hs hp hi hpi)
  omega

theorem cmp_ne_of_pos {p i : Nat} (hp : p < a.length) (hi : i < a.length) (hip : i ≤ p)
    (hpos : 0 < cmp key a[p]) : cmp key a[i] ≠ 0 := by
  have := hc.pos_of_le_of_pos (hc.getElem_le hs hi hp hip) hpos
  omega

/-- The loop of `SeBSearch` on the elements `[l, l + num)`, `low` and `high`
being the offsets of the first and last of them: it reads only inside the
array, a pointer it returns holds a match, and `NULL` means no element of the
range matches. -/
theorem seBSearchLoop_spec {width : Nat} (hw : 0 < width) (low high : Int) (num : Nat) :
    ∀ l, l + num ≤ a.length → low = width * l → high = width * (l + num) - width →
      ∃ r, seBSearchLoop cmp key a width low high num = some r ∧
        (∀ off, r = some off → ∃ i, ∃ h : i < a.length, off = width * i ∧ cmp key a[i] = 0) ∧
        (r = none → ∀ i (h : i < a.length), l ≤ i → i < l + num → cmp key a[i] ≠ 0) := by
  have hw' : (width : Int) ≠ 0 := by omega
  fun_induction seBSearchLoop cmp key a width low high num with
  | case1 low high num hle hhalf mid hnone =>
    intro l hl hlow hhigh
    obtain ⟨hk, -⟩ := probe_lt hhalf
    have h := (elemAt_probe hw hlow _).symm.trans hnone
    simp only [dite_eq_ite, List.getElem?_eq_none_iff] at h
    omega
  | case2 low high num hle hhalf mid y hy heq =>
    intro l hl hlow hhigh
    have h := (elemAt_probe hw hlow _).symm.trans hy
    simp only [dite_eq_ite] at h
    obtain ⟨hi, rfl⟩ := List.getElem?_eq_some_iff.1 h
    refine ⟨_, rfl, fun off hoff => ⟨_, hi, ?_, heq⟩, nofun⟩
    rw [← Option.some.inj hoff]
    exact probe_offset _ hlow
  | case3 low high num hle hhalf mid y hy hne hlt ih =>
    intro l hl hlow hhigh
    simp only [dite_eq_ite] at ih
    obtain ⟨hk, -⟩ := probe_lt hhalf
    have h := (elemAt_probe hw hlow _).symm.trans hy
    simp only [dite_eq_ite] at h
    obtain ⟨hi, rfl⟩ := List.getElem?_eq_some_iff.1 h
    have hmid : mid = width * ((l + (if num % 2 ≠ 0 then num / 2 else num / 2 - 1) : Nat) : Int) :=
      probe_offset _ hlow
    obtain ⟨r, hr, hfound, hnot⟩ := ih l (by omega) hlow (by rw [hmid, Nat.cast_add])
    refine ⟨r, hr, hfound, fun hn i hi' hli hin => ?_⟩
    by_cases hik : i < l + (if num % 2 ≠ 0 then num / 2 else num / 2 - 1)
    · exact hnot hn i hi' hli hik
    · exact cmp_ne_of_neg hc key hs hi hi' (by omega) hlt
  | case4 low high num hle hhalf mid y hy hne hlt ih =>
    intro l hl hlow hhigh
    obtain ⟨hk, hk2⟩ := probe_lt hhalf
    have h := (elemAt_probe hw hlow _).symm.trans hy
    simp only [dite_eq_ite] at h
    obtain ⟨hi, rfl⟩ := List.getElem?_eq_some_iff.1 h
    have hmid : mid = width * ((l + (if num % 2 ≠ 0 then num / 2 else num / 2 - 1) : Nat) : Int) :=
      probe_offset _ hlow
    have hsplit : ((l : Int) + num) = ((l + (if num % 2 ≠ 0 then num / 2 else num / 2 - 1) + 1 : Nat) : Int) +
        ((num / 2 : Nat) : Int) := by omega
    obtain ⟨r, hr, hfound, hnot⟩ := ih (l + (if num % 2 ≠ 0 then num / 2 else num / 2 - 1) + 1) (by omega)
      (by rw [hmid, Nat.cast_succ, Int.mul_add, Int.mul_one]) (by rw [hhigh, hsplit])
    refine ⟨r, hr, hfound, fun hn i hi' hli hin => ?_⟩
    by_cases hik : l + (if num % 2 ≠ 0 then num / 2 else num / 2 - 1) + 1 ≤ i
    · exact hnot hn i hi' hik (by omega)
    · exact cmp_ne_of_pos hc key hs hi hi' (by omega) (by omega)
  | case5 low high num hle hhalf hnum hnone =>
    intro l hl hlow hhigh
    rw [hlow, Int.mul_ediv_cancel_left _ hw', elemAt_natCast, List.getElem?_eq_none_iff] at hnone
    omega
  | case6 low high num hle hhalf hnum y hy heq =>
    intro l hl hlow hhigh
    rw [hlow, Int.mul_ediv_cancel_left _ hw', elemAt_natCast] at hy
    obtain ⟨hi, rfl⟩ := List.getElem?_eq_some_iff.1 hy
    exact ⟨_, rfl, fun off hoff => ⟨l, hi, by rw [← Option.some.inj hoff, hlow], heq⟩, nofun⟩
  | case7 low high num hle hhalf hnum y hy hne =>
    intro l hl hlow hhigh
    rw [hlow, Int.mul_ediv_cancel_left _ hw', elemAt_natCast] at hy
    obtain ⟨hi, rfl⟩ := List.getElem?_eq_some_iff.1 hy
    refine ⟨none, rfl, nofun, fun _ i hi' hli hin => ?_⟩
    obtain rfl : i = l := by omega
    exact hne
  | case8 low high num hle hhalf hnum =>
    intro l hl hlow hhigh
    exact ⟨none, rfl, nofun, fun _ i _ hli hin => by omega⟩
  | case9 low high num hgt =>
    intro l hl hlow hhigh
    have hnum : num = 0 := by
      by_contra hn
      have : (0 : Int) ≤ width * ((num : Int) - 1) := Int.mul_nonneg (by omega) (by omega)
      rw [hlow, hhigh] at hgt
      linarith
    subst hnum
    exact ⟨none, rfl, nofun, fun _ i _ hli hin => by omega⟩

theorem seBSearch_spec {width num : Nat} (hw : 0 < width) (hnum : num ≤ a.length)
    (hfit : width * (num - 1) < 2 ^ 32) :
    ∃ r, seBSearch cmp key a num width = some r ∧
      (∀ off, r = some off → ∃ i, ∃ h : i < a.length, off = width * i ∧ cmp key a[i] = 0) ∧
      (r = none → ∀ i (h : i < a.length), i < num → cmp key a[i] ≠ 0) := by
  rcases Nat.eq_zero_or_pos num with rfl | hpos
  · exact ⟨none, seBSearch_zero cmp key a width, nofun, fun _ i _ hi => absurd hi (Nat.not_lt_zero i)⟩
  · obtain ⟨r, hr, hfound, hnot⟩ :=
      seBSearchLoop_spec hc key hs hw 0 (width * ((0 : Nat) + num) - width) num 0 (by omega) (by simp) rfl
    rw [seBSearch_eq_loop hw hpos hfit]
    exact ⟨r, hr, hfound, fun hn i hi hin => hnot hn i hi (Nat.zero_le _) (by omega)⟩

/-- `SeBSearch` on a sorted array of `num` elements whose last offset
`width * (num - 1)` fits in `UINT`: it reads only inside the array, returns
the offset of an element equal to the key, and returns `NULL` only when no
element is. -/
theorem seBSearch_sound_complete {width : Nat} (hw : 0 < width) (hfit : width * (a.length - 1) < 2 ^ 32) :
    ∃ r, seBSearch cmp key a a.length width = some r ∧
      (∀ off, r = some off → ∃ i, ∃ h : i < a.length, off = width * i ∧ cmp key a[i] = 0) ∧
      (r = none → ∀ i (h : i < a.length), cmp key a[i] ≠ 0) := by
  obtain ⟨r, hr, hfound, hnot⟩ := seBSearch_spec hc key hs hw le_rfl hfit
  exact ⟨r, hr, hfound, fun hn i hi => hnot hn i hi hi⟩

end BSearch

theorem seBSearch_sound_complete_sub :
    ∃ r, seBSearch (fun a b : Int => a - b) 3 [1, 2, 3] [1, 2, 3].length 4 = some r ∧
      (∀ off, r = some off → ∃ i, ∃ h : i < [1, 2, 3].length, off = 4 * i ∧ (3 : Int) - [1, 2, 3][i] = 0) ∧
      (r = none → ∀ i (h : i < [1, 2, 3].length), (3 : Int) - [1, 2, 3][i] ≠ 0) :=
  seBSearch_sound_complete totalPreorder_sub 3 (by decide) (by decide) (by decide)

/-- `SE_LIST`. -/
structure SeList (α : Type) where
  items : List α
  cmp : Option (α → α → Int)
  sorted : Bool

/-- `SeNewList (cmp)`. -/
def seNewList (cmp : Option (α → α → Int)) : SeList α := ⟨[], cmp, true⟩

/-- `SeAdd (o, p)`. -/
def seAdd (o : SeList α) (p : α) : SeList α := { o with items := o.items ++ [p], sorted := false }

/-- `SeSort (o)`: `SeQSort` on the items with `width = sizeof (void *)`;
nothing without a comparator. -/
def seSort (ptrSize : Nat) (o : SeList α) : Option (SeList α) :=
  match o.cmp with
  | none => some o
  | some cmp => (seQSort cmp ptrSize ptrSize o.items).map fun items => { o with items := items, sorted := true }

theorem tdiv_two_between {low high : Int} (h : low ≤ high) :
    low ≤ (low + high).tdiv 2 ∧ (low + high).tdiv 2 ≤ high := by
  have hsign : Int.sign 2 = 1 := rfl
  rw [Int.tdiv_eq_ediv]
  split <;> omega

def seInsertPos (cmp : α → α → Int) (a : List α) (p : α) (low high : Int) : Option Int :=
  if h : low ≤ high then
    let middle := (low + high).tdiv 2
    have := tdiv_two_between h
    match elemAt a middle with
    | none => none
    | some x =>
      if cmp x p = 0 then some middle
      else if cmp x p > 0 then seInsertPos cmp a p low (middle - 1)
      else seInsertPos cmp a p (middle + 1) high
  -- `pos == INFINITE`: the position is `low`
  else some low
termination_by (high - low + 1).toNat

/-- `SeInsert (o, p)`: without a comparator `SeAdd`; otherwise the list is
sorted if it is not, `high = SE_LIST_NUM (o) - 1` in `UINT` is stored in an
`int`, and the items from `pos` on move up one place for `p`. -/
def seInsert (ptrSize : Nat) (o : SeList α) (p : α) : Option (SeList α) :=
  match o.cmp with
  | none => some (seAdd o p)
  | some cmp => do
    let o ← if o.sorted then pure o else seSort ptrSize o
    let pos ← seInsertPos cmp o.items p 0 (o.items.length.toUInt32 - 1).toInt32.toInt
    pure { o with items := o.items.take pos.toNat ++ p :: o.items.drop pos.toNat }

/-- `SeDelete (o, p)`: the first item that is the pointer `p` is removed; the
shrinking of the reserved size is left out. -/
def seDelete [DecidableEq α] (o : SeList α) (p : α) : Bool × SeList α :=
  match o.items.idxOf? p with
  | none => (false, o)
  | some i => (true, { o with items := o.items.eraseIdx i })

/-- `SeSearch (o, target)`: `NULL` without a comparator; otherwise the list is
sorted if it is not, and `SeBSearch` looks for `target`; the item at the
pointer it returns is the result. -/
def seSearch (ptrSize : Nat) (o : SeList α) (target : α) : Option (SeList α × Option α) :=
  match o.cmp with
  | none => some (o, none)
  | some cmp => do
    let o ← if o.sorted then pure o else seSort ptrSize o
    let r ← seBSearch cmp target o.items o.items.length ptrSize
    match r with
    | none => pure (o, none)
    | some off => (elemAt o.items (off / ptrSize)).map fun x => (o, some x)

inductive SeOp (α : Type)
  | add (p : α)
  | insert (p : α)
  | delete (p : α)
  | sort
  | search (target : α)

inductive SeRet (α : Type)
  | unit
  | bool (b : Bool)
  | ptr (r : Option α)

def seStep [DecidableEq α] (ptrSize : Nat) (o : SeList α) : SeOp α → Option (SeList α × SeRet α)
  | .add p => some (seAdd o p, .unit)
  | .insert p => (seInsert ptrSize o p).map fun o => (o, .unit)
  | .delete p => some ((seDelete o p).2, .bool (seDelete o p).1)
  | .sort => (seSort ptrSize o).map fun o => (o, .unit)
  | .search t => (seSearch ptrSize o t).map fun r => (r.1, .ptr r.2)

end Bitvisor.Se
