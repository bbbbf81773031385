import Mathlib
import Bitvisor.Lib.Sort

namespace Bitvisor.Se

open ThreeWay

/-! `SeQSort` and `SeFastSwap` of `SeMemory.c` on a list. A pointer
`base + k * width` is the index `k`, an `Int` since `high2` may step below
`low`. Only `high` and `size` are computed from byte counts, in `UINT`
arithmetic as the source does; a read that is not a whole element of the
array is `none`, and so is a push past `SE_QSORT_STACKSIZE`. -/

variable {α : Type}

def elemAt (a : List α) (i : Int) : Option α := if 0 ≤ i then a[i.toNat]? else none

@[simp] theorem elemAt_natCast (a : List α) (i : Nat) : elemAt a i = a[i]? := by
  simp [elemAt]

/-- `SeFastSwap (a, b, width)`, which does nothing when `a == b`. -/
def seFastSwap (a : List α) (i j : Int) : Option (List α) :=
  if i = j then some a
  else
    match elemAt a i, elemAt a j with
    | some x, some y => some ((a.set i.toNat y).set j.toNat x)
    | _, _ => none

/-- `if (compare_function (x, y) > 0) SeFastSwap (x, y, width);`, the three
steps of the median of three. -/
def swapIfGreater (cmp : α → α → Int) (a : List α) (i j : Int) : Option (List α) :=
  match elemAt a i, elemAt a j with
  | some x, some y => if 0 < cmp x y then seFastSwap a i j else some a
  | _, _ => none

/-- `do { low2 += width; } while (low2 < bound && compare_function (low2, middle) <= 0);`,
with `bound` either `middle` or `high + 1`. -/
def scanUp (cmp : α → α → Int) (a : List α) (mid bound l2 : Int) : Option Int :=
  if l2 + 1 < bound then
    match elemAt a (l2 + 1), elemAt a mid with
    | some x, some y => if cmp x y ≤ 0 then scanUp cmp a mid bound (l2 + 1) else some (l2 + 1)
    | _, _ => none
  else some (l2 + 1)
termination_by (bound - l2).toNat

/-- `do { high2 -= width; } while (high2 > bound && test (compare_function (high2, middle)));`:
the downward scan (`bound` is `middle`, the test `> 0`) and the two scans
over elements equal to the pivot (`bound` is `middle` or `low`, the test `== 0`). -/
def scanDown (cmp : α → α → Int) (test : Int → Bool) (a : List α) (mid bound h2 : Int) : Option Int :=
  if bound < h2 - 1 then
    match elemAt a (h2 - 1), elemAt a mid with
    | some x, some y => if test (cmp x y) then scanDown cmp test a mid bound (h2 - 1) else some (h2 - 1)
    | _, _ => none
  else some (h2 - 1)
termination_by (h2 - bound).toNat

theorem scanUp_of_ge {cmp : α → α → Int} {a : List α} {mid bound l2 : Int} (h : bound ≤ l2 + 1) :
    scanUp cmp a mid bound l2 = some (l2 + 1) := by
  rw [scanUp, if_neg (Int.not_lt.2 h)]

theorem scanDown_of_le {cmp : α → α → Int} {test : Int → Bool} {a : List α} {mid bound h2 : Int}
    (h : h2 - 1 ≤ bound) : scanDown cmp test a mid bound h2 = some (h2 - 1) := by
  rw [scanDown, if_neg (Int.not_lt.2 h)]

def scanLow2 (cmp : α → α → Int) (a : List α) (high mid l2 : Int) : Option Int :=
  (if mid > l2 then scanUp cmp a mid mid l2 else some l2).bind fun l2 =>
    if mid ≤ l2 then scanUp cmp a mid (high + 1) l2 else some l2

theorem scanUp_gt {cmp : α → α → Int} {a : List α} {mid bound l2 l2' : Int}
    (h : scanUp cmp a mid bound l2 = some l2') : l2 < l2' := by
  fun_induction scanUp cmp a mid bound l2 with
  | case1 l2 _ _ _ _ _ _ ih =>
    have := ih h
    omega
  | case2 =>
    rw [Option.some.injEq] at h
    omega
  | case3 => cases h
  | case4 =>
    rw [Option.some.injEq] at h
    omega

theorem scanDown_lt {cmp : α → α → Int} {test : Int → Bool} {a : List α} {mid bound h2 h2' : Int}
    (h : scanDown cmp test a mid bound h2 = some h2') : h2' < h2 := by
  fun_induction scanDown cmp test a mid bound h2 with
  | case1 h2 _ _ _ _ _ _ ih =>
    have := ih h
    omega
  | case2 =>
    rw [Option.some.injEq] at h
    omega
  | case3 => cases h
  | case4 =>
    rw [Option.some.injEq] at h
    omega

theorem scanLow2_gt {cmp : α → α → Int} {a : List α} {high mid l2 l2' : Int}
    (h : scanLow2 cmp a high mid l2 = some l2') : l2 < l2' := by
  simp only [scanLow2] at h
  by_cases h1 : mid > l2
  · rw [if_pos h1] at h
    cases hA : scanUp cmp a mid mid l2 with
    | none => simp [hA] at h
    | some l2₁ =>
      have hlt := scanUp_gt hA
      rw [hA, Option.bind_some] at h
      split at h
      · have := scanUp_gt h
        omega
      · cases h
        exact hlt
  · rw [if_neg h1, Option.bind_some, if_pos (Int.not_lt.1 h1)] at h
    exact scanUp_gt h

def partitionLoop (cmp : α → α → Int) (a : List α) (high mid l2 h2 : Int) :
    Option (List α × Int × Int × Int) :=
  match _hl : scanLow2 cmp a high mid l2, _hh : scanDown cmp (fun r => 0 < r) a mid mid h2 with
  | some l2', some h2' =>
    if h2' < l2' then some (a, mid, l2', h2')
    else
      match seFastSwap a l2' h2' with
      | some a' =>
        -- the pivot moves with the swap
        partitionLoop cmp a' high (if mid = h2' then l2' else mid) l2' h2'
      | none => none
  | _, _ => none
termination_by (h2 - l2).toNat
decreasing_by have := scanLow2_gt _hl; have := scanDown_lt _hh; omega

section Partition

variable {cmp : α → α → Int} {a : List α} {high mid l2 h2 l2' h2' : Int}

theorem partitionLoop_break (hl : scanLow2 cmp a high mid l2 = some l2')
    (hh : scanDown cmp (fun r => 0 < r) a mid mid h2 = some h2') (hlt : h2' < l2') :
    partitionLoop cmp a high mid l2 h2 = some (a, mid, l2', h2') := by
  rw [partitionLoop]
  split
  · rename_i l₁ h₁ hl₁ hh₁
    rw [hl] at hl₁
    rw [hh] at hh₁
    cases hl₁
    cases hh₁
    rw [if_pos hlt]
  · rename_i hnone
    exact (hnone _ _ hl hh).elim

theorem partitionLoop_swap {a' : List α} (hl : scanLow2 cmp a high mid l2 = some l2')
    (hh : scanDown cmp (fun r => 0 < r) a mid mid h2 = some h2') (hge : ¬h2' < l2')
    (hs : seFastSwap a l2' h2' = some a') :
    partitionLoop cmp a high mid l2 h2 = partitionLoop cmp a' high (if mid = h2' then l2' else mid) l2' h2' := by
  rw [partitionLoop]
  split
  · rename_i l₁ h₁ hl₁ hh₁
    rw [hl] at hl₁
    rw [hh] at hh₁
    cases hl₁
    cases hh₁
    rw [if_neg hge, hs]
  · rename_i hnone
    exact (hnone _ _ hl hh).elim

end Partition

/-- `high2 += width;` and the two scans over elements equal to the pivot. -/
def skipEqual (cmp : α → α → Int) (a : List α) (low mid h2 : Int) : Option Int :=
  (if mid < h2 + 1 then scanDown cmp (fun r => r == 0) a mid mid (h2 + 1) else some (h2 + 1)).bind fun h2 =>
    if mid ≥ h2 then scanDown cmp (fun r => r == 0) a mid low h2 else some h2

/-- `SE_QSORT_STACKSIZE` for pointers of `ptrSize` bytes. -/
def seQsortStacksize (ptrSize : Nat) : Nat := ptrSize * 8 - 2

/-- `low_stack[stack_pointer] = ...; stack_pointer++;` on a stack listed top
first; `none` when `stack_pointer` has reached `SE_QSORT_STACKSIZE`. -/
def push (stackSize : Nat) (stack : List (Int × Int)) (seg : Int × Int) : Option (List (Int × Int)) :=
  if stack.length < stackSize then some (seg :: stack) else none

def nextRound (stackSize : Nat) (stack : List (Int × Int)) (low high l2 h2 : Int) :
    Option (Option (Int × Int) × List (Int × Int)) :=
  if high - l2 ≤ h2 - low then do
    let stack ← if low < h2 then push stackSize stack (low, h2) else pure stack
    pure (if l2 < high then some (l2, high) else none, stack)
  else do
    let stack ← if l2 < high then push stackSize stack (l2, high) else pure stack
    pure (if low < h2 then some (low, h2) else none, stack)

def seQSortLoop (cmp : α → α → Int) (width stackSize : Nat) :
    Nat → List α → Int → Int → List (Int × Int) → Option (List α)
  | 0, _, _, _, _ => none
  | fuel + 1, a, low, high, stack => do
    let size := width * (high - low).toNat % 2 ^ 32 / width + 1
    let mid := low + (size / 2 : Nat)
    let a ← swapIfGreater cmp a low mid
    let a ← swapIfGreater cmp a low high
    let a ← swapIfGreater cmp a mid high
    let (a, mid, l2, h2) ← partitionLoop cmp a high mid low high
    let h2 ← skipEqual cmp a low mid h2
    let (next, stack) ← nextRound stackSize stack low high l2 h2
    match next, stack with
    | some (low, high), stack => seQSortLoop cmp width stackSize fuel a low high stack
    -- `stack_pointer--;` and the pop
    | none, (low, high) :: stack => seQSortLoop cmp width stackSize fuel a low high stack
    | none, [] => some a

/-- `SeQSort (base, num, width, compare_function)` with pointers of
`ptrSize` bytes; a run has at most `num` rounds. -/
def seQSort (cmp : α → α → Int) (ptrSize width : Nat) (a : List α) : Option (List α) :=
  if a.length ≤ 1 then some a
  else
    -- `high = (UCHAR *)base + width * (num - 1);` in `UINT`
    let highOff := width * (a.length - 1) % 2 ^ 32
    if width = 0 ∨ highOff % width ≠ 0 then none
    else seQSortLoop cmp width (seQsortStacksize ptrSize) a.length a 0 (highOff / width : Nat) []

theorem seQSortLoop_one {cmp : α → α → Int} {width stackSize fuel : Nat} {a : List α} {low : Int} {x : α}
    (hx : elemAt a low = some x) (hxx : ¬0 < cmp x x) :
    seQSortLoop cmp width stackSize (fuel + 1) a low low [] = some a := by
  have hsw : swapIfGreater cmp a low low = some a := by
    rw [swapIfGreater, hx]
    exact if_neg hxx
  have hlow2 : scanLow2 cmp a low low low = some (low + 1) := by
    rw [scanLow2, if_neg (Int.lt_irrefl low), Option.bind_some, if_pos (Int.le_refl low), scanUp_of_ge (Int.le_refl _)]
  have hpart : partitionLoop cmp a low low low low = some (a, low, low + 1, low - 1) :=
    partitionLoop_break hlow2 (scanDown_of_le (by omega)) (by omega)
  have hskip : skipEqual cmp a low low (low - 1) = some (low - 1) := by
    rw [skipEqual, if_neg (by omega), Option.bind_some, if_pos (by omega), scanDown_of_le (by omega),
      Int.sub_add_cancel]
  have hnext : nextRound stackSize [] low low (low + 1) (low - 1) = some (none, []) := by
    rw [nextRound, if_pos (by omega), if_neg (by omega), if_neg (by omega)]
    rfl
  simp only [seQSortLoop, Int.sub_self, Int.toNat_zero, Nat.mul_zero, Nat.zero_mod, Nat.zero_div, Nat.zero_add,
    Nat.reduceDiv, Int.natCast_zero, Int.add_zero, hsw, Option.bind_eq_bind, Option.bind_some, hpart, hskip, hnext]

/-- For elements of `2^31` bytes, `width * (num - 1)` wraps to 0 in `UINT`
for `num = 3`: `high` is `low`, the one round sorts a segment of one element,
and the array is returned as it was. -/
theorem seQSort_wrapped_high_unsorted :
    seQSort (fun a b : Int => a - b) 8 (2 ^ 31) [3, 2, 1] = some [3, 2, 1] ∧
      ¬Sorted (fun a b : Int => a - b) [3, 2, 1] := by
  refine ⟨?_, by decide⟩
  rw [seQSort, if_neg (by decide), if_neg (by decide)]
  exact seQSortLoop_one (x := 3) (by decide) (by decide)

end Bitvisor.Se
