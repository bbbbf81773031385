import Bitvisor.Lib.Sort
import Mathlib.Logic.Relation

namespace ThreeWay

/-! An in-place sort works on segments `[lo, hi]` of an array and changes
them only by exchanging two of their elements. `SortedOutside cmp P a` says
that `a` is in order except between two indices of one pending segment of
`P`: splitting a segment around a pivot replaces it by its two parts, a
segment of fewer than two elements can be dropped, and with no segment left
the array is sorted. Indices are natural numbers and segment ends integers,
since an empty part `[lo, lo - 1]` may start at 0. -/

variable {α : Type} {cmp : α → α → Int}

def SwapStep (lo hi : Int) (a b : List α) : Prop :=
  ∃ (i j : Nat) (hil : i < a.length) (hjl : j < a.length),
    lo ≤ i ∧ (i : Int) ≤ hi ∧ lo ≤ j ∧ (j : Int) ≤ hi ∧ b = (a.set i a[j]).set j a[i]

def SwapsWithin (lo hi : Int) : List α → List α → Prop :=
  Relation.ReflTransGen (SwapStep lo hi)

namespace SwapStep

variable {lo hi : Int} {a b : List α}

theorem length_eq (h : SwapStep lo hi a b) : b.length = a.length := by
  obtain ⟨i, j, hil, hjl, -, -, -, -, rfl⟩ := h
  simp

theorem perm (h : SwapStep lo hi a b) : b.Perm a := by
  obtain ⟨i, j, hil, hjl, -, -, -, -, rfl⟩ := h
  exact List.set_set_perm hil hjl

theorem getElem?_outside (h : SwapStep lo hi a b) (k : Nat) (hk : (k : Int) < lo ∨ hi < k) :
    b[k]? = a[k]? := by
  obtain ⟨i, j, hil, hjl, hi₁, hi₂, hj₁, hj₂, rfl⟩ := h
  rw [List.getElem?_set_ne (by omega), List.getElem?_set_ne (by omega)]

theorem origin (h : SwapStep lo hi a b) {k : Nat} {x : α} (hk₁ : lo ≤ k) (hk₂ : (k : Int) ≤ hi)
    (hx : b[k]? = some x) : ∃ k' : Nat, lo ≤ k' ∧ (k' : Int) ≤ hi ∧ a[k']? = some x := by
  obtain ⟨i, j, hil, hjl, hi₁, hi₂, hj₁, hj₂, rfl⟩ := h
  by_cases hkj : j = k
  · subst hkj
    rw [List.getElem?_set_self (by simpa using hjl)] at hx
    exact ⟨i, hi₁, hi₂, by rw [List.getElem?_eq_getElem hil, hx]⟩
  · rw [List.getElem?_set_ne hkj] at hx
    by_cases hki : i = k
    · subst hki
      rw [List.getElem?_set_self hil] at hx
      exact ⟨j, hj₁, hj₂, by rw [List.getElem?_eq_getElem hjl, hx]⟩
    · rw [List.getElem?_set_ne hki] at hx
      exact ⟨k, hk₁, hk₂, hx⟩

end SwapStep

namespace SwapsWithin

variable {lo hi : Int} {a b c : List α}

theorem refl (a : List α) : SwapsWithin lo hi a a := Relation.ReflTransGen.refl

theorem trans (hab : SwapsWithin lo hi a b) (hbc : SwapsWithin lo hi b c) : SwapsWithin lo hi a c :=
  Relation.ReflTransGen.trans hab hbc

theorem single (h : SwapStep lo hi a b) : SwapsWithin lo hi a b := Relation.ReflTransGen.single h

theorem length_eq (h : SwapsWithin lo hi a b) : b.length = a.length := by
  induction h with
  | refl => rfl
  | tail _ hstep ih => rw [hstep.length_eq, ih]

theorem perm (h : SwapsWithin lo hi a b) : b.Perm a := by
  induction h with
  | refl => exact List.Perm.refl _
  | tail _ hstep ih => exact hstep.perm.trans ih

theorem getElem?_outside (h : SwapsWithin lo hi a b) (k : Nat) (hk : (k : Int) < lo ∨ hi < k) :
    b[k]? = a[k]? := by
  induction h with
  | refl => rfl
  | tail _ hstep ih => rw [hstep.getElem?_outside k hk, ih]

theorem origin (h : SwapsWithin lo hi a b) {k : Nat} {x : α} (hk₁ : lo ≤ k) (hk₂ : (k : Int) ≤ hi)
    (hx : b[k]? = some x) : ∃ k' : Nat, lo ≤ k' ∧ (k' : Int) ≤ hi ∧ a[k']? = some x := by
  induction h generalizing k with
  | refl => exact ⟨k, hk₁, hk₂, hx⟩
  | tail _ hstep ih =>
    obtain ⟨k', hk₁', hk₂', hx'⟩ := hstep.origin hk₁ hk₂ hx
    exact ih hk₁' hk₂' hx'

end SwapsWithin

def SegApart (s t : Int × Int) : Prop := s.2 < t.1 ∨ t.2 < s.1

theorem SegApart.symm {s t : Int × Int} (h : SegApart s t) : SegApart t s := Or.symm h

/-- `a` is in order except between two indices of one segment of `P`. -/
def SortedOutside (cmp : α → α → Int) (P : List (Int × Int)) (a : List α) : Prop :=
  ∀ (i j : Nat) (x y : α), i < j → a[i]? = some x → a[j]? = some y →
    (∀ s ∈ P, ¬(s.1 ≤ i ∧ (j : Int) ≤ s.2)) → cmp x y ≤ 0

theorem sortedOutside_whole (a : List α) : SortedOutside cmp [(0, (a.length : Int) - 1)] a := by
  intro i j x y hij _ hy hP
  have hj := (List.getElem?_eq_some_iff.1 hy).1
  exact absurd ⟨by omega, by omega⟩ (hP _ List.mem_cons_self)

namespace SortedOutside

variable {P Q : List (Int × Int)} {a : List α}

theorem of_covers (h : SortedOutside cmp P a) (hPQ : ∀ s ∈ P, s.2 ≤ s.1 ∨ s ∈ Q) :
    SortedOutside cmp Q a := by
  intro i j x y hij hx hy hQ
  refine h i j x y hij hx hy fun s hs hcov => ?_
  rcases hPQ s hs with hshort | hsQ
  · omega
  · exact hQ s hsQ hcov

theorem sorted (h : SortedOutside cmp [] a) : Sorted cmp a := by
  apply List.pairwise_iff_getElem.2
  intro i j hi hj hij
  exact h i j _ _ hij (List.getElem?_eq_getElem hi) (List.getElem?_eq_getElem hj) nofun

theorem split (hc : TotalPreorder cmp) {b : List α} {lo hi l2 h2 : Int} {p : α}
    (h : SortedOutside cmp ((lo, hi) :: P) a) (hP : ∀ s ∈ P, SegApart (lo, hi) s)
    (hsw : SwapsWithin lo hi a b)
    (hle : ∀ (k : Nat) (x : α), lo ≤ k → (k : Int) < l2 → b[k]? = some x → cmp x p ≤ 0)
    (hge : ∀ (k : Nat) (x : α), h2 < k → (k : Int) ≤ hi → b[k]? = some x → cmp p x ≤ 0) :
    SortedOutside cmp ((lo, h2) :: (l2, hi) :: P) b := by
  intro i j x y hij hx hy hnew
  have hL := hnew _ List.mem_cons_self
  have hR := hnew _ (List.mem_cons_of_mem _ List.mem_cons_self)
  have hrest : ∀ s ∈ P, ¬(s.1 ≤ i ∧ (j : Int) ≤ s.2) := fun s hs =>
    hnew s (List.mem_cons_of_mem _ (List.mem_cons_of_mem _ hs))
  simp only at hL hR
  by_cases hi₁ : lo ≤ i ∧ (i : Int) ≤ hi
  · by_cases hj₁ : lo ≤ j ∧ (j : Int) ≤ hi
    · exact hc.trans (hle i x hi₁.1 (by omega) hx) (hge j y (by omega) hj₁.2 hy)
    · obtain ⟨k', hk₁, hk₂, hk⟩ := hsw.origin hi₁.1 hi₁.2 hx
      rw [hsw.getElem?_outside j (by omega)] at hy
      refine h k' j x y (by omega) hk hy fun s hs => ?_
      rcases List.mem_cons.1 hs with rfl | hs
      · simp only
        omega
      · intro hcov
        rcases hP s hs with hsep | hsep <;> simp only at hsep <;> omega
  · rw [hsw.getElem?_outside i (by omega)] at hx
    by_cases hj₁ : lo ≤ j ∧ (j : Int) ≤ hi
    · obtain ⟨k', hk₁, hk₂, hk⟩ := hsw.origin hj₁.1 hj₁.2 hy
      refine h i k' x y (by omega) hx hk fun s hs => ?_
      rcases List.mem_cons.1 hs with rfl | hs
      · simp only
        omega
      · intro hcov
        rcases hP s hs with hsep | hsep <;> simp only at hsep <;> omega
    · rw [hsw.getElem?_outside j (by omega)] at hy
      refine h i j x y hij hx hy fun s hs => ?_
      rcases List.mem_cons.1 hs with rfl | hs
      · simp only
        omega
      · exact hrest s hs

end SortedOutside

end ThreeWay
