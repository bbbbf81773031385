import Mathlib.Data.List.Basic

namespace ThreeWay

/-! A C comparator `int (*cmp) (const void *, const void *)` answers with a
negative, zero or positive number. It orders its type as a total preorder
when `cmp a b ≤ 0` is total and transitive and the two directions have
opposite signs; sorted then means non-decreasing under that order. -/

variable {α : Type} {cmp : α → α → Int}

structure TotalPreorder (cmp : α → α → Int) : Prop where
  total : ∀ a b, cmp a b ≤ 0 ∨ cmp b a ≤ 0
  trans : ∀ {a b c}, cmp a b ≤ 0 → cmp b c ≤ 0 → cmp a c ≤ 0
  neg_iff : ∀ a b, cmp a b < 0 ↔ 0 < cmp b a

/-- Non-decreasing under the order of `cmp`. -/
def Sorted (cmp : α → α → Int) (l : List α) : Prop := l.Pairwise fun a b => cmp a b ≤ 0

instance (cmp : α → α → Int) (l : List α) : Decidable (Sorted cmp l) :=
  inferInstanceAs (Decidable (l.Pairwise fun a b => cmp a b ≤ 0))

namespace TotalPreorder

variable (hc : TotalPreorder cmp)
include hc

theorem refl (a : α) : cmp a a ≤ 0 := (hc.total a a).elim id id

theorem le_of_pos {a b : α} (h : 0 < cmp a b) : cmp b a ≤ 0 :=
  (hc.total a b).resolve_left (by omega)

theorem le_of_not_neg {a b : α} (h : ¬cmp a b < 0) : cmp b a ≤ 0 := by
  rw [hc.neg_iff] at h
  omega

theorem neg_of_neg_of_le {a b c : α} (hab : cmp a b < 0) (hbc : cmp b c ≤ 0) : cmp a c < 0 := by
  apply Int.not_le.1
  intro hac
  have hca := hc.le_of_not_neg (Int.not_lt.2 hac)
  have hba := hc.trans hbc hca
  have := (hc.neg_iff a b).1 hab
  omega

theorem pos_of_le_of_pos {a b c : α} (hcb : cmp c b ≤ 0) (hab : 0 < cmp a b) : 0 < cmp a c := by
  apply (hc.neg_iff c a).1
  apply Int.not_le.1
  intro hca
  have hac := hc.le_of_not_neg (Int.not_lt.2 hca)
  have := hc.trans hac hcb
  omega

theorem neg_of_le_of_neg {a b c : α} (hab : cmp a b ≤ 0) (hbc : cmp b c < 0) : cmp a c < 0 := by
  apply Int.not_le.1
  intro hac
  have hca := hc.le_of_not_neg (Int.not_lt.2 hac)
  have hcb := hc.trans hca hab
  have := (hc.neg_iff b c).1 hbc
  omega

theorem pos_of_pos_of_le {a b c : α} (hac : 0 < cmp a c) (hab : cmp a b ≤ 0) : 0 < cmp b c := by
  apply Int.not_le.1
  intro hbc
  have := hc.trans hab hbc
  omega

theorem le_of_eq_zero {a b : α} (h : cmp a b = 0) : cmp b a ≤ 0 :=
  hc.le_of_not_neg (by omega)

theorem getElem_le {l : List α} (hs : Sorted cmp l) {i j : Nat} (hi : i < l.length) (hj : j < l.length)
    (hij : i ≤ j) : cmp l[i] l[j] ≤ 0 := by
  rcases Nat.lt_or_eq_of_le hij with hlt | rfl
  · exact List.pairwise_iff_getElem.1 hs i j _ hj hlt
  · exact hc.refl _

theorem sorted_append {l₁ l₂ : List α} {x : α} (h₁ : Sorted cmp l₁) (h₂ : Sorted cmp l₂)
    (hl : ∀ a ∈ l₁, cmp a x ≤ 0) (hr : ∀ b ∈ l₂, cmp x b ≤ 0) : Sorted cmp (l₁ ++ l₂) :=
  List.pairwise_append.2 ⟨h₁, h₂, fun a ha b hb => hc.trans (hl a ha) (hr b hb)⟩

end TotalPreorder

theorem sorted_of_length_le_one {l : List α} (h : l.length ≤ 1) : Sorted cmp l := by
  match l, h with
  | [], _ => exact List.Pairwise.nil
  | [_], _ => exact List.pairwise_singleton _ _

theorem sorted_pair {a b : α} (h : cmp a b ≤ 0) : Sorted cmp [a, b] :=
  List.pairwise_pair.2 h

theorem totalPreorder_sub : TotalPreorder fun a b : Int => a - b where
  total a b := by omega
  trans h₁ h₂ := by omega
  neg_iff a b := by omega

theorem forall_mem_take {l : List α} {q : Nat} {P : α → Prop}
    (h : ∀ i (hi : i < l.length), i < q → P l[i]) : ∀ a ∈ l.take q, P a := by
  intro a ha
  obtain ⟨i, hi, rfl⟩ := List.getElem_of_mem ha
  rw [List.getElem_take]
  exact h i _ (by simp at hi; omega)

theorem forall_mem_drop {l : List α} {q : Nat} {P : α → Prop}
    (h : ∀ i (hi : i < l.length), q ≤ i → P l[i]) : ∀ a ∈ l.drop q, P a := by
  intro a ha
  obtain ⟨i, hi, rfl⟩ := List.getElem_of_mem ha
  rw [List.getElem_drop]
  exact h _ _ (by omega)

end ThreeWay
