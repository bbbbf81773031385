import Mathlib.Data.Option.Basic

namespace PtrWalk

/-! A walk through a memory of linked entries, as a page-table walker does
it: from a start address, each step reads the entry at the current address
and either turns it into the next address or ends the walk. What a walk
reads decides where it goes, so two memories that agree on the addresses a
walk reads give the same walk. -/

variable {A V : Type} (M : A → V) (start : A) (next : Nat → V → Option A)

/-- The address a walk reaches after `k` steps, while no step has ended it. -/
def walk : Nat → Option A
  | 0 => some start
  | k + 1 => (walk k).bind fun a => next k (M a)

variable {M start next}

theorem walk_succ_eq_some {k : Nat} {b : A} :
    walk M start next (k + 1) = some b ↔ ∃ a, walk M start next k = some a ∧ next k (M a) = some b := by
  simp [walk, Option.bind_eq_some_iff]

theorem walk_isSome_of_le {m k : Nat} (hmk : m ≤ k) (h : (walk M start next k).isSome) :
    (walk M start next m).isSome := by
  induction k with
  | zero => rwa [Nat.le_zero.mp hmk]
  | succ k ih =>
    rcases Nat.lt_or_ge m (k + 1) with hm | hm
    · obtain ⟨b, hb⟩ := Option.isSome_iff_exists.mp h
      obtain ⟨a, ha, -⟩ := walk_succ_eq_some.mp hb
      exact ih (by omega) (by simp [ha])
    · rwa [show m = k + 1 by omega]

variable {M' : A → V}

theorem walk_congr_next {k : Nat}
    (h : ∀ m < k, ∀ a, walk M start next m = some a → next m (M' a) = next m (M a)) :
    walk M' start next k = walk M start next k := by
  induction k with
  | zero => rfl
  | succ k ih =>
    have ih' := ih fun m hm a ha => h m (by omega) a ha
    simp only [walk, ih']
    cases hk : walk M start next k with
    | none => rfl
    | some a => simp [h k (by omega) a hk]

/-- Two memories that agree on the addresses the walk reads before step `k`
give the same walk up to step `k`. -/
theorem walk_congr {k : Nat}
    (h : ∀ m < k, ∀ a, walk M start next m = some a → M' a = M a) :
    walk M' start next k = walk M start next k :=
  walk_congr_next fun m hm a ha => by rw [h m hm a ha]

theorem walk_eq_or_reads {S : A → Prop} (hS : ∀ a, ¬S a → M' a = M a) (k : Nat) :
    walk M' start next k = walk M start next k ∨
      ∃ m < k, ∃ a, S a ∧ walk M start next m = some a ∧ walk M' start next m = some a := by
  induction k with
  | zero => exact .inl rfl
  | succ k ih =>
    rcases ih with ih | ⟨m, hm, a, ha, h1, h2⟩
    · cases hk : walk M start next k with
      | none => exact .inl (by simp [walk, ih, hk])
      | some a =>
        by_cases hSa : S a
        · exact .inr ⟨k, by omega, a, hSa, hk, ih.trans hk⟩
        · exact .inl (by simp [walk, ih, hk, hS a hSa])
    · exact .inr ⟨m, by omega, a, ha, h1, h2⟩

theorem walk_of_dead (hdead : ∀ a, M' a ≠ M a → ∀ m, next m (M' a) = none) {k : Nat} {b : A}
    (h : walk M' start next k = some b) : walk M start next k = some b := by
  induction k generalizing b with
  | zero => exact h
  | succ k ih =>
    obtain ⟨a, ha, hb⟩ := walk_succ_eq_some.mp h
    have hsame : M' a = M a := by
      by_contra hne
      rw [hdead a hne k] at hb
      exact absurd hb (by simp)
    exact walk_succ_eq_some.mpr ⟨a, ih ha, hsame ▸ hb⟩

end PtrWalk
