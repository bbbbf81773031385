import Mathlib.Data.List.Basic

namespace Slots

/-! A table of slots is a `List (Option α)`: a slot holds an entry or is free,
and the entries of the table, in order, are its `filterMap id`. Filling a free
slot inserts exactly one entry among the others. -/

variable {α : Type}

theorem filterMap_set_some {l : List (Option α)} {i : ℕ} (hi : l[i]? = some none) (x : α) :
    ∃ l₁ l₂, l.filterMap id = l₁ ++ l₂ ∧ (l.set i (some x)).filterMap id = l₁ ++ x :: l₂ := by
  induction l generalizing i with
  | nil => simp at hi
  | cons o l ih =>
    cases i with
    | zero =>
      simp only [List.getElem?_cons_zero, Option.some.injEq] at hi
      subst hi
      exact ⟨[], l.filterMap id, by simp, by simp⟩
    | succ i =>
      simp only [List.getElem?_cons_succ] at hi
      obtain ⟨l₁, l₂, h, h'⟩ := ih hi
      cases o with
      | none =>
        refine ⟨l₁, l₂, ?_, ?_⟩
        · rw [List.filterMap_cons_none rfl, h]
        · rw [List.set_cons_succ, List.filterMap_cons_none rfl, h']
      | some y =>
        refine ⟨y :: l₁, l₂, ?_, ?_⟩
        · rw [List.filterMap_cons_some (f := id) rfl, h, List.cons_append]
        · rw [List.set_cons_succ, List.filterMap_cons_some (f := id) rfl, h', List.cons_append]

theorem mem_filterMap_set_some {l : List (Option α)} {i : ℕ} (hi : l[i]? = some none)
    (x d : α) : d ∈ (l.set i (some x)).filterMap id ↔ d = x ∨ d ∈ l.filterMap id := by
  obtain ⟨l₁, l₂, h, h'⟩ := filterMap_set_some hi x
  rw [h, h']
  simp only [List.mem_append, List.mem_cons]
  tauto

theorem length_filterMap_set_some {l : List (Option α)} {i : ℕ} (hi : l[i]? = some none)
    (x : α) : ((l.set i (some x)).filterMap id).length = (l.filterMap id).length + 1 := by
  obtain ⟨l₁, l₂, h, h'⟩ := filterMap_set_some hi x
  rw [h, h']
  simp only [List.length_append, List.length_cons]
  omega

end Slots
