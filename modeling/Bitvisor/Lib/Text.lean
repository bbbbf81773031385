import Mathlib.Data.Nat.Digits.Lemmas

namespace TextLib

/-! Text made of fields joined by a one-element separator, numbers written
with a fixed count of digits, and runs of zeros in a sequence. -/

section Join

variable {α : Type} (x : α)

theorem intercalate_append {xs ys : List (List α)} (hx : xs ≠ []) (hy : ys ≠ []) :
    [x].intercalate (xs ++ ys) = [x].intercalate xs ++ x :: [x].intercalate ys := by
  induction xs with
  | nil => contradiction
  | cons t ts ih =>
    cases ts with
    | nil => simp [List.intercalate_cons_of_ne_nil hy]
    | cons t' ts' =>
      have ih' : [x].intercalate (t' :: (ts' ++ ys)) =
          [x].intercalate (t' :: ts') ++ x :: [x].intercalate ys := ih (by simp)
      simp [List.intercalate_cons_cons, ih']

theorem modifyHead_self (l : List (List α)) : l.modifyHead (fun t => t) = l := by
  cases l <;> rfl

theorem mem_intercalate {ts : List (List α)} {c : α} (h : c ∈ [x].intercalate ts) :
    c = x ∨ ∃ t ∈ ts, c ∈ t := by
  induction ts with
  | nil => simp at h
  | cons t ts ih =>
    cases ts with
    | nil => exact .inr ⟨t, by simp, by simpa using h⟩
    | cons t' ts' =>
      rw [List.intercalate_cons_of_ne_nil (by simp)] at h
      simp only [List.mem_append, List.mem_singleton] at h
      rcases h with (h | h) | h
      · exact .inr ⟨t, by simp, h⟩
      · exact .inl h
      · rcases ih h with h | ⟨u, hu, hc⟩
        · exact .inl h
        · exact .inr ⟨u, List.mem_cons_of_mem _ hu, hc⟩

theorem length_intercalate_le {ts : List (List α)} {m : Nat} (h : ∀ t ∈ ts, t.length ≤ m) :
    ([x].intercalate ts).length ≤ ts.length * (m + 1) := by
  induction ts with
  | nil => simp
  | cons t ts ih =>
    have ht := h t (by simp)
    have hts := ih fun u hu => h u (List.mem_cons_of_mem _ hu)
    cases ts with
    | nil => simp; omega
    | cons t' ts' =>
      rw [List.intercalate_cons_of_ne_nil (by simp)]
      simp only [List.length_append, List.length_cons, List.length_nil] at hts ⊢
      rw [Nat.succ_mul]
      omega

end Join

section Digits

theorem digitsAppend_succ {b : Nat} (hb : 1 < b) (l n : Nat) :
    Nat.digitsAppend b (l + 1) n = n % b :: Nat.digitsAppend b l (n / b) := by
  rcases Nat.eq_zero_or_pos n with rfl | hn
  · simp [Nat.digitsAppend, List.replicate_succ]
  · simp [Nat.digitsAppend, Nat.digits_def' hb hn]

theorem digitsAppend_zero {b n : Nat} (hn : n = 0) : Nat.digitsAppend b 0 n = [] := by
  simp [Nat.digitsAppend, hn]

end Digits

section Runs

def ZeroBlock (v : Nat → Nat) (s L : Nat) : Prop := ∀ j, s ≤ j → j < s + L → v j = 0

variable {v w : Nat → Nat} {s L : Nat}

theorem ZeroBlock.avoid (h : ZeroBlock v s L) {e : Nat} (he : v e ≠ 0) : s + L ≤ e ∨ e < s := by
  by_contra hc
  exact he (h e (by omega) (by omega))

theorem ZeroBlock.congr (h : ZeroBlock v s L) (hvw : ∀ j, j < s + L → v j = w j) :
    ZeroBlock w s L :=
  fun j hs hj => (hvw j hj) ▸ h j hs hj

theorem ZeroBlock.snoc (h : ZeroBlock v s L) (he : v (s + L) = 0) : ZeroBlock v s (L + 1) := by
  intro j hs hj
  rcases Nat.lt_or_ge j (s + L) with hj' | hj'
  · exact h j hs hj'
  · rwa [show j = s + L by omega]

theorem ZeroBlock.sub (h : ZeroBlock v s L) {s' L' : Nat} (hs : s ≤ s') (hL : s' + L' ≤ s + L) :
    ZeroBlock v s' L' :=
  fun j hj hj' => h j (by omega) (by omega)

end Runs

end TextLib
