import Bitvisor.Lib.Sort

namespace Bitvisor.Core

open ThreeWay

/-! `qsort` of `core/qsort.c` on an array of `nmemb` elements, here a list,
with the comparator `cmp`. A read at an index outside the array is `none`,
and so is a recursion deeper than the array is long. -/

variable {α : Type}

/-- `swap (&p[i], &p[j], size)`. -/
def swap (p : List α) (i j : Nat) : Option (List α) :=
  match p[i]?, p[j]? with
  | some x, some y => some ((p.set i y).set j x)
  | _, _ => none

theorem swap_eq {p : List α} {i j : Nat} (hi : i < p.length) (hj : j < p.length) :
    swap p i j = some ((p.set i p[j]).set j p[i]) := by
  rw [swap, List.getElem?_eq_getElem hi, List.getElem?_eq_getElem hj]

/-- `while (hi != m && cmp (&p[hi], &p[m]) > 0) hi--;`. Below 0 the index
wraps to `SIZE_MAX`, which the next test reads out of range. -/
def scanHi (cmp : α → α → Int) (p : List α) (m hi : Nat) : Option Nat :=
  if hi = m then some hi
  else
    match p[hi]?, p[m]? with
    | some x, some y =>
      if 0 < cmp x y then
        if hi = 0 then none else scanHi cmp p m (hi - 1)
      else some hi
    | _, _ => none
termination_by hi

/-- `while (lo < hi && lo != m && cmp (&p[lo], &p[m]) < 0) lo++;`. -/
def scanLo (cmp : α → α → Int) (p : List α) (m hi lo : Nat) : Option Nat :=
  if lo < hi ∧ lo ≠ m then
    match p[lo]?, p[m]? with
    | some x, some y => if cmp x y < 0 then scanLo cmp p m hi (lo + 1) else some lo
    | _, _ => none
  else some lo
termination_by hi - lo

theorem scanHi_le {cmp : α → α → Int} {p : List α} {m hi hi' : Nat} (h : scanHi cmp p m hi = some hi') :
    hi' ≤ hi := by
  fun_induction scanHi cmp p m hi with
  | case1 => exact Nat.le_of_eq (Option.some.inj h).symm
  | case2 => cases h
  | case3 hi _ _ _ _ _ _ _ ih =>
    have := ih h
    omega
  | case4 => exact Nat.le_of_eq (Option.some.inj h).symm
  | case5 => cases h

def partitionLoop (cmp : α → α → Int) (p : List α) (lo hi m : Nat) : Option (List α × Nat) :=
  match _hs : scanHi cmp p m hi with
  | none => none
  | some hi' =>
    match scanLo cmp p m hi' lo with
    | none => none
    | some lo' =>
      if hi' ≤ lo' then some (p, hi' + 1)
      else
        match swap p lo' hi' with
        | none => none
        | some p' =>
          -- the pivot moves with the swap
          partitionLoop cmp p' (lo' + 1) (hi' - 1) (if lo' = m then hi' else if hi' = m then lo' else m)
termination_by hi
decreasing_by have := scanHi_le _hs; omega

/-- `qsort (base, nmemb, size, cmp)` with `fuel` levels of recursion left. -/
def qsortRec (cmp : α → α → Int) : Nat → List α → Option (List α)
  | 0, _ => none
  | fuel + 1, p =>
    if p.length ≤ 1 then some p
    else if p.length = 2 then
      match p[0]?, p[1]? with
      | some x, some y => if 0 < cmp x y then swap p 0 1 else some p
      | _, _ => none
    else
      match partitionLoop cmp p 0 (p.length - 1) ((p.length - 1) / 2) with
      | none => none
      | some (p', q) =>
        -- `qsort (p, np, size, cmp); qsort (q, nq, size, cmp);` on the two sides of the split
        match qsortRec cmp fuel (p'.take q), qsortRec cmp fuel (p'.drop q) with
        | some l, some r => some (l ++ r)
        | _, _ => none

/-- `qsort`, given one level of recursion more than the array has elements. -/
def qsort (cmp : α → α → Int) (p : List α) : Option (List α) := qsortRec cmp (p.length + 1) p

section Scans

variable {cmp : α → α → Int} {p : List α} {m : Nat}

theorem scanHi_spec {hi : Nat} (hm : m < p.length) (hhi : hi < p.length)
    (hstop : m ≤ hi ∨ ∃ j, ∃ hj : j < p.length, j ≤ hi ∧ cmp p[j] p[m] ≤ 0) :
    ∃ hi', scanHi cmp p m hi = some hi' ∧ hi' ≤ hi ∧
      (hi' = m ∨ ∀ h : hi' < p.length, cmp p[hi'] p[m] ≤ 0) ∧
      ∀ i (h : i < p.length), hi' < i → i ≤ hi → i ≠ m ∧ 0 < cmp p[i] p[m] := by
  fun_induction scanHi cmp p m hi with
  | case1 => exact ⟨m, rfl, Nat.le_refl m, Or.inl rfl, fun i _ h₁ h₂ => absurd h₂ (by omega)⟩
  | case2 x y hy hpos hne hx =>
    obtain ⟨_, rfl⟩ := List.getElem?_eq_some_iff.1 hx
    obtain ⟨_, rfl⟩ := List.getElem?_eq_some_iff.1 hy
    rcases hstop with hle | ⟨j, hj, hj0, hle⟩
    · omega
    · obtain rfl : j = 0 := by omega
      omega
  | case3 hi hne x y hy hx hpos h0 ih =>
    obtain ⟨_, rfl⟩ := List.getElem?_eq_some_iff.1 hx
    obtain ⟨_, rfl⟩ := List.getElem?_eq_some_iff.1 hy
    have hstop' : m ≤ hi - 1 ∨ ∃ j, ∃ hj : j < p.length, j ≤ hi - 1 ∧ cmp p[j] p[m] ≤ 0 := by
      rcases hstop with hle | ⟨j, hj, hji, hle⟩
      · exact Or.inl (by omega)
      · refine Or.inr ⟨j, hj, ?_, hle⟩
        rcases Nat.lt_or_eq_of_le hji with hlt | rfl
        · omega
        · omega
    obtain ⟨hi', hs, hle, hstopped, hpassed⟩ := ih (by omega) hstop'
    refine ⟨hi', hs, by omega, hstopped, fun i hi₁ h₁ h₂ => ?_⟩
    rcases Nat.lt_or_eq_of_le h₂ with hlt | rfl
    · exact hpassed i hi₁ h₁ (by omega)
    · exact ⟨hne, hpos⟩
  | case4 hi hne x y hy hx hpos =>
    obtain ⟨_, rfl⟩ := List.getElem?_eq_some_iff.1 hx
    obtain ⟨_, rfl⟩ := List.getElem?_eq_some_iff.1 hy
    exact ⟨hi, rfl, Nat.le_refl hi, Or.inr fun _ => by omega, fun i _ h₁ h₂ => absurd h₂ (by omega)⟩
  | case5 hi hne hnone =>
    exact (hnone _ _ (List.getElem?_eq_getElem hhi) (List.getElem?_eq_getElem hm)).elim

theorem scanLo_spec {hi : Nat} (lo : Nat) (hm : m < p.length) (hhi : hi < p.length) :
    ∃ lo', scanLo cmp p m hi lo = some lo' ∧ lo ≤ lo' ∧ (lo' ≤ hi ∨ lo' = lo) ∧
      (∀ i (h : i < p.length), lo ≤ i → i < lo' → i ≠ m ∧ cmp p[i] p[m] < 0) ∧
      (lo' < hi → lo' ≠ m → ∀ h : lo' < p.length, ¬cmp p[lo'] p[m] < 0) := by
  fun_induction scanLo cmp p m hi lo with
  | case1 lo hlt x y hy hx hneg ih =>
    obtain ⟨_, rfl⟩ := List.getElem?_eq_some_iff.1 hx
    obtain ⟨_, rfl⟩ := List.getElem?_eq_some_iff.1 hy
    obtain ⟨lo', hs, hle, hbound, hpassed, hstopped⟩ := ih
    refine ⟨lo', hs, by omega, by omega, fun i hi₁ h₁ h₂ => ?_, hstopped⟩
    rcases Nat.lt_or_eq_of_le h₁ with hlt' | rfl
    · exact hpassed i hi₁ (by omega) h₂
    · exact ⟨hlt.2, hneg⟩
  | case2 lo hlt x y hy hx hneg =>
    obtain ⟨_, rfl⟩ := List.getElem?_eq_some_iff.1 hx
    obtain ⟨_, rfl⟩ := List.getElem?_eq_some_iff.1 hy
    exact ⟨lo, rfl, Nat.le_refl lo, Or.inr rfl, fun i _ h₁ h₂ => absurd h₂ (by omega), fun _ _ _ => hneg⟩
  | case3 lo hlt hnone =>
    exact (hnone _ _ (List.getElem?_eq_getElem (by omega)) (List.getElem?_eq_getElem hm)).elim
  | case4 lo hnot =>
    exact ⟨lo, rfl, Nat.le_refl lo, Or.inr rfl, fun i _ h₁ h₂ => absurd h₂ (by omega),
      fun h₁ h₂ => absurd ⟨h₁, h₂⟩ hnot⟩

end Scans

structure LoopInv (cmp : α → α → Int) (p : List α) (x : α) (lo hi m : Nat) : Prop where
  m_lt : m < p.length
  pivot : p[m] = x
  hi_lt : hi < p.length
  lo_le : lo ≤ hi + 1
  left : ∀ i (h : i < p.length), i < lo → cmp p[i] x ≤ 0
  right : ∀ i (h : i < p.length), hi < i → cmp x p[i] ≤ 0
  first : lo = 0 → m ≤ hi ∧ m + 1 < p.length
  later : 0 < lo → hi + 1 < p.length

structure ScanInv (cmp : α → α → Int) (p : List α) (x : α) (lo hi m : Nat) : Prop where
  m_lt : m < p.length
  pivot : p[m] = x
  hi_lt : hi < p.length
  lo_le : lo ≤ hi + 1
  left : ∀ i (h : i < p.length), i < lo → cmp p[i] x ≤ 0
  right : ∀ i (h : i < p.length), hi < i → cmp x p[i] ≤ 0
  hi_stop : hi ≠ m → cmp p[hi] x ≤ 0
  lo_stop : lo < hi → lo ≠ m → ∀ h : lo < p.length, cmp x p[lo] ≤ 0
  split_lt : hi ≤ lo → hi + 1 < p.length

section Loop

variable {cmp : α → α → Int} (hc : TotalPreorder cmp) {p : List α} {x : α}

include hc in
theorem LoopInv.scan {lo hi m : Nat} (h : LoopInv cmp p x lo hi m) :
    ∃ hi' lo', scanHi cmp p m hi = some hi' ∧ scanLo cmp p m hi' lo = some lo' ∧ ScanInv cmp p x lo' hi' m := by
  have hm := h.m_lt
  have hstop : m ≤ hi ∨ ∃ j, ∃ hj : j < p.length, j ≤ hi ∧ cmp p[j] p[m] ≤ 0 := by
    rcases Nat.eq_zero_or_pos lo with h0 | hpos
    · exact Or.inl (h.first h0).1
    · refine Or.inr ⟨lo - 1, by have := h.lo_le; have := h.hi_lt; omega, by have := h.lo_le; omega, ?_⟩
      rw [h.pivot]
      exact h.left _ _ (by omega)
  obtain ⟨hi', hs, hle, hstopped, hpassed⟩ := scanHi_spec h.m_lt h.hi_lt hstop
  have hhi' : hi' < p.length := by have := h.hi_lt; omega
  obtain ⟨lo', hs', hlo, hbound, hpassed', hstopped'⟩ := scanLo_spec lo h.m_lt hhi'
  rw [h.pivot] at hstopped hpassed hpassed' hstopped'
  have hlo_le : lo ≤ hi' + 1 := by
    rcases Nat.eq_zero_or_pos lo with h0 | hpos
    · omega
    · by_contra hgt
      have hlt : lo - 1 < p.length := by have := h.lo_le; have := h.hi_lt; omega
      have := (hpassed (lo - 1) hlt (by omega) (by have := h.lo_le; omega)).2
      have := h.left (lo - 1) hlt (by omega)
      omega
  refine ⟨hi', lo', hs, hs', ⟨h.m_lt, h.pivot, hhi', by omega, ?_, ?_, ?_, ?_, ?_⟩⟩
  · intro i hi₀ h₁
    rcases Nat.lt_or_ge i lo with hlt | hge
    · exact h.left i hi₀ hlt
    · exact Int.le_of_lt (hpassed' i hi₀ hge h₁).2
  · intro i hi₀ h₁
    rcases Nat.lt_or_ge hi i with hlt | hge
    · exact h.right i hi₀ hlt
    · exact hc.le_of_pos (hpassed i hi₀ h₁ hge).2
  · intro hne
    exact hstopped.resolve_left hne hhi'
  · intro h₁ h₂ hlt'
    exact hc.le_of_not_neg (hstopped' h₁ h₂ hlt')
  · intro hsplit
    rcases Nat.eq_zero_or_pos lo with h0 | hpos
    · obtain ⟨hmhi, hmn⟩ := h.first h0
      by_contra hge
      have hm_lt : m < hi' := by
        by_contra hle'
        omega
      have : m < lo' := by omega
      exact (hpassed' m h.m_lt (by omega) this).1 rfl
    · have := h.later hpos
      omega

include hc in
theorem LoopInv.scanHi_ne_none {lo hi m : Nat} (h : LoopInv cmp p x lo hi m) : scanHi cmp p m hi ≠ none := by
  obtain ⟨_, _, hs, -, -⟩ := h.scan hc
  rw [hs]
  exact Option.some_ne_none _

include hc in
theorem LoopInv.scanLo_ne_none {lo hi m hi' : Nat} (h : LoopInv cmp p x lo hi m)
    (hs : scanHi cmp p m hi = some hi') : scanLo cmp p m hi' lo ≠ none := by
  obtain ⟨_, _, hs₁, hlo₁, -⟩ := h.scan hc
  rw [hs, Option.some.injEq] at hs₁
  subst hs₁
  rw [hlo₁]
  exact Option.some_ne_none _

include hc in
theorem LoopInv.scanInv {lo hi m hi' lo' : Nat} (h : LoopInv cmp p x lo hi m)
    (hs : scanHi cmp p m hi = some hi') (hlo : scanLo cmp p m hi' lo = some lo') : ScanInv cmp p x lo' hi' m := by
  obtain ⟨_, _, hs₁, hlo₁, hsc⟩ := h.scan hc
  rw [hs, Option.some.injEq] at hs₁
  subst hs₁
  rw [hlo, Option.some.injEq] at hlo₁
  subst hlo₁
  exact hsc

include hc in
theorem ScanInv.split {lo hi m : Nat} (h : ScanInv cmp p x lo hi m) (hle : hi ≤ lo) :
    0 < hi + 1 ∧ hi + 1 < p.length ∧ (∀ i (h : i < p.length), i < hi + 1 → cmp p[i] x ≤ 0) ∧
      ∀ i (h : i < p.length), hi + 1 ≤ i → cmp x p[i] ≤ 0 := by
  refine ⟨Nat.succ_pos hi, h.split_lt hle, fun i hi₀ h₁ => ?_, fun i hi₀ h₁ => h.right i hi₀ (by omega)⟩
  rcases Nat.lt_or_ge i lo with hlt | hge
  · exact h.left i hi₀ hlt
  · obtain rfl : i = hi := by omega
    by_cases hm : i = m
    · subst hm
      rw [h.pivot]
      exact hc.refl x
    · exact h.hi_stop hm

include hc in
theorem ScanInv.swap {lo hi m : Nat} (h : ScanInv cmp p x lo hi m) (hlt : lo < hi) :
    ∃ p', swap p lo hi = some p' ∧ p'.Perm p ∧
      LoopInv cmp p' x (lo + 1) (hi - 1) (if lo = m then hi else if hi = m then lo else m) := by
  have hhi := h.hi_lt
  have hlo : lo < p.length := by omega
  have hm := h.m_lt
  refine ⟨_, swap_eq hlo hhi, List.set_set_perm hlo hhi, ?_⟩
  have hdown : cmp p[hi] x ≤ 0 := by
    by_cases hmh : hi = m
    · subst hmh
      rw [h.pivot]
      exact hc.refl x
    · exact h.hi_stop hmh
  have hup : cmp x p[lo] ≤ 0 := by
    by_cases hml : lo = m
    · subst hml
      rw [h.pivot]
      exact hc.refl x
    · exact h.lo_stop hlt hml hlo
  refine ⟨?_, ?_, by simp; omega, by omega, ?_, ?_, fun h0 => absurd h0 (Nat.succ_ne_zero lo),
    fun _ => by simp; omega⟩
  · simp only [List.length_set]
    split_ifs <;> omega
  · by_cases h1 : lo = m
    · subst h1
      simp only [if_pos, List.getElem_set_self]
      exact h.pivot
    · by_cases h2 : hi = m
      · subst h2
        simp only [if_neg h1, if_pos, List.getElem_set, Ne.symm h1]
        simp [h.pivot]
      · simp only [if_neg h1, if_neg h2, List.getElem_set]
        exact h.pivot
  · intro i hi₀ h₁
    simp only [List.getElem_set]
    split_ifs with h₂ h₃
    · omega
    · subst h₃
      exact hdown
    · exact h.left i (by simpa using hi₀) (by omega)
  · intro i hi₀ h₁
    simp only [List.getElem_set]
    split_ifs with h₂ h₃
    · subst h₂
      exact hup
    · omega
    · exact h.right i (by simpa using hi₀) (by omega)

end Loop

theorem partitionLoop_spec {cmp : α → α → Int} (hc : TotalPreorder cmp) {p : List α} {x : α} {lo hi m : Nat}
    (h : LoopInv cmp p x lo hi m) :
    ∃ p' q, partitionLoop cmp p lo hi m = some (p', q) ∧ p'.Perm p ∧ 0 < q ∧ q < p.length ∧
      (∀ i (h : i < p'.length), i < q → cmp p'[i] x ≤ 0) ∧ ∀ i (h : i < p'.length), q ≤ i → cmp x p'[i] ≤ 0 := by
  fun_induction partitionLoop cmp p lo hi m with
  | case1 p lo hi m hs => exact absurd hs (h.scanHi_ne_none hc)
  | case2 p lo hi m hi' hs hlo => exact absurd hlo (h.scanLo_ne_none hc hs)
  | case3 p lo hi m hi' hs lo' hlo hle =>
    obtain ⟨hq0, hqn, hleft, hright⟩ := (h.scanInv hc hs hlo).split hc hle
    exact ⟨p, hi' + 1, rfl, List.Perm.refl p, hq0, hqn, hleft, hright⟩
  | case4 p lo hi m hi' hs lo' hlo hlt hsw =>
    obtain ⟨_, hsw₁, -, -⟩ := (h.scanInv hc hs hlo).swap hc (by omega)
    rw [hsw] at hsw₁
    cases hsw₁
  | case5 p lo hi m hi' hs lo' hlo hlt p' hsw ih =>
    obtain ⟨_, hsw₁, hperm, hinv⟩ := (h.scanInv hc hs hlo).swap hc (by omega)
    rw [hsw, Option.some.injEq] at hsw₁
    subst hsw₁
    simp only [dite_eq_ite] at ih
    obtain ⟨p'', q, hrun, hperm', hq0, hqn, hleft, hright⟩ := ih hinv
    exact ⟨p'', q, hrun, hperm'.trans hperm, hq0, by rw [← hperm.length_eq]; exact hqn, hleft, hright⟩

/-- With more levels of recursion than elements, `qsort` returns, reading
only inside the array, a sorted permutation of it. -/
theorem qsortRec_spec {cmp : α → α → Int} (hc : TotalPreorder cmp) (fuel : Nat) :
    ∀ p : List α, p.length < fuel → ∃ l, qsortRec cmp fuel p = some l ∧ Sorted cmp l ∧ l.Perm p := by
  induction fuel with
  | zero => exact fun p hp => absurd hp (Nat.not_lt_zero _)
  | succ fuel ih =>
    intro p hp
    rw [qsortRec]
    by_cases h1 : p.length ≤ 1
    · rw [if_pos h1]
      exact ⟨p, rfl, sorted_of_length_le_one h1, List.Perm.refl p⟩
    rw [if_neg h1]
    by_cases h2 : p.length = 2
    · rw [if_pos h2]
      obtain ⟨a, b, rfl⟩ := List.length_eq_two.1 h2
      by_cases hpos : 0 < cmp a b
      · exact ⟨[b, a], by simp [hpos, swap], sorted_pair (hc.le_of_pos hpos), List.Perm.swap a b []⟩
      · exact ⟨[a, b], by simp [hpos], sorted_pair (by omega), List.Perm.refl _⟩
    rw [if_neg h2]
    have hinv : LoopInv cmp p p[(p.length - 1) / 2] 0 (p.length - 1) ((p.length - 1) / 2) :=
      ⟨by omega, rfl, by omega, by omega, fun i _ h => absurd h (Nat.not_lt_zero i),
        fun i _ h₁ => by omega, fun _ => ⟨by omega, by omega⟩, fun h => absurd h (Nat.lt_irrefl 0)⟩
    obtain ⟨p', q, hrun, hperm, hq0, hqn, hleft, hright⟩ := partitionLoop_spec hc hinv
    have hlen : p'.length = p.length := hperm.length_eq
    obtain ⟨l, hl, hls, hlp⟩ := ih (p'.take q) (by simp; omega)
    obtain ⟨r, hr, hrs, hrp⟩ := ih (p'.drop q) (by simp; omega)
    rw [hrun]
    simp only [hl, hr]
    refine ⟨l ++ r, rfl, hc.sorted_append (x := p[(p.length - 1) / 2]) hls hrs ?_ ?_, ?_⟩
    · exact fun a ha => forall_mem_take (P := fun a => cmp a _ ≤ 0) hleft a (hlp.subset ha)
    · exact fun b hb => forall_mem_drop (P := fun b => cmp _ b ≤ 0) hright b (hrp.subset hb)
    · calc List.Perm (l ++ r) (p'.take q ++ p'.drop q) := hlp.append hrp
        _ = p' := List.take_append_drop q p'
        List.Perm _ p := hperm

theorem qsort_sorted_perm {cmp : α → α → Int} (hc : TotalPreorder cmp) (p : List α) :
    ∃ l, qsort cmp p = some l ∧ Sorted cmp l ∧ l.Perm p :=
  qsortRec_spec hc _ p (Nat.lt_succ_self _)

theorem qsort_sorted_perm_sub :
    ∃ l, qsort (fun a b : Int => a - b) [3, 1, 2] = some l ∧ Sorted (fun a b : Int => a - b) l ∧ l.Perm [3, 1, 2] :=
  qsort_sorted_perm totalPreorder_sub [3, 1, 2]

end Bitvisor.Core
