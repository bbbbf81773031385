import Bitvisor.Mm.Page

namespace Bitvisor.Mm

open PageState

structure BlockShape (st : PageState) : Prop where
  head_aligned : ∀ j < numOfPages, (st.page j).type ≠ .notHead →
    2 ^ (st.page j).allocsize ∣ j ∧ (st.page j).allocsize < numOfAllocsize
  head_extent : ∀ h < numOfPages, (st.page h).type ≠ .notHead →
    ∀ k, h < k → k < h + 2 ^ (st.page h).allocsize → (st.page k).type = .notHead
  not_head_owned : ∀ j < numOfPages, (st.page j).type = .notHead →
    ∃ h < j, (st.page h).type ≠ .notHead ∧ j < h + 2 ^ (st.page h).allocsize
  not_head_level : ∀ j < numOfPages, (st.page j).type = .notHead →
    2 ^ (st.page j).allocsize ∣ j ∧ j.testBit (st.page j).allocsize = true

structure PageShape (st : PageState) : Prop extends BlockShape st where
  list_mem : ∀ n j, j ∈ st.list1Freepage n ↔
    j < numOfPages ∧ (st.page j).type = .free ∧ (st.page j).allocsize = n
  list_nodup : ∀ n, (st.list1Freepage n).Nodup
  list_lower_first : ∀ n,
    (st.list1Freepage n).Pairwise fun i j => i.testBit n = true → j.testBit n = true

def FreeBuddiesApart (st : PageState) (e : Option Nat) : Prop :=
  ∀ j < numOfPages, some j ≠ e → (st.page j).type = .free →
    (st.page j).allocsize + 1 < numOfAllocsize →
    some (j ^^^ 2 ^ (st.page j).allocsize) ≠ e →
    ¬ ((st.page (j ^^^ 2 ^ (st.page j).allocsize)).type = .free ∧
      (st.page (j ^^^ 2 ^ (st.page j).allocsize)).allocsize = (st.page j).allocsize)

/-- The invariant of the page allocator. -/
structure PageInv (st : PageState) : Prop extends PageShape st where
  no_free_buddies : FreeBuddiesApart st none

theorem numOfPages_eq : numOfPages = 2 ^ 15 := rfl

namespace BlockShape

variable {st : PageState}

theorem head_end_le (hs : BlockShape st) {h : Nat} (hh : h < numOfPages)
    (ht : (st.page h).type ≠ .notHead) : h + 2 ^ (st.page h).allocsize ≤ numOfPages := by
  obtain ⟨hdvd, hlt⟩ := hs.head_aligned h hh ht
  have hN : 2 ^ (st.page h).allocsize ∣ numOfPages := by
    rw [numOfPages_eq]
    exact Nat.pow_dvd_pow 2 (by simp only [numOfAllocsize] at hlt; omega)
  exact Buddy.add_le_of_dvd_of_lt hdvd hN hh

theorem head_eq (hs : BlockShape st) {h₁ h₂ k : Nat} (h₁N : h₁ < numOfPages)
    (h₂N : h₂ < numOfPages) (t₁ : (st.page h₁).type ≠ .notHead) (t₂ : (st.page h₂).type ≠ .notHead)
    (k₁ : h₁ ≤ k) (k₁' : k < h₁ + 2 ^ (st.page h₁).allocsize)
    (k₂ : h₂ ≤ k) (k₂' : k < h₂ + 2 ^ (st.page h₂).allocsize) : h₁ = h₂ := by
  rcases Nat.lt_trichotomy h₁ h₂ with hlt | heq | hlt
  · exact absurd (hs.head_extent h₁ h₁N t₁ h₂ hlt (by omega)) t₂
  · exact heq
  · exact absurd (hs.head_extent h₂ h₂N t₂ h₁ hlt (by omega)) t₁

theorem partition (hs : BlockShape st) :
    ∀ j < numOfPages, ∃! h, (st.page h).type ≠ .notHead ∧ h ≤ j ∧ j < h + 2 ^ (st.page h).allocsize := by
  intro j hj
  have hex : ∃ h, (st.page h).type ≠ .notHead ∧ h ≤ j ∧ j < h + 2 ^ (st.page h).allocsize := by
    by_cases hh : (st.page j).type = .notHead
    · obtain ⟨h, hlt, hth, hjh⟩ := hs.not_head_owned j hj hh
      exact ⟨h, hth, le_of_lt hlt, hjh⟩
    · exact ⟨j, hh, le_rfl, by have := Nat.two_pow_pos (st.page j).allocsize; omega⟩
  obtain ⟨h, hh⟩ := hex
  refine ⟨h, hh, fun h' hh' => ?_⟩
  exact hs.head_eq (by omega) (by omega) hh'.1 hh.1 hh'.2.1 hh'.2.2 hh.2.1 hh.2.2

theorem setType (hs : BlockShape st) {p : Nat} {t : PageType}
    (hp : (st.page p).type ≠ .notHead) (ht : t ≠ .notHead) : BlockShape (st.setType p t) := by
  have page_eq : ∀ j, j ≠ p → (st.setType p t).page j = st.page j := fun j hj => by simp [hj]
  have head_iff : ∀ j, ((st.setType p t).page j).type ≠ .notHead ↔ (st.page j).type ≠ .notHead := by
    intro j
    by_cases hj : j = p
    · subst hj
      simp [hp, ht]
    · rw [page_eq j hj]
  have alloc_eq : ∀ j, ((st.setType p t).page j).allocsize = (st.page j).allocsize := by
    intro j
    by_cases hj : j = p
    · subst hj
      simp
    · rw [page_eq j hj]
  constructor
  · intro j hj hh
    rw [alloc_eq]
    exact hs.head_aligned j hj ((head_iff j).1 hh)
  · intro h hh hth k hk hk'
    rw [alloc_eq] at hk'
    have := hs.head_extent h hh ((head_iff h).1 hth) k hk hk'
    by_cases hkp : k = p
    · exact absurd (hkp ▸ this) hp
    · rw [page_eq k hkp]
      exact this
  · intro j hj hnh
    have hjp : j ≠ p := fun h => (head_iff j).2 (h ▸ hp) hnh
    rw [page_eq j hjp] at hnh
    obtain ⟨h, hlt, hth, hext⟩ := hs.not_head_owned j hj hnh
    exact ⟨h, hlt, (head_iff h).2 hth, by rw [alloc_eq]; exact hext⟩
  · intro j hj hnh
    have hjp : j ≠ p := fun h => (head_iff j).2 (h ▸ hp) hnh
    rw [page_eq j hjp] at hnh ⊢
    exact hs.not_head_level j hj hnh

theorem setList (hs : BlockShape st) (n : Nat) (l : List Nat) : BlockShape (st.setList n l) :=
  ⟨hs.head_aligned, hs.head_extent, hs.not_head_owned, hs.not_head_level⟩

end BlockShape

namespace FreeBuddiesApart

variable {st : PageState} {e : Option Nat}

theorem setList (h : FreeBuddiesApart st e) (n : Nat) (l : List Nat) :
    FreeBuddiesApart (st.setList n l) e := h

theorem setType (h : FreeBuddiesApart st e) {p : Nat} {t : PageType} (ht : t ≠ .free) :
    FreeBuddiesApart (st.setType p t) e := by
  intro j hj hje hfree hlvl hbe
  have hjp : j ≠ p := by
    rintro rfl
    simp only [page_setType] at hfree
    exact ht hfree
  simp only [page_setType, hjp, if_false] at hfree hlvl hbe ⊢
  rintro ⟨hbfree, hblvl⟩
  by_cases hbp : j ^^^ 2 ^ (st.page j).allocsize = p
  · rw [if_pos hbp] at hbfree
    exact ht hbfree
  · rw [if_neg hbp] at hbfree hblvl
    exact h j hj hje hfree hlvl hbe ⟨hbfree, hblvl⟩

theorem weaken (h : FreeBuddiesApart st none) (e : Option Nat) : FreeBuddiesApart st e :=
  fun j hj _ hfree hlvl _ => h j hj (by simp) hfree hlvl (by simp)

end FreeBuddiesApart

namespace PageShape

variable {st : PageState}

theorem not_mem_of_not_free (hs : PageShape st) {j : Nat} (hj : (st.page j).type ≠ .free)
    (n : Nat) : j ∉ st.list1Freepage n :=
  fun hm => hj ((hs.list_mem n j).1 hm).2.1

theorem take (hs : PageShape st) {p n : Nat} {t : PageType} (hp : p ∈ st.list1Freepage n)
    (ht : t ≠ .free) (ht' : t ≠ .notHead) : PageShape ((st.listDel n p).setType p t) := by
  obtain ⟨hpN, hpfree, hpn⟩ := (hs.list_mem n p).1 hp
  have hblocks : BlockShape ((st.listDel n p).setType p t) :=
    (hs.toBlockShape.setList _ _).setType (by simp [hpfree]) ht'
  refine ⟨hblocks, ?_, ?_, ?_⟩
  · intro k j
    simp only [listDel, list_setType, list_setList, page_setType, page_setList]
    by_cases hk : k = n
    · subst hk
      rw [if_pos rfl, (hs.list_nodup k).mem_erase_iff, hs.list_mem]
      by_cases hj : j = p
      · subst hj
        simp [ht]
      · simp [hj]
    · rw [if_neg hk, hs.list_mem]
      by_cases hj : j = p
      · subst hj
        constructor
        · rintro ⟨_, _, hk'⟩
          exact absurd (hk' ▸ hpn) hk
        · rintro ⟨_, h2, _⟩
          simp only at h2
          exact absurd h2 ht
      · simp [hj]
  · intro k
    simp only [listDel, list_setType, list_setList]
    split
    · exact (hs.list_nodup n).erase p
    · exact hs.list_nodup k
  · intro k
    simp only [listDel, list_setType, list_setList]
    split
    · rename_i hk
      subst hk
      exact (hs.list_lower_first k).sublist (List.erase_sublist)
    · exact hs.list_lower_first k

end PageShape

theorem BlockShape.congr {st st' : PageState} (hs : BlockShape st) (h : ∀ j, st'.page j = st.page j) :
    BlockShape st' := by
  have hp : st'.page = st.page := funext h
  obtain ⟨h₁, h₂, h₃, h₄⟩ := hs
  exact ⟨by rw [hp]; exact h₁, by rw [hp]; exact h₂, by rw [hp]; exact h₃, by rw [hp]; exact h₄⟩

def Settled (st st' : PageState) : Prop :=
  ∀ j, st'.page j ≠ st.page j → (st'.page j).type = .free ∨ (st'.page j).type = .notHead

theorem Settled.refl (st : PageState) : Settled st st := fun _ h => absurd rfl h

theorem Settled.trans {st₁ st₂ st₃ : PageState} (h₁ : Settled st₁ st₂) (h₂ : Settled st₂ st₃) :
    Settled st₁ st₃ := by
  intro j hj
  by_cases h : st₃.page j = st₂.page j
  · rw [h] at hj ⊢
    exact h₁ j hj
  · exact h₂ j h

theorem Settled.page_eq_or {st st' : PageState} (h : Settled st st') (j : Nat) :
    st'.page j = st.page j ∨ (st'.page j).type = .free ∨ (st'.page j).type = .notHead := by
  by_cases hj : st'.page j = st.page j
  · exact Or.inl hj
  · exact Or.inr (h j hj)

theorem Settled.of_setType {st st' : PageState} {p : Nat} {t : PageType}
    (h : Settled (st.setType p t) st')
    (hp : (st'.page p).type = .free ∨ (st'.page p).type = .notHead) : Settled st st' := by
  intro j hj
  by_cases hjp : j = p
  · subst hjp
    exact hp
  · apply h j
    rwa [page_setType, if_neg hjp]

def Loose (st : PageState) (j : Nat) : Prop :=
  (st.page j).type = .free ∨ (st.page j).type = .notHead

def Kept (e : Nat → Prop) (st st' : PageState) : Prop :=
  ∀ j, ¬ e j → ¬ Loose st j → st'.page j = st.page j

namespace Kept

variable {e e' : Nat → Prop} {st st' st₁ st₂ st₃ : PageState}

theorem refl (e : Nat → Prop) (st : PageState) : Kept e st st := fun _ _ _ => rfl

theorem trans (h₁ : Kept e st₁ st₂) (h₂ : Kept e st₂ st₃) : Kept e st₁ st₃ := by
  intro j hj hl
  have h := h₁ j hj hl
  rw [h₂ j hj (by rwa [Loose, h]), h]

theorem mono (h : Kept e st st') (he : ∀ j, e j → e' j) : Kept e' st st' :=
  fun j hj hl => h j (fun h' => hj (he j h')) hl

theorem of_loose (h : Kept e st st') (he : ∀ j, e j → Loose st j) : Kept (fun _ => False) st st' :=
  fun j _ hl => h j (fun h' => hl (he j h')) hl

theorem of_page_eq (h : ∀ j, ¬ e j → st'.page j = st.page j) : Kept e st st' :=
  fun j hj _ => h j hj

theorem setType (st : PageState) (p : Nat) (t : PageType) : Kept (· = p) st (st.setType p t) :=
  of_page_eq fun j hj => by rw [page_setType, if_neg hj]

theorem loose (h : Kept (fun _ => False) st st') {j : Nat} (hj : Loose st' j) : Loose st j := by
  by_contra hl
  rw [Loose, h j id hl] at hj
  exact hl hj

end Kept

namespace PageState

theorem mem_listDel {st : PageState} {n p : Nat} (hnd : (st.list1Freepage n).Nodup) (k j : Nat) :
    j ∈ (st.listDel n p).list1Freepage k ↔ j ∈ st.list1Freepage k ∧ ¬(k = n ∧ j = p) := by
  simp only [listDel, list_setList]
  by_cases hk : k = n
  · subst hk
    rw [if_pos rfl, hnd.mem_erase_iff]
    tauto
  · simp [hk]

theorem nodup_listDel {st : PageState} (hnd : ∀ k, (st.list1Freepage k).Nodup) (n p k : Nat) :
    ((st.listDel n p).list1Freepage k).Nodup := by
  simp only [listDel, list_setList]
  split
  · exact (hnd n).erase p
  · exact hnd k

theorem lowerFirst_listDel {st : PageState}
    (hlf : ∀ k, (st.list1Freepage k).Pairwise fun i j => i.testBit k = true → j.testBit k = true)
    (n p k : Nat) :
    ((st.listDel n p).list1Freepage k).Pairwise fun i j => i.testBit k = true → j.testBit k = true := by
  simp only [listDel, list_setList]
  split
  · rename_i hk
    subst hk
    exact (hlf k).sublist List.erase_sublist
  · exact hlf k

end PageState

/-- `LIST1_ADD` for an upper half and `LIST1_PUSH` for a lower one: how
`mm_page_free_sub` and its merge loop file a free block of level `n`. -/
def fileFree (st : PageState) (p n : Nat) : PageState :=
  if p.testBit n then st.listAdd n p else st.listPush n p

@[simp]
theorem page_fileFree (st : PageState) (p n j : Nat) : (fileFree st p n).page j = st.page j := by
  unfold fileFree
  split <;> rfl

theorem mem_fileFree (st : PageState) (p n k j : Nat) :
    j ∈ (fileFree st p n).list1Freepage k ↔ (k = n ∧ j = p) ∨ j ∈ st.list1Freepage k := by
  unfold fileFree
  by_cases hk : k = n
  · subst hk
    split <;> simp [listAdd, listPush, or_comm]
  · split <;> simp [listAdd, listPush, hk]

theorem nodup_fileFree {st : PageState} (hnd : ∀ k, (st.list1Freepage k).Nodup) {p n : Nat}
    (hp : p ∉ st.list1Freepage n) (k : Nat) : ((fileFree st p n).list1Freepage k).Nodup := by
  unfold fileFree
  by_cases hk : k = n
  · subst hk
    split
    · simp only [listAdd, list_setList]
      refine List.nodup_append.2 ⟨hnd k, by simp, fun a ha b hb => ?_⟩
      rw [List.mem_singleton] at hb
      rintro rfl
      exact hp (hb ▸ ha)
    · simp only [listPush, list_setList]
      exact List.nodup_cons.2 ⟨hp, hnd k⟩
  · split <;> simp [listAdd, listPush, hk, hnd k]

theorem lowerFirst_fileFree {st : PageState}
    (hlf : ∀ k, (st.list1Freepage k).Pairwise fun i j => i.testBit k = true → j.testBit k = true)
    (p n k : Nat) :
    ((fileFree st p n).list1Freepage k).Pairwise
      fun i j => i.testBit k = true → j.testBit k = true := by
  unfold fileFree
  by_cases hk : k = n
  · subst hk
    split
    · rename_i hbit
      simp only [listAdd, list_setList]
      refine List.pairwise_append.2 ⟨hlf k, List.pairwise_singleton _ _, ?_⟩
      intro a _ b hb _
      rw [List.mem_singleton] at hb
      rw [hb]
      exact hbit
    · rename_i hbit
      simp only [listPush, list_setList]
      exact List.pairwise_cons.2 ⟨fun a _ h => absurd h hbit, hlf k⟩
  · split <;> simp [listAdd, listPush, hk, hlf k]

theorem fileFree_of_testBit {st : PageState} {p n : Nat} (h : p.testBit n = true) :
    fileFree st p n = st.listAdd n p := by
  simp [fileFree, h]

def splitState (st : PageState) (p c : Nat) : PageState :=
  ((st.setAllocsize p c).setType (p + 2 ^ c) .free).listAdd c (p + 2 ^ c)

theorem type_splitState (st : PageState) (p c j : Nat) :
    ((splitState st p c).page j).type = if j = p + 2 ^ c then .free else (st.page j).type := by
  simp only [splitState, listAdd, page_setList, page_setType, page_setAllocsize]
  by_cases hjq : j = p + 2 ^ c
  · simp [hjq]
  · by_cases hjp : j = p <;> simp [hjq, hjp]

theorem allocsize_splitState (st : PageState) (p c j : Nat) :
    ((splitState st p c).page j).allocsize = if j = p then c else (st.page j).allocsize := by
  simp only [splitState, listAdd, page_setList, allocsize_setType, page_setAllocsize]
  split <;> rfl

theorem list_splitState (st : PageState) (p c k : Nat) :
    (splitState st p c).list1Freepage k =
      if k = c then st.list1Freepage c ++ [p + 2 ^ c] else st.list1Freepage k := by
  simp [splitState, listAdd]

theorem BlockShape.split {st st' : PageState} (hs : BlockShape st) {p c : Nat} {t : PageType}
    (hpN : p < numOfPages) (hph : (st.page p).type ≠ .notHead)
    (hc : (st.page p).allocsize = c + 1) (ht : t ≠ .notHead)
    (htype : ∀ j, (st'.page j).type = if j = p + 2 ^ c then t else (st.page j).type)
    (halloc : ∀ j, (st'.page j).allocsize = if j = p then c else (st.page j).allocsize) :
    BlockShape st' := by
  obtain ⟨hal, hlt⟩ := hs.head_aligned p hpN hph
  rw [hc] at hal hlt
  have hend := hs.head_end_le hpN hph
  rw [hc, pow_succ] at hend
  have hpos := Nat.two_pow_pos c
  obtain ⟨hqal, hqbit⟩ := Buddy.upper_half hal
  have hpq : p ≠ p + 2 ^ c := by omega
  have hext : ∀ k, p < k → k < p + 2 ^ c * 2 → (st.page k).type = .notHead :=
    fun k hk hk' => hs.head_extent p hpN hph k hk (by rw [hc, pow_succ]; exact hk')
  have hqc : (st.page (p + 2 ^ c)).allocsize = c := by
    obtain ⟨h1, h2⟩ :=
      hs.not_head_level (p + 2 ^ c) (by omega) (hext (p + 2 ^ c) (by omega) (by omega))
    exact Buddy.level_unique h1 h2 hqal hqbit
  have alloc_q : (st'.page (p + 2 ^ c)).allocsize = c := by rw [halloc, if_neg hpq.symm, hqc]
  have alloc_p : (st'.page p).allocsize = c := by rw [halloc, if_pos rfl]
  have type_p : (st'.page p).type = (st.page p).type := by rw [htype, if_neg hpq]
  constructor
  · intro j hj hh
    by_cases hjq : j = p + 2 ^ c
    · subst hjq
      rw [alloc_q]
      exact ⟨hqal, by omega⟩
    · by_cases hjp : j = p
      · subst hjp
        rw [alloc_p]
        exact ⟨Buddy.dvd_of_dvd_two_pow_succ hal, by omega⟩
      · rw [htype, if_neg hjq] at hh
        rw [halloc, if_neg hjp]
        exact hs.head_aligned j hj hh
  · intro h hh hth k hk hk'
    rw [htype]
    split
    · rename_i hkq
      subst hkq
      exfalso
      by_cases hhp : h = p
      · subst hhp
        rw [alloc_p] at hk'
        omega
      · rw [htype, if_neg (by omega)] at hth
        rw [halloc, if_neg hhp] at hk'
        exact hhp (hs.head_eq hh hpN hth hph (le_of_lt hk) hk' (by omega)
          (by rw [hc, pow_succ]; omega))
    · rename_i hkq
      by_cases hhq : h = p + 2 ^ c
      · subst hhq
        rw [alloc_q] at hk'
        exact hext k (by omega) (by omega)
      · by_cases hhp : h = p
        · subst hhp
          rw [alloc_p] at hk'
          exact hext k hk (by omega)
        · rw [htype, if_neg hhq] at hth
          rw [halloc, if_neg hhp] at hk'
          exact hs.head_extent h hh hth k hk hk'
  · intro j hj hnh
    rw [htype] at hnh
    split at hnh
    · exact absurd hnh ht
    · rename_i hjq
      obtain ⟨h, hlt, hth, hjh⟩ := hs.not_head_owned j hj hnh
      have hhq : h ≠ p + 2 ^ c := fun e => hth (e ▸ hext _ (by omega) (by omega))
      by_cases hhp : h = p
      · subst hhp
        rw [hc, pow_succ] at hjh
        by_cases hlow : j < h + 2 ^ c
        · exact ⟨h, hlt, type_p ▸ hph, by rw [alloc_p]; exact hlow⟩
        · refine ⟨h + 2 ^ c, by omega, by rw [htype, if_pos rfl]; exact ht, ?_⟩
          rw [alloc_q]
          omega
      · refine ⟨h, hlt, by rw [htype, if_neg hhq]; exact hth, ?_⟩
        rw [halloc, if_neg hhp]
        exact hjh
  · intro j hj hnh
    rw [htype] at hnh
    split at hnh
    · exact absurd hnh ht
    · have hjp : j ≠ p := by
        rintro rfl
        exact hph hnh
      rw [halloc, if_neg hjp]
      exact hs.not_head_level j hj hnh

theorem PageInv.splitState {st : PageState} (hi : PageInv st) {p c : Nat} (hpN : p < numOfPages)
    (hpf : (st.page p).type ≠ .free) (hph : (st.page p).type ≠ .notHead)
    (hc : (st.page p).allocsize = c + 1) :
    PageInv (splitState st p c) ∧ p + 2 ^ c < numOfPages ∧
      (st.page (p + 2 ^ c)).type = .notHead ∧ (st.page (p + 2 ^ c)).allocsize = c := by
  obtain ⟨hal, -⟩ := hi.head_aligned p hpN hph
  rw [hc] at hal
  have hend := hi.head_end_le hpN hph
  rw [hc, pow_succ] at hend
  have hpos := Nat.two_pow_pos c
  obtain ⟨hqal, hqbit⟩ := Buddy.upper_half hal
  have hqN : p + 2 ^ c < numOfPages := by omega
  have hpq : p ≠ p + 2 ^ c := by omega
  have hqnh : (st.page (p + 2 ^ c)).type = .notHead :=
    hi.head_extent p hpN hph _ (by omega) (by rw [hc, pow_succ]; omega)
  have hqc : (st.page (p + 2 ^ c)).allocsize = c := by
    obtain ⟨h1, h2⟩ := hi.not_head_level _ hqN hqnh
    exact Buddy.level_unique h1 h2 hqal hqbit
  have hb : (p + 2 ^ c) ^^^ 2 ^ c = p := by
    rw [Buddy.xor_two_pow_of_dvd hqal, hqbit]
    simp
  have hnot : ∀ k, p + 2 ^ c ∉ st.list1Freepage k :=
    hi.not_mem_of_not_free (by rw [hqnh]; decide)
  have hpnot : ∀ k, p ∉ st.list1Freepage k := hi.not_mem_of_not_free hpf
  have hfile : Mm.splitState st p c =
      fileFree ((st.setAllocsize p c).setType (p + 2 ^ c) .free) (p + 2 ^ c) c :=
    (fileFree_of_testBit hqbit).symm
  have hblocks : BlockShape (Mm.splitState st p c) :=
    hi.toBlockShape.split hpN hph hc (t := .free) (by decide) (type_splitState st p c)
      (allocsize_splitState st p c)
  refine ⟨⟨⟨hblocks, ?_, ?_, ?_⟩, ?_⟩, hqN, hqnh, hqc⟩
  · intro k j
    rw [hfile, mem_fileFree, ← hfile, type_splitState, allocsize_splitState, list_setType,
      list_setAllocsize, hi.list_mem]
    by_cases hjq : j = p + 2 ^ c
    · subst hjq
      simp [hqN, hqc, eq_comm]
    · by_cases hjp : j = p
      · subst hjp
        simp [hpf]
      · simp [hjq, hjp]
  · intro k
    rw [hfile]
    apply nodup_fileFree
    · exact hi.list_nodup
    · exact hnot c
  · intro k
    rw [hfile]
    apply lowerFirst_fileFree
    exact hi.list_lower_first
  · intro j hj _ hfree hlvl _
    have hqa : ((Mm.splitState st p c).page (p + 2 ^ c)).allocsize = c := by
      rw [allocsize_splitState, if_neg hpq.symm, hqc]
    by_cases hjq : j = p + 2 ^ c
    · subst hjq
      rw [hqa, hb, type_splitState, if_neg hpq]
      exact fun h => hpf h.1
    · rw [type_splitState, if_neg hjq] at hfree
      have hjp : j ≠ p := by
        rintro rfl
        exact hpf hfree
      rw [allocsize_splitState, if_neg hjp] at hlvl ⊢
      rintro ⟨hbf, hbl⟩
      by_cases hbq : j ^^^ 2 ^ (st.page j).allocsize = p + 2 ^ c
      · rw [hbq, hqa] at hbl
        apply hjp
        have h2 := congrArg (· ^^^ 2 ^ (st.page j).allocsize) hbq
        simp only [Nat.xor_xor_cancel_right] at h2
        rw [h2, ← hbl]
        exact hb
      · rw [type_splitState, if_neg hbq] at hbf
        by_cases hbp : j ^^^ 2 ^ (st.page j).allocsize = p
        · rw [hbp] at hbf
          exact hpf hbf
        · rw [allocsize_splitState, if_neg hbp] at hbl
          exact hi.no_free_buddies j hj (by simp) hfree hlvl (by simp) ⟨hbf, hbl⟩

def releaseState (st : PageState) (p n : Nat) : PageState :=
  fileFree (st.setType p .free) p n

theorem settled_releaseState (st : PageState) (p n : Nat) : Settled st (releaseState st p n) := by
  intro j hj
  rw [releaseState, page_fileFree] at hj ⊢
  by_cases hjp : j = p
  · subst hjp
    simp
  · simp [hjp] at hj

theorem PageInv.releaseState {st : PageState} (hi : PageInv st) {p n : Nat} (hpN : p < numOfPages)
    (hpf : (st.page p).type ≠ .free) (hph : (st.page p).type ≠ .notHead)
    (hn : (st.page p).allocsize = n) :
    PageShape (Mm.releaseState st p n) ∧ FreeBuddiesApart (Mm.releaseState st p n) (some p) := by
  have hpnot : ∀ k, p ∉ st.list1Freepage k := hi.not_mem_of_not_free hpf
  have hblocks : BlockShape (st.setType p .free) := hi.toBlockShape.setType hph (by decide)
  refine ⟨⟨hblocks.congr (by simp [Mm.releaseState]), ?_, ?_, ?_⟩, ?_⟩
  · intro k j
    rw [Mm.releaseState, mem_fileFree, page_fileFree, page_setType]
    by_cases hjp : j = p
    · subst hjp
      by_cases hk : k = n
      · simp [hk, hpN, hn]
      · simp [hk, Ne.symm hk, hpnot, hn]
    · simp only [hjp, if_false, and_false, false_or]
      exact hi.list_mem k j
  · intro k
    rw [Mm.releaseState]
    exact @nodup_fileFree (st.setType p .free) hi.list_nodup p n (hpnot n) k
  · intro k
    rw [Mm.releaseState]
    exact @lowerFirst_fileFree (st.setType p .free) hi.list_lower_first p n k
  · intro j hj hje hfree hlvl hbe
    have hjp : j ≠ p := fun h => hje (congrArg some h)
    have hpj : (Mm.releaseState st p n).page j = st.page j := by
      rw [Mm.releaseState, page_fileFree, page_setType, if_neg hjp]
    rw [hpj] at hfree hlvl hbe ⊢
    have hbp : j ^^^ 2 ^ (st.page j).allocsize ≠ p := fun h => hbe (congrArg some h)
    rw [Mm.releaseState, page_fileFree, page_setType, if_neg hbp]
    exact hi.no_free_buddies j hj (by simp) hfree hlvl (by simp)

theorem BlockShape.join {st st' : PageState} (hs : BlockShape st) {l n : Nat}
    (hlN : l < numOfPages) (hal : 2 ^ (n + 1) ∣ l) (hn : n + 1 < numOfAllocsize)
    (hl : (st.page l).type ≠ .notHead) (hla : (st.page l).allocsize = n)
    (hu : (st.page (l + 2 ^ n)).type ≠ .notHead) (hua : (st.page (l + 2 ^ n)).allocsize = n)
    (htype : ∀ j, (st'.page j).type = if j = l + 2 ^ n then .notHead else (st.page j).type)
    (halloc : ∀ j, (st'.page j).allocsize = if j = l then n + 1 else (st.page j).allocsize) :
    BlockShape st' := by
  have hpos := Nat.two_pow_pos n
  have hlu : l ≠ l + 2 ^ n := by omega
  have hext : ∀ k, l < k → k < l + 2 ^ (n + 1) → k ≠ l + 2 ^ n → (st.page k).type = .notHead := by
    intro k hk hk' hku
    rw [pow_succ] at hk'
    by_cases hlow : k < l + 2 ^ n
    · exact hs.head_extent l hlN hl k hk (by rw [hla]; exact hlow)
    · have hend : l + 2 ^ (n + 1) ≤ numOfPages :=
        Buddy.add_le_of_dvd_of_lt hal (by rw [numOfPages_eq]; exact pow_dvd_pow 2 (by simp only [numOfAllocsize] at hn; omega)) hlN
      rw [pow_succ] at hend
      exact hs.head_extent _ (by omega) hu k (by omega) (by rw [hua]; omega)
  have head_l : (st'.page l).type ≠ .notHead := by rw [htype, if_neg hlu]; exact hl
  constructor
  · intro j hj hh
    rw [htype] at hh
    have hju : j ≠ l + 2 ^ n := fun h => hh (if_pos h)
    rw [if_neg hju] at hh
    rw [halloc]
    by_cases hjl : j = l
    · rw [if_pos hjl, hjl]
      exact ⟨hal, hn⟩
    · rw [if_neg hjl]
      exact hs.head_aligned j hj hh
  · intro h hh hth k hk hk'
    rw [htype] at hth ⊢
    have hhu : h ≠ l + 2 ^ n := fun e => hth (if_pos e)
    rw [if_neg hhu] at hth
    split
    · rfl
    · rename_i hku
      rw [halloc] at hk'
      split at hk'
      · rename_i hhl
        subst hhl
        exact hext k hk hk' hku
      · exact hs.head_extent h hh hth k hk hk'
  · intro j hj hnh
    rw [htype] at hnh
    split at hnh
    · rename_i hju
      subst hju
      refine ⟨l, by omega, head_l, ?_⟩
      rw [halloc, if_pos rfl, pow_succ]
      omega
    · rename_i hju
      obtain ⟨h, hlt, hth, hjh⟩ := hs.not_head_owned j hj hnh
      by_cases hhu : h = l + 2 ^ n
      · subst hhu
        refine ⟨l, by omega, head_l, ?_⟩
        rw [halloc, if_pos rfl, pow_succ]
        rw [hua] at hjh
        omega
      · by_cases hhl : h = l
        · subst hhl
          refine ⟨h, hlt, head_l, ?_⟩
          rw [halloc, if_pos rfl, pow_succ]
          rw [hla] at hjh
          omega
        · refine ⟨h, hlt, by rw [htype, if_neg hhu]; exact hth, ?_⟩
          rw [halloc, if_neg hhl]
          exact hjh
  · intro j hj hnh
    rw [htype] at hnh
    rw [halloc]
    split at hnh
    · rename_i hju
      subst hju
      rw [if_neg (Ne.symm hlu), hua]
      exact Buddy.upper_half hal
    · have hjl : j ≠ l := by
        rintro rfl
        exact hl hnh
      rw [if_neg hjl]
      exact hs.not_head_level j hj hnh

def mergeState (st : PageState) (l n : Nat) : PageState :=
  fileFree ((((st.listDel n l).listDel n (l + 2 ^ n)).setType (l + 2 ^ n) .notHead).setAllocsize
    l (n + 1)) l (n + 1)

theorem type_mergeState (st : PageState) (l n j : Nat) :
    ((mergeState st l n).page j).type = if j = l + 2 ^ n then .notHead else (st.page j).type := by
  simp only [mergeState, page_fileFree, page_setAllocsize, page_setType, listDel, page_setList]
  by_cases hju : j = l + 2 ^ n
  · subst hju
    simp
  · by_cases hjl : j = l <;> simp [hju, hjl]

theorem allocsize_mergeState (st : PageState) (l n j : Nat) :
    ((mergeState st l n).page j).allocsize = if j = l then n + 1 else (st.page j).allocsize := by
  simp only [mergeState, page_fileFree, page_setAllocsize, page_setType, listDel, page_setList]
  by_cases hjl : j = l
  · simp [hjl]
  · by_cases hju : j = l + 2 ^ n <;> simp [hju, hjl]

theorem settled_mergeState {st : PageState} {l n : Nat} (hl : (st.page l).type = .free) :
    Settled st (mergeState st l n) := by
  intro j hj
  rw [type_mergeState]
  split
  · exact Or.inr rfl
  · rename_i hju
    by_cases hjl : j = l
    · subst hjl
      exact Or.inl hl
    · exfalso
      apply hj
      simp only [mergeState, page_fileFree, page_setAllocsize, page_setType, listDel, page_setList]
      simp [hjl, hju]

theorem PageShape.mergeState {st : PageState} (hs : PageShape st) {p l n : Nat}
    (hb : FreeBuddiesApart st (some p)) (hp : p = l ∨ p = l + 2 ^ n)
    (hlN : l < numOfPages) (hal : 2 ^ (n + 1) ∣ l) (hn : n + 1 < numOfAllocsize)
    (hl : (st.page l).type = .free) (hla : (st.page l).allocsize = n)
    (hu : (st.page (l + 2 ^ n)).type = .free) (hua : (st.page (l + 2 ^ n)).allocsize = n) :
    PageShape (Mm.mergeState st l n) ∧ FreeBuddiesApart (Mm.mergeState st l n) (some l) := by
  have hpos := Nat.two_pow_pos n
  have hlu : l ≠ l + 2 ^ n := by omega
  have hnd := hs.list_nodup
  have hblocks : BlockShape (Mm.mergeState st l n) :=
    hs.toBlockShape.join hlN hal hn (by rw [hl]; decide) hla (by rw [hu]; decide) hua
      (type_mergeState st l n) (allocsize_mergeState st l n)
  refine ⟨⟨hblocks, ?_, ?_, ?_⟩, ?_⟩
  · intro k j
    rw [Mm.mergeState, mem_fileFree, list_setAllocsize, list_setType,
      mem_listDel (nodup_listDel hnd n l n), mem_listDel (hnd n), hs.list_mem,
      ← Mm.mergeState, type_mergeState, allocsize_mergeState]
    by_cases hjl : j = l
    · subst hjl
      simp [hla, hl, hlN]
      omega
    · by_cases hju : j = l + 2 ^ n
      · subst hju
        simp [hua]
        omega
      · simp [hjl, hju]
  · intro k
    rw [Mm.mergeState]
    apply nodup_fileFree
    · exact nodup_listDel (nodup_listDel hnd n l) n (l + 2 ^ n)
    · intro hm
      have h₁ := ((mem_listDel (nodup_listDel hnd n l n) _ _).1 hm).1
      have h₂ := ((hs.list_mem (n + 1) l).1 ((mem_listDel (hnd n) _ _).1 h₁).1).2.2
      omega
  · intro k
    rw [Mm.mergeState]
    apply lowerFirst_fileFree
    exact lowerFirst_listDel (lowerFirst_listDel hs.list_lower_first n l) n _
  · intro j hj hje hfree hlvl hbe
    rw [type_mergeState] at hfree
    have hju : j ≠ l + 2 ^ n := fun h => by rw [if_pos h] at hfree; exact absurd hfree (by decide)
    have hjl : j ≠ l := fun h => hje (congrArg some h)
    rw [if_neg hju] at hfree
    rw [allocsize_mergeState, if_neg hjl] at hlvl hbe ⊢
    have hbl : j ^^^ 2 ^ (st.page j).allocsize ≠ l := fun h => hbe (congrArg some h)
    rw [type_mergeState, allocsize_mergeState, if_neg hbl]
    split
    · exact fun h => absurd h.1 (by decide)
    · rename_i hbu
      have hjp : some j ≠ some p := by rcases hp with rfl | rfl <;> simp [hjl, hju]
      have hbp : some (j ^^^ 2 ^ (st.page j).allocsize) ≠ some p := by
        rcases hp with rfl | rfl <;> simp [hbl, hbu]
      exact hb j hj hjp hfree hlvl hbp

theorem FreeBuddiesApart.close {st : PageState} {p n : Nat} (h : FreeBuddiesApart st (some p))
    (hpn : (st.page p).allocsize = n)
    (hq : n + 1 < numOfAllocsize →
      ¬((st.page (p ^^^ 2 ^ n)).type = .free ∧ (st.page (p ^^^ 2 ^ n)).allocsize = n)) :
    FreeBuddiesApart st none := by
  intro j hj _ hfree hlvl _
  by_cases hjp : j = p
  · subst hjp
    rw [hpn] at hlvl ⊢
    exact hq hlvl
  · by_cases hbp : j ^^^ 2 ^ (st.page j).allocsize = p
    · rintro ⟨-, hba⟩
      rw [hbp, hpn] at hba
      have hj' : p ^^^ 2 ^ n = j := by rw [← hbp, hba, Nat.xor_xor_cancel_right]
      rw [← hba] at hlvl
      exact hq hlvl ⟨hj' ▸ hfree, by rw [hj']; exact hba.symm⟩
    · exact h j hj (by simpa using hjp) hfree hlvl (by simpa using hbp)

theorem PageInv.take {st : PageState} (hi : PageInv st) {p n : Nat} {t : PageType}
    (hp : p ∈ st.list1Freepage n) (ht : t ≠ .free) (ht' : t ≠ .notHead) :
    PageInv ((st.listDel n p).setType p t) :=
  ⟨hi.toPageShape.take hp ht ht', (hi.no_free_buddies.setList _ _).setType ht⟩

theorem PageInv.retype {st : PageState} (hi : PageInv st) {p : Nat} {t : PageType}
    (hpf : (st.page p).type ≠ .free) (hph : (st.page p).type ≠ .notHead)
    (ht : t ≠ .free) (ht' : t ≠ .notHead) : PageInv (st.setType p t) := by
  refine ⟨⟨hi.toBlockShape.setType hph ht', ?_, hi.list_nodup, hi.list_lower_first⟩,
    hi.no_free_buddies.setType ht⟩
  intro k j
  rw [list_setType, hi.list_mem, page_setType]
  by_cases hjp : j = p
  · subst hjp
    simp [hpf, ht]
  · simp [hjp]

/-- Every page reserved and every list empty. -/
theorem mmInit_inv : PageInv mmInit := by
  refine ⟨⟨⟨?_, ?_, ?_, ?_⟩, ?_, ?_, ?_⟩, ?_⟩
  · intro j _ _
    exact ⟨by simp [mmInit, page], by simp [mmInit, page, numOfAllocsize]⟩
  · intro h _ _ k hk hk'
    simp only [mmInit, page, pow_zero] at hk'
    omega
  · intro j _ hnh
    simp [mmInit, page] at hnh
  · intro j _ hnh
    simp [mmInit, page] at hnh
  · intro n j
    simp [mmInit, page]
  · intro n
    simp [mmInit]
  · intro n
    simp [mmInit]
  · intro j _ _ hfree
    simp [mmInit, page] at hfree

end Bitvisor.Mm
