import Bitvisor.Mm.PageFree

namespace Bitvisor.Mm

open PageState

theorem mmPageFree2ndhalf_eq {st : PageState} (hs : BlockShape st) {p c : Nat}
    (hpN : p < numOfPages) (hph : (st.page p).type ≠ .notHead) (hc : (st.page p).allocsize = c + 1) :
    mmPageFree2ndhalf st p = some (splitState st p c, p + 2 ^ c) := by
  obtain ⟨hal, hlt⟩ := hs.head_aligned p hpN hph
  have hend := hs.head_end_le hpN hph
  rw [hc] at hal hlt hend
  have hcN : c < numOfAllocsize := by omega
  have hal' := Buddy.dvd_of_dvd_two_pow_succ hal
  have hbit : p.testBit c = false := (Buddy.dvd_two_pow_succ_iff hal').1 hal
  have hor : p ||| 2 ^ c = p + 2 ^ c := Buddy.or_two_pow_of_dvd hal' hbit
  have hqN : p + 2 ^ c < numOfPages := by
    rw [pow_succ] at hend
    have := Nat.two_pow_pos c
    omega
  have hguard : ¬(pageToVirt p &&& 4096 <<< c ≠ 0) := by
    rw [pageToVirt_and_ne_zero hpN hcN, hbit]
    decide
  simp only [mmPageFree2ndhalf, hc, Nat.add_one_ne_zero, if_false, Nat.add_sub_cancel,
    mmPageGetAllocsize, if_pos hcN, if_neg hguard, pageToVirt_or hpN hcN, hor,
    virtToPage_pageToVirt, if_pos hqN, splitState]

theorem mmPageFree2ndhalf_inv {st st' : PageState} (hi : PageInv st) {p q : Nat}
    (hpN : p < numOfPages) (hpf : (st.page p).type ≠ .free) (hph : (st.page p).type ≠ .notHead)
    (h : mmPageFree2ndhalf st p = some (st', q)) :
    PageInv st' ∧ (st'.page p).type = (st.page p).type ∧ p < q ∧ q < numOfPages := by
  cases hc : (st.page p).allocsize with
  | zero => simp [mmPageFree2ndhalf, hc] at h
  | succ c =>
    rw [mmPageFree2ndhalf_eq hi.toBlockShape hpN hph hc] at h
    obtain ⟨rfl, rfl⟩ := Prod.mk.inj (Option.some.inj h)
    have hpq : p ≠ p + 2 ^ c := by have := Nat.two_pow_pos c; omega
    have hsplit := hi.splitState hpN hpf hph hc
    have := Nat.two_pow_pos c
    refine ⟨hsplit.1, by rw [type_splitState, if_neg hpq], by omega, hsplit.2.1⟩

theorem mmPageFree2ndhalf_eq_some {st st' : PageState} {p q : Nat} (hpN : p < numOfPages)
    (h : mmPageFree2ndhalf st p = some (st', q)) :
    p < q ∧ st' = ((st.setAllocsize p ((st.page p).allocsize - 1)).setType q .free).listAdd
      ((st.page p).allocsize - 1) q := by
  simp only [mmPageFree2ndhalf] at h
  split at h
  · cases h
  · split at h
    · cases h
    · rename_i s hs
      obtain ⟨hcN, rfl⟩ := mmPageGetAllocsize_eq_some.1 hs
      split at h
      · cases h
      · rename_i hguard
        split at h
        · cases h
        · rename_i q' hq'
          cases h
          set c := (st.page p).allocsize - 1
          have hbit : p.testBit c = false := by
            rw [pageToVirt_and_ne_zero hpN hcN] at hguard
            simpa using hguard
          rw [pageToVirt_or hpN hcN, virtToPage_pageToVirt] at hq'
          have hq : q = p ||| 2 ^ c := by
            split at hq'
            · exact (Option.some.inj hq').symm
            · cases hq'
          exact ⟨hq ▸ Buddy.lt_or_two_pow hbit, rfl⟩

theorem mmPageFree2ndhalf_type {st st' : PageState} {p q : Nat} (hpN : p < numOfPages)
    (h : mmPageFree2ndhalf st p = some (st', q)) : (st'.page p).type = (st.page p).type := by
  obtain ⟨hpq, rfl⟩ := mmPageFree2ndhalf_eq_some hpN h
  simp [Nat.ne_of_lt hpq]

theorem mmPageFree2ndhalf_page_of_lt {st st' : PageState} {p q j : Nat} (hpN : p < numOfPages)
    (hj : j < p) (h : mmPageFree2ndhalf st p = some (st', q)) : st'.page j = st.page j := by
  obtain ⟨hpq, rfl⟩ := mmPageFree2ndhalf_eq_some hpN h
  simp [Nat.ne_of_lt hj, Nat.ne_of_lt (hj.trans hpq)]

theorem splitTo_rel (R : PageState → PageState → Prop) (hrefl : ∀ st, R st st)
    (htrans : ∀ st₁ st₂ st₃, R st₁ st₂ → R st₂ st₃ → R st₁ st₃) {p n : Nat}
    (hstep : ∀ st st' q, mmPageFree2ndhalf st p = some (st', q) → R st st') :
    ∀ fuel (st st' : PageState), splitTo st p n fuel = some st' → R st st' := by
  intro fuel
  induction fuel with
  | zero =>
    intro st st' h
    cases h
    exact hrefl st
  | succ fuel ih =>
    intro st st' h
    simp only [splitTo] at h
    split at h
    · split at h
      · rename_i st₁ q h₁
        exact htrans _ _ _ (hstep st st₁ q h₁) (ih st₁ st' h)
      · cases h
    · cases h
      exact hrefl st

theorem splitTo_type {p n : Nat} (hpN : p < numOfPages) :
    ∀ fuel (st st' : PageState), splitTo st p n fuel = some st' →
      (st'.page p).type = (st.page p).type :=
  splitTo_rel (fun st st' => (st'.page p).type = (st.page p).type) (fun _ => rfl)
    (fun _ _ _ h₁ h₂ => h₂.trans h₁) (fun _ _ _ h => mmPageFree2ndhalf_type hpN h)

theorem splitTo_page_of_lt {p n : Nat} (hpN : p < numOfPages) :
    ∀ fuel (st st' : PageState), splitTo st p n fuel = some st' →
      ∀ j < p, st'.page j = st.page j :=
  splitTo_rel (fun st st' => ∀ j < p, st'.page j = st.page j) (fun _ _ _ => rfl)
    (fun _ _ _ h₁ h₂ j hj => (h₂ j hj).trans (h₁ j hj))
    (fun _ _ _ h _ hj => mmPageFree2ndhalf_page_of_lt hpN hj h)

theorem kept_splitState {st : PageState} (hs : BlockShape st) {p c : Nat} (hpN : p < numOfPages)
    (hph : (st.page p).type ≠ .notHead) (hc : (st.page p).allocsize = c + 1) :
    Kept (· = p) st (splitState st p c) := by
  intro j hjp hl
  have hjq : j ≠ p + 2 ^ c := by
    rintro rfl
    refine hl (Or.inr (hs.head_extent p hpN hph _ (Nat.lt_add_of_pos_right (Nat.two_pow_pos c)) ?_))
    rw [hc, pow_succ]
    omega
  simp [splitState, listAdd, hjp, hjq]

theorem splitTo_spec {p n : Nat} (hpN : p < numOfPages) :
    ∀ fuel (st : PageState), PageInv st → (st.page p).type ≠ .free →
      (st.page p).type ≠ .notHead →
      ∃ st', splitTo st p n fuel = some st' ∧ PageInv st' ∧
        (st'.page p).type = (st.page p).type ∧
        (n ≤ (st.page p).allocsize → (st.page p).allocsize ≤ n + fuel →
          (st'.page p).allocsize = n) ∧ Kept (· = p) st st' := by
  intro fuel
  induction fuel with
  | zero =>
    intro st hi _ _
    exact ⟨st, rfl, hi, rfl, fun h₁ h₂ => by omega, Kept.refl _ st⟩
  | succ fuel ih =>
    intro st hi hpf hph
    simp only [splitTo]
    split
    · rename_i hgt
      obtain ⟨c, hc⟩ : ∃ c, (st.page p).allocsize = c + 1 := ⟨_, (Nat.succ_pred_eq_of_pos
        (lt_of_le_of_lt (Nat.zero_le n) hgt)).symm⟩
      rw [mmPageFree2ndhalf_eq hi.toBlockShape hpN hph hc]
      have hsplit := hi.splitState hpN hpf hph hc
      have hpq : p ≠ p + 2 ^ c := by have := Nat.two_pow_pos c; omega
      have ht : ((splitState st p c).page p).type = (st.page p).type := by
        rw [type_splitState, if_neg hpq]
      have ha : ((splitState st p c).page p).allocsize = c := by
        rw [allocsize_splitState, if_pos rfl]
      obtain ⟨st', h', hi', ht', ha', hk'⟩ := ih _ hsplit.1 (ht ▸ hpf) (ht ▸ hph)
      refine ⟨st', h', hi', ht'.trans ht, fun _ h₂ => ?_,
        (kept_splitState hi.toBlockShape hpN hph hc).trans hk'⟩
      rw [ha] at ha'
      exact ha' (by omega) (by omega)
    · rename_i hle
      exact ⟨st, rfl, hi, rfl, fun h₁ _ => by omega, Kept.refl _ st⟩

theorem mmPageFree2ndhalf_setType (st : PageState) {x p : Nat} (t : PageType)
    (hpN : p < numOfPages) (hxp : x ≤ p) :
    mmPageFree2ndhalf (st.setType x t) p =
      (mmPageFree2ndhalf st p).map fun r => (r.1.setType x t, r.2) := by
  simp only [mmPageFree2ndhalf, allocsize_setType]
  split
  · rfl
  · split
    · rfl
    · rename_i s hs
      obtain ⟨hcN, rfl⟩ := mmPageGetAllocsize_eq_some.1 hs
      split
      · rfl
      · rename_i hguard
        set c := (st.page p).allocsize - 1
        rw [pageToVirt_or hpN hcN, virtToPage_pageToVirt]
        by_cases hqN : p ||| 2 ^ c < numOfPages
        · have hbit : p.testBit c = false := by
            rw [pageToVirt_and_ne_zero hpN hcN] at hguard
            simpa using hguard
          have hxq : p ||| 2 ^ c ≠ x := by have := Buddy.lt_or_two_pow hbit; omega
          simp only [if_pos hqN, Option.map_some, Option.some.injEq, Prod.mk.injEq, and_true]
          rw [← setAllocsize_setType_comm, setType_setType_comm _ (Ne.symm hxq)]
          rfl
        · simp only [if_neg hqN, Option.map_none]

theorem splitTo_setType (t : PageType) {x p n : Nat} (hpN : p < numOfPages) (hxp : x ≤ p) :
    ∀ fuel (st : PageState),
      splitTo (st.setType x t) p n fuel = (splitTo st p n fuel).map (·.setType x t) := by
  intro fuel
  induction fuel with
  | zero => intro st; rfl
  | succ fuel ih =>
    intro st
    simp only [splitTo, allocsize_setType, mmPageFree2ndhalf_setType st t hpN hxp]
    split
    · cases mmPageFree2ndhalf st p with
      | none => rfl
      | some r => exact ih r.1
    · rfl

theorem setList_pop {st : PageState} {i p : Nat} {rest : List Nat}
    (h : st.list1Freepage i = p :: rest) : st.setList i rest = st.listDel i p := by
  simp [listDel, h]

theorem mmPageAllocSub_eq_some {st st' : PageState} {n p : Nat}
    (h : mmPageAllocSub st n = some (some (st', p))) :
    ∃ i rest, n ≤ i ∧ st.list1Freepage i = p :: rest ∧
      splitTo (st.setList i rest) p n (st.page p).allocsize = some st' := by
  unfold mmPageAllocSub at h
  split at h
  · cases h
  · rename_i i hfind
    have hi : n ≤ i := (List.mem_range'_1.1 (List.mem_of_find?_eq_some hfind)).1
    split at h
    · cases h
    · rename_i p' rest hl
      obtain ⟨st'', hsplit, heq⟩ := Option.map_eq_some_iff.1 h
      cases heq
      exact ⟨i, rest, hi, hl, hsplit⟩

theorem mmPageAllocSub_setType {st st' : PageState} (hi : PageInv st) {n p : Nat} {t : PageType}
    (ht : t ≠ .free) (ht' : t ≠ .notHead) (h : mmPageAllocSub st n = some (some (st', p))) :
    p < numOfPages ∧ PageInv (st'.setType p t) ∧ ((st'.setType p t).page p).type = t ∧
      ((st'.setType p t).page p).allocsize = n ∧ (st.page p).type = .free ∧
      Kept (fun _ => False) st (st'.setType p t) := by
  obtain ⟨i, rest, hni, hl, hsplit⟩ := mmPageAllocSub_eq_some h
  have hp : p ∈ st.list1Freepage i := by simp [hl]
  obtain ⟨hpN, hpfree, hpi⟩ := (hi.list_mem i p).1 hp
  have hsplit' : splitTo ((st.listDel i p).setType p t) p n (st.page p).allocsize =
      some (st'.setType p t) := by
    rw [← setList_pop hl, splitTo_setType t hpN le_rfl, hsplit]
    rfl
  have hi₀ := hi.take hp ht ht'
  obtain ⟨st₂, h₂, hi', ht'', ha'', hk⟩ := splitTo_spec hpN _ _ hi₀ (by simp [ht]) (by simp [ht'])
  rw [h₂] at hsplit'
  cases hsplit'
  have hk₀ : Kept (· = p) st ((st.listDel i p).setType p t) :=
    (Kept.of_page_eq fun _ _ => rfl).trans (Kept.setType _ p t)
  have hloose : ∀ j, j = p → Loose st j := by
    rintro j rfl
    exact Or.inl hpfree
  refine ⟨hpN, hi', by rw [ht'']; simp, ha'' ?_ ?_, hpfree, (hk₀.trans hk).of_loose hloose⟩ <;>
    simp [hpi, hni]

/-- `mm_page_alloc (n)` keeps the invariant, hands out an aligned block of
exactly `2 ^ n` pages inside the page array, typed `ALLOCATED`, and writes
only pages that were free or `NOT_HEAD`. -/
theorem mmPageAlloc_spec {st st' : PageState} (hi : PageInv st) {n p : Nat}
    (h : mmPageAlloc st n = some (st', p)) :
    PageInv st' ∧ p < numOfPages ∧ (st'.page p).type = .allocated ∧ (st'.page p).allocsize = n ∧
      2 ^ n ∣ p ∧ p + 2 ^ n ≤ numOfPages ∧ (st.page p).type = .free ∧
      Kept (fun _ => False) st st' := by
  unfold mmPageAlloc at h
  split at h
  · split at h
    · rename_i st₁ p₁ hsub
      dsimp only at h
      split at h
      · cases h
        obtain ⟨hpN, hi', ht, ha, hpfree, hk⟩ := mmPageAllocSub_setType hi (t := .allocated)
          (by decide) (by decide) hsub
        have hhead : ((st₁.setType p .allocated).page p).type ≠ .notHead := by rw [ht]; decide
        have hal := (hi'.head_aligned p hpN hhead).1
        have hend := hi'.head_end_le hpN hhead
        rw [ha] at hal hend
        exact ⟨hi', hpN, ht, ha, hal, hend, hpfree, hk⟩
      · cases h
    · cases h
  · cases h

theorem mmPageAlloc_inv {st st' : PageState} (hi : PageInv st) {n p : Nat}
    (h : mmPageAlloc st n = some (st', p)) : PageInv st' :=
  (mmPageAlloc_spec hi h).1

/-- `mm_page_alloc (n)` hands out an aligned block of exactly `2 ^ n` pages
inside the page array, typed `ALLOCATED`. -/
theorem mmPageAlloc_block {st st' : PageState} (hi : PageInv st) {n p : Nat}
    (h : mmPageAlloc st n = some (st', p)) :
    p < numOfPages ∧ (st'.page p).type = .allocated ∧ (st'.page p).allocsize = n ∧
      2 ^ n ∣ p ∧ p + 2 ^ n ≤ numOfPages := by
  obtain ⟨-, hpN, ht, ha, hal, hend, -⟩ := mmPageAlloc_spec hi h
  exact ⟨hpN, ht, ha, hal, hend⟩

theorem mmPageFree_zero_inv : PageInv ((mmPageFree mmInit 0).getD mmInit) :=
  mmPageFree_inv (p := 0) mmInit_inv (by decide) rfl

theorem mmPageAlloc_block_zero :
    ∃ st' p, mmPageAlloc ((mmPageFree mmInit 0).getD mmInit) 0 = some (st', p) ∧
      (st'.page p).type = .allocated ∧ (st'.page p).allocsize = 0 := by
  obtain ⟨st', p, h⟩ : ∃ st' p,
      mmPageAlloc ((mmPageFree mmInit 0).getD mmInit) 0 = some (st', p) := ⟨_, _, rfl⟩
  obtain ⟨-, ht, ha, -⟩ := mmPageAlloc_block mmPageFree_zero_inv h
  exact ⟨st', p, h, ht, ha⟩

theorem mmPageAllocSub_some {st : PageState} (hi : PageInv st) {n i : Nat} (hni : n ≤ i)
    (hi13 : i < numOfAllocsize) (hne : st.list1Freepage i ≠ []) :
    ∃ st' p, mmPageAllocSub st n = some (some (st', p)) := by
  unfold mmPageAllocSub
  obtain ⟨i', hfind⟩ : ∃ i', (List.range' n (numOfAllocsize - n)).find?
      (fun i => st.list1Freepage i ≠ []) = some i' := by
    apply Option.ne_none_iff_exists'.1
    rw [Ne, List.find?_eq_none]
    intro hnone
    exact hnone i (List.mem_range'_1.2 ⟨hni, by omega⟩) (by simpa using hne)
  rw [hfind]
  have hne' : st.list1Freepage i' ≠ [] := by simpa using List.find?_some hfind
  obtain ⟨p, rest, hl⟩ := List.exists_cons_of_ne_nil hne'
  simp only [hl]
  have hp : p ∈ st.list1Freepage i' := by simp [hl]
  have hpN := ((hi.list_mem i' p).1 hp).1
  obtain ⟨st₂, h₂, -⟩ := splitTo_spec hpN (n := n) (st.page p).allocsize _
    (hi.take hp (t := .allocated) (by decide) (by decide)) (by simp) (by simp)
  rw [← setList_pop hl, splitTo_setType .allocated hpN le_rfl] at h₂
  obtain ⟨st₁, h₁, -⟩ := Option.map_eq_some_iff.1 h₂
  simp only [page_setList, h₁, Option.map_some]
  exact ⟨st₁, p, rfl⟩

/-- `mm_page_alloc (n)` only runs out of memory when no list from level `n`
up holds a block. -/
theorem mmPageAlloc_some {st : PageState} (hi : PageInv st) {n i : Nat} (hni : n ≤ i)
    (hi13 : i < numOfAllocsize) (hne : st.list1Freepage i ≠ []) :
    ∃ st' p, mmPageAlloc st n = some (st', p) := by
  obtain ⟨st₁, p, hsub⟩ := mmPageAllocSub_some hi hni hi13 hne
  obtain ⟨i', rest, -, hl, hsplit⟩ := mmPageAllocSub_eq_some hsub
  have hp : p ∈ st.list1Freepage i' := by simp [hl]
  obtain ⟨hpN, hpfree, -⟩ := (hi.list_mem i' p).1 hp
  have hfree : (st₁.page p).type = .free := by
    rw [splitTo_type hpN _ _ _ hsplit, page_setList, hpfree]
  unfold mmPageAlloc
  rw [if_pos (by omega), hsub]
  dsimp only
  rw [if_pos hfree]
  exact ⟨_, _, rfl⟩

theorem mmPageAlloc_some_zero :
    ∃ st' p, mmPageAlloc ((mmPageFree mmInit 0).getD mmInit) 0 = some (st', p) :=
  mmPageAlloc_some mmPageFree_zero_inv (i := 0) le_rfl (by decide) (by decide)

theorem contSearch_eq_some {st : PageState} {m n : Nat} (hn : n < numOfAllocsize) :
    ∀ (l : List Nat) (p q : Nat), (∀ j ∈ l, j < numOfPages) →
      contSearch st m (4096 <<< n) l = some (some (p, q)) →
      p ∈ l ∧ p.testBit n = false ∧ q = p ||| 2 ^ n ∧ q < numOfPages ∧
        (st.page q).type = .free ∧ m ≤ (st.page q).allocsize := by
  intro l
  induction l with
  | nil =>
    intro p q _ h
    cases h
  | cons p' ps ih =>
    intro p q hl h
    have hpN := hl p' (List.mem_cons_self ..)
    simp only [contSearch] at h
    split at h
    · cases h
    · rename_i hguard
      have hbit : p'.testBit n = false := by
        rw [pageToVirt_and_ne_zero hpN hn] at hguard
        simpa using hguard
      split at h
      · cases h
      · rename_i q' hq'
        have hqN := virtToPage_eq_some hq'
        have hq : q' = p' ||| 2 ^ n := by
          rw [pageToVirt_or hpN hn, virtToPage_pageToVirt] at hq'
          split at hq'
          · exact (Option.some.inj hq').symm
          · cases hq'
        by_cases hfree : (st.page q').type = .free ∧ (st.page q').allocsize ≥ m
        · rw [if_pos hfree] at h
          cases h
          exact ⟨List.mem_cons_self .., hbit, hq, hqN, hfree⟩
        · rw [if_neg hfree] at h
          obtain ⟨hm, hrest⟩ := ih p q (fun j hj => hl j (List.mem_cons_of_mem _ hj)) h
          exact ⟨List.mem_cons_of_mem _ hm, hrest⟩

theorem found_eq_some {st st' : PageState} {m p q r : Nat} (hqN : q < numOfPages)
    (h : mmPageAllocCont.found m st p q = some (st', r)) :
    r = p ∧ (st.page p).type = .free ∧ (st.page q).type = .free ∧
      splitTo (((st.setType p .allocatedCont).listDel (st.page q).allocsize q).setType q .allocated)
        q m (st.page q).allocsize = some st' := by
  unfold mmPageAllocCont.found at h
  dsimp only at h
  split at h
  · cases h
  · rename_i st₃ hsplit
    split at h
    · rename_i hold
      cases h
      simp only [page_listDel] at hold
      refine ⟨rfl, hold.1, hold.2, ?_⟩
      simp only [allocsize_setType, page_listDel] at hsplit
      have hcomm : (st.setType p .allocatedCont).listDel (st.page q).allocsize q =
          (st.listDel (st.page q).allocsize q).setType p .allocatedCont := rfl
      rw [splitTo_setType .allocated hqN le_rfl, hcomm, hsplit]
      rfl
    · cases h

theorem found_spec {st st' : PageState} {m p q r : Nat}
    (hi : PageInv (st.setType p .allocatedCont)) (hqN : q < numOfPages) (hpq : p < q)
    (h : mmPageAllocCont.found m st p q = some (st', r)) :
    PageInv st' ∧ r = p ∧ st'.page p = (st.setType p .allocatedCont).page p ∧
      (st'.page q).type = .allocated ∧
      (m ≤ (st.page q).allocsize → (st'.page q).allocsize = m) ∧ Kept (fun _ => False) st st' := by
  obtain ⟨hr, hpfree, hqfree, hsplit⟩ := found_eq_some hqN h
  have hq : q ∈ (st.setType p .allocatedCont).list1Freepage (st.page q).allocsize := by
    rw [hi.list_mem]
    refine ⟨hqN, ?_, allocsize_setType st p .allocatedCont q⟩
    rw [page_setType, if_neg (Nat.ne_of_gt hpq)]
    exact hqfree
  have hi₂ := hi.take hq (t := .allocated) (by decide) (by decide)
  obtain ⟨st₄, h₄, hi₄, ht₄, ha₄, hk₄⟩ := splitTo_spec hqN _ _ hi₂ (by simp) (by simp)
  rw [h₄] at hsplit
  cases hsplit
  have hp : st'.page p = (st.setType p .allocatedCont).page p := by
    rw [splitTo_page_of_lt hqN _ _ _ h₄ p hpq]
    simp [Nat.ne_of_lt hpq]
  have hk : Kept (fun j => j = p ∨ j = q) st st' :=
    ((Kept.setType st p .allocatedCont).mono fun _ h => Or.inl h).trans
      (((Kept.of_page_eq fun _ _ => rfl).trans (Kept.setType _ q .allocated)).trans hk₄ |>.mono
        fun _ h => Or.inr h)
  have hloose : ∀ j, j = p ∨ j = q → Loose st j := by
    rintro j (rfl | rfl)
    · exact Or.inl hpfree
    · exact Or.inl hqfree
  have hqa : ((((st.setType p .allocatedCont).listDel (st.page q).allocsize q).setType q
      .allocated).page q).allocsize = (st.page q).allocsize := by
    simp only [allocsize_setType, page_listDel]
  rw [hqa] at ha₄
  exact ⟨hi₄, hr, hp, by simpa using ht₄, fun hm => ha₄ hm (by omega), hk.of_loose hloose⟩

/-- `mm_page_alloc_cont (n, m)` keeps the invariant and hands out a lower
half `p` of level `n`, typed `ALLOCATED_CONT`, whose buddy part `p + 2 ^ n` is
`ALLOCATED`, of level `m` when `m ≤ n`; it writes only pages that were free
or `NOT_HEAD`. -/
theorem mmPageAllocCont_spec {st st' : PageState} (hi : PageInv st) {n m p : Nat}
    (h : mmPageAllocCont st n m = some (st', p)) :
    PageInv st' ∧ p.testBit n = false ∧ p + 2 ^ n < numOfPages ∧
      (st'.page p).type = .allocatedCont ∧ (st'.page p).allocsize = n ∧
      (st'.page (p + 2 ^ n)).type = .allocated ∧
      (m ≤ n → (st'.page (p + 2 ^ n)).allocsize = m) ∧ Loose st p ∧ Loose st (p + 2 ^ n) ∧
      Kept (fun _ => False) st st' := by
  unfold mmPageAllocCont at h
  split at h
  · rename_i hnm
    split at h
    · cases h
    · rename_i p₁ q hsearch
      obtain ⟨hp, hbit, hq, hqN, hqfree, hm⟩ := contSearch_eq_some hnm.1 _ p₁ q
        (fun j hj => ((hi.list_mem n j).1 hj).1) hsearch
      obtain ⟨hpN, hpfree, hpn⟩ := (hi.list_mem n p₁).1 hp
      have hal : 2 ^ n ∣ p₁ := hpn ▸ (hi.head_aligned p₁ hpN (by rw [hpfree]; decide)).1
      have hq' : q = p₁ + 2 ^ n := hq.trans (Buddy.or_two_pow_of_dvd hal hbit)
      subst hq'
      obtain ⟨hi', rfl, hpage, hqt, hqa, hk⟩ := found_spec (hi.take hp (by decide) (by decide)) hqN
        (Nat.lt_add_of_pos_right (Nat.two_pow_pos n)) h
      exact ⟨hi', hbit, hqN, by simp [hpage], by simp [hpage, hpn], hqt,
        fun _ => hqa (by simpa using hm), Or.inl hpfree, Or.inl hqfree,
        (Kept.of_page_eq fun _ _ => rfl).trans hk⟩
    · split at h
      · rename_i st₁ p₁ hsub
        split at h
        · rename_i st₂ q hsplit
          obtain ⟨hpN, hi₁, ht₁, ha₁, hpfree, hk₁⟩ :=
            mmPageAllocSub_setType hi (t := .allocatedCont) (by decide) (by decide) hsub
          have hpf : ((st₁.setType p₁ .allocatedCont).page p₁).type ≠ .free := by rw [ht₁]; decide
          have hph : ((st₁.setType p₁ .allocatedCont).page p₁).type ≠ .notHead := by rw [ht₁]; decide
          have hsplit' : mmPageFree2ndhalf (st₁.setType p₁ .allocatedCont) p₁ =
              some (st₂.setType p₁ .allocatedCont, q) := by
            rw [mmPageFree2ndhalf_setType st₁ _ hpN le_rfl, hsplit]
            rfl
          rw [mmPageFree2ndhalf_eq hi₁.toBlockShape hpN hph ha₁] at hsplit'
          obtain ⟨hst₂, rfl⟩ := Prod.mk.inj (Option.some.inj hsplit')
          obtain ⟨hi₂, hqN, -, hqa⟩ := hi₁.splitState hpN hpf hph ha₁
          have hbit : p₁.testBit n = false := by
            have hal := (hi₁.head_aligned p₁ hpN hph).1
            rw [ha₁] at hal
            exact (Buddy.dvd_two_pow_succ_iff (Buddy.dvd_of_dvd_two_pow_succ hal)).1 hal
          have hpq : p₁ ≠ p₁ + 2 ^ n := by have := Nat.two_pow_pos n; omega
          have hpa : (st₂.page p₁).allocsize = n := by
            rw [← allocsize_setType st₂ p₁ .allocatedCont, ← hst₂, allocsize_splitState, if_pos rfl]
          have hqa₂ : (st₂.page (p₁ + 2 ^ n)).allocsize = n := by
            rw [← allocsize_setType st₂ p₁ .allocatedCont, ← hst₂, allocsize_splitState,
              if_neg (Ne.symm hpq), hqa]
          have hk₂ : Kept (· = p₁) (st₁.setType p₁ .allocatedCont) st₂ := by
            refine (kept_splitState hi₁.toBlockShape hpN hph ha₁).trans ?_
            rw [hst₂]
            exact Kept.of_page_eq fun j hj => by rw [page_setType, if_neg hj]
          rw [hst₂] at hi₂
          obtain ⟨hi', rfl, hpage, hqt, hqa', hk⟩ :=
            found_spec hi₂ hqN (Nat.lt_add_of_pos_right (Nat.two_pow_pos n)) h
          have hloose : ∀ j, j = p → Loose st j := by
            rintro j rfl
            exact Or.inl hpfree
          have hqloose : Loose (st₁.setType p .allocatedCont) (p + 2 ^ n) :=
            Or.inr (hi₁.head_extent p hpN hph _ (Nat.lt_add_of_pos_right (Nat.two_pow_pos n))
              (by rw [ha₁, pow_succ]; omega))
          refine ⟨hi', hbit, hqN, by simp [hpage], by simp [hpage, hpa], hqt,
            fun hmn => hqa' (by omega), Or.inl hpfree, hk₁.loose hqloose, ?_⟩
          exact (((hk₁.mono fun _ h => h.elim).trans hk₂).trans (hk.mono fun _ h => h.elim)).of_loose
            hloose
        · cases h
      · cases h
  · cases h

theorem mmPageAllocCont_inv {st st' : PageState} (hi : PageInv st) {n m p : Nat}
    (h : mmPageAllocCont st n m = some (st', p)) : PageInv st' :=
  (mmPageAllocCont_spec hi h).1

theorem mmPageAllocCont_block {st st' : PageState} (hi : PageInv st) {n m p : Nat} (hmn : m ≤ n)
    (h : mmPageAllocCont st n m = some (st', p)) :
    p.testBit n = false ∧ p + 2 ^ n < numOfPages ∧
      (st'.page p).type = .allocatedCont ∧ (st'.page p).allocsize = n ∧
      (st'.page (p + 2 ^ n)).type = .allocated ∧ (st'.page (p + 2 ^ n)).allocsize = m := by
  obtain ⟨-, hbit, hqN, ht, ha, hqt, hqa, -⟩ := mmPageAllocCont_spec hi h
  exact ⟨hbit, hqN, ht, ha, hqt, hqa hmn⟩

/-- A block `mm_page_alloc` hands out can be given back with `mm_page_free`
without a panic. -/
theorem mmPageAlloc_free {st st' : PageState} (hi : PageInv st) {n p : Nat}
    (h : mmPageAlloc st n = some (st', p)) : ∃ st'', mmPageFree st' p = some st'' ∧ PageInv st'' := by
  obtain ⟨hi', hpN, ht, -⟩ := mmPageAlloc_spec hi h
  have hph : (st'.page p).type ≠ .notHead := by rw [ht]; decide
  have hpc : (st'.page p).type ≠ .allocatedCont := by rw [ht]; decide
  obtain ⟨st'', hrel, hi''⟩ := release_some hi' hpN (Or.inl ht)
  exact ⟨st'', mmPageFree_of_release (hi'.head_aligned p hpN hph).2 hpc hrel, hi''⟩

theorem mmPageAlloc_free_zero :
    ∃ st' p st'', mmPageAlloc ((mmPageFree mmInit 0).getD mmInit) 0 = some (st', p) ∧
      mmPageFree st' p = some st'' := by
  obtain ⟨st', p, h⟩ : ∃ st' p,
      mmPageAlloc ((mmPageFree mmInit 0).getD mmInit) 0 = some (st', p) := ⟨_, _, rfl⟩
  obtain ⟨st'', h', -⟩ := mmPageAlloc_free mmPageFree_zero_inv h
  exact ⟨st', p, st'', h, h'⟩

theorem pageStep_inv {st st' : PageState} {op : PageOp} {out : Option Nat} (hi : PageInv st)
    (h : pageStep st op = some (st', out)) : PageInv st' := by
  cases op with
  | alloc n =>
    obtain ⟨⟨st'', p⟩, h', heq⟩ := Option.map_eq_some_iff.1 h
    cases heq
    exact mmPageAlloc_inv hi h'
  | allocCont n m =>
    obtain ⟨⟨st'', p⟩, h', heq⟩ := Option.map_eq_some_iff.1 h
    cases heq
    exact mmPageAllocCont_inv hi h'
  | free p =>
    simp only [pageStep] at h
    split at h
    · rename_i hpN
      obtain ⟨st'', h', heq⟩ := Option.map_eq_some_iff.1 h
      cases heq
      exact mmPageFree_inv hi hpN h'
    · cases h

/-- The buddy allocator's invariant holds after every run of its entry points
from the state `mm_init_global` frees the usable pages in. -/
theorem pageRun_pageInv (ops : List PageOp) {st : PageState} {out : List (Option Nat)}
    (hrun : pageRun mmInit ops = some (st, out)) :
    PageInv st ∧ ∀ j < numOfPages,
      ∃! h, (st.page h).type ≠ .notHead ∧ h ≤ j ∧ j < h + 2 ^ (st.page h).allocsize := by
  have hi : PageInv st := StepRun.runSteps_invariant PageInv
    (fun _ _ _ _ hs hst => pageStep_inv hs hst) ops mmInit st out mmInit_inv hrun
  exact ⟨hi, hi.partition⟩

theorem pageRun_pageInv_frees :
    ∃ st out, pageRun mmInit [.free 0, .free 1, .alloc 0, .free 0] = some (st, out) ∧ PageInv st := by
  obtain ⟨st, out, h⟩ : ∃ st out,
      pageRun mmInit [.free 0, .free 1, .alloc 0, .free 0] = some (st, out) := ⟨_, _, rfl⟩
  exact ⟨st, out, h, (pageRun_pageInv _ h).1⟩

end Bitvisor.Mm
