import Bitvisor.Mm.PageInv

namespace Bitvisor.Mm

open PageState

theorem mergeLoop_succ_lower {st : PageState} {p n : Nat} (fuel : Nat) (hpN : p < numOfPages)
    (hn : n + 1 < numOfAllocsize) (hb : p.testBit n = false) (hx : p ^^^ 2 ^ n = p + 2 ^ n)
    (hqN : p + 2 ^ n < numOfPages)
    (hq : (st.page (p + 2 ^ n)).type = .free ∧ (st.page (p + 2 ^ n)).allocsize = n)
    (hpa : (st.page p).allocsize = n) :
    mergeLoop st p n (4096 <<< n) (pageToVirt p) (fuel + 1) =
      mergeLoop (mergeState st p n) p (n + 1) (4096 <<< (n + 1)) (pageToVirt p) fuel := by
  have hn' : n < numOfAllocsize := by omega
  have hguard : ¬(pageToVirt p &&& 4096 <<< n ≠ 0) := by
    rw [pageToVirt_and_ne_zero hpN hn', hb]
    decide
  simp only [mergeLoop, if_pos (show n < numOfAllocsize - 1 by simp only [numOfAllocsize] at hn ⊢; omega),
    pageToVirt_xor hpN hn', hx, virtToPage_pageToVirt, if_pos hqN, if_pos hq, if_neg hguard,
    allocsize_setType, page_listDel, hpa, mmPageGetAllocsize, if_pos hn,
    pageToVirt_and_ne_zero hpN hn]
  rfl

theorem mergeLoop_succ_upper {st : PageState} {p l n : Nat} (fuel : Nat) (hpN : p < numOfPages)
    (hn : n + 1 < numOfAllocsize) (hb : p.testBit n = true) (hx : p ^^^ 2 ^ n = l)
    (hl : l + 2 ^ n = p)
    (hq : (st.page l).type = .free ∧ (st.page l).allocsize = n) :
    mergeLoop st p n (4096 <<< n) (pageToVirt p) (fuel + 1) =
      mergeLoop (mergeState st l n) l (n + 1) (4096 <<< (n + 1)) (pageToVirt l) fuel := by
  have hn' : n < numOfAllocsize := by omega
  have hlN : l < numOfPages := by have := Nat.two_pow_pos n; omega
  have hguard : pageToVirt p &&& 4096 <<< n ≠ 0 := by
    rw [pageToVirt_and_ne_zero hpN hn', hb]
  have hbit : l.testBit (n + 1) = p.testBit (n + 1) := by
    rw [← hx, Nat.testBit_xor, Nat.testBit_two_pow]
    simp
  have hlp : l ≠ p := by have := Nat.two_pow_pos n; omega
  simp only [mergeLoop, if_pos (show n < numOfAllocsize - 1 by simp only [numOfAllocsize] at hn ⊢; omega),
    pageToVirt_xor hpN hn', hx, virtToPage_pageToVirt, if_pos hlN, hq.1, hq.2, and_self, if_true,
    if_pos hguard, page_listDel, page_setType, if_neg hlp, mmPageGetAllocsize, if_pos hn,
    pageToVirt_and_ne_zero hpN hn, ← hbit]
  rw [← hl]
  rfl

theorem mergeLoop_succ_stop {st : PageState} {p n : Nat} (fuel : Nat) (hpN : p < numOfPages)
    (hn : n < numOfAllocsize) (hqN : n + 1 < numOfAllocsize → p ^^^ 2 ^ n < numOfPages)
    (hstop : ¬(n + 1 < numOfAllocsize ∧ (st.page (p ^^^ 2 ^ n)).type = .free ∧
      (st.page (p ^^^ 2 ^ n)).allocsize = n)) :
    mergeLoop st p n (4096 <<< n) (pageToVirt p) (fuel + 1) = some st := by
  simp only [mergeLoop, pageToVirt_xor hpN hn, virtToPage_pageToVirt]
  split
  · rename_i hn1
    have hn1' : n + 1 < numOfAllocsize := by simp only [numOfAllocsize] at hn1 ⊢; omega
    rw [if_pos (hqN hn1')]
    dsimp only
    rw [if_neg fun hfree => hstop ⟨hn1', hfree⟩]
  · rfl

theorem xor_lt_numOfPages {p n : Nat} (hpN : p < numOfPages) (hn : n + 1 < numOfAllocsize) :
    p ^^^ 2 ^ n < numOfPages := by
  rw [numOfPages_eq] at hpN ⊢
  exact Nat.xor_lt_two_pow hpN (Nat.pow_lt_pow_right (by decide)
    (by simp only [numOfAllocsize] at hn; omega))

/-- The coalescing loop, run from the state just after the release of `p`,
returns, restores the invariant and settles every page it changes. The
induction is on the fuel, with the level `n` of the block going up by one
each round. -/
theorem mergeLoop_spec :
    ∀ fuel (st : PageState) (p n : Nat), PageShape st → FreeBuddiesApart st (some p) →
      p < numOfPages → (st.page p).type = .free → (st.page p).allocsize = n →
      numOfAllocsize ≤ n + fuel + 1 →
      ∃ st', mergeLoop st p n (4096 <<< n) (pageToVirt p) fuel = some st' ∧
        PageInv st' ∧ Settled st st' := by
  intro fuel
  induction fuel with
  | zero =>
    intro st p n hs hb _ _ hpn hfuel
    exact ⟨st, rfl, ⟨hs, hb.close hpn fun h => by omega⟩, Settled.refl st⟩
  | succ fuel ih =>
    intro st p n hs hb hpN hpf hpn hfuel
    obtain ⟨hal, hn⟩ := hs.head_aligned p hpN (by rw [hpf]; decide)
    rw [hpn] at hal hn
    have hpos := Nat.two_pow_pos n
    by_cases hmerge : n + 1 < numOfAllocsize ∧ (st.page (p ^^^ 2 ^ n)).type = .free ∧
        (st.page (p ^^^ 2 ^ n)).allocsize = n
    · obtain ⟨hn1, hq⟩ := hmerge
      have hqN := xor_lt_numOfPages hpN hn1
      cases hbit : p.testBit n
      · have hx : p ^^^ 2 ^ n = p + 2 ^ n := by
          rw [Buddy.xor_two_pow_of_dvd hal, hbit]
          rfl
        rw [hx] at hq hqN
        have hal' : 2 ^ (n + 1) ∣ p := (Buddy.dvd_two_pow_succ_iff hal).2 hbit
        rw [mergeLoop_succ_lower fuel hpN hn1 hbit hx hqN hq hpn]
        obtain ⟨hs', hb'⟩ := hs.mergeState hb (Or.inl rfl) hpN hal' hn1 hpf hpn hq.1 hq.2
        have hpq : p ≠ p + 2 ^ n := by omega
        obtain ⟨st', hloop, hi', hset⟩ := ih _ p (n + 1) hs' hb' hpN
          (by rw [type_mergeState, if_neg hpq, hpf]) (by rw [allocsize_mergeState, if_pos rfl])
          (by omega)
        exact ⟨st', hloop, hi', (settled_mergeState hpf).trans hset⟩
      · set l := p ^^^ 2 ^ n with hx
        have hl : l + 2 ^ n = p := by
          have hle : 2 ^ n ≤ p := Nat.ge_two_pow_of_testBit hbit
          rw [hx, Buddy.xor_two_pow_of_dvd hal, hbit]
          simp only [if_true]
          omega
        have hlal : 2 ^ n ∣ l := by
          have := Nat.dvd_sub hal (dvd_refl (2 ^ n))
          rwa [← hl, Nat.add_sub_cancel] at this
        have hlbit : l.testBit n = false := by
          rw [hx, Nat.testBit_xor, hbit, Nat.testBit_two_pow_self]
          rfl
        have hal' : 2 ^ (n + 1) ∣ l := (Buddy.dvd_two_pow_succ_iff hlal).2 hlbit
        rw [mergeLoop_succ_upper fuel hpN hn1 hbit hx.symm hl hq]
        obtain ⟨hs', hb'⟩ := hs.mergeState hb (Or.inr hl.symm) hqN hal' hn1 hq.1 hq.2
          (hl ▸ hpf) (hl ▸ hpn)
        have hlu : l ≠ l + 2 ^ n := by omega
        obtain ⟨st', hloop, hi', hset⟩ := ih _ l (n + 1) hs' hb' hqN
          (by rw [type_mergeState, if_neg hlu, hq.1]) (by rw [allocsize_mergeState, if_pos rfl])
          (by omega)
        exact ⟨st', hloop, hi', (settled_mergeState hq.1).trans hset⟩
    · rw [mergeLoop_succ_stop fuel hpN hn (xor_lt_numOfPages hpN) hmerge]
      exact ⟨st, rfl, ⟨hs, hb.close hpn fun h1 h2 => hmerge ⟨h1, h2⟩⟩, Settled.refl st⟩

theorem release_inv {st st' : PageState} {p n : Nat} {r : Option FreeFail} (hi : PageInv st)
    (hpN : p < numOfPages) (hn : n < numOfAllocsize)
    (hpn : (st.page p).type ≠ .free → (st.page p).type ≠ .notHead → (st.page p).allocsize = n)
    (h : mmPageFreeSub.release st p n (4096 <<< n) (pageToVirt p) = some (st', r)) :
    PageInv st' ∧ Settled st st' ∧
      ((st.page p).type ≠ .allocatedCont → (st.page p).type ≠ .allocatedSmall →
        (st'.page p).type = .free ∨ (st'.page p).type = .notHead) := by
  have hrelease : (st.page p).type ≠ .free → (st.page p).type ≠ .notHead →
      (mergeLoop (releaseState st p n) p n (4096 <<< n) (pageToVirt p) numOfAllocsize).map
        (·, none) = some (st', r) →
      PageInv st' ∧ Settled st st' ∧
        ((st.page p).type ≠ .allocatedCont → (st.page p).type ≠ .allocatedSmall →
          (st'.page p).type = .free ∨ (st'.page p).type = .notHead) := by
    intro hpf hph hm
    obtain ⟨st'', hloop, heq⟩ := Option.map_eq_some_iff.1 hm
    cases heq
    obtain ⟨hs, hb⟩ := hi.releaseState hpN hpf hph (hpn hpf hph)
    have hpfree : ((releaseState st p n).page p).type = .free := by simp [releaseState]
    have hpalloc : ((releaseState st p n).page p).allocsize = n := by
      simp [releaseState, hpn hpf hph]
    obtain ⟨st₂, hloop₂, hi', hset⟩ :=
      mergeLoop_spec numOfAllocsize _ p n hs hb hpN hpfree hpalloc (by omega)
    rw [hloop₂] at hloop
    cases hloop
    refine ⟨hi', (settled_releaseState st p n).trans hset, fun _ _ => ?_⟩
    rcases hset.page_eq_or p with he | he
    · rw [he]
      exact Or.inl hpfree
    · exact he
  unfold mmPageFreeSub.release at h
  simp only [pageToVirt_and_ne_zero hpN hn] at h
  split at h
  · rename_i ht
    cases h
    exact ⟨hi, Settled.refl st, fun _ _ => Or.inl ht⟩
  · rename_i ht
    cases h
    exact ⟨hi, Settled.refl st, fun _ _ => Or.inr ht⟩
  · rename_i ht
    exact hrelease (by rw [ht]; decide) (by rw [ht]; decide) h
  · rename_i ht
    exact hrelease (by rw [ht]; decide) (by rw [ht]; decide) h
  · rename_i ht₁ ht₂ ht₃ ht₄
    cases h
    refine ⟨hi, Settled.refl st, fun hc hs => ?_⟩
    cases hty : (st.page p).type
    · exact absurd hty ht₁
    · exact absurd hty ht₂
    · exact absurd hty ht₃
    · exact absurd hty hc
    · exact absurd hty hs
    · exact absurd hty ht₄

/-- Every run of `mm_page_free_sub` from a state of the invariant, failed or
not, ends in a state of the invariant, and settles what it changes. The
induction is on the fuel, which bounds the nesting of `ALLOCATED_CONT` frees. -/
theorem mmPageFreeSub_inv :
    ∀ fuel (st st' : PageState) (p : Nat) (r : Option FreeFail), PageInv st → p < numOfPages →
      mmPageFreeSub st p fuel = some (st', r) → PageInv st' ∧ Settled st st' := by
  intro fuel
  induction fuel with
  | zero =>
    intro st st' p r _ _ h
    cases h
  | succ fuel ih =>
    intro st st' p r hi hpN h
    simp only [mmPageFreeSub] at h
    split at h
    · cases h
    · rename_i s hs
      obtain ⟨hn, rfl⟩ := mmPageGetAllocsize_eq_some.1 hs
      split at h
      · rename_i hcont
        split at h
        · cases h
          exact ⟨hi, Settled.refl st⟩
        · split at h
          · cases h
          · rename_i q hq
            have hqN := virtToPage_eq_some hq
            obtain ⟨⟨stn, r'⟩, hnest, h⟩ := Option.bind_eq_some_iff.1 h
            have hi₁ : PageInv (st.setType p .allocated) :=
              hi.retype (by rw [hcont]; decide) (by rw [hcont]; decide) (by decide) (by decide)
            obtain ⟨hin, hsn⟩ := ih _ stn _ r' hi₁ hqN hnest
            have hpn : (stn.page p).type ≠ .free → (stn.page p).type ≠ .notHead →
                (stn.page p).allocsize = (st.page p).allocsize := by
              intro h₁ h₂
              rcases hsn.page_eq_or p with he | he | he
              · rw [he, allocsize_setType]
              · exact absurd he h₁
              · exact absurd he h₂
            have hpt : (stn.page p).type = .allocated ∨ (stn.page p).type = .free ∨
                (stn.page p).type = .notHead := by
              rcases hsn.page_eq_or p with he | he
              · left
                simp [he]
              · exact Or.inr he
            obtain ⟨hi', hset, hfin⟩ := release_inv hin hpN hn hpn h
            refine ⟨hi', Settled.of_setType (hsn.trans hset) (hfin ?_ ?_)⟩
            · rcases hpt with he | he | he <;> rw [he] <;> decide
            · rcases hpt with he | he | he <;> rw [he] <;> decide
      · obtain ⟨hi', hset, -⟩ := release_inv hi hpN hn (fun _ _ => rfl) h
        exact ⟨hi', hset⟩

theorem mmPageFree_inv {st st' : PageState} {p : Nat} (hi : PageInv st) (hpN : p < numOfPages)
    (h : mmPageFree st p = some st') : PageInv st' := by
  unfold mmPageFree at h
  split at h
  · rename_i st'' hsub
    cases h
    exact (mmPageFreeSub_inv _ _ _ p _ hi hpN hsub).1
  · cases h

theorem release_some {st : PageState} (hi : PageInv st) {p : Nat} (hpN : p < numOfPages)
    (ht : (st.page p).type = .allocated ∨ (st.page p).type = .reserved) :
    ∃ st', mmPageFreeSub.release st p (st.page p).allocsize (4096 <<< (st.page p).allocsize)
      (pageToVirt p) = some (st', none) ∧ PageInv st' := by
  have hpf : (st.page p).type ≠ .free := by rcases ht with h | h <;> rw [h] <;> decide
  have hph : (st.page p).type ≠ .notHead := by rcases ht with h | h <;> rw [h] <;> decide
  have hn := (hi.head_aligned p hpN hph).2
  obtain ⟨hs, hb⟩ := hi.releaseState hpN hpf hph rfl
  obtain ⟨st', hloop, hi', -⟩ := mergeLoop_spec numOfAllocsize _ p (st.page p).allocsize hs hb hpN
    (by simp [releaseState]) (by simp [releaseState]) (by omega)
  refine ⟨st', ?_, hi'⟩
  unfold mmPageFreeSub.release
  simp only [pageToVirt_and_ne_zero hpN hn]
  rcases ht with h | h <;> simp only [h] <;> exact congrArg (Option.map (·, none)) hloop

theorem mmPageFree_of_release {st st' : PageState} {p : Nat}
    (hn : (st.page p).allocsize < numOfAllocsize) (hpc : (st.page p).type ≠ .allocatedCont)
    (hrel : mmPageFreeSub.release st p (st.page p).allocsize (4096 <<< (st.page p).allocsize)
      (pageToVirt p) = some (st', none)) : mmPageFree st p = some st' := by
  rw [mmPageFree, show numOfAllocsize = 12 + 1 from rfl, mmPageFreeSub]
  simp only [mmPageGetAllocsize, if_pos hn, if_neg hpc, hrel]

/-- Under the invariant, `mm_page_free` of an `ALLOCATED` or `RESERVED` head
never panics. -/
theorem mmPageFree_some {st : PageState} (hi : PageInv st) {p : Nat} (hpN : p < numOfPages)
    (ht : (st.page p).type = .allocated ∨ (st.page p).type = .reserved) :
    ∃ st', mmPageFree st p = some st' ∧ PageInv st' := by
  have hph : (st.page p).type ≠ .notHead := by rcases ht with h | h <;> rw [h] <;> decide
  have hpc : (st.page p).type ≠ .allocatedCont := by rcases ht with h | h <;> rw [h] <;> decide
  obtain ⟨st', hrel, hi'⟩ := release_some hi hpN ht
  exact ⟨st', mmPageFree_of_release (hi.head_aligned p hpN hph).2 hpc hrel, hi'⟩

theorem mmPageFree_some_reserved : ∃ st', mmPageFree mmInit 0 = some st' ∧ PageInv st' :=
  mmPageFree_some mmInit_inv (by decide) (Or.inr rfl)

theorem kept_mergeRound {st : PageState} {a b n m : Nat} (ha : Loose st a) (hb : Loose st b) :
    Kept (fun _ => False) st ((((st.listDel n a).listDel n b).setType b .notHead).setAllocsize a m) ∧
      Loose ((((st.listDel n a).listDel n b).setType b .notHead).setAllocsize a m) a := by
  constructor
  · intro j _ hl
    have hja : j ≠ a := fun h => hl (h ▸ ha)
    have hjb : j ≠ b := fun h => hl (h ▸ hb)
    simp [hja, hjb]
  · by_cases hab : a = b
    · right
      simp [hab]
    · simpa [Loose, hab] using ha

theorem mergeLoop_kept :
    ∀ fuel (st st' : PageState) (p n s virt : Nat), Loose st p →
      mergeLoop st p n s virt fuel = some st' → Kept (fun _ => False) st st' := by
  intro fuel
  induction fuel with
  | zero =>
    intro st st' p n s virt _ h
    cases h
    exact Kept.refl _ st
  | succ fuel ih =>
    intro st st' p n s virt hp h
    simp only [mergeLoop] at h
    split at h
    · split at h
      · cases h
      · rename_i q _
        split at h
        · rename_i hfree
          have hq : Loose st q := Or.inl hfree.1
          generalize hpair : (if virt &&& s ≠ 0 then (q, p) else (p, q)) = ab at h
          obtain ⟨a, b⟩ := ab
          have hab : Loose st a ∧ Loose st b := by
            split_ifs at hpair <;> cases hpair
            · exact ⟨hq, hp⟩
            · exact ⟨hp, hq⟩
          obtain ⟨hkept, hloose⟩ := kept_mergeRound (n := n)
            (m := ((((st.listDel n a).listDel n b).setType b .notHead).page a).allocsize + 1) hab.1 hab.2
          dsimp only at h
          split at h
          · cases h
          · rename_i s' _
            set st₁ := (((st.listDel n a).listDel n b).setType b .notHead).setAllocsize a
              (((((st.listDel n a).listDel n b).setType b .notHead).page a).allocsize + 1)
            have hfile : ∀ k, (if virt &&& s' ≠ 0 then st₁.listAdd k a else st₁.listPush k a).page =
                st₁.page := by
              intro k
              split <;> rfl
            have hk := ih _ st' a _ s' (pageToVirt a) (by rwa [Loose, hfile]) h
            exact hkept.trans ((Kept.of_page_eq fun j _ => by rw [hfile]).trans hk)
        · cases h
          exact Kept.refl _ st
    · cases h
      exact Kept.refl _ st

theorem release_kept {st st' : PageState} {p n s virt : Nat} {r : Option FreeFail}
    (h : mmPageFreeSub.release st p n s virt = some (st', r)) : Kept (· = p) st st' := by
  have hrelease : (mergeLoop (if virt &&& s ≠ 0 then (st.setType p .free).listAdd n p
      else (st.setType p .free).listPush n p) p n s virt numOfAllocsize).map (·, none) =
        some (st', r) → Kept (· = p) st st' := by
    intro hm
    obtain ⟨st₂, hloop, heq⟩ := Option.map_eq_some_iff.1 hm
    cases heq
    set st₁ := if virt &&& s ≠ 0 then (st.setType p .free).listAdd n p
      else (st.setType p .free).listPush n p
    have hfile : st₁.page = (st.setType p .free).page := by
      simp only [st₁]
      split <;> rfl
    have hp : Loose st₁ p := Or.inl (by simp [hfile])
    exact ((Kept.setType st p .free).trans (Kept.of_page_eq fun j _ => by rw [hfile])).trans
      ((mergeLoop_kept _ _ _ p n s virt hp hloop).mono fun _ h => h.elim)
  unfold mmPageFreeSub.release at h
  split at h
  · cases h
    exact Kept.refl _ st
  · cases h
    exact Kept.refl _ st
  · exact hrelease h
  · exact hrelease h
  · cases h
    exact Kept.refl _ st

theorem mmPageFreeSub_of_not_cont {st : PageState} {p : Nat} (fuel : Nat)
    (hpc : (st.page p).type ≠ .allocatedCont) :
    mmPageFreeSub st p (fuel + 1) = (mmPageGetAllocsize (st.page p).allocsize).bind fun s =>
      mmPageFreeSub.release st p (st.page p).allocsize s (pageToVirt p) := by
  simp only [mmPageFreeSub, if_neg hpc]
  cases mmPageGetAllocsize (st.page p).allocsize <;> rfl

theorem mmPageFree_kept {st st' : PageState} {p : Nat} (hpN : p < numOfPages)
    (hq : (st.page p).type = .allocatedCont →
      (st.page (p ||| 2 ^ (st.page p).allocsize)).type ≠ .allocatedCont)
    (h : mmPageFree st p = some st') :
    Kept (fun j => j = p ∨ j = p ||| 2 ^ (st.page p).allocsize) st st' := by
  unfold mmPageFree at h
  split at h
  · rename_i st₁ hsub
    cases h
    rw [show numOfAllocsize = 12 + 1 from rfl] at hsub
    by_cases hpc : (st.page p).type = .allocatedCont
    · rw [mmPageFreeSub] at hsub
      simp only [if_pos hpc] at hsub
      split at hsub
      · cases hsub
      · rename_i s hs
        obtain ⟨hn, rfl⟩ := mmPageGetAllocsize_eq_some.1 hs
        by_cases hguard : pageToVirt p &&& 4096 <<< (st.page p).allocsize ≠ 0
        · rw [if_pos hguard] at hsub
          cases hsub
        · rw [if_neg hguard, pageToVirt_or hpN hn, virtToPage_pageToVirt] at hsub
          by_cases hqN : p ||| 2 ^ (st.page p).allocsize < numOfPages
          · rw [if_pos hqN] at hsub
            dsimp only at hsub
            obtain ⟨⟨stn, r'⟩, hnest, hrel⟩ := Option.bind_eq_some_iff.1 hsub
            have hbit : p.testBit (st.page p).allocsize = false := by
              rw [pageToVirt_and_ne_zero hpN hn] at hguard
              simpa using hguard
            have hqp : p ||| 2 ^ (st.page p).allocsize ≠ p := Nat.ne_of_gt (Buddy.lt_or_two_pow hbit)
            rw [mmPageFreeSub_of_not_cont 11 (by rw [page_setType, if_neg hqp]; exact hq hpc)] at hnest
            obtain ⟨s', -, hrelq⟩ := Option.bind_eq_some_iff.1 hnest
            exact ((Kept.setType st p .allocated).mono fun _ h => Or.inl h).trans
              (((release_kept hrelq).mono fun _ h => Or.inr h).trans
                ((release_kept hrel).mono fun _ h => Or.inl h))
          · rw [if_neg hqN] at hsub
            cases hsub
    · rw [mmPageFreeSub_of_not_cont 12 hpc] at hsub
      obtain ⟨s, -, hrel⟩ := Option.bind_eq_some_iff.1 hsub
      exact (release_kept hrel).mono fun _ h => Or.inl h
  · cases h

end Bitvisor.Mm
