import Bitvisor.Ept.Map
import Bitvisor.Lib.Run

namespace Bitvisor.Ept

/-! The EPT over whole runs. Three things hold in the state `vt_ept_new`
builds and are kept by every operation of `vt_ept.c`: the pool invariant
(the attached tables form a tree under the root, every table page is
marked where it is not zero, the root's used part is recorded); a cursor at
level 4 or holding the walk of its address; and soundness, that every entry
a walk ends on is the entry the map functions compute for an address of
its block. -/

theorem SameBlock.symm {l : Nat} {g g' : UInt64} (h : SameBlock l g g') : SameBlock l g' g :=
  fun k hk hk3 => (h k hk hk3).symm

/-- Every entry that a walk ends on lies below the root, at level 2 at most,
and is the one the map functions compute, at its level, for an address of
its block. -/
def Sound (env : Gmm) (s : VtEptState) : Prop :=
  ∀ {g e : UInt64} {l : Nat}, Leaf (wordsOf s.mem) s.ept.ncr3tbl g l e →
    l ≤ 2 ∧ ∃ g', SameBlock l g g' ∧ e = leafEntry env g' l

/-- `g` is mapped: its walk ends on the entry the map functions compute for
it, as a 4 KiB, 2 MiB or 1 GiB page. -/
def Mapped (env : Gmm) (s : VtEptState) (g : UInt64) : Prop :=
  ∃ l ≤ 2, Leaf (wordsOf s.mem) s.ept.ncr3tbl g l (leafEntry env g l)

/-- The invariant of the EPT. -/
structure EptInv (env : Gmm) (allocPage : Nat → UInt64) (s : VtEptState) : Prop where
  pool : PoolInv allocPage s
  cursor : s.ept.cur.level = 4 ∨ CursorOk (wordsOf s.mem) s.ept.ncr3tbl s.ept.cur
  sound : Sound env s

section Aligned

variable {W W' : Words} {root g : UInt64}

theorem walkEntry_aligned (hr : root.toNat % 4096 = 0) {k : Nat} {a : UInt64}
    (h : walkEntry W root g k = some a) : a.toNat % 8 = 0 := by
  cases k with
  | zero =>
    rw [walkEntry, Option.some.injEq] at h
    subst h
    rw [toNat_add_entry hr (eptIndex_toNat_lt g 3)]
    omega
  | succ k =>
    obtain ⟨b, -, -, rfl⟩ := walkEntry_succ_eq_some.mp h
    have hb : (W b &&& ~~~(0xFFF : UInt64)).toNat % 4096 = 0 := by
      rw [toNat_and_pageMask]
      omega
    rw [toNat_entryAddr hb (eptIndex_toNat_lt _ _)]
    omega

variable (hr : root.toNat % 4096 = 0)
  (hdead : ∀ a, a.toNat % 8 = 0 → W' a ≠ W a → W' a &&& eptePresentMask = 0)
include hr hdead

theorem walkEntry_of_dead_aligned {k : Nat} {b : UInt64} (h : walkEntry W' root g k = some b) :
    walkEntry W root g k = some b := by
  induction k generalizing b with
  | zero => exact h
  | succ k ih =>
    obtain ⟨c, hc, hgo, rfl⟩ := walkEntry_succ_eq_some.mp h
    have hsame : W' c = W c := by
      by_contra hne
      exact hgo (.inl (hdead c (walkEntry_aligned hr hc) hne))
    rw [hsame] at hgo ⊢
    exact walkEntry_succ_eq_some.mpr ⟨c, ih hc, hgo, rfl⟩

theorem leaf_of_dead_aligned {l : Nat} {e : UInt64} (h : Leaf W' root g l e) : Leaf W root g l e := by
  obtain ⟨hl, a, hwalk, he, hpres, hlarge⟩ := h
  have hsame : W' a = W a := by
    by_contra hne
    rw [← he] at hpres
    exact hpres (hdead a (walkEntry_aligned hr hwalk) hne)
  rw [hsame] at he
  exact ⟨hl, a, walkEntry_of_dead_aligned hr hdead hwalk, he, hpres, hlarge⟩

end Aligned

section Steps

variable {env : Gmm} {allocPage : Nat → UInt64} {s : VtEptState}

@[simp] theorem curMove_mem_eq (g : UInt64) : (s.curMove g).mem = s.mem := rfl

@[simp] theorem curMove_storage_eq (g : UInt64) : (s.curMove g).storage = s.storage := rfl

@[simp] theorem curMove_tbl_eq (g : UInt64) : (s.curMove g).tbl = s.tbl := rfl

theorem curMove_ncr3tbl (W : Words) (ept : VtEpt) (g : UInt64) : (curMove W ept g).ncr3tbl = ept.ncr3tbl := by
  unfold curMove
  dsimp only
  split_ifs <;> rfl

@[simp] theorem curMove_ncr3tbl_eq (g : UInt64) : (s.curMove g).ept.ncr3tbl = s.ept.ncr3tbl :=
  curMove_ncr3tbl _ _ _

theorem PoolInv.of_state {s' : VtEptState} (h : PoolInv allocPage s) (hR : s'.ept.ncr3tbl = s.ept.ncr3tbl)
    (hm : s'.mem = s.mem) (hs : s'.storage = s.storage) (ht : s'.tbl = s.tbl) (hc : s'.cnt = s.cnt) :
    PoolInv allocPage s' := by
  have hpage : ∀ t, s'.page t = s.page t := fun t => by simp [VtEptState.page, hm, hs]
  refine ⟨by rw [hR]; exact h.pages, by rw [hc]; exact h.cnt_le, by rw [ht]; exact h.tbl,
    by rw [hc, ht]; exact h.attached, by rw [hm, hR, hc]; exact h.tree, ?_, ?_, by rw [ht]; exact h.slots⟩
  · intro i hi
    rw [ht] at hi
    intro j hj hne
    rw [hpage] at hne ⊢
    exact h.marked i hi j hj hne
  · unfold RootUsed
    rw [hR, hpage]
    exact h.rootUsed

structure Moved (env : Gmm) (allocPage : Nat → UInt64) (g : UInt64) (s : VtEptState) : Prop where
  inv : EptInv env allocPage s
  gphys : s.ept.cur.gphys = g
  cursor : CursorOk (wordsOf s.mem) s.ept.ncr3tbl s.ept.cur
  bot : s.ept.cur.level = 0 ∨ Stops (wordsOf s.mem (s.ept.cur.entry s.ept.cur.level))

theorem moved_curMove (h : EptInv env allocPage s) (g : UInt64) : Moved env allocPage g (s.curMove g) := by
  have hR : (s.curMove g).ept.ncr3tbl = s.ept.ncr3tbl := by simp [curMove_ncr3tbl]
  obtain ⟨hg, hok, hbot⟩ := curMove_spec (wordsOf s.mem) s.ept g h.cursor
  have hok' : CursorOk (wordsOf (s.curMove g).mem) (s.curMove g).ept.ncr3tbl (s.curMove g).ept.cur := by
    simpa [curMove_ncr3tbl] using hok
  refine ⟨⟨h.pool.of_state hR rfl rfl rfl rfl, .inr hok', ?_⟩, by simpa using hg, hok', by simpa using hbot⟩
  intro g' e l hl
  rw [curMove_mem_eq, hR] at hl
  exact h.sound hl

theorem store_zero_mem (a : UInt64) (y : Nat) :
    (s.store a 0).mem y = if a.toNat ≤ y ∧ y < a.toNat + 8 then 0 else s.mem y := by
  rw [VtEptState.store_mem, show entryBytes 0 = List.replicate 8 0 by decide, ByteMem.write_replicate_zero]

theorem poolInv_store_zero (hinv : PoolInv allocPage s) {a : UInt64} (ha : a.toNat % 8 = 0) :
    PoolInv allocPage (s.store a 0) := by
  obtain ⟨lv, ht⟩ := hinv.tree
  have hb : ∀ y, (s.store a 0).mem y ≠ 0 → (s.store a 0).mem y = s.mem y := by
    intro y hy
    rw [store_zero_mem] at hy ⊢
    split_ifs at hy ⊢
    · exact absurd rfl hy
    · rfl
  refine ⟨hinv.pages, hinv.cnt_le, hinv.tbl, hinv.attached, ⟨lv, ht.of_kept ?_⟩, ?_, ?_, hinv.slots⟩
  · intro x hu hgo
    rw [wordsOf_store s 0 ha hu.1] at hgo ⊢
    split_ifs at hgo ⊢
    · exact absurd (.inl (by decide)) hgo
    · rfl
  · intro i hi
    apply (hinv.marked i hi).mono
    · intro j _ hne
      exact hb _ hne
    · intro k hk
      exact hk
  · obtain ⟨hlt, hused⟩ := hinv.rootUsed
    refine ⟨hlt, fun j hj hne => hused j hj ?_⟩
    simp only [VtEptState.page, VtEptState.store_ept] at hne ⊢
    rwa [← hb _ hne]

theorem eptInv_store_zero (h : EptInv env allocPage s) {a : UInt64} (ha : a.toNat % 8 = 0)
    (hcur : ∀ l, s.ept.cur.level < l → l ≤ 3 → s.ept.cur.entry l ≠ a) : EptInv env allocPage (s.store a 0) := by
  have hr := h.pool.pages.root_aligned
  have hdead : ∀ x, x.toNat % 8 = 0 → wordsOf (s.store a 0).mem x ≠ wordsOf s.mem x →
      wordsOf (s.store a 0).mem x &&& eptePresentMask = 0 := by
    intro x hx hne
    rw [wordsOf_store s 0 ha hx] at hne ⊢
    split_ifs at hne ⊢
    · rfl
    · exact absurd rfl hne
  refine ⟨poolInv_store_zero h.pool ha, h.cursor.imp id fun hok => ?_, fun hl => h.sound
    (leaf_of_dead_aligned hr hdead hl)⟩
  apply cursorOk_of_unchanged hok
  intro l hl hl3
  have hal := walkEntry_aligned hr (hok.2 l (by omega) hl3)
  rw [wordsOf_store s 0 ha hal, if_neg (hcur l hl hl3)]

end Steps

section Violation

variable {env : Gmm} {allocPage : Nat → UInt64} {s s' : VtEptState} {g : UInt64} {write b : Bool}

theorem MapPost.mapped_self {level : Nat} {v : UInt64} (hm : MapPost allocPage g level v s s') :
    Leaf (wordsOf s'.mem) s'.ept.ncr3tbl g level v := by
  rw [hm.root]
  exact hm.mapped

theorem MapPost.eptInv {level : Nat} (hm : MapPost allocPage g level (leafEntry env g level) s s')
    (hl2 : level ≤ 2) (hs : Sound env s) : EptInv env allocPage s' := by
  refine ⟨hm.inv, .inr (by rw [hm.root]; exact hm.cursor), fun hl => ?_⟩
  rw [hm.root] at hl
  rcases hm.leaf hl with hold | ⟨rfl, hsb, rfl⟩
  · exact hs hold
  · exact ⟨hl2, g, hsb.symm, rfl⟩

theorem violationPage_spec (hm : Moved env allocPage g s)
    (h : violationPage env allocPage s write g = some (b, s')) :
    b = false ∧ EptInv env allocPage s' ∧ Leaf (wordsOf s'.mem) s'.ept.ncr3tbl g 0 (leafEntry env g 0) := by
  unfold violationPage at h
  cases hmp : vtEptMapPage env allocPage s write g with
  | none =>
    rw [hmp] at h
    exact absurd h (by simp)
  | some s1 =>
    rw [hmp, Option.map_some, Option.some.injEq, Prod.mk.injEq] at h
    obtain ⟨rfl, rfl⟩ := h
    have hpost := vtEptMapPage_spec env hm.inv.pool hm.gphys hm.cursor hmp
    exact ⟨rfl, hpost.eptInv (Nat.zero_le 2) hm.inv.sound, hpost.mapped_self⟩

theorem violation2m_spec (hm : Moved env allocPage g s)
    (h : violation2m env allocPage s write g = some (b, s')) :
    b = false ∧ EptInv env allocPage s' ∧ ∃ l ≤ 1, Leaf (wordsOf s'.mem) s'.ept.ncr3tbl g l (leafEntry env g l) := by
  unfold violation2m at h
  dsimp only at h
  rcases vtEptMap2mpage_spec env hm.inv.pool hm.gphys hm.cursor hm.bot with ⟨h1, h2⟩ | ⟨h1, hpost⟩
  · rw [if_pos h1, h2] at h
    obtain ⟨hb, hinv, hleaf⟩ := violationPage_spec hm h
    exact ⟨hb, hinv, 0, Nat.zero_le 1, hleaf⟩
  · rw [if_neg (by rw [h1]; decide), Option.some.injEq, Prod.mk.injEq] at h
    obtain ⟨rfl, rfl⟩ := h
    exact ⟨rfl, hpost.eptInv (by omega) hm.inv.sound, 1, le_rfl, hpost.mapped_self⟩

theorem violation1g_spec (hm : Moved env allocPage g s)
    (h : violation1g env allocPage s write g = some (b, s')) :
    b = false ∧ EptInv env allocPage s' ∧ Mapped env s' g := by
  unfold violation1g at h
  dsimp only at h
  rcases vtEptMap1gpage_spec env hm.inv.pool hm.gphys hm.cursor hm.bot with ⟨h1, h2⟩ | ⟨h1, hpost⟩
  · rw [if_pos h1, h2] at h
    obtain ⟨hb, hinv, l, hl, hleaf⟩ := violation2m_spec hm h
    exact ⟨hb, hinv, l, by omega, hleaf⟩
  · rw [if_neg (by rw [h1]; decide), Option.some.injEq, Prod.mk.injEq] at h
    obtain ⟨rfl, rfl⟩ := h
    exact ⟨rfl, hpost.eptInv le_rfl hm.inv.sound, 2, le_rfl, hpost.mapped_self⟩

/-- `vt_ept_violation (write, g, emulation)` keeps the invariant, and unless
it reports an MMIO access `g` is mapped afterwards. -/
theorem vtEptViolation_spec (h : EptInv env allocPage s) {reg : X86Mmio.Registry}
    (hv : vtEptViolation env allocPage reg s write g = some (b, s')) :
    EptInv env allocPage s' ∧ (b = false → Mapped env s' g) := by
  have hm := moved_curMove h g
  unfold vtEptViolation at hv
  dsimp only at hv
  split at hv
  · obtain ⟨-, hinv, hmap⟩ := violation1g_spec hm hv
    exact ⟨hinv, fun _ => hmap⟩
  · obtain ⟨-, hinv, l, hl, hleaf⟩ := violation2m_spec hm hv
    exact ⟨hinv, fun _ => ⟨l, by omega, hleaf⟩⟩
  · obtain ⟨-, hinv, hleaf⟩ := violationPage_spec hm hv
    exact ⟨hinv, fun _ => ⟨0, by omega, hleaf⟩⟩
  · rw [Option.some.injEq, Prod.mk.injEq] at hv
    obtain ⟨rfl, rfl⟩ := hv
    exact ⟨hm.inv, fun h => absurd h (by decide)⟩

end Violation

section Unmap

variable {env : Gmm} {allocPage : Nat → UInt64} {s : VtEptState}

theorem walkEntry_isSome_of_le {W : Words} {root g : UInt64} {m k : Nat} (hmk : m ≤ k)
    (h : (walkEntry W root g k).isSome) : (walkEntry W root g m).isSome := by
  rw [walkEntry_eq_walk] at h ⊢
  exact PtrWalk.walk_isSome_of_le hmk h

theorem not_leaf_of_cursor {W : Words} {R : UInt64} {c : Cur} (hok : CursorOk W R c)
    (hz : W (c.entry c.level) &&& eptePresentMask = 0) {l : Nat} {e : UInt64} : ¬Leaf W R c.gphys l e := by
  rintro ⟨hl, a, hwalk, he, hpres, hlarge⟩
  have hL := hok.1
  have hc := hok.2 c.level le_rfl hL
  rcases lt_trichotomy l c.level with hlt | heq | hgt
  · have hsome := walkEntry_isSome_of_le (show 3 - c.level + 1 ≤ 3 - l by omega) (by rw [hwalk]; rfl)
    obtain ⟨b, hb⟩ := Option.isSome_iff_exists.mp hsome
    obtain ⟨b', hb', hgo, -⟩ := walkEntry_succ_eq_some.mp hb
    rw [hc, Option.some.injEq] at hb'
    subst hb'
    exact hgo (.inl hz)
  · subst heq
    rw [hc, Option.some.injEq] at hwalk
    subst hwalk
    rw [← he] at hpres
    exact hpres hz
  · rw [hok.2 l (by omega) hl, Option.some.injEq] at hwalk
    subst hwalk
    have hnext := hok.2 (l - 1) (by omega) (by omega)
    rw [show 3 - (l - 1) = 3 - l + 1 by omega, walkEntry_succ_eq_some] at hnext
    obtain ⟨b, hb, hgo, -⟩ := hnext
    rw [hok.2 l (by omega) hl, Option.some.injEq] at hb
    subst hb
    rcases hlarge with h0 | hlg
    · omega
    · rw [← he] at hlg
      exact hgo (.inr hlg)

@[simp] theorem vtEptShadowInvalidate_ncr3tbl (g : UInt64) :
    (vtEptShadowInvalidate s g).ept.ncr3tbl = s.ept.ncr3tbl := by
  unfold vtEptShadowInvalidate
  dsimp only
  split_ifs <;> simp [curMove_ncr3tbl]

/-- `vt_ept_shadow_invalidate (ept, g)` keeps the invariant and leaves `g`
unmapped. -/
theorem vtEptShadowInvalidate_spec (h : EptInv env allocPage s) (g : UInt64) :
    EptInv env allocPage (vtEptShadowInvalidate s g) ∧ ∀ {l : Nat} {e : UInt64},
      ¬Leaf (wordsOf (vtEptShadowInvalidate s g).mem) (vtEptShadowInvalidate s g).ept.ncr3tbl g l e := by
  have hm := moved_curMove h g
  obtain ⟨lv, ht⟩ := hm.inv.pool.tree
  have hL := hm.cursor.1
  have hp := hm.cursor.2 _ le_rfl hL
  have hpa := walkEntry_aligned hm.inv.pool.pages.root_aligned hp
  unfold vtEptShadowInvalidate
  dsimp only
  split_ifs with hpres
  · have hcur : ∀ l, (s.curMove g).ept.cur.level < l → l ≤ 3 →
        (s.curMove g).ept.cur.entry l ≠ (s.curMove g).ept.cur.entry (s.curMove g).ept.cur.level := by
      intro l hl hl3 heq
      have := ht.depth_eq (show 3 - l ≤ 3 by omega) (show 3 - (s.curMove g).ept.cur.level ≤ 3 by omega)
        (hm.cursor.2 l (by omega) hl3) (by rw [heq]; exact hp)
      omega
    have hinv := eptInv_store_zero hm.inv hpa hcur
    refine ⟨hinv, fun {l e} hl => ?_⟩
    have hok := hinv.cursor.resolve_left (by simp only [VtEptState.store_ept]; omega)
    simp only [VtEptState.store_ept] at hok hl
    have hno := not_leaf_of_cursor hok (by rw [wordsOf_store _ 0 hpa hpa, if_pos rfl]; decide) (l := l) (e := e)
    rw [hm.gphys] at hno
    exact hno hl
  · refine ⟨hm.inv, fun {l e} hl => ?_⟩
    have hno := not_leaf_of_cursor hm.cursor (not_not.mp hpres) (l := l) (e := e)
    rw [hm.gphys] at hno
    exact hno hl

/-- `vt_ept_clear (ept)` keeps the invariant and leaves nothing mapped. -/
theorem vtEptClear_spec (h : EptInv env allocPage s) :
    EptInv env allocPage (vtEptClear s) ∧ ∀ {g e : UInt64} {l : Nat},
      ¬Leaf (wordsOf (vtEptClear s).mem) (vtEptClear s).ept.ncr3tbl g l e := by
  have hR : (vtEptClear s).ept.ncr3tbl = s.ept.ncr3tbl := by simp [vtEptClear]
  have hno : ∀ {g e : UInt64} {l : Nat}, ¬Leaf (wordsOf (vtEptClear s).mem) (vtEptClear s).ept.ncr3tbl g l e := by
    intro g e l hl
    rw [hR] at hl
    exact not_leaf_reset h.pool 4 hl
  exact ⟨⟨poolInv_reset h.pool 4, .inl (by simp [vtEptClear]), fun hl => absurd hl hno⟩, hno⟩

end Unmap

/-- The range of a search misses the entries that attach the tables:
`vt_ept_extern_mapsearch`'s test fails on the pointer to every table of the
pool. -/
def MissesTables (mask start endAddr : UInt64) (allocPage : Nat → UInt64) (n : Nat) : Prop :=
  ∀ j < n, mapsearchHit mask start endAddr (allocPage j ||| epteReadexec ||| epteWrite) = false

section Mapsearch

variable {env : Gmm} {allocPage : Nat → UInt64} {mask start endAddr : UInt64} {isCurrent : Bool}

theorem mapsearchHit_cursor {s : VtEptState} (h : EptInv env allocPage s)
    (hmiss : MissesTables mask start endAddr allocPage s.cnt) {l : Nat} (hl : s.ept.cur.level < l) (hl3 : l ≤ 3) :
    mapsearchHit mask start endAddr (wordsOf s.mem (s.ept.cur.entry l)) = false := by
  rcases h.cursor with h4 | hok
  · omega
  obtain ⟨lv, ht⟩ := h.pool.tree
  have hw := hok.2 l (by omega) hl3
  have hnext := hok.2 (l - 1) (by omega) (by omega)
  rw [show 3 - (l - 1) = 3 - l + 1 by omega, walkEntry_succ_eq_some] at hnext
  obtain ⟨b, hb, hgo, -⟩ := hnext
  rw [hw, Option.some.injEq] at hb
  subst hb
  obtain ⟨j, hj, hptr⟩ := ht.ptr_of_walkEntry (by omega) hw hgo
  rw [hptr]
  exact hmiss j hj

theorem PoolInv.slot_aligned {s : VtEptState} (h : PoolInv allocPage s) (i : Nat) :
    ((s.tbl i).getD 0).toNat % 8 = 0 := by
  rcases h.tbl i with hi | hi
  · rw [hi]
    rfl
  · rw [hi, Option.getD_some]
    have := h.pages.aligned i
    omega

theorem eq_entry_of_inPage {t a : UInt64} (ht : t.toNat % 4096 = 0) (ha : a.toNat % 8 = 0) (hin : InPage t a) :
    ∃ j < 512, a = t + 8 * j.toUInt64 := by
  unfold InPage pageNum at hin
  have hlt : (a.toNat - t.toNat) / 8 < 512 := by omega
  have hj : ((a.toNat - t.toNat) / 8).toUInt64.toNat = (a.toNat - t.toNat) / 8 := by
    simp only [Nat.toUInt64_eq, UInt64.toNat_ofNat']
    exact Nat.mod_eq_of_lt (by omega)
  refine ⟨(a.toNat - t.toNat) / 8, hlt, UInt64.toNat_inj.mp ?_⟩
  rw [toNat_add_entry ht (by rw [hj]; exact hlt), hj]
  omega

theorem toNat_add_mul8 {t : UInt64} (ht : t.toNat % 8 = 0) (j : UInt64) : (t + 8 * j).toNat % 8 = 0 := by
  rw [UInt64.toNat_add, UInt64.toNat_mul, show (8 : UInt64).toNat = 8 from rfl]
  omega

theorem mapsearchEntries_inv (isCurrent : Bool) {t : UInt64} (ht8 : t.toNat % 8 = 0) (js : List Nat) :
    ∀ s : VtEptState, EptInv env allocPage s → MissesTables mask start endAddr allocPage s.cnt →
      EptInv env allocPage (mapsearchEntries mask start endAddr isCurrent t js s).2 ∧
        (mapsearchEntries mask start endAddr isCurrent t js s).2.cnt = s.cnt := by
  induction js with
  | nil => exact fun s h _ => ⟨h, rfl⟩
  | cons j js ih =>
    intro s h hmiss
    have ha := toNat_add_mul8 ht8 j.toUInt64
    simp only [mapsearchEntries]
    split_ifs with hhit hcur
    · exact ⟨h, rfl⟩
    · -- the cursor's entries above its level
      have hne : ∀ l, s.ept.cur.level < l → l ≤ 3 → s.ept.cur.entry l ≠ t + 8 * j.toUInt64 := by
        intro l hl hl3 heq
        have := mapsearchHit_cursor h hmiss hl hl3
        rw [heq, hhit.2] at this
        exact absurd this (by decide)
      obtain ⟨h', hc⟩ := ih _ (eptInv_store_zero h ha hne) hmiss
      exact ⟨h', hc⟩
    · exact ih s h hmiss

theorem mapsearchTables_inv (is : List Nat) :
    ∀ s : VtEptState, EptInv env allocPage s → MissesTables mask start endAddr allocPage s.cnt →
      EptInv env allocPage (mapsearchTables mask start endAddr isCurrent is s).2 := by
  induction is with
  | nil => exact fun s h _ => h
  | cons i is ih =>
    intro s h hmiss
    obtain ⟨h', hc⟩ := mapsearchEntries_inv isCurrent (h.pool.slot_aligned i) (List.range 512) s h hmiss
    rw [mapsearchTables]
    generalize mapsearchEntries mask start endAddr isCurrent ((s.tbl i).getD 0) (List.range 512) s = r at h' hc
    split_ifs
    · exact h'
    · apply ih _ h'
      rw [hc]
      exact hmiss

/-- `vt_ept_extern_mapsearch (p, start, end)` keeps the invariant when its
range misses the tables. -/
theorem vtEptExternMapsearch_inv {s : VtEptState} (h : EptInv env allocPage s)
    (hmiss : MissesTables mask start endAddr allocPage s.cnt) :
    EptInv env allocPage (vtEptExternMapsearch mask start endAddr isCurrent s).2 :=
  mapsearchTables_inv _ s h hmiss

def SearchMiss (mask start endAddr : UInt64) (W : Words) (b : UInt64) : Prop :=
  W b &&& epteRead = 0 ∨ mapsearchHit mask start endAddr (W b) = false

theorem searchMiss_of_not_hit {W : Words} {b : UInt64}
    (h : ¬(W b &&& epteRead ≠ 0 ∧ mapsearchHit mask start endAddr (W b) = true)) :
    SearchMiss mask start endAddr W b := by
  by_cases hr : W b &&& epteRead = 0
  · exact .inl hr
  · exact .inr (Bool.eq_false_iff.mpr fun hh => h ⟨hr, hh⟩)

theorem searchMiss_store_zero {s : VtEptState} {a b : UInt64} (ha : a.toNat % 8 = 0) (hb : b.toNat % 8 = 0)
    (h : b ≠ a → SearchMiss mask start endAddr (wordsOf s.mem) b) :
    SearchMiss mask start endAddr (wordsOf (s.store a 0).mem) b := by
  unfold SearchMiss
  rw [wordsOf_store s 0 ha hb]
  split_ifs with hab
  · exact .inl (by decide)
  · exact h hab

theorem mapsearchEntries_cons (t : UInt64) (j : Nat) (js : List Nat) (s : VtEptState) :
    mapsearchEntries mask start endAddr isCurrent t (j :: js) s =
      if wordsOf s.mem (t + 8 * j.toUInt64) &&& epteRead ≠ 0 ∧
          mapsearchHit mask start endAddr (wordsOf s.mem (t + 8 * j.toUInt64)) then
        if !isCurrent then (true, s)
        else mapsearchEntries mask start endAddr isCurrent t js (s.store (t + 8 * j.toUInt64) 0)
      else mapsearchEntries mask start endAddr isCurrent t js s := rfl

theorem mapsearchEntries_mem_only (mask start endAddr : UInt64) (isCurrent : Bool) (t : UInt64) (js : List Nat) :
    ∀ s : VtEptState, ∃ m, (mapsearchEntries mask start endAddr isCurrent t js s).2 = { s with mem := m } := by
  induction js with
  | nil => exact fun s => ⟨s.mem, rfl⟩
  | cons j js ih =>
    intro s
    rw [mapsearchEntries_cons]
    split_ifs
    · exact ⟨s.mem, rfl⟩
    · exact ih (s.store (t + 8 * j.toUInt64) 0)
    · exact ih s

theorem mapsearchTables_mem_only (mask start endAddr : UInt64) (isCurrent : Bool) (is : List Nat) :
    ∀ s : VtEptState, ∃ m, (mapsearchTables mask start endAddr isCurrent is s).2 = { s with mem := m } := by
  induction is with
  | nil => exact fun s => ⟨s.mem, rfl⟩
  | cons i is ih =>
    intro s
    obtain ⟨m₁, hm₁⟩ := mapsearchEntries_mem_only mask start endAddr isCurrent ((s.tbl i).getD 0) (List.range 512) s
    rw [mapsearchTables]
    generalize mapsearchEntries mask start endAddr isCurrent ((s.tbl i).getD 0) (List.range 512) s = r at hm₁
    obtain ⟨b, s₁⟩ := r
    dsimp only at hm₁ ⊢
    subst hm₁
    cases b
    · exact ih _
    · exact ⟨m₁, rfl⟩

theorem mapsearchEntries_miss (mask start endAddr : UInt64) (isCurrent : Bool) {t : UInt64}
    (ht8 : t.toNat % 8 = 0) (js : List Nat) :
    ∀ s : VtEptState, (mapsearchEntries mask start endAddr isCurrent t js s).1 = false →
      (∀ b, b.toNat % 8 = 0 → SearchMiss mask start endAddr (wordsOf s.mem) b →
        SearchMiss mask start endAddr (wordsOf (mapsearchEntries mask start endAddr isCurrent t js s).2.mem) b) ∧
      ∀ j ∈ js, SearchMiss mask start endAddr
        (wordsOf (mapsearchEntries mask start endAddr isCurrent t js s).2.mem) (t + 8 * j.toUInt64) := by
  induction js with
  | nil => exact fun s _ => ⟨fun _ _ h => h, fun _ hj => absurd hj List.not_mem_nil⟩
  | cons j js ih =>
    intro s hres
    have ha := toNat_add_mul8 ht8 j.toUInt64
    rw [mapsearchEntries_cons] at hres ⊢
    by_cases hhit : wordsOf s.mem (t + 8 * j.toUInt64) &&& epteRead ≠ 0 ∧
        mapsearchHit mask start endAddr (wordsOf s.mem (t + 8 * j.toUInt64)) = true
    · rw [if_pos hhit] at hres ⊢
      cases isCurrent with
      | false => exact absurd hres (by simp)
      | true =>
        obtain ⟨hkeep, hjs⟩ := ih _ hres
        refine ⟨fun b hb h => hkeep b hb (searchMiss_store_zero ha hb fun _ => h), fun j' hj' => ?_⟩
        rcases List.mem_cons.mp hj' with rfl | hj'
        · exact hkeep _ ha (searchMiss_store_zero ha ha fun hne => absurd rfl hne)
        · exact hjs j' hj'
    · rw [if_neg hhit] at hres ⊢
      obtain ⟨hkeep, hjs⟩ := ih s hres
      refine ⟨hkeep, fun j' hj' => ?_⟩
      rcases List.mem_cons.mp hj' with rfl | hj'
      · exact hkeep _ ha (searchMiss_of_not_hit hhit)
      · exact hjs j' hj'

theorem mapsearchTables_miss (is : List Nat) :
    ∀ s : VtEptState, (∀ i, ((s.tbl i).getD 0).toNat % 8 = 0) →
      (mapsearchTables mask start endAddr isCurrent is s).1 = false →
      (∀ b, b.toNat % 8 = 0 → SearchMiss mask start endAddr (wordsOf s.mem) b →
        SearchMiss mask start endAddr (wordsOf (mapsearchTables mask start endAddr isCurrent is s).2.mem) b) ∧
      ∀ i ∈ is, ∀ j < 512, SearchMiss mask start endAddr
        (wordsOf (mapsearchTables mask start endAddr isCurrent is s).2.mem) ((s.tbl i).getD 0 + 8 * j.toUInt64) := by
  induction is with
  | nil => exact fun s _ _ => ⟨fun _ _ h => h, fun _ hi => absurd hi List.not_mem_nil⟩
  | cons i is ih =>
    intro s ht8 hres
    have hent := mapsearchEntries_miss mask start endAddr isCurrent (ht8 i) (List.range 512) s
    obtain ⟨m₁, hm₁⟩ := mapsearchEntries_mem_only mask start endAddr isCurrent ((s.tbl i).getD 0) (List.range 512) s
    rw [mapsearchTables] at hres ⊢
    generalize mapsearchEntries mask start endAddr isCurrent ((s.tbl i).getD 0) (List.range 512) s = r at hent hm₁ hres ⊢
    obtain ⟨b, s₁⟩ := r
    dsimp only at hent hm₁ hres ⊢
    cases b with
    | true => exact absurd hres (by simp)
    | false =>
      obtain ⟨hkeep₁, hjs₁⟩ := hent rfl
      subst hm₁
      rw [if_neg (by decide)] at hres ⊢
      obtain ⟨hkeep, his⟩ := ih { s with mem := m₁ } ht8 hres
      refine ⟨fun b hb h => hkeep b hb (hkeep₁ b hb h), fun i' hi' j hj => ?_⟩
      rcases List.mem_cons.mp hi' with rfl | hi'
      · exact hkeep _ (toNat_add_mul8 (ht8 i') _) (hjs₁ j (List.mem_range.mpr hj))
      · exact his i' hi' j hj

theorem mapsearchEntries_of_no_hit (hno : ∀ e, mapsearchHit mask start endAddr e = false) (t : UInt64)
    (js : List Nat) : ∀ s : VtEptState, mapsearchEntries mask start endAddr isCurrent t js s = (false, s) := by
  induction js with
  | nil => exact fun s => rfl
  | cons j js ih =>
    intro s
    rw [mapsearchEntries_cons, if_neg (fun h => by rw [hno] at h; exact absurd h.2 (by decide)), ih]

theorem vtEptExternMapsearch_of_no_hit (hno : ∀ e, mapsearchHit mask start endAddr e = false) (s : VtEptState) :
    vtEptExternMapsearch mask start endAddr isCurrent s = (false, s) := by
  unfold vtEptExternMapsearch
  generalize List.range s.cnt = is
  induction is generalizing s with
  | nil => rfl
  | cons i is ih =>
    rw [mapsearchTables, mapsearchEntries_of_no_hit hno]
    exact ih s

theorem mapsearchEntries_current (t : UInt64) (js : List Nat) :
    ∀ s : VtEptState, (mapsearchEntries mask start endAddr true t js s).1 = false := by
  induction js with
  | nil => exact fun _ => rfl
  | cons j js ih =>
    intro s
    rw [mapsearchEntries_cons]
    split_ifs with hhit hcur
    · exact absurd hcur (by decide)
    · exact ih _
    · exact ih s

theorem vtEptExternMapsearch_current (s : VtEptState) :
    (vtEptExternMapsearch mask start endAddr true s).1 = false := by
  unfold vtEptExternMapsearch
  generalize List.range s.cnt = is
  induction is generalizing s with
  | nil => rfl
  | cons i is ih =>
    rw [mapsearchTables, if_neg (by rw [mapsearchEntries_current]; decide)]
    exact ih _

theorem mapsearchEntries_keep (mask start endAddr : UInt64) (isCurrent : Bool) {t : UInt64}
    (ht8 : t.toNat % 8 = 0) (js : List Nat) :
    ∀ s : VtEptState, ∀ b, b.toNat % 8 = 0 → SearchMiss mask start endAddr (wordsOf s.mem) b →
      wordsOf (mapsearchEntries mask start endAddr isCurrent t js s).2.mem b = wordsOf s.mem b := by
  induction js with
  | nil => exact fun _ _ _ _ => rfl
  | cons j js ih =>
    intro s b hb hmiss
    have ha := toNat_add_mul8 ht8 j.toUInt64
    rw [mapsearchEntries_cons]
    split_ifs with hhit hcur
    · rfl
    · have hne : b ≠ t + 8 * j.toUInt64 := by
        rintro rfl
        rcases hmiss with hrd | hno
        · exact hhit.1 hrd
        · exact absurd (hno ▸ hhit.2) (by decide)
      rw [ih _ b hb (searchMiss_store_zero ha hb fun _ => hmiss), wordsOf_store s 0 ha hb, if_neg hne]
    · exact ih s b hb hmiss

theorem mapsearchTables_keep (mask start endAddr : UInt64) (isCurrent : Bool) (is : List Nat) :
    ∀ s : VtEptState, (∀ i, ((s.tbl i).getD 0).toNat % 8 = 0) → ∀ b, b.toNat % 8 = 0 →
      SearchMiss mask start endAddr (wordsOf s.mem) b →
      wordsOf (mapsearchTables mask start endAddr isCurrent is s).2.mem b = wordsOf s.mem b := by
  induction is with
  | nil => exact fun _ _ _ _ _ => rfl
  | cons i is ih =>
    intro s ht8 b hb hmiss
    have hkeep₁ := mapsearchEntries_keep mask start endAddr isCurrent (ht8 i) (List.range 512) s b hb hmiss
    obtain ⟨m₁, hm₁⟩ := mapsearchEntries_mem_only mask start endAddr isCurrent ((s.tbl i).getD 0) (List.range 512) s
    rw [mapsearchTables]
    generalize mapsearchEntries mask start endAddr isCurrent ((s.tbl i).getD 0) (List.range 512) s = r at hkeep₁ hm₁
    obtain ⟨c, s₁⟩ := r
    dsimp only at hkeep₁ hm₁ ⊢
    subst hm₁
    split_ifs
    · exact hkeep₁
    · have hmiss₁ : SearchMiss mask start endAddr (wordsOf m₁) b := by
        unfold SearchMiss
        rw [hkeep₁]
        exact hmiss
      rw [ih { s with mem := m₁ } ht8 b hb hmiss₁, hkeep₁]

theorem searchMiss_of_walkEntry {s : VtEptState} (h : EptInv env allocPage s)
    (hmiss : MissesTables mask start endAddr allocPage s.cnt) {g a : UInt64} {k : Nat} (hk : k < 3)
    (hw : walkEntry (wordsOf s.mem) s.ept.ncr3tbl g k = some a) (hgo : ¬Stops (wordsOf s.mem a)) :
    SearchMiss mask start endAddr (wordsOf s.mem) a := by
  obtain ⟨lv, ht⟩ := h.pool.tree
  obtain ⟨j, hj, hptr⟩ := ht.ptr_of_walkEntry hk hw hgo
  exact .inr (by rw [hptr]; exact hmiss j hj)

/-- A leaf whose entry the test fails on survives the search. -/
theorem leaf_vtEptExternMapsearch {s : VtEptState} (h : EptInv env allocPage s)
    (hmiss : MissesTables mask start endAddr allocPage s.cnt) {g e : UInt64} {l : Nat}
    (hl : Leaf (wordsOf s.mem) s.ept.ncr3tbl g l e) (he : mapsearchHit mask start endAddr e = false) :
    Leaf (wordsOf (vtEptExternMapsearch mask start endAddr isCurrent s).2.mem) s.ept.ncr3tbl g l e := by
  obtain ⟨lv, ht⟩ := h.pool.tree
  obtain ⟨hl3, a, hwalk, hWa, -⟩ := id hl
  refine Leaf.of_kept (fun k hk b hb => ?_) hl
  apply mapsearchTables_keep mask start endAddr isCurrent _ s h.pool.slot_aligned b
    (ht.walkEntry_mem (by omega) hb).1
  rcases Nat.lt_or_ge k (3 - l) with hlt | hge
  · obtain ⟨c, hc⟩ := Option.isSome_iff_exists.mp
      (walkEntry_isSome_of_le (m := k + 1) (k := 3 - l) (by omega) (by rw [hwalk]; rfl))
    obtain ⟨b', hb', hgo, -⟩ := walkEntry_succ_eq_some.mp hc
    rw [hb, Option.some.injEq] at hb'
    subst hb'
    exact searchMiss_of_walkEntry h hmiss (by omega) hb hgo
  · obtain rfl : k = 3 - l := by omega
    rw [hwalk, Option.some.injEq] at hb
    subst hb
    exact .inr (by rw [hWa]; exact he)

end Mapsearch

section Build

variable {env : Gmm} {allocPage : Nat → UInt64} {s : VtEptState}

theorem vtEptMap1mb_inv (h : EptInv env allocPage s) {isMmio : UInt64 → Bool} {s' : VtEptState}
    (hm : vtEptMap1mb env allocPage isMmio s = some s') : EptInv env allocPage s' := by
  refine StepRun.foldlM_invariant _ (fun s1 i s2 h1 hs => ?_) _ _ _ (vtEptClear_spec h).1 hm
  dsimp only at hs
  split_ifs at hs
  · rw [Option.some.injEq] at hs
    rwa [← hs]
  · have hmv := moved_curMove h1 ((i * 4096 : Nat).toUInt64)
    exact (vtEptMapPage_spec env hmv.inv.pool hmv.gphys hmv.cursor hs).eptInv (Nat.zero_le 2) hmv.inv.sound

theorem poolInv_eptTblAlloc (hinv : PoolInv allocPage s) {i : Nat} (hi : i < maxnumOfEptbl) :
    PoolInv allocPage (s.eptTblAlloc allocPage i) := by
  have htbl := hinv.tbl i
  have hRi : pageNum s.ept.ncr3tbl ≠ pageNum (allocPage i) := fun h => hinv.pages.ne_root i h.symm
  rw [eptTblAlloc_eq s htbl]
  refine ⟨hinv.pages, hinv.cnt_le, fun j => ?_, fun j hj => ?_, hinv.tree, fun j hj => ?_, ?_, fun j hj => ?_⟩
  · dsimp only
    by_cases hji : j = i
    · subst hji
      simp
    · rw [Function.update_of_ne hji]
      exact hinv.tbl j
  · dsimp only at hj ⊢
    by_cases hji : j = i
    · subst hji
      simp
    · rw [Function.update_of_ne hji]
      exact hinv.attached j hj
  · by_cases hprev : s.tbl j = none
    · have hji : j = i := by
        by_contra hne
        exact hj (by simp only; rw [Function.update_of_ne hne, hprev])
      subst hji
      apply PageMarked.of_all
      simp [hprev]
    · have h := (hinv.marked j hprev).alloc allocPage i
      rwa [eptTblAlloc_eq s htbl] at h
  · refine hinv.rootUsed.of_page ?_ ?_ ?_
    · rfl
    · exact fun _ _ => rfl
    dsimp only
    split_ifs
    · exact Function.update_of_ne hRi _ _
    · rfl
  · by_cases hji : j = i
    · omega
    · simp only at hj
      rw [Function.update_of_ne hji] at hj
      exact hinv.slots j hj

theorem eptInv_eptTblAlloc (h : EptInv env allocPage s) {i : Nat} (hi : i < maxnumOfEptbl) :
    EptInv env allocPage (s.eptTblAlloc allocPage i) := by
  refine ⟨poolInv_eptTblAlloc h.pool hi, by simpa using h.cursor, fun hl => ?_⟩
  simp only [eptTblAlloc_mem, eptTblAlloc_ept] at hl
  exact h.sound hl

theorem vtEptNew_inv (env : Gmm) {ncr3tbl : UInt64} (hpg : PagesOk ncr3tbl allocPage) (maxnumtbl : Int)
    (ept1gb : Bool) (mem : Nat → UInt8) (storage : Nat → UInt32) :
    EptInv env allocPage (vtEptNew allocPage ncr3tbl maxnumtbl ept1gb mem storage) := by
  have hR := pageNum_mul hpg.root_aligned
  have hzero : ∀ a, InPage ncr3tbl a → a.toNat % 8 = 0 →
      wordsOf (ByteMem.write mem ncr3tbl.toNat (List.replicate 4096 0)) a = 0 := by
    intro a hin ha
    apply wordsOf_of_zero
    intro i hi
    rw [ByteMem.write_replicate_zero, if_pos]
    unfold InPage pageNum at hin
    unfold pageNum at hR
    omega
  have hentry : ∀ g, wordsOf (ByteMem.write mem ncr3tbl.toNat (List.replicate 4096 0)) (ncr3tbl + 8 * eptIndex g 3) = 0 := by
    intro g
    have hi := eptIndex_toNat_lt g 3
    apply hzero
    · rw [InPage, pageNum, pageNum, toNat_add_entry hpg.root_aligned hi]
      omega
    · rw [toNat_add_entry hpg.root_aligned hi]
      omega
  unfold vtEptNew
  generalize (if maxnumtbl < 8 then 8 else if maxnumtbl > (maxnumOfEptbl : Int) then (maxnumOfEptbl : Int)
    else maxnumtbl) = M
  refine List.foldlRecOn (motive := EptInv env allocPage) _ _ ?_ fun s hs i hi => ?_
  · refine ⟨⟨hpg, Nat.zero_le _, fun _ => .inl rfl, fun i hi => absurd hi (Nat.not_lt_zero _),
      ⟨fun _ => 0, tableTree_empty hpg.root_aligned hzero _⟩, fun i hi => absurd rfl hi, ⟨?_, ?_⟩,
      fun i hi => absurd rfl hi⟩, .inl rfl, ?_⟩
    · show (Function.update storage (pageNum ncr3tbl) 0 (pageNum ncr3tbl)).toNat < 4096
      rw [Function.update_self]
      decide
    · intro j hj hne
      refine absurd ?_ hne
      show ByteMem.write mem ncr3tbl.toNat (List.replicate 4096 0) (pageNum ncr3tbl * 4096 + j) = 0
      rw [ByteMem.write_replicate_zero, if_pos]
      unfold pageNum at hR ⊢
      omega
    · intro g e l hl
      exact absurd hl (not_leaf_of_root_zero (hentry g))
  · rw [List.mem_range] at hi
    split_ifs
    · exact eptInv_eptTblAlloc hs (by unfold defnumOfEptbl at hi; unfold maxnumOfEptbl; omega)
    · exact hs

/-- One call of the EPT code on its state: an EPT violation of the guest,
`vt_ept_shadow_invalidate`, `vt_ept_clear`, `vt_ept_extern_mapsearch` over a
range that misses the table pages, and `vt_ept_map_1mb`. -/
inductive Step (env : Gmm) (allocPage : Nat → UInt64) : VtEptState → VtEptState → Prop
  | violation {s s' : VtEptState} (reg : X86Mmio.Registry) (write : Bool) (g : UInt64) (b : Bool)
      (h : vtEptViolation env allocPage reg s write g = some (b, s')) : Step env allocPage s s'
  | shadowInvalidate (s : VtEptState) (g : UInt64) : Step env allocPage s (vtEptShadowInvalidate s g)
  | clear (s : VtEptState) : Step env allocPage s (vtEptClear s)
  | mapsearch (s : VtEptState) (mask start endAddr : UInt64) (isCurrent : Bool)
      (hmiss : MissesTables mask start endAddr allocPage s.cnt) :
      Step env allocPage s (vtEptExternMapsearch mask start endAddr isCurrent s).2
  | map1mb {s s' : VtEptState} (isMmio : UInt64 → Bool) (h : vtEptMap1mb env allocPage isMmio s = some s') :
      Step env allocPage s s'

/-- The states the EPT code reaches from `vt_ept_new`, with a root and table
pages that the allocator gives apart. -/
inductive Reach (env : Gmm) (allocPage : Nat → UInt64) : VtEptState → Prop
  | init {ncr3tbl : UInt64} (hpg : PagesOk ncr3tbl allocPage) (maxnumtbl : Int) (ept1gb : Bool)
      (mem : Nat → UInt8) (storage : Nat → UInt32) :
      Reach env allocPage (vtEptNew allocPage ncr3tbl maxnumtbl ept1gb mem storage)
  | step {s s' : VtEptState} : Reach env allocPage s → Step env allocPage s s' → Reach env allocPage s'

theorem step_eptInv {s' : VtEptState} (h : EptInv env allocPage s) (hs : Step env allocPage s s') :
    EptInv env allocPage s' := by
  cases hs with
  | violation reg write g b hv => exact (vtEptViolation_spec h hv).1
  | shadowInvalidate g => exact (vtEptShadowInvalidate_spec h g).1
  | clear => exact (vtEptClear_spec h).1
  | mapsearch mask start endAddr isCurrent hmiss => exact vtEptExternMapsearch_inv h hmiss
  | map1mb isMmio hm => exact vtEptMap1mb_inv h hm

/-- Every reachable state holds the invariant. Induction on the run. -/
theorem reach_eptInv (h : Reach env allocPage s) : EptInv env allocPage s := by
  induction h with
  | init hpg maxnumtbl ept1gb mem storage => exact vtEptNew_inv env hpg maxnumtbl ept1gb mem storage
  | step _ hs ih => exact step_eptInv ih hs

end Build

def shiftGmm : Gmm :=
  ⟨fun g => (g + 0x100000, false), fun g => g + 0x100000, fun g => g + 0x100000, fun _ => 6, fun _ _ => true⟩

def spacedPages (i : Nat) : UInt64 := ((i % 257 + 2) * 4096 : Nat).toUInt64

theorem toNat_spacedPages (i : Nat) : (spacedPages i).toNat = (i % 257 + 2) * 4096 := by
  have h : (i % 257 + 2) * 4096 < 2 ^ 64 := by omega
  simp only [spacedPages, Nat.toUInt64_eq, UInt64.toNat_ofNat', Nat.mod_eq_of_lt h]

theorem pagesOk_spacedPages : PagesOk 4096 spacedPages := by
  refine ⟨by decide, fun i => ?_, fun i => ?_, fun i j hi hj h => ?_⟩
  · rw [toNat_spacedPages]
    omega
  · unfold pageNum
    rw [toNat_spacedPages]
    show _ ≠ 1
    omega
  · unfold pageNum at h
    rw [toNat_spacedPages, toNat_spacedPages] at h
    unfold maxnumOfEptbl at hi hj
    omega

def newEpt : VtEptState := vtEptNew spacedPages 4096 16 false (fun _ => 0) (fun _ => 0)

/-- `newEpt` after the violation at `0x5000`. -/
def faultedEpt : VtEptState :=
  ((vtEptViolation shiftGmm spacedPages ⟨[], fun _ => []⟩ newEpt false 0x5000).getD (true, newEpt)).2

set_option maxRecDepth 100000 in
theorem vtEptViolation_newEpt :
    vtEptViolation shiftGmm spacedPages ⟨[], fun _ => []⟩ newEpt false 0x5000 = some (false, faultedEpt) := by
  rfl

set_option maxRecDepth 100000 in
example : faultedEpt.cnt = 2 := by decide

theorem reach_newEpt : Reach shiftGmm spacedPages newEpt :=
  Reach.init pagesOk_spacedPages 16 false _ _

theorem reach_faultedEpt : Reach shiftGmm spacedPages faultedEpt :=
  reach_newEpt.step (Step.violation _ false 0x5000 false vtEptViolation_newEpt)

/-- `faultedEpt` after a second violation, at `0x200000`: a second 2 MiB page
in the same table. -/
def twoLeafEpt : VtEptState :=
  ((vtEptViolation shiftGmm spacedPages ⟨[], fun _ => []⟩ faultedEpt false 0x200000).getD (true, faultedEpt)).2

set_option maxRecDepth 100000 in
theorem vtEptViolation_faultedEpt :
    vtEptViolation shiftGmm spacedPages ⟨[], fun _ => []⟩ faultedEpt false 0x200000 = some (false, twoLeafEpt) := by
  rfl

theorem reach_twoLeafEpt : Reach shiftGmm spacedPages twoLeafEpt :=
  reach_faultedEpt.step (Step.violation _ false 0x200000 false vtEptViolation_faultedEpt)

end Bitvisor.Ept
