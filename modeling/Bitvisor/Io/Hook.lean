import Bitvisor.Io.Core
import Bitvisor.Lib.Slots

namespace Bitvisor.Io

variable {H : Type}

/-! The ports a driver hooks with `core_io_register_handler` exit to the VMM and
reach a handler, as long as no descriptor is moved or removed: every port of an
enabled descriptor holds `core_iofunc` with its bitmap bit set, and every port
holding `core_iofunc` lies in an enabled descriptor, so a guest access never
passes such a port through. The descriptor loop then always finds a handler. -/

theorem toNat_toUInt16_and (x : UInt32) : (x &&& 0xFFFF).toUInt16.toNat = x.toNat % 0x10000 := by
  have h1 : (0xFFFF : UInt32).toNat = 2 ^ 16 - 1 := rfl
  rw [UInt32.toNat_toUInt16, UInt32.toNat_and, h1, Nat.and_two_pow_sub_one_eq_mod]
  omega

theorem toUInt32_and_ffff (q : UInt16) : q.toUInt32 &&& 0xFFFF = q.toUInt32 := by
  have h1 : (0xFFFF : UInt32).toNat = 2 ^ 16 - 1 := rfl
  have hq := q.toNat_lt
  rw [UInt32.ext_iff, UInt32.toNat_and, h1, Nat.and_two_pow_sub_one_eq_mod, UInt16.toNat_toUInt32]
  omega

theorem toNat_add_toUInt32 (start : UInt16) (i : ℕ) (h : start.toNat + i < 0x10000) :
    (start.toUInt32 + i.toUInt32).toNat = start.toNat + i := by
  rw [UInt32.toNat_add, UInt16.toNat_toUInt32, Nat.toUInt32_eq, UInt32.toNat_ofNat']
  omega

theorem port_eq_iff (start : UInt16) (i : ℕ) (q : UInt16) (h : start.toNat + i < 0x10000) :
    q = ((start.toUInt32 + i.toUInt32) &&& 0xFFFF).toUInt16 ↔ q.toNat = start.toNat + i := by
  rw [UInt16.ext_iff, toNat_toUInt16_and, toNat_add_toUInt32 start i h]
  omega

theorem setIofuncRange_succ (st : IoState H) (start : UInt16) (n : ℕ) (f : IoFunc) :
    setIofuncRange st start (n + 1) f =
      setIofunc (setIofuncRange st start n f) (start.toUInt32 + n.toUInt32) f := by
  unfold setIofuncRange
  rw [List.range_succ, List.foldl_append, List.foldl_cons, List.foldl_nil]

@[simp]
theorem handlerDescriptor_setIofuncRange (st : IoState H) (start : UInt16) (num : ℕ) (f : IoFunc) :
    (setIofuncRange st start num f).handlerDescriptor = st.handlerDescriptor := by
  induction num with
  | zero => rfl
  | succ n ih => rw [setIofuncRange_succ]; exact ih

@[simp]
theorem hdNum_setIofuncRange (st : IoState H) (start : UInt16) (num : ℕ) (f : IoFunc) :
    (setIofuncRange st start num f).hdNum = st.hdNum := by
  induction num with
  | zero => rfl
  | succ n ih => rw [setIofuncRange_succ]; exact ih

theorem port_setIofuncRange (st : IoState H) (start : UInt16) (f : IoFunc) (q : UInt16) :
    ∀ num, start.toNat + num ≤ 0x10000 →
      ((setIofuncRange st start num f).iofunc q, (setIofuncRange st start num f).iobmp q) =
        if start.toNat ≤ q.toNat ∧ q.toNat < start.toNat + num then (f, f != .doIopassDefault)
        else (st.iofunc q, st.iobmp q) := by
  intro num
  induction num with
  | zero =>
    intro _
    rw [if_neg (by omega)]
    rfl
  | succ n ih =>
    intro hn
    simp only [setIofuncRange_succ, setIofunc, port_eq_iff start n q (by omega)]
    by_cases hq : q.toNat = start.toNat + n
    · rw [if_pos hq, if_pos hq, if_pos (by omega)]
    · rw [if_neg hq, if_neg hq, ih (by omega)]
      by_cases hr : start.toNat ≤ q.toNat ∧ q.toNat < start.toNat + n
      · rw [if_pos hr, if_pos (by omega)]
      · rw [if_neg hr, if_neg (by omega)]

theorem iofunc_setIofuncRange (st : IoState H) (start : UInt16) (f : IoFunc) (q : UInt16) (num : ℕ)
    (h : start.toNat + num ≤ 0x10000) :
    (setIofuncRange st start num f).iofunc q =
      if start.toNat ≤ q.toNat ∧ q.toNat < start.toNat + num then f else st.iofunc q := by
  have hp := port_setIofuncRange st start f q num h
  split at hp <;> rename_i hq
  · rw [if_pos hq]
    exact (Prod.mk.inj hp).1
  · rw [if_neg hq]
    exact (Prod.mk.inj hp).1

theorem iobmp_setIofuncRange (st : IoState H) (start : UInt16) (f : IoFunc) (q : UInt16) (num : ℕ)
    (h : start.toNat + num ≤ 0x10000) :
    (setIofuncRange st start num f).iobmp q =
      if start.toNat ≤ q.toNat ∧ q.toNat < start.toNat + num then f != .doIopassDefault
      else st.iobmp q := by
  have hp := port_setIofuncRange st start f q num h
  split at hp <;> rename_i hq
  · rw [if_pos hq]
    exact (Prod.mk.inj hp).2
  · rw [if_neg hq]
    exact (Prod.mk.inj hp).2

def HandlerDescriptor.covers (d : HandlerDescriptor H) (port : UInt32) : Prop :=
  d.enabled = true ∧ d.start ≤ port ∧ port ≤ d.endPort

instance (d : HandlerDescriptor H) (port : UInt32) : Decidable (d.covers port) :=
  inferInstanceAs (Decidable (_ ∧ _))

theorem covers_toUInt32_iff (d : HandlerDescriptor H) (q : UInt16) :
    d.covers q.toUInt32 ↔ d.enabled = true ∧ d.start.toNat ≤ q.toNat ∧ q.toNat ≤ d.endPort.toNat := by
  simp only [HandlerDescriptor.covers, UInt32.le_iff_toNat_le, UInt16.toNat_toUInt32]

section Loop

variable (hret : H → CoreIo → CoreIoRet)

theorem handlerLoop_hooked_true (io : CoreIo) (port : UInt32) :
    ∀ (ret : CoreIoRet) (ds : List (HandlerDescriptor H)),
      (handlerLoop hret io port ret true ds).2.1 = true := by
  intro ret ds
  induction ds generalizing ret with
  | nil => rfl
  | cons d ds ih =>
    simp only [handlerLoop]
    split
    · split
      · rfl
      · exact ih _
    · exact ih _

theorem handlerLoop_of_covers (io : CoreIo) (port : UInt32) :
    ∀ (ret : CoreIoRet) (hooked : Bool) (ds : List (HandlerDescriptor H)),
      (∃ d ∈ ds, d.covers port) →
        (handlerLoop hret io port ret hooked ds).2.1 = true ∧
          (handlerLoop hret io port ret hooked ds).2.2 ≠ [] := by
  intro ret hooked ds
  induction ds generalizing ret hooked with
  | nil => simp
  | cons d ds ih =>
    intro hd
    simp only [handlerLoop]
    by_cases hc : d.covers port
    · unfold HandlerDescriptor.covers at hc
      rw [if_pos hc]
      split
      · simp
      · exact ⟨handlerLoop_hooked_true hret io port _ ds, List.cons_ne_nil _ _⟩
    · rw [if_neg (by exact hc)]
      obtain ⟨d', hd', hc'⟩ := hd
      have hmem : d' ∈ ds := by
        rcases List.mem_cons.1 hd' with rfl | h
        · exact absurd hc' hc
        · exact h
      exact ih ret hooked ⟨d', hmem, hc'⟩

end Loop

theorem toNat_endPort {start : UInt16} {num : UInt64} (hnum : 0 < num.toNat)
    (hr : start.toNat + num.toNat ≤ 0x10000) :
    (start.toUInt64 + num - 1).toUInt16.toNat = start.toNat + num.toNat - 1 := by
  have h1 : (start.toUInt64 + num).toNat = start.toNat + num.toNat := by
    rw [UInt64.toNat_add, UInt16.toNat_toUInt64]
    omega
  have h2 : (start.toUInt64 + num - 1).toNat = start.toNat + num.toNat - 1 := by
    rw [UInt64.toNat_sub_of_le _ _ (by rw [UInt64.le_iff_toNat_le, h1]; simp; omega), h1]
    rfl
  rw [UInt64.toNat_toUInt16, h2]
  omega

/-- What holds of the table and the ports while drivers only register: the
table keeps its `MAX_HD` slots, `hd_num` counts the descriptors, the ports of
every enabled descriptor are hooked, and only those hold `core_iofunc`. -/
structure Hooked (st : IoState H) : Prop where
  length : st.handlerDescriptor.length = maxHd
  hdNum : st.hdNum = (st.handlerDescriptor.filterMap id).length
  covered : ∀ d ∈ st.handlerDescriptor.filterMap id, ∀ q : UInt16, d.covers q.toUInt32 →
    st.iofunc q = .coreIofunc ∧ st.iobmp q = true
  owned : ∀ q : UInt16, st.iofunc q = .coreIofunc →
    ∃ d ∈ st.handlerDescriptor.filterMap id, d.covers q.toUInt32

theorem hooked_ioInit : Hooked (ioInit : IoState H) where
  length := List.length_replicate
  hdNum := by simp [ioInit]
  covered := by simp [ioInit]
  owned := by simp [ioInit]

theorem Hooked.fill {st : IoState H} {hd : ℕ} {start : UInt16} {num : ℕ}
    {new : HandlerDescriptor H} (hi : Hooked st) (hslot : st.handlerDescriptor[hd]? = some none)
    (hr : start.toNat + num ≤ 0x10000)
    (hcov : ∀ q : UInt16, new.covers q.toUInt32 ↔ start.toNat ≤ q.toNat ∧ q.toNat < start.toNat + num) :
    Hooked (setIofuncRange
      { st with handlerDescriptor := st.handlerDescriptor.set hd (some new), hdNum := st.hdNum + 1 }
      start num .coreIofunc) := by
  have hmem := Slots.mem_filterMap_set_some hslot new
  refine ⟨?_, ?_, ?_, ?_⟩
  · simp [hi.length]
  · rw [hdNum_setIofuncRange, handlerDescriptor_setIofuncRange,
      Slots.length_filterMap_set_some hslot, hi.hdNum]
  · intro d hd q hq
    rw [handlerDescriptor_setIofuncRange, hmem] at hd
    rw [iofunc_setIofuncRange _ _ _ _ _ hr, iobmp_setIofuncRange _ _ _ _ _ hr]
    by_cases hin : start.toNat ≤ q.toNat ∧ q.toNat < start.toNat + num
    · rw [if_pos hin, if_pos hin]
      exact ⟨rfl, rfl⟩
    · rw [if_neg hin, if_neg hin]
      rcases hd with rfl | hd
      · exact absurd ((hcov q).1 hq) hin
      · exact hi.covered d hd q hq
  · intro q hq
    rw [iofunc_setIofuncRange _ _ _ _ _ hr] at hq
    rw [handlerDescriptor_setIofuncRange]
    by_cases hin : start.toNat ≤ q.toNat ∧ q.toNat < start.toNat + num
    · exact ⟨new, (hmem new).2 (Or.inl rfl), (hcov q).2 hin⟩
    · rw [if_neg hin] at hq
      obtain ⟨d, hd, hc⟩ := hi.owned q hq
      exact ⟨d, (hmem d).2 (Or.inr hd), hc⟩

/-- A registration whose range neither is empty nor runs past port `0xFFFF`
hooks its ports and keeps the invariant. -/
theorem coreIoRegisterHandler_hooked {st st' : IoState H} {start : UInt16} {num : UInt64}
    {handler : H} {priority : CoreIoPrio} {hd : ℕ} (hi : Hooked st) (hnum : 0 < num.toNat)
    (hr : start.toNat + num.toNat ≤ 0x10000)
    (h : coreIoRegisterHandler st start num handler priority = some (st', hd)) : Hooked st' := by
  unfold coreIoRegisterHandler at h
  dsimp only at h
  generalize (if priority = .high then 0 else 10) = ihd at h
  split at h
  · simp at h
  rename_i hd' hfind
  have hlt : hd' < maxHd := by
    have := List.mem_range'_1.1 (List.mem_of_find?_eq_some hfind)
    omega
  have hslot : st.handlerDescriptor[hd']? = some none := by
    have hfree := List.find?_some hfind
    rw [List.getElem?_eq_getElem (by rw [hi.length]; exact hlt)] at hfree ⊢
    simpa using hfree
  have he := toNat_endPort hnum hr
  have hen : (start.toUInt64 + num - 1).toUInt16 ≥ start := by
    rw [ge_iff_le, UInt16.le_iff_toNat_le, he]
    omega
  simp only [hen, decide_true, if_true, Option.some.injEq, Prod.mk.injEq] at h
  obtain ⟨rfl, -⟩ := h
  refine hi.fill hslot hr fun q => ?_
  rw [covers_toUInt32_iff]
  simp only [UInt16.toNat_toUInt32, he, true_and]
  omega

section Dispatch

variable (hret : H → CoreIo → CoreIoRet)

theorem coreIofunc_of_covers {st st' : IoState H} {iotype : IoType} {port : UInt32}
    {evs : List (Event H)} (hi : Hooked st)
    (hd : ∃ d ∈ st.handlerDescriptor.filterMap id, d.covers port)
    (h : coreIofunc hret st iotype port = some (st', evs)) :
    st' = st ∧ ∃ handler evs', evs = .handler handler ⟨port.toUInt16, iotypeGetSize iotype, iotypeIsOut iotype⟩ :: evs' := by
  unfold coreIofunc at h
  rw [if_neg (by rw [hi.hdNum]; exact Nat.lt_irrefl _), List.take_of_length_le (Nat.le_of_eq hi.hdNum.symm)] at h
  obtain ⟨hk, hc⟩ := handlerLoop_of_covers hret
    ⟨port.toUInt16, iotypeGetSize iotype, iotypeIsOut iotype⟩ port .default false _ hd
  generalize handlerLoop hret ⟨port.toUInt16, iotypeGetSize iotype, iotypeIsOut iotype⟩ port
    .default false (st.handlerDescriptor.filterMap id) = res at h hk hc
  obtain ⟨ret, hooked, called⟩ := res
  obtain ⟨c, cs, rfl⟩ := List.exists_cons_of_ne_nil hc
  dsimp only at hk
  subst hk
  cases ret <;> simp at h <;> exact ⟨h.1.symm, c, _, h.2.symm⟩

theorem guestIo_state {st st' : IoState H} {iotype : IoType} {port : UInt16}
    {evs : List (Event H)} (hi : Hooked st) (h : guestIo hret st iotype port = some (st', evs)) :
    st' = st := by
  unfold guestIo at h
  split at h
  · unfold callIo at h
    rw [toUInt32_and_ffff] at h
    dsimp only at h
    rw [UInt16.toUInt16_toUInt32] at h
    split at h
    · exact (Prod.mk.inj (Option.some.inj h)).1.symm
    · exact (Prod.mk.inj (Option.some.inj h)).1.symm
    · rename_i hcore
      exact (coreIofunc_of_covers hret hi (hi.owned port hcore) h).1
    · exact (Prod.mk.inj (Option.some.inj h)).1.symm
  · exact (Prod.mk.inj (Option.some.inj h)).1.symm

theorem guestIo_of_covers {st st' : IoState H} {iotype : IoType} {port : UInt16}
    {evs : List (Event H)} {d : HandlerDescriptor H} (hi : Hooked st)
    (hd : d ∈ st.handlerDescriptor.filterMap id) (hc : d.covers port.toUInt32)
    (h : guestIo hret st iotype port = some (st', evs)) :
    st' = st ∧ ∃ handler evs', evs = .handler handler ⟨port, iotypeGetSize iotype, iotypeIsOut iotype⟩ :: evs' := by
  obtain ⟨hcore, hbmp⟩ := hi.covered d hd port hc
  have hexit : ioExits st iotype port = true := by
    have hsize : 0 < iotypeGetSize iotype := by cases iotype <;> decide
    unfold ioExits
    simp only [Bool.or_eq_true, List.any_eq_true, List.mem_range]
    exact Or.inr ⟨0, hsize, by simpa using hbmp⟩
  unfold guestIo callIo at h
  rw [if_pos hexit, toUInt32_and_ffff] at h
  dsimp only at h
  rw [UInt16.toUInt16_toUInt32, hcore] at h
  have := coreIofunc_of_covers hret hi ⟨d, hd, hc⟩ h
  rwa [UInt16.toUInt16_toUInt32] at this

end Dispatch

def Op.InRange : Op H → Prop
  | .register start num _ _ => 0 < num.toNat ∧ start.toNat + num.toNat ≤ 0x10000
  | .access _ _ => True
  | .modify _ _ _ | .unregister _ => False

instance : DecidablePred (@Op.InRange H) := fun op => by
  cases op <;> unfold Op.InRange <;> infer_instance

section Run

variable (hret : H → CoreIo → CoreIoRet)

theorem step_hooked {st st' : IoState H} {op : Op H} {evs : List (Event H)} (hi : Hooked st)
    (hop : op.InRange) (h : step hret st op = some (st', evs)) : Hooked st' := by
  cases op with
  | register start num handler priority =>
    obtain ⟨hnum, hr⟩ := hop
    obtain ⟨⟨s, hd⟩, hreg, hs⟩ := Option.map_eq_some_iff.1 h
    cases hs
    exact coreIoRegisterHandler_hooked hi hnum hr hreg
  | access iotype port =>
    rw [guestIo_state hret hi h]
    exact hi
  | modify => exact hop.elim
  | unregister => exact hop.elim

theorem hooked_of_run {ops : List (Op H)} {st : IoState H} {evss : List (List (Event H))}
    (hops : ∀ op ∈ ops, op.InRange) (h : run hret ioInit ops = some (st, evss)) : Hooked st :=
  StepRun.runSteps_invariant_of Hooked Op.InRange
    (fun _ _ _ _ hop hs hst => step_hooked hret hs hop hst) ops ioInit st evss hops hooked_ioInit h

/-- While drivers only register ranges within the port space, a port holds
`core_iofunc` exactly when an enabled descriptor covers it, and then its
bitmap bit is set: every access to it exits to the VMM. -/
theorem run_iofunc_hooked {ops : List (Op H)} {st : IoState H} {evss : List (List (Event H))}
    (hops : ∀ op ∈ ops, op.InRange) (h : run hret ioInit ops = some (st, evss)) (q : UInt16) :
    (st.iofunc q = .coreIofunc ↔ ∃ d ∈ st.handlerDescriptor.filterMap id, d.covers q.toUInt32) ∧
      (st.iofunc q = .coreIofunc → st.iobmp q = true) := by
  have hi := hooked_of_run hret hops h
  refine ⟨⟨hi.owned q, ?_⟩, fun hq => ?_⟩
  · rintro ⟨d, hd, hc⟩
    exact (hi.covered d hd q hc).1
  · obtain ⟨d, hd, hc⟩ := hi.owned q hq
    exact (hi.covered d hd q hc).2

theorem run_iofunc_hooked_serial :
    ∃ st evss, run (fun _ _ => .done) (ioInit : IoState Nat)
        [.register 0x3F8 8 1 .append, .access .inb 0x3FD] = some (st, evss) ∧
      (st.iofunc 0x3FD = .coreIofunc ↔
        ∃ d ∈ st.handlerDescriptor.filterMap id, d.covers (0x3FD : UInt16).toUInt32) ∧
      (st.iofunc 0x3FD = .coreIofunc → st.iobmp 0x3FD = true) := by
  obtain ⟨st, evss, h⟩ : ∃ st evss, run (fun _ _ => .done) (ioInit : IoState Nat)
      [.register 0x3F8 8 1 .append, .access .inb 0x3FD] = some (st, evss) := ⟨_, _, rfl⟩
  exact ⟨st, evss, h, run_iofunc_hooked _ (by decide) h 0x3FD⟩

/-- While drivers only register ranges within the port space, a guest access
to a port of an enabled descriptor calls a driver handler before anything
else happens, and leaves every hook in place. -/
theorem run_guestIo_handler {ops : List (Op H)} {st st' : IoState H}
    {evss : List (List (Event H))} {d : HandlerDescriptor H} {iotype : IoType} {port : UInt16}
    {evs : List (Event H)} (hops : ∀ op ∈ ops, op.InRange)
    (h : run hret ioInit ops = some (st, evss)) (hd : d ∈ st.handlerDescriptor.filterMap id)
    (hc : d.covers port.toUInt32) (hio : guestIo hret st iotype port = some (st', evs)) :
    st' = st ∧ ∃ handler evs', evs = .handler handler ⟨port, iotypeGetSize iotype, iotypeIsOut iotype⟩ :: evs' :=
  guestIo_of_covers hret (hooked_of_run hret hops h) hd hc hio

theorem run_guestIo_handler_serial :
    ∃ st evss st' evs, run (fun _ _ => .done) (ioInit : IoState Nat)
        [.register 0x3F8 8 1 .append] = some (st, evss) ∧
      guestIo (fun _ _ => .done) st .inb 0x3FD = some (st', evs) ∧
      st' = st ∧ ∃ handler evs', evs = .handler handler ⟨0x3FD, iotypeGetSize .inb, iotypeIsOut .inb⟩ :: evs' :=
  ⟨_, _, _, _, rfl, rfl, @run_guestIo_handler Nat (fun _ _ => .done) [.register 0x3F8 8 1 .append]
    _ _ _ ⟨0x3F8, 0x3FF, 1, .append, true⟩ .inb 0x3FD _ (by decide) rfl (by decide) (by decide) rfl⟩

end Run

end Bitvisor.Io
