import Bitvisor.Lib.Run
import Bitvisor.Lib.Buddy

namespace Bitvisor.Mm

/-- `NUM_OF_PAGES` for the x86 `VMMSIZE_ALL` of 128 MiB. -/
def numOfPages : Nat := 32768

/-- `NUM_OF_ALLOCSIZE`. -/
def numOfAllocsize : Nat := 13

/-- `VMM_START_VIRT` on x86: the virtual address of page 0. -/
def vmmStartVirt : Nat := 0x40000000

/-- `enum page_type`. -/
inductive PageType
  | free | notHead | allocated | allocatedCont | allocatedSmall | reserved
  deriving DecidableEq, Repr

structure Page where
  type : PageType
  allocsize : Nat
  deriving DecidableEq, Repr

/-- `pagestruct` by page number, and `list1_freepage` with each list read
from its head. -/
@[ext]
structure PageState where
  pagestruct : Nat → Page
  list1Freepage : Nat → List Nat

namespace PageState

def page (st : PageState) (i : Nat) : Page := st.pagestruct i

def setType (st : PageState) (i : Nat) (t : PageType) : PageState :=
  { st with pagestruct := fun j => if j = i then { st.pagestruct i with type := t } else st.pagestruct j }

def setAllocsize (st : PageState) (i : Nat) (n : Nat) : PageState :=
  { st with
    pagestruct := fun j => if j = i then { st.pagestruct i with allocsize := n } else st.pagestruct j }

def setList (st : PageState) (n : Nat) (l : List Nat) : PageState :=
  { st with list1Freepage := fun k => if k = n then l else st.list1Freepage k }

/-- `LIST1_ADD`: at the tail. -/
def listAdd (st : PageState) (n i : Nat) : PageState := st.setList n (st.list1Freepage n ++ [i])

/-- `LIST1_PUSH`: at the head. -/
def listPush (st : PageState) (n i : Nat) : PageState := st.setList n (i :: st.list1Freepage n)

/-- `LIST1_DEL`. -/
def listDel (st : PageState) (n i : Nat) : PageState := st.setList n ((st.list1Freepage n).erase i)

@[simp]
theorem page_setType (st : PageState) (i : Nat) (t : PageType) (j : Nat) :
    (st.setType i t).page j = if j = i then { st.page i with type := t } else st.page j := rfl

@[simp]
theorem page_setAllocsize (st : PageState) (i n j : Nat) :
    (st.setAllocsize i n).page j = if j = i then { st.page i with allocsize := n } else st.page j :=
  rfl

@[simp]
theorem page_setList (st : PageState) (n : Nat) (l : List Nat) (j : Nat) :
    (st.setList n l).page j = st.page j := rfl

@[simp]
theorem list_setType (st : PageState) (i : Nat) (t : PageType) :
    (st.setType i t).list1Freepage = st.list1Freepage := rfl

@[simp]
theorem list_setAllocsize (st : PageState) (i n : Nat) :
    (st.setAllocsize i n).list1Freepage = st.list1Freepage := rfl

@[simp]
theorem list_setList (st : PageState) (n : Nat) (l : List Nat) (k : Nat) :
    (st.setList n l).list1Freepage k = if k = n then l else st.list1Freepage k := rfl

@[simp]
theorem page_listDel (st : PageState) (n i j : Nat) : (st.listDel n i).page j = st.page j := rfl

@[simp]
theorem page_listAdd (st : PageState) (n i j : Nat) : (st.listAdd n i).page j = st.page j := rfl

@[simp]
theorem page_listPush (st : PageState) (n i j : Nat) : (st.listPush n i).page j = st.page j := rfl

@[simp]
theorem allocsize_setType (st : PageState) (i : Nat) (t : PageType) (j : Nat) :
    ((st.setType i t).page j).allocsize = (st.page j).allocsize := by
  rw [page_setType]
  split
  · rename_i h
    rw [h]
  · rfl

@[simp]
theorem type_setAllocsize (st : PageState) (i n j : Nat) :
    ((st.setAllocsize i n).page j).type = (st.page j).type := by
  rw [page_setAllocsize]
  split
  · rename_i h
    rw [h]
  · rfl

theorem setList_setType (st : PageState) (n : Nat) (l : List Nat) (i : Nat) (t : PageType) :
    (st.setList n l).setType i t = (st.setType i t).setList n l := rfl

theorem setAllocsize_setType_comm (st : PageState) (i j : Nat) (t : PageType) (n : Nat) :
    (st.setAllocsize i n).setType j t = (st.setType j t).setAllocsize i n := by
  ext k
  · show ((st.setAllocsize i n).setType j t).page k = ((st.setType j t).setAllocsize i n).page k
    simp only [page_setType, page_setAllocsize]
    by_cases hk : k = j
    · subst hk
      by_cases hi : k = i
      · subst hi
        simp
      · simp [hi]
    · by_cases hi : k = i
      · subst hi
        simp [hk]
      · simp [hk, hi]
  · rfl

theorem setType_setType_comm (st : PageState) {i j : Nat} (hij : i ≠ j) (s t : PageType) :
    (st.setType i s).setType j t = (st.setType j t).setType i s := by
  ext k
  · show ((st.setType i s).setType j t).page k = ((st.setType j t).setType i s).page k
    simp only [page_setType]
    by_cases hk : k = j
    · subst hk
      simp [Ne.symm hij]
    · by_cases hi : k = i
      · subst hi
        simp [hk]
      · simp [hk, hi]
  · rfl

end PageState

/-- `page_to_virt`. -/
def pageToVirt (i : Nat) : Nat := vmmStartVirt + i * 4096

/-- `virt_to_page`, with its `ASSERT (i < NUM_OF_PAGES)`. -/
def virtToPage (virt : Nat) : Option Nat :=
  if vmmStartVirt ≤ virt ∧ (virt - vmmStartVirt) / 4096 < numOfPages then
    some ((virt - vmmStartVirt) / 4096)
  else none

/-- `mm_page_get_allocsize`, with its `ASSERT`s. -/
def mmPageGetAllocsize (n : Nat) : Option Nat :=
  if n < numOfAllocsize then some (4096 <<< n) else none

theorem pageToVirt_eq_shiftLeft (i : Nat) : pageToVirt i = (2 ^ 18 + i) <<< 12 := by
  simp only [pageToVirt, vmmStartVirt, Nat.shiftLeft_eq]
  omega

theorem allocsize_eq_shiftLeft (n : Nat) : 4096 <<< n = 2 ^ n <<< 12 := by
  simp only [Nat.shiftLeft_eq, ← Nat.pow_add]
  rw [show 4096 = 2 ^ 12 by rfl, ← Nat.pow_add, Nat.add_comm]

theorem pageToVirt_and_ne_zero {i n : Nat} (hi : i < numOfPages) (hn : n < numOfAllocsize) :
    pageToVirt i &&& 4096 <<< n ≠ 0 ↔ i.testBit n = true := by
  have hi' : i < 2 ^ 18 := lt_trans hi (by decide)
  rw [pageToVirt_eq_shiftLeft, allocsize_eq_shiftLeft, ← Nat.shiftLeft_and_distrib,
    Buddy.two_pow_add_and hi' (lt_trans hn (by decide)), Nat.shiftLeft_eq, ne_eq,
    Nat.mul_eq_zero, not_or, ← ne_eq, Buddy.and_two_pow_ne_zero_iff]
  simp

theorem pageToVirt_or {i n : Nat} (hi : i < numOfPages) (hn : n < numOfAllocsize) :
    pageToVirt i ||| 4096 <<< n = pageToVirt (i ||| 2 ^ n) := by
  have hi' : i < 2 ^ 18 := lt_trans hi (by decide)
  rw [pageToVirt_eq_shiftLeft, allocsize_eq_shiftLeft, ← Nat.shiftLeft_or_distrib,
    Buddy.two_pow_add_or hi' (lt_trans hn (by decide)), pageToVirt_eq_shiftLeft]

theorem pageToVirt_xor {i n : Nat} (hi : i < numOfPages) (hn : n < numOfAllocsize) :
    pageToVirt i ^^^ 4096 <<< n = pageToVirt (i ^^^ 2 ^ n) := by
  have hi' : i < 2 ^ 18 := lt_trans hi (by decide)
  rw [pageToVirt_eq_shiftLeft, allocsize_eq_shiftLeft, ← Nat.shiftLeft_xor_distrib,
    Buddy.two_pow_add_xor hi' (lt_trans hn (by decide)), pageToVirt_eq_shiftLeft]

@[simp]
theorem virtToPage_pageToVirt (i : Nat) :
    virtToPage (pageToVirt i) = if i < numOfPages then some i else none := by
  have h : (pageToVirt i - vmmStartVirt) / 4096 = i := by
    simp only [pageToVirt]
    omega
  simp only [virtToPage, h]
  simp [pageToVirt]

@[simp]
theorem mmPageGetAllocsize_eq_some {n s : Nat} :
    mmPageGetAllocsize n = some s ↔ n < numOfAllocsize ∧ 4096 <<< n = s := by
  unfold mmPageGetAllocsize
  split <;> simp [*]

theorem virtToPage_eq_some {virt q : Nat} (h : virtToPage virt = some q) : q < numOfPages := by
  unfold virtToPage at h
  split at h
  · rename_i hv
    cases h
    exact hv.2
  · cases h

/-- `mm_page_free_2ndhalf`: the state and the freed upper half; `none` is a
failed `ASSERT`. The upper half's `allocsize` is not written. -/
def mmPageFree2ndhalf (st : PageState) (p : Nat) : Option (PageState × Nat) :=
  let n := (st.page p).allocsize
  if n = 0 then none
  else
    let n := n - 1
    let virt := pageToVirt p
    match mmPageGetAllocsize n with
    | none => none
    | some s =>
        if virt &&& s ≠ 0 then none
        else
          let st := st.setAllocsize p n
          match virtToPage (virt ||| s) with
          | none => none
          | some q => some (((st.setType q .free).listAdd n q), q)

/-- `while (p->allocsize > n) mm_page_free_2ndhalf (p)`; each round lowers
`allocsize` by one, so `allocsize` rounds of fuel are enough. -/
def splitTo (st : PageState) (p n : Nat) : Nat → Option PageState
  | 0 => some st
  | fuel + 1 =>
      if (st.page p).allocsize > n then
        match mmPageFree2ndhalf st p with
        | some (st, _) => splitTo st p n fuel
        | none => none
      else some st

/-- `mm_page_alloc_sub`: pop the first non-empty list from level `n` up and
split its head down to level `n`. The inner `none` is `NULL`. -/
def mmPageAllocSub (st : PageState) (n : Nat) : Option (Option (PageState × Nat)) :=
  match (List.range' n (numOfAllocsize - n)).find? (fun i => st.list1Freepage i ≠ []) with
  | none => some none
  | some i =>
      match st.list1Freepage i with
      | [] => some none
      | p :: rest =>
          let st := st.setList i rest
          (splitTo st p n (st.page p).allocsize).map fun st => some (st, p)

/-- `mm_page_alloc`: `none` is the out-of-memory panic or a failed `ASSERT`. -/
def mmPageAlloc (st : PageState) (n : Nat) : Option (PageState × Nat) :=
  if n < numOfAllocsize then
    match mmPageAllocSub st n with
    | some (some (st, p)) =>
        let oldType := (st.page p).type
        let st := st.setType p .allocated
        if oldType = .free then some (st, p) else none
    | _ => none
  else none

def contSearch (st : PageState) (m s : Nat) : List Nat → Option (Option (Nat × Nat))
  | [] => some none
  | p :: ps =>
      let virt := pageToVirt p
      if virt &&& s ≠ 0 then some none
      else
        match virtToPage (virt ||| s) with
        | none => none
        | some q =>
            if (st.page q).type = .free ∧ (st.page q).allocsize ≥ m then some (some (p, q))
            else contSearch st m s ps

/-- `mm_page_alloc_cont`: a block of level `n` followed by its buddy part of
level `m`. -/
def mmPageAllocCont (st : PageState) (n m : Nat) : Option (PageState × Nat) :=
  if n < numOfAllocsize ∧ m < numOfAllocsize then
    match contSearch st m (4096 <<< n) (st.list1Freepage n) with
    | none => none
    | some (some (p, q)) => found (st.listDel n p) p q
    | some none =>
        match mmPageAllocSub st (n + 1) with
        | some (some (st, p)) =>
            match mmPageFree2ndhalf st p with
            | some (st, q) => found st p q
            | none => none
        | _ => none
  else none
where
  found (st : PageState) (p q : Nat) : Option (PageState × Nat) :=
    let st := st.listDel (st.page q).allocsize q
    let oldPtype := (st.page p).type
    let oldQtype := (st.page q).type
    let st := st.setType p .allocatedCont
    match splitTo st q m (st.page q).allocsize with
    | none => none
    | some st =>
        let st := st.setType q .allocated
        if oldPtype = .free ∧ oldQtype = .free then some (st, p) else none

inductive FreeFail
  | badAddress | doubleFree | notHeadFree | badType
  deriving DecidableEq, Repr

def mergeLoop (st : PageState) (p n s virt : Nat) : Nat → Option PageState
  | 0 => some st
  | fuel + 1 =>
      if n < numOfAllocsize - 1 then
        match virtToPage (virt ^^^ s) with
        | none => none
        | some q =>
            if (st.page q).type = .free ∧ (st.page q).allocsize = n then
              -- `p` becomes the lower half and `q` the upper one
              let (p, q) := if virt &&& s ≠ 0 then (q, p) else (p, q)
              let st := ((st.listDel n p).listDel n q).setType q .notHead
              let n := (st.page p).allocsize + 1
              let st := st.setAllocsize p n
              match mmPageGetAllocsize n with
              | none => none
              | some s =>
                  -- `virt` is still the address of the block freed in the last round
                  let st := if virt &&& s ≠ 0 then st.listAdd n p else st.listPush n p
                  mergeLoop st p n s (pageToVirt p) fuel
            else some st
      else some st

/-- `mm_page_free_sub`. The buddy part of an `ALLOCATED_CONT` block is freed
first and whatever that returns is ignored. -/
def mmPageFreeSub (st : PageState) (p : Nat) : Nat → Option (PageState × Option FreeFail)
  | 0 => none
  | fuel + 1 =>
      let n := (st.page p).allocsize
      match mmPageGetAllocsize n with
      | none => none
      | some s =>
          let virt := pageToVirt p
          if (st.page p).type = .allocatedCont then
            if virt &&& s ≠ 0 then some (st, some .badAddress)
            else
              match virtToPage (virt ||| s) with
              | none => none
              | some q =>
                  (mmPageFreeSub (st.setType p .allocated) q fuel).bind fun (st, _) =>
                    release st p n s virt
          else release st p n s virt
where
  /-- The `switch` on the type and, for an `ALLOCATED` or `RESERVED` head,
  its filing and the coalescing loop. -/
  release (st : PageState) (p n s virt : Nat) : Option (PageState × Option FreeFail) :=
    match (st.page p).type with
    | .free => some (st, some .doubleFree)
    | .notHead => some (st, some .notHeadFree)
    | .allocated | .reserved =>
        let st := st.setType p .free
        let st := if virt &&& s ≠ 0 then st.listAdd n p else st.listPush n p
        (mergeLoop st p n s virt numOfAllocsize).map (·, none)
    | _ => some (st, some .badType)

/-- `mm_page_free`: `none` is the panic on a failure string, or an `ASSERT`. -/
def mmPageFree (st : PageState) (p : Nat) : Option PageState :=
  match mmPageFreeSub st p numOfAllocsize with
  | some (st, none) => some st
  | _ => none

def mmInit : PageState := ⟨fun _ => ⟨.reserved, 0⟩, fun _ => []⟩

inductive PageOp
  | alloc (n : Nat)
  | allocCont (n m : Nat)
  | free (p : Nat)

def pageStep (st : PageState) : PageOp → Option (PageState × Option Nat)
  | .alloc n => (mmPageAlloc st n).map fun (st, p) => (st, some p)
  | .allocCont n m => (mmPageAllocCont st n m).map fun (st, p) => (st, some p)
  | .free p => if p < numOfPages then (mmPageFree st p).map (·, none) else none

def pageRun (st : PageState) (ops : List PageOp) : Option (PageState × List (Option Nat)) :=
  StepRun.runSteps pageStep st ops

example :
    ((pageRun mmInit ((List.range 8).map .free ++ [.alloc 0, .allocCont 1 0])).map
      fun (st, out) => (out.drop 8, st.list1Freepage 0 ++ st.list1Freepage 1 ++ st.list1Freepage 2)) =
      some ([some 0, some 4], [1, 7, 2]) := by
  decide

end Bitvisor.Mm
