import Bitvisor.BplusTree.Map

namespace Bitvisor.BplusTree

variable {V : Type}

def Live (t : Tree V) (id : NodeId) : Prop := ∃ n, t.heap[id]? = some (some n)

/-- Nodes reachable from the root through child pointers, with their depth. -/
inductive Reach (t : Tree V) : NodeId → Nat → Prop
  | root : Reach t t.rootNode 0
  | child {p c : NodeId} {d : Nat} (i : Nat) : Reach t p d → (t.node p).leaf = false →
      i ≤ (t.node p).curNKv → childAt (t.node p) i = some c → Reach t c (d + 1)

inductive SubKey (t : Tree V) : NodeId → UInt64 → Prop
  | leaf {id : NodeId} (i : Nat) : (t.node id).leaf = true → i < (t.node id).curNKv →
      SubKey t id (keyAt (t.node id) i)
  | child {p c : NodeId} {k : UInt64} (i : Nat) : (t.node p).leaf = false →
      i ≤ (t.node p).curNKv → childAt (t.node p) i = some c → SubKey t c k → SubKey t p k

def IsLeaf (t : Tree V) (id : NodeId) : Prop := ∃ d, Reach t id d ∧ (t.node id).leaf = true

def SlotsOk (n : Node V) : Prop :=
  (∀ i j, i < j → j < n.curNKv → keyAt n i < keyAt n j) ∧
    ∀ i, n.curNKv ≤ i → i < n.keys.length → keyAt n i = invalidKey

def LeafChain (t : Tree V) (chain : List NodeId) : Prop :=
  chain.Nodup ∧ (∀ id, IsLeaf t id ↔ id ∈ chain) ∧
    chain.head? = leftmostLeaf t t.heap.length t.rootNode ∧
    (∀ i (h : i + 1 < chain.length),
      (t.node chain[i]).nextLeaf = some chain[i + 1] ∧ (t.node chain[i + 1]).prevLeaf = some chain[i]) ∧
    (∀ l ∈ chain.getLast?, (t.node l).nextLeaf = none) ∧
    (∀ l ∈ chain.head?, (t.node l).prevLeaf = none) ∧
    ∀ i j (hij : i < j) (hj : j < chain.length), ∀ a b,
      a < (t.node chain[i]).curNKv → b < (t.node chain[j]).curNKv →
        keyAt (t.node chain[i]) a < keyAt (t.node chain[j]) b

/-- The representation invariant of a B+ tree. -/
structure WellFormed (t : Tree V) : Prop where
  slots : ∀ id d, Reach t id d → SlotsOk (t.node id)
  sizes : ∀ id d, Reach t id d → id ≠ t.rootNode →
    t.limitNKv / 2 ≤ (t.node id).curNKv ∧ (t.node id).curNKv ≤ t.limitNKv
  depth : ∀ a b da db, Reach t a da → Reach t b db →
    (t.node a).leaf = true → (t.node b).leaf = true → da = db
  children : ∀ id d, Reach t id d → (t.node id).leaf = false →
    (∀ i ≤ (t.node id).curNKv, ∃ c, childAt (t.node id) i = some c ∧ Live t c ∧
      (t.node c).parent = some id ∧ (t.node c).parentChildI = i) ∧
    ∀ i, (t.node id).curNKv < i → childAt (t.node id) i = none
  separators : ∀ id d, Reach t id d → (t.node id).leaf = false →
    ∀ i < (t.node id).curNKv, ∀ l r, childAt (t.node id) i = some l →
      childAt (t.node id) (i + 1) = some r →
      (∀ k, SubKey t l k → k < keyAt (t.node id) i) ∧ SubKey t r (keyAt (t.node id) i) ∧
        ∀ k, SubKey t r k → keyAt (t.node id) i ≤ k
  leafChain : ∃ chain, LeafChain t chain

/-- Every tree that `bplus_tree_alloc` and a run of `bplus_tree_add` and
`bplus_tree_del` calls can produce is well formed. -/
def ReachableWellFormed (V : Type) : Prop :=
  ∀ limitNKv (t : Tree V), bplusTreeAlloc limitNKv = some t →
    ∀ ops s es, run t ops = some (s, es) → WellFormed s

/-- The duplicate `add` of 5 to the leaf `[1, 5, 7]` shifts 7 into slot 3
before it meets 5, and returns with `cur_n_kv = 3` and slot 3 holding 7. -/
theorem bplusNodeAddKvc_dup_leaves_stale_slot : ¬ ReachableWellFormed Nat := by
  intro h
  have hs : ((bplusTreeAlloc 4).bind fun t => run t [.add 1 1, .add 5 5, .add 7 7, .add 5 5]).map
      (fun r : Tree Nat × List Err =>
        (r.1.rootNode, (r.1.node r.1.rootNode).curNKv, keyAt (r.1.node r.1.rootNode) 3,
          (r.1.node r.1.rootNode).keys.length)) = some (0, 3, 7, 5) := by
    decide_cbv
  obtain ⟨t, ht⟩ : ∃ t : Tree Nat, bplusTreeAlloc 4 = some t := ⟨_, rfl⟩
  rw [ht, Option.bind_some] at hs
  cases hr : run t [.add 1 1, .add 5 5, .add 7 7, .add 5 5] with
  | none => simp [hr] at hs
  | some r =>
      simp only [hr, Option.map_some, Option.some.injEq, Prod.mk.injEq] at hs
      obtain ⟨_, hcur, hkey, hlen⟩ := hs
      have hslot := ((h 4 t ht _ r.1 r.2 hr).slots r.1.rootNode 0 .root).2 3 (by omega) (by omega)
      rw [hkey] at hslot
      exact absurd hslot (by decide)

/-- Splitting the first leaf `[1, 2, 3, 10, 20]` links it to the new leaf,
whose `next_leaf` stays `NULL`: the leaf `[30, 40, 50]` drops out of the
chain and the iterator stops after 20. -/
theorem bplusTreeIterator_loses_split_successor :
    ((bplusTreeAlloc 4).bind fun t => run t [.add 10 10, .add 20 20, .add 30 30, .add 40 40,
      .add 50 50, .add 1 1, .add 2 2, .add 3 3]).map
        (fun r : Tree Nat × List Err => (r.2, (iterAll r.1).map Prod.fst)) =
      some ([.ok, .ok, .ok, .ok, .ok, .ok, .ok, .ok], [1, 2, 3, 10, 20]) ∧
    (runMap (fun _ => none) [.add 10 10, .add 20 20, .add 30 30, .add 40 40, .add 50 50,
      .add 1 1, .add 2 2, .add 3 3]).1 30 = some 30 := by
  decide_cbv

/-- With `limit_n_kv = 2` the split of `[1, 2, 3]` leaves `[1]` alone in a
leaf; found at index 0, the right neighbour is read from slot 1 of that leaf,
which is unused, and not from the next leaf. -/
theorem bplusTreeSearchGetNeighbors_single_key_leaf :
    ((bplusTreeAlloc 2).bind fun t => run t [.add 1 1, .add 2 2, .add 3 3]).map
        (fun r : Tree Nat × List Err =>
          (r.2, (bplusTreeSearchGetNeighbors r.1 1).map fun nb => (nb.found, nb.rightKey))) =
      some ([.ok, .ok, .ok], some (true, invalidKey)) ∧
    (runMap (fun _ => none) [.add 1 1, .add 2 2, .add 3 3]).1 2 = some 2 := by
  decide_cbv

end Bitvisor.BplusTree
