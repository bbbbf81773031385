import Bitvisor.BplusTree.Node

namespace Bitvisor.BplusTree

variable {V : Type}

def scanKeys (n : Node V) (p : UInt64 → Bool) : Nat :=
  ((List.range n.curNKv).find? (fun i => p (keyAt n i))).getD n.curNKv

/-- `bplus_node_leaf_search`. The recursion follows one child per level, so
the number of heap cells bounds it; `none` is the source's `ASSERT (node)`
on a `NULL` child. -/
def bplusNodeLeafSearch (t : Tree V) : Nat → NodeId → UInt64 → Option NodeId
  | 0, _, _ => none
  | fuel + 1, id, key =>
      let n := t.node id
      if n.leaf then some id
      else
        match childAt n (scanKeys n (fun k => bplusCmpKey k key == .more)) with
        | some c => bplusNodeLeafSearch t fuel c key
        | none => none

def leafOf (t : Tree V) (key : UInt64) : Option NodeId :=
  bplusNodeLeafSearch t t.heap.length t.rootNode key

/-- `bplus_tree_search`: `some v` is a `true` return with `*val_out = v`. -/
def bplusTreeSearch (t : Tree V) (key : UInt64) : Option (Option (Option V)) :=
  (leafOf t key).map fun id =>
    let n := t.node id
    let i := scanKeys n (fun k => bplusCmpKey k key == .equal)
    if i < n.curNKv then some (valAt n i) else none

structure Neighbors (V : Type) where
  found : Bool
  val : Option V
  leftKey : UInt64
  leftVal : Option V
  rightKey : UInt64
  rightVal : Option V
  deriving DecidableEq, Repr

/-- `bplus_tree_search_get_neighbors`. `val` is the value of the key when it
is found and `NULL` (the caller's initial value) otherwise. -/
def bplusTreeSearchGetNeighbors (t : Tree V) (key : UInt64) : Option (Neighbors V) :=
  (leafOf t key).map fun id =>
    let n := t.node id
    let cur := n.curNKv
    let i := scanKeys n (fun k => bplusCmpKey k key != .less)
    let found := decide (i < cur) && keyAt n i == key
    let val := if found then valAt n i else none
    let rI := if found then i + 1 else i
    if i = 0 then
      let l := n.prevLeaf.map t.node
      { found, val
        leftKey := (l.map fun l => keyAt l (l.curNKv - 1)).getD invalidKey
        leftVal := (l.map fun l => valAt l (l.curNKv - 1)).getD none
        rightKey := keyAt n rI
        rightVal := valAt n rI }
    else if (found && i + 1 = cur) || (!found && i = cur) then
      let r := n.nextLeaf.map t.node
      { found, val
        leftKey := keyAt n (i - 1)
        leftVal := valAt n (i - 1)
        rightKey := (r.map fun r => keyAt r 0).getD invalidKey
        rightVal := (r.map fun r => valAt r 0).getD none }
    else
      { found, val
        leftKey := keyAt n (i - 1)
        leftVal := valAt n (i - 1)
        rightKey := keyAt n rI
        rightVal := valAt n rI }

/-- `struct bplus_tree_iter`. -/
structure Iter where
  curLeaf : Option NodeId
  curI : Nat
  deriving DecidableEq, Repr

def leftmostLeaf (t : Tree V) : Nat → NodeId → Option NodeId
  | 0, _ => none
  | fuel + 1, id =>
      let n := t.node id
      if n.leaf then some id
      else
        match childAt n 0 with
        | some c => leftmostLeaf t fuel c
        | none => none

/-- `bplus_tree_iterator_alloc` on a tree that exists. -/
def bplusTreeIteratorAlloc (t : Tree V) : Option Iter :=
  (leftmostLeaf t t.heap.length t.rootNode).map fun id => ⟨some id, 0⟩

/-- `bplus_tree_kv_from_iterator`: `none` is a `false` return. -/
def bplusTreeKvFromIterator (t : Tree V) (it : Iter) : Option (UInt64 × Option V × Iter) :=
  match it.curLeaf with
  | none => none
  | some id =>
      let n := t.node id
      if n.curNKv = 0 then none
      else
        let next : Iter :=
          if it.curI + 1 = n.curNKv then ⟨n.nextLeaf, 0⟩ else ⟨some id, it.curI + 1⟩
        some (keyAt n it.curI, valAt n it.curI, next)

def iterList (t : Tree V) : Nat → Iter → List (UInt64 × Option V)
  | 0, _ => []
  | fuel + 1, it =>
      match bplusTreeKvFromIterator t it with
      | none => []
      | some (k, v, it') => (k, v) :: iterList t fuel it'

def iterAll (t : Tree V) : List (UInt64 × Option V) :=
  ((bplusTreeIteratorAlloc t).map (iterList t (t.heap.length * (t.limitNKv + 1)))).getD []

end Bitvisor.BplusTree
