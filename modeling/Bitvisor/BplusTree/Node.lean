import Mathlib.Data.List.Basic

namespace Bitvisor.BplusTree

/-- `BPLUS_NODE_INVALID_KEY`, the all-ones key that marks an unused slot. -/
def invalidKey : UInt64 := 0xFFFFFFFFFFFFFFFF

/-- `BPLUS_NODE_NO_CHILD_I`, the `uint` value of `-1`. -/
def noChildI : Nat := 0xFFFFFFFF

def minLimitNKv : Nat := 2

def maxLimitNKv : Nat := 6

inductive Err
  | ok
  | addDup
  | addErr
  | addInvKey
  | addNonleafChildren
  | delErr
  | delInvKey
  | delNotExist
  deriving DecidableEq, Repr

inductive Cmp
  | equal
  | less
  | more
  deriving DecidableEq, Repr

def bplusCmpKey (nodeKey inputKey : UInt64) : Cmp :=
  if nodeKey < inputKey then .less else if nodeKey = inputKey then .equal else .more

abbrev NodeId := Nat

/-- `struct bplus_node`. The arrays keep the sizes `bplus_node_alloc` gives
them: `limit_n_kv + 2` children and `limit_n_kv + 1` keys and values. A
`void *` value is `Option V`, with `none` for `NULL`. -/
structure Node (V : Type) where
  parent : Option NodeId
  nextLeaf : Option NodeId
  prevLeaf : Option NodeId
  children : List (Option NodeId)
  keys : List UInt64
  vals : List (Option V)
  parentChildI : Nat
  curNKv : Nat
  leaf : Bool
  deriving DecidableEq, Repr

/-- `struct bplus_tree`, together with the heap its nodes live in. A freed
node leaves `none` in its slot; allocation appends. -/
structure Tree (V : Type) where
  heap : List (Option (Node V))
  rootNode : NodeId
  limitNKv : Nat
  deriving DecidableEq, Repr

variable {V : Type}

def bplusNodeAlloc (limitNKv : Nat) (leaf : Bool) : Node V where
  parent := none
  nextLeaf := none
  prevLeaf := none
  children := List.replicate (limitNKv + 2) none
  keys := List.replicate (limitNKv + 1) invalidKey
  vals := List.replicate (limitNKv + 1) none
  parentChildI := noChildI
  curNKv := 0
  leaf := leaf

def bplusTreeAlloc (limitNKv : Nat) : Option (Tree V) :=
  if limitNKv < minLimitNKv ∨ limitNKv > maxLimitNKv then none
  else some ⟨[some (bplusNodeAlloc limitNKv true)], 0, limitNKv⟩

namespace Tree

def node (t : Tree V) (id : NodeId) : Node V :=
  ((t.heap[id]?).join).getD (bplusNodeAlloc t.limitNKv true)

def modify (t : Tree V) (id : NodeId) (f : Node V → Node V) : Tree V :=
  { t with heap := t.heap.modify id (Option.map f) }

def alloc (t : Tree V) (leaf : Bool) : Tree V × NodeId :=
  ({ t with heap := t.heap ++ [some (bplusNodeAlloc t.limitNKv leaf)] }, t.heap.length)

def free (t : Tree V) (id : NodeId) : Tree V :=
  { t with heap := t.heap.set id none }

def setRoot (t : Tree V) (id : NodeId) : Tree V := { t with rootNode := id }

def modifyOpt (t : Tree V) (id : Option NodeId) (f : Node V → Node V) : Tree V :=
  match id with
  | some id => t.modify id f
  | none => t

@[simp] theorem modify_limitNKv (t : Tree V) (id : NodeId) (f : Node V → Node V) :
    (t.modify id f).limitNKv = t.limitNKv := rfl

@[simp] theorem modify_rootNode (t : Tree V) (id : NodeId) (f : Node V → Node V) :
    (t.modify id f).rootNode = t.rootNode := rfl

@[simp] theorem modify_heap_length (t : Tree V) (id : NodeId) (f : Node V → Node V) :
    (t.modify id f).heap.length = t.heap.length := by
  simp [modify]

theorem node_modify_self (t : Tree V) (id : NodeId) (f : Node V → Node V)
    (h : ∃ n, t.heap[id]? = some (some n)) : (t.modify id f).node id = f (t.node id) := by
  obtain ⟨n, hn⟩ := h
  simp [node, modify, hn]

theorem node_modify_other (t : Tree V) {id other : NodeId} (f : Node V → Node V)
    (h : other ≠ id) : (t.modify id f).node other = t.node other := by
  simp [node, modify, Ne.symm h]

end Tree

def keyAt (n : Node V) (i : Nat) : UInt64 := n.keys.getD i invalidKey

def valAt (n : Node V) (i : Nat) : Option V := n.vals.getD i none

def childAt (n : Node V) (i : Nat) : Option NodeId := n.children.getD i none

end Bitvisor.BplusTree
