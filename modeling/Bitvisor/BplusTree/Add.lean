import Bitvisor.BplusTree.Search

namespace Bitvisor.BplusTree

variable {V : Type}

/-- `MORE` case of the loop in `bplus_node_add_kvc`: move key/value and
children of slot `i` one to the right. -/
def shiftSlotRight (t : Tree V) (id : NodeId) (i : Nat) : Tree V :=
  let n := t.node id
  let t := t.modify id fun n => { n with keys := n.keys.set (i + 1) (keyAt n i) }
  if n.leaf then t.modify id fun n => { n with vals := n.vals.set (i + 1) (valAt n i) }
  else
    let c := childAt n (i + 1)
    let t := t.modifyOpt c fun c => { c with parentChildI := i + 2 }
    t.modify id fun n => { n with children := n.children.set (i + 2) c }

def addKvcLoop (key : UInt64) (id : NodeId) : Nat → Nat → Tree V → Tree V × Option Nat
  | i, indexToAdd, t =>
      let k := keyAt (t.node id) i
      if k = invalidKey then
        match i with
        | 0 => (t, some 0)
        | j + 1 => addKvcLoop key id j (j + 1) t
      else
        match bplusCmpKey k key with
        | .equal => (t, none)
        | .less => (t, some indexToAdd)
        | .more =>
            let t := shiftSlotRight t id i
            match i with
            | 0 => (t, some 0)
            | j + 1 => addKvcLoop key id j (j + 1) t

def bplusNodeAddKvc (t : Tree V) (id : NodeId) (key : UInt64) (val : Option V)
    (leftChild rightChild : Option NodeId) : Tree V × Err :=
  let n := t.node id
  if !n.leaf && (leftChild.isNone || rightChild.isNone) then (t, .addNonleafChildren)
  else
    match addKvcLoop key id n.curNKv n.curNKv t with
    | (t, none) => (t, .addDup)
    | (t, some idx) =>
        let t := t.modify id fun n => { n with keys := n.keys.set idx key }
        let t :=
          if n.leaf then t.modify id fun n => { n with vals := n.vals.set idx val }
          else
            let t := t.modify id fun n =>
              { n with children := (n.children.set idx leftChild).set (idx + 1) rightChild }
            let t := t.modifyOpt leftChild fun c => { c with parent := some id, parentChildI := idx }
            t.modifyOpt rightChild fun c => { c with parent := some id, parentChildI := idx + 1 }
        (t.modify id fun n => { n with curNKv := n.curNKv + 1 }, .ok)

def moveChild (left new : NodeId) (i src : Nat) (t : Tree V) : Tree V :=
  let c := childAt (t.node left) src
  let t := t.modify new fun n => { n with children := n.children.set i c }
  let t := t.modifyOpt c fun c => { c with parent := some new, parentChildI := i }
  t.modify left fun n => { n with children := n.children.set src none }

def splitMove (leaf : Bool) (left new : NodeId) (i src : Nat) (t : Tree V) : Tree V :=
  let ln := t.node left
  let t := t.modify new fun n => { n with keys := n.keys.set i (keyAt ln src) }
  let t := t.modify left fun n => { n with keys := n.keys.set src invalidKey }
  let t :=
    if leaf then
      let t := t.modify new fun n => { n with vals := n.vals.set i (valAt ln src) }
      t.modify left fun n => { n with vals := n.vals.set src none }
    else moveChild left new i src t
  let t := t.modify new fun n => { n with curNKv := n.curNKv + 1 }
  t.modify left fun n => { n with curNKv := n.curNKv - 1 }

def splitLoop (leaf : Bool) (left new : NodeId) (base : Nat) : Nat → Nat → Tree V → Tree V
  | 0, _, t => t
  | k + 1, i, t => splitLoop leaf left new base k (i + 1) (splitMove leaf left new i (base + i) t)

/-- `bplus_node_split`: the new right node and the key for the parent. -/
def bplusNodeSplit (t : Tree V) (left : NodeId) : Tree V × NodeId × UInt64 :=
  let ln := t.node left
  let cur := ln.curNKv
  let leaf := ln.leaf
  let midOffset := if leaf then 0 else 1
  let (t, new) := t.alloc leaf
  let mid := cur / 2
  let iterLimit := cur - mid - midOffset
  let kMid := keyAt ln mid
  let t :=
    if leaf then t
    else t.modify left fun n => { n with keys := n.keys.set mid invalidKey, curNKv := n.curNKv - 1 }
  let t := splitLoop leaf left new (mid + midOffset) iterLimit 0 t
  let t := if leaf then t else moveChild left new iterLimit (mid + midOffset + iterLimit) t
  (t, new, kMid)

/-- `bplus_parent_add_children`; the recursion climbs one level per call. -/
def bplusParentAddChildren :
    Nat → Tree V → Option NodeId → UInt64 → NodeId → NodeId → Option (Tree V × Err)
  | 0, _, _, _, _, _ => none
  | fuel + 1, t, targetParent, key, left, right =>
      let (t, target, fresh) :=
        match targetParent with
        | some p => (t, p, false)
        | none =>
            let (t, p) := t.alloc false
            (t.setRoot p, p, true)
      let (t, err) := bplusNodeAddKvc t target key none (some left) (some right)
      if err ≠ .ok then some (if fresh then t.free target else t, err)
      else if (t.node target).curNKv ≤ t.limitNKv then some (t, .ok)
      else
        let (t, newRight, keyForParent) := bplusNodeSplit t target
        bplusParentAddChildren fuel t (t.node target).parent keyForParent target newRight

/-- `bplus_tree_add`; `none` is the source's `ASSERT (err == BPLUS_ERR_OK)`
failing, or a leaf search that meets a `NULL` child. -/
def bplusTreeAdd (t : Tree V) (key : UInt64) (value : V) : Option (Tree V × Err) :=
  if key = invalidKey then some (t, .addInvKey)
  else
    (leafOf t key).bind fun leaf =>
      match bplusNodeAddKvc t leaf key (some value) none none with
      | (t, .ok) =>
          if (t.node leaf).curNKv > t.limitNKv then
            let (t, newLeaf, keyForParent) := bplusNodeSplit t leaf
            -- only the two halves are linked: the old successor of `leaf` is not
            let t := t.modify leaf fun n => { n with nextLeaf := some newLeaf }
            let t := t.modify newLeaf fun n => { n with prevLeaf := some leaf }
            match bplusParentAddChildren (t.heap.length + 1) t (t.node leaf).parent keyForParent
                leaf newLeaf with
            | some (t, .ok) => some (t, .ok)
            | _ => none
          else some (t, .ok)
      | (t, err) => some (t, err)

end Bitvisor.BplusTree
