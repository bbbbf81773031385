import Bitvisor.BplusTree.Add

namespace Bitvisor.BplusTree

variable {V : Type}

/-- `bplus_node_propagate_replaced_key`: travel up-right until the path
becomes up-left and replace the separator there. -/
def bplusNodePropagateReplacedKey (t : Tree V) : Nat → Option NodeId → Nat → UInt64 → Tree V
  | 0, _, _, _ => t
  | _ + 1, none, _, _ => t
  | fuel + 1, some p, pChildI, replaceKey =>
      if pChildI > 0 then t.modify p fun n => { n with keys := n.keys.set (pChildI - 1) replaceKey }
      else
        let n := t.node p
        bplusNodePropagateReplacedKey t fuel n.parent n.parentChildI replaceKey

def propagate (t : Tree V) (parent : Option NodeId) (pChildI : Nat) (key : UInt64) : Tree V :=
  bplusNodePropagateReplacedKey t t.heap.length parent pChildI key

def rmShiftLoop (id : NodeId) (leaf : Bool) : Nat → Nat → Tree V → Tree V
  | 0, _, t => t
  | count + 1, i, t =>
      let n := t.node id
      let t := t.modify id fun n => { n with keys := n.keys.set i (keyAt n (i + 1)) }
      let t :=
        if leaf then t.modify id fun n => { n with vals := n.vals.set i (valAt n (i + 1)) }
        else
          let c := childAt n (i + 2)
          let t := t.modifyOpt c fun c => { c with parentChildI := i + 1 }
          t.modify id fun n => { n with children := n.children.set (i + 1) c }
      rmShiftLoop id leaf count (i + 1) t

/-- `bplus_node_rm_idx_kvc`, for `idx < cur_n_kv` as its `ASSERT`s require.
Returns the removed key, value and right child. -/
def bplusNodeRmIdxKvc (t : Tree V) (id : NodeId) (idx : Nat) :
    Tree V × UInt64 × Option V × Option NodeId :=
  let n := t.node id
  let leaf := n.leaf
  let count := n.curNKv - 1 - idx
  let last := idx + count
  let t := rmShiftLoop id leaf count idx t
  let t := t.modify id fun n => { n with keys := n.keys.set last invalidKey }
  let t :=
    if leaf then t.modify id fun n => { n with vals := n.vals.set last none }
    else t.modify id fun n => { n with children := n.children.set (last + 1) none }
  let t := t.modify id fun n => { n with curNKv := n.curNKv - 1 }
  let n' := t.node id
  let t :=
    if leaf && n'.parent.isSome && idx = 0 then propagate t n'.parent n'.parentChildI (keyAt n' 0)
    else t
  (t, keyAt n idx, valAt n idx, childAt n (idx + 1))

def bplusNodeCutHead (t : Tree V) (id : NodeId) : Tree V × UInt64 × Option V × Option NodeId :=
  let c := childAt (t.node id) 0
  let (t, k, v, crOut) := bplusNodeRmIdxKvc t id 0
  let t := t.modify id fun n => { n with children := n.children.set 0 crOut }
  let t := t.modifyOpt crOut fun c => { c with parentChildI := 0 }
  (t, k, v, c)

def bplusNodeCutTail (t : Tree V) (id : NodeId) : Tree V × UInt64 × Option V × Option NodeId :=
  bplusNodeRmIdxKvc t id ((t.node id).curNKv - 1)

def bplusNodeAppendKvc (t : Tree V) (id : NodeId) (key : UInt64) (val : Option V)
    (rightChild : Option NodeId) : Tree V :=
  let n := t.node id
  let last := n.curNKv
  let t := t.modify id fun n => { n with keys := n.keys.set last key }
  let t :=
    if n.leaf then t.modify id fun n => { n with vals := n.vals.set last val }
    else
      let t := t.modifyOpt rightChild fun c => { c with parent := some id, parentChildI := last + 1 }
      t.modify id fun n => { n with children := n.children.set (last + 1) rightChild }
  let t := t.modify id fun n => { n with curNKv := n.curNKv + 1 }
  if n.leaf && last = 0 then propagate t n.parent n.parentChildI key else t

def mergeAppendLoop (left : NodeId) (r : Node V) : Nat → Nat → Tree V → Tree V
  | 0, _, t => t
  | count + 1, i, t =>
      let (v, c) := if r.leaf then (valAt r i, none) else (none, childAt r (i + 1))
      mergeAppendLoop left r count (i + 1) (bplusNodeAppendKvc t left (keyAt r i) v c)

def bplusNodeMergeLeft (t : Tree V) (parent left right : NodeId) : Tree V :=
  let r := t.node right
  let (t, k, _, _) := bplusNodeRmIdxKvc t parent (t.node left).parentChildI
  let t := if r.leaf then t else bplusNodeAppendKvc t left k none (childAt r 0)
  let t := mergeAppendLoop left r r.curNKv 0 t
  let t :=
    if r.leaf then
      let t := t.modify left fun n => { n with nextLeaf := r.nextLeaf }
      t.modifyOpt r.nextLeaf fun n => { n with prevLeaf := some left }
    else t
  t.free right

def prependShiftLoop (id : NodeId) : Nat → Tree V → Tree V
  | 0, t => t
  | i + 1, t => prependShiftLoop id i (shiftSlotRight t id i)

def bplusNodePrependKvc (t : Tree V) (id : NodeId) (key : UInt64) (val : Option V)
    (leftChild : Option NodeId) : Tree V :=
  let n := t.node id
  let t := prependShiftLoop id n.curNKv t
  let t :=
    if n.leaf then t
    else
      let c := childAt (t.node id) 0
      let t := t.modifyOpt c fun c => { c with parentChildI := 1 }
      t.modify id fun n => { n with children := n.children.set 1 c }
  let t := t.modify id fun n => { n with keys := n.keys.set 0 key }
  let t :=
    if n.leaf then t.modify id fun n => { n with vals := n.vals.set 0 val }
    else
      let t := t.modifyOpt leftChild fun c => { c with parent := some id, parentChildI := 0 }
      t.modify id fun n => { n with children := n.children.set 0 leftChild }
  let t := t.modify id fun n => { n with curNKv := n.curNKv + 1 }
  if n.leaf then propagate t n.parent n.parentChildI key else t

/-- `bplus_node_rebalance`; each recursive call moves to the parent. `none`
is one of its `ASSERT`s on the children of an empty root failing. -/
def bplusNodeRebalance : Nat → Tree V → NodeId → Option (Tree V × Err)
  | 0, _, _ => none
  | fuel + 1, t, id =>
      let n := t.node id
      let parent := n.parent
      let leaf := n.leaf
      if n.curNKv = 0 ∧ !leaf ∧ parent.isNone then
        match childAt n 0, childAt n 1 with
        | some c, none =>
            let t := t.modify c fun c => { c with parent := none, parentChildI := noChildI }
            some ((t.setRoot c).free id, .ok)
        | _, _ => none
      else
        let limitNKv := t.limitNKv
        let minNKv := limitNKv / 2
        let nonleafKey := if leaf then 0 else 1
        match parent with
        | none => some (t, .ok)
        | some p =>
          if n.curNKv ≥ minNKv then some (t, .ok)
          else
            let pChildI := n.parentChildI
            let pn := t.node p
            let cLeft := if pChildI > 0 then childAt pn (pChildI - 1) else none
            let cRight := if pChildI + 1 < limitNKv + 1 then childAt pn (pChildI + 1) else none
            match cLeft.filter (fun l => (t.node l).curNKv > minNKv) with
            | some l =>
                let (t, kTmp, v, cOut) := bplusNodeCutTail t l
                let (t, k) :=
                  if leaf then (t, kTmp)
                  else
                    (t.modify p fun n => { n with keys := n.keys.set (pChildI - 1) kTmp },
                      keyAt (t.node p) (pChildI - 1))
                some (bplusNodePrependKvc t id k v cOut, .ok)
            | none =>
                -- steal the left-most child of the right node; no return follows
                let t :=
                  match cRight.filter (fun r => (t.node r).curNKv > minNKv) with
                  | some r =>
                      let (t, kTmp, v, cOut) := bplusNodeCutHead t r
                      let (t, k) :=
                        if leaf then (t, kTmp)
                        else
                          (t.modify p fun n => { n with keys := n.keys.set pChildI kTmp },
                            keyAt (t.node p) pChildI)
                      bplusNodeAppendKvc t id k v cOut
                  | none => t
                let cur := (t.node id).curNKv
                match cLeft.filter (fun l => (t.node l).curNKv + cur + nonleafKey ≤ limitNKv) with
                | some l => bplusNodeRebalance fuel (bplusNodeMergeLeft t p l id) p
                | none =>
                    match cRight.filter (fun r => (t.node r).curNKv + cur + nonleafKey ≤ limitNKv) with
                    | some r => bplusNodeRebalance fuel (bplusNodeMergeLeft t p id r) p
                    | none => some (t, .delErr)

/-- `bplus_leafnode_remove_data`: the removed value on success. -/
def bplusLeafnodeRemoveData (t : Tree V) (leaf : NodeId) (key : UInt64) :
    Tree V × Err × Option (Option V) :=
  let n := t.node leaf
  let i := scanKeys n (fun k => bplusCmpKey k key == .equal)
  if i = n.curNKv then (t, .delNotExist, none)
  else
    let (t, _, v, _) := bplusNodeRmIdxKvc t leaf i
    (t, .ok, some v)

/-- `bplus_tree_del`: the error code and what is written to `*val_out`. -/
def bplusTreeDel (t : Tree V) (key : UInt64) : Option (Tree V × Err × Option (Option V)) :=
  if key = invalidKey then some (t, .delInvKey, none)
  else
    (leafOf t key).bind fun leaf =>
      match bplusLeafnodeRemoveData t leaf key with
      | (t, .ok, v) =>
          (bplusNodeRebalance (t.heap.length + 1) t leaf).map fun (t, err) => (t, err, v)
      | (t, err, v) => some (t, err, v)

end Bitvisor.BplusTree
