import Mathlib
import Bitvisor.BplusTree.Del

namespace Bitvisor.BplusTree

variable {V : Type}

inductive Op (V : Type)
  | add (key : UInt64) (value : V)
  | del (key : UInt64)
  deriving DecidableEq, Repr

def step (t : Tree V) : Op V → Option (Tree V × Err)
  | .add k v => bplusTreeAdd t k v
  | .del k => (bplusTreeDel t k).map fun (t, err, _) => (t, err)

def run (t : Tree V) : List (Op V) → Option (Tree V × List Err)
  | [] => some (t, [])
  | op :: ops =>
      (step t op).bind fun (t, e) => (run t ops).map fun (t, es) => (t, e :: es)

/-- The finite map a tree is meant to implement. -/
abbrev KeyMap (V : Type) := UInt64 → Option V

def mapAdd (M : KeyMap V) (k : UInt64) (v : V) : KeyMap V × Err :=
  if k = invalidKey then (M, .addInvKey)
  else if (M k).isSome then (M, .addDup)
  else (Function.update M k (some v), .ok)

def mapDel (M : KeyMap V) (k : UInt64) : KeyMap V × Err × Option V :=
  if k = invalidKey then (M, .delInvKey, none)
  else
    match M k with
    | none => (M, .delNotExist, none)
    | some v => (Function.update M k none, .ok, some v)

def runMap (M : KeyMap V) : List (Op V) → KeyMap V × List Err
  | [] => (M, [])
  | .add k v :: ops =>
      let (M, e) := mapAdd M k v
      let (M, es) := runMap M ops
      (M, e :: es)
  | .del k :: ops =>
      let (M, e, _) := mapDel M k
      let (M, es) := runMap M ops
      (M, e :: es)

/-- A duplicate `add` of 5 shifts 7 into the unused slot 3; after 7 is
deleted and 6 added, slot 3 holds a stale 7 that the next `add` of 7 takes
for a duplicate. Deleting 1 from `[1, 2] | [3, 4, 5, 6]` borrows 3 from the
right sibling and then falls through to `BPLUS_ERR_DEL_ERR`. -/
theorem bplusTreeAdd_stale_duplicate :
    ((bplusTreeAlloc 4).bind fun t =>
        run t [.add 1 1, .add 5 5, .add 7 7, .add 5 5, .del 7, .add 6 6, .add 7 7]).map Prod.snd =
        some [.ok, .ok, .ok, .addDup, .ok, .ok, .addDup] ∧
      (runMap (fun _ => none) [.add 1 1, .add 5 5, .add 7 7, .add 5 5, .del 7, .add 6 6,
        .add 7 7]).2 = [.ok, .ok, .ok, .addDup, .ok, .ok, .ok] ∧
      ((bplusTreeAlloc 4).bind fun t =>
        run t [.add 1 1, .add 2 2, .add 3 3, .add 4 4, .add 5 5, .add 6 6, .del 1]).map Prod.snd =
        some [.ok, .ok, .ok, .ok, .ok, .ok, .delErr] ∧
      (runMap (fun _ => none) [.add 1 1, .add 2 2, .add 3 3, .add 4 4, .add 5 5, .add 6 6,
        .del 1]).2 = [.ok, .ok, .ok, .ok, .ok, .ok, .ok] := by
  decide_cbv

/-- The duplicate `add` of 5 to the leaf `[1, 5, 7]` returns
`BPLUS_ERR_ADD_DUP` after it has moved 7 into slot 3. -/
theorem bplusTreeAdd_dup_moves_key :
    ((bplusTreeAlloc 4).bind fun t => (run t [.add 1 1, .add 5 5, .add 7 7]).bind fun r =>
      (bplusTreeAdd r.1 5 5).map fun r' : Tree Nat × Err =>
        (r'.2, (r.1.node r.1.rootNode).keys, (r'.1.node r'.1.rootNode).keys)) =
      some (.addDup, [1, 5, 7, invalidKey, invalidKey], [1, 5, 7, 7, invalidKey]) := by
  decide_cbv

end Bitvisor.BplusTree
