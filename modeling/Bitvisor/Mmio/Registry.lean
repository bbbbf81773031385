import Mathlib
import Bitvisor.BplusTree.Del

namespace Bitvisor.Mmio

open BplusTree

variable {H : Type}

/-- `PAGESIZE_MASK`. -/
def pagesizeMask : UInt64 := 0xFFF

/-- `struct mmio_handler_info`; `H` stands for the handler function with its
`data` argument. The `parent_block` back pointer is never read. -/
structure HandlerInfo (H : Type) where
  gphys : UInt64
  len : UInt64
  handler : H
  deriving DecidableEq, Repr

structure IpaHook where
  addr : UInt64
  size : UInt64
  deriving DecidableEq, Repr

/-- `struct mmio_block_info`. -/
structure BlockInfo (H : Type) where
  handlerTree : BplusTree.Tree (HandlerInfo H)
  ipaHook : IpaHook
  pageAlignedStart : UInt64
  pageAlignedLen : UInt64
  curNHandlers : Nat

abbrev BlockId := Nat

/-- `struct mmio_block_db` without its locks: the block tree maps each
block's page-aligned start to the block, and the blocks live in a heap. -/
structure BlockDb (H : Type) where
  blockTree : BplusTree.Tree BlockId
  blocks : List (Option (BlockInfo H))

def emptyHandlerTree : BplusTree.Tree (HandlerInfo H) := ⟨[some (bplusNodeAlloc 4 true)], 0, 4⟩

/-- `mmio_init`: the block tree is a `bplus_tree_4kv_alloc`. -/
def mmioInit : BlockDb H := ⟨⟨[some (bplusNodeAlloc 4 true)], 0, 4⟩, []⟩

namespace BlockDb

def block (db : BlockDb H) (id : BlockId) : Option (BlockInfo H) := (db.blocks[id]?).join

def setBlock (db : BlockDb H) (id : BlockId) (b : Option (BlockInfo H)) : BlockDb H :=
  { db with blocks := db.blocks.set id b }

end BlockDb

/-- `mmio_add_handler`: `Except` carries the overlapping range it reports. -/
def mmioAddHandler (b : BlockInfo H) (gphys : UInt64) (len : UInt32) (handler : H) :
    Option (Except (UInt64 × UInt64) (BlockInfo H)) :=
  (bplusTreeSearchGetNeighbors b.handlerTree gphys).bind fun nb =>
    match nb.found, nb.val with
    | true, some h => some (.error (h.gphys, h.len))
    | true, none => none
    | false, _ =>
        match nb.leftVal.filter (fun _ => nb.leftKey != invalidKey) with
        | some l =>
            -- inclusive end of the left handler, compared with `>` and not `>=`
            if l.gphys + l.len - 1 > gphys then some (.error (l.gphys, l.len)) else add nb
        | none => add nb
  where
    add (nb : Neighbors (HandlerInfo H)) : Option (Except (UInt64 × UInt64) (BlockInfo H)) :=
      match nb.rightVal.filter (fun _ => nb.rightKey != invalidKey) with
      | some r => if gphys + len.toUInt64 - 1 > r.gphys then some (.error (r.gphys, r.len)) else insert
      | none => insert
    insert : Option (Except (UInt64 × UInt64) (BlockInfo H)) :=
      match bplusTreeAdd b.handlerTree gphys ⟨gphys, len.toUInt64, handler⟩ with
      | some (tr, .ok) => some (.ok { b with handlerTree := tr, curNHandlers := b.curNHandlers + 1 })
      | _ => none

structure BlockSearch where
  block : Option BlockId
  leftFound : Bool
  leftBlock : Option BlockId
  rightFound : Bool
  rightBlock : Option BlockId

def mmioSearchBlockWithNeighbors (db : BlockDb H) (addrStart addrEnd : UInt64) :
    Option BlockSearch :=
  (bplusTreeSearchGetNeighbors db.blockTree addrStart).map fun nb =>
    let covering :=
      if !nb.found && nb.leftKey != invalidKey then
        match nb.leftVal.bind db.block with
        | some l =>
            if l.pageAlignedStart ≤ addrStart && l.pageAlignedStart + l.pageAlignedLen - 1 ≥ addrEnd
            then nb.leftVal else none
        | none => none
      else none
    { block := if nb.found then nb.val else covering
      leftFound := nb.leftKey != invalidKey
      leftBlock := nb.leftVal
      rightFound := nb.rightKey != invalidKey
      rightBlock := nb.rightVal }

/-- `mmio_do_register`. `none` is an `ASSERT` failing or a `NULL` block
dereferenced; `some (db, ok)` is the new registry and the return value. -/
def mmioDoRegister (db : BlockDb H) (gphys : UInt64) (len : UInt32) (handler : H) :
    Option (BlockDb H × Bool) :=
  let toAddBlockStart := gphys &&& ~~~pagesizeMask
  let toAddBlockEnd := (gphys + len.toUInt64 - 1) ||| pagesizeMask
  (mmioSearchBlockWithNeighbors db toAddBlockStart toAddBlockEnd).bind fun s =>
    match s.block with
    -- an exact hit on a block start skips the coverage test of the left neighbour
    | some id => addTo db id
    | none =>
        let leftOverlaps :=
          s.leftFound && ((s.leftBlock.bind db.block).map fun l =>
            decide (l.pageAlignedStart + l.pageAlignedLen - 1 > toAddBlockStart)).getD false
        let rightOverlaps :=
          s.rightFound && ((s.rightBlock.bind db.block).map fun r =>
            decide (toAddBlockEnd > r.pageAlignedStart)).getD false
        if leftOverlaps || rightOverlaps then some (db, false)
        else
          let alignedLen := (toAddBlockEnd + 1) - toAddBlockStart
          let b : BlockInfo H := ⟨emptyHandlerTree, ⟨toAddBlockStart, alignedLen⟩, toAddBlockStart,
            alignedLen, 0⟩
          let id := db.blocks.length
          match bplusTreeAdd db.blockTree toAddBlockStart id with
          | some (tr, .ok) => addTo ⟨tr, db.blocks ++ [some b]⟩ id
          | some (tr, _) => some ({ db with blockTree := tr }, false)
          | none => none
  where
    addTo (db : BlockDb H) (id : BlockId) : Option (BlockDb H × Bool) :=
      (db.block id).bind fun b =>
        (mmioAddHandler b gphys len handler).map fun
          | .ok b => (db.setBlock id (some b), true)
          | .error _ => (db, false)

def handlersOf (db : BlockDb H) : List (HandlerInfo H) :=
  db.blocks.flatMap fun
    | some b => (iterAll b.handlerTree).filterMap (·.2)
    | none => []

/-- The handlers `[0x1000, 0x1004)` and `[0x1003, 0x1007)` share the byte
`0x1003`, yet both registrations succeed: the left neighbour's inclusive end
`0x1003` is compared with `>` against the new start `0x1003`. And a range
whose first page is the first page of the block `[0x1000, 0x2000)` goes into
that block untested, though it runs on to `0x2800`. -/
theorem mmioDoRegister_one_byte_overlap :
    ((mmioDoRegister (mmioInit : BlockDb Nat) 0x1000 4 1).bind fun (db, ok1) =>
      (mmioDoRegister db 0x1003 4 2).map fun (db, ok2) => (ok1, ok2, handlersOf db)) =
      some (true, true, [⟨0x1000, 4, 1⟩, ⟨0x1003, 4, 2⟩]) ∧
    ((mmioDoRegister (mmioInit : BlockDb Nat) 0x1000 4 1).bind fun (db, _) =>
      (mmioDoRegister db 0x1800 0x1000 2).map fun (db, ok) => (ok, handlersOf db)) =
      some (true, [⟨0x1000, 4, 1⟩, ⟨0x1800, 0x1000, 2⟩]) ∧
    ((mmioDoRegister (mmioInit : BlockDb Nat) 0x1000 4 1).bind fun (db, _) =>
      (mmioDoRegister db 0x1800 0x1000 2).map fun (db, _) =>
        db.blocks.map (Option.map fun (b : BlockInfo Nat) => (b.pageAlignedStart, b.pageAlignedLen))) =
      some [some (0x1000, 0x1000)] := by
  decide_cbv

/-- `struct mmio_handle`: what `mmio_register` hands back. -/
structure MmioHandle where
  gphys : UInt64
  len : UInt32
  deriving DecidableEq, Repr

def mmioDoUnregister (db : BlockDb H) (h : MmioHandle) : Option (BlockDb H × Bool) :=
  let blockAddr := h.gphys &&& ~~~pagesizeMask
  let blockAddrEnd := (h.gphys + h.len.toUInt64 - 1) ||| pagesizeMask
  (mmioSearchBlockWithNeighbors db blockAddr blockAddrEnd).bind fun s =>
    match s.block.bind fun id => (db.block id).map (id, ·) with
    | none => some (db, false)
    | some (id, b) =>
        (bplusTreeDel b.handlerTree h.gphys).bind fun (tr, err, _) =>
          let b := { b with handlerTree := tr }
          if err ≠ .ok then some (db.setBlock id (some b), false)
          else
            let b := { b with curNHandlers := b.curNHandlers - 1 }
            if b.curNHandlers = 0 then
              (bplusTreeDel db.blockTree b.pageAlignedStart).map fun (bt, _, _) =>
                ({ blockTree := bt, blocks := db.blocks.set id none }, true)
            else some (db.setBlock id (some b), true)

inductive MmioAction (H : Type)
  | register (gphys : UInt64) (len : UInt32) (handler : H)
  | unregister (handle : MmioHandle)

/-- `mmio_replay_pending_actions`: the queued actions in order, stopping at
the first that fails. -/
def mmioReplayPendingActions (db : BlockDb H) : List (MmioAction H) → Option (BlockDb H × Bool)
  | [] => some (db, true)
  | a :: as =>
      let r := match a with
        | .register g l h => mmioDoRegister db g l h
        | .unregister h => mmioDoUnregister db h
      r.bind fun (db, ok) => if ok then mmioReplayPendingActions db as else some (db, false)

end Bitvisor.Mmio
