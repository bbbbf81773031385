import Bitvisor.Mmio.Registry

namespace Bitvisor.Mmio

open BplusTree

variable {H : Type}

inductive Event (H : Type)
  | handler (h : HandlerInfo H) (start : UInt64) (len : UInt32)
  | access (start : UInt64) (len : UInt32)
  deriving DecidableEq, Repr

/-- `mmio_gphys_access`, which panics (`none`) unless the length is 1, 2, 4
or 8. -/
def mmioGphysAccess (start : UInt64) (len : UInt32) : Option (Event H) :=
  if len = 1 ∨ len = 2 ∨ len = 4 ∨ len = 8 then some (.access start len) else none

section Call

-- `hret` is the driver's handler function: `true` when it handled the piece itself
variable (hret : H → UInt64 → UInt32 → Bool)

def callPiece (h : HandlerInfo H) (start : UInt64) (len : UInt32) : Option (List (Event H)) :=
  if hret h.handler start len then some [.handler h start len]
  else (mmioGphysAccess start len).map fun e => [.handler h start len, e]

def handlePiece (h : HandlerInfo H) (start : UInt64) (rem : UInt32) :
    Option (UInt64 × UInt32 × List (Event H)) :=
  let hLen : UInt32 := h.len.toUInt32
  if start ≥ h.gphys ∧ start + rem.toUInt64 ≤ h.gphys + hLen.toUInt64 then
    (callPiece hret h start rem).map fun es => (start, 0, es)
  else if start ≥ h.gphys ∧ start + rem.toUInt64 > h.gphys + hLen.toUInt64 then
    let toHandleLen : UInt32 := (h.gphys + hLen.toUInt64 - start).toUInt32
    (callPiece hret h start toHandleLen).map fun es =>
      (start + toHandleLen.toUInt64, rem - toHandleLen, es)
  else some (start, rem, [])

def callLoop (t : BplusTree.Tree (HandlerInfo H)) : Nat → Iter → UInt64 → UInt32 →
    Option (UInt64 × UInt32 × List (Event H))
  | 0, _, start, rem => some (start, rem, [])
  | fuel + 1, it, start, rem =>
      if rem = 0 then some (start, rem, [])
      else
        match bplusTreeKvFromIterator t it with
        | none => some (start, rem, [])
        | some (_, none, _) => none
        | some (_, some h, it') =>
            if start < h.gphys ∧ start + rem.toUInt64 > h.gphys then
              let noHandleLen : UInt32 := (h.gphys - start).toUInt32
              (mmioGphysAccess start noHandleLen).bind fun e =>
                let start := start + noHandleLen.toUInt64
                let rem := rem - noHandleLen
                if rem = 0 then some (start, rem, [e])
                else
                  (handlePiece hret h start rem).bind fun (start, rem, es) =>
                    (callLoop t fuel it' start rem).map fun (start, rem, es') =>
                      (start, rem, e :: es ++ es')
            else
              (handlePiece hret h start rem).bind fun (start, rem, es) =>
                (callLoop t fuel it' start rem).map fun (start, rem, es') => (start, rem, es ++ es')

def callBlock (db : BlockDb H) (gphys : UInt64) (len : UInt32) : Option (Option (BlockInfo H)) :=
  let gphysEnd := gphys + len.toUInt64 - 1
  (mmioSearchBlockWithNeighbors db gphys gphysEnd).map fun s =>
    match s.block with
    | some id => db.block id
    | none =>
        let left := if s.leftFound then s.leftBlock.bind db.block else none
        let right := if s.rightFound then s.rightBlock.bind db.block else none
        match left.filter (fun l => l.pageAlignedStart + l.pageAlignedLen - 1 > gphys) with
        | some l => some l
        | none => right.filter (fun r => gphysEnd > r.pageAlignedStart)

/-- `mmio_call_handler` for an access of `len` bytes at `gphys`: whether it
was handled (the block was found) and the calls it made. `none` is a panic. -/
def mmioCallHandler (db : BlockDb H) (gphys : UInt64) (len : UInt32) :
    Option (Bool × List (Event H)) :=
  (callBlock db gphys len).bind fun
    | none => some (false, [])
    | some b =>
        let t := b.handlerTree
        (bplusTreeIteratorAlloc t).bind fun it =>
          (callLoop hret t (t.heap.length * (t.limitNKv + 1)) it gphys len).bind fun (start, rem, es) =>
            if rem > 0 then (mmioGphysAccess start rem).map fun e => (true, es ++ [e])
            else some (true, es)

end Call

/-- The claim on the calls made for an access of `n` bytes at `a`: pieces in
address order that cover the access once, each either given to a handler
whose range holds it whole and with a positive length (and then possibly
accessed directly, when the handler declines) or accessed directly. -/
def splits : List (Event H) → Nat → Nat → Bool
  | [], _, n => n == 0
  | .handler h s l :: .access s' l' :: es, a, n =>
      s.toNat == a && l.toNat > 0 && l.toNat ≤ n && h.gphys.toNat ≤ a &&
        a + l.toNat ≤ h.gphys.toNat + h.len.toNat && s' == s && l' == l &&
        splits es (a + l.toNat) (n - l.toNat)
  | .handler h s l :: es, a, n =>
      s.toNat == a && l.toNat > 0 && l.toNat ≤ n && h.gphys.toNat ≤ a &&
        a + l.toNat ≤ h.gphys.toNat + h.len.toNat && splits es (a + l.toNat) (n - l.toNat)
  | .access s l :: es, a, n =>
      s.toNat == a && l.toNat > 0 && l.toNat ≤ n && splits es (a + l.toNat) (n - l.toNat)

/-- Two disjoint handlers in one block, and a 4-byte access to the second.
The loop meets the first handler, which lies wholly below the access, and
takes its "partially within" branch: `h_gphys + h_len - start` wraps to
`0xFFFFFFF4`, so the first handler receives a piece outside its range and
the second one a piece starting past 4 GiB. -/
theorem mmioCallHandler_handler_below_access :
    ((mmioDoRegister (mmioInit : BlockDb Nat) 0x1000 4 1).bind fun (db, ok1) =>
      (mmioDoRegister db 0x1010 4 2).bind fun (db, ok2) =>
        (mmioCallHandler (fun _ _ _ => true) db 0x1010 4).map fun r => (ok1, ok2, r)) =
      some (true, true, true,
        [.handler ⟨0x1000, 4, 1⟩ 0x1010 0xFFFFFFF4, .handler ⟨0x1010, 4, 2⟩ 0x100001004 16]) ∧
    splits [.handler ⟨0x1000, 4, 1⟩ 0x1010 0xFFFFFFF4, .handler ⟨0x1010, 4, 2⟩ 0x100001004 16]
      0x1010 4 = false := by
  decide_cbv

end Bitvisor.Mmio
