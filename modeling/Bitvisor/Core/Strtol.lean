import Mathlib.Data.Nat.Basic

namespace Bitvisor.Core

/-! `strtol` and `strtoul` of `core/strtol.c` on an LP64 target (`long` and
`unsigned long` of 64 bits). A string is its characters before the NUL, a
pointer into it an index, and `*s` past the last character the NUL. The
`long` result is kept as its 64 bits, which `strtoul` returns unchanged. -/

/-- `*s`: the character at `i`, or the terminating NUL. -/
def charAt (s : List Char) (i : Nat) : Char := s.getD i '\x00'

def isblank (c : Char) : Bool := c == ' ' || c == '\t'

def isspace (c : Char) : Bool :=
  isblank c || c == '\x0c' || c == '\n' || c == '\r' || c == '\x0b'

/-- `digit_to_num`: the value of a digit in `base`, or `base` itself (as an
`unsigned int`) for anything that is not a digit of it. -/
def digitToNum (c : Char) (base : Int32) : UInt32 :=
  let n : UInt32 :=
    if '0' ≤ c ∧ c ≤ '9' then (c.toNat - '0'.toNat).toUInt32
    else if 'A' ≤ c ∧ c ≤ 'Z' then (c.toNat - 'A'.toNat + 10).toUInt32
    else if 'a' ≤ c ∧ c ≤ 'z' then (c.toNat - 'a'.toNat + 10).toUInt32
    else base.toUInt32
  let n := if n ≥ base.toUInt32 then base.toUInt32 else n
  if base < 2 ∨ base > 36 then base.toUInt32 else n

def ulongMax : UInt64 := 0xFFFFFFFFFFFFFFFF

def longMax : UInt64 := ulongMax >>> 1

inductive Sign
  | none
  | plus
  | minus
  deriving DecidableEq, Repr

inductive LoopEnd
  | done (val : UInt64) (e : Nat)
  | overflow (e : Nat)
  deriving DecidableEq, Repr

def strtolLoop (base : Int32) (valmax val : UInt64) (i : Nat) (rest : List Char) : Option LoopEnd :=
  let c := (digitToNum (rest.headD '\x00') base).toUInt64
  let ubase := base.toInt64.toUInt64
  if c = ubase then some (.done val i)
  else if val > valmax / ubase then some (.overflow i)
  else
    let val := val * ubase + c
    if val > valmax then some (.overflow i)
    else
      match rest with
      | [] => none
      | _ :: rest => strtolLoop base valmax val (i + 1) rest

/-- `strtol (s, &e, base)`: the bits of the `long` it returns and the
position it stores in `*e`. -/
def strtol (s : List Char) (base : Int32) : Option (UInt64 × Nat) :=
  let i := (s.takeWhile isspace).length
  let (sign, i, valmax) : Sign × Nat × UInt64 :=
    if charAt s i = '+' then (.plus, i + 1, longMax)
    else if charAt s i = '-' then (.minus, i + 1, longMax + 1)
    else (.none, i, ulongMax)
  let b : Int32 :=
    if charAt s i = '0' then (if charAt s (i + 1) = 'X' ∨ charAt s (i + 1) = 'x' then 16 else 8)
    else 10
  let base := if base = 0 then b else base
  let i := if base = 16 ∧ b = 16 then i + 2 else i
  (strtolLoop base valmax 0 i (s.drop i)).map fun
    | .done val e => (if sign = .minus then 0 - val else val, e)
    | .overflow e => (if sign = .minus then 0 - valmax else valmax, e)

/-- `strtoul`: `strtol` converted to `unsigned long`, which keeps the bits. -/
def strtoul (s : List Char) (base : Int32) : Option (UInt64 × Nat) := strtol s base

/-- `2 ^ 64` in decimal. Before the last digit `val` is `ULONG_MAX / 10`,
which passes the first overflow test, and `val * 10 + 6` wraps to `0`, which
passes the second: the result is `0`, not `ULONG_MAX`. -/
theorem strtoul_wraps_past_ulong_max :
    strtoul "18446744073709551616".toList 10 = some (0, 20) := by
  simp only [String.reduceToList]
  decide

end Bitvisor.Core
