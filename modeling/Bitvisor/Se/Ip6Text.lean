import Bitvisor.Se.Bytes

namespace Bitvisor.Se

/-! `Se6IPToStr` and `Se6StrToIP` of `Se/SeIp6.c`, with the string helpers
of `Se/SeStr.c` that they call. A string is its characters before the NUL,
and `INFINITE` is `none`. -/

/-- `SE_IPV6_ADDR`: the sixteen bytes of `Value`. -/
structure SeIpv6Addr where
  value : List UInt8
  length_value : value.length = 16

/-- `Se6ZeroIP`. -/
def se6ZeroIP : SeIpv6Addr := ⟨List.replicate 16 0, rfl⟩

/-- `a.Value[k] = c`. -/
def SeIpv6Addr.set (a : SeIpv6Addr) (k : Nat) (c : UInt8) : SeIpv6Addr :=
  ⟨a.value.set k c, by rw [List.length_set, a.length_value]⟩

/-- `values[i]` of `Se6IPToStr`: the `USHORT` at `Value[2 * i]`, turned to
host order by `SeEndian16`. -/
def SeIpv6Addr.group (a : SeIpv6Addr) (i : Nat) : Nat := be16 a.value (2 * i)

/-- `Se4BitToHex`. -/
def se4BitToHex (value : Nat) : Char :=
  let value := value % 16
  if value ≤ 9 then Char.ofNat ('0'.toNat + value) else Char.ofNat ('a'.toNat + (value - 10))

def seToHexLoop : Nat → Nat → List Char
  | 0, _ => []
  | fuel + 1, value =>
    se4BitToHex (value % 16) :: if value / 16 = 0 then [] else seToHexLoop fuel (value / 16)

/-- `SeToHex`: the digits of the loop, reversed. -/
def seToHex (value : UInt32) : List Char := (seToHexLoop 8 value.toNat).reverse

/-- `SeToLower`. -/
def seToLower (c : Char) : Char :=
  if 'A' ≤ c ∧ c ≤ 'Z' then Char.ofNat (c.toNat + ('z'.toNat - 'Z'.toNat)) else c

/-- `SeStrLower`. -/
def seStrLower (str : List Char) : List Char := str.map seToLower

structure ZeroRun where
  zeroStartedIndex : Option Nat
  maxZeroLen : Nat
  maxZeroStart : Option Nat

def zeroRunStep (r : ZeroRun) (i v : Nat) : ZeroRun :=
  if v = 0 then
    if r.zeroStartedIndex = none then { r with zeroStartedIndex := some i } else r
  else
    match r.zeroStartedIndex with
    | none => r
    | some z =>
      if 2 ≤ i - z ∧ r.maxZeroLen < i - z then
        { zeroStartedIndex := none, maxZeroLen := i - z, maxZeroStart := some z }
      else { r with zeroStartedIndex := none }

def zeroRunScan (values : List Nat) : ZeroRun :=
  (List.range 9).foldl (fun r i => zeroRunStep r i (if i ≠ 8 then values.getD i 0 else 1))
    ⟨none, 0, none⟩

def ipToStrLoop (values : List Nat) (maxZeroStart : Option Nat) (maxZeroLen : Nat) :
    Nat → Nat → List Char
  | 0, _ => []
  | fuel + 1, i =>
    if i < 8 then
      if maxZeroStart = some i then
        (if i = 0 then [':', ':'] else [':']) ++
          ipToStrLoop values maxZeroStart maxZeroLen fuel (i + (maxZeroLen - 1) + 1)
      else
        seStrLower (seToHex (values.getD i 0).toUInt32) ++ (if i ≠ 7 then [':'] else []) ++
          ipToStrLoop values maxZeroStart maxZeroLen fuel (i + 1)
    else []

/-- `Se6IPToStr`. -/
def se6IPToStr (a : SeIpv6Addr) : List Char :=
  let values := (List.range 8).map a.group
  let r := zeroRunScan values
  ipToStrLoop values r.maxZeroStart r.maxZeroLen 8 0

/-- `SeToUpper`. -/
def seToUpper (c : Char) : Char :=
  if 'a' ≤ c ∧ c ≤ 'z' then Char.ofNat (c.toNat - ('z'.toNat - 'Z'.toNat)) else c

def isHexChar (c : Char) : Bool :=
  ('0' ≤ c ∧ c ≤ '9') ∨ ('a' ≤ c ∧ c ≤ 'f') ∨ ('A' ≤ c ∧ c ≤ 'F')

/-- `SeHexTo4Bit`. -/
def seHexTo4Bit (c : Char) : Nat :=
  if '0' ≤ c ∧ c ≤ '9' then c.toNat - '0'.toNat
  else if 'a' ≤ c ∧ c ≤ 'f' then c.toNat - 'a'.toNat + 10
  else if 'A' ≤ c ∧ c ≤ 'F' then c.toNat - 'A'.toNat + 10
  else 0

def seHexToIntLoop (ret : UInt32) : List Char → UInt32
  | [] => ret
  | c :: cs => if isHexChar c then seHexToIntLoop (ret * 16 + (seHexTo4Bit c).toUInt32) cs else ret

/-- `SeHexToInt`: a leading `0x` or `0X` is skipped. -/
def seHexToInt (str : List Char) : UInt32 :=
  match str with
  | '0' :: c :: rest => if c = 'x' ∨ c = 'X' then seHexToIntLoop 0 rest else seHexToIntLoop 0 str
  | _ => seHexToIntLoop 0 str

def seStrToBinLoop (tmp : Option Char) : List Char → List UInt8
  | [] => []
  | c :: cs =>
    let c := seToUpper c
    if ('0' ≤ c ∧ c ≤ '9') ∨ ('A' ≤ c ∧ c ≤ 'F') then
      match tmp with
      | none => seStrToBinLoop (some c) cs
      | some t => (seHexToInt [t, c]).toUInt8 :: seStrToBinLoop none cs
    else if c = ' ' ∨ c = ',' ∨ c = '-' ∨ c = ':' then seStrToBinLoop tmp cs
    else []

/-- `SeStrToBin`. -/
def seStrToBin (str : List Char) : List UInt8 := seStrToBinLoop none str

/-- `Se6CheckIPItemStr`. -/
def se6CheckIPItemStr (str : List Char) : Bool := str.length < 5 && str.all isHexChar

/-- `Se6IPItemStrToChars`: the item padded on the left with `0`s to four
digits, read as two bytes. A longer item leaves `tmp` empty; it never gets
here, since `Se6CheckIPItemStr` refuses it first, and the bytes that the
buffer then lacks are taken as `0`. -/
def se6IPItemStrToChars (str : List Char) : UInt8 × UInt8 :=
  let tmp := if str.length ≤ 4 then List.replicate (4 - str.length) '0' ++ str else []
  let b := seStrToBin tmp
  (b.getD 0 0, b.getD 1 0)

def isBlank (c : Char) : Bool := c = ' ' ∨ c = '\t'

def seTrimLeftLoop (flag : Bool) : List Char → List Char
  | [] => []
  | c :: cs =>
    let flag := flag || !isBlank c
    if flag then c :: seTrimLeftLoop flag cs else seTrimLeftLoop flag cs

/-- `SeTrimLeft`. -/
def seTrimLeft (str : List Char) : List Char :=
  match str with
  | [] => []
  | c :: _ => if !isBlank c then str else seTrimLeftLoop false str

def seTrimRightLoop (tmp : List Char) : List Char → List Char
  | [] => []
  | c :: cs => if !isBlank c then tmp ++ c :: seTrimRightLoop [] cs else seTrimRightLoop (tmp ++ [c]) cs

/-- `SeTrimRight`. -/
def seTrimRight (str : List Char) : List Char :=
  match str.getLast? with
  | none => []
  | some c => if !isBlank c then str else seTrimRightLoop [] str

/-- `SeTrim`. -/
def seTrim (str : List Char) : List Char := seTrimRight (seTrimLeft str)

def seParseTokenWithNullStrLoop (splitChars b : List Char) : List Char → List (List Char)
  | [] => [b]
  | c :: cs =>
    if c ∈ splitChars then b :: seParseTokenWithNullStrLoop splitChars [] cs
    else seParseTokenWithNullStrLoop splitChars (b ++ [c]) cs

/-- `SeParseTokenWithNullStr`. -/
def seParseTokenWithNullStr (str splitChars : List Char) : List (List Char) :=
  seParseTokenWithNullStrLoop splitChars [] str

def se6StrToIPLoop (numTokens : Nat) :
    List (List Char) → Nat → Nat → Nat → SeIpv6Addr → Option (Nat × SeIpv6Addr)
  | [], _, n, _, a => some (n, a)
  | str :: rest, i, n, k, a =>
    if i ≠ 0 ∧ i ≠ numTokens - 1 ∧ str.length = 0 then
      if n + 1 = 1 then
        se6StrToIPLoop numTokens rest (i + 1) (n + 1) (k + 2 * (8 - numTokens + 1)) a
      else none
    else if se6CheckIPItemStr str then
      let chars := se6IPItemStrToChars str
      se6StrToIPLoop numTokens rest (i + 1) n (k + 2) ((a.set k chars.1).set (k + 1) chars.2)
    else none

/-- `MAX_PATH`, the size of the buffer that `Se6StrToIP` copies into. -/
def maxPath : Nat := 260

/-- `Se6StrToIP`: every failure gives the zero address. -/
def se6StrToIP (str : List Char) : SeIpv6Addr :=
  let tmp := seTrim (str.take (maxPath - 1))
  let t := seParseTokenWithNullStr tmp [':']
  if 3 ≤ t.length ∧ t.length ≤ 8 then
    match se6StrToIPLoop t.length t 0 0 0 se6ZeroIP with
    | some (n, a) =>
      if n ≠ 0 ∧ n ≠ 1 then se6ZeroIP
      else if n = 0 ∧ t.length ≠ 8 then se6ZeroIP
      else a
    | none => se6ZeroIP
  else se6ZeroIP

end Bitvisor.Se
