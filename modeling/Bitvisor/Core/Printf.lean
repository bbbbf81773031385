import Mathlib

namespace Bitvisor.Core

/-! `do_printf` of `core/printf.c` and its two sinks, `putchar` (through
`printf`) and the buffer of `vsnprintf`, on an LP64 target. The format is
its characters before the NUL; a `va_list` is the list of its arguments,
each a machine word or a `char *` (`none` is `NULL`). Reading an argument
of the wrong kind, or past the last one, is `none`. The flag word `r` of
`parse_format` keeps the source's bits. -/

def flagAlternateForm : Nat := 0x1
def flagZeroPadded : Nat := 0x2
def flagLeftAdjusted : Nat := 0x4
def flagPositiveBlank : Nat := 0x8
def flagPositiveSign : Nat := 0x10
def hasWidth : Nat := 0x20
def hasPrecision : Nat := 0x40
def lengthShort : Nat := 0x80
def lengthChar : Nat := 0x100
def lengthLong : Nat := 0x200
def lengthLonglong : Nat := 0x400
def lengthIntmax : Nat := 0x800
def lengthSize : Nat := 0x1000
def lengthPtrdiff : Nat := 0x2000
def conversionInt : Nat := 0x4000
def conversionDecimal : Nat := 0x8000
def conversionUint : Nat := 0x10000
def conversionOctal : Nat := 0x20000
def conversionCapital : Nat := 0x40000
def conversionHexadecimal : Nat := 0x80000
def conversionCharacter : Nat := 0x100000
def conversionCharp : Nat := 0x200000
def conversionVoidp : Nat := 0x400000
def conversionNone : Nat := 0x800000
def endString : Nat := 0x1000000
def flagMinus : Nat := 0x2000000
def flagPlus : Nat := 0x4000000

/-- `f & bit`, as a test. -/
def has (f bit : Nat) : Bool := f &&& bit != 0

def isDigit (c : Char) : Bool := '0' ≤ c && c ≤ '9'

def digitValue (c : Char) : Nat := c.toNat - '0'.toNat

structure Parsed where
  f : Nat
  width : Nat
  precision : Nat
  rest : List Char
  deriving DecidableEq, Repr

/-- `parse_conversion:` on the character `c`. -/
def parseConversion (r : Nat) (c : Char) : Nat :=
  match c with
  | 'd' | 'i' => r ||| conversionInt ||| conversionDecimal
  | 'o' => r ||| conversionUint ||| conversionOctal
  | 'u' => r ||| conversionUint ||| conversionDecimal
  | 'X' => r ||| conversionCapital ||| conversionUint ||| conversionHexadecimal
  | 'x' => r ||| conversionUint ||| conversionHexadecimal
  | 'c' => r ||| conversionInt ||| conversionCharacter
  | 's' => r ||| conversionCharp
  | 'p' => r ||| conversionVoidp ||| conversionHexadecimal ||| flagAlternateForm
  | '%' => r ||| conversionNone
  | _ => r

def parseLengthModifier (r width precision : Nat) (c : Char) (rest : List Char) : Parsed :=
  let next (r : Nat) : Parsed :=
    match rest with
    | [] => ⟨endString, width, precision, []⟩
    | c :: rest => parseLengthModifier r width precision c rest
  match c with
  | 'h' => next (if has r lengthShort then r ||| lengthChar else r ||| lengthShort)
  | 'l' => next (if has r lengthLong then r ||| lengthLonglong else r ||| lengthLong)
  | 'j' => next (r ||| lengthIntmax)
  | 'z' => next (r ||| lengthSize)
  | 't' => next (r ||| lengthPtrdiff)
  | _ => ⟨parseConversion r c, width, precision, rest⟩

def parsePrecisionDigits (r width precision : Nat) : List Char → Parsed
  | [] => ⟨endString, width, precision, []⟩
  | c :: rest =>
    if isDigit c then parsePrecisionDigits r width (precision * 10 + digitValue c) rest
    else parseLengthModifier r width precision c rest

/-- `parse_precision:` with `c` just read. -/
def parsePrecision (r width : Nat) (c : Char) (rest : List Char) : Parsed :=
  if c = '.' then parsePrecisionDigits (r ||| hasPrecision) width 0 rest
  else parseLengthModifier r width 0 c rest

def parseWidth (r width : Nat) (c : Char) (rest : List Char) : Parsed :=
  if isDigit c then
    match rest with
    | [] => ⟨endString, width * 10 + digitValue c, 0, []⟩
    | c' :: rest => parseWidth (r ||| hasWidth) (width * 10 + digitValue c) c' rest
  else parsePrecision r width c rest

/-- `parse_format` on the format after the `%`: the flag loop first. -/
def parseFormat (r : Nat) : List Char → Parsed
  | [] => ⟨endString, 0, 0, []⟩
  | c :: rest =>
    match c with
    | '#' => parseFormat (r ||| flagAlternateForm) rest
    | '0' => parseFormat (r ||| flagZeroPadded) rest
    | '-' => parseFormat (r ||| flagLeftAdjusted) rest
    | ' ' => parseFormat (r ||| flagPositiveBlank) rest
    | '+' => parseFormat (r ||| flagPositiveSign) rest
    | _ => parseWidth r 0 c rest

def sub10 : List UInt64 :=
  [10000000000000000000, 1000000000000000000, 100000000000000000, 10000000000000000,
    1000000000000000, 100000000000000, 10000000000000, 1000000000000, 100000000000,
    10000000000, 1000000000, 100000000, 10000000, 1000000, 100000, 10000, 1000, 100, 10, 1, 0]

def sub8 : List UInt64 :=
  [0o1000000000000000000000, 0o100000000000000000000, 0o10000000000000000000,
    0o1000000000000000000, 0o100000000000000000, 0o10000000000000000, 0o1000000000000000,
    0o100000000000000, 0o10000000000000, 0o1000000000000, 0o100000000000, 0o10000000000,
    0o1000000000, 0o100000000, 0o10000000, 0o1000000, 0o100000, 0o10000, 0o1000, 0o100,
    0o10, 0o1, 0]

def sub16 : List UInt64 :=
  [0x1000000000000000, 0x100000000000000, 0x10000000000000, 0x1000000000000,
    0x100000000000, 0x10000000000, 0x1000000000, 0x100000000, 0x10000000, 0x1000000,
    0x100000, 0x10000, 0x1000, 0x100, 0x10, 0x1, 0]

/-- `while (*sub)`: one digit per power of the table, by the subtractions
of the source (a quotient and a remainder). -/
def valconvDigits (str : List Char) (val : UInt64) : List UInt64 → List Char
  | [] => []
  | s :: sub => if s = 0 then [] else str.getD (val / s).toNat '?' :: valconvDigits str (val % s) sub

/-- `valconv`: the digits of `val`, most significant first, after the
leading powers above it are skipped. -/
def valconv (val : UInt64) (sub : List UInt64) (str : List Char) : List Char :=
  if val = 0 then ['0'] else valconvDigits str val (sub.dropWhile fun s => val < s)

/-- `PUTCHAR` of each character in turn: the sink's `func` may refuse one
(`none`), which jumps to `error` and ends the function. Returns how many
went out and the sink. -/
def emit {σ : Type} (put : Char → σ → Option σ) : List Char → σ → Nat × σ
  | [], st => (0, st)
  | c :: cs, st =>
    match put c st with
    | none => (0, st)
    | some st => let r := emit put cs st; (r.1 + 1, r.2)

def conversionIntChars (val : UInt64) (f width precision : Nat) : List Char :=
  if has f conversionCharacter then [Char.ofNat (val.toNat % 256)]
  else if has f hasPrecision ∧ precision = 0 ∧ val = 0 then []
  else
    let buf :=
      if has f conversionDecimal then valconv val sub10 "0123456789".toList
      else if has f conversionOctal then valconv val sub8 "01234567".toList
      else if has f conversionHexadecimal ∧ has f conversionCapital then
        valconv val sub16 "0123456789ABCDEF".toList
      else if has f conversionHexadecimal then valconv val sub16 "0123456789abcdef".toList
      else []
    let len := buf.length
    let leftzero := if has f hasPrecision ∧ precision > len then precision - len else 0
    let leftbuf : List Char :=
      if !has f conversionDecimal ∧ has f flagAlternateForm ∧ val ≠ 0 then
        if has f conversionOctal ∧ leftzero = 0 then ['0']
        else if has f conversionHexadecimal then
          (if has f conversionCapital then ['0', 'X'] else ['0', 'x'])
        else []
      else []
    let leftbuf : List Char :=
      if has f conversionDecimal then
        if has f flagPlus then
          if has f flagPositiveSign then ['+']
          else if has f flagPositiveBlank then [' '] else leftbuf
        else if has f flagMinus then ['-'] else leftbuf
      else leftbuf
    let leftlen := leftbuf.length
    let (leftsp, rightsp) :=
      if has f hasWidth ∧ width > leftlen + leftzero + len then
        if has f flagLeftAdjusted then (0, width - (leftlen + leftzero + len))
        else (width - (leftlen + leftzero + len), 0)
      else (0, 0)
    let (leftzero, leftsp) :=
      if has f flagZeroPadded ∧ !has f hasPrecision then (leftzero + leftsp, 0) else (leftzero, leftsp)
    List.replicate leftsp ' ' ++ leftbuf ++ List.replicate leftzero '0' ++ buf ++
      List.replicate rightsp ' '

def conversionStringChars (str : List Char) (f width precision : Nat) : List Char :=
  let s := if has f hasPrecision then str.take precision else str
  let len := s.length
  let (leftsp, rightsp) :=
    if has f hasWidth ∧ width > len then
      if has f flagLeftAdjusted then (0, width - len) else (width - len, 0)
    else (0, 0)
  List.replicate leftsp ' ' ++ s ++ List.replicate rightsp ' '

inductive VaArg
  | word (w : UInt64)
  | str (s : Option (List Char))
  deriving DecidableEq, Repr

/-- `va_arg (ap, int)`, `va_arg (ap, long)` and so on: the low `bits` of
the next word, signed or not. -/
def vaArgInt (bits : Nat) (signed : Bool) : List VaArg → Option (Int × List VaArg)
  | .word w :: ap =>
    let v := w.toNat % 2 ^ bits
    some (if signed ∧ v ≥ 2 ^ (bits - 1) then (v : Int) - 2 ^ bits else v, ap)
  | _ => none

def vaArgStr : List VaArg → Option (Option (List Char) × List VaArg)
  | .str s :: ap => some (s, ap)
  | _ => none

def argBits (f : Nat) : Nat :=
  if has f lengthChar then 32
  else if has f lengthShort then 32
  else if has f lengthLonglong then 64
  else if has f lengthLong then 64
  else 32

def doPrintfLoop {σ : Type} (put : Char → σ → Option σ) :
    Nat → List Char → List VaArg → Nat → σ → Option (Nat × σ)
  | 0, _, _, _, _ => none
  | _ + 1, [], _, n, st => some (n, st)
  | fuel + 1, c :: format, ap, n, st =>
    if c = '%' then
      let p := parseFormat 0 format
      let f := if has p.f lengthIntmax then p.f ||| lengthLonglong
        else if has p.f lengthSize then p.f ||| lengthLong
        else if has p.f lengthPtrdiff then p.f ||| lengthLong
        else p.f
      if f = endString then some (n, st)
      else if has f conversionNone then
        match put '%' st with
        | none => some (n, st)
        | some st => doPrintfLoop put fuel p.rest ap (n + 1) st
      else if has f conversionInt then do
        let (intval, ap) ← vaArgInt (argBits f) true ap
        let (uintval, f) :=
          if intval < 0 then (((-intval) % 2 ^ 64).toNat.toUInt64, f ||| flagMinus)
          else (intval.toNat.toUInt64, f ||| flagPlus)
        let (k, st) := emit put (conversionIntChars uintval f p.width p.precision) st
        doPrintfLoop put fuel p.rest ap (n + k) st
      else if has f conversionUint then do
        let (uintval, ap) ← vaArgInt (argBits f) false ap
        let (k, st) := emit put (conversionIntChars uintval.toNat.toUInt64 f p.width p.precision) st
        doPrintfLoop put fuel p.rest ap (n + k) st
      else if has f conversionVoidp then do
        let (uintval, ap) ← vaArgInt 64 false ap
        let (k, st) := emit put (conversionIntChars uintval.toNat.toUInt64 f p.width p.precision) st
        doPrintfLoop put fuel p.rest ap (n + k) st
      else if has f conversionCharp then do
        let (s, ap) ← vaArgStr ap
        let (k, st) := emit put (conversionStringChars (s.getD "(null)".toList) f p.width p.precision) st
        doPrintfLoop put fuel p.rest ap (n + k) st
      else
        let (k, st) := emit put (conversionStringChars "FORMAT ERROR".toList conversionCharp 0 0) st
        doPrintfLoop put fuel p.rest ap (n + k) st
    else
      match put c st with
      | none => some (n, st)
      | some st => doPrintfLoop put fuel format ap (n + 1) st

/-- `do_printf (format, ap, func, data)`: the count it returns and the sink. -/
def doPrintf {σ : Type} (put : Char → σ → Option σ) (format : List Char) (ap : List VaArg)
    (st : σ) : Option (Nat × σ) :=
  doPrintfLoop put (format.length + 1) format ap 0 st

/-- `do_putchar`: the console takes every character. -/
def doPutchar (c : Char) (out : List Char) : Option (List Char) := some (out ++ [c])

/-- `vprintf`: the count and the characters printed. -/
def vprintf (format : List Char) (ap : List VaArg) : Option (Nat × List Char) :=
  doPrintf doPutchar format ap []

/-- `do_snputchar` on the characters stored so far and `p->len`: refused
once `len` is 0, and the last place gets the NUL. -/
def doSnputchar (c : Char) (p : List Char × Nat) : Option (List Char × Nat) :=
  if p.2 = 0 then none
  else
    let len := p.2 - 1
    some (p.1 ++ [if len = 0 then '\x00' else c], len)

/-- `vsnprintf (str, size, format, ap)`: the count and what is stored in
`str`. -/
def vsnprintf (size : Nat) (format : List Char) (ap : List VaArg) : Option (Nat × List Char) :=
  (doPrintf doSnputchar format ap ([], size)).map fun (r, data) =>
    (r, ((doSnputchar '\x00' data).getD data).1)

/-- `"%5c"` of `'a'`: ISO C pads the character to the field width, five
characters in all; the conversion of the source writes the character and
returns before the width is looked at. -/
theorem vprintf_char_ignores_width :
    vprintf "%5c".toList [.word 97] = some (1, ['a']) := by
  simp only [String.reduceToList]
  decide

end Bitvisor.Core
