import Bitvisor.Core.Strtol

namespace Bitvisor.Core

/-! `get_token` and `match_token` of `include/token.h`. A pointer into the
configuration string or into the matched string is an index; `charAt` reads
the NUL past the last character. The loops advance by at least one
character per round, so the length of the string bounds them (the fuel). -/

/-- `struct token`: `start` (`none` for `NULL`), `end` and `next`. -/
structure Token where
  start : Option Nat
  end_ : Nat
  next : Nat
  deriving DecidableEq, Repr

def getToken2Loop (s : List Char) (f : Bool) (t : Token) : Nat → Nat → Char × Token
  | 0, p => (charAt s p, t)
  | fuel + 1, p =>
    match charAt s p with
    | '\\' =>
      if charAt s (p + 1) = '\x00' then (charAt s (p + 1), { t with start := none, next := p + 1 })
      else getToken2Loop s f { t with end_ := p + 2 } fuel (p + 2)
    | '"' => getToken2Loop s (!f) { t with end_ := p + 1 } fuel (p + 1)
    | '\x00' =>
      if !f then (charAt s p, { t with next := p })
      else (charAt s p, { t with start := none, next := p })
    | '=' | ',' | '|' =>
      if !f then (charAt s p, { t with next := p + 1 })
      else getToken2Loop s f { t with end_ := p + 1 } fuel (p + 1)
    | ' ' => getToken2Loop s f t fuel (p + 1)
    | _ => getToken2Loop s f { t with end_ := p + 1 } fuel (p + 1)

/-- `get_token2 (p, &t)`: blanks are skipped, then the loop runs. -/
def getToken2 (s : List Char) (p : Nat) : Char × Token :=
  let p := p + ((s.drop p).takeWhile fun c => c == ' ' || c == '\t').length
  getToken2Loop s false ⟨some p, p, p⟩ (s.length + 1) p

def getToken1Loop (s : List Char) : Nat → Char → Token → Token → Char × Token × Token
  | 0, c, tmp, t => (c, tmp, t)
  | fuel + 1, c, tmp, t =>
    if c = '|' then
      let (c, tmp) := getToken2 s tmp.next
      getToken1Loop s fuel c tmp { t with end_ := tmp.end_, next := tmp.next }
    else (c, tmp, t)

/-- `get_token (p, &t)`, which is `get_token1`. -/
def getToken (s : List Char) (p : Nat) : Char × Token :=
  let (c, tmp) := getToken2 s p
  let (c, tmp, t) := getToken1Loop s (s.length + 1) c tmp tmp
  (c, if tmp.start = none then { t with start := none } else t)

def matchToken2Star (w : List Char) (m : Nat → Bool) : Nat → Nat → Bool
  | str, 0 => m str
  | str, left + 1 =>
    if charAt w str = '\x00' then m str
    else if m str then true
    else matchToken2Star w m (str + 1) left

/-- `match_token2 (str, p, end)` on the pattern `s`, at `str` in `w`. -/
def matchToken2 (w s : List Char) (stop : Nat) : Nat → Nat → Nat → Bool
  | 0, _, _ => false
  | fuel + 1, str, p =>
    if p = stop then charAt w str = '\x00'
    else
      match charAt s p with
      | '"' => matchToken2 w s stop fuel str (p + 1)
      | '*' =>
        let p := p + (((s.drop p).take (stop - p)).takeWhile (· == '*')).length
        matchToken2Star w (fun str => matchToken2 w s stop fuel str p) str (w.length - str)
      | '?' => if charAt w str = '\x00' then false else matchToken2 w s stop fuel (str + 1) (p + 1)
      | '\x00' => false
      | '\\' =>
        if charAt s (p + 1) = '\x00' ∨ p + 1 = stop then false
        else if charAt w str = '\x00' ∨ charAt w str ≠ charAt s (p + 1) then false
        else matchToken2 w s stop fuel (str + 1) (p + 2)
      | c => if charAt w str = '\x00' ∨ charAt w str ≠ c then false
        else matchToken2 w s stop fuel (str + 1) (p + 1)

def matchToken1Loop (w s : List Char) (t : Token) (t0 len : Nat) : Nat → Token → Option Bool
  | 0, _ => some false
  | fuel + 1, tmp =>
    if tmp.next - t0 < len then
      let (c, tmp) := getToken2 s tmp.next
      match tmp.start with
      | none => none
      | some st =>
        if matchToken2 w s tmp.end_ (s.length + 2) 0 st then some true
        else if c ≠ '|' then some false
        else matchToken1Loop w s t t0 len fuel tmp
    else some false

/-- `match_token (str, &t)` for the string `w`, `t` a token of `s`. -/
def matchToken (w s : List Char) (t : Token) : Option Bool :=
  match t.start with
  | none => none
  | some t0 => matchToken1Loop w s t t0 (t.end_ - t0) (s.length + 1) { t with next := t0 }

/-- The glob language of a pattern: `*` any string, `?` one character,
a backslash the next character literally, `"` the empty string, and every
other character itself. -/
inductive GlobMatches : List Char → List Char → Prop
  | nil : GlobMatches [] []
  | star (p u w : List Char) : GlobMatches p w → GlobMatches ('*' :: p) (u ++ w)
  | any (p : List Char) (c : Char) (w : List Char) : GlobMatches p w → GlobMatches ('?' :: p) (c :: w)
  | escape (p : List Char) (c : Char) (w : List Char) :
      GlobMatches p w → GlobMatches ('\\' :: c :: p) (c :: w)
  | quote (p w : List Char) : GlobMatches p w → GlobMatches ('"' :: p) w
  | lit (p : List Char) (c : Char) (w : List Char) : c ≠ '*' → c ≠ '?' → c ≠ '\\' → c ≠ '"' →
      GlobMatches p w → GlobMatches (c :: p) (c :: w)

def splitBars : Bool → Bool → List Char → List Char → List (List Char)
  | _, _, cur, [] => [cur]
  | q, true, cur, c :: cs => splitBars q false (cur ++ [c]) cs
  | q, false, cur, c :: cs =>
    if c = '\\' then splitBars q true (cur ++ [c]) cs
    else if c = '"' then splitBars (!q) false (cur ++ [c]) cs
    else if c = '|' ∧ !q then cur :: splitBars q false [] cs
    else splitBars q false (cur ++ [c]) cs

def alternatives (text : List Char) : List (List Char) :=
  (splitBars false false [] text).map fun a => ((a.dropWhile isblank).reverse.dropWhile isblank).reverse

/-- `abc`, a tab, then `|def`: `get_token2` skips blanks before a token but
ends it only before spaces, so the tab stays in the first pattern, which
then needs a tab after `abc`. The alternative `abc` matches the string
`abc`; `match_token` says it does not. -/
theorem matchToken_keeps_trailing_tab :
    (getToken "abc\t|def".toList 0).2.start = some 0 ∧
    "abc".toList ∈ alternatives "abc\t|def".toList ∧
    (∀ a ∈ alternatives "abc\t|def".toList, a ≠ []) ∧
    GlobMatches "abc".toList "abc".toList ∧
    matchToken "abc".toList "abc\t|def".toList (getToken "abc\t|def".toList 0).2 = some false := by
  simp only [String.reduceToList]
  refine ⟨by decide, by decide, by decide, ?_, by decide⟩
  exact .lit _ 'a' _ (by decide) (by decide) (by decide) (by decide) <|
    .lit _ 'b' _ (by decide) (by decide) (by decide) (by decide) <|
    .lit _ 'c' _ (by decide) (by decide) (by decide) (by decide) .nil

end Bitvisor.Core
