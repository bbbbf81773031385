import Mathlib

namespace Bitvisor.Se

/-! `SeB64Encode` and `SeB64Decode` of `Se/SeMemory.c`. Data is a list of
bytes and a string its characters before the NUL. The decoder holds the codes
in `char` variables, and whether `char` is signed depends on the target: it
is on x86, it is not on aarch64. `charSigned` says which. The work buffers
are taken to be as large as `set_size` asks, so the round trip assumes that
the sizes it computes in a `UINT`, `(len + 8) * 2` and the same of the
encoding, do not wrap. -/

/-- `SeB64CodeToChar`: the alphabet character of a six-bit code. -/
def seB64CodeToChar (c : UInt8) : Char :=
  Char.ofNat <|
    if c ≤ 0x19 then c.toNat + 'A'.toNat
    else if 0x1a ≤ c ∧ c ≤ 0x33 then c.toNat - 0x1a + 'a'.toNat
    else if 0x34 ≤ c ∧ c ≤ 0x3d then c.toNat - 0x34 + '0'.toNat
    else if c = 0x3e then '+'.toNat
    else if c = 0x3f then '/'.toNat
    else '='.toNat

/-- `SeB64CharToCode`: the bits of the `char` it returns, `0xFF` for the
`-1` of `'='`. -/
def seB64CharToCode (c : Char) : UInt8 :=
  if 'A' ≤ c ∧ c ≤ 'Z' then (c.toNat - 'A'.toNat).toUInt8
  else if 'a' ≤ c ∧ c ≤ 'z' then (c.toNat - 'a'.toNat + 0x1a).toUInt8
  else if '0' ≤ c ∧ c ≤ '9' then (c.toNat - '0'.toNat + 0x34).toUInt8
  else if c = '+' then 0x3e
  else if c = '/' then 0x3f
  else if c = '=' then 0xFF
  else 0

def charValue (charSigned : Bool) (b : UInt8) : Int :=
  if charSigned then b.toInt8.toInt else b.toNat

def seB64EncodeGroups : List UInt8 → List Char
  | [] => []
  | [a] => [seB64CodeToChar (a >>> 2), seB64CodeToChar ((a &&& 0x03) <<< 4), '=', '=']
  | [a, b] =>
    [seB64CodeToChar (a >>> 2), seB64CodeToChar (((a &&& 0x03) <<< 4) + (b >>> 4)),
      seB64CodeToChar ((b &&& 0x0f) <<< 2), '=']
  | a :: b :: d :: rest =>
    [seB64CodeToChar (a >>> 2), seB64CodeToChar (((a &&& 0x03) <<< 4) + (b >>> 4)),
      seB64CodeToChar (((b &&& 0x0f) <<< 2) + (d >>> 6)), seB64CodeToChar (d &&& 0x3f)] ++
      seB64EncodeGroups rest

/-- `SeB64Encode (source, len)`: `NULL` when `len` is 0. -/
def seB64Encode (src : List UInt8) : Option (List Char) :=
  if src.length = 0 then none else some (seB64EncodeGroups src)

def seB64DecodeGroup (charSigned : Bool) (c1 c2 c3 c4 : Char) : List UInt8 :=
  let a1 := charValue charSigned (seB64CharToCode c1)
  let a2 := charValue charSigned (seB64CharToCode c2)
  let a3 := charValue charSigned (seB64CharToCode c3)
  let a4 := charValue charSigned (seB64CharToCode c4)
  (if a1 ≠ -1 ∧ a2 ≠ -1 then [UInt8.ofInt (a1 * 4 + (a2 >>> (4 : Nat)))] else []) ++
    (if a2 ≠ -1 ∧ a3 ≠ -1 then [UInt8.ofInt (a2 * 16 + (a3 >>> (2 : Nat)))] else []) ++
    (if a3 ≠ -1 ∧ a4 ≠ -1 then [UInt8.ofInt (a3 * 64 + a4)] else [])

def seB64DecodeGroups (charSigned : Bool) : List Char → List UInt8
  | [] => []
  | [c1] => seB64DecodeGroup charSigned c1 '\x00' '\x00' '\x00'
  | [c1, c2] => seB64DecodeGroup charSigned c1 c2 '\x00' '\x00'
  | [c1, c2, c3] => seB64DecodeGroup charSigned c1 c2 c3 '\x00'
  | c1 :: c2 :: c3 :: c4 :: rest =>
    seB64DecodeGroup charSigned c1 c2 c3 c4 ++ seB64DecodeGroups charSigned rest

/-- `SeB64Decode (source)`: the `b->Size` bytes of the buffer it returns. -/
def seB64Decode (charSigned : Bool) (s : List Char) : List UInt8 :=
  seB64DecodeGroups charSigned s

/-- One byte encodes as `AA==`. With an unsigned `char` the `-1` of `'='`
reads as 255, both padding codes count as codes, and the group decodes to
three bytes. -/
theorem seB64Decode_unsigned_char_keeps_padding :
    (seB64Encode [0]).map (seB64Decode false) = some [0, 63, 191] := by
  decide

theorem charValue_code_nat (charSigned : Bool) :
    ∀ n : Nat, n < 64 → charValue charSigned (seB64CharToCode (seB64CodeToChar n.toUInt8)) = n := by
  cases charSigned <;> decide

theorem charValue_code (charSigned : Bool) (x : UInt8) (h : x.toNat < 64) :
    charValue charSigned (seB64CharToCode (seB64CodeToChar x)) = x.toNat := by
  have hx : x.toNat.toUInt8 = x := UInt8.ofNat_toNat
  have := charValue_code_nat charSigned x.toNat h
  rwa [hx] at this

theorem charValue_pad : charValue true (seB64CharToCode '=') = -1 := by decide

theorem ofInt_eq_of_emod {v : Int} {x : UInt8} (h : v % 256 = x.toNat) : UInt8.ofInt v = x := by
  apply UInt8.toNat_inj.mp
  have := x.toNat_lt
  simp only [UInt8.ofInt, UInt8.toNat_ofNat']
  omega

theorem and_three (x : UInt8) : (x &&& 0x03).toNat = x.toNat % 4 := by
  simp only [UInt8.toNat_and]
  exact Nat.and_two_pow_sub_one_eq_mod _ 2

theorem and_fifteen (x : UInt8) : (x &&& 0x0f).toNat = x.toNat % 16 := by
  simp only [UInt8.toNat_and]
  exact Nat.and_two_pow_sub_one_eq_mod _ 4

theorem and_sixtyThree (x : UInt8) : (x &&& 0x3f).toNat = x.toNat % 64 := by
  simp only [UInt8.toNat_and]
  exact Nat.and_two_pow_sub_one_eq_mod _ 6

theorem toNat_code1 (a : UInt8) : (a >>> 2).toNat = a.toNat / 4 := by
  simp [UInt8.toNat_shiftRight, Nat.shiftRight_eq_div_pow]

theorem toNat_code2 (a b : UInt8) :
    (((a &&& 0x03) <<< 4) + (b >>> 4)).toNat = a.toNat % 4 * 16 + b.toNat / 16 := by
  have := b.toNat_lt
  simp only [UInt8.toNat_add, UInt8.toNat_shiftLeft, UInt8.toNat_shiftRight, and_three,
    Nat.shiftLeft_eq, Nat.shiftRight_eq_div_pow]
  simp
  omega

theorem toNat_code3 (b d : UInt8) :
    (((b &&& 0x0f) <<< 2) + (d >>> 6)).toNat = b.toNat % 16 * 4 + d.toNat / 64 := by
  have := d.toNat_lt
  simp only [UInt8.toNat_add, UInt8.toNat_shiftLeft, UInt8.toNat_shiftRight, and_fifteen,
    Nat.shiftLeft_eq, Nat.shiftRight_eq_div_pow]
  simp
  omega

theorem toNat_tail1 (a : UInt8) : ((a &&& 0x03) <<< 4).toNat = a.toNat % 4 * 16 := by
  simp only [UInt8.toNat_shiftLeft, and_three, Nat.shiftLeft_eq]
  simp
  omega

theorem toNat_tail2 (b : UInt8) : ((b &&& 0x0f) <<< 2).toNat = b.toNat % 16 * 4 := by
  simp only [UInt8.toNat_shiftLeft, and_fifteen, Nat.shiftLeft_eq]
  simp
  omega

section Signed

variable {x1 x2 x3 x4 : UInt8} (h1 : x1.toNat < 64) (h2 : x2.toNat < 64)
include h1 h2

theorem seB64DecodeGroup_codes (h3 : x3.toNat < 64) (h4 : x4.toNat < 64) :
    seB64DecodeGroup true (seB64CodeToChar x1) (seB64CodeToChar x2) (seB64CodeToChar x3)
      (seB64CodeToChar x4) =
      [UInt8.ofInt (x1.toNat * 4 + x2.toNat / 16), UInt8.ofInt (x2.toNat * 16 + x3.toNat / 4),
        UInt8.ofInt (x3.toNat * 64 + x4.toNat)] := by
  simp only [seB64DecodeGroup, charValue_code true _ h1, charValue_code true _ h2,
    charValue_code true _ h3, charValue_code true _ h4, Int.shiftRight_eq_div_pow]
  rw [if_pos (by omega), if_pos (by omega), if_pos (by omega)]
  simp

theorem seB64DecodeGroup_codes_pad (h3 : x3.toNat < 64) :
    seB64DecodeGroup true (seB64CodeToChar x1) (seB64CodeToChar x2) (seB64CodeToChar x3) '=' =
      [UInt8.ofInt (x1.toNat * 4 + x2.toNat / 16), UInt8.ofInt (x2.toNat * 16 + x3.toNat / 4)] := by
  simp only [seB64DecodeGroup, charValue_code true _ h1, charValue_code true _ h2,
    charValue_code true _ h3, charValue_pad, Int.shiftRight_eq_div_pow]
  rw [if_pos (by omega), if_pos (by omega), if_neg (by omega)]
  simp

theorem seB64DecodeGroup_codes_pad_pad :
    seB64DecodeGroup true (seB64CodeToChar x1) (seB64CodeToChar x2) '=' '=' =
      [UInt8.ofInt (x1.toNat * 4 + x2.toNat / 16)] := by
  simp only [seB64DecodeGroup, charValue_code true _ h1, charValue_code true _ h2,
    charValue_pad, Int.shiftRight_eq_div_pow]
  rw [if_pos (by omega), if_neg (by omega), if_neg (by omega)]
  simp

end Signed

theorem seB64DecodeGroup_three (a b d : UInt8) :
    seB64DecodeGroup true (seB64CodeToChar (a >>> 2))
      (seB64CodeToChar (((a &&& 0x03) <<< 4) + (b >>> 4)))
      (seB64CodeToChar (((b &&& 0x0f) <<< 2) + (d >>> 6))) (seB64CodeToChar (d &&& 0x3f)) =
      [a, b, d] := by
  have ha := a.toNat_lt
  have hb := b.toNat_lt
  have hd := d.toNat_lt
  rw [seB64DecodeGroup_codes (by rw [toNat_code1]; omega) (by rw [toNat_code2]; omega)
    (by rw [toNat_code3]; omega) (by rw [and_sixtyThree]; omega)]
  simp only [toNat_code1, toNat_code2, toNat_code3, and_sixtyThree, List.cons.injEq, and_true]
  refine ⟨ofInt_eq_of_emod ?_, ofInt_eq_of_emod ?_, ofInt_eq_of_emod ?_⟩ <;> omega

theorem seB64DecodeGroup_two (a b : UInt8) :
    seB64DecodeGroup true (seB64CodeToChar (a >>> 2))
      (seB64CodeToChar (((a &&& 0x03) <<< 4) + (b >>> 4)))
      (seB64CodeToChar ((b &&& 0x0f) <<< 2)) '=' = [a, b] := by
  have ha := a.toNat_lt
  have hb := b.toNat_lt
  rw [seB64DecodeGroup_codes_pad (by rw [toNat_code1]; omega) (by rw [toNat_code2]; omega)
    (by rw [toNat_tail2]; omega)]
  simp only [toNat_code1, toNat_code2, toNat_tail2, List.cons.injEq, and_true]
  refine ⟨ofInt_eq_of_emod ?_, ofInt_eq_of_emod ?_⟩ <;> omega

theorem seB64DecodeGroup_one (a : UInt8) :
    seB64DecodeGroup true (seB64CodeToChar (a >>> 2)) (seB64CodeToChar ((a &&& 0x03) <<< 4))
      '=' '=' = [a] := by
  have ha := a.toNat_lt
  rw [seB64DecodeGroup_codes_pad_pad (by rw [toNat_code1]; omega) (by rw [toNat_tail1]; omega)]
  simp only [toNat_code1, toNat_tail1, List.cons.injEq, and_true]
  exact ofInt_eq_of_emod (by omega)

theorem seB64DecodeGroups_encodeGroups (src : List UInt8) :
    seB64DecodeGroups true (seB64EncodeGroups src) = src := by
  induction src using seB64EncodeGroups.induct with
  | case1 => rfl
  | case2 a =>
    simp only [seB64EncodeGroups, seB64DecodeGroups, List.append_nil]
    exact seB64DecodeGroup_one a
  | case3 a b =>
    simp only [seB64EncodeGroups, seB64DecodeGroups, List.append_nil]
    exact seB64DecodeGroup_two a b
  | case4 a b d rest ih =>
    simp only [seB64EncodeGroups, List.cons_append, List.nil_append, seB64DecodeGroups,
      seB64DecodeGroup_three, ih]

def b64Alphabet : List Char :=
  "ABCDEFGHIJKLMNOPQRSTUVWXYZabcdefghijklmnopqrstuvwxyz0123456789+/".toList

theorem b64Alphabet_eq : b64Alphabet = ['A', 'B', 'C', 'D', 'E', 'F', 'G', 'H', 'I', 'J', 'K',
    'L', 'M', 'N', 'O', 'P', 'Q', 'R', 'S', 'T', 'U', 'V', 'W', 'X', 'Y', 'Z', 'a', 'b', 'c', 'd',
    'e', 'f', 'g', 'h', 'i', 'j', 'k', 'l', 'm', 'n', 'o', 'p', 'q', 'r', 's', 't', 'u', 'v', 'w',
    'x', 'y', 'z', '0', '1', '2', '3', '4', '5', '6', '7', '8', '9', '+', '/'] := by
  unfold b64Alphabet
  simp only [String.reduceToList]

theorem seB64CodeToChar_table :
    (List.range 64).map (fun n => seB64CodeToChar n.toUInt8) = b64Alphabet := by
  rw [b64Alphabet_eq]
  decide

theorem seB64CodeToChar_mem {x : UInt8} (h : x.toNat < 64) : seB64CodeToChar x ∈ b64Alphabet := by
  rw [← seB64CodeToChar_table, List.mem_map]
  exact ⟨x.toNat, List.mem_range.mpr h, congrArg seB64CodeToChar UInt8.ofNat_toNat⟩

theorem seB64EncodeGroups_length (src : List UInt8) :
    (seB64EncodeGroups src).length = 4 * ((src.length + 2) / 3) := by
  induction src using seB64EncodeGroups.induct with
  | case1 => rfl
  | case2 a => simp [seB64EncodeGroups]
  | case3 a b => simp [seB64EncodeGroups]
  | case4 a b d rest ih =>
    simp only [seB64EncodeGroups, List.length_append, ih, List.length_cons, List.length_nil]
    omega

theorem seB64EncodeGroups_padded (src : List UInt8) :
    ∃ body, seB64EncodeGroups src = body ++ List.replicate ((3 - src.length % 3) % 3) '=' ∧
      ∀ c ∈ body, c ∈ b64Alphabet := by
  induction src using seB64EncodeGroups.induct with
  | case1 => exact ⟨[], rfl, by simp⟩
  | case2 a =>
    have ha := a.toNat_lt
    refine ⟨[seB64CodeToChar (a >>> 2), seB64CodeToChar ((a &&& 0x03) <<< 4)], rfl, ?_⟩
    simp only [List.mem_cons, List.not_mem_nil, or_false]
    rintro c (rfl | rfl)
    · exact seB64CodeToChar_mem (by rw [toNat_code1]; omega)
    · exact seB64CodeToChar_mem (by rw [toNat_tail1]; omega)
  | case3 a b =>
    have ha := a.toNat_lt
    have hb := b.toNat_lt
    refine ⟨[seB64CodeToChar (a >>> 2), seB64CodeToChar (((a &&& 0x03) <<< 4) + (b >>> 4)),
      seB64CodeToChar ((b &&& 0x0f) <<< 2)], rfl, ?_⟩
    simp only [List.mem_cons, List.not_mem_nil, or_false]
    rintro c (rfl | rfl | rfl)
    · exact seB64CodeToChar_mem (by rw [toNat_code1]; omega)
    · exact seB64CodeToChar_mem (by rw [toNat_code2]; omega)
    · exact seB64CodeToChar_mem (by rw [toNat_tail2]; omega)
  | case4 a b d rest ih =>
    obtain ⟨body, hbody, hmem⟩ := ih
    have ha := a.toNat_lt
    have hb := b.toNat_lt
    have hd := d.toNat_lt
    have hpad : (3 - (rest.length + 3) % 3) % 3 = (3 - rest.length % 3) % 3 := by omega
    refine ⟨[seB64CodeToChar (a >>> 2), seB64CodeToChar (((a &&& 0x03) <<< 4) + (b >>> 4)),
      seB64CodeToChar (((b &&& 0x0f) <<< 2) + (d >>> 6)), seB64CodeToChar (d &&& 0x3f)] ++ body,
      ?_, ?_⟩
    · simp only [seB64EncodeGroups, hbody, List.length_cons, hpad, List.append_assoc]
    · simp only [List.mem_append, List.mem_cons, List.not_mem_nil, or_false]
      rintro c ((rfl | rfl | rfl | rfl) | hc)
      · exact seB64CodeToChar_mem (by rw [toNat_code1]; omega)
      · exact seB64CodeToChar_mem (by rw [toNat_code2]; omega)
      · exact seB64CodeToChar_mem (by rw [toNat_code3]; omega)
      · exact seB64CodeToChar_mem (by rw [and_sixtyThree]; omega)
      · exact hmem c hc

set_option linter.unusedVariables false in
/-- With a signed `char` (x86) `SeB64Decode` gives back every non-empty
input of `SeB64Encode` whose two work buffers, `(len + 8) * 2` and
`(4 * ceil(len / 3) + 2) * 2` bytes, fit in a `UINT`; the output is
`4 * ceil(len / 3)` characters of the standard alphabet followed by `=`
padding. -/
theorem seB64Decode_seB64Encode_signed (src : List UInt8) (h : src ≠ [])
    (hsize : (src.length + 8) * 2 < 2 ^ 32 ∧ (4 * ((src.length + 2) / 3) + 2) * 2 < 2 ^ 32) :
    ∃ out, seB64Encode src = some out ∧ seB64Decode true out = src ∧
      out.length = 4 * ((src.length + 2) / 3) ∧
      ∃ body, out = body ++ List.replicate ((3 - src.length % 3) % 3) '=' ∧
        ∀ c ∈ body, c ∈ b64Alphabet := by
  have hlen : src.length ≠ 0 := by simpa using h
  refine ⟨seB64EncodeGroups src, by simp [seB64Encode, hlen], seB64DecodeGroups_encodeGroups src,
    seB64EncodeGroups_length src, seB64EncodeGroups_padded src⟩

theorem seB64Decode_seB64Encode_signed_byte :
    ([0x4d] : List UInt8) ≠ [] ∧
      ((([0x4d] : List UInt8).length + 8) * 2 < 2 ^ 32 ∧
        (4 * ((([0x4d] : List UInt8).length + 2) / 3) + 2) * 2 < 2 ^ 32) ∧
      ∃ out, seB64Encode [0x4d] = some out ∧ seB64Decode true out = [0x4d] ∧
        out.length = 4 * ((([0x4d] : List UInt8).length + 2) / 3) ∧
        ∃ body, out = body ++ List.replicate ((3 - ([0x4d] : List UInt8).length % 3) % 3) '=' ∧
          ∀ c ∈ body, c ∈ b64Alphabet :=
  ⟨by decide, by decide, seB64Decode_seB64Encode_signed [0x4d] (by decide) (by decide)⟩

end Bitvisor.Se
