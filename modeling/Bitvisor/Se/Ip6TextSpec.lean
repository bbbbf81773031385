import Bitvisor.Lib.Text
import Bitvisor.Se.Ip6Text

namespace Bitvisor.Se

open TextLib

/-! What `Se6IPToStr` and `Se6StrToIP` are for: RFC 5952's text of an
address, and reading that text back. -/

def colonJoin (ts : List (List Char)) : List Char := [':'].intercalate ts

def hexText (g : Nat) : List Char :=
  if g = 0 then ['0'] else ((Nat.digits 16 g).map Nat.digitChar).reverse

def SeIpv6Addr.groups (a : SeIpv6Addr) : List Nat := (List.range 8).map a.group

/-- `[s, s + L)` is the first of the longest runs of at least two zero
groups. -/
def FirstLongestZeroRun (a : SeIpv6Addr) (s L : Nat) : Prop :=
  2 ≤ L ∧ s + L ≤ 8 ∧ ZeroBlock a.group s L ∧
    ∀ s' L', s' + L' ≤ 8 → ZeroBlock a.group s' L' → L' < L ∨ (L' = L ∧ s ≤ s')

/-- RFC 5952's text of `a`: the groups joined by `:`, with the first longest
run of at least two zero groups written `::` if there is one. -/
def CanonicalText (a : SeIpv6Addr) (t : List Char) : Prop :=
  ((∀ s, s + 2 ≤ 8 → ¬ ZeroBlock a.group s 2) ∧ t = colonJoin (a.groups.map hexText)) ∨
  ∃ s L, FirstLongestZeroRun a s L ∧
    t = colonJoin ((a.groups.take s).map hexText) ++ [':', ':'] ++
      colonJoin ((a.groups.drop (s + L)).map hexText)

section Digit

variable {d : Nat}

theorem se4BitToHex_eq (h : d < 16) : se4BitToHex d = Nat.digitChar d := by
  interval_cases d <;> decide

theorem seToLower_digitChar (h : d < 16) : seToLower (Nat.digitChar d) = Nat.digitChar d := by
  interval_cases d <;> decide

theorem digitChar_plain (h : d < 16) :
    Nat.digitChar d ≠ ':' ∧ isBlank (Nat.digitChar d) = false ∧ isHexChar (Nat.digitChar d) = true := by
  interval_cases d <;> decide

theorem seToUpper_digitChar (h : d < 16) :
    (('0' ≤ seToUpper (Nat.digitChar d) ∧ seToUpper (Nat.digitChar d) ≤ '9') ∨
        ('A' ≤ seToUpper (Nat.digitChar d) ∧ seToUpper (Nat.digitChar d) ≤ 'F')) ∧
      isHexChar (seToUpper (Nat.digitChar d)) = true ∧
      seHexTo4Bit (seToUpper (Nat.digitChar d)) = d ∧
      seToUpper (Nat.digitChar d) ≠ 'x' ∧ seToUpper (Nat.digitChar d) ≠ 'X' := by
  interval_cases d <;> decide

end Digit

theorem seToHexLoop_digits (fuel : Nat) :
    ∀ value, 0 < value → value < 16 ^ fuel →
      seToHexLoop fuel value = (Nat.digits 16 value).map se4BitToHex := by
  induction fuel with
  | zero => intro value h0 h; simp at h; omega
  | succ fuel ih =>
    intro value h0 h
    rw [seToHexLoop, Nat.digits_def' (by norm_num) h0, List.map_cons]
    congr 1
    split
    · next hz => simp [hz]
    · next hz =>
      apply ih _ (by omega)
      rw [Nat.div_lt_iff_lt_mul (by norm_num), ← Nat.pow_succ]
      exact h

theorem seStrLower_seToHex {g : Nat} (hg : g < 65536) :
    seStrLower (seToHex g.toUInt32) = hexText g := by
  have hn : g.toUInt32.toNat = g := UInt32.toNat_ofNat_of_lt' (lt_of_lt_of_le hg (by decide))
  unfold seToHex hexText seStrLower
  rw [hn]
  split
  · next hz => subst hz; decide
  · next hz =>
    rw [seToHexLoop_digits 8 g (by omega) (by omega), List.map_reverse, List.map_map]
    congr 1
    apply List.map_congr_left
    intro d hd
    have hd16 : d < 16 := Nat.digits_lt_base (by norm_num) hd
    simp [se4BitToHex_eq hd16, seToLower_digitChar hd16]

theorem mem_hexText {g : Nat} {c : Char} (h : c ∈ hexText g) : ∃ d < 16, c = Nat.digitChar d := by
  unfold hexText at h
  split at h
  · simp only [List.mem_singleton] at h
    exact ⟨0, by norm_num, h⟩
  · simp only [List.mem_reverse, List.mem_map] at h
    obtain ⟨d, hd, rfl⟩ := h
    exact ⟨d, Nat.digits_lt_base (by norm_num) hd, rfl⟩

theorem hexText_ne_nil (g : Nat) : hexText g ≠ [] := by
  unfold hexText
  split
  · simp
  · next hz => simpa using Nat.digits_ne_nil_iff_ne_zero.mpr hz

theorem length_hexText_le {g : Nat} (hg : g < 65536) : (hexText g).length ≤ 4 := by
  unfold hexText
  split
  · simp
  · simpa using (Nat.digits_length_le_iff (by norm_num) g).mpr (by omega)

theorem pad_hexText {g : Nat} (hg : g < 65536) :
    List.replicate (4 - (hexText g).length) '0' ++ hexText g =
      ((Nat.digitsAppend 16 4 g).map Nat.digitChar).reverse := by
  unfold hexText Nat.digitsAppend
  split
  · next hz => subst hz; decide
  · simp [List.map_replicate, List.reverse_replicate]

theorem digitsAppend_four {g : Nat} (hg : g < 65536) :
    Nat.digitsAppend 16 4 g = [g % 16, g / 16 % 16, g / 16 / 16 % 16, g / 16 / 16 / 16 % 16] := by
  rw [digitsAppend_succ (by norm_num), digitsAppend_succ (by norm_num),
    digitsAppend_succ (by norm_num), digitsAppend_succ (by norm_num), digitsAppend_zero (by omega)]

theorem seHexToInt_pair {c0 c1 : Char} (hx : c1 ≠ 'x') (hX : c1 ≠ 'X') :
    seHexToInt [c0, c1] = seHexToIntLoop 0 [c0, c1] := by
  unfold seHexToInt
  split
  · next c rest heq =>
    simp only [List.cons.injEq] at heq
    obtain ⟨rfl, rfl, rfl⟩ := heq
    simp [hx, hX]
  · rfl

theorem toUInt8_hexPair (d e : Nat) :
    ((0 * 16 + d.toUInt32) * 16 + e.toUInt32 : UInt32).toUInt8 = (16 * d + e).toUInt8 := by
  apply UInt8.toNat_inj.mp
  simp
  omega

theorem seStrToBinLoop_pair {d e : Nat} (hd : d < 16) (he : e < 16) (rest : List Char) :
    seStrToBinLoop none (Nat.digitChar d :: Nat.digitChar e :: rest) =
      (16 * d + e).toUInt8 :: seStrToBinLoop none rest := by
  obtain ⟨hd1, hd2, hd3, -, -⟩ := seToUpper_digitChar hd
  obtain ⟨he1, he2, he3, hex, heX⟩ := seToUpper_digitChar he
  simp only [seStrToBinLoop, if_pos hd1, if_pos he1]
  rw [seHexToInt_pair hex heX]
  simp only [seHexToIntLoop, hd2, he2, hd3, he3, if_true]
  rw [toUInt8_hexPair]

theorem se6IPItemStrToChars_hexText {g : Nat} (hg : g < 65536) :
    se6IPItemStrToChars (hexText g) = ((g / 256).toUInt8, (g % 256).toUInt8) := by
  have hpad := pad_hexText hg
  rw [digitsAppend_four hg] at hpad
  unfold se6IPItemStrToChars seStrToBin
  rw [if_pos (length_hexText_le hg), hpad]
  simp only [List.map_cons, List.map_nil, List.reverse_cons, List.reverse_nil, List.nil_append,
    List.cons_append]
  rw [seStrToBinLoop_pair (Nat.mod_lt _ (by norm_num)) (Nat.mod_lt _ (by norm_num)),
    seStrToBinLoop_pair (Nat.mod_lt _ (by norm_num)) (Nat.mod_lt _ (by norm_num))]
  simp only [List.getD_cons_zero, List.getD_cons_succ, Prod.mk.injEq]
  constructor <;> congr 1 <;> omega

theorem se6CheckIPItemStr_hexText {g : Nat} (hg : g < 65536) :
    se6CheckIPItemStr (hexText g) = true := by
  have hlen := length_hexText_le hg
  simp only [se6CheckIPItemStr, Bool.and_eq_true, decide_eq_true_eq, List.all_eq_true]
  refine ⟨by omega, fun c hc => ?_⟩
  obtain ⟨d, hd, rfl⟩ := mem_hexText hc
  exact (digitChar_plain hd).2.2

/-- `z` starts the run of zeros that ends at index `i - 1`. -/
def OpenRun (v : Nat → Nat) (i z : Nat) : Prop :=
  z < i ∧ ZeroBlock v z (i - z) ∧ (z = 0 ∨ v (z - 1) ≠ 0)

def BestRun (v : Nat → Nat) (c : Nat) : Option Nat → Nat → Prop
  | none, len => len = 0 ∧ ∀ s L, s + L ≤ c → ZeroBlock v s L → L < 2
  | some s, len => 2 ≤ len ∧ s + len ≤ c ∧ ZeroBlock v s len ∧
      ∀ s' L', s' + L' ≤ c → ZeroBlock v s' L' → L' < len ∨ (L' = len ∧ s ≤ s')

structure ScanInv (v : Nat → Nat) (i : Nat) (r : ZeroRun) : Prop where
  open_run : ∀ z, r.zeroStartedIndex = some z → OpenRun v i z
  closed : r.zeroStartedIndex = none → i = 0 ∨ v (i - 1) ≠ 0
  best : BestRun v (r.zeroStartedIndex.getD i) r.maxZeroStart r.maxZeroLen

section Scan

variable {v : Nat → Nat} {i z : Nat} {st : Option Nat} {len : Nat}

theorem block_le_of_nonzero {s L : Nat} (hz : ZeroBlock v s L) (hsL : s + L ≤ i + 1)
    (hv : v i ≠ 0) : L = 0 ∨ s + L ≤ i := by
  rcases hz.avoid hv with h | h
  · exact .inr h
  · left; omega

theorem block_cases_of_open {s L : Nat} (ho : OpenRun v i z) (hv : v i ≠ 0)
    (hz : ZeroBlock v s L) (hsL : s + L ≤ i + 1) :
    L = 0 ∨ s + L ≤ z ∨ (z ≤ s ∧ s + L ≤ i) := by
  rcases block_le_of_nonzero hz hsL hv with h | h
  · exact .inl h
  rcases ho.2.2 with hz0 | hprev
  · right; right; omega
  · rcases hz.avoid hprev with h' | h'
    · right; left; omega
    · right; right; omega

theorem BestRun.le {c s L : Nat} (hb : BestRun v c st len) (hsL : s + L ≤ c)
    (hz : ZeroBlock v s L) : L < 2 ∨ L ≤ len := by
  cases st with
  | none => exact .inl (hb.2 s L hsL hz)
  | some s₀ =>
    rcases hb.2.2.2 s L hsL hz with h | h
    · right; omega
    · right; omega

theorem BestRun.of_nonzero (hb : BestRun v i st len) (hv : v i ≠ 0) :
    BestRun v (i + 1) st len := by
  cases st with
  | none =>
    refine ⟨hb.1, fun s L hsL hz => ?_⟩
    rcases block_le_of_nonzero hz hsL hv with h | h
    · omega
    · exact hb.2 s L h hz
  | some s =>
    obtain ⟨h2, hle, hz, hall⟩ := hb
    refine ⟨h2, by omega, hz, fun s' L' hsL hz' => ?_⟩
    rcases block_le_of_nonzero hz' hsL hv with h | h
    · left; omega
    · exact hall s' L' h hz'

theorem BestRun.close_longer (hb : BestRun v z st len) (ho : OpenRun v i z) (hv : v i ≠ 0)
    (h2 : 2 ≤ i - z) (hlt : len < i - z) : BestRun v (i + 1) (some z) (i - z) := by
  refine ⟨h2, by omega, ho.2.1, fun s' L' hsL hz' => ?_⟩
  rcases block_cases_of_open ho hv hz' hsL with h | h | ⟨hs, h⟩
  · left; omega
  · left
    rcases hb.le h hz' with h' | h' <;> omega
  · by_cases hL : L' < i - z
    · exact .inl hL
    · exact .inr ⟨by omega, hs⟩

theorem BestRun.close_not_longer (hb : BestRun v z st len) (ho : OpenRun v i z) (hv : v i ≠ 0)
    (hn : ¬(2 ≤ i - z ∧ len < i - z)) : BestRun v (i + 1) st len := by
  cases st with
  | none =>
    refine ⟨hb.1, fun s L hsL hz => ?_⟩
    rcases block_cases_of_open ho hv hz hsL with h | h | ⟨hs, h⟩
    · omega
    · exact hb.2 s L h hz
    · have := hb.1; omega
  | some s =>
    obtain ⟨h2, hle, hz, hall⟩ := hb
    refine ⟨h2, by have := ho.1; omega, hz, fun s' L' hsL hz' => ?_⟩
    rcases block_cases_of_open ho hv hz' hsL with h | h | ⟨hs, h⟩
    · left; omega
    · exact hall s' L' h hz'
    · by_cases hL : L' < len
      · exact .inl hL
      · exact .inr ⟨by omega, by omega⟩

theorem scanInv_init : ScanInv v 0 ⟨none, 0, none⟩ :=
  ⟨(fun _ h => nomatch h), fun _ => .inl rfl, rfl, fun _ L hsL _ => by simp at hsL; omega⟩

theorem ScanInv.step {r : ZeroRun} (h : ScanInv v i r) :
    ScanInv v (i + 1) (zeroRunStep r i (v i)) := by
  unfold zeroRunStep
  by_cases hv : v i = 0
  · rw [if_pos hv]
    cases hz : r.zeroStartedIndex with
    | none =>
      rw [if_pos rfl]
      refine ⟨fun z hz' => ?_, (fun h' => nomatch h'), by simpa [hz] using h.best⟩
      cases hz'
      refine ⟨by omega, fun j hj hj' => by rwa [show j = i by omega], ?_⟩
      rcases h.closed hz with h0 | h0
      · exact .inl h0
      · exact .inr h0
    | some z₀ =>
      rw [if_neg (by simp)]
      refine ⟨fun z hz' => ?_, fun h' => by simp [hz] at h', by simpa [hz] using h.best⟩
      rw [hz] at hz'
      cases hz'
      obtain ⟨hlt, hblock, hstart⟩ := h.open_run z₀ hz
      have hext := hblock.snoc (by rwa [show z₀ + (i - z₀) = i by omega])
      exact ⟨by omega, by rwa [show i + 1 - z₀ = i - z₀ + 1 by omega], hstart⟩
  · rw [if_neg hv]
    cases hz : r.zeroStartedIndex with
    | none =>
      refine ⟨fun z hz' => by simp [hz] at hz', fun _ => .inr hv, ?_⟩
      simpa [hz] using (show BestRun v i r.maxZeroStart r.maxZeroLen by simpa [hz] using h.best).of_nonzero hv
    | some z₀ =>
      have ho := h.open_run z₀ hz
      have hb : BestRun v z₀ r.maxZeroStart r.maxZeroLen := by simpa [hz] using h.best
      dsimp only
      split
      · next hlong =>
        exact ⟨(fun _ h' => nomatch h'), fun _ => .inr hv, hb.close_longer ho hv hlong.1 hlong.2⟩
      · next hlong =>
        exact ⟨(fun _ h' => nomatch h'), fun _ => .inr hv, hb.close_not_longer ho hv hlong⟩

theorem scanInv_foldl (n : Nat) :
    ScanInv v n ((List.range n).foldl (fun r i => zeroRunStep r i (v i)) ⟨none, 0, none⟩) := by
  induction n with
  | zero => exact scanInv_init
  | succ n ih =>
    rw [List.range_succ, List.foldl_append, List.foldl_cons, List.foldl_nil]
    exact ih.step

end Scan

theorem group_lt (a : SeIpv6Addr) (j : Nat) : a.group j < 65536 := by
  have h1 := (byteAt a.value (2 * j)).toNat_lt
  have h2 := (byteAt a.value (2 * j + 1)).toNat_lt
  simp only [SeIpv6Addr.group, be16]
  omega

theorem getD_map_group (a : SeIpv6Addr) {j : Nat} (hj : j < 8) :
    ((List.range 8).map a.group).getD j 0 = a.group j := by
  simp [List.getD_eq_getElem?_getD, hj]

/-- What the search of `Se6IPToStr` records: no run, when no two neighbouring
groups are zero, or the first longest run. -/
theorem zeroRunScan_spec (a : SeIpv6Addr) :
    ((zeroRunScan ((List.range 8).map a.group)).maxZeroStart = none ∧
        ∀ s, s + 2 ≤ 8 → ¬ ZeroBlock a.group s 2) ∨
      ∃ s, (zeroRunScan ((List.range 8).map a.group)).maxZeroStart = some s ∧
        FirstLongestZeroRun a s (zeroRunScan ((List.range 8).map a.group)).maxZeroLen := by
  let v : Nat → Nat := fun i => if i ≠ 8 then ((List.range 8).map a.group).getD i 0 else 1
  have hinv : ScanInv v 9 (zeroRunScan ((List.range 8).map a.group)) := scanInv_foldl 9
  have hv8 : v 8 ≠ 0 := by simp [v]
  have hvg : ∀ j, j < 8 → v j = a.group j := fun j hj => by
    simp only [v, if_pos (show j ≠ 8 by omega)]
    exact getD_map_group a hj
  have hto : ∀ s L, s + L ≤ 8 → ZeroBlock a.group s L → ZeroBlock v s L := fun s L hsL hz =>
    hz.congr fun j hj => (hvg j (by omega)).symm
  have hnone : (zeroRunScan ((List.range 8).map a.group)).zeroStartedIndex = none := by
    cases hz : (zeroRunScan ((List.range 8).map a.group)).zeroStartedIndex with
    | none => rfl
    | some z =>
      obtain ⟨hz9, hblock, -⟩ := hinv.open_run z hz
      exact absurd (hblock 8 (by omega) (by omega)) hv8
  have hbest := hinv.best
  rw [hnone] at hbest
  cases hs : (zeroRunScan ((List.range 8).map a.group)).maxZeroStart with
  | none =>
    rw [hs] at hbest
    refine .inl ⟨rfl, fun s hs2 hz => ?_⟩
    have := hbest.2 s 2 (by simp; omega) (hto s 2 hs2 hz)
    omega
  | some s =>
    rw [hs] at hbest
    obtain ⟨h2, hle, hblock, hall⟩ := hbest
    have hle8 : s + (zeroRunScan ((List.range 8).map a.group)).maxZeroLen ≤ 8 := by
      rcases hblock.avoid hv8 with h | h
      · exact h
      · simp at hle; omega
    refine .inr ⟨s, rfl, h2, hle8, hblock.congr fun j hj => hvg j (by omega), ?_⟩
    intro s' L' hsL hz
    exact hall s' L' (by simp; omega) (hto s' L' hsL hz)

def groupPiece (values : List Nat) (i : Nat) : List Char :=
  seStrLower (seToHex (values.getD i 0).toUInt32)

theorem colonJoin_cons {t : List Char} {ts : List (List Char)} (h : ts ≠ []) :
    colonJoin (t :: ts) = t ++ ':' :: colonJoin ts := by
  simp [colonJoin, List.intercalate_cons_of_ne_nil h]

section Format

variable (values : List Nat) (ml : Nat)

theorem ipToStrLoop_group {ms : Option Nat} {fuel i : Nat} (hi : i < 8) (hms : ms ≠ some i) :
    ipToStrLoop values ms ml (fuel + 1) i =
      groupPiece values i ++ (if i ≠ 7 then [':'] else []) ++ ipToStrLoop values ms ml fuel (i + 1) := by
  rw [ipToStrLoop, if_pos hi, if_neg hms]
  rfl

theorem ipToStrLoop_run {fuel i : Nat} (hi : i < 8) :
    ipToStrLoop values (some i) ml (fuel + 1) i =
      (if i = 0 then [':', ':'] else [':']) ++
        ipToStrLoop values (some i) ml fuel (i + (ml - 1) + 1) := by
  rw [ipToStrLoop, if_pos hi, if_pos rfl]

theorem ipToStrLoop_end {ms : Option Nat} (fuel : Nat) : ipToStrLoop values ms ml fuel 8 = [] := by
  cases fuel <;> simp [ipToStrLoop]

theorem ipToStrLoop_tail {ms : Option Nat} (fuel : Nat) :
    ∀ i, i ≤ 8 → 8 - i ≤ fuel → (∀ j, i ≤ j → ms ≠ some j) →
      ipToStrLoop values ms ml fuel i = colonJoin ((List.range' i (8 - i)).map (groupPiece values)) := by
  induction fuel with
  | zero =>
    intro i hi hf _
    rw [show i = 8 by omega, ipToStrLoop_end]
    rfl
  | succ fuel ih =>
    intro i hi hf hms
    rcases Nat.lt_or_ge i 8 with hi8 | hi8
    · rw [ipToStrLoop_group values ml hi8 (hms i le_rfl),
        ih (i + 1) (by omega) (by omega) (fun j hj => hms j (by omega)),
        show 8 - i = 8 - (i + 1) + 1 by omega, List.range'_succ, List.map_cons]
      by_cases h7 : i = 7
      · subst h7
        simp [colonJoin]
      · rw [if_pos h7, colonJoin_cons (by simp; omega)]
        simp
    · rw [show i = 8 by omega, ipToStrLoop_end]
      rfl

theorem ipToStrLoop_before {s : Nat} (h2 : 2 ≤ ml) (hsL : s + ml ≤ 8) (fuel : Nat) :
    ∀ i, i < s → 8 - i ≤ fuel →
      ipToStrLoop values (some s) ml fuel i =
        colonJoin ((List.range' i (s - i)).map (groupPiece values)) ++ [':', ':'] ++
          colonJoin ((List.range' (s + ml) (8 - (s + ml))).map (groupPiece values)) := by
  induction fuel with
  | zero => intro i hi hf; omega
  | succ fuel ih =>
    intro i hi hf
    rw [ipToStrLoop_group values ml (by omega) (by simp; omega), if_pos (by omega)]
    rcases Nat.lt_or_ge (i + 1) s with hs | hs
    · rw [ih (i + 1) hs (by omega), show s - i = s - (i + 1) + 1 by omega, List.range'_succ,
        List.map_cons, colonJoin_cons (by simp; omega)]
      simp
    · obtain ⟨fuel', rfl⟩ : ∃ f, fuel = f + 1 := ⟨fuel - 1, by omega⟩
      rw [show i + 1 = s by omega, ipToStrLoop_run values ml (by omega), if_neg (by omega),
        ipToStrLoop_tail values ml fuel' (s + (ml - 1) + 1) (by omega) (by omega)
          (by intro j hj; simp; omega),
        show s + (ml - 1) + 1 = s + ml by omega, show s - i = 1 by omega]
      simp [colonJoin]

theorem ipToStrLoop_none :
    ipToStrLoop values none ml 8 0 = colonJoin ((List.range' 0 8).map (groupPiece values)) :=
  ipToStrLoop_tail values ml 8 0 (by omega) (by omega) (by simp)

theorem ipToStrLoop_some {s : Nat} (h2 : 2 ≤ ml) (hsL : s + ml ≤ 8) :
    ipToStrLoop values (some s) ml 8 0 =
      colonJoin ((List.range' 0 s).map (groupPiece values)) ++ [':', ':'] ++
        colonJoin ((List.range' (s + ml) (8 - (s + ml))).map (groupPiece values)) := by
  rcases Nat.eq_zero_or_pos s with rfl | hs
  · rw [ipToStrLoop_run values ml (by omega), if_pos rfl,
      ipToStrLoop_tail values ml 7 _ (by omega) (by omega) (by intro j hj; simp; omega),
      show 0 + (ml - 1) + 1 = 0 + ml by omega]
    simp [colonJoin]
  · simpa using ipToStrLoop_before values ml h2 hsL 8 0 hs (by omega)

end Format

theorem map_groupPiece (a : SeIpv6Addr) {i n : Nat} (h : i + n ≤ 8) :
    (List.range' i n).map (groupPiece ((List.range 8).map a.group)) =
      (List.range' i n).map (hexText ∘ a.group) := by
  apply List.map_congr_left
  intro j hj
  obtain ⟨k, hk, rfl⟩ := List.mem_range'.mp hj
  rw [Function.comp_apply, groupPiece, getD_map_group a (by omega),
    seStrLower_seToHex (group_lt a _)]

/-- `Se6IPToStr` writes all eight groups when no two neighbouring groups are
zero, and writes the first longest run as `::` otherwise. -/
theorem se6IPToStr_text (a : SeIpv6Addr) :
    ((∀ s, s + 2 ≤ 8 → ¬ ZeroBlock a.group s 2) ∧
        se6IPToStr a = colonJoin ((List.range' 0 8).map (hexText ∘ a.group))) ∨
      ∃ s L, FirstLongestZeroRun a s L ∧
        se6IPToStr a = colonJoin ((List.range' 0 s).map (hexText ∘ a.group)) ++ [':', ':'] ++
          colonJoin ((List.range' (s + L) (8 - (s + L))).map (hexText ∘ a.group)) := by
  rcases zeroRunScan_spec a with ⟨hnone, hno⟩ | ⟨s, hs, hrun⟩
  · refine .inl ⟨hno, ?_⟩
    rw [se6IPToStr, hnone, ipToStrLoop_none, map_groupPiece a (by omega)]
  · refine .inr ⟨s, _, hrun, ?_⟩
    obtain ⟨h2, hsL, -, -⟩ := hrun
    rw [se6IPToStr, hs, ipToStrLoop_some _ _ h2 hsL, map_groupPiece a (by omega),
      map_groupPiece a (by omega)]

theorem groups_take (a : SeIpv6Addr) {s : Nat} (h : s ≤ 8) :
    a.groups.take s = (List.range' 0 s).map a.group := by
  rw [SeIpv6Addr.groups, ← List.map_take, List.take_range, List.range_eq_range', Nat.min_eq_left h]

theorem groups_drop (a : SeIpv6Addr) (s : Nat) :
    a.groups.drop s = (List.range' s (8 - s)).map a.group := by
  rw [SeIpv6Addr.groups, ← List.map_drop, List.range_eq_range', List.drop_range']
  simp

theorem canonicalText_se6IPToStr (a : SeIpv6Addr) : CanonicalText a (se6IPToStr a) := by
  rcases se6IPToStr_text a with ⟨hno, ht⟩ | ⟨s, L, hrun, ht⟩
  · refine .inl ⟨hno, ?_⟩
    rw [ht, SeIpv6Addr.groups, List.range_eq_range', List.map_map]
  · refine .inr ⟨s, L, hrun, ?_⟩
    rw [ht, groups_take a (by have := hrun.2.1; omega), groups_drop, List.map_map, List.map_map]

example : se6IPToStr ⟨[0x20, 0x01, 0x0d, 0xb8, 0, 0, 0, 0, 0, 1, 0, 0, 0, 0, 0, 1], rfl⟩ =
    "2001:db8::1:0:0:1".toList := by
  decide

end Bitvisor.Se
