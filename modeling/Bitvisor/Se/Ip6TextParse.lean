import Mathlib.Data.List.GetD
import Bitvisor.Se.Ip6TextSpec

namespace Bitvisor.Se

open TextLib

/-! `Se6StrToIP` reads back every text that `Se6IPToStr` writes. -/

theorem seParseTokenWithNullStrLoop_eq (str : List Char) :
    ∀ b, seParseTokenWithNullStrLoop [':'] b str = (str.splitOn ':').modifyHead (b ++ ·) := by
  induction str with
  | nil => intro b; simp [seParseTokenWithNullStrLoop, List.splitOn]
  | cons c cs ih =>
    intro b
    by_cases hc : c = ':'
    · subst hc
      simp [seParseTokenWithNullStrLoop, List.splitOn, List.splitOnP_cons_eq_if_modifyHead, ih,
        modifyHead_self]
    · rw [seParseTokenWithNullStrLoop, if_neg (by simpa using hc), ih]
      simp [List.splitOn, List.splitOnP_cons_eq_if_modifyHead, hc, List.modifyHead_modifyHead,
        Function.comp_def]

theorem seParseTokenWithNullStr_colonJoin {ts : List (List Char)} (hne : ts ≠ [])
    (hc : ∀ t ∈ ts, ':' ∉ t) : seParseTokenWithNullStr (colonJoin ts) [':'] = ts := by
  rw [seParseTokenWithNullStr, seParseTokenWithNullStrLoop_eq, colonJoin,
    List.splitOn_intercalate ':' hc hne]
  simpa using modifyHead_self ts

theorem seTrim_of_plain {str : List Char} (h : ∀ c ∈ str, isBlank c = false) : seTrim str = str := by
  have hl : seTrimLeft str = str := by
    cases str with
    | nil => rfl
    | cons c cs => simp [seTrimLeft, h c (by simp)]
  have hr : seTrimRight str = str := by
    unfold seTrimRight
    cases hlast : str.getLast? with
    | none => exact (List.getLast?_eq_none_iff.mp hlast).symm
    | some c => simp [h c (List.mem_of_getLast? hlast)]
  rw [seTrim, hl, hr]

def Filled (orig : SeIpv6Addr) (k : Nat) (a : SeIpv6Addr) : Prop :=
  ∀ j, a.value.getD j 0 = if j < k then orig.value.getD j 0 else 0

theorem SeIpv6Addr.ext_getD {a b : SeIpv6Addr} (h : ∀ j, a.value.getD j 0 = b.value.getD j 0) :
    a = b := by
  obtain ⟨va, ha⟩ := a
  obtain ⟨vb, hb⟩ := b
  congr
  apply List.ext_getElem (by rw [ha, hb])
  intro j h1 h2
  have hj := h j
  simp only [List.getD_eq_getElem?_getD, List.getElem?_eq_getElem h1, List.getElem?_eq_getElem h2,
    Option.getD_some] at hj
  exact hj

theorem getD_set (a : SeIpv6Addr) {k : Nat} (c : UInt8) (hk : k < 16) (j : Nat) :
    (a.set k c).value.getD j 0 = if j = k then c else a.value.getD j 0 := by
  simp only [SeIpv6Addr.set, List.getD_eq_getElem?_getD, List.getElem?_set, a.length_value]
  by_cases hj : j = k
  · subst hj
    simp [hk]
  · simp [hj, Ne.symm hj]

theorem filled_zero (orig : SeIpv6Addr) : Filled orig 0 se6ZeroIP := by
  intro j
  rw [if_neg (Nat.not_lt_zero j)]
  by_cases hj : j < 16
  · exact List.getD_replicate 0 hj
  · exact List.getD_eq_default _ 0 (by simp [se6ZeroIP]; omega)

theorem Filled.set {orig a : SeIpv6Addr} {k : Nat} (hf : Filled orig k a) (hk : k < 16) :
    Filled orig (k + 1) (a.set k (orig.value.getD k 0)) := by
  intro j
  rw [getD_set a _ hk, hf j]
  by_cases hj : j = k
  · simp [hj]
  · by_cases hjk : j < k
    · simp [hj, hjk, show j < k + 1 by omega]
    · simp [hj, hjk, show ¬j < k + 1 by omega]

theorem Filled.group {orig a : SeIpv6Addr} {j : Nat} (hf : Filled orig (2 * j) a) (hj : j < 8) :
    Filled orig (2 * (j + 1))
      ((a.set (2 * j) (orig.value.getD (2 * j) 0)).set (2 * j + 1) (orig.value.getD (2 * j + 1) 0)) := by
  have h := (hf.set (by omega)).set (by omega)
  rwa [show 2 * j + 1 + 1 = 2 * (j + 1) by omega] at h

theorem Filled.skip {orig a : SeIpv6Addr} {k k' : Nat} (hf : Filled orig k a) (hkk : k ≤ k')
    (hz : ∀ j, k ≤ j → j < k' → orig.value.getD j 0 = 0) : Filled orig k' a := by
  intro j
  rw [hf j]
  by_cases hj : j < k
  · simp [hj, show j < k' by omega]
  · by_cases hj' : j < k'
    · rw [if_neg hj, if_pos hj', hz j (by omega) hj']
    · simp [hj, hj']

theorem Filled.eq {orig a : SeIpv6Addr} (hf : Filled orig 16 a) : a = orig := by
  apply SeIpv6Addr.ext_getD
  intro j
  rw [hf j]
  split
  · rfl
  · next hj => exact (List.getD_eq_default _ 0 (by rw [orig.length_value]; omega)).symm

theorem toUInt8_group_div (a : SeIpv6Addr) (j : Nat) :
    (a.group j / 256).toUInt8 = a.value.getD (2 * j) 0 := by
  have h2 := (a.value.getD (2 * j + 1) 0).toNat_lt
  simp only [SeIpv6Addr.group, be16, byteAt]
  rw [show ((a.value.getD (2 * j) 0).toNat * 256 + (a.value.getD (2 * j + 1) 0).toNat) / 256 =
    (a.value.getD (2 * j) 0).toNat by omega]
  simp

theorem toUInt8_group_mod (a : SeIpv6Addr) (j : Nat) :
    (a.group j % 256).toUInt8 = a.value.getD (2 * j + 1) 0 := by
  have h2 := (a.value.getD (2 * j + 1) 0).toNat_lt
  simp only [SeIpv6Addr.group, be16, byteAt]
  rw [show ((a.value.getD (2 * j) 0).toNat * 256 + (a.value.getD (2 * j + 1) 0).toNat) % 256 =
    (a.value.getD (2 * j + 1) 0).toNat by omega]
  simp

theorem getD_zero_of_block {a : SeIpv6Addr} {s L : Nat} (hz : ZeroBlock a.group s L) :
    ∀ b, 2 * s ≤ b → b < 2 * (s + L) → a.value.getD b 0 = 0 := by
  intro b hb hb'
  have hg := hz (b / 2) (by omega) (by omega)
  rcases Nat.mod_two_eq_zero_or_one b with h | h
  · rw [show b = 2 * (b / 2) by omega, ← toUInt8_group_div, hg]
    rfl
  · rw [show b = 2 * (b / 2) + 1 by omega, ← toUInt8_group_mod, hg]
    rfl

section Loop

-- `N` is `NumTokens` and `R` the tokens after the ones a lemma reads.
variable {N i n k : Nat} {R : List (List Char)} {a : SeIpv6Addr}

theorem se6StrToIPLoop_item {str : List Char} (hgap : str ≠ [] ∨ i = 0 ∨ i = N - 1)
    (hc : se6CheckIPItemStr str = true) :
    se6StrToIPLoop N (str :: R) i n k a =
      se6StrToIPLoop N R (i + 1) n (k + 2)
        ((a.set k (se6IPItemStrToChars str).1).set (k + 1) (se6IPItemStrToChars str).2) := by
  have hnot : ¬(i ≠ 0 ∧ i ≠ N - 1 ∧ str.length = 0) := by
    rintro ⟨h0, hl, hs⟩
    rcases hgap with h | h | h
    · exact h (List.eq_nil_of_length_eq_zero hs)
    · exact h0 h
    · exact hl h
  rw [se6StrToIPLoop, if_neg hnot, if_pos hc]

theorem se6StrToIPLoop_gap (hi : i ≠ 0) (hl : i ≠ N - 1) :
    se6StrToIPLoop N ([] :: R) i 0 k a =
      se6StrToIPLoop N R (i + 1) 1 (k + 2 * (8 - N + 1)) a := by
  rw [se6StrToIPLoop, if_pos ⟨hi, hl, rfl⟩, if_pos rfl]

theorem se6StrToIPLoop_groups (orig : SeIpv6Addr) (m : Nat) :
    ∀ i j a, j + m ≤ 8 → Filled orig (2 * j) a →
      ∃ a', Filled orig (2 * (j + m)) a' ∧
        se6StrToIPLoop N ((List.range' j m).map (hexText ∘ orig.group) ++ R) i n (2 * j) a =
          se6StrToIPLoop N R (i + m) n (2 * (j + m)) a' := by
  induction m with
  | zero => intro i j a _ hf; exact ⟨a, hf, by simp⟩
  | succ m ih =>
    intro i j a hjm hf
    have hg := group_lt orig j
    obtain ⟨a', hf', heq⟩ := ih (i + 1) (j + 1) _ (by omega) (hf.group (by omega))
    refine ⟨a', by rwa [show j + 1 + m = j + (m + 1) by omega] at hf', ?_⟩
    rw [List.range'_succ, List.map_cons, List.cons_append, Function.comp_apply,
      se6StrToIPLoop_item (.inl (hexText_ne_nil _)) (se6CheckIPItemStr_hexText hg),
      se6IPItemStrToChars_hexText hg, toUInt8_group_div, toUInt8_group_mod,
      show 2 * j + 2 = 2 * (j + 1) by omega, heq, show i + 1 + m = i + (m + 1) by omega,
      show j + 1 + m = j + (m + 1) by omega]

theorem se6StrToIPLoop_zeroGroup {orig : SeIpv6Addr} {j : Nat} (hpos : i = 0 ∨ i = N - 1)
    (hz : orig.group j = 0) (hj : j < 8) (hf : Filled orig (2 * j) a) :
    ∃ a', Filled orig (2 * (j + 1)) a' ∧
      se6StrToIPLoop N ([] :: R) i n (2 * j) a =
        se6StrToIPLoop N R (i + 1) n (2 * (j + 1)) a' := by
  have h0 : se6IPItemStrToChars [] = (orig.value.getD (2 * j) 0, orig.value.getD (2 * j + 1) 0) := by
    rw [← toUInt8_group_div, ← toUInt8_group_mod, hz]
    decide
  refine ⟨_, hf.group hj, ?_⟩
  rw [se6StrToIPLoop_item (.inr hpos) (by decide), h0, show 2 * j + 2 = 2 * (j + 1) by omega]

end Loop

def tokensBefore (a : SeIpv6Addr) (s : Nat) : List (List Char) :=
  if s = 0 then [[]] else (List.range' 0 s).map (hexText ∘ a.group)

def tokensAfter (a : SeIpv6Addr) (e : Nat) : List (List Char) :=
  if e = 8 then [[]] else (List.range' e (8 - e)).map (hexText ∘ a.group)

def elidedTokens (a : SeIpv6Addr) (s L : Nat) : List (List Char) :=
  tokensBefore a s ++ [] :: tokensAfter a (s + L)

def PlainToken (t : List Char) : Prop :=
  t.length ≤ 4 ∧ ∀ c ∈ t, c ≠ ':' ∧ isBlank c = false

theorem plainToken_hexText (g : Nat) (hg : g < 65536) : PlainToken (hexText g) := by
  refine ⟨length_hexText_le hg, fun c hc => ?_⟩
  obtain ⟨d, hd, rfl⟩ := mem_hexText hc
  exact ⟨(digitChar_plain hd).1, (digitChar_plain hd).2.1⟩

theorem plainToken_groups (a : SeIpv6Addr) (j m : Nat) :
    ∀ t ∈ (List.range' j m).map (hexText ∘ a.group), PlainToken t := by
  intro t ht
  obtain ⟨g, -, rfl⟩ := List.mem_map.mp ht
  exact plainToken_hexText _ (group_lt a g)

theorem plainToken_elidedTokens (a : SeIpv6Addr) (s L : Nat) :
    ∀ t ∈ elidedTokens a s L, PlainToken t := by
  have hnil : PlainToken [] := ⟨by simp, by simp⟩
  intro t ht
  simp only [elidedTokens, tokensBefore, tokensAfter, List.mem_append, List.mem_cons] at ht
  rcases ht with ht | rfl | ht
  · split at ht
    · simp only [List.mem_singleton] at ht; subst ht; exact hnil
    · exact plainToken_groups a _ _ t ht
  · exact hnil
  · split at ht
    · simp only [List.mem_singleton] at ht; subst ht; exact hnil
    · exact plainToken_groups a _ _ t ht

theorem colonJoin_around {xs ys : List (List Char)} (hx : xs ≠ []) (hy : ys ≠ []) :
    colonJoin (xs ++ [] :: ys) = colonJoin xs ++ [':', ':'] ++ colonJoin ys := by
  rw [colonJoin, intercalate_append ':' hx (by simp), List.intercalate_cons_of_ne_nil hy]
  simp [colonJoin]

theorem colonJoin_elidedTokens (a : SeIpv6Addr) {s L : Nat} (hsL : s + L ≤ 8) :
    colonJoin (elidedTokens a s L) =
      colonJoin ((List.range' 0 s).map (hexText ∘ a.group)) ++ [':', ':'] ++
        colonJoin ((List.range' (s + L) (8 - (s + L))).map (hexText ∘ a.group)) := by
  have hb : colonJoin (tokensBefore a s) = colonJoin ((List.range' 0 s).map (hexText ∘ a.group)) := by
    unfold tokensBefore
    split
    · next h => subst h; rfl
    · rfl
  have ha : colonJoin (tokensAfter a (s + L)) =
      colonJoin ((List.range' (s + L) (8 - (s + L))).map (hexText ∘ a.group)) := by
    unfold tokensAfter
    split
    · next h => rw [h]; rfl
    · rfl
  rw [elidedTokens, colonJoin_around, hb, ha]
  · unfold tokensBefore; split <;> simp; omega
  · unfold tokensAfter; split <;> simp; omega

theorem length_tokensBefore (a : SeIpv6Addr) (s : Nat) :
    (tokensBefore a s).length = if s = 0 then 1 else s := by
  unfold tokensBefore
  split <;> simp

theorem length_tokensAfter (a : SeIpv6Addr) (e : Nat) :
    (tokensAfter a e).length = if e = 8 then 1 else 8 - e := by
  unfold tokensAfter
  split <;> simp

section Read

variable {a : SeIpv6Addr} {s L : Nat}

theorem se6StrToIPLoop_tokensBefore (N : Nat) (R : List (List Char)) (hs : s ≤ 8)
    (hz0 : s = 0 → a.group 0 = 0) :
    ∃ a1, Filled a (2 * (tokensBefore a s).length) a1 ∧
      se6StrToIPLoop N (tokensBefore a s ++ R) 0 0 0 se6ZeroIP =
        se6StrToIPLoop N R (tokensBefore a s).length 0 (2 * (tokensBefore a s).length) a1 := by
  rw [length_tokensBefore]
  unfold tokensBefore
  split
  · next h =>
    simpa using se6StrToIPLoop_zeroGroup (N := N) (R := R) (n := 0) (.inl rfl) (hz0 h)
      (by omega) (filled_zero a)
  · simpa using se6StrToIPLoop_groups (N := N) (R := R) (n := 0) a s 0 0 se6ZeroIP
      (by omega) (filled_zero a)

theorem se6StrToIPLoop_tokensAfter {N i n e : Nat} {a2 : SeIpv6Addr} (he : e ≤ 8)
    (hz7 : e = 8 → a.group 7 = 0) (hi : i + (tokensAfter a e).length = N)
    (hf : Filled a (2 * (8 - (tokensAfter a e).length)) a2) :
    ∃ a3, Filled a 16 a3 ∧
      se6StrToIPLoop N (tokensAfter a e) i n (2 * (8 - (tokensAfter a e).length)) a2 =
        some (n, a3) := by
  rw [length_tokensAfter] at hi hf ⊢
  unfold tokensAfter
  split
  · next h =>
    obtain ⟨a3, hf3, heq⟩ := se6StrToIPLoop_zeroGroup (N := N) (i := i) (R := []) (n := n) (j := 7)
      (.inr (by simp [h] at hi; omega)) (hz7 h) (by omega) (by simpa [h] using hf)
    exact ⟨a3, hf3, by simpa [h, se6StrToIPLoop] using heq⟩
  · next h =>
    obtain ⟨a3, hf3, heq⟩ := se6StrToIPLoop_groups (N := N) (R := []) (n := n) a (8 - e) i e
      a2 (by omega) (by simpa [h, show 8 - (8 - e) = e by omega] using hf)
    refine ⟨a3, by rwa [show e + (8 - e) = 8 by omega] at hf3, ?_⟩
    rw [show 8 - (8 - e) = e by omega]
    simpa [se6StrToIPLoop] using heq

theorem elided_counts (h2 : 2 ≤ L) (hsL : s + L ≤ 8) :
    1 ≤ (tokensBefore a s).length ∧ s ≤ (tokensBefore a s).length ∧
      1 ≤ (tokensAfter a (s + L)).length ∧
      (tokensBefore a s).length + (tokensAfter a (s + L)).length ≤ 7 ∧
      8 ≤ s + L + (tokensAfter a (s + L)).length := by
  rw [length_tokensBefore, length_tokensAfter]
  split <;> split <;> omega

theorem se6StrToIPLoop_elided (h2 : 2 ≤ L) (hsL : s + L ≤ 8) (hz : ZeroBlock a.group s L) :
    ∃ a', se6StrToIPLoop (elidedTokens a s L).length (elidedTokens a s L) 0 0 0 se6ZeroIP =
      some (1, a') ∧ Filled a 16 a' := by
  obtain ⟨hP1, hsP, hQ1, hPQ, hQe⟩ := elided_counts (a := a) h2 hsL
  have hnt : (elidedTokens a s L).length =
      (tokensBefore a s).length + 1 + (tokensAfter a (s + L)).length := by
    simp [elidedTokens]
    omega
  obtain ⟨a1, hf1, hpre⟩ := se6StrToIPLoop_tokensBefore (s := s) (elidedTokens a s L).length
    ([] :: tokensAfter a (s + L)) (by omega) (fun h => hz 0 (by omega) (by omega))
  have hf2 : Filled a (2 * (8 - (tokensAfter a (s + L)).length)) a1 :=
    hf1.skip (by omega) fun j hj hj' => getD_zero_of_block hz j (by omega) (by omega)
  obtain ⟨a3, hf3, hpost⟩ := se6StrToIPLoop_tokensAfter (a := a) (e := s + L)
    (i := (tokensBefore a s).length + 1) (n := 1) (N := (elidedTokens a s L).length) hsL (fun h => hz 7 (by omega) (by omega))
    (by omega) hf2
  refine ⟨a3, ?_, hf3⟩
  generalize hN : (elidedTokens a s L).length = N at hnt hpre hpost ⊢
  rw [show elidedTokens a s L = tokensBefore a s ++ [] :: tokensAfter a (s + L) from rfl, hpre,
    se6StrToIPLoop_gap (by omega) (by omega),
    show 2 * (tokensBefore a s).length + 2 * (8 - N + 1) =
      2 * (8 - (tokensAfter a (s + L)).length) by omega]
  exact hpost

end Read

/-- `Se6StrToIP` on tokens joined by `:` gives the address that the token
loop fills in. -/
theorem se6StrToIP_colonJoin {ts : List (List Char)} {orig a : SeIpv6Addr} {n : Nat}
    (hplain : ∀ t ∈ ts, PlainToken t) (h3 : 3 ≤ ts.length) (h8 : ts.length ≤ 8)
    (hrun : se6StrToIPLoop ts.length ts 0 0 0 se6ZeroIP = some (n, a))
    (hn : n = 1 ∨ n = 0 ∧ ts.length = 8) (hf : Filled orig 16 a) :
    se6StrToIP (colonJoin ts) = orig := by
  have hne : ts ≠ [] := by rintro rfl; simp at h3
  have hlen : (colonJoin ts).length ≤ maxPath - 1 := by
    have h := length_intercalate_le ':' (fun t ht => (hplain t ht).1)
    simp only [colonJoin, maxPath]
    omega
  have hblank : ∀ c ∈ colonJoin ts, isBlank c = false := fun c hc => by
    rcases mem_intercalate ':' hc with rfl | ⟨t, ht, hct⟩
    · decide
    · exact ((hplain t ht).2 c hct).2
  have hcolon : ∀ t ∈ ts, ':' ∉ t := fun t ht hc => ((hplain t ht).2 ':' hc).1 rfl
  unfold se6StrToIP
  dsimp only
  rw [List.take_of_length_le hlen, seTrim_of_plain hblank, seParseTokenWithNullStr_colonJoin hne hcolon,
    if_pos ⟨h3, h8⟩, hrun]
  rcases hn with rfl | ⟨rfl, h8'⟩
  · simp [hf.eq]
  · simp [h8', hf.eq]

theorem se6StrToIP_se6IPToStr (a : SeIpv6Addr) : se6StrToIP (se6IPToStr a) = a := by
  rcases se6IPToStr_text a with ⟨-, ht⟩ | ⟨s, L, ⟨h2, hsL, hz, -⟩, ht⟩
  · obtain ⟨a', hf, heq⟩ := se6StrToIPLoop_groups (N := 8) (R := []) (n := 0) a 8 0 0 se6ZeroIP
      (by omega) (filled_zero a)
    rw [ht]
    exact se6StrToIP_colonJoin (plainToken_groups a 0 8) (by simp) (by simp)
      (by simpa [se6StrToIPLoop] using heq) (.inr ⟨rfl, by simp⟩) hf
  · obtain ⟨hP1, -, hQ1, hPQ, -⟩ := elided_counts (a := a) h2 hsL
    obtain ⟨a', hrun, hf⟩ := se6StrToIPLoop_elided h2 hsL hz
    have hnt : (elidedTokens a s L).length =
        (tokensBefore a s).length + 1 + (tokensAfter a (s + L)).length := by
      simp [elidedTokens]
      omega
    rw [ht, ← colonJoin_elidedTokens a hsL]
    exact se6StrToIP_colonJoin (plainToken_elidedTokens a s L) (by omega) (by omega) hrun
      (.inl rfl) hf

theorem se6IPToStr_canonical_roundtrip (a : SeIpv6Addr) :
    CanonicalText a (se6IPToStr a) ∧ se6StrToIP (se6IPToStr a) = a :=
  ⟨canonicalText_se6IPToStr a, se6StrToIP_se6IPToStr a⟩

end Bitvisor.Se
