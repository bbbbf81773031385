import Mathlib

namespace ByteMem

/-! A byte-addressed memory is a function from addresses to bytes. A read of
`n` bytes at `a` sees the last write that covers each byte, and a write
changes nothing outside its range. -/

def read (mem : Nat → UInt8) (a n : Nat) : List UInt8 := (List.range n).map fun i => mem (a + i)

/-- `bs` stored at `a`. -/
def write (mem : Nat → UInt8) (a : Nat) (bs : List UInt8) : Nat → UInt8 :=
  fun j => if a ≤ j ∧ j < a + bs.length then bs.getD (j - a) 0 else mem j

variable {mem : Nat → UInt8}

@[simp] theorem length_read (a n : Nat) : (read mem a n).length = n := by
  simp [read]

theorem read_add (a n m : Nat) : read mem a (n + m) = read mem a n ++ read mem (a + n) m := by
  simp only [read, List.range_add, List.map_append, List.map_map]
  congr 1
  apply List.map_congr_left
  intro i _
  simp only [Function.comp_apply, Nat.add_assoc]

theorem write_of_lt {a j : Nat} (bs : List UInt8) (h : j < a) : write mem a bs j = mem j := by
  simp only [write]
  rw [if_neg (by omega)]

theorem write_of_ge {a j : Nat} (bs : List UInt8) (h : a + bs.length ≤ j) : write mem a bs j = mem j := by
  simp only [write]
  rw [if_neg (by omega)]

theorem read_write_of_disjoint {a b n : Nat} (bs : List UInt8) (h : b + n ≤ a ∨ a + bs.length ≤ b) :
    read (write mem a bs) b n = read mem b n := by
  apply List.map_congr_left
  intro i hi
  rw [List.mem_range] at hi
  rcases h with h | h
  · exact write_of_lt bs (by omega)
  · exact write_of_ge bs (by omega)

theorem read_write_self (a : Nat) (bs : List UInt8) : read (write mem a bs) a bs.length = bs := by
  apply List.ext_getElem (by simp)
  intro i h₁ h₂
  simp only [read, List.getElem_map, List.getElem_range, write]
  rw [if_pos (by omega), Nat.add_sub_cancel_left, List.getD_eq_getElem?_getD, List.getElem?_eq_getElem h₂,
    Option.getD_some]

theorem read_write_of_length (a : Nat) {bs : List UInt8} {n : Nat} (h : bs.length = n) :
    read (write mem a bs) a n = bs := by
  rw [← h, read_write_self]

theorem write_write_self (a : Nat) {bs cs : List UInt8} (h : cs.length = bs.length) :
    write (write mem a bs) a cs = write mem a cs := by
  funext j
  simp only [write, h]
  split_ifs <;> rfl

theorem write_append (a : Nat) (bs cs : List UInt8) :
    write mem a (bs ++ cs) = write (write mem a bs) (a + bs.length) cs := by
  funext j
  simp only [write, List.length_append]
  by_cases h₁ : a ≤ j ∧ j < a + bs.length
  · rw [if_pos (by omega), if_neg (by omega), if_pos h₁, List.getD_eq_getElem?_getD,
      List.getElem?_append_left (by omega), ← List.getD_eq_getElem?_getD]
  · by_cases h₂ : a + bs.length ≤ j ∧ j < a + bs.length + cs.length
    · rw [if_pos (by omega), if_pos h₂, List.getD_eq_getElem?_getD, List.getElem?_append_right (by omega),
        ← List.getD_eq_getElem?_getD, Nat.sub_sub]
    · rw [if_neg (by omega), if_neg h₂, if_neg h₁]

theorem write_replicate_zero (a n j : Nat) :
    write mem a (List.replicate n 0) j = if a ≤ j ∧ j < a + n then 0 else mem j := by
  simp only [write, List.length_replicate]
  split_ifs with h
  · rw [List.getD_eq_getElem?_getD, List.getElem?_replicate, if_pos (by omega), Option.getD_some]
  · rfl

def leBytes : Nat → Nat → List UInt8
  | 0, _ => []
  | n + 1, v => (v % 256).toUInt8 :: leBytes n (v / 256)

def readLe (mem : Nat → UInt8) (a : Nat) : Nat → Nat
  | 0 => 0
  | n + 1 => (mem a).toNat + 256 * readLe mem (a + 1) n

@[simp] theorem length_leBytes (n v : Nat) : (leBytes n v).length = n := by
  induction n generalizing v with
  | zero => rfl
  | succ n ih => simp [leBytes, ih]

theorem getElem_leBytes {n v k : Nat} (hk : k < (leBytes n v).length) :
    (leBytes n v)[k] = (v / 256 ^ k % 256).toUInt8 := by
  induction n generalizing v k with
  | zero => simp at hk
  | succ n ih =>
    cases k with
    | zero => simp [leBytes]
    | succ k =>
      simp only [leBytes, List.getElem_cons_succ]
      rw [ih, Nat.div_div_eq_div_mul, ← Nat.pow_succ']

theorem readLe_congr {mem' : Nat → UInt8} {a n : Nat} (h : ∀ i < n, mem (a + i) = mem' (a + i)) :
    readLe mem a n = readLe mem' a n := by
  induction n generalizing a with
  | zero => rfl
  | succ n ih =>
    have h0 : mem a = mem' a := h 0 (by omega)
    have hrest : readLe mem (a + 1) n = readLe mem' (a + 1) n :=
      ih fun i hi => by simpa only [Nat.add_assoc, Nat.add_comm 1 i] using h (i + 1) (by omega)
    simp only [readLe, h0, hrest]

theorem readLe_lt (a n : Nat) : readLe mem a n < 256 ^ n := by
  induction n generalizing a with
  | zero => simp [readLe]
  | succ n ih =>
    have hb := (mem a).toNat_lt
    have hr := ih (a + 1)
    rw [readLe, Nat.pow_succ']
    omega

theorem readLe_write_leBytes (a n v : Nat) : readLe (write mem a (leBytes n v)) a n = v % 256 ^ n := by
  induction n generalizing a v mem with
  | zero => simp [readLe, Nat.mod_one]
  | succ n ih =>
    have hsplit : write mem a (leBytes (n + 1) v) =
        write (write mem a [(v % 256).toUInt8]) (a + 1) (leBytes n (v / 256)) := by
      rw [leBytes, show (v % 256).toUInt8 :: leBytes n (v / 256) =
        [(v % 256).toUInt8] ++ leBytes n (v / 256) from rfl, write_append]
      rfl
    have hfirst : (write mem a (leBytes (n + 1) v) a).toNat = v % 256 := by
      rw [hsplit, write_of_lt _ (by omega)]
      simp [write]
    rw [readLe, hfirst, hsplit, ih, Nat.pow_succ', Nat.mod_mul]

theorem readLe_of_zero {a n : Nat} (h : ∀ i < n, mem (a + i) = 0) : readLe mem a n = 0 := by
  induction n generalizing a with
  | zero => rfl
  | succ n ih =>
    have h0 : mem a = 0 := h 0 (by omega)
    have hrest : readLe mem (a + 1) n = 0 :=
      ih fun i hi => by simpa only [Nat.add_assoc, Nat.add_comm 1 i] using h (i + 1) (by omega)
    simp [readLe, h0, hrest]

end ByteMem
