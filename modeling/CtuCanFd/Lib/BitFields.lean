import Mathlib.Data.BitVec
import Mathlib.Data.List.Basic
import Mathlib.Data.Nat.Bitwise

/-!
# Fields of a serial bit stream

A stream is received bit by bit. A field is a run of its bits at a fixed position, the most
significant bit first. A field that is complete does not change when more bits come in, and a
shift register that has taken in the bits of a field holds it in its low bits.
-/

namespace BitFields

/-- Bit `n` of the stream; a bit that has not come yet reads as zero. -/
def bit (bits : List Bool) (n : Nat) : Bool := bits.getD n false

/-- The field of `n` bits at position `p`. -/
def word (bits : List Bool) (p : Nat) : (n : Nat) → BitVec n
  | 0 => 0#0
  | n + 1 => word bits p n ++ BitVec.ofBool (bit bits (p + n))

/-- The bits of a field in the order in which they are sent. -/
def sent {n : Nat} (w : BitVec n) : List Bool := (List.range n).map fun k => w.getMsbD k

variable {bits : List Bool} {p n : Nat}

theorem bit_of_length_le (h : bits.length ≤ n) : bit bits n = false := by
  simp [bit, h]

theorem bit_concat (bits : List Bool) (b : Bool) (n : Nat) :
    bit (bits ++ [b]) n = if n = bits.length then b else bit bits n := by
  simp only [bit, List.getD_eq_getElem?_getD]
  rcases Nat.lt_trichotomy n bits.length with h | h | h
  · rw [List.getElem?_append_left h, if_neg (by omega)]
  · subst h
    simp
  · rw [List.getElem?_eq_none (by simp; omega), List.getElem?_eq_none (by omega),
      if_neg (by omega)]

theorem bit_append_left (more : List Bool) (h : n < bits.length) :
    bit (bits ++ more) n = bit bits n := by
  simp only [bit, List.getD_eq_getElem?_getD, List.getElem?_append_left h]

theorem bit_append (bits more : List Bool) (n : Nat) :
    bit (bits ++ more) n = if n < bits.length then bit bits n else bit more (n - bits.length) := by
  simp only [bit, List.getD_eq_getElem?_getD, List.getElem?_append]
  split <;> rfl

@[simp] theorem bit_cons_zero (b : Bool) (bits : List Bool) : bit (b :: bits) 0 = b := rfl

@[simp] theorem bit_cons_succ (b : Bool) (bits : List Bool) (n : Nat) :
    bit (b :: bits) (n + 1) = bit bits n := rfl

theorem word_congr {more : List Bool} {q : Nat}
    (h : ∀ k < n, bit bits (p + k) = bit more (q + k)) : word bits p n = word more q n := by
  induction n with
  | zero => rfl
  | succ n ih =>
    rw [word, word, ih fun k hk => h k (by omega), h n (by omega)]

/-- A complete field keeps its value. -/
theorem word_append_left (more : List Bool) (h : p + n ≤ bits.length) :
    word (bits ++ more) p n = word bits p n :=
  word_congr fun k hk => bit_append_left more (by omega)

theorem word_append_right (bits more : List Bool) (n : Nat) (h : bits.length ≤ p) :
    word (bits ++ more) p n = word more (p - bits.length) n :=
  word_congr fun k _ => by rw [bit_append, if_neg (by omega), Nat.sub_add_comm h]

@[simp] theorem word_cons_succ (b : Bool) (bits : List Bool) (p n : Nat) :
    word (b :: bits) (p + 1) n = word bits p n :=
  word_congr fun k _ => by rw [Nat.add_right_comm, bit_cons_succ]

/-- The last bit of a field completes it. -/
theorem word_concat (b : Bool) (h : p + n = bits.length) :
    word (bits ++ [b]) p (n + 1) = word bits p n ++ BitVec.ofBool b := by
  rw [word, word_append_left _ (by omega), bit_concat, if_pos h]

theorem getLsbD_word {j : Nat} (hj : j < n) :
    (word bits p n).getLsbD j = bit bits (p + (n - 1 - j)) := by
  induction n generalizing j with
  | zero => omega
  | succ n ih =>
    rw [word, BitVec.getLsbD_append]
    cases j with
    | zero => simp
    | succ j =>
      have hidx : n + 1 - 1 - (j + 1) = n - 1 - j := by omega
      rw [hidx, ← ih (by omega)]
      simp

@[simp] theorem length_sent (w : BitVec n) : (sent w).length = n := by
  simp [sent]

theorem bit_sent (w : BitVec n) {k : Nat} (hk : k < n) : bit (sent w) k = w.getMsbD k := by
  simp [bit, sent, hk]

/-- The bits of a field that are gone when bit `q` is the current one, and that bit. -/
theorem take_sent_concat (w : BitVec (n + 1)) {q : Nat} (hq : q ≤ n) :
    (sent w).take (n - q) ++ [w.getLsbD q] = (sent w).take (n + 1 - q) := by
  have hidx : n + 1 - q = n - q + 1 := by omega
  have hbit : (sent w)[n - q]? = some (w.getLsbD q) := by
    have hrev : n + 1 - 1 - (n - q) = q := by omega
    rw [sent, List.getElem?_map, List.getElem?_range (by omega), Option.map_some, BitVec.getMsbD,
      decide_eq_true (by omega), Bool.true_and, hrev]
  rw [hidx, List.take_add_one, hbit]
  rfl

theorem take_sent (w : BitVec n) : (sent w).take n = sent w :=
  List.take_of_length_le (by simp)

/-- What is sent is what is read. -/
theorem word_sent (w : BitVec n) : word (sent w) 0 n = w := by
  ext j hj
  rw [← BitVec.getLsbD_eq_getElem, ← BitVec.getLsbD_eq_getElem, getLsbD_word hj, Nat.zero_add,
    bit_sent w (by omega), BitVec.getMsbD]
  have hidx : n - 1 - (n - 1 - j) = j := by omega
  rw [hidx, decide_eq_true (by omega), Bool.true_and]

theorem sent_injective : Function.Injective (sent (n := n)) := fun w x h => by
  rw [← word_sent w, h, word_sent]

/-- A stream is the fields it was read as. -/
theorem sent_word (h : bits.length = n) : sent (word bits 0 n) = bits := by
  refine List.ext_getElem (by simp [h]) fun k hk hk' => ?_
  have hlt : k < n := by omega
  have hbit : bit bits k = bits[k] := by simp [bit, hk']
  simp only [sent, List.getElem_map, List.getElem_range]
  rw [← hbit, BitVec.getMsbD, decide_eq_true hlt, Bool.true_and, getLsbD_word (by omega)]
  congr 1
  omega

theorem word_eq_iff {w : BitVec n} (h : bits.length = n) : word bits 0 n = w ↔ bits = sent w := by
  constructor
  · rintro rfl
    exact (sent_word h).symm
  · rintro rfl
    exact word_sent w

/-- Of two fields the one with the first zero is the smaller one. -/
theorem lt_of_sent {w x : BitVec n} {common a b : List Bool} (hw : sent w = common ++ false :: a)
    (hx : sent x = common ++ true :: b) : w.toNat < x.toNat := by
  have hlen : common.length < n := by
    have := congrArg List.length hw
    simp only [length_sent, List.length_append, List.length_cons] at this
    omega
  have hbit : ∀ k < n, w.getLsbD (n - 1 - k) = bit (sent w) k ∧
      x.getLsbD (n - 1 - k) = bit (sent x) k := fun k hk => by
    rw [bit_sent w hk, bit_sent x hk, BitVec.getMsbD, BitVec.getMsbD, decide_eq_true hk,
      Bool.true_and, Bool.true_and]
    exact ⟨rfl, rfl⟩
  refine Nat.lt_of_testBit (n - 1 - common.length) ?_ ?_ fun j hj => ?_
  · show w.getLsbD _ = _
    rw [(hbit _ hlen).1, hw, bit_append, if_neg (by omega), Nat.sub_self]
    rfl
  · show x.getLsbD _ = _
    rw [(hbit _ hlen).2, hx, bit_append, if_neg (by omega), Nat.sub_self]
    rfl
  · show w.getLsbD j = x.getLsbD j
    by_cases hjn : j < n
    · obtain ⟨k, hk, rfl⟩ : ∃ k < common.length, j = n - 1 - k := ⟨n - 1 - j, by omega, by omega⟩
      rw [(hbit k (by omega)).1, (hbit k (by omega)).2, hw, hx, bit_append_left _ hk,
        bit_append_left _ hk]
    · rw [BitVec.getLsbD_of_ge _ _ (by omega), BitVec.getLsbD_of_ge _ _ (by omega)]

/-! ### The first difference of two streams -/

/-- In the first bit in which the streams differ, the first one has a zero. -/
def Overrules : List Bool → List Bool → Prop
  | a :: x, b :: y => (a = false ∧ b = true) ∨ (a = b ∧ Overrules x y)
  | _, _ => False

@[simp] theorem overrules_cons (a b : Bool) (x y : List Bool) :
    Overrules (a :: x) (b :: y) ↔ (a = false ∧ b = true) ∨ (a = b ∧ Overrules x y) := Iff.rfl

@[simp] theorem overrules_nil (x : List Bool) : ¬ Overrules x [] := by
  cases x <;> exact id

theorem overrules_of_prefix {common x y : List Bool} (hx : common ++ [false] <+: x)
    (hy : common ++ [true] <+: y) : Overrules x y := by
  induction common generalizing x y with
  | nil =>
    obtain ⟨x, rfl⟩ := hx
    obtain ⟨y, rfl⟩ := hy
    exact .inl ⟨rfl, rfl⟩
  | cons b common ih =>
    obtain ⟨x, rfl⟩ := hx
    obtain ⟨y, rfl⟩ := hy
    exact .inr ⟨rfl, ih (List.prefix_append _ _) (List.prefix_append _ _)⟩

theorem Overrules.split {x y : List Bool} (h : Overrules x y) :
    ∃ common a b, x = common ++ false :: a ∧ y = common ++ true :: b := by
  induction x generalizing y with
  | nil => exact h.elim
  | cons b x ih =>
    cases y with
    | nil => exact h.elim
    | cons b' y =>
      rcases h with ⟨rfl, rfl⟩ | ⟨rfl, h⟩
      · exact ⟨[], x, y, rfl, rfl⟩
      · obtain ⟨common, a, a', rfl, rfl⟩ := ih h
        exact ⟨b :: common, a, a', rfl, rfl⟩

theorem overrules_append {x y : List Bool} (x' y' : List Bool) (hlen : x.length = y.length) :
    Overrules (x ++ x') (y ++ y') ↔ Overrules x y ∨ (x = y ∧ Overrules x' y') := by
  induction x generalizing y with
  | nil =>
    obtain rfl := List.length_eq_zero_iff.mp hlen.symm
    simp
  | cons b x ih =>
    cases y with
    | nil => simp at hlen
    | cons b' y =>
      have ih := ih (Nat.succ.inj hlen)
      simp only [List.cons_append, overrules_cons, ih, List.cons.injEq]
      tauto

theorem Overrules.lt_of_sent {w x : BitVec n} (h : Overrules (sent w) (sent x)) :
    w.toNat < x.toNat := by
  obtain ⟨common, a, b, hw, hx⟩ := h.split
  exact BitFields.lt_of_sent hw hx

/-! ### Shift registers -/

/-- A field in the top bits of a register. -/
theorem getLsbD_top (w : BitVec n) (z : Nat) {j : Nat} : (w ++ 0#z).getLsbD (z + j) = w.getLsbD j := by
  rw [BitVec.getLsbD_append, if_neg (by omega), Nat.add_sub_cancel_left]

/-- One bit shifted into a register. -/
theorem extractLsb_shift {w : Nat} (r : BitVec (w + 1)) (b : Bool) (h : n ≤ w) :
    (r.extractLsb' 0 w ++ BitVec.ofBool b).extractLsb' 0 (n + 1) =
      r.extractLsb' 0 n ++ BitVec.ofBool b := by
  ext j hj
  cases j with
  | zero => simp [BitVec.getElem_append]
  | succ j =>
    have hw : j < w := by omega
    simp [BitVec.getElem_append, hw]

end BitFields
