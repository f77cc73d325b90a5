import Mathlib.Logic.Function.Basic
import Mathlib.Data.List.Basic
import Mathlib.Data.Int.ModEq

/-!
# Consecutive slots of a ring

A ring of `size` slots is a function on addresses. `slots size mem start n`
lists the `n` slots from `start` on, wrapping at `size`.
-/

namespace RingSlots

universe u

variable {α : Type u}

def slots (size : Nat) (mem : Nat → α) (start n : Nat) : List α :=
  (List.range n).map fun k => mem ((start + k) % size)

@[simp] theorem slots_length (size : Nat) (mem : Nat → α) (start n : Nat) :
    (slots size mem start n).length = n := by
  simp [slots]

@[simp] theorem slots_zero (size : Nat) (mem : Nat → α) (start : Nat) :
    slots size mem start 0 = [] := rfl

theorem slots_getElem? (size : Nat) (mem : Nat → α) (start n k : Nat) :
    (slots size mem start n)[k]? = if k < n then some (mem ((start + k) % size)) else none := by
  by_cases hk : k < n
  · simp [slots, hk]
  · simp [slots, hk]

theorem slots_mod_start (size : Nat) (mem : Nat → α) (start n : Nat) :
    slots size mem (start % size) n = slots size mem start n := by
  simp [slots, Nat.mod_add_mod]

theorem slots_succ (size : Nat) (mem : Nat → α) (start n : Nat) :
    slots size mem start (n + 1) = slots size mem start n ++ [mem ((start + n) % size)] := by
  simp [slots, List.range_succ]

theorem slots_tail (size : Nat) (mem : Nat → α) (start n : Nat) :
    slots size mem (start + 1) n = (slots size mem start (n + 1)).tail := by
  simp only [slots, List.range_succ_eq_map, List.map_cons, List.tail_cons, List.map_map]
  apply List.map_congr_left
  intro k _
  simp only [Function.comp_apply]
  congr 2
  omega

theorem slots_take (size : Nat) (mem : Nat → α) (start : Nat) {m n : Nat} (h : m ≤ n) :
    slots size mem start m = (slots size mem start n).take m := by
  simp [slots, ← List.map_take, List.take_range, h]

/-- Distinct offsets below the size address distinct slots. -/
theorem offset_injective {size start j k : Nat} (hj : j < size) (hk : k < size)
    (h : (start + j) % size = (start + k) % size) : j = k := by
  have hmod : j % size = k % size := Nat.ModEq.add_left_cancel' start h
  rwa [Nat.mod_eq_of_lt hj, Nat.mod_eq_of_lt hk] at hmod

/-- Writing the slot at offset `k` changes exactly the `k`-th listed element. -/
theorem slots_update (size : Nat) (mem : Nat → α) (start : Nat) {n k : Nat}
    (hn : n ≤ size) (hk : k < size) (v : α) :
    slots size (Function.update mem ((start + k) % size) v) start n =
      (slots size mem start n).set k v := by
  apply List.ext_getElem?
  intro j
  rw [List.getElem?_set, slots_getElem?, slots_getElem?, slots_length]
  by_cases hjk : k = j
  · subst j
    by_cases hkn : k < n
    · simp [hkn]
    · simp [hkn]
  · by_cases hj : j < n
    · have hne : (start + j) % size ≠ (start + k) % size :=
        fun h => hjk (offset_injective (by omega) hk h).symm
      simp [hjk, hj, hne]
    · simp [hjk, hj]

/-- Writing the first slot past the listed ones extends the list. -/
theorem slots_update_next (size : Nat) (mem : Nat → α) (start : Nat) {n : Nat}
    (hn : n < size) (v : α) :
    slots size (Function.update mem ((start + n) % size) v) start (n + 1) =
      slots size mem start n ++ [v] := by
  rw [slots_succ, slots_update size mem start (Nat.le_of_lt hn) hn, Function.update_self]
  rw [List.set_eq_of_length_le (by simp)]

end RingSlots
