import Mathlib.Data.Nat.Basic
import Mathlib.Order.Lattice

/-!
# The first of the greatest candidates

A tree of comparators selects the greatest candidate of an interval from those of two
neighbouring intervals. If the lower one wins the ties, the selection is the first of the
greatest candidates.
-/

/-- `i` is the first of the candidates in `[lo, hi)` with the greatest key. -/
structure FirstMaximum {α : Type*} [LinearOrder α] (candidate : Nat → Prop) (key : Nat → α)
    (lo hi i : Nat) : Prop where
  lo_le : lo ≤ i
  lt_hi : i < hi
  mem : candidate i
  max : ∀ k, lo ≤ k → k < hi → candidate k → key k ≤ key i
  first : ∀ k, lo ≤ k → k < i → candidate k → key k < key i

namespace FirstMaximum

variable {α : Type*} [LinearOrder α] {candidate : Nat → Prop} {key : Nat → α}
variable {lo mid hi i j : Nat}

theorem singleton (h : candidate i) : FirstMaximum candidate key i (i + 1) i where
  lo_le := le_rfl
  lt_hi := Nat.lt_succ_self i
  mem := h
  max k hk hk' _ := by
    obtain rfl : k = i := by omega
    exact le_rfl
  first k hk hk' _ := absurd hk' (Nat.not_lt.mpr hk)

/-- The selection of the lower interval stands if no candidate above has a greater key. -/
theorem lower (h : FirstMaximum candidate key lo mid i) (hmid : mid ≤ hi)
    (hupper : ∀ k, mid ≤ k → k < hi → candidate k → key k ≤ key i) :
    FirstMaximum candidate key lo hi i where
  lo_le := h.lo_le
  lt_hi := h.lt_hi.trans_le hmid
  mem := h.mem
  max k hk hk' hc := by
    rcases Nat.lt_or_ge k mid with hm | hm
    · exact h.max k hk hm hc
    · exact hupper k hm hk' hc
  first := h.first

/-- That of the upper interval stands if every candidate below has a smaller key. -/
theorem upper (h : FirstMaximum candidate key mid hi i) (hmid : lo ≤ mid)
    (hlower : ∀ k, lo ≤ k → k < mid → candidate k → key k < key i) :
    FirstMaximum candidate key lo hi i where
  lo_le := hmid.trans h.lo_le
  lt_hi := h.lt_hi
  mem := h.mem
  max k hk hk' hc := by
    rcases Nat.lt_or_ge k mid with hm | hm
    · exact (hlower k hk hm hc).le
    · exact h.max k hm hk' hc
  first k hk hk' hc := by
    rcases Nat.lt_or_ge k mid with hm | hm
    · exact hlower k hk hm hc
    · exact h.first k hm hk' hc

/-- Of candidates with the same key the selection is the first one. -/
theorem le_of_key_eq (h : FirstMaximum candidate key lo hi i) (hj : lo ≤ j) (hc : candidate j)
    (heq : key j = key i) : i ≤ j := by
  by_contra hlt
  exact absurd heq (h.first j hj (Nat.lt_of_not_le hlt) hc).ne

end FirstMaximum
