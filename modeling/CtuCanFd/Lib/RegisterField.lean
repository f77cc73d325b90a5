import Mathlib.Data.BitVec

/-!
# Fields of a register word

A field is a range of bits of a word. Writing a value to a field cuts it to the width of the
field; words that are put together from disjoint fields are read field by field.
-/

/-- Bits `low` to `low + width - 1` of a word. -/
structure RegisterField where
  low : Nat
  width : Nat

namespace RegisterField

variable (f g : RegisterField)

/-- Ones in the field, as `GENMASK` makes them. -/
def mask : BitVec 32 := BitVec.ofNat 32 (2 ^ f.width - 1) <<< f.low

/-- A word with a value in the field and zeros elsewhere, as `FIELD_PREP` makes it. -/
def prep (v : BitVec 32) : BitVec 32 := v <<< f.low &&& f.mask

/-- The word with a value put into the field. -/
def insert (v w : BitVec 32) : BitVec 32 := (w &&& ~~~f.mask) ||| f.prep v

def Fits : Prop := f.low + f.width ≤ 32

def Apart : Prop := f.low + f.width ≤ g.low ∨ g.low + g.width ≤ f.low

instance : Decidable f.Fits := inferInstanceAs (Decidable (_ ≤ _))

instance : Decidable (f.Apart g) := inferInstanceAs (Decidable (_ ∨ _))

variable {f g}

theorem mask_getLsbD {k : Nat} (hk : k < 32) :
    f.mask.getLsbD k = decide (f.low ≤ k ∧ k < f.low + f.width) := by
  rw [mask, BitVec.getLsbD_shiftLeft, BitVec.getLsbD_ofNat, Nat.testBit_two_pow_sub_one]
  by_cases hl : f.low ≤ k
  · have : k - f.low < f.width ↔ k < f.low + f.width := by omega
    simp [hk, hl, this, show k - f.low < 32 by omega]
  · simp [hl, show k < f.low by omega]

theorem prep_getLsbD (v : BitVec 32) {k : Nat} (hk : k < 32) :
    (f.prep v).getLsbD k = (decide (f.low ≤ k ∧ k < f.low + f.width) && v.getLsbD (k - f.low)) := by
  rw [prep, BitVec.getLsbD_and, mask_getLsbD hk, BitVec.getLsbD_shiftLeft]
  by_cases hl : f.low ≤ k
  · simp [hk, hl, show ¬ k < f.low by omega, Bool.and_comm]
  · simp [hl]

theorem insert_getLsbD (v w : BitVec 32) {k : Nat} (hk : k < 32) :
    (f.insert v w).getLsbD k =
      if f.low ≤ k ∧ k < f.low + f.width then v.getLsbD (k - f.low) else w.getLsbD k := by
  rw [insert, BitVec.getLsbD_or, BitVec.getLsbD_and, BitVec.getLsbD_not, prep_getLsbD v hk,
    mask_getLsbD hk]
  split <;> simp [*]

/-- The field holds the lower bits of the value. -/
theorem extract_prep (hf : f.Fits) (v : BitVec 32) :
    (f.prep v).extractLsb' f.low f.width = v.truncate f.width := by
  apply BitVec.eq_of_getLsbD_eq
  intro j hj
  have hk : f.low + j < 32 := by
    unfold Fits at hf
    omega
  simp [prep_getLsbD v hk, hj]

/-- Other fields are zero. -/
theorem extract_prep_apart (h : f.Apart g) (hf : f.Fits) (v : BitVec 32) :
    (g.prep v).extractLsb' f.low f.width = 0 := by
  apply BitVec.eq_of_getLsbD_eq
  intro j hj
  have hk : f.low + j < 32 := by
    unfold Fits at hf
    omega
  have hout : ¬ (g.low ≤ f.low + j ∧ f.low + j < g.low + g.width) := by
    unfold Apart at h
    omega
  simp [prep_getLsbD v hk, hj, hout]

end RegisterField
