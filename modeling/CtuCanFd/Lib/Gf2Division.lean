import Mathlib.Algebra.CharP.Two
import Mathlib.Algebra.Field.ZMod
import Mathlib.Algebra.Polynomial.Div
import Mathlib.Algebra.Polynomial.FieldDivision

/-!
# Division of bit strings over GF(2)

Bit vectors and bit strings as polynomials over `ZMod 2`. A register that takes in one
bit after the other, and whose value changes by a multiple of the divisor beside the
shift, holds the remainder of the string. Strings that differ within a window no longer
than the degree of a divisor with a constant term have different remainders.
-/

namespace Gf2

open Polynomial

/-- A bit as a coefficient. -/
def coef (b : Bool) : ZMod 2 := if b then 1 else 0

@[simp] theorem coef_false : coef false = 0 := rfl

@[simp] theorem coef_true : coef true = 1 := rfl

theorem coef_xor (a b : Bool) : coef (a ^^ b) = coef a + coef b := by
  cases a <;> cases b <;> decide

theorem coef_injective : Function.Injective coef := by
  intro a b
  cases a <;> cases b <;> decide

/-! ## Bit vectors -/

section BitVec

variable {w : Nat}

/-- Bit `k` of the vector is the coefficient of `X ^ k`. -/
noncomputable def ofBitVec (v : BitVec w) : (ZMod 2)[X] :=
  ∑ k ∈ Finset.range w, C (coef (v.getLsbD k)) * X ^ k

@[simp] theorem coeff_ofBitVec (v : BitVec w) (k : Nat) :
    (ofBitVec v).coeff k = coef (v.getLsbD k) := by
  simp only [ofBitVec, finsetSum_coeff, coeff_C_mul, coeff_X_pow, mul_ite, mul_one, mul_zero]
  rw [Finset.sum_ite_eq]
  split
  · rfl
  · next hk => rw [BitVec.getLsbD_of_ge v k (by simpa using hk), coef_false]

theorem ofBitVec_xor (u v : BitVec w) : ofBitVec (u ^^^ v) = ofBitVec u + ofBitVec v := by
  ext k
  simp [coef_xor]

theorem degree_ofBitVec_lt (v : BitVec w) : (ofBitVec v).degree < w := by
  rw [degree_lt_iff_coeff_zero]
  intro k hk
  rw [coeff_ofBitVec, BitVec.getLsbD_of_ge v k hk, coef_false]

/-- A shift multiplies by `X` and drops the leading bit. -/
theorem ofBitVec_shiftLeft (v : BitVec w) :
    ofBitVec (v <<< 1) = ofBitVec v * X + C (coef v.msb) * X ^ w := by
  ext k
  simp only [coeff_add, coeff_C_mul, coeff_X_pow, coeff_ofBitVec, BitVec.getLsbD_shiftLeft]
  cases k with
  | zero =>
    cases w with
    | zero => simp [BitVec.eq_nil v]
    | succ w => simp
  | succ k =>
    rw [coeff_mul_X, coeff_ofBitVec]
    by_cases hlt : k + 1 < w
    · simp [hlt, show k + 1 ≠ w by omega]
    · by_cases heq : k + 1 = w
      · subst heq
        simp [BitVec.msb_eq_getLsbD_last, CharTwo.add_self_eq_zero]
      · simp [hlt, heq, BitVec.getLsbD_of_ge v k (by omega)]

/-- The divisor of degree `w` with the given lower coefficients. -/
noncomputable def generator (pol : BitVec w) : (ZMod 2)[X] := X ^ w + ofBitVec pol

theorem generator_monic (pol : BitVec w) : (generator pol).Monic :=
  monic_X_pow_add (degree_ofBitVec_lt pol)

theorem natDegree_generator (pol : BitVec w) : (generator pol).natDegree = w := by
  rw [generator, natDegree_add_eq_left_of_degree_lt, natDegree_X_pow]
  rw [degree_X_pow]
  exact degree_ofBitVec_lt pol

theorem degree_generator (pol : BitVec w) : (generator pol).degree = w := by
  rw [degree_eq_natDegree (generator_monic pol).ne_zero, natDegree_generator]

end BitVec

/-! ## Bit strings -/

/-- The first bit of the string is the leading coefficient. -/
noncomputable def message : List Bool → (ZMod 2)[X]
  | [] => 0
  | b :: bits => C (coef b) * X ^ bits.length + message bits

theorem message_append (as bs : List Bool) :
    message (as ++ bs) = message as * X ^ bs.length + message bs := by
  induction as with
  | nil => simp [message]
  | cons a as ih =>
    simp only [List.cons_append, message, ih, List.length_append]
    ring

theorem degree_message_lt (bits : List Bool) : (message bits).degree < bits.length := by
  induction bits with
  | nil => simp [message]
  | cons b bits ih =>
    refine lt_of_le_of_lt (degree_add_le _ _) (max_lt ?_ ?_)
    · refine lt_of_le_of_lt (degree_C_mul_X_pow_le _ _) ?_
      exact_mod_cast Nat.lt_succ_self _
    · refine lt_trans ih ?_
      exact_mod_cast Nat.lt_succ_self _

theorem message_injective {as bs : List Bool} (hlen : as.length = bs.length)
    (h : message as = message bs) : as = bs := by
  induction as generalizing bs with
  | nil => exact (List.length_eq_zero_iff.mp hlen.symm).symm
  | cons a as ih =>
    cases bs with
    | nil => cases hlen
    | cons b bs =>
      have hlen' : as.length = bs.length := by simpa using hlen
      -- the leading coefficients are the first bits
      have hlead := congrArg (fun p => p.coeff as.length) h
      have hzero : ∀ cs : List Bool, cs.length = as.length → (message cs).coeff as.length = 0 := by
        intro cs hcs
        apply coeff_eq_zero_of_degree_lt
        rw [← hcs]
        exact degree_message_lt cs
      simp only [message, coeff_add, coeff_C_mul, coeff_X_pow, ← hlen', if_true, mul_one] at hlead
      rw [hzero as rfl, hzero bs hlen'.symm, add_zero, add_zero] at hlead
      have hab : a = b := coef_injective hlead
      subst hab
      simp only [message, hlen', add_right_inj] at h
      rw [ih hlen' h]

/-! ## Registers -/

section Register

variable {S : Type*} {rep : S → (ZMod 2)[X]} {next : S → Bool → S} {g : (ZMod 2)[X]} {w : Nat}

/-- A register that appends each bit above its value, up to a multiple of the divisor, holds the
remainder of the string. -/
theorem foldl_remainder (hg : g.Monic) (hdeg : ∀ r, (rep r).degree < g.degree)
    (hnext : ∀ r b, g ∣ rep (next r b) - (rep r * X + C (coef b) * X ^ w)) (bits : List Bool)
    (r : S) :
    rep (bits.foldl next r) = (message bits * X ^ w + rep r * X ^ bits.length) %ₘ g := by
  induction bits generalizing r with
  | nil => simp [message, (modByMonic_eq_self_iff hg).mpr (hdeg r)]
  | cons b bits ih =>
    rw [List.foldl_cons, ih]
    apply modByMonic_eq_of_dvd_sub hg
    have hsplit : message bits * X ^ w + rep (next r b) * X ^ bits.length -
        (message (b :: bits) * X ^ w + rep r * X ^ (b :: bits).length) =
        (rep (next r b) - (rep r * X + C (coef b) * X ^ w)) * X ^ bits.length := by
      simp only [message, List.length_cons]
      ring
    rw [hsplit]
    exact (hnext r b).mul_right _

end Register

/-! ## Bursts -/

section Burst

variable {g : (ZMod 2)[X]} {n : Nat}

/-- Multiplying by a power of `X` does not help a divisor with a constant term. -/
theorem dvd_of_dvd_mul_X_pow (hg : g.coeff 0 = 1) {p : (ZMod 2)[X]} (h : g ∣ p * X ^ n) :
    g ∣ p := by
  have hcop : IsCoprime g X := by
    refine ⟨1, -divX g, ?_⟩
    have hdiv := divX_mul_X_add g
    rw [hg, C_1] at hdiv
    calc 1 * g + -divX g * X = g - divX g * X := by ring
      _ = 1 := by rw [sub_eq_iff_eq_add']; exact hdiv.symm
  exact (hcop.pow_right (n := n)).dvd_of_dvd_mul_right h

/-- The two strings agree at every position outside a window of the given length. -/
def DifferWithin (len : Nat) (as bs : List Bool) : Prop :=
  ∃ start, ∀ k, as[k]? ≠ bs[k]? → start ≤ k ∧ k < start + len

/-- The common parts around the window. -/
theorem DifferWithin.split {len : Nat} {as bs : List Bool} (h : DifferWithin len as bs)
    (hlen : as.length = bs.length) :
    ∃ front u v back, as = front ++ u ++ back ∧ bs = front ++ v ++ back ∧
      u.length = v.length ∧ u.length ≤ len := by
  obtain ⟨start, hwin⟩ := h
  refine ⟨as.take start, (as.drop start).take len, (bs.drop start).take len,
    (as.drop start).drop len, ?_, ?_, ?_, ?_⟩
  · rw [List.append_assoc, List.take_append_drop, List.take_append_drop]
  · have hfront : as.take start = bs.take start := by
      apply List.ext_getElem?
      intro k
      rw [List.getElem?_take, List.getElem?_take]
      split
      · next hk => exact Classical.not_not.mp fun hne => by have := (hwin k hne).1; omega
      · rfl
    have hback : (as.drop start).drop len = (bs.drop start).drop len := by
      apply List.ext_getElem?
      intro k
      rw [List.drop_drop, List.drop_drop, List.getElem?_drop, List.getElem?_drop]
      exact Classical.not_not.mp fun hne => by have := (hwin _ hne).2; omega
    rw [hfront, hback, List.append_assoc, List.take_append_drop, List.take_append_drop]
  · simp only [List.length_take, List.length_drop, hlen]
  · exact List.length_take_le _ _

/-- Strings that differ within a window no longer than the degree of the divisor have different
remainders, whatever is added to both. -/
theorem remainder_ne_of_differWithin (hmonic : g.Monic) (hconst : g.coeff 0 = 1)
    {as bs : List Bool} (hlen : as.length = bs.length) (hne : as ≠ bs)
    (hwin : DifferWithin g.natDegree as bs) (c : (ZMod 2)[X]) :
    (message as * X ^ n + c) %ₘ g ≠ (message bs * X ^ n + c) %ₘ g := by
  obtain ⟨front, u, v, back, rfl, rfl, huv, hu⟩ := hwin.split hlen
  intro heq
  have hdvd : g ∣ (message u - message v) * X ^ (back.length + n) := by
    rw [← modByMonic_eq_zero_iff_dvd hmonic]
    rw [← sub_eq_zero, ← sub_modByMonic] at heq
    rw [← heq]
    congr 1
    simp only [message_append, huv]
    ring
  -- the difference has a degree below that of the divisor
  have hsmall : (message u - message v).degree < g.degree := by
    refine lt_of_le_of_lt (degree_sub_le _ _) ?_
    rw [degree_eq_natDegree hmonic.ne_zero]
    refine lt_of_lt_of_le (max_lt (degree_message_lt u) ?_) (Nat.cast_le.mpr hu)
    rw [huv]
    exact degree_message_lt v
  have hzero := eq_zero_of_dvd_of_degree_lt (dvd_of_dvd_mul_X_pow hconst hdvd) hsmall
  exact hne (by rw [message_injective huv (sub_eq_zero.mp hzero)])

end Burst

end Gf2
