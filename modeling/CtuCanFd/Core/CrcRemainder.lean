import CtuCanFd.Core.Coverage
import CtuCanFd.Lib.Gf2Division
import Mathlib.Tactic.LinearCombination

/-!
# The CRC as a remainder

The register of `crc_calc` holds the remainder of the bits taken in since its initial value
was loaded, divided by the generator polynomial over GF(2). Two strings of bits that differ
only within a window no longer than the register leave different values in it.
-/

open Gf2 Polynomial SyncMachine

namespace CrcCalc

/-! ## Runs of `crc_calc` -/

structure Input where
  dataIn : Bool
  trig : Bool
  enable : Bool
  initVectMsb : Bool
  loadInitVect : Bool
deriving DecidableEq, Repr

variable {w : Nat}

def cycle (pol crcQ : BitVec w) (i : Input) : BitVec w :=
  step pol crcQ i.dataIn i.trig i.enable i.initVectMsb i.loadInitVect

/-- The bits taken in. -/
def bitsTaken (is : List Input) : List Bool :=
  (is.filter fun i => i.enable && i.trig).map Input.dataIn

/-- The initial value is loaded in the first cycle and in no other one. -/
def LoadsFirst : List Input → Prop
  | [] => False
  | i :: is => i.loadInitVect = true ∧ ∀ j ∈ is, j.loadInitVect = false

instance : (is : List Input) → Decidable (LoadsFirst is)
  | [] => inferInstanceAs (Decidable False)
  | i :: is =>
    inferInstanceAs (Decidable (i.loadInitVect = true ∧ ∀ j ∈ is, j.loadInitVect = false))

theorem run_unloaded (pol crcQ : BitVec w) (is : List Input)
    (h : ∀ j ∈ is, j.loadInitVect = false) :
    run (cycle pol) crcQ is = (bitsTaken is).foldl (crcD pol) crcQ := by
  induction is generalizing crcQ with
  | nil => rfl
  | cons i is ih =>
    have hi := h i List.mem_cons_self
    rw [run, ih _ fun j hj => h j (List.mem_cons_of_mem i hj)]
    by_cases ht : (i.enable && i.trig) = true
    · simp [bitsTaken, ht, cycle, step, hi]
    · simp [bitsTaken, ht, cycle, step, hi]

/-- After the load the register is a function of the bits taken in. -/
theorem run_loaded (pol crcQ : BitVec w) (i : Input) (is : List Input)
    (h : LoadsFirst (i :: is)) :
    run (cycle pol) crcQ (i :: is) = ofBits pol i.initVectMsb (bitsTaken is) := by
  rw [run, run_unloaded pol _ is h.2, cycle, step, if_pos h.1, ofBits]

/-! ## Division -/

/-- One bit: the register is multiplied by `X`, the bit is added at the top, and the generator
is subtracted if the leading coefficient is set. -/
theorem ofBitVec_crcD (pol crcQ : BitVec w) (b : Bool) :
    ofBitVec (crcD pol crcQ b) =
      ofBitVec crcQ * X + C (coef b) * X ^ w + C (coef (b ^^ crcQ.msb)) * generator pol := by
  have hstep : ofBitVec (crcD pol crcQ b) =
      ofBitVec (crcQ <<< 1) + C (coef (b ^^ crcQ.msb)) * ofBitVec pol := by
    cases hd : b ^^ crcQ.msb <;> simp [crcD, hd, ofBitVec_xor]
  have hself : C (coef b) + C (coef b) = 0 := CharTwo.add_self_eq_zero _
  rw [hstep, ofBitVec_shiftLeft, generator, coef_xor, C_add]
  linear_combination -X ^ w * hself

theorem generator_dvd_crcD (pol crcQ : BitVec w) (b : Bool) :
    generator pol ∣ ofBitVec (crcD pol crcQ b) - (ofBitVec crcQ * X + C (coef b) * X ^ w) := by
  rw [ofBitVec_crcD, add_sub_cancel_left]
  exact dvd_mul_left _ _

theorem foldl_crcD (pol crcQ : BitVec w) (bits : List Bool) :
    ofBitVec (bits.foldl (crcD pol) crcQ) =
      (message bits * X ^ w + ofBitVec crcQ * X ^ bits.length) %ₘ generator pol :=
  foldl_remainder (generator_monic pol)
    (fun r => by rw [degree_generator]; exact degree_ofBitVec_lt r)
    (generator_dvd_crcD pol) bits crcQ

theorem ofBits_remainder (pol : BitVec w) (msb : Bool) (bits : List Bool) :
    ofBitVec (ofBits pol msb bits) =
      (message bits * X ^ w + ofBitVec (initVect w msb) * X ^ bits.length) %ₘ generator pol :=
  foldl_crcD pol _ bits

/-- Whatever the register held before, a burst no longer than it is seen. -/
theorem foldl_crcD_ne {pol : BitVec w} (hpol : coef (pol.getLsbD 0) = 1) (hw : 0 < w)
    (crcQ : BitVec w) {as bs : List Bool} (hlen : as.length = bs.length) (hne : as ≠ bs)
    (hwin : DifferWithin w as bs) : as.foldl (crcD pol) crcQ ≠ bs.foldl (crcD pol) crcQ := by
  intro heq
  have hconst : (generator pol).coeff 0 = 1 := by
    simp [generator, coeff_X_pow, hpol, hw.ne]
  refine remainder_ne_of_differWithin (n := w) (generator_monic pol) hconst hlen hne
    (by rwa [natDegree_generator]) (ofBitVec crcQ * X ^ as.length) ?_
  rw [← foldl_crcD, heq, foldl_crcD, hlen]

end CrcCalc

/-! ## The three instances in `can_crc` -/

namespace CanCore.CanCrc

/-- The instances of `crc_calc`. -/
inductive Instance where
  | crc15
  | crc17
  | crc21
deriving DecidableEq, Repr

namespace Instance

/-- `G_CRC_WIDTH`. -/
def width : Instance → Nat
  | .crc15 => 15
  | .crc17 => 17
  | .crc21 => 21

/-- `G_POLYNOMIAL`, as wide as `G_CRC21_POL`. -/
def polynomial : Instance → BitVec 24
  | .crc15 => 0xC599#24
  | .crc17 => 0x3685B#24
  | .crc21 => 0x302899#24

/-- `G_POLYNOMIAL(G_CRC_WIDTH - 1 downto 0)`. -/
def lowPolynomial (k : Instance) : BitVec k.width := k.polynomial.setWidth k.width

/-- The generator polynomial. -/
noncomputable def divisor (k : Instance) : (ZMod 2)[X] := ofBitVec k.polynomial

/-- The bit that `crc_calc` leaves out is the leading one. -/
theorem generator_low (k : Instance) : generator k.lowPolynomial = k.divisor := by
  ext j
  simp only [generator, divisor, coeff_add, coeff_X_pow, coeff_ofBitVec]
  by_cases hj : j < 24
  · have hbits : ∀ j < 24, (if j = k.width then 1 else 0) + coef (k.lowPolynomial.getLsbD j) =
        coef (k.polynomial.getLsbD j) := by
      cases k <;> decide
    exact hbits j hj
  · have hw : k.width < 24 := by cases k <;> decide
    rw [BitVec.getLsbD_of_ge _ j (by omega), BitVec.getLsbD_of_ge _ j (by omega)]
    simp [show j ≠ k.width by omega]

theorem lowPolynomial_const (k : Instance) : coef (k.lowPolynomial.getLsbD 0) = 1 := by
  cases k <;> decide

end Instance

/-- The register of each instance holds the remainder of the bits taken in since the load. -/
theorem crc_register_remainder (k : Instance) (crcQ : BitVec k.width) (i : CrcCalc.Input)
    (is : List CrcCalc.Input) (h : CrcCalc.LoadsFirst (i :: is)) :
    ofBitVec (run (CrcCalc.cycle k.lowPolynomial) crcQ (i :: is)) =
      (message (CrcCalc.bitsTaken is) * X ^ k.width +
        ofBitVec (CrcCalc.initVect k.width i.initVectMsb) *
          X ^ (CrcCalc.bitsTaken is).length) %ₘ k.divisor := by
  rw [CrcCalc.run_loaded _ _ i is h, CrcCalc.ofBits_remainder, k.generator_low]

/-- A load, a bit, a cycle without trigger, and another bit. -/
def twoBits : List CrcCalc.Input :=
  [⟨true, false, true, true, true⟩, ⟨true, true, true, true, false⟩,
    ⟨true, false, true, true, false⟩, ⟨false, true, true, true, false⟩]

theorem crc_register_remainder_twoBits :
    CrcCalc.LoadsFirst twoBits ∧
      ofBitVec (run (CrcCalc.cycle Instance.crc17.lowPolynomial) 5#17 twoBits) =
        (message [true, false] * X ^ 17 + ofBitVec (BitVec.twoPow 17 16) * X ^ 2) %ₘ
          Instance.crc17.divisor :=
  ⟨by decide, crc_register_remainder .crc17 5#17 _ _ (by decide)⟩

/-- Two runs that load the same initial value and take in strings which differ only within a
window no longer than the register end with different values. -/
theorem crc_burst_detected (k : Instance) (crcQ crcQ' : BitVec k.width) (i j : CrcCalc.Input)
    (is js : List CrcCalc.Input) (hi : CrcCalc.LoadsFirst (i :: is))
    (hj : CrcCalc.LoadsFirst (j :: js)) (hinit : i.initVectMsb = j.initVectMsb)
    (hlen : (CrcCalc.bitsTaken is).length = (CrcCalc.bitsTaken js).length)
    (hne : CrcCalc.bitsTaken is ≠ CrcCalc.bitsTaken js)
    (hwin : DifferWithin k.width (CrcCalc.bitsTaken is) (CrcCalc.bitsTaken js)) :
    run (CrcCalc.cycle k.lowPolynomial) crcQ (i :: is) ≠
      run (CrcCalc.cycle k.lowPolynomial) crcQ' (j :: js) := by
  rw [CrcCalc.run_loaded _ _ i is hi, CrcCalc.run_loaded _ _ j js hj, hinit]
  have hw : 0 < k.width := by cases k <;> decide
  exact CrcCalc.foldl_crcD_ne k.lowPolynomial_const hw _ hlen hne hwin

/-- Each bit has a cycle without trigger behind it. -/
def takenIn (bits : List Bool) : List CrcCalc.Input :=
  bits.flatMap fun b => [⟨b, true, true, true, false⟩, ⟨b, false, true, true, false⟩]

def messageSent : List Bool :=
  [false, true, false, true, true, false, false, true, false, true, false, true,
    true, true, false, false, true, false, true, false, true, true, false, true]

/-- Four bits of it are wrong, the first and the last of them seventeen bits apart. -/
def messageSeen : List Bool :=
  [false, true, false, true, false, false, false, true, false, false, false, true,
    true, true, false, true, true, false, true, false, false, true, false, true]

theorem crc_burst_detected_seventeen :
    DifferWithin 17 messageSent messageSeen ∧
      run (CrcCalc.cycle Instance.crc17.lowPolynomial) 5#17
          (⟨false, false, true, true, true⟩ :: takenIn messageSent) ≠
        run (CrcCalc.cycle Instance.crc17.lowPolynomial) 0#17
          (⟨true, false, true, true, true⟩ :: takenIn messageSeen) := by
  have hwin : DifferWithin 17 messageSent messageSeen := by
    refine ⟨4, fun k hk => ?_⟩
    have hlt : k < 24 := by
      by_contra hge
      rw [List.getElem?_eq_none (by simpa [messageSent] using hge),
        List.getElem?_eq_none (by simpa [messageSeen] using hge)] at hk
      exact hk rfl
    have hall : ∀ k < 24, messageSent[k]? ≠ messageSeen[k]? → 4 ≤ k ∧ k < 4 + 17 := by decide
    exact hall k hlt hk
  exact ⟨hwin, crc_burst_detected .crc17 5 0 _ _ _ _ (by decide) (by decide) rfl rfl (by decide)
    hwin⟩

/-! ## In the core -/

/-- The bits taken in since the last load, without and with stuff bits. -/
structure TakenBits where
  nbs : List Bool
  wbs : List Bool
deriving DecidableEq, Repr

def TakenBits.next (c : ProtocolControl.Config) (t : TakenBits) (p : CrcCore) (i : Input) :
    TakenBits :=
  let i := p.input c i
  { nbs := taken (load c p.core i) (crcEna15 c p.core i) (crc15Trigger c p.core i)
      (crc15DataIn c p.core i) t.nbs
    wbs := taken (load c p.core i) (crcEna1721 c p.core i p.crc) (crc1721Trigger c p.core i p.crc)
      (crc1721DataIn c p.core i p.crc) t.wbs }

def takenStep (c : ProtocolControl.Config) : CrcCore × TakenBits → Input → CrcCore × TakenBits :=
  watched (CrcCore.step c) (TakenBits.next c)

/-- From the first load on, the registers of the core hold the CRC of the bits taken in. -/
theorem run_holds {c : ProtocolControl.Config} {p : CrcCore × TakenBits} {i : Input}
    (hload : load c p.1.core (p.1.input c i) = true) (is : List Input) :
    Holds c (run (takenStep c) p (i :: is)).1.crc (run (takenStep c) p (i :: is)).2.nbs
      (run (takenStep c) p (i :: is)).2.wbs := by
  have hfirst : Holds c (takenStep c p i).1.crc (takenStep c p i).2.nbs
      (takenStep c p i).2.wbs := by
    have hn : (takenStep c p i).2 = ⟨[], []⟩ := by
      simp [takenStep, watched, TakenBits.next, hload, taken]
    rw [hn]
    exact Holds.of_load hload
  exact run_invariant (takenStep c) (fun _ _ => True)
    (fun p => Holds c p.1.crc p.2.nbs p.2.wbs) (fun _ _ h _ => h.next) hfirst is
    (admits_true _ _ is)

/-- In every run of the core the three registers hold the remainders of the bits taken in since
the last load. -/
theorem core_remainders {c : ProtocolControl.Config} {p : CrcCore × TakenBits} {i : Input}
    (hload : load c p.1.core (p.1.input c i) = true) (is : List Input) :
    let q := run (takenStep c) p (i :: is)
    ofBitVec q.1.crc.crc15 = message q.2.nbs * X ^ 15 %ₘ Instance.crc15.divisor ∧
      ofBitVec q.1.crc.crc17 = (message q.2.wbs * X ^ 17 +
        ofBitVec (CrcCalc.initVect 17 (!c.mrSettingsNisofd)) * X ^ q.2.wbs.length) %ₘ
          Instance.crc17.divisor ∧
      ofBitVec q.1.crc.crc21 = (message q.2.wbs * X ^ 21 +
        ofBitVec (CrcCalc.initVect 21 (!c.mrSettingsNisofd)) * X ^ q.2.wbs.length) %ₘ
          Instance.crc21.divisor := by
  obtain ⟨h15, h17, h21⟩ := run_holds hload is
  have hzero : ofBitVec (0 : BitVec 15) = 0 := by
    ext j
    simp
  refine ⟨?_, ?_, ?_⟩
  · rw [h15, CrcCalc.ofBits_remainder, CrcCalc.initVect, if_neg Bool.false_ne_true, hzero,
      zero_mul, add_zero, ← Instance.generator_low]
    rfl
  · rw [h17, CrcCalc.ofBits_remainder, ← Instance.generator_low]
    rfl
  · rw [h21, CrcCalc.ofBits_remainder, ← Instance.generator_low]
    rfl

end CanCore.CanCrc
