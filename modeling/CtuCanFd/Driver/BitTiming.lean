import CtuCanFd.Lib.RegisterField
import CtuCanFd.Prescaler.Resync

/-!
# Bit timing set by the driver

`can_fixup_bittiming` checks the parameters of a bit timing against the limits of the driver
and computes the bit rate prescaler. `ctucan_set_btr` moves what does not fit into the first
phase segment to the propagation segment, and writes the register of the nominal or of the
data bit time. The limits are on the sum of both segments only, and nothing is moved in the
other direction.
-/

namespace Driver

open Prescaler (MinLengths bitShape trigger Quiet Enabled)
open SyncMachine (Admits Forecast run)

/-- `struct can_bittiming`. -/
structure BitTiming where
  bitrate : BitVec 32
  samplePoint : BitVec 32
  tq : BitVec 32
  propSeg : BitVec 32
  phaseSeg1 : BitVec 32
  phaseSeg2 : BitVec 32
  sjw : BitVec 32
  brp : BitVec 32
deriving DecidableEq, Repr

/-- `struct can_bittiming_const`. -/
structure BitTimingConst where
  tseg1Min : BitVec 32
  tseg1Max : BitVec 32
  tseg2Min : BitVec 32
  tseg2Max : BitVec 32
  sjwMax : BitVec 32
  brpMin : BitVec 32
  brpMax : BitVec 32
  brpInc : BitVec 32

/-- `ctu_can_fd_bit_timing_max` and `ctu_can_fd_bit_timing_data_max`. -/
def bitTimingMax : BitRate → BitTimingConst
  | .nominal => ⟨2, 190, 1, 63, 31, 1, 8, 1⟩
  | .data => ⟨2, 94, 1, 31, 31, 1, 2, 1⟩

inductive Errno where
  | erange
  | einval
  | eperm
deriving DecidableEq, Repr

/-- The practicable prescaler for a time quantum in nanoseconds. -/
def practicableBrp (freq tq inc : BitVec 32) : BitVec 32 :=
  let clocks : BitVec 64 := freq.zeroExtend 64 * tq.zeroExtend 64
  let clocks := if 1 < inc then clocks / inc.zeroExtend 64 else clocks
  let brp64 := (clocks + (500000000 - 1)) / 1000000000
  let brp64 := if 1 < inc then brp64 * inc.zeroExtend 64 else brp64
  brp64.truncate 32

def defaultSjw (sjw : BitVec 32) : BitVec 32 := if sjw = 0 then 1 else sjw

/-- `can_fixup_bittiming`; the sum of the segments wraps. -/
def fixupBittiming (freq : BitVec 32) (btc : BitTimingConst) (bt : BitTiming) :
    Except Errno BitTiming :=
  let tseg1 := bt.propSeg + bt.phaseSeg1
  let sjw := defaultSjw bt.sjw
  if btc.sjwMax < sjw ∨ tseg1 < btc.tseg1Min ∨ btc.tseg1Max < tseg1 ∨
      bt.phaseSeg2 < btc.tseg2Min ∨ btc.tseg2Max < bt.phaseSeg2 then
    .error .erange
  else
    let brp := practicableBrp freq bt.tq btc.brpInc
    if brp < btc.brpMin ∨ btc.brpMax < brp then .error .einval
    else
      let alltseg := bt.propSeg + bt.phaseSeg1 + bt.phaseSeg2 + 1
      .ok { bt with
        sjw
        brp
        bitrate := freq / (brp * alltseg)
        samplePoint := (tseg1 + 1) * 1000 / alltseg }

/-- Fields of BTR or BTR_FD. -/
structure BtrFields where
  prop : RegisterField
  ph1 : RegisterField
  ph2 : RegisterField
  brp : RegisterField
  sjw : RegisterField

def btrFields : BitRate → BtrFields
  | .nominal => ⟨⟨0, 7⟩, ⟨7, 6⟩, ⟨13, 6⟩, ⟨19, 8⟩, ⟨27, 5⟩⟩
  | .data => ⟨⟨0, 6⟩, ⟨7, 5⟩, ⟨13, 5⟩, ⟨19, 8⟩, ⟨27, 5⟩⟩

def maxPh1Len : BitRate → BitVec 32
  | .nominal => 63
  | .data => 31

/-- What does not fit into the first phase segment goes to the propagation segment. -/
def redistribute (r : BitRate) (bt : BitTiming) : BitTiming :=
  if maxPh1Len r < bt.phaseSeg1 then
    { bt with
      propSeg := bt.propSeg + (bt.phaseSeg1 - maxPh1Len r)
      phaseSeg1 := maxPh1Len r }
  else bt

def btrWord (f : BtrFields) (bt : BitTiming) : BitVec 32 :=
  f.prop.prep bt.propSeg ||| f.ph1.prep bt.phaseSeg1 ||| f.ph2.prep bt.phaseSeg2 |||
    f.brp.prep bt.brp ||| f.sjw.prep bt.sjw

/-- `ctucan_set_btr`: the timing as it is kept and the word that is written. -/
def setBtr (enabled : Bool) (r : BitRate) (bt : BitTiming) : Except Errno (BitTiming × BitVec 32) :=
  if enabled then .error .eperm
  else .ok (redistribute r bt, btrWord (btrFields r) (redistribute r bt))

/-- A write to BTR or BTR_FD. -/
def writeBtr (w : BitVec 32) (b : Btr) : BitRate → Btr
  | .nominal =>
    { b with
      prop := w.extractLsb' 0 7
      ph1 := w.extractLsb' 7 6
      ph2 := w.extractLsb' 13 6
      brp := w.extractLsb' 19 8
      sjw := w.extractLsb' 27 5 }
  | .data =>
    { b with
      propFd := w.extractLsb' 0 6
      ph1Fd := w.extractLsb' 7 5
      ph2Fd := w.extractLsb' 13 5
      brpFd := w.extractLsb' 19 8
      sjwFd := w.extractLsb' 27 5 }

/-! ## What the controller reads from the register -/

section Word

variable (r : BitRate) (bt : BitTiming)

/-- The fields of the word hold the lower bits of the parameters. -/
theorem btrWord_fields :
    (btrWord (btrFields r) bt).extractLsb' (btrFields r).prop.low (btrFields r).prop.width =
        bt.propSeg.truncate _ ∧
      (btrWord (btrFields r) bt).extractLsb' (btrFields r).ph1.low (btrFields r).ph1.width =
        bt.phaseSeg1.truncate _ ∧
      (btrWord (btrFields r) bt).extractLsb' (btrFields r).ph2.low (btrFields r).ph2.width =
        bt.phaseSeg2.truncate _ ∧
      (btrWord (btrFields r) bt).extractLsb' (btrFields r).brp.low (btrFields r).brp.width =
        bt.brp.truncate _ ∧
      (btrWord (btrFields r) bt).extractLsb' (btrFields r).sjw.low (btrFields r).sjw.width =
        bt.sjw.truncate _ := by
  simp (disch := (cases r <;> decide)) [btrWord, BitVec.extractLsb'_or,
    RegisterField.extract_prep, RegisterField.extract_prep_apart]

/-- The parameters fit into the fields of the register. -/
structure FitsBtr : Prop where
  prop : bt.propSeg.toNat < 2 ^ (btrFields r).prop.width
  ph1 : bt.phaseSeg1.toNat < 2 ^ (btrFields r).ph1.width
  ph2 : bt.phaseSeg2.toNat < 2 ^ (btrFields r).ph2.width
  brp : bt.brp.toNat < 2 ^ (btrFields r).brp.width
  sjw : bt.sjw.toNat < 2 ^ (btrFields r).sjw.width

/-- What the controller decodes: the lower bits of the parameters, the first two added. -/
theorem btrWord_decoded (b : Btr) :
    (writeBtr (btrWord (btrFields r) bt) b r).tseg1 r =
        (bt.propSeg.toNat % 2 ^ (btrFields r).prop.width +
          bt.phaseSeg1.toNat % 2 ^ (btrFields r).ph1.width + 1) %
            2 ^ ((btrFields r).prop.width + 1) ∧
      (writeBtr (btrWord (btrFields r) bt) b r).tseg2 r =
        bt.phaseSeg2.toNat % 2 ^ (btrFields r).ph2.width ∧
      (writeBtr (btrWord (btrFields r) bt) b r).brpOf r =
        bt.brp.toNat % 2 ^ (btrFields r).brp.width ∧
      (writeBtr (btrWord (btrFields r) bt) b r).sjwOf r =
        bt.sjw.toNat % 2 ^ (btrFields r).sjw.width := by
  obtain ⟨hprop, hph1, hph2, hbrp, hsjw⟩ := btrWord_fields r bt
  have eprop := congrArg BitVec.toNat hprop
  have eph1 := congrArg BitVec.toNat hph1
  have eph2 := congrArg BitVec.toNat hph2
  have ebrp := congrArg BitVec.toNat hbrp
  have esjw := congrArg BitVec.toNat hsjw
  rw [BitVec.truncate_eq_setWidth, BitVec.toNat_setWidth] at eprop eph1 eph2 ebrp esjw
  rw [← eprop, ← eph1, ← eph2, ← ebrp, ← esjw]
  cases r <;> exact ⟨rfl, rfl, rfl, rfl⟩

variable {r bt}

/-- The controller adds what the driver has split. -/
theorem FitsBtr.decoded (h : FitsBtr r bt) (b : Btr) :
    (writeBtr (btrWord (btrFields r) bt) b r).tseg1 r =
        bt.propSeg.toNat + bt.phaseSeg1.toNat + 1 ∧
      (writeBtr (btrWord (btrFields r) bt) b r).tseg2 r = bt.phaseSeg2.toNat ∧
      (writeBtr (btrWord (btrFields r) bt) b r).brpOf r = bt.brp.toNat ∧
      (writeBtr (btrWord (btrFields r) bt) b r).sjwOf r = bt.sjw.toNat := by
  obtain ⟨d1, d2, d3, d4⟩ := btrWord_decoded r bt b
  obtain ⟨lprop, lph1, lph2, lbrp, lsjw⟩ := h
  rw [Nat.mod_eq_of_lt lprop, Nat.mod_eq_of_lt lph1] at d1
  rw [Nat.mod_eq_of_lt lph2] at d2
  rw [Nat.mod_eq_of_lt lbrp] at d3
  rw [Nat.mod_eq_of_lt lsjw] at d4
  refine ⟨d1.trans (Nat.mod_eq_of_lt ?_), d2, d3, d4⟩
  cases r <;> simp only [btrFields] at lprop lph1 ⊢ <;> omega

end Word

/-! ## What the fix-up accepts -/

/-- A bit timing within the limits. -/
structure WithinLimits (btc : BitTimingConst) (bt : BitTiming) : Prop where
  tseg1 : btc.tseg1Min ≤ bt.propSeg + bt.phaseSeg1 ∧ bt.propSeg + bt.phaseSeg1 ≤ btc.tseg1Max
  tseg2 : btc.tseg2Min ≤ bt.phaseSeg2 ∧ bt.phaseSeg2 ≤ btc.tseg2Max
  sjw : 1 ≤ bt.sjw ∧ bt.sjw ≤ btc.sjwMax
  brp : btc.brpMin ≤ bt.brp ∧ bt.brp ≤ btc.brpMax

theorem one_le_defaultSjw (sjw : BitVec 32) : 1 ≤ defaultSjw sjw := by
  unfold defaultSjw
  split_ifs with h
  · decide
  · rw [BitVec.le_def]
    have : sjw.toNat ≠ 0 := fun h0 => h (BitVec.eq_of_toNat_eq h0)
    exact Nat.one_le_iff_ne_zero.mpr this

theorem fixup_withinLimits {freq : BitVec 32} {btc : BitTimingConst} {bt bt' : BitTiming}
    (h : fixupBittiming freq btc bt = .ok bt') : WithinLimits btc bt' := by
  unfold fixupBittiming at h
  simp only at h
  split at h
  · cases h
  · rename_i hrange
    split at h
    · cases h
    · rename_i hbrp
      cases h
      simp only [not_or, BitVec.not_lt] at hrange hbrp
      exact ⟨⟨hrange.2.1, hrange.2.2.1⟩, ⟨hrange.2.2.2.1, hrange.2.2.2.2⟩,
        ⟨one_le_defaultSjw bt.sjw, hrange.1⟩, hbrp⟩

/-- What the limits do not say: the propagation segment fits into its field, the sum of the
segments does not wrap, and the second phase segment takes two clock cycles. -/
structure Representable (r : BitRate) (bt : BitTiming) : Prop where
  prop : bt.propSeg.toNat < 2 ^ (btrFields r).prop.width
  sum : bt.propSeg.toNat + bt.phaseSeg1.toNat < 2 ^ 32
  ph2 : 2 ≤ bt.phaseSeg2.toNat * bt.brp.toNat

section Accepted

variable {r : BitRate} {bt : BitTiming} (hlim : WithinLimits (bitTimingMax r) bt)
  (hrep : Representable r bt)

include hlim hrep

theorem tseg1_le : 2 ≤ bt.propSeg.toNat + bt.phaseSeg1.toNat ∧
    bt.propSeg.toNat + bt.phaseSeg1.toNat ≤ (bitTimingMax r).tseg1Max.toNat := by
  obtain ⟨hmin, hmax⟩ := hlim.tseg1
  rw [BitVec.le_def, BitVec.toNat_add, Nat.mod_eq_of_lt hrep.sum] at hmin hmax
  refine ⟨?_, hmax⟩
  cases r <;> exact hmin

omit hlim hrep in
/-- The limits of the driver are those of the fields. -/
theorem limits_fit (r : BitRate) :
    (maxPh1Len r).toNat < 2 ^ (btrFields r).ph1.width ∧
      (bitTimingMax r).tseg1Max.toNat < 2 ^ (btrFields r).prop.width + (maxPh1Len r).toNat ∧
      (bitTimingMax r).tseg2Max.toNat < 2 ^ (btrFields r).ph2.width ∧
      (bitTimingMax r).brpMax.toNat < 2 ^ (btrFields r).brp.width ∧
      (bitTimingMax r).sjwMax.toNat < 2 ^ (btrFields r).sjw.width := by
  cases r <;> decide

/-- Moving the rest of the first phase segment keeps the sum and makes both segments fit. -/
theorem redistribute_spec :
    (redistribute r bt).propSeg.toNat + (redistribute r bt).phaseSeg1.toNat =
        bt.propSeg.toNat + bt.phaseSeg1.toNat ∧
      FitsBtr r (redistribute r bt) := by
  obtain ⟨hmax, htseg1, htseg2, hbrp, hsjw⟩ := limits_fit r
  have hsum := (tseg1_le hlim hrep).2
  have hph2 := (BitVec.le_def.mp hlim.tseg2.2).trans_lt htseg2
  have hbrp := (BitVec.le_def.mp hlim.brp.2).trans_lt hbrp
  have hsjw := (BitVec.le_def.mp hlim.sjw.2).trans_lt hsjw
  unfold redistribute
  split_ifs with h
  · rw [BitVec.lt_def] at h
    have hwrap := hrep.sum
    have hsub : (bt.phaseSeg1 - maxPh1Len r).toNat = bt.phaseSeg1.toNat - (maxPh1Len r).toNat :=
      BitVec.toNat_sub_of_le (BitVec.le_def.mpr h.le)
    have hadd : (bt.propSeg + (bt.phaseSeg1 - maxPh1Len r)).toNat =
        bt.propSeg.toNat + (bt.phaseSeg1.toNat - (maxPh1Len r).toNat) := by
      rw [BitVec.toNat_add, hsub]
      omega
    refine ⟨?_, ?_, hmax, hph2, hbrp, hsjw⟩
    · show (bt.propSeg + (bt.phaseSeg1 - maxPh1Len r)).toNat + (maxPh1Len r).toNat = _
      omega
    · show (bt.propSeg + (bt.phaseSeg1 - maxPh1Len r)).toNat < _
      omega
  · rw [BitVec.not_lt, BitVec.le_def] at h
    exact ⟨rfl, hrep.prop, h.trans_lt hmax, hph2, hbrp, hsjw⟩

omit hlim hrep in
theorem redistribute_rest (r : BitRate) (bt : BitTiming) :
    (redistribute r bt).phaseSeg2 = bt.phaseSeg2 ∧ (redistribute r bt).brp = bt.brp ∧
      (redistribute r bt).sjw = bt.sjw := by
  unfold redistribute
  split_ifs <;> exact ⟨rfl, rfl, rfl⟩

/-- Segment lengths that the controller has after the write. -/
theorem decoded_lengths (b : Btr) :
    let b' := writeBtr (btrWord (btrFields r) (redistribute r bt)) b r
    b'.tseg1 r = 1 + bt.propSeg.toNat + bt.phaseSeg1.toNat ∧ b'.tseg2 r = bt.phaseSeg2.toNat ∧
      b'.brpOf r = bt.brp.toNat ∧ b'.sjwOf r = bt.sjw.toNat := by
  obtain ⟨hsum, hfits⟩ := redistribute_spec hlim hrep
  obtain ⟨hph2, hbrp, hsjw⟩ := redistribute_rest r bt
  obtain ⟨d1, d2, d3, d4⟩ := hfits.decoded b
  refine ⟨?_, by rw [d2, hph2], by rw [d3, hbrp], by rw [d4, hsjw]⟩
  rw [d1, hsum]
  omega

/-- Every accepted timing that is representable has segments of the asserted lengths. -/
theorem accepted_lengths (b : Btr) :
    let b' := writeBtr (btrWord (btrFields r) (redistribute r bt)) b r
    MinLengths b' r ∧ Prescaler.Limits b' r := by
  obtain ⟨h1, h2, hp, hs⟩ := decoded_lengths hlim hrep b
  have hsum := (tseg1_le hlim hrep).1
  have hph2 := hrep.ph2
  have hsjw : 1 ≤ bt.sjw.toNat := BitVec.le_def.mp hlim.sjw.1
  have hbrp : 1 ≤ bt.brp.toNat := by
    have := BitVec.le_def.mp hlim.brp.1
    cases r <;> exact this
  have htseg2 : 1 ≤ bt.phaseSeg2.toNat := by
    have := BitVec.le_def.mp hlim.tseg2.1
    cases r <;> exact this
  refine ⟨⟨?_, ?_⟩, ⟨?_, ?_, ?_, ?_⟩⟩
  · rw [h1, hp]
    calc 2 < 3 * 1 := by decide
      _ ≤ (1 + bt.propSeg.toNat + bt.phaseSeg1.toNat) * bt.brp.toNat :=
        Nat.mul_le_mul (by omega) hbrp
  · rw [h2, hp]
    exact hph2
  · rw [h1]
    omega
  · rwa [h2]
  · rwa [hs]
  · rwa [hp]

end Accepted

section Converse

variable {r : BitRate} {bt : BitTiming} (hlim : WithinLimits (bitTimingMax r) bt)

include hlim

theorem brp_decoded (b : Btr) :
    1 ≤ bt.brp.toNat ∧
      (writeBtr (btrWord (btrFields r) (redistribute r bt)) b r).brpOf r = bt.brp.toNat := by
  obtain ⟨-, -, -, hbrp, -⟩ := limits_fit r
  have hlow := BitVec.le_def.mp hlim.brp.1
  have hfit := (BitVec.le_def.mp hlim.brp.2).trans_lt hbrp
  refine ⟨?_, ?_⟩
  · cases r <;> exact hlow
  · rw [(btrWord_decoded r _ b).2.2.1, (redistribute_rest r bt).2.1, Nat.mod_eq_of_lt hfit]

/-- A propagation segment that does not fit leaves nothing to move, and is cut. -/
theorem prop_fits {b : Btr}
    (h : (writeBtr (btrWord (btrFields r) (redistribute r bt)) b r).tseg1 r =
      1 + bt.propSeg.toNat + bt.phaseSeg1.toNat) :
    bt.propSeg.toNat < 2 ^ (btrFields r).prop.width ∧
      bt.propSeg.toNat + bt.phaseSeg1.toNat < 2 ^ 32 := by
  obtain ⟨-, htseg1, -⟩ := limits_fit r
  have hdec := (btrWord_decoded r (redistribute r bt) b).1
  have hsum : bt.propSeg.toNat + bt.phaseSeg1.toNat < 2 ^ 32 := by
    have hwidth : (btrFields r).prop.width + 1 ≤ 8 := by cases r <;> decide
    have hpow : 2 ^ ((btrFields r).prop.width + 1) ≤ 2 ^ 8 :=
      Nat.pow_le_pow_right (by decide) hwidth
    have hlt := Nat.mod_lt ((redistribute r bt).propSeg.toNat % 2 ^ (btrFields r).prop.width +
      (redistribute r bt).phaseSeg1.toNat % 2 ^ (btrFields r).ph1.width + 1)
      (Nat.two_pow_pos ((btrFields r).prop.width + 1))
    rw [← hdec, h] at hlt
    omega
  refine ⟨?_, hsum⟩
  have hmax := hlim.tseg1.2
  rw [BitVec.le_def, BitVec.toNat_add, Nat.mod_eq_of_lt hsum] at hmax
  by_contra hlong
  have hkept : redistribute r bt = bt := by
    rw [redistribute, if_neg]
    rw [BitVec.not_lt, BitVec.le_def]
    omega
  rw [h, hkept] at hdec
  have hle := Nat.mod_le (bt.propSeg.toNat % 2 ^ (btrFields r).prop.width +
    bt.phaseSeg1.toNat % 2 ^ (btrFields r).ph1.width + 1) (2 ^ ((btrFields r).prop.width + 1))
  have hcut := Nat.mod_lt bt.propSeg.toNat (Nat.two_pow_pos (btrFields r).prop.width)
  have hph1 := Nat.mod_le bt.phaseSeg1.toNat (2 ^ (btrFields r).ph1.width)
  omega

end Converse

/-- Clock cycles of a bit and up to its sample point. -/
def bitClocks (bt : BitTiming) : Nat :=
  (1 + bt.propSeg.toNat + bt.phaseSeg1.toNat + bt.phaseSeg2.toNat) * bt.brp.toNat

def sampleClocks (bt : BitTiming) : Nat :=
  (1 + bt.propSeg.toNat + bt.phaseSeg1.toNat) * bt.brp.toNat

/-- The registers hold the bit of a timing, with segments of the asserted lengths. -/
structure Decodes (b : Btr) (r : BitRate) (bt : BitTiming) : Prop where
  sample : b.tseg1 r * b.brpOf r = sampleClocks bt
  bit : (b.tseg1 r + b.tseg2 r) * b.brpOf r = bitClocks bt
  lengths : MinLengths b r

/-- In every run of the enabled controller, a bit without an edge has `m` clock cycles to its
sample point and `n` cycles after it. -/
def RegularBits (b : Btr) (r : BitRate) (m n : Nat) : Prop :=
  ∀ is i, Admits (Prescaler.step b) Enabled Prescaler.reset is →
    let s := run (Prescaler.step b) Prescaler.reset is
    Quiet b r s i → s.bitTime = .tseg2 → trigger b s i = .bitStart →
    Forecast (Prescaler.step b) (Quiet b r) (trigger b) (bitShape m n) (fun _ => True)
      (Prescaler.step b s i)

theorem decodes_iff {r : BitRate} {bt : BitTiming} (hlim : WithinLimits (bitTimingMax r) bt)
    (b : Btr) :
    Decodes (writeBtr (btrWord (btrFields r) (redistribute r bt)) b r) r bt ↔
      Representable r bt := by
  constructor
  · rintro ⟨hsample, hbit, hlengths⟩
    obtain ⟨hpos, hbrp⟩ := brp_decoded hlim b
    have htseg1 := hsample
    rw [hbrp, sampleClocks] at htseg1
    obtain ⟨hprop, hsum⟩ := prop_fits hlim (Nat.eq_of_mul_eq_mul_right hpos htseg1)
    refine ⟨hprop, hsum, ?_⟩
    have hph2 := hlengths.tseg2
    rw [Nat.add_mul, hsample, hbrp] at hbit
    rw [hbrp] at hph2
    have hall : bitClocks bt = sampleClocks bt + bt.phaseSeg2.toNat * bt.brp.toNat :=
      Nat.add_mul _ _ _
    omega
  · intro hrep
    obtain ⟨h1, h2, hp, -⟩ := decoded_lengths hlim hrep b
    exact ⟨by rw [h1, hp, sampleClocks], by rw [h1, h2, hp, bitClocks],
      (accepted_lengths hlim hrep b).1⟩

/-- After an accepted timing has been written, the registers hold the bit of the timing exactly
if it is representable, whatever else is in them, and then the bits of the controller have the
length and the sample point of the timing. -/
theorem bit_timing_agrees (freq : BitVec 32) (r : BitRate) (bt bt' : BitTiming) (b : Btr)
    (hfix : fixupBittiming freq (bitTimingMax r) bt = .ok bt') :
    ∃ kept w, setBtr false r bt' = .ok (kept, w) ∧
      (Decodes (writeBtr w b r) r bt' ↔ Representable r bt') ∧
      (Representable r bt' → sampleClocks bt' < bitClocks bt' ∧
        RegularBits (writeBtr w b r) r (sampleClocks bt')
          (bitClocks bt' - sampleClocks bt')) := by
  have hlim := fixup_withinLimits hfix
  refine ⟨redistribute r bt', btrWord (btrFields r) (redistribute r bt'), rfl,
    decodes_iff hlim b, fun hrep => ?_⟩
  obtain ⟨hmin, hlimits⟩ := accepted_lengths hlim hrep b
  obtain ⟨h1, h2, hp, -⟩ := decoded_lengths hlim hrep b
  have hph2 := hrep.ph2
  have hbit : bitClocks bt' = sampleClocks bt' + bt'.phaseSeg2.toNat * bt'.brp.toNat :=
    Nat.add_mul _ _ _
  refine ⟨by omega, ?_⟩
  intro is i his s hi ht htr
  have hfree := Prescaler.free_law hlimits (Prescaler.run_up hmin.brp_pos is his) hi ht htr
  rw [h1, h2, hp] at hfree
  rwa [hbit, Nat.add_sub_cancel_left]

/-! ### Timings of a 100 MHz clock -/

/-- Parameters in quanta of 10 ns. -/
def timing (propSeg phaseSeg1 phaseSeg2 : BitVec 32) : BitTiming :=
  ⟨0, 0, 10, propSeg, phaseSeg1, phaseSeg2, 1, 0⟩

/-- BTR and BTR_FD after reset. -/
def resetBtr : Btr := ⟨5, 3, 5, 10, 2, 3, 3, 3, 4, 2⟩

theorem bit_timing_agrees_split :
    ∃ kept w, setBtr false .nominal ⟨400000, 760, 10, 95, 94, 60, 1, 1⟩ = .ok (kept, w) ∧
      Decodes (writeBtr w resetBtr .nominal) .nominal ⟨400000, 760, 10, 95, 94, 60, 1, 1⟩ := by
  obtain ⟨kept, w, hset, hiff, -⟩ := bit_timing_agrees 100000000 .nominal (timing 95 94 60)
    ⟨400000, 760, 10, 95, 94, 60, 1, 1⟩ resetBtr (by decide)
  exact ⟨kept, w, hset, hiff.mpr ⟨by decide, by decide, by decide⟩⟩

/-- A long propagation segment loses its highest bit, and a second phase segment of one clock
cycle is accepted. -/
theorem bit_timing_cut :
    (∃ bt' kept w, fixupBittiming 100000000 (bitTimingMax .nominal) (timing 190 0 60) = .ok bt' ∧
      setBtr false .nominal bt' = .ok (kept, w) ∧ bt'.propSeg.toNat + bt'.phaseSeg1.toNat = 190 ∧
      (writeBtr w resetBtr .nominal).tseg1 .nominal = 63) ∧
    ∃ bt' kept w, fixupBittiming 100000000 (bitTimingMax .nominal) (timing 1 1 1) = .ok bt' ∧
      setBtr false .nominal bt' = .ok (kept, w) ∧
      (writeBtr w resetBtr .nominal).tseg2 .nominal *
        (writeBtr w resetBtr .nominal).brpOf .nominal = 1 := by
  refine ⟨⟨_, _, _, rfl, rfl, ?_, ?_⟩, ⟨_, _, _, rfl, rfl, ?_⟩⟩ <;> decide

end Driver
