import CtuCanFd.Prescaler.Model
import Mathlib.Tactic.Ring
import Mathlib.Tactic.Linarith

/-!
# Segments

What one clock cycle does to the segment meter, the counters and the captured
end request of the bit time in use, and the invariant that every segment ends.
-/

open ProtocolControl (SpControl)

namespace Prescaler

variable {b : Btr} {s : State} {i : Input} {r : BitRate}

/-! ## Registers of one bit time -/

abbrev cnt (s : State) (r : BitRate) : Nat := (s.rate r).ctrs.segmCounterQ

abbrev tq (s : State) (r : BitRate) : Nat := (s.rate r).ctrs.tqCounterQ

abbrev len (s : State) (r : BitRate) : Nat := (s.rate r).expSegLengthQ

@[simp] theorem rate_step : (step b s i).rate r = stepRate b s i r := by
  cases r <;> rfl

theorem widths_exp (r : BitRate) : (widths r).exp = (widths r).bt + 1 := by cases r <;> rfl

theorem widths_e (r : BitRate) : (widths r).e = (widths r).bt := by cases r <;> rfl

theorem widths_eSjw (r : BitRate) : (widths r).eSjw = (widths r).bt := by cases r <;> rfl

/-- The counters are wide enough for the longest segment with its extension. -/
theorem length_fits (b : Btr) (r : BitRate) :
    b.tseg1 r + b.sjwOf r + 2 ≤ 2 ^ (widths r).bt ∧ b.tseg2 r + 2 ≤ 2 ^ (widths r).bt ∧
      b.sjwOf r + 2 ≤ 2 ^ (widths r).bt ∧ b.brpOf r < 2 ^ brpWidth := by
  have h1 := b.prop.isLt
  have h2 := b.ph1.isLt
  have h3 := b.ph2.isLt
  have h4 := b.sjw.isLt
  have h5 := b.propFd.isLt
  have h6 := b.ph1Fd.isLt
  have h7 := b.ph2Fd.isLt
  have h8 := b.sjwFd.isLt
  have h9 := b.brp.isLt
  have h10 := b.brpFd.isLt
  cases r <;> simp only [Btr.tseg1, Btr.tseg2, Btr.sjwOf, Btr.brpOf, widths, brpWidth] <;> omega

/-! ## Edges -/

/-- The synchronisation checker accepts the edge of this cycle. -/
def edgeUsed (b : Btr) (s : State) (i : Input) : Bool := resyncEdgeValid s i || hSyncValid b s i

theorem resync_hSync (h : resyncEdgeValid s i = true) : hSyncValid b s i = false := by
  simp only [resyncEdgeValid, resyncEdge, Bool.and_eq_true, beq_iff_eq] at h
  simp [hSyncValid, hSyncEdgeValid, hSyncEdge, h.1.1.2]

/-- A used edge sets the flag that keeps every later edge out. -/
theorem syncFlag_of_used (h : edgeUsed b s i = true) : (step b s i).syncFlag = true := by
  simp only [edgeUsed, Bool.or_eq_true] at h
  rcases h with h | h
  · simp only [resyncEdgeValid, Bool.and_eq_true] at h
    simp [step, nextSyncFlag, h.1.1]
  · simp only [hSyncValid, hSyncEdgeValid, Bool.and_eq_true] at h
    split at h
    · simp at h
    · simp only [Bool.and_eq_true] at h
      simp [step, nextSyncFlag, h.1.1]

theorem not_used_of_syncFlag (h : s.syncFlag = true) : edgeUsed b s i = false := by
  simp [edgeUsed, resyncEdgeValid, hSyncValid, hSyncEdgeValid, h]

/-! ## The segment end for the bit time in use -/

theorem tqActive_eq (hr : rateOf i.spControl = r) (r' : BitRate) :
    tqActive b s i r' = (r == r' && (s.rate r').ctrs.tqEdge (b.brpOf r')) := by
  rw [tqActive, hr]

theorem segmEndValid_eq (hr : rateOf i.spControl = r) :
    segmEndNbtDbtValid b s i =
      (segmEndReqCaptDq b s i r && (s.rate r).ctrs.tqEdge (b.brpOf r)) := by
  rw [segmEndNbtDbtValid, tqActive_eq hr, tqActive_eq hr]
  cases r <;> simp

theorem inTseg1 (ht : s.bitTime = .tseg1) : isTseg1 s = true ∧ isTseg2 s = false := by
  rw [isTseg1, isTseg2, ht]
  exact ⟨rfl, rfl⟩

theorem inTseg2 (ht : s.bitTime = .tseg2) : isTseg1 s = false ∧ isTseg2 s = true := by
  rw [isTseg1, isTseg2, ht]
  exact ⟨rfl, rfl⟩

theorem segmEnd_tseg1 (hr : rateOf i.spControl = r) (ht : s.bitTime = .tseg1) :
    segmEnd b s i = (exitSegmReq b s i r && (s.rate r).ctrs.tqEdge (b.brpOf r) &&
      !hSyncValid b s i) := by
  obtain ⟨h1, h2⟩ := inTseg1 ht
  simp [segmEnd, h1, h2, segmEndValid_eq hr, segmEndReqCaptDq]

theorem segmEnd_tseg2 (hr : rateOf i.spControl = r) (ht : s.bitTime = .tseg2) :
    segmEnd b s i = ((exitSegmReq b s i r || (s.rate r).segmEndReqCaptQ) &&
      (s.rate r).ctrs.tqEdge (b.brpOf r) || hSyncValid b s i) := by
  obtain ⟨h1, h2⟩ := inTseg2 ht
  simp [segmEnd, h1, h2, segmEndValid_eq hr, segmEndReqCaptDq]

theorem segmEnd_reset (ht : s.bitTime = .reset) : segmEnd b s i = false := by
  simp [segmEnd, isTseg1, isTseg2, ht]

/-! ## The phase error -/

theorem phaseErr_tseg2 (ht : s.bitTime = .tseg2) (hc : cnt s r ≤ b.tseg2 r) :
    BitSegmentMeter.phaseErr (widths r) (meterInput b s i r) = b.tseg2 r - cnt s r := by
  have hf := length_fits b r
  simp only [BitSegmentMeter.phaseErr, meterInput, isTseg2, ht, BitSegmentMeter.negPhaseErr,
    beq_self_eq_true, if_true, widths_e]
  exact unsignedSub_of_le hc (by omega)

theorem phaseErr_tseg1 (ht : s.bitTime = .tseg1) :
    BitSegmentMeter.phaseErr (widths r) (meterInput b s i r) = cnt s r := by
  simp [BitSegmentMeter.phaseErr, meterInput, isTseg2, ht]

theorem sjwByOne_eq :
    BitSegmentMeter.phaseErrSjwByOne (widths r) (meterInput b s i r) =
      (BitSegmentMeter.phaseErr (widths r) (meterInput b s i r) == b.sjwOf r + 1) := by
  have hf := length_fits b r
  simp only [BitSegmentMeter.phaseErrSjwByOne, meterInput, widths_eSjw]
  rw [Nat.mod_eq_of_lt (by omega)]

theorem exitImmediate_tseg1 (ht : s.bitTime = .tseg1) :
    BitSegmentMeter.exitPh2Immediate (widths r) (meterInput b s i r) = false := by
  simp [BitSegmentMeter.exitPh2Immediate, meterInput, isTseg2, ht]

theorem exitImmediate_of_no_resync (h : resyncEdgeValid s i = false) :
    BitSegmentMeter.exitPh2Immediate (widths r) (meterInput b s i r) = false := by
  simp [BitSegmentMeter.exitPh2Immediate, meterInput, h]

theorem shorten_of_no_exit
    (h : BitSegmentMeter.exitPh2Immediate (widths r) (meterInput b s i r) = false) :
    BitSegmentMeter.shortenTseg1AfterTseg2 (widths r) (meterInput b s i r) = false := by
  simp [BitSegmentMeter.shortenTseg1AfterTseg2, h]

/-- In TSEG2 a used edge at most one quantum beyond the jump width ends the bit. -/
theorem exitImmediate_tseg2 (ht : s.bitTime = .tseg2) (hv : resyncEdgeValid s i = true)
    (hc : cnt s r ≤ b.tseg2 r) :
    BitSegmentMeter.exitPh2Immediate (widths r) (meterInput b s i r) =
      decide (b.tseg2 r - cnt s r ≤ b.sjwOf r + 1) := by
  have hp := phaseErr_tseg2 (b := b) (i := i) ht hc
  have hm : BitSegmentMeter.phaseErrMtSjw (widths r) (meterInput b s i r) =
      decide (b.sjwOf r < b.tseg2 r - cnt s r) := by
    rw [BitSegmentMeter.phaseErrMtSjw, hp]
    rfl
  have h2 : (meterInput b s i r).isTseg2 = true := (inTseg2 ht).2
  have h3 : (meterInput b s i r).resyncEdgeValid = true := hv
  rw [BitSegmentMeter.exitPh2Immediate, sjwByOne_eq, hm, hp, h2, h3, Bool.eq_iff_iff]
  simp only [Bool.and_true, Bool.or_eq_true, Bool.not_eq_true', decide_eq_false_iff_not,
    beq_iff_eq, decide_eq_true_eq]
  omega

theorem shorten_tseg2 (ht : s.bitTime = .tseg2) (hv : resyncEdgeValid s i = true)
    (hc : cnt s r ≤ b.tseg2 r) :
    BitSegmentMeter.shortenTseg1AfterTseg2 (widths r) (meterInput b s i r) =
      decide (b.tseg2 r - cnt s r ≤ b.sjwOf r) := by
  rw [BitSegmentMeter.shortenTseg1AfterTseg2, exitImmediate_tseg2 ht hv hc, sjwByOne_eq,
    phaseErr_tseg2 ht hc, Bool.eq_iff_iff]
  simp only [Bool.and_eq_true, Bool.not_eq_true', decide_eq_true_eq, beq_eq_false_iff_ne]
  omega

/-! ## End requests -/

/-- The expected length runs out in its last quantum. -/
theorem exitRegular_eq (h1 : 1 ≤ len s r) (hl : len s r < 2 ^ (widths r).exp) :
    BitSegmentMeter.exitSegmRegular (widths r) (s.rate r).expSegLengthQ (meterInput b s i r) =
      decide (len s r ≤ cnt s r + 1) := by
  rw [BitSegmentMeter.exitSegmRegular, unsignedSub_of_le h1 hl, Bool.eq_iff_iff,
    decide_eq_true_eq, decide_eq_true_eq]
  exact Nat.sub_le_iff_le_add

/-- Without an edge a segment asks for its end in its last quantum. -/
theorem exitReq_of_no_resync (hv : resyncEdgeValid s i = false) (ht : s.bitTime ≠ .reset)
    (h1 : 1 ≤ len s r) (hl : len s r < 2 ^ (widths r).exp) :
    exitSegmReq b s i r = decide (len s r ≤ cnt s r + 1) := by
  have hx : (meterInput b s i r).resyncEdgeValid = false := hv
  rw [exitSegmReq, BitSegmentMeter.exitSegmReq, exitImmediate_of_no_resync hv,
    BitSegmentMeter.exitSegmRegularTseg1, BitSegmentMeter.exitSegmRegularTseg2,
    exitRegular_eq h1 hl, hx]
  cases hb : s.bitTime
  · exact absurd hb ht
  · simp [meterInput, isTseg1, isTseg2, hb]
  · simp [meterInput, isTseg1, isTseg2, hb]

/-- A late edge keeps TSEG1 from ending in the cycle of the edge. -/
theorem exitReq_late (ht : s.bitTime = .tseg1) (hv : resyncEdgeValid s i = true)
    (hs : 0 < b.sjwOf r) : exitSegmReq b s i r = false := by
  have hx : (meterInput b s i r).resyncEdgeValid = true := hv
  have h1 : (meterInput b s i r).isTseg1 = true := (inTseg1 ht).1
  have h2 : (meterInput b s i r).isTseg2 = false := (inTseg1 ht).2
  have h3 : (meterInput b s i r).sjw = b.sjwOf r := rfl
  simp [exitSegmReq, BitSegmentMeter.exitSegmReq, exitImmediate_tseg1 ht,
    BitSegmentMeter.exitSegmRegularTseg1, BitSegmentMeter.exitSegmRegularTseg2, hx, h1, h2, h3, hs]

/-! ## The expected length -/

section

variable (hst : startEdge s = false)

include hst

theorem len_hold (he : segmEnd b s i = false) (hu : edgeUsed b s i = false) :
    (stepRate b s i r).expSegLengthQ = len s r := by
  simp only [edgeUsed, Bool.or_eq_false_iff] at hu
  simp [stepRate, BitSegmentMeter.step, BitSegmentMeter.expSegLengthCe, meterInput, hst, he,
    hu.1, hu.2]

theorem len_end (he : segmEnd b s i = true) (hu : hSyncValid b s i = false)
    (hsh : BitSegmentMeter.shortenTseg1AfterTseg2 (widths r) (meterInput b s i r) = false) :
    (stepRate b s i r).expSegLengthQ =
      if s.bitTime = .tseg2 then (s.rate r).tseg1 else b.tseg2 r := by
  simp only [stepRate, BitSegmentMeter.step, BitSegmentMeter.expSegLengthCe,
    BitSegmentMeter.expSegLengthD, BitSegmentMeter.useBasicSegmLength,
    BitSegmentMeter.basicSegmLength, BitSegmentMeter.selTseg1, he, hu, hsh]
  cases hb : s.bitTime <;> simp [meterInput, isTseg1, isTseg2, hb, hst]

/-- After a hard synchronisation or a short early edge the quantum of the edge
is the first one of TSEG1. -/
theorem len_restart (h1 : 1 ≤ (s.rate r).tseg1) (hf : (s.rate r).tseg1 < 2 ^ (widths r).exp)
    (h : hSyncValid b s i = true ∨
      BitSegmentMeter.shortenTseg1AfterTseg2 (widths r) (meterInput b s i r) = true) :
    (stepRate b s i r).expSegLengthQ = (s.rate r).tseg1 - 1 := by
  have hor : (hSyncValid b s i ||
      BitSegmentMeter.shortenTseg1AfterTseg2 (widths r) (meterInput b s i r)) = true := by
    rcases h with h | h <;> simp [h]
  have hsub : BitSegmentMeter.selSub (widths r) (meterInput b s i r) (hSyncValid b s i) = true := by
    rcases h with h | h
    · simp [BitSegmentMeter.selSub, h]
    · simp only [BitSegmentMeter.shortenTseg1AfterTseg2, Bool.and_eq_true] at h
      simp [BitSegmentMeter.selSub, h.1]
  have hce : BitSegmentMeter.expSegLengthCe (meterInput b s i r) (segmEnd b s i)
      (hSyncValid b s i) = true := by
    rcases h with h | h
    · simp [BitSegmentMeter.expSegLengthCe, h]
    · simp only [BitSegmentMeter.shortenTseg1AfterTseg2, BitSegmentMeter.exitPh2Immediate,
        Bool.and_eq_true] at h
      simp [BitSegmentMeter.expSegLengthCe, h.1.2]
  have hbas : BitSegmentMeter.useBasicSegmLength (widths r) (meterInput b s i r) (segmEnd b s i)
      (hSyncValid b s i) = false := by
    rcases h with h | h <;>
      simp [BitSegmentMeter.useBasicSegmLength, meterInput, hst, h]
    intro _ _
    simpa [meterInput, hst] using h
  have hsel : BitSegmentMeter.basicSegmLength (widths r) (meterInput b s i r) (segmEnd b s i)
      (hSyncValid b s i) = (s.rate r).tseg1 := by
    have : BitSegmentMeter.selTseg1 (widths r) (meterInput b s i r) (segmEnd b s i)
        (hSyncValid b s i) = true := by
      rcases h with h | h <;> simp [BitSegmentMeter.selTseg1, h]
    rw [BitSegmentMeter.basicSegmLength, this]
    rfl
  have hext : BitSegmentMeter.segmExtension (widths r) (meterInput b s i r)
      (hSyncValid b s i) = 1 := by
    rw [BitSegmentMeter.segmExtension, hor]
    rfl
  simp only [stepRate, BitSegmentMeter.step, hce, BitSegmentMeter.expSegLengthD, hbas,
    BitSegmentMeter.syncSegmLength, hsub, hsel, hext]
  simpa using unsignedSub_of_le h1 hf

/-- A late edge lengthens TSEG1 by the phase error, at most by the jump width. -/
theorem len_late (ht : s.bitTime = .tseg1) (hv : resyncEdgeValid s i = true)
    (he : segmEnd b s i = false) (h1 : (s.rate r).tseg1 = b.tseg1 r) :
    (stepRate b s i r).expSegLengthQ = b.tseg1 r + min (cnt s r) (b.sjwOf r) := by
  have hh := resync_hSync (b := b) hv
  have hx := exitImmediate_tseg1 (b := b) (i := i) (r := r) ht
  have hs := shorten_of_no_exit hx
  have hf := length_fits b r
  have hce : (meterInput b s i r).resyncEdgeValid = true := hv
  have ht1 : (meterInput b s i r).isTseg1 = true := (inTseg1 ht).1
  have ht2 : (meterInput b s i r).isTseg2 = false := (inTseg1 ht).2
  have hse : (meterInput b s i r).startEdge = false := hst
  have hbas : BitSegmentMeter.basicSegmLength (widths r) (meterInput b s i r) false false =
      b.tseg1 r := by
    rw [BitSegmentMeter.basicSegmLength, BitSegmentMeter.selTseg1, ht1]
    simpa [meterInput] using h1
  have hext : BitSegmentMeter.segmExtension (widths r) (meterInput b s i r) false =
      min (cnt s r) (b.sjwOf r) := by
    have hm : BitSegmentMeter.phaseErrMtSjw (widths r) (meterInput b s i r) =
        decide (b.sjwOf r < cnt s r) := by
      rw [BitSegmentMeter.phaseErrMtSjw, phaseErr_tseg1 ht]
      rfl
    rw [BitSegmentMeter.segmExtension, hs, hm]
    by_cases hj : b.sjwOf r < cnt s r
    · rw [Nat.min_eq_right hj.le, decide_eq_true hj]
      rfl
    · rw [Nat.min_eq_left (not_lt.mp hj), decide_eq_false hj]
      rfl
  simp only [stepRate, BitSegmentMeter.step, BitSegmentMeter.expSegLengthCe,
    BitSegmentMeter.expSegLengthD, BitSegmentMeter.useBasicSegmLength,
    BitSegmentMeter.syncSegmLength, BitSegmentMeter.selSub, he, hh, hx, hce, ht2, hse, hbas, hext]
  have hp : 2 ^ (widths r).exp = 2 * 2 ^ (widths r).bt := by rw [widths_exp]; ring
  simpa using Nat.mod_eq_of_lt (by omega)

/-- An edge earlier than the jump width and one quantum shortens TSEG2 by the jump width. -/
theorem len_early (ht : s.bitTime = .tseg2) (hv : resyncEdgeValid s i = true)
    (he : segmEnd b s i = false) (hc : cnt s r ≤ b.tseg2 r)
    (hj : b.sjwOf r < b.tseg2 r - cnt s r) :
    (stepRate b s i r).expSegLengthQ = b.tseg2 r - b.sjwOf r := by
  have hh := resync_hSync (b := b) hv
  have hf := length_fits b r
  have hs := shorten_tseg2 (b := b) ht hv hc
  rw [decide_eq_false (by omega)] at hs
  have hm : BitSegmentMeter.phaseErrMtSjw (widths r) (meterInput b s i r) = true := by
    rw [BitSegmentMeter.phaseErrMtSjw, phaseErr_tseg2 ht hc]
    exact decide_eq_true hj
  have hce : (meterInput b s i r).resyncEdgeValid = true := hv
  have ht1 : (meterInput b s i r).isTseg1 = false := (inTseg2 ht).1
  have ht2 : (meterInput b s i r).isTseg2 = true := (inTseg2 ht).2
  have hse : (meterInput b s i r).startEdge = false := hst
  have hsel : BitSegmentMeter.selTseg1 (widths r) (meterInput b s i r) false false = false := by
    simp [BitSegmentMeter.selTseg1, hse, hs, ht1]
  simp only [stepRate, BitSegmentMeter.step, BitSegmentMeter.expSegLengthCe,
    BitSegmentMeter.expSegLengthD, BitSegmentMeter.useBasicSegmLength,
    BitSegmentMeter.syncSegmLength, BitSegmentMeter.selSub, BitSegmentMeter.basicSegmLength,
    BitSegmentMeter.segmExtension, he, hh, hce, ht2, hse, hsel, hs, hm]
  have hp : 2 ^ (widths r).exp = 2 * 2 ^ (widths r).bt := by rw [widths_exp]; ring
  simpa [meterInput] using unsignedSub_of_le (w := (widths r).exp) (a := b.tseg2 r)
    (b := b.sjwOf r) (by omega) (by omega)

end

/-- In the cycle of the start edge the length of TSEG1 is loaded. -/
theorem len_start (hst : startEdge s = true) :
    (stepRate b s i r).expSegLengthQ = (s.rate r).tseg1 := by
  have hse : (meterInput b s i r).startEdge = true := hst
  simp [stepRate, BitSegmentMeter.step, BitSegmentMeter.expSegLengthCe,
    BitSegmentMeter.expSegLengthD, BitSegmentMeter.useBasicSegmLength,
    BitSegmentMeter.basicSegmLength, BitSegmentMeter.selTseg1, hse]
  rfl

end Prescaler
