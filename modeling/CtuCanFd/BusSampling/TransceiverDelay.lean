import CtuCanFd.BusSampling.Model
import Mathlib.Data.BitVec

/-!
# Transceiver delay measurement

`data_edge_detector` and `trv_delay_measurement`. The delay is counted from the edge into the
reserved bit as it is sent to the same edge as it is received. The counter is held at one by a
registered reset while the measurement starts, so that it is one behind the cycles that have
passed; what it shows in the cycle after the received edge is loaded into the shadow registers
in the next one.
-/

open ProtocolControl (SspSrc)

namespace BusSampling

/-! ## `data_edge_detector` -/

structure DataEdgeDetector where
  rxDataPrev : Bool
  txDataPrev : Bool
  rxDataSyncPrev : Bool
deriving DecidableEq, Repr

namespace DataEdgeDetector

def reset : DataEdgeDetector where
  rxDataPrev := true
  txDataPrev := true
  rxDataSyncPrev := true

/-- Only edges from recessive to dominant are used. -/
def txEdge (q : DataEdgeDetector) (txData : Bool) : Bool :=
  q.txDataPrev != txData && q.txDataPrev

def rxEdge (q : DataEdgeDetector) (rxData : Bool) : Bool :=
  q.rxDataPrev != rxData && q.rxDataPrev

def syncEdge (q : DataEdgeDetector) (rxData prevRxSample tqEdge : Bool) : Bool :=
  q.rxDataSyncPrev != rxData && q.rxDataSyncPrev && prevRxSample != rxData && tqEdge

def step (q : DataEdgeDetector) (txData rxData tqEdge : Bool) : DataEdgeDetector where
  rxDataPrev := rxData
  txDataPrev := txData
  rxDataSyncPrev := if tqEdge then rxData else q.rxDataSyncPrev

end DataEdgeDetector

/-! ## `trv_delay_measurement` -/

structure Config where
  mrSettingsEna : Bool
  mrSspCfgSspOffset : BitVec 8
  mrSspCfgSspSrc : SspSrc

structure TrvDelayMeasurement where
  trvMeasProgressQ : Bool
  trvMeasProgressDel : Bool
  /-- `trv_delay_ctr_rst_q_scan`: while low the counter is held at one. -/
  trvDelayCtrRstQ : Bool
  trvDelayCtrQ : BitVec 7
  sspDelayShadowed : BitVec 8
  trvDelayShadowed : BitVec 7
deriving DecidableEq, Repr

namespace TrvDelayMeasurement

def reset : TrvDelayMeasurement where
  trvMeasProgressQ := false
  trvMeasProgressDel := false
  trvDelayCtrRstQ := false
  trvDelayCtrQ := 1
  sspDelayShadowed := 0
  trvDelayShadowed := 0

structure Input where
  edgeTxValid : Bool
  edgeRxValid : Bool
  tranDelayMeas : Bool

/-- The counter as it is read in this cycle. -/
def trvDelayCtr (q : TrvDelayMeasurement) : BitVec 7 :=
  if q.trvDelayCtrRstQ then q.trvDelayCtrQ else 1

def trvDelayCtrD (q : TrvDelayMeasurement) : BitVec 7 :=
  if q.trvDelayCtr = 127 then 127 else q.trvDelayCtr + 1

/-- One bit wider than its terms. -/
def trvDelaySum (c : Config) (q : TrvDelayMeasurement) : BitVec 9 :=
  q.trvDelayCtr.setWidth 9 + c.mrSspCfgSspOffset.setWidth 9

def sspDelayRaw (c : Config) (q : TrvDelayMeasurement) : BitVec 9 :=
  match c.mrSspCfgSspSrc with
  | .measNOffset => trvDelaySum c q
  | .offset => c.mrSspCfgSspOffset.setWidth 9
  | .noSsp => 0

def sspDelaySaturated (c : Config) (q : TrvDelayMeasurement) : BitVec 8 :=
  if (sspDelayRaw c q).getLsbD 8 then 255 else (sspDelayRaw c q).setWidth 8

def sspShadowCe (q : TrvDelayMeasurement) : Bool := q.trvMeasProgressDel && !q.trvMeasProgressQ

def step (c : Config) (q : TrvDelayMeasurement) (i : Input) : TrvDelayMeasurement where
  trvMeasProgressQ :=
    if !i.tranDelayMeas then false
    else if i.edgeTxValid then true
    else if i.edgeRxValid then false
    else q.trvMeasProgressQ
  trvMeasProgressDel := q.trvMeasProgressQ
  trvDelayCtrRstQ := !(i.tranDelayMeas && i.edgeTxValid)
  trvDelayCtrQ :=
    if !q.trvDelayCtrRstQ then 1
    else if q.trvMeasProgressQ then q.trvDelayCtrD
    else q.trvDelayCtrQ
  sspDelayShadowed := if q.sspShadowCe then sspDelaySaturated c q else q.sspDelayShadowed
  trvDelayShadowed := if q.sspShadowCe then q.trvDelayCtr else q.trvDelayShadowed

/-! ### The secondary sample point -/

/-- Where the secondary sample point is for a measured delay. -/
def sspPosition (c : Config) (delay : Nat) : Nat :=
  match c.mrSspCfgSspSrc with
  | .measNOffset => min (delay + c.mrSspCfgSspOffset.toNat) 255
  | .offset => c.mrSspCfgSspOffset.toNat
  | .noSsp => 0

theorem sspDelayRaw_toNat (c : Config) (q : TrvDelayMeasurement) :
    min (sspDelayRaw c q).toNat 255 = sspPosition c q.trvDelayCtr.toNat := by
  have hctr := q.trvDelayCtr.isLt
  have hoff := c.mrSspCfgSspOffset.isLt
  cases hs : c.mrSspCfgSspSrc <;> simp only [sspDelayRaw, sspPosition, hs, trvDelaySum]
  case measNOffset =>
    rw [BitVec.toNat_add, BitVec.toNat_setWidth, BitVec.toNat_setWidth]
    omega
  case offset =>
    rw [BitVec.toNat_setWidth]
    omega
  case noSsp => rfl

theorem sspDelaySaturated_toNat (c : Config) (q : TrvDelayMeasurement) :
    (sspDelaySaturated c q).toNat = sspPosition c q.trvDelayCtr.toNat := by
  have hraw := (sspDelayRaw c q).isLt
  rw [← sspDelayRaw_toNat, sspDelaySaturated]
  cases hb : (sspDelayRaw c q).getLsbD 8
  · have hlt : (sspDelayRaw c q).toNat < 256 := by
      rw [BitVec.getLsbD, Nat.testBit_eq_decide_div_mod_eq] at hb
      simp only [decide_eq_false_iff_not] at hb
      omega
    rw [if_neg (by decide), BitVec.toNat_setWidth]
    omega
  · have hge := Nat.ge_two_pow_of_testBit hb
    rw [if_pos rfl]
    show 255 = _
    omega

/-! ### One measurement -/

section Measurement

variable {c : Config} {q : TrvDelayMeasurement} {i : Input} {k : Nat}

/-- In the `k`-th cycle after the edge was sent. -/
structure Measuring (q : TrvDelayMeasurement) (k : Nat) : Prop where
  progress : q.trvMeasProgressQ = true
  ctr : (if q.trvDelayCtrRstQ then q.trvDelayCtrD else 1).toNat = min k 127

/-- In the cycle after the edge was received. -/
structure Stopped (q : TrvDelayMeasurement) (k : Nat) : Prop where
  progress : q.trvMeasProgressQ = false
  ended : q.trvMeasProgressDel = true
  ctr : q.trvDelayCtr.toNat = min k 127

structure Measured (c : Config) (q : TrvDelayMeasurement) (k : Nat) : Prop where
  progress : q.trvMeasProgressQ = false
  ended : q.trvMeasProgressDel = false
  trv : q.trvDelayShadowed.toNat = min k 127
  ssp : q.sspDelayShadowed.toNat = sspPosition c (min k 127)

theorem trvDelayCtrD_toNat (q : TrvDelayMeasurement) :
    q.trvDelayCtrD.toNat = min (q.trvDelayCtr.toNat + 1) 127 := by
  have hlt := q.trvDelayCtr.isLt
  rw [trvDelayCtrD]
  split
  case isTrue h =>
    rw [h]
    rfl
  case isFalse h =>
    have hne : q.trvDelayCtr.toNat ≠ 127 := fun hx => h (BitVec.eq_of_toNat_eq hx)
    have hone : (1 : BitVec 7).toNat = 1 := rfl
    rw [BitVec.toNat_add, hone]
    omega

theorem measuring_start (hm : i.tranDelayMeas = true) (ht : i.edgeTxValid = true) :
    Measuring (step c q i) 1 where
  progress := by simp [step, hm, ht]
  ctr := by simp [step, hm, ht]

theorem Measuring.step_ctr (h : Measuring q k) : (step c q i).trvDelayCtrQ.toNat = min k 127 := by
  have hctr := h.ctr
  cases hr : q.trvDelayCtrRstQ <;> simpa [step, hr, h.progress] using hctr

theorem Measuring.wait (h : Measuring q k) (hm : i.tranDelayMeas = true)
    (ht : i.edgeTxValid = false) (hr : i.edgeRxValid = false) :
    Measuring (step c q i) (k + 1) where
  progress := by simp [step, hm, ht, hr, h.progress]
  ctr := by
    have hrst : (step c q i).trvDelayCtrRstQ = true := by simp [step, ht]
    rw [if_pos hrst, trvDelayCtrD_toNat, trvDelayCtr, if_pos hrst, h.step_ctr]
    omega

/-- The edge is received, or the measurement is given up. -/
theorem Measuring.stop (h : Measuring q k) (ht : (i.tranDelayMeas && i.edgeTxValid) = false)
    (hr : (i.tranDelayMeas && !i.edgeRxValid) = false) : Stopped (step c q i) k where
  progress := by
    cases hm : i.tranDelayMeas <;> simp_all [step]
  ended := h.progress
  ctr := by
    have hrst : (step c q i).trvDelayCtrRstQ = true := by
      show (!(i.tranDelayMeas && i.edgeTxValid)) = true
      rw [ht]
      rfl
    rw [trvDelayCtr, if_pos hrst, h.step_ctr]

theorem Stopped.load (h : Stopped q k) (ht : (i.tranDelayMeas && i.edgeTxValid) = false) :
    Measured c (step c q i) k := by
  have hce : q.sspShadowCe = true := by simp [sspShadowCe, h.progress, h.ended]
  refine ⟨?_, h.progress, ?_, ?_⟩
  · cases hm : i.tranDelayMeas <;> simp_all [step, h.progress]
  · show (if q.sspShadowCe then q.trvDelayCtr else _).toNat = _
    rw [if_pos hce, h.ctr]
  · show (if q.sspShadowCe then sspDelaySaturated c q else _).toNat = _
    rw [if_pos hce, sspDelaySaturated_toNat, h.ctr]

theorem Measured.kept (h : Measured c q k) (ht : (i.tranDelayMeas && i.edgeTxValid) = false) :
    Measured c (step c q i) k := by
  have hce : q.sspShadowCe = false := by simp [sspShadowCe, h.ended]
  refine ⟨?_, h.progress, ?_, ?_⟩
  · cases hm : i.tranDelayMeas <;> simp_all [step, h.progress]
  · show (if q.sspShadowCe then q.trvDelayCtr else _).toNat = _
    rw [hce]
    exact h.trv
  · show (if q.sspShadowCe then sspDelaySaturated c q else _).toNat = _
    rw [hce]
    exact h.ssp

end Measurement

end TrvDelayMeasurement

end BusSampling
