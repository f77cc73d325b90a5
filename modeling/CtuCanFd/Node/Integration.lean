import CtuCanFd.Core.CoreSteps
import CtuCanFd.Node.Model

/-!
# Integration and reintegration

The control counter counts the recessive bits of an integration down, and is loaded again with
a dominant bit or an edge. It is looked at before the bit that is sampled with it at zero.
-/

namespace Node

open SyncMachine ProtocolControl

/-- The bit taken in this cycle ends the reintegration. -/
def recovers (s : State) : Bool :=
  !s.core.err.errFrmReq && CanCore.pcRxTrigger s.core &&
    s.core.pc.currState == .reintegrating && s.core.ctr.ctrlCtrZero && reintegCtrExpired s

/-! ## Steps of the core -/

section Steps

variable {c : Config} {s : CanCore.State} {i : CanCore.Input}

/-- An error starts integration in restricted operation only. -/
theorem error_integrating (he : s.err.errFrmReq = true)
    (h' : (CanCore.step c s i).pc.currState = .integrating) :
    (CanCore.step c s i).ctr.ctrlCtrQ = 10 := by
  have hrom : c.mrModeRom = true := by
    by_contra hrom
    have hs := step_errFrm (c := c) (q := s.pc) (i := CanCore.pcInput c s i) he
    rw [if_neg hrom] at hs
    have hs := hs.symm.trans h'
    split at hs <;> cases hs
  simp [CanCore.step, CanCore.nextCtr, ControlCounter.step, ctrlCtrPload, ctrlSignalUpd,
    CanCore.pcOut, he, out_err, outErrFrm, hrom]

/-- The counter is loaded where integration starts. -/
theorem enter_integrating (hq : s.pc.currState ≠ .integrating)
    (h' : (CanCore.step c s i).pc.currState = .integrating) :
    (CanCore.step c s i).ctr.ctrlCtrQ = 10 ∨
      ((CanCore.step c s i).ctr.ctrlCtrQ = 9 ∧ CanCore.pcRxTrigger s = true ∧
        s.bds.dataOut = true) := by
  cases he : s.err.errFrmReq
  · have hout := out_noErr (c := c) (q := s.pc) (i := CanCore.pcInput c s i) he
    rcases step_cases (c := c) (q := s.pc) (i := CanCore.pcInput c s i) he with hs | ⟨ht, hs⟩
    · exact absurd (hs.symm.trans h') hq
    · have hn : nextState c s.pc (CanCore.pcInput c s i) = .integrating := hs.symm.trans h'
      have ht : CanCore.pcRxTrigger s = true := ht
      rw [CanCore.ctr_taken he ht]
      have he' : (CanCore.pcInput c s i).errFrmReq = false := he
      simp only [nextState, he', Bool.false_eq_true, if_false] at hn
      have htick : (outState c s.pc (CanCore.pcInput c s i) s.pc.currState).tickStateReg = true := by
        by_contra htick
        have hst : (CanCore.step c s i).pc.currState = s.pc.currState := by
          simp [CanCore.step, ProtocolControl.step, hout, htick]
        exact hq (hst.symm.trans h')
      cases hst : s.pc.currState <;> rw [hst] at hn htick hq <;>
        first
        | exact absurd hn (by decide)
        | exact absurd rfl hq
        | skip
      case off =>
        have hena : c.mrSettingsEna = true := by
          by_contra hena
          simp [outState, outOff, hena] at htick
        cases hb : s.bds.dataOut
        · left
          simp [outState, outOff, hena, hb]
        · right
          simp [outState, outOff, hena, hb, ht]
      all_goals
        grind [outState, outEdlR1, outEdlR0, outR0Fd, outEof, outIntermission, pexOnFdfEnable,
          pexOnResEnable, outReintegrating, outIdle, outSuspend]
  · exact .inl (error_integrating he h')

/-- The node restarts integration with an edge between two bits. -/
def restartsOnEdge (c : Config) : Bool := c.mrModeFde || c.mrSettingsPex

/-- Between two bits only an edge loads the counter again. -/
theorem counting_hold (hq : s.pc.currState = .integrating ∨ s.pc.currState = .reintegrating)
    (he : s.err.errFrmReq = false) (ht : CanCore.pcRxTrigger s = false) :
    (CanCore.step c s i).ctr.ctrlCtrQ =
      if restartsOnEdge c && i.syncEdge then 10 else s.ctr.ctrlCtrQ := by
  have hoff : s.pc.currState ≠ .off := by rcases hq with hq | hq <;> simp [hq]
  have hedge : (CanCore.pcInput c s i).syncEdge = i.syncEdge := rfl
  rw [CanCore.ctr_between he ht hoff]
  rcases hq with hq | hq <;> rw [hq] <;>
    simp only [outState, outIntegrating, outReintegrating, restartsOnEdge, hedge] <;>
    cases i.syncEdge <;> simp [Bool.or_comm]

/-- A bit taken while the counter runs. -/
theorem integrating_bit (hq : s.pc.currState = .integrating) (he : s.err.errFrmReq = false)
    (ht : CanCore.pcRxTrigger s = true) (hz : s.ctr.ctrlCtrQ ≠ 0) (hl : s.ctr.ctrlCtrQ < 512) :
    (CanCore.step c s i).ctr.ctrlCtrQ =
      if s.bds.dataOut then s.ctr.ctrlCtrQ - 1 else 10 := by
  rw [CanCore.ctr_taken he ht, hq]
  cases hb : s.bds.dataOut
  · simp [outState, outIntegrating, hb]
  · simp [outState, outIntegrating, hb]
    omega

theorem integrating_zero (hq : s.pc.currState = .integrating) (he : s.err.errFrmReq = false)
    (ht : CanCore.pcRxTrigger s = true) (hz : s.ctr.ctrlCtrQ = 0) :
    (CanCore.step c s i).pc.currState = .idle := by
  have hz : s.ctr.ctrlCtrZero = true := by simp [ControlCounter.ctrlCtrZero, hz]
  simp [CanCore.step, ProtocolControl.step, ctrlSignalUpd, out_noErr, he, hq, outState,
    outIntegrating, hz, ht, nextState]

theorem integrating_end (hq : s.pc.currState = .integrating)
    (h' : (CanCore.step c s i).pc.currState = .idle) :
    s.err.errFrmReq = false ∧ CanCore.pcRxTrigger s = true ∧ s.ctr.ctrlCtrQ = 0 := by
  cases he : s.err.errFrmReq
  · rcases step_cases (c := c) (q := s.pc) (i := CanCore.pcInput c s i) he with hs | ⟨ht, hs⟩
    · exact absurd (hq.symm.trans (hs.symm.trans h')) (by decide)
    · refine ⟨rfl, ht, ?_⟩
      by_contra hz
      have hn : nextState c s.pc (CanCore.pcInput c s i) = .idle := hs.symm.trans h'
      have hz : s.ctr.ctrlCtrZero = false := by simp [ControlCounter.ctrlCtrZero, hz]
      simp [nextState, hq, he, hz] at hn
  · have hs := step_err (c := c) (q := s.pc) (i := CanCore.pcInput c s i) he
    exact absurd ((congrArg PcState.afterError h').symm.trans hs) (by decide)

/-- Reintegration starts with a command and the counter loaded. -/
theorem enter_reintegrating (hq : s.pc.currState ≠ .reintegrating)
    (h' : (CanCore.step c s i).pc.currState = .reintegrating) :
    s.err.errFrmReq = false ∧ CanCore.pcRxTrigger s = true ∧
      s.pc.currState = .reintegratingWait ∧ s.pc.mrCommandErcrstQ = true ∧
      (CanCore.step c s i).ctr.ctrlCtrQ = 10 := by
  cases he : s.err.errFrmReq
  · rcases step_flow (c := c) (q := s.pc) (i := CanCore.pcInput c s i) he with hs | ⟨ht, hs⟩
    · exact absurd (hs.symm.trans h') hq
    · have h' : (ProtocolControl.step c s.pc (CanCore.pcInput c s i)).currState =
        .reintegrating := h'
      rw [h'] at hs
      have hwait : s.pc.currState = .reintegratingWait := by
        cases hst : s.pc.currState <;> rw [hst] at hs <;>
          first | rfl | exact absurd hs (by decide)
      have ht : CanCore.pcRxTrigger s = true := ht
      have hout := out_noErr (c := c) (q := s.pc) (i := CanCore.pcInput c s i) he
      have hcmd : s.pc.mrCommandErcrstQ = true := by
        by_contra hcmd
        have hstay : (ProtocolControl.step c s.pc (CanCore.pcInput c s i)).currState =
            s.pc.currState := by
          simp [ProtocolControl.step, hout, hwait, outState, outReintegratingWait, hcmd]
        exact hq (hstay.symm.trans h')
      refine ⟨rfl, ht, hwait, hcmd, ?_⟩
      simp [CanCore.ctr_taken he ht, hwait, outState, outReintegratingWait, hcmd]
  · have hs := step_err (c := c) (q := s.pc) (i := CanCore.pcInput c s i) he
    exact absurd ((congrArg PcState.afterError h').symm.trans hs) (by decide)

/-- A bit taken in the reintegration. -/
theorem reintegrating_bit (hq : s.pc.currState = .reintegrating) (he : s.err.errFrmReq = false)
    (ht : CanCore.pcRxTrigger s = true) (hl : s.ctr.ctrlCtrQ < 512)
    (h' : (CanCore.step c s i).pc.currState = .reintegrating) :
    (s.ctr.ctrlCtrQ = 0 → i.reintegCtrExpired = false) ∧
      (CanCore.step c s i).ctr.ctrlCtrQ =
        if s.ctr.ctrlCtrQ = 0 ∨ s.bds.dataOut = false then 10 else s.ctr.ctrlCtrQ - 1 := by
  have hout := out_noErr (c := c) (q := s.pc) (i := CanCore.pcInput c s i) he
  have hexp : s.ctr.ctrlCtrQ = 0 → i.reintegCtrExpired = false := by
    intro hz
    by_contra hx
    have hx : i.reintegCtrExpired = true := by simpa using hx
    have hn : (ProtocolControl.step c s.pc (CanCore.pcInput c s i)).currState = .idle := by
      have hz : s.ctr.ctrlCtrZero = true := by simp [ControlCounter.ctrlCtrZero, hz]
      have hx : (CanCore.pcInput c s i).reintegCtrExpired = true := hx
      simp [ProtocolControl.step, ctrlSignalUpd, hout, hq, outState, outReintegrating, hx, hz, ht,
        nextState, he]
    exact absurd (hn.symm.trans h') (by decide)
  refine ⟨hexp, ?_⟩
  by_cases hz : s.ctr.ctrlCtrQ = 0
  · have hx : (CanCore.pcInput c s i).reintegCtrExpired = false := hexp hz
    have hz' : s.ctr.ctrlCtrZero = true := by simp [ControlCounter.ctrlCtrZero, hz]
    simp [CanCore.ctr_taken he ht, hq, outState, outReintegrating, hx, hz, hz']
  · have hz' : s.ctr.ctrlCtrZero = false := by simp [ControlCounter.ctrlCtrZero, hz]
    cases hb : s.bds.dataOut
    · simp [CanCore.ctr_taken he ht, hq, outState, outReintegrating, hz', hb]
    · simp [CanCore.ctr_taken he ht, hq, outState, outReintegrating, hz', hb, hz]
      omega

end Steps

section Recovery

variable {f : Settings} {s : State} {i : Input}

/-- A reintegration is left by an error or at its end. -/
theorem reintegrating_noErr (hq' : (step f s i).core.pc.currState = .reintegrating) :
    s.core.err.errFrmReq = false := by
  by_contra he
  have he : s.core.err.errFrmReq = true := by simpa using he
  have hs := step_errFrm (c := f.core) (q := s.core.pc) (i := pcInput f s i) he
  have hs := hs.symm.trans hq'
  split at hs
  · cases hs
  · split at hs <;> cases hs

theorem recovers_idle (hr : recovers s = true) : (step f s i).core.pc.currState = .idle := by
  simp only [recovers, Bool.and_eq_true, Bool.not_eq_true', beq_iff_eq] at hr
  obtain ⟨⟨⟨⟨he, ht⟩, hq⟩, hz⟩, hx⟩ := hr
  have hx : (pcInput f s i).reintegCtrExpired = true := hx
  have hz : (pcInput f s i).ctrlCtrZero = true := hz
  have he : (pcInput f s i).errFrmReq = false := he
  have ht : (pcInput f s i).rxTrigger = true := ht
  show (ProtocolControl.step f.core s.core.pc (pcInput f s i)).currState = .idle
  simp [ProtocolControl.step, ctrlSignalUpd, out_noErr he, hq, outState, outReintegrating, hx, hz,
    ht, nextState, he]

end Recovery

/-! ## A node on the bus -/

def classicSettings : Settings where
  core :=
    { mrSettingsEna := true
      mrSettingsIlbp := false
      mrSettingsPex := false
      mrSettingsNisofd := false
      mrSettingsRtrle := false
      mrModeRom := false
      mrModeBmm := false
      mrModeFde := true
      mrModeAcf := false
      mrModeSam := false
      mrModeStm := false
      mrModeTstm := false
      mrSspCfgSspSrc := .noSsp }
  limits := ⟨128, 96⟩

def busCycle (bit : Bool) : Input where
  core :=
    { rxTrigReq := false
      txTrigger := false
      rxDataWbs := bit
      sampleSec := false
      dataTxDelayed := true
      syncEdge := false
      tranFrameValid := false
      tranMeta := ⟨0, false, false, false, false, 0, ⟨false, false, false, 0⟩⟩
      tranWord := 0
      tranFrameParityError := false
      isErrActive := false
      isErrPassive := false
      isBusOff := false
      retrLimitReached := false
      reintegCtrExpired := false
      mrCommandErcrst := false
      crcMatchC := true
      crc15 := 0
      crc17 := 0
      crc21 := 0 }
  mrCtrPresPtx := false
  mrCtrPresPrx := false
  mrCtrPresCtpv := 0

def sampled (i : Input) : Input := { i with core := { i.core with rxTrigReq := true } }

def transmitted (i : Input) : Input := { i with core := { i.core with txTrigger := true } }

/-- One bit of five cycles: three to the sample point and two behind it. -/
def bitTime (i : Input) : List Input := [sampled i, i, transmitted i, i, i]

def bitTimes (bits : List Bool) : List Input := bits.flatMap fun b => bitTime (busCycle b)

/-- Ten recessive bits and the sample point of a dominant one. -/
def tenRecessive : List Input :=
  bitTimes (List.replicate 10 true) ++ [sampled (busCycle false)]

/-- Integration, and a remote frame up to its end of frame. -/
def frameReceived : List Input :=
  bitTimes (List.replicate 11 true ++ [false] ++
    [true, false, true, false, true, false, true, false, true, false, true] ++
    [true, false, false] ++ [false, true, false, true] ++
    [false, true, false, true, false, true, false, true, false, true, false, true, false, true,
      false] ++ [true, false, true] ++ List.replicate 3 true)

def highLimit : Settings := { classicSettings with limits := ⟨240, 96⟩ }

def offering (i : Input) : Input := { i with core := { i.core with tranFrameValid := true } }

def frameBits (bits : List Bool) : List Input :=
  bits.flatMap fun b => bitTime (offering (busCycle b))

/-- The bus stays recessive, so that SOF and the error flags of the node meet bit
errors, until it is error passive; then it is dominant until the node is bus-off. -/
def intoBusOff : List Input := frameBits (List.replicate 43 true ++ List.replicate 14 false)

end Node
