import CtuCanFd.Core.FsmSteps
import Mathlib.Data.List.Basic

/-!
# Steps of the CAN core

What one clock cycle does to the blocks around protocol control, and the facts
about sample points and errors that hold in every run with sample points at
least five clock cycles apart.
-/

open ProtocolControl

namespace CanCore

variable {c : Config} {s : State} {i : Input}

section Wires

variable (c : Config) (s : State) (i : Input)

@[simp] theorem pcInput_rxTrigger : (pcInput c s i).rxTrigger = pcRxTrigger s := rfl

@[simp] theorem pcInput_errFrmReq : (pcInput c s i).errFrmReq = s.err.errFrmReq := rfl

@[simp] theorem pcInput_rxDataNbs : (pcInput c s i).rxDataNbs = s.bds.dataOut := rfl

@[simp] theorem pcInput_ctrlCtrZero : (pcInput c s i).ctrlCtrZero = s.ctr.ctrlCtrZero := rfl

@[simp] theorem pcInput_ctrlCtrOne : (pcInput c s i).ctrlCtrOne = s.ctr.ctrlCtrOne := rfl

@[simp] theorem pcInput_isTransmitter : (pcInput c s i).isTransmitter = isTransmitter s := rfl

@[simp] theorem pcInput_isReceiver : (pcInput c s i).isReceiver = isReceiver s := rfl

end Wires

theorem pcOut_err (he : s.err.errFrmReq = true) :
    pcOut c s i = outErrFrm c s.pc (pcInput c s i) := out_err he

theorem pcOut_noErr (he : s.err.errFrmReq = false) :
    pcOut c s i = outState c s.pc (pcInput c s i) s.pc.currState := out_noErr he

theorem out_state (he : s.err.errFrmReq = false) :
    out c s.pc (pcInput c s i) = outState c s.pc (pcInput c s i) s.pc.currState := out_noErr he

/-! ## State of protocol control -/

theorem state_err (he : s.err.errFrmReq = true) :
    (step c s i).pc.currState.afterError = true := step_err he

theorem state_cases (he : s.err.errFrmReq = false) :
    (step c s i).pc.currState = s.pc.currState ∨
      (pcRxTrigger s = true ∧
        (step c s i).pc.currState = nextState c s.pc (pcInput c s i)) :=
  step_cases he

theorem state_flow (he : s.err.errFrmReq = false) :
    (step c s i).pc.currState = s.pc.currState ∨
      (pcRxTrigger s = true ∧ (step c s i).pc.currState ∈ s.pc.currState.successors) :=
  step_flow he

theorem state_sample (ht : pcRxTrigger s = true) (he : s.err.errFrmReq = false)
    (hn : ¬ Stalled c s.pc (pcInput c s i)) :
    (step c s i).pc.currState = nextState c s.pc (pcInput c s i) :=
  step_sample ht he hn

/-! ## Control counter -/

theorem ctr_lt (h : s.ctr.ctrlCtrQ < 512) : (step c s i).ctr.ctrlCtrQ < 512 := by
  simp only [step, nextCtr, ControlCounter.step]
  split
  · exact out_ctrlCtrPloadVal_lt
  · split
    · exact Nat.mod_lt _ (by decide)
    · exact h

/-- With a bit that is taken the counter is loaded, or counts down if it is enabled. -/
theorem ctr_taken (he : s.err.errFrmReq = false) (ht : pcRxTrigger s = true) :
    (step c s i).ctr.ctrlCtrQ =
      if (outState c s.pc (pcInput c s i) s.pc.currState).ctrlCtrPloadI then
        (outState c s.pc (pcInput c s i) s.pc.currState).ctrlCtrPloadVal
      else if (outState c s.pc (pcInput c s i) s.pc.currState).ctrlCtrEna then
        (s.ctr.ctrlCtrQ + 511) % 512
      else s.ctr.ctrlCtrQ := by
  simp [step, nextCtr, ControlCounter.step, ctrlCtrPload, ctrlSignalUpd, pcOut_noErr he,
    out_state he, ht]

/-- Between two bits it is only loaded. -/
theorem ctr_between (he : s.err.errFrmReq = false) (ht : pcRxTrigger s = false)
    (hq : s.pc.currState ≠ .off) :
    (step c s i).ctr.ctrlCtrQ =
      if (outState c s.pc (pcInput c s i) s.pc.currState).ctrlCtrPloadUnaliged then
        (outState c s.pc (pcInput c s i) s.pc.currState).ctrlCtrPloadVal
      else s.ctr.ctrlCtrQ := by
  simp [step, nextCtr, ControlCounter.step, ctrlCtrPload, ctrlSignalUpd, pcOut_noErr he,
    out_state he, ht, he, hq]

/-- An error frame request loads the length of the error flag, or of integration. -/
theorem ctr_err (he : s.err.errFrmReq = true) : 5 ≤ (step c s i).ctr.ctrlCtrQ := by
  have hu : ctrlSignalUpd (pcInput c s i) = true := by simp [ctrlSignalUpd, he]
  have hp : ctrlCtrPload c s.pc (pcInput c s i) = true := by
    have ho : (out c s.pc (pcInput c s i)).ctrlCtrPloadI = true := by rw [out_err he]; rfl
    simp [ctrlCtrPload, hu, ho]
  simp only [step, nextCtr, ControlCounter.step, hp, if_true, pcOut_err he, outErrFrm]
  split <;> decide

theorem ctr_ackDelim (he : s.err.errFrmReq = false) (hq : s.pc.currState = .ackDelim)
    (ht : pcRxTrigger s = true) : (step c s i).ctr.ctrlCtrQ = 6 := by
  rw [ctr_taken he ht, hq]
  rfl

/-- In the end of frame the counter runs down with the sample points. -/
theorem ctr_eof (he : s.err.errFrmReq = false) (hq : s.pc.currState = .eof)
    (hz : s.ctr.ctrlCtrQ ≠ 0) (hl : s.ctr.ctrlCtrQ < 512) :
    (step c s i).ctr.ctrlCtrQ =
      if pcRxTrigger s then s.ctr.ctrlCtrQ - 1 else s.ctr.ctrlCtrQ := by
  have hzero : s.ctr.ctrlCtrZero = false := by simp [ControlCounter.ctrlCtrZero, hz]
  cases ht : pcRxTrigger s
  · rw [ctr_between he ht (by simp [hq]), hq]
    rfl
  · rw [ctr_taken he ht, hq]
    simp only [outState, outEof, pcInput_ctrlCtrZero, hzero]
    simp
    omega

/-- Once run down, it stays so until the end of frame is left. -/
theorem ctr_eof_zero (he : s.err.errFrmReq = false) (hq : s.pc.currState = .eof)
    (hz : s.ctr.ctrlCtrQ = 0) (h' : (step c s i).pc.currState = .eof) :
    (step c s i).ctr.ctrlCtrQ = 0 := by
  have hzero : s.ctr.ctrlCtrZero = true := by simp [ControlCounter.ctrlCtrZero, hz]
  cases ht : pcRxTrigger s
  · rw [ctr_between he ht (by simp [hq]), hq]
    exact hz
  · have hs := state_sample (c := c) (i := i) ht he
      (by simp [Stalled, hq])
    have hn : nextState c s.pc (pcInput c s i) = .eof := hs.symm.trans h'
    simp only [nextState, hq, pcInput_errFrmReq, he, pcInput_ctrlCtrZero, hzero] at hn
    rw [ctr_taken he ht, hq]
    simp only [outState, outEof, pcInput_ctrlCtrZero, hzero]
    grind

/-- At the end of the DLC the counters are set up for the data field, if there is one. -/
theorem dlc_end (he : s.err.errFrmReq = false) (hq : s.pc.currState = .dlc)
    (hz : s.ctr.ctrlCtrZero = true) (ht : pcRxTrigger s = true) :
    if noDataField c (pcInput c s i) then (step c s i).pc.currState ≠ .data
    else (step c s i).pc.currState = .data ∧
      (step c s i).ctr = ⟨dataLengthBitsC c (pcInput c s i), 0⟩ := by
  have hs := state_sample (c := c) (i := i) ht he (by simp [Stalled, hq])
  have hp : ctrlCtrPload c s.pc (pcInput c s i) = true := by
    simp [ctrlCtrPload, ctrlSignalUpd, ht, hz, hq, outState, outDlc,
      out_state he]
  rw [hs]
  split
  · rename_i hn
    simp only [nextState, hq, pcInput_errFrmReq, he, pcInput_ctrlCtrZero, hz, hn]
    cases goToStuffCount c (pcInput c s i) <;> simp
  · rename_i hn
    simp [nextState, step, nextCtr, ControlCounter.step, hp, pcOut_noErr he, hq, he, hz, hn, outState,
      outDlc]

/-- In the data field one counter runs down while the other runs up. The field is
left with the first at zero. -/
theorem data_step (he : s.err.errFrmReq = false) (hq : s.pc.currState = .data)
    (hl : s.ctr.ctrlCtrQ + s.ctr.complCtrQ < 512) :
    if pcRxTrigger s then
      if s.ctr.ctrlCtrZero then (step c s i).pc.currState ≠ .data
      else (step c s i).pc.currState = .data ∧
        (step c s i).ctr = ⟨s.ctr.ctrlCtrQ - 1, s.ctr.complCtrQ + 1⟩
    else (step c s i).pc.currState = .data ∧ (step c s i).ctr = s.ctr := by
  have ho := pcOut_noErr (c := c) (i := i) he
  cases ht : pcRxTrigger s
  · have hp : ctrlCtrPload c s.pc (pcInput c s i) = false := by
      simp [ctrlCtrPload, ctrlSignalUpd, ht, hq, he, outState, outData,
        out_state he]
    refine ⟨(step_hold (c := c) ht he).trans hq, ?_⟩
    simp [step, nextCtr, ControlCounter.step, hp, ht]
  · have hs := state_sample (c := c) (i := i) ht he (by simp [Stalled, hq])
    rw [if_pos rfl, hs]
    cases hz : s.ctr.ctrlCtrZero
    · have hp : ctrlCtrPload c s.pc (pcInput c s i) = false := by
        simp [ctrlCtrPload, ctrlSignalUpd, ht, hz, hq, outState, outData,
          out_state he]
      have hne : s.ctr.ctrlCtrQ ≠ 0 := by simpa [ControlCounter.ctrlCtrZero] using hz
      refine ⟨by simp [nextState, hq, he, hz], ?_⟩
      simp only [step, nextCtr, ControlCounter.step, hp, ht, ho, hq, outState, outData]
      simp only [Bool.false_eq_true, if_false, Bool.and_self, if_true, ControlCounter.mk.injEq]
      omega
    · rw [if_pos rfl]
      simp only [nextState, hq, pcInput_errFrmReq, he, pcInput_ctrlCtrZero, hz]
      cases goToStuffCount c (pcInput c s i) <;> simp

/-- The states after an error frame request are not left before the counter has
run down, one count a cycle at most. -/
theorem afterError_step {n : Nat} (hn : n ≤ 4) (he : s.err.errFrmReq = false)
    (hq : s.pc.currState.afterError = true) (hc : n + 1 ≤ s.ctr.ctrlCtrQ)
    (hl : s.ctr.ctrlCtrQ < 512) :
    (step c s i).pc.currState.afterError = true ∧ n ≤ (step c s i).ctr.ctrlCtrQ := by
  have hzero : s.ctr.ctrlCtrZero = false := by
    simp [ControlCounter.ctrlCtrZero]
    omega
  have hdown : n ≤ (s.ctr.ctrlCtrQ + 511) % 512 := by omega
  constructor
  · rcases state_cases (c := c) (i := i) he with hs | ⟨-, hs⟩
    · exact (congrArg PcState.afterError hs).trans hq
    · refine (congrArg PcState.afterError hs).trans ?_
      rw [nextState]
      cases hs : s.pc.currState <;> simp [hs, PcState.afterError] at hq <;>
        simp [he, hzero, PcState.afterError]
  · simp only [step, nextCtr, ControlCounter.step, ctrlCtrPload, pcOut_noErr he,
      out_state he]
    cases hs : s.pc.currState <;> simp [hs, PcState.afterError] at hq <;>
      simp [outState, outIntegrating, outFlag, outPasErrFlag, hzero] <;> grind

/-! ## Operation control and received identifier -/

theorem nextOc_hold (ht : pcRxTrigger s = false) (he : s.err.errFrmReq = false)
    (hl : (pcOut c s i).arbitrationLostI = false) : nextOc c s i = s.oc := by
  simp only [nextOc, setIdle, setTransmitter, setReceiver, ctrlSignalUpd, pcInput_rxTrigger,
    pcInput_errFrmReq, ht, he, hl]
  cases s.oc <;> simp [OperationControl.step]

theorem arbitrationLostI_trigger (he : s.err.errFrmReq = false) (ht : pcRxTrigger s = false) :
    (pcOut c s i).arbitrationLostI = false := by
  have hc : arbitrationLostCondition (pcInput c s i) = false := by
    simp [arbitrationLostCondition, ht]
  rw [pcOut_noErr he]
  cases hq : s.pc.currState <;> first | rfl | exact hc | skip
  · simp [outState, outOff, apply_ite Out.arbitrationLostI]
  · simp [outState, outIde, hc]

/-- From the DLC to the end of frame a node neither becomes nor stops being receiver. -/
theorem isReceiver_step (he : s.err.errFrmReq = false)
    (h : s.pc.currState = .dlc ∨ s.pc.currState.inTail = true ∨
      (s.pc.currState = .eof ∧ s.ctr.ctrlCtrZero = false)) :
    isReceiver (step c s i) = isReceiver s := by
  obtain ⟨ht, hr, hi, hl⟩ := out_ocQuiet (c := c) (i := pcInput c s i) he h
  simp only [isReceiver, step, nextOc, setIdle, setTransmitter, setReceiver, ht, hr, hi, pcOut, hl]
  cases s.oc <;> simp [OperationControl.step] <;> split <;> decide

/-- The part of the received fields the frame filters read is held from the DLC to
the start of the next frame. -/
theorem view_identQuiet
    (h : s.err.errFrmReq = true ∨ s.pc.currState = .dlc ∨
      (s.pc.currState.inHeader = false ∧ (step c s i).pc.currState.inHeader = false)) :
    (step c s i).rxs.view.recIdent = s.rxs.view.recIdent ∧
      (step c s i).rxs.view.recIdentType = s.rxs.view.recIdentType ∧
      (step c s i).rxs.view.recIsRtrI = s.rxs.view.recIsRtrI ∧
      (step c s i).rxs.view.recFrameType = s.rxs.view.recFrameType := by
  have hc : ((out c s.pc (pcInput c s i)).rxClearI && pcRxTrigger s) = false := by
    by_contra hc
    simp only [Bool.not_eq_false, Bool.and_eq_true] at hc
    obtain ⟨he, hn⟩ := rxClear_next hc.1
    have he : s.err.errFrmReq = false := he
    rcases h with h | h | ⟨-, h⟩
    · rw [he] at h
      cases h
    · simp [out_state he, h, outState, outDlc] at hc
    · exact absurd (h.symm.trans (inHeader_start (hn hc.2))) (by decide)
  obtain ⟨hb, hx, hi, hr, hf⟩ := out_identQuiet (c := c) (q := s.pc) (i := pcInput c s i)
    (h.imp_right fun h => h.imp_right fun h => h.1)
  have hsplit : s.rxs.fields.recIdent.extractLsb' 18 11 ++ s.rxs.fields.recIdent.extractLsb' 0 18 =
      s.rxs.fields.recIdent := by
    ext k hk
    simp
    grind
  simp only [step, RxShiftReg.step, RxShiftReg.view, pcOut, hc, hb, hx, hi, hr, hf]
  cases s.rxs.clearQ <;> simp [hsplit]

/-- The received fields are cleared when a frame starts. -/
theorem clearQ_start (h : (step c s i).rxs.clearQ = true) :
    (step c s i).pc.currState = .sof ∨ (step c s i).pc.currState = .baseId := by
  simp only [step, RxShiftReg.step, Bool.and_eq_true] at h
  exact (rxClear_next h.1).2 h.2

/-- The received DLC is held from the DLC field to the start of the next frame. -/
theorem view_dlcQuiet (he : s.err.errFrmReq = false) (hq : s.pc.currState.inHeader = false)
    (hq' : (step c s i).pc.currState.inHeader = false) :
    (step c s i).rxs.view.recDlc = s.rxs.view.recDlc := by
  have hc : ((out c s.pc (pcInput c s i)).rxClearI && pcRxTrigger s) = false := by
    by_contra hc
    simp only [Bool.not_eq_false, Bool.and_eq_true] at hc
    exact absurd (hq'.symm.trans (inHeader_start ((rxClear_next hc.1).2 hc.2))) (by decide)
  have hd : (out c s.pc (pcInput c s i)).rxStoreDlcI = false := by
    rw [out_state he]
    cases hs : s.pc.currState <;> rw [hs] at hq <;>
      first | exact absurd hq (by decide) | rfl | skip
    simp [outState, outOff, apply_ite Out.rxStoreDlcI]
  simp only [step, RxShiftReg.step, RxShiftReg.view, pcOut, hc, hd]
  cases s.rxs.clearQ <;> simp

/-! ## Sample points and errors -/

/-- Facts of every run with spaced sample points: sampled events follow the sample
point at a fixed distance, and no sampled error hits the end of frame. -/
structure Paced (s : State) (since : Nat) : Prop where
  trigger : s.rxTrigReqQ = decide (since = 0)
  bitErr_sample : s.bed.bitErrQ = true → since = 0
  stuffErr_sample : s.bds.stuffErrQ = true → since = 0
  metadata_sample : s.pc.storeMetadata = true → since = 1
  storeData_sample : s.pc.storeData = true → since = 1
  recValid_sample : s.pc.recValid = true → since = 1
  ctr_lt : s.ctr.ctrlCtrQ < 512
  destuff_stuffed : s.pc.destuffEnable = true → s.pc.currState.inStuffed = true
  spControl_dataRate : s.pc.spControlQ ≠ .nominalSample → s.pc.currState.inDataRate = true
  bitErr_eof : s.bed.bitErrQ = true → s.pc.currState ≠ .eof
  stuffErr_eof : s.bds.stuffErrQ = true → s.pc.currState ≠ .eof
  abort_afterError : s.pc.recAbort = true → s.pc.currState.afterError = true

namespace Paced

variable {since : Nat}

theorem of_reset : Paced reset 4 where
  trigger := rfl
  bitErr_sample h := by cases h
  stuffErr_sample h := by cases h
  metadata_sample h := by cases h
  storeData_sample h := by cases h
  recValid_sample h := by cases h
  ctr_lt := by decide
  destuff_stuffed h := by cases h
  spControl_dataRate h := absurd rfl h
  bitErr_eof h := by cases h
  stuffErr_eof h := by cases h
  abort_afterError h := by cases h

theorem pcRxTrigger_since (hp : Paced s since) (ht : pcRxTrigger s = true) : since = 0 := by
  simp only [pcRxTrigger, hp.trigger, Bool.and_eq_true, decide_eq_true_eq] at ht
  exact ht.1

theorem command_since (hp : Paced s since) (hok : SampleSpacing since i)
    (ht : pcRxTrigger s = true) : sinceSample since i = 1 := by
  have h0 := hp.pcRxTrigger_since ht
  have hn : i.rxTrigReq = false := by
    by_contra h
    have := hok (by simpa using h)
    omega
  simp [sinceSample, hn, h0]

/-- A sample point in the end of frame follows a cycle in the end of frame. -/
theorem eof_before (hp : Paced s since) (hok : SampleSpacing since i) (ht : i.rxTrigReq = true)
    (h' : (step c s i).pc.currState = .eof) :
    s.err.errFrmReq = false ∧ s.pc.currState = .eof := by
  obtain ⟨he, hq | ⟨-, hr⟩⟩ := enter_eof h'
  · exact ⟨he, hq⟩
  · have := hp.pcRxTrigger_since hr
    have := hok ht
    omega

theorem step_paced (hp : Paced s since) (hok : SampleSpacing since i) :
    Paced (step c s i) (sinceSample since i) where
  trigger := by
    cases ht : i.rxTrigReq <;> simp [step, sinceSample, ht]
  bitErr_sample h := by
    have ht : i.rxTrigReq = true := by
      simp [step, BitErrDetector.step, BitErrDetector.bitErrSspValid,
        BitErrDetector.bitErrNormValid, bedInput] at h
      grind
    simp [sinceSample, ht]
  stuffErr_sample h := by
    have ht : i.rxTrigReq = true := by
      simp [step, BitDestuffing.step, bdsInput] at h
      exact h.1
    simp [sinceSample, ht]
  metadata_sample h := by
    simp [step, ProtocolControl.step] at h
    exact hp.command_since hok h.1.2
  storeData_sample h := by
    simp [step, ProtocolControl.step] at h
    exact hp.command_since hok h.1.2
  recValid_sample h := by
    simp [step, ProtocolControl.step] at h
    exact hp.command_since hok h.1.2
  ctr_lt := CanCore.ctr_lt hp.ctr_lt
  destuff_stuffed := destuffEnable_step hp.destuff_stuffed
  spControl_dataRate := spControl_step hp.spControl_dataRate
  bitErr_eof h h' := by
    have ht : i.rxTrigReq = true := by
      simp [step, BitErrDetector.step, BitErrDetector.bitErrSspValid,
        BitErrDetector.bitErrNormValid, bedInput] at h
      grind
    obtain ⟨he, hq⟩ := hp.eof_before hok ht h'
    have hs : s.pc.spControlQ = .nominalSample := by
      by_contra hs
      simpa [hq, PcState.inDataRate] using hp.spControl_dataRate hs
    simp [step, BitErrDetector.step, BitErrDetector.bitErrSspValid, BitErrDetector.bitErrNormValid,
      bedInput, bitErrEnable, spControl, out_state he,
      hq, outState, outEof, hs] at h
  stuffErr_eof h h' := by
    have hd : i.rxTrigReq = true ∧ s.pc.destuffEnable = true := by
      simp [step, BitDestuffing.step, bdsInput, BitDestuffing.stuffRuleViolate] at h
      exact ⟨h.1, h.2.2⟩
    obtain ⟨-, hq⟩ := hp.eof_before hok hd.1 h'
    simpa [hq, PcState.inStuffed] using hp.destuff_stuffed hd.2
  abort_afterError h := step_err (q := s.pc) (i := pcInput c s i) h

theorem noTrigger (hp : Paced s since) (h : since ≠ 0) : pcRxTrigger s = false := by
  by_contra ht
  exact h (hp.pcRxTrigger_since (by simpa using ht))

/-- Between the sample points the state changes by an error frame request only. -/
theorem state_before (hp : Paced s since) (h : since ≠ 0)
    (h' : (step c s i).pc.currState.afterError = false) :
    s.err.errFrmReq = false ∧ (step c s i).pc.currState = s.pc.currState := by
  have he : s.err.errFrmReq = false := by
    by_contra he
    have := state_err (c := c) (i := i) (by simpa using he)
    exact absurd (this.symm.trans h') (by decide)
  exact ⟨he, step_hold (hp.noTrigger h) he⟩

/-- Between the sample points only the parity check raises an error. -/
theorem errFrmReq_quiet (hp : Paced s since) (h : since ≠ 0) :
    (step c s i).err.errFrmReq = i.tranFrameParityError := by
  have hb : s.bed.bitErrQ = false := by
    by_contra hb
    exact h (hp.bitErr_sample (by simpa using hb))
  have hs : s.bds.stuffErrQ = false := by
    by_contra hs
    exact h (hp.stuffErr_sample (by simpa using hs))
  simp [step, ErrDetector.step, ErrDetector.errFrmReqI, errInput, hb, hs, hp.noTrigger h]

/-- In the end of frame a recessive bit is no error, and a dominant one is while
the counter runs. -/
theorem errFrmReq_eof (hp : Paced s since) (he : s.err.errFrmReq = false)
    (hq : s.pc.currState = .eof) (hz : s.ctr.ctrlCtrZero = false) :
    (step c s i).err.errFrmReq =
      (!s.bds.dataOut && pcRxTrigger s || i.tranFrameParityError) := by
  have hb : s.bed.bitErrQ = false := by
    by_contra hb
    exact hp.bitErr_eof (by simpa using hb) hq
  have hs : s.bds.stuffErrQ = false := by
    by_contra hs
    exact hp.stuffErr_eof (by simpa using hs) hq
  simp [step, ErrDetector.step, ErrDetector.errFrmReqI, errInput, hb, hs, pcOut_noErr he, hq,
    outState, outEof, hz]

end Paced

end CanCore
