import CtuCanFd.Core.ErrorSources
import CtuCanFd.Core.Following

/-!
# Lock and release of the TXT buffer

Protocol control locks a buffer with the frame it starts to transmit and releases it
once: when arbitration is lost, when an error frame is requested or at the end of the
frame. In between the unit is transmitter.
-/

open ProtocolControl

namespace ProtocolControl

/-- From SOF to the end of frame. -/
def PcState.inFrame : PcState → Bool
  | .sof | .baseId | .rtrSrrR1 | .ide | .extId | .rtrR1 | .edlR1 | .r0Ext | .r0Fd | .edlR0 | .brs
  | .esi | .dlc | .data | .stuffCount | .crc | .crcDelim | .ack | .ackFd1 | .ackFd2 | .ackDelim
  | .eof => true
  | _ => false

/-- The commands that release a buffer. -/
def TxtbHwCmd.unlock (cmd : TxtbHwCmd) : Bool := cmd.valid || cmd.err || cmd.arbl || cmd.failed

variable {c : Config} {q : Regs} {i : Input}

theorem arbitrationCmd_unlock (lost : Bool) : (arbitrationCmd c i lost).unlock = lost := by
  simp only [TxtbHwCmd.unlock, arbitrationCmd]
  cases lost <;> cases txFailed c i <;> rfl

theorem errorCmd_unlock :
    (errorCmd c q i).unlock = (i.isTransmitter && !blockTxtbUnlock q.currState) ∧
      (errorCmd c q i).lock = false := by
  refine ⟨?_, rfl⟩
  simp only [TxtbHwCmd.unlock, errorCmd]
  cases i.isTransmitter <;> cases blockTxtbUnlock q.currState <;> cases txFailed c i <;> rfl

/-- Without an error a buffer is released when arbitration is lost and at the end of
the frame. -/
theorem out_unlock (he : i.errFrmReq = false) :
    (out c q i).txtbHwCmdD.unlock =
      ((out c q i).arbitrationLostI ||
        (q.currState == .eof && i.ctrlCtrZero && i.rxDataNbs && i.isTransmitter)) := by
  rw [out_noErr he]
  cases hq : q.currState <;>
    first | rfl | skip
  case off =>
    cases hena : c.mrSettingsEna <;> simp [outState, outOff, hena, TxtbHwCmd.unlock]
  case eof => simp [outState, outEof, TxtbHwCmd.unlock]
  all_goals
    simp [outState, outBaseId, outRtrSrrR1, outIde, outExtId, outRtrR1, arbitrationCmd_unlock]

theorem out_lost (h : (out c q i).arbitrationLostI = true) :
    q.currState.inStuffed = true ∧ i.isTransmitter = true := by
  obtain ⟨-, h⟩ := out_active Out.arbitrationLostI rfl h
  cases hq : q.currState <;> rw [hq] at h <;> first | cases h | skip
  case off => simp [outState, outOff, apply_ite Out.arbitrationLostI] at h
  all_goals
    refine ⟨rfl, ?_⟩
    simp only [outState, outBaseId, outRtrSrrR1, outIde, outExtId, outRtrR1,
      arbitrationLostCondition, Bool.and_eq_true] at h
    simp [h]

end ProtocolControl

namespace CanCore

variable {c : Config} {l : Last} {k : Clock} {s : State} {i : Input} {g : Bool}

/-- No error is under way from the bit error detector, destuffing or a word read. -/
structure Clear (l : Last) (s : State) : Prop where
  noBitErr : s.bed.bitErrQ = false
  noStuffErr : s.bds.stuffErrQ = false
  ptr : s.pc.txtbPtrQ = 0
  clkEnQ : s.pc.txtbClkEnQ = false
  clkEn : l.clkEn = false

theorem Clear.parity (h : Clear l s) (hok : Orderly l s i) : i.tranFrameParityError = false := by
  by_contra hp
  exact absurd (h.clkEn.symm.trans (hok.parity (by simpa using hp))) (by decide)

/-- In states without bit errors, stuff bits and words to read it stays so. -/
theorem Clear.next (h : Clear l s) (hs : Sources l s) (hok : Orderly l s i)
    (he : s.err.errFrmReq = false)
    (hq : s.pc.currState.mayErr = false ∧ s.pc.currState.inStuffed = false) :
    Clear (.next s i) (step c s i) := by
  have hptr : (out c s.pc (pcInput c s i)).txtbPtrD = 0 := by
    refine out_txtbPtrD ?_ ?_ <;> intro hst <;> rw [hst] at hq <;> cases hq.2
  have hclk : txtbClkEnD c s.pc (pcInput c s i) = false := by simp [txtbClkEnD, hptr, h.ptr]
  have hde : s.pc.destuffEnable = false := by
    by_contra hd
    exact absurd (hq.2.symm.trans (hs.destuff (by simpa using hd))) (by decide)
  refine ⟨?_, ?_, ?_, hclk, h.clkEnQ⟩
  · by_contra hb
    have hfield := Sources.bitErrQ_field hs.spControl (Sources.sample_quiet hok) he (c := c)
      (by simpa using hb)
    exact absurd (hq.1.symm.trans hfield.2.1) (by decide)
  · simp [step, BitDestuffing.step, BitDestuffing.stuffRuleViolate, bdsInput, hde]
  · simp [step, ProtocolControl.step, hclk, h.ptr]

/-- At a sample point of a field before the DLC nothing is under way either. -/
theorem Clear.of_sample (hs : Sources l s) (hok : Orderly l s i) (ht : pcRxTrigger s = true)
    (hq : ∀ n, ¬ NearData n s) : Clear (.next s i) (step c s i) := by
  have hr : i.rxTrigReq = false := by
    by_contra hr
    exact absurd ((Sources.sample_quiet hok (by simpa using hr)).symm.trans ht) (by decide)
  have hptr : s.pc.txtbPtrQ = 0 := by
    by_contra hp
    exact hq 3 (hs.ptr hp)
  have hclkQ : s.pc.txtbClkEnQ = false := by
    by_contra hc
    exact hq 2 (hs.clkEnQ (by simpa using hc))
  have hd : (out c s.pc (pcInput c s i)).txtbPtrD = 0 := by
    by_contra hd
    rcases Sources.txtbPtrD_reads hd with hst | hst
    · exact hq 0 (.inl hst)
    · exact hq 0 (.inr (.inl hst))
  have hclk : txtbClkEnD c s.pc (pcInput c s i) = false := by simp [txtbClkEnD, hptr, hd]
  refine ⟨?_, ?_, ?_, hclk, hclkQ⟩
  · simp [step, BitErrDetector.step, bedInput, hr, BitErrDetector.bitErrSspValid,
      BitErrDetector.bitErrNormValid]
  · simp [step, BitDestuffing.step, bdsInput, hr]
  · simp [step, ProtocolControl.step, hclk, hptr]

/-! ## Who holds a buffer -/

/-- The buffer is locked, given that it was before the command of this cycle. -/
def lockedNow (s : State) (g : Bool) : Bool :=
  if s.pc.txtbHwCmdQ.lock then true else if s.pc.txtbHwCmdQ.unlock then false else g

/-- In a frame, or with the error that a protocol exception of a transmitter is. -/
def transmitting (s : State) : Bool :=
  isTransmitter s &&
    (s.pc.currState.inFrame || (s.err.errFrmReq && s.pc.currState == .integrating))

structure Locking (l : Last) (s : State) (g : Bool) : Prop where
  clear : s.pc.currState = .integrating → Clear l s
  errored : s.err.errFrmReq = true →
    s.pc.currState.inFrame = true ∨ s.pc.currState = .integrating ∨
      blockTxtbUnlock s.pc.currState = true
  locked : lockedNow s g = transmitting s
  released : s.pc.txtbHwCmdQ.unlock = true → g = true
  role : s.pc.currState.inFrame = true → s.oc = .transmitter ∨ s.oc = .receiver

namespace Locking

theorem of_reset (l : Last) : Locking l reset false where
  clear h := by cases h
  errored h := by cases h
  locked := rfl
  released h := by cases h
  role h := by cases h

/-- Where an error is seen, outside restricted operation. -/
theorem errDetected_field (h : Locking l s g) (hs : Sources l s) (hok : Orderly l s i)
    (he : s.err.errFrmReq = false) (hd : errDetected c s i = true) :
    s.pc.currState.inFrame = true ∨ s.pc.currState = .actErrFlag ∨
      s.pc.currState = .pasErrFlag ∨ s.pc.currState = .ovrFlag ∨
      ((s.pc.currState = .errDelim ∨ s.pc.currState = .ovrDelim) ∧
        s.ctr.ctrlCtrZero = false) := by
  have hfield : s.pc.currState.inStuffed = true ∨ s.pc.currState.mayErr = true ∨
      (s.pc.currState.afterError = true ∧ s.pc.currState ≠ .integrating) →
      s.pc.currState.inFrame = true ∨ s.pc.currState = .actErrFlag ∨
        s.pc.currState = .pasErrFlag ∨ s.pc.currState = .ovrFlag := by
    cases s.pc.currState <;> decide
  have hint : s.pc.currState = .integrating → False := by
    intro hq
    have hc := h.clear hq
    have hout := pcOut_noErr (c := c) (i := i) he
    simp [errDetected, ErrDetector.errFrmReqI, errInput, hc.noBitErr, hc.noStuffErr,
      hc.parity hok, hout, hq, outState, outIntegrating] at hd
  have hout := pcOut_noErr (c := c) (i := i) he
  have hae : s.pc.currState.afterError = true →
      s.pc.currState.afterError = true ∧ s.pc.currState ≠ .integrating := fun ha => ⟨ha, hint⟩
  have hlift : s.pc.currState.inFrame = true ∨ s.pc.currState = .actErrFlag ∨
      s.pc.currState = .pasErrFlag ∨ s.pc.currState = .ovrFlag →
      s.pc.currState.inFrame = true ∨ s.pc.currState = .actErrFlag ∨
      s.pc.currState = .pasErrFlag ∨ s.pc.currState = .ovrFlag ∨
      ((s.pc.currState = .errDelim ∨ s.pc.currState = .ovrDelim) ∧
        s.ctr.ctrlCtrZero = false) :=
    Or.imp_right (Or.imp_right (Or.imp_right .inl))
  simp only [errDetected, ErrDetector.errFrmReqI, errInput, hout, Bool.or_eq_true,
    Bool.and_eq_true] at hd
  rcases hd with (((((hd | hd) | hd) | hd) | hd) | hd) | hd
  · refine hlift (hfield ?_)
    rcases hs.bitErr hd with ⟨ha, -⟩ | ⟨hm, -⟩
    · exact .inr (.inr (hae ha))
    · exact .inr (.inl hm)
  · refine hlift (hfield ?_)
    rcases (hs.stuffErr hd).2 with hst | ⟨ha, -⟩
    · exact .inl hst
    · exact .inr (.inr (hae ha))
  · have hd := hd.1
    cases hq : s.pc.currState <;> rw [hq] at hd <;> first | exact .inl rfl | cases hd | skip
    case off => simp [outState, outOff, apply_ite Out.formErrI] at hd
    case errDelim =>
      simp only [outState, outDelim, Bool.and_eq_true, Bool.not_eq_true'] at hd
      exact .inr (.inr (.inr (.inr ⟨.inl rfl, hd.1⟩)))
    case ovrDelim =>
      simp only [outState, outDelim, Bool.and_eq_true, Bool.not_eq_true'] at hd
      exact .inr (.inr (.inr (.inr ⟨.inr rfl, hd.1⟩)))
  · have hd := hd.1
    cases hq : s.pc.currState <;> rw [hq] at hd <;> first | exact .inl rfl | cases hd | skip
    simp [outState, outOff, apply_ite Out.ackErrI] at hd
  · have hd := hd.1
    cases hq : s.pc.currState <;> rw [hq] at hd <;> first | exact .inl rfl | cases hd | skip
    simp [outState, outOff, apply_ite Out.crcErrI] at hd
  · have hd := hd.1
    cases hq : s.pc.currState <;> rw [hq] at hd <;> first | exact .inl rfl | cases hd | skip
    simp [outState, outOff, apply_ite Out.bitErrArbI] at hd
  · refine hlift (hfield ?_)
    rcases hs.clkEn (hok.parity hd) with hq | hq | hq | ⟨hq | hq, -⟩
    · exact .inl (by rw [hq]; rfl)
    · exact .inl (by rw [hq]; rfl)
    · exact .inl (by rw [hq]; rfl)
    · exact .inl (by rw [hq]; rfl)
    · exact .inr (.inr (hae hq))

theorem next_clear (h : Locking l s g) (hrom : c.mrModeRom = false) (hs : Sources l s)
    (hok : Orderly l s i) (h' : (step c s i).pc.currState = .integrating) :
    Clear (.next s i) (step c s i) := by
  cases he : s.err.errFrmReq
  · by_cases hq : s.pc.currState = .integrating
    · exact (h.clear hq).next hs hok he (by rw [hq]; decide)
    · rcases state_flow (c := c) (i := i) he with hk | ⟨ht, hk⟩
      · exact absurd (hk.symm.trans h') hq
      · rw [h'] at hk
        refine .of_sample hs hok ht fun n hn => ?_
        have hfar : ∀ st : PcState, PcState.integrating ∈ st.successors →
            st ≠ .dlc ∧ st ≠ .data ∧ st ≠ .stuffCount ∧ st ≠ .crc ∧ st.afterError = false := by
          decide +kernel
        obtain ⟨h1, h2, h3, h4, h5⟩ := hfar _ hk
        rcases hn with hq | hq | hq | ⟨hq | hq, -⟩
        · exact h1 hq
        · exact h2 hq
        · exact h3 hq
        · exact h4 hq
        · exact absurd (h5.symm.trans hq) (by decide)
  · have hk := step_errFrm (c := c) (q := s.pc) (i := pcInput c s i) he
    have hk : (step c s i).pc.currState = _ := hk
    rw [hk, hrom] at h'
    simp only [Bool.false_eq_true, if_false] at h'
    split at h' <;> cases h'

/-- An error in the end of frame is a dominant bit, and the unit stays there. -/
theorem eof_error (hs : Sources l s) (hok : Orderly l s i) (he : s.err.errFrmReq = false)
    (hq : s.pc.currState = .eof) (hd : errDetected c s i = true) :
    (step c s i).pc.currState = .eof := by
  rcases state_cases (c := c) (i := i) he with hk | ⟨ht, hk⟩
  · exact hk.trans hq
  · have hcases := hs.errDetected_cases hok ht hd
    rw [pcOut_noErr he, hq] at hcases
    rcases hcases with hx | hx | hx | hx | hx | hx
    · rcases hs.bitErr hx with ⟨hx, -⟩ | ⟨hx, -⟩ <;> rw [hq] at hx <;> cases hx
    · simp only [outState, outEof, pcInput_isTransmitter, pcInput_ctrlCtrZero, isTransmitter,
        Bool.and_eq_true, Bool.not_eq_true', Bool.or_eq_true, beq_iff_eq] at hx
      obtain ⟨hrx, hx⟩ := hx
      rw [hk]
      simp only [nextState, pcInput_errFrmReq, he, hq, hrx, pcInput_isReceiver, isReceiver]
      rcases hx with hx | hx
      · simp [hx]
      · simp [hx]
    · cases hx
    · cases hx
    · cases hx
    · rcases hx with hx | hx | hx | ⟨hx | hx, -⟩ <;> rw [hq] at hx <;> cases hx

theorem next_errored (h : Locking l s g) (hrom : c.mrModeRom = false) (hs : Sources l s)
    (hok : Orderly l s i) (he' : (step c s i).err.errFrmReq = true) :
    (step c s i).pc.currState.inFrame = true ∨ (step c s i).pc.currState = .integrating ∨
      blockTxtbUnlock (step c s i).pc.currState = true := by
  cases he : s.err.errFrmReq
  · have hflow := state_flow (c := c) (i := i) he
    have hedge : ∀ st st' : PcState, st' = st ∨ st' ∈ st.successors →
        st.inFrame = true ∧ st ≠ .eof ∨ st = .actErrFlag ∨ st = .pasErrFlag ∨ st = .ovrFlag →
        st'.inFrame = true ∨ st' = .integrating ∨ blockTxtbUnlock st' = true := by
      decide +kernel
    rcases h.errDetected_field hs hok he he' with hq | hq | hq | hq | ⟨hq, hz⟩
    · by_cases heof : s.pc.currState = .eof
      · have hk : (step c s i).pc.currState = .eof := eof_error hs hok he heof he'
        rw [hk]
        exact .inl rfl
      · exact hedge _ _ (hflow.imp_right And.right) (.inl ⟨hq, heof⟩)
    · exact hedge _ _ (hflow.imp_right And.right) (.inr (.inl hq))
    · exact hedge _ _ (hflow.imp_right And.right) (.inr (.inr (.inl hq)))
    · exact hedge _ _ (hflow.imp_right And.right) (.inr (.inr (.inr hq)))
    · rcases state_cases (c := c) (i := i) he with hk | ⟨-, hk⟩
      · rw [hk]
        rcases hq with hq | hq <;> rw [hq] <;> exact .inr (.inr rfl)
      · rw [hk]
        rcases hq with hq | hq <;> simp [nextState, he, hq, hz, blockTxtbUnlock]
  · have hk := step_errFrm (c := c) (q := s.pc) (i := pcInput c s i) he
    have hk : (step c s i).pc.currState = _ := hk
    rw [hk, hrom]
    simp only [Bool.false_eq_true, if_false]
    split <;> exact .inr (.inr rfl)

theorem next_released (h : Locking l s g) (h' : (step c s i).pc.txtbHwCmdQ.unlock = true) :
    lockedNow s g = true := by
  rw [h.locked, transmitting]
  have hq : (step c s i).pc.txtbHwCmdQ =
      if ctrlSignalUpd (pcInput c s i) then (out c s.pc (pcInput c s i)).txtbHwCmdD else {} := rfl
  rw [hq] at h'
  split at h'
  · cases he : s.err.errFrmReq
    · rw [out_unlock he] at h'
      simp only [Bool.or_eq_true, Bool.and_eq_true, beq_iff_eq] at h'
      rcases h' with h' | ⟨⟨⟨hst, -⟩, -⟩, hx⟩
      · obtain ⟨hst, hx⟩ := out_lost h'
        have hx : isTransmitter s = true := hx
        have hfr : ∀ st : PcState, st.inStuffed = true → st.inFrame = true := by decide
        simp [hx, hfr _ hst]
      · have hx : isTransmitter s = true := hx
        simp [hx, hst, PcState.inFrame]
    · rw [out_err he] at h'
      have h' : (errorCmd c s.pc (pcInput c s i)).unlock = true := h'
      rw [errorCmd_unlock.1] at h'
      simp only [pcInput_isTransmitter, Bool.and_eq_true, Bool.not_eq_true'] at h'
      rcases h.errored he with hst | hst | hst
      · simp [h'.1, hst]
      · simp [h'.1, hst]
      · exact absurd (h'.2.symm.trans hst) (by decide)
  · cases h'

/-- The unit keeps its role and its buffer in a frame as long as arbitration is not
lost. -/
theorem frame_role (hrom : c.mrModeRom = false) (he : s.err.errFrmReq = false)
    (hq : s.pc.currState.inFrame = true) (hlost : (pcOut c s i).arbitrationLostI = false)
    (hoff : isTransmitter s = true → pcRxTrigger s = true → i.isBusOff = false) :
    isTransmitter (step c s i) = isTransmitter s := by
  have hreq : NoRequest c s i := by
    cases hst : s.pc.currState.inStuffed
    · by_cases heof : s.pc.currState = .eof
      · have hout := out_state (c := c) (i := i) he
        constructor <;>
          simp [setIdle, setTransmitter, setReceiver, pcOut, hout, heof, outState, outEof, hrom]
      · refine .of_state he ?_
        have hdis : ∀ st : PcState, st.inFrame = true → st.inStuffed = false → st ≠ .eof →
            requesting st = false := by decide
        exact hdis _ hq hst heof
    · obtain ⟨h1, h2, h3, -⟩ := out_stuffed (c := c) (i := pcInput c s i) he hst
      exact ⟨by simp [setIdle, h3], by simp [setTransmitter, h1], by simp [setReceiver, h2], hlost⟩
  have hoc : (step c s i).oc = nextOc c s i := rfl
  simp only [isTransmitter, hoc, nextOc_quiet hreq]
  split
  · rename_i hgo
    simp only [Bool.and_eq_true] at hgo
    have hx : isTransmitter s = false := by
      by_contra hx
      exact absurd ((hoff (by simpa using hx) hgo.2).symm.trans hgo.1) (by decide)
    simp only [isTransmitter] at hx
    revert hx
    cases s.oc <;> decide
  · rfl

theorem lost_role (h : (pcOut c s i).arbitrationLostI = true) : isTransmitter (step c s i) = false := by
  obtain ⟨hst, hx⟩ := out_lost h
  have hx : s.oc = .transmitter := by simpa [isTransmitter] using hx
  have he : s.err.errFrmReq = false := by
    by_contra he
    rw [pcOut_err (by simpa using he)] at h
    cases h
  obtain ⟨-, hr, hi, -⟩ := out_stuffed (c := c) (i := pcInput c s i) he hst
  simp only [isTransmitter, step, nextOc, hx, setIdle, setReceiver, hr, hi, h,
    OperationControl.step]
  simp
  split <;> decide

/-- The commands of a cycle without an error. -/
theorem command_noErr (he : s.err.errFrmReq = false) (ht : pcRxTrigger s = true) :
    (step c s i).pc.txtbHwCmdQ.lock = (out c s.pc (pcInput c s i)).setTransmitterI ∧
      (step c s i).pc.txtbHwCmdQ.unlock =
        ((pcOut c s i).arbitrationLostI ||
          (s.pc.currState == .eof && s.ctr.ctrlCtrZero && s.bds.dataOut && isTransmitter s)) := by
  have hq : (step c s i).pc.txtbHwCmdQ = (out c s.pc (pcInput c s i)).txtbHwCmdD := by
    simp [step, ProtocolControl.step, ctrlSignalUpd, ht]
  rw [hq]
  exact ⟨out_lock, out_unlock he⟩

theorem next_locked_frame (h : Locking l s g) (hrom : c.mrModeRom = false)
    (hf : Following c k s) (hb : Bench k s i) (hena : c.mrSettingsEna = true)
    (hoff : isTransmitter s = true → s.pc.currState.inFrame = true → pcRxTrigger s = true →
      i.isBusOff = false)
    (he : s.err.errFrmReq = false) (ht : pcRxTrigger s = true)
    (hq : s.pc.currState.inFrame = true) :
    lockedNow (step c s i) (lockedNow s g) = transmitting (step c s i) := by
  obtain ⟨hlock, hunlock⟩ := command_noErr (c := c) (i := i) he ht
  have hset : (out c s.pc (pcInput c s i)).setTransmitterI = false := by
    by_contra hset
    have hp := (out_setTransmitterI (by simpa using hset)).2.1
    revert hq hp
    cases s.pc.currState <;> decide
  have hnow : lockedNow s g = isTransmitter s := by simp [h.locked, transmitting, hq]
  have hl : lockedNow (step c s i) (lockedNow s g) =
      if (step c s i).pc.txtbHwCmdQ.unlock then false else isTransmitter s := by
    rw [lockedNow, hlock, hset, hnow]
    simp
  rw [hl, hunlock]
  cases hlost : (pcOut c s i).arbitrationLostI
  · have hrole := frame_role (i := i) hrom he hq hlost fun hx => hoff hx hq
    rw [transmitting, hrole]
    cases hx : isTransmitter s
    · simp
    · have hx' : s.oc = .transmitter := by simpa [isTransmitter] using hx
      by_cases heof : s.pc.currState = .eof
      · have hk := state_sample (c := c) (i := i) ht he (by simp [Stalled, heof])
        have hr : isReceiver s = false := by simp [isReceiver, hx']
        cases hz : s.ctr.ctrlCtrZero <;> cases hrx : s.bds.dataOut <;>
          simp [hk, nextState, he, heof, hz, hrx, hr, PcState.inFrame]
      · have hfr : (step c s i).pc.currState.inFrame = true ∨
            (s.pc.currState.inPlain = true ∧ (step c s i).pc.currState = .integrating) := by
          have hedge : ∀ st st' : PcState, st' = st ∨ st' ∈ st.successors → st.inFrame = true →
              st ≠ .eof → st'.inFrame = true ∨ (st.inPlain = true ∧ st' = .integrating) := by
            decide +kernel
          exact hedge _ _ ((state_flow (c := c) (i := i) he).imp_right
            And.right) hq heof
        rcases hfr with hfr | ⟨hpl, hint⟩
        · simp [heof, hfr]
        · -- a transmitter sees its own bit differ in the protocol exception
          have ho := out_plain (c := c) (q := s.pc) (i := pcInput c s i) he hpl
          have hen := (hf.aligned hx hpl he).stuffEnable
          have hclr : (out c s.pc (pcInput c s i)).stuffEnableClear = false :=
            ho.stuffEnableClear.trans hlost
          have hen' : (step c s i).pc.stuffEnable = true := by
            simp [step, ProtocolControl.step, hen, hclr]
          rcases (hf.step_following hb hena).stuffing hen' with he' | ⟨hst, -⟩
          · simp [heof, hint, he']
          · rw [hint] at hst
            cases hst
  · simp [transmitting, lost_role hlost]

theorem next_locked (h : Locking l s g) (hrom : c.mrModeRom = false) (hs : Sources l s)
    (hok : Orderly l s i) (hf : Following c k s) (hb : Bench k s i) (hena : c.mrSettingsEna = true)
    (hoff : isTransmitter s = true → s.pc.currState.inFrame = true → pcRxTrigger s = true →
      i.isBusOff = false) :
    lockedNow (step c s i) (lockedNow s g) = transmitting (step c s i) := by
  cases he : s.err.errFrmReq
  · have hint : (step c s i).err.errFrmReq = true → s.pc.currState ≠ .integrating := by
      intro he' hq
      have hfield := h.errDetected_field hs hok he he'
      rw [hq] at hfield
      simp [PcState.inFrame] at hfield
    cases ht : pcRxTrigger s
    · -- between the bits
      have hcmd : (step c s i).pc.txtbHwCmdQ = {} := by
        simp [step, ProtocolControl.step, ctrlSignalUpd, ht, he]
      have hst : (step c s i).pc.currState = s.pc.currState :=
        step_hold (c := c) (i := pcInput c s i) ht he
      have hoc : (step c s i).oc = s.oc := nextOc_hold ht he (arbitrationLostI_trigger he ht)
      have hl : lockedNow (step c s i) (lockedNow s g) = lockedNow s g := by
        rw [lockedNow, hcmd]
        rfl
      rw [hl, h.locked, transmitting, transmitting, isTransmitter, isTransmitter, hoc, hst, he]
      cases he' : (step c s i).err.errFrmReq
      · rfl
      · have : (s.pc.currState == .integrating) = false := by simpa using hint he'
        simp [this]
    · by_cases hq : s.pc.currState.inFrame = true
      · exact h.next_locked_frame hrom hf hb hena hoff he ht hq
      · obtain ⟨hlock, hunlock⟩ := command_noErr (c := c) (i := i) he ht
        have hq : s.pc.currState.inFrame = false := by simpa using hq
        have hnow : lockedNow s g = false := by simp [h.locked, transmitting, hq, he]
        cases hset : (out c s.pc (pcInput c s i)).setTransmitterI
        · have hl : lockedNow (step c s i) (lockedNow s g) = false := by
            rw [lockedNow, hlock, hset, hnow]
            simp
          rw [hl]
          symm
          by_contra htr
          have htr : transmitting (step c s i) = true := by simpa using htr
          simp only [transmitting, Bool.and_eq_true, Bool.or_eq_true, beq_iff_eq] at htr
          obtain ⟨hx', hst'⟩ := htr
          have hflow := state_flow (c := c) (i := i) he
          have hedge : ∀ st st' : PcState, st' = st ∨ st' ∈ st.successors → st.inFrame = false →
              st'.inFrame = true → st.inPause = true ∧ st'.inPlain = true := by decide +kernel
          rcases hst' with hfr | ⟨he', hint'⟩
          · obtain ⟨hpause, hpl⟩ := hedge _ _ (hflow.imp_right And.right) hq hfr
            have hx := start_role he hpause ht hpl hx'
            exact absurd (hset.symm.trans hx) (by decide)
          · have hdis : ∀ st st' : PcState, st' = st ∨ st' ∈ st.successors →
                st = .actErrFlag ∨ st = .pasErrFlag ∨ st = .ovrFlag ∨ st = .errDelim ∨
                  st = .ovrDelim → st' ≠ .integrating := by decide +kernel
            refine hdis _ _ (hflow.imp_right And.right) ?_ hint'
            rcases h.errDetected_field hs hok he he' with hx | hx | hx | hx | ⟨hx | hx, -⟩
            · exact absurd (hq.symm.trans hx) (by decide)
            all_goals simp [hx]
        · have hx' := hf.started hb he ht hset
          have hst' : (step c s i).pc.currState.inFrame = true := by
            rcases start_state (q := s.pc) (i := pcInput c s i) ht hset with hk | hk <;>
              simp [step, hk, PcState.inFrame]
          rw [lockedNow, hlock, hset]
          simp [transmitting, hx', hst']
  · -- an error frame request releases the buffer, unless it was released before
    have hk := step_errFrm (c := c) (q := s.pc) (i := pcInput c s i) he
    have hk : (step c s i).pc.currState = _ := hk
    have htr : transmitting (step c s i) = false := by
      rw [transmitting, hk, hrom]
      cases (pcInput c s i).isErrActive <;> simp [PcState.inFrame]
    have hcmd : (step c s i).pc.txtbHwCmdQ = errorCmd c s.pc (pcInput c s i) := by
      have hout := out_err (c := c) (q := s.pc) (i := pcInput c s i) he
      simp [step, ProtocolControl.step, ctrlSignalUpd, he, hout, outErrFrm]
    obtain ⟨hun, hlk⟩ := errorCmd_unlock (c := c) (q := s.pc) (i := pcInput c s i)
    rw [htr, lockedNow, hcmd, hun, hlk, h.locked, transmitting, he]
    cases hx : isTransmitter s
    · simp
    · have hdis : ∀ st : PcState, blockTxtbUnlock st = true →
          st.inFrame = false ∧ ¬ st = .integrating := by decide
      simpa [hx] using hdis s.pc.currState

theorem next_role (h : Locking l s g) (hrom : c.mrModeRom = false) (hf : Following c k s)
    (hb : Bench k s i)
    (hoff : isTransmitter s = true → s.pc.currState.inFrame = true → pcRxTrigger s = true →
      i.isBusOff = false)
    (h' : (step c s i).pc.currState.inFrame = true) :
    (step c s i).oc = .transmitter ∨ (step c s i).oc = .receiver := by
  cases hpl : (step c s i).pc.currState.inPlain
  · have he : s.err.errFrmReq = false := by
      by_contra he
      have hk := state_err (c := c) (i := i) (by simpa using he)
      have hk : (step c s i).pc.currState.afterError = true := hk
      revert h' hk
      cases (step c s i).pc.currState <;> decide
    have hedge : ∀ st st' : PcState, st' = st ∨ st' ∈ st.successors → st'.inFrame = true →
        st'.inPlain = false → st.inFrame = true := by decide +kernel
    have hq := hedge _ _ ((state_flow (c := c) (i := i) he).imp_right
      And.right) h' hpl
    have hset : setIdle c s.pc (pcInput c s i) = false ∧
        setTransmitter c s.pc (pcInput c s i) = false ∧
        setReceiver c s.pc (pcInput c s i) = false := by
      simp only [setIdle, setTransmitter, setReceiver, out_noErr (c := c) (q := s.pc)
        (i := pcInput c s i) he]
      cases hst : s.pc.currState <;> rw [hst] at hq <;>
        first | exact ⟨rfl, rfl, rfl⟩ | exact absurd hq (by decide) | simp [outState, outEof, hrom]
    have hoc : (step c s i).oc = nextOc c s i := rfl
    rw [hoc, nextOc, hset.1, hset.2.1, hset.2.2]
    rcases h.role hq with hx | hx
    · have hgo : (i.isBusOff && pcRxTrigger s) = false := by
        cases ht : pcRxTrigger s
        · simp
        · simp [hoff (by simp [isTransmitter, hx]) hq ht]
      rw [hgo]
      exact oc_frame _ (.inl hx)
    · rw [hx]
      exact .inr oc_receiver_kept
  · have hrole := hf.next_frame_role hb hpl
    simpa [isTransmitter, isReceiver] using hrole

theorem step_locking (h : Locking l s g) (hrom : c.mrModeRom = false) (hs : Sources l s)
    (hok : Orderly l s i) (hf : Following c k s) (hb : Bench k s i) (hena : c.mrSettingsEna = true)
    (hoff : isTransmitter s = true → s.pc.currState.inFrame = true → pcRxTrigger s = true →
      i.isBusOff = false) :
    Locking (.next s i) (step c s i) (lockedNow s g) where
  clear := h.next_clear hrom hs hok
  errored := h.next_errored hrom hs hok
  locked := h.next_locked hrom hs hok hf hb hena hoff
  released := h.next_released
  role := h.next_role hrom hf hb hoff

end Locking

end CanCore
