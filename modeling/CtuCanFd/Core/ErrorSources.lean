import CtuCanFd.Core.FaultConfinement
import CtuCanFd.Core.TransmitSteps
import Mathlib.Tactic.Tauto

/-!
# Where errors come from

In which states the error detector can see an error, whatever the bit timing: sample
points only need to be two clock cycles apart. In a cycle with an error operation
control is not asked for another role.
-/

open ProtocolControl

namespace ProtocolControl.PcState

/-- States in which a bit error can be reported, besides those after an error. -/
def mayErr : PcState → Bool
  | ide | edlR1 | r0Ext | r0Fd | edlR0 | brs | esi | dlc | data | stuffCount | crc | crcDelim
  | ack | ackFd1 | actErrFlag | ovrFlag => true
  | _ => false

/-- Error frame and overload frame. -/
def inFault : PcState → Bool
  | actErrFlag | pasErrFlag | errDelimWait | errFlagTooLong | errDelim | ovrFlag | ovrDelimWait
  | ovrFlagTooLong | ovrDelim => true
  | _ => false

end ProtocolControl.PcState

namespace CanCore

/-- What the inputs of a cycle are compared with: the identifier type offered in the
last cycle, and whether the TX arbitrator read a word for the core in it. -/
structure Last where
  identType : Bool
  clkEn : Bool
deriving DecidableEq, Repr

def Last.next (s : State) (i : Input) : Last := ⟨i.tranMeta.tranIdentType, s.pc.txtbClkEnQ⟩

/-- Sample points are not in consecutive cycles, a parity error is that of a word read
for the core, and the identifier type does not change in the IDE bit. -/
structure Orderly (l : Last) (s : State) (i : Input) : Prop where
  apart : i.rxTrigReq = true → s.rxTrigReqQ = false
  parity : i.tranFrameParityError = true → l.clkEn = true
  held : s.pc.currState = .ide → isTransmitter s = true → i.tranMeta.tranIdentType = l.identType

instance (l : Last) (s : State) (i : Input) : Decidable (Orderly l s i) :=
  decidable_of_iff
    ((i.rxTrigReq = true → s.rxTrigReqQ = false) ∧
      (i.tranFrameParityError = true → l.clkEn = true) ∧
      (s.pc.currState = .ide → isTransmitter s = true → i.tranMeta.tranIdentType = l.identType))
    ⟨fun ⟨a, b, c⟩ => ⟨a, b, c⟩, fun ⟨a, b, c⟩ => ⟨a, b, c⟩⟩

/-- The data field was left at most a few cycles ago, or is still going on. -/
def NearData (n : Nat) (s : State) : Prop :=
  s.pc.currState = .dlc ∨ s.pc.currState = .data ∨ s.pc.currState = .stuffCount ∨
    ((s.pc.currState = .crc ∨ s.pc.currState.afterError = true) ∧ n ≤ s.ctr.ctrlCtrQ)

structure Sources (l : Last) (s : State) : Prop where
  ctr_lt : s.ctr.ctrlCtrQ < 512
  destuff : s.pc.destuffEnable = true → s.pc.currState.inStuffed = true
  spControl : s.pc.spControlQ ≠ .nominalSample → s.pc.currState.inDataRate = true
  quiet : s.rxTrigReqQ = false → s.bed.bitErrQ = false ∧ s.bds.stuffErrQ = false
  stuffErr : s.bds.stuffErrQ = true → s.bds.destuffedQ = true ∧
    (s.pc.currState.inStuffed = true ∨ (s.pc.currState.afterError = true ∧ 5 ≤ s.ctr.ctrlCtrQ))
  bitErr : s.bed.bitErrQ = true →
    (s.pc.currState.afterError = true ∧ 5 ≤ s.ctr.ctrlCtrQ) ∨
      (s.pc.currState.mayErr = true ∧
        (s.pc.currState = .ide → isTransmitter s = true → l.identType = false))
  ptr : s.pc.txtbPtrQ ≠ 0 → NearData 3 s
  clkEnQ : s.pc.txtbClkEnQ = true → NearData 2 s
  clkEn : l.clkEn = true → NearData 1 s
  valid : s.pc.txtbHwCmdQ.valid = true →
    s.pc.currState = .intermission ∧ s.err.errFrmReq = false

namespace Sources

variable {c : Config} {l : Last} {s : State} {i : Input}

theorem of_reset (l : Last) (h : l.clkEn = false) : Sources l reset := by
  refine ⟨by decide, by decide, by decide, by decide, nofun, nofun, ?_, nofun, ?_, nofun⟩
  · exact fun hp => absurd rfl hp
  · exact fun hc => absurd (h.symm.trans hc) (by decide)

/-! ### A cycle that samples a bit -/

theorem sample_quiet (hok : Orderly l s i) (hr : i.rxTrigReq = true) : pcRxTrigger s = false := by
  simp [pcRxTrigger, hok.apart hr]

/-- A stuff error is that of a bit taken out of the frame. -/
theorem stuffErrQ_field (he' : (step c s i).bds.stuffErrQ = true) :
    i.rxTrigReq = true ∧ s.pc.destuffEnable = true ∧ (step c s i).bds.destuffedQ = true := by
  have hv : i.rxTrigReq = true ∧ (s.bds.stuffRuleViolate (bdsInput c s i)) = true := by
    simpa [step, BitDestuffing.step, bdsInput] using he'
  obtain ⟨hr, hv⟩ := hv
  simp only [BitDestuffing.stuffRuleViolate, Bool.and_eq_true] at hv
  have hena : s.pc.destuffEnable = true := hv.2
  refine ⟨hr, hena, ?_⟩
  simp [step, BitDestuffing.step, bdsInput, hr, hena]
  exact hv.1.1

theorem next_stuffErr (h : Sources l s) (hok : Orderly l s i)
    (he' : (step c s i).bds.stuffErrQ = true) :
    (step c s i).bds.destuffedQ = true ∧
      ((step c s i).pc.currState.inStuffed = true ∨
        ((step c s i).pc.currState.afterError = true ∧ 5 ≤ (step c s i).ctr.ctrlCtrQ)) := by
  obtain ⟨hr, hena, hd⟩ := stuffErrQ_field he'
  refine ⟨hd, ?_⟩
  cases he : s.err.errFrmReq
  · left
    have hs : (step c s i).pc.currState = s.pc.currState :=
      step_hold (c := c) (i := pcInput c s i) (sample_quiet hok hr) he
    rw [hs]
    exact h.destuff hena
  · exact .inr ⟨step_err (c := c) (i := pcInput c s i) he, ctr_err he⟩

/-- Between the bits the role and the sample point in use do not change. -/
theorem spControl_hold (ht : pcRxTrigger s = false) (he : s.err.errFrmReq = false) :
    ProtocolControl.spControl c s.pc (pcInput c s i) = s.pc.spControlQ := by
  have hb : (out c s.pc (pcInput c s i)).brShiftedI = false := by
    rw [out_noErr he]
    cases hst : s.pc.currState <;> first | rfl | skip
    · simp [outState, outOff, apply_ite Out.brShiftedI]
    · simp [outState, outBrs, ht]
    · simp [outState, outCrcDelim, ht]
  simp [ProtocolControl.spControl, hb]

theorem bitErrEnable_mayErr (hena : c.mrSettingsEna = true) (he : s.err.errFrmReq = false)
    (hb : bitErrEnable c s.pc (pcInput c s i) = true) :
    s.pc.currState.mayErr = true ∧
      (s.pc.currState = .ide → i.tranMeta.tranIdentType = false) := by
  simp only [bitErrEnable, out_state he,
    Bool.and_eq_true, Bool.not_eq_true'] at hb
  obtain ⟨hb, -⟩ := hb
  cases hst : s.pc.currState <;> rw [hst] at hb
  case off => simp [outState, outOff, hena] at hb
  case ide =>
    simp only [outState, outIde, ideIsArbitration, Bool.or_eq_false_iff] at hb
    exact ⟨rfl, fun _ => hb.1⟩
  all_goals first | exact ⟨rfl, by simp⟩ | cases hb

theorem inDataRate_mayErr {st : PcState} (h : st.inDataRate = true) :
    st.mayErr = true ∧ st ≠ .ide := by
  revert st
  decide

/-- The field in which a bit error is seen. -/
theorem bitErrQ_field (hsp : s.pc.spControlQ ≠ .nominalSample → s.pc.currState.inDataRate = true)
    (hquiet : i.rxTrigReq = true → pcRxTrigger s = false) (he : s.err.errFrmReq = false)
    (he' : (step c s i).bed.bitErrQ = true) :
    (step c s i).pc.currState = s.pc.currState ∧ s.pc.currState.mayErr = true ∧
      (s.pc.currState = .ide → i.tranMeta.tranIdentType = false) := by
  have hv : c.mrSettingsEna = true ∧ (s.bed.bitErrSspValid (bedInput c s i) = true ∨
      BitErrDetector.bitErrNormValid (bedInput c s i) = true) := by
    simpa [step, BitErrDetector.step, bedInput] using he'
  obtain ⟨hena, hv⟩ := hv
  have hr : i.rxTrigReq = true := by
    rcases hv with hv | hv <;>
      simp only [BitErrDetector.bitErrSspValid, BitErrDetector.bitErrNormValid,
        Bool.and_eq_true] at hv
    · exact hv.1.2
    · exact hv.1.2
  have ht := hquiet hr
  refine ⟨step_hold (c := c) (i := pcInput c s i) ht he, ?_⟩
  rcases hv with hv | hv
  · simp only [BitErrDetector.bitErrSspValid, Bool.and_eq_true, beq_iff_eq] at hv
    have hssp : s.pc.spControlQ = .secondarySample :=
      (spControl_hold (c := c) (i := i) ht he).symm.trans hv.1.1
    obtain ⟨hm, hide⟩ := inDataRate_mayErr (hsp (by simp [hssp]))
    exact ⟨hm, fun hq => absurd hq hide⟩
  · simp only [BitErrDetector.bitErrNormValid, Bool.and_eq_true] at hv
    exact bitErrEnable_mayErr hena he hv.2

theorem next_bitErr (h : Sources l s) (hok : Orderly l s i)
    (he' : (step c s i).bed.bitErrQ = true) :
    ((step c s i).pc.currState.afterError = true ∧ 5 ≤ (step c s i).ctr.ctrlCtrQ) ∨
      ((step c s i).pc.currState.mayErr = true ∧
        ((step c s i).pc.currState = .ide → isTransmitter (step c s i) = true →
          (Last.next s i).identType = false)) := by
  cases he : s.err.errFrmReq
  · obtain ⟨hs, hm, hide⟩ := bitErrQ_field h.spControl (sample_quiet hok) he he'
    rw [hs]
    exact .inr ⟨hm, fun hq _ => hide hq⟩
  · exact .inl ⟨step_err (c := c) (i := pcInput c s i) he, ctr_err he⟩

/-! ### Words read for the core -/

/-- The CRC field starts with its length in the counter. -/
theorem enter_crc (he : s.err.errFrmReq = false)
    (hq : s.pc.currState = .dlc ∨ s.pc.currState = .data ∨ s.pc.currState = .stuffCount)
    (h' : (step c s i).pc.currState = .crc) : 14 ≤ (step c s i).ctr.ctrlCtrQ := by
  have hne : s.pc.currState ≠ .crc := by rcases hq with hq | hq | hq <;> simp [hq]
  have hlen : 14 ≤ crcLength c (pcInput c s i) := by
    rw [crcLength]
    split <;> decide
  rcases state_cases (c := c) (i := i) he with hs | ⟨ht, hs⟩
  · exact absurd (hs.symm.trans h') hne
  · have hn : nextState c s.pc (pcInput c s i) = .crc := hs.symm.trans h'
    have ht : pcRxTrigger s = true := ht
    have he' : (pcInput c s i).errFrmReq = false := he
    simp only [nextState, he', Bool.false_eq_true, if_false] at hn
    have hload : (outState c s.pc (pcInput c s i) s.pc.currState).ctrlCtrPloadI = true ∧
        (outState c s.pc (pcInput c s i) s.pc.currState).ctrlCtrPloadVal =
          crcLength c (pcInput c s i) := by
      rcases hq with hq | hq | hq <;> rw [hq] at hn ⊢ <;>
        simp only [outState, outDlc, outData, outStuffCount] at hn ⊢ <;> grind
    rw [ctr_taken he ht, if_pos hload.1, hload.2]
    exact hlen

theorem crc_step {n : Nat} (he : s.err.errFrmReq = false) (hq : s.pc.currState = .crc)
    (hl : s.ctr.ctrlCtrQ < 512) (hn : n + 1 ≤ s.ctr.ctrlCtrQ) :
    (step c s i).pc.currState = .crc ∧ n ≤ (step c s i).ctr.ctrlCtrQ := by
  have hout := out_state (c := c) (i := i) he
  have hz : s.ctr.ctrlCtrZero = false := by
    simp [ControlCounter.ctrlCtrZero]
    omega
  refine ⟨?_, ?_⟩
  · simp [step, ProtocolControl.step, hout, hq, outState, outCrc, hz]
  · have hp : ctrlCtrPload c s.pc (pcInput c s i) = false := by
      simp [ctrlCtrPload, hout, hq, outState, outCrc]
    simp only [step, nextCtr, ControlCounter.step, hp, pcOut, hout, hq, outState, outCrc]
    split
    · contradiction
    · split <;> omega

/-- One cycle further from the data field. -/
theorem NearData.next {n : Nat} (hn : n ≤ 4) (hl : s.ctr.ctrlCtrQ < 512)
    (h : NearData (n + 1) s) : NearData n (step c s i) := by
  cases he : s.err.errFrmReq
  · have hfield : s.pc.currState = .dlc ∨ s.pc.currState = .data ∨ s.pc.currState = .stuffCount →
        NearData n (step c s i) := by
      intro hq
      have hst : (step c s i).pc.currState = .dlc ∨ (step c s i).pc.currState = .data ∨
          (step c s i).pc.currState = .stuffCount ∨ (step c s i).pc.currState = .crc := by
        rcases state_flow (c := c) (i := i) he with hs | ⟨-, hs⟩
        · rw [hs]
          rcases hq with hq | hq | hq <;> simp [hq]
        · rcases hq with hq | hq | hq <;> rw [hq] at hs <;>
            simp only [PcState.successors, List.mem_cons, List.not_mem_nil, or_false] at hs <;>
            grind
      rcases hst with hs | hs | hs | hs
      · exact .inl hs
      · exact .inr (.inl hs)
      · exact .inr (.inr (.inl hs))
      · have := enter_crc he hq hs
        exact .inr (.inr (.inr ⟨.inl hs, by omega⟩))
    rcases h with hq | hq | hq | ⟨hq | hq, hc⟩
    · exact hfield (.inl hq)
    · exact hfield (.inr (.inl hq))
    · exact hfield (.inr (.inr hq))
    · obtain ⟨hs, hc'⟩ := crc_step (c := c) (i := i) he hq hl hc
      exact .inr (.inr (.inr ⟨.inl hs, hc'⟩))
    · obtain ⟨hs, hc'⟩ := afterError_step (c := c) (i := i) hn he hq hc hl
      exact .inr (.inr (.inr ⟨.inr hs, hc'⟩))
  · have := ctr_err (c := c) (i := i) he
    exact .inr (.inr (.inr ⟨.inr (step_err (c := c) (i := pcInput c s i) he), by omega⟩))

theorem txtbPtrD_reads (h : (out c s.pc (pcInput c s i)).txtbPtrD ≠ 0) :
    s.pc.currState = .dlc ∨ s.pc.currState = .data := by
  by_contra hq
  simp only [not_or] at hq
  exact h (out_txtbPtrD hq.1 hq.2)

theorem next_ptr (h : Sources l s) (h' : (step c s i).pc.txtbPtrQ ≠ 0) :
    NearData 3 (step c s i) := by
  have hd : (out c s.pc (pcInput c s i)).txtbPtrD ≠ 0 := by
    intro hd
    apply h'
    simp only [step, ProtocolControl.step, txtbClkEnD, hd]
    by_cases hp : s.pc.txtbPtrQ = 0 <;> simp [hp]
  refine NearData.next (by decide) h.ctr_lt ?_
  rcases txtbPtrD_reads hd with hq | hq
  · exact .inl hq
  · exact .inr (.inl hq)

theorem txtbClkEnQ_next (h : Sources l s) (h' : (step c s i).pc.txtbClkEnQ = true) :
    NearData 3 s := by
  have hne : s.pc.txtbPtrQ ≠ (out c s.pc (pcInput c s i)).txtbPtrD := by
    have h' : txtbClkEnD c s.pc (pcInput c s i) = true := h'
    simp only [txtbClkEnD, Bool.and_eq_true, bne_iff_ne] at h'
    exact h'.1
  by_cases hd : (out c s.pc (pcInput c s i)).txtbPtrD = 0
  · exact h.ptr fun hp => hne (hp.trans hd.symm)
  · rcases txtbPtrD_reads hd with hq | hq
    · exact .inl hq
    · exact .inr (.inl hq)

/-- Errors seen with the bit protocol control takes. -/
theorem errDetected_cases (h : Sources l s) (hok : Orderly l s i) (ht : pcRxTrigger s = true)
    (hd : errDetected c s i = true) :
    s.bed.bitErrQ = true ∨ (pcOut c s i).formErrI = true ∨ (pcOut c s i).ackErrI = true ∨
      (pcOut c s i).crcErrI = true ∨ (pcOut c s i).bitErrArbI = true ∨ NearData 1 s := by
  have hst : s.bds.stuffErrQ = false := by
    by_contra hst
    have hd := (h.stuffErr (by simpa using hst)).1
    simp [pcRxTrigger, hd] at ht
  simp only [errDetected, ErrDetector.errFrmReqI, errInput, hst, ht, Bool.and_true, Bool.or_false,
    Bool.or_eq_true] at hd
  have hpar : i.tranFrameParityError = true → NearData 1 s := fun hp => h.clkEn (hok.parity hp)
  tauto

theorem next_valid (h : Sources l s) (hok : Orderly l s i)
    (h' : (step c s i).pc.txtbHwCmdQ.valid = true) :
    (step c s i).pc.currState = .intermission ∧ (step c s i).err.errFrmReq = false := by
  have hcmd : ctrlSignalUpd (pcInput c s i) = true ∧
      (out c s.pc (pcInput c s i)).txtbHwCmdD.valid = true := by
    simp only [step, ProtocolControl.step] at h'
    split at h'
    · exact ⟨by assumption, h'⟩
    · cases h'
  obtain ⟨hu, hv⟩ := hcmd
  cases he : s.err.errFrmReq
  · rw [out_noErr he] at hv
    have hq : s.pc.currState = .eof := by
      cases hst : s.pc.currState <;> rw [hst] at hv <;> first | rfl | cases hv | skip
      simp [outState, outOff, apply_ite Out.txtbHwCmdD] at hv
    rw [hq] at hv
    simp only [outState, outEof, Bool.and_eq_true] at hv
    obtain ⟨⟨hz, hb⟩, -⟩ := hv
    have hz : s.ctr.ctrlCtrZero = true := hz
    have hb : s.bds.dataOut = true := hb
    refine ⟨?_, ?_⟩
    · simp [step, ProtocolControl.step, hu, out_noErr, he, hq, outState, outEof, nextState, hz, hb]
    · have ht : pcRxTrigger s = true := by simpa [ctrlSignalUpd, he] using hu
      by_contra hd
      have hd : errDetected c s i = true := Bool.of_not_eq_false hd
      have hcases := h.errDetected_cases hok ht hd
      rw [pcOut_noErr he, hq] at hcases
      rcases hcases with hx | hx | hx | hx | hx | hx
      · rcases h.bitErr hx with ⟨hx, -⟩ | ⟨hx, -⟩ <;> rw [hq] at hx <;> cases hx
      · simp [outState, outEof, hb] at hx
      · cases hx
      · cases hx
      · cases hx
      · rcases hx with hx | hx | hx | ⟨hx | hx, -⟩ <;> rw [hq] at hx <;> cases hx
  · rw [out_err he] at hv
    cases hv

/-! ### One clock cycle -/

theorem step_sources (h : Sources l s) (hok : Orderly l s i) :
    Sources (.next s i) (step c s i) where
  ctr_lt := CanCore.ctr_lt h.ctr_lt
  destuff := destuffEnable_step h.destuff
  spControl := spControl_step h.spControl
  quiet hr := by
    have hr : i.rxTrigReq = false := hr
    simp [step, BitErrDetector.step, BitDestuffing.step, bedInput, bdsInput, hr,
      BitErrDetector.bitErrSspValid, BitErrDetector.bitErrNormValid]
  stuffErr := h.next_stuffErr hok
  bitErr := h.next_bitErr hok
  ptr := h.next_ptr
  clkEnQ h' := NearData.next (by decide) h.ctr_lt (h.txtbClkEnQ_next h')
  clkEn h' := NearData.next (by decide) h.ctr_lt (h.clkEnQ h')
  valid := h.next_valid hok

end Sources

/-! ## Errors and roles -/

/-- Operation control is not asked for another role. -/
structure NoRequest (c : Config) (s : State) (i : Input) : Prop where
  idle : setIdle c s.pc (pcInput c s i) = false
  transmitter : setTransmitter c s.pc (pcInput c s i) = false
  receiver : setReceiver c s.pc (pcInput c s i) = false
  lost : (pcOut c s i).arbitrationLostI = false

section Roles

variable {c : Config} {l : Last} {s : State} {i : Input}

/-- States in which a request can be made. -/
def requesting : PcState → Bool
  | .integrating | .baseId | .rtrSrrR1 | .ide | .extId | .rtrR1 | .eof | .intermission | .suspend
  | .idle | .reintegrating => true
  | _ => false

theorem NoRequest.of_state (he : s.err.errFrmReq = false)
    (hq : requesting s.pc.currState = false) : NoRequest c s i := by
  have hout := out_state (c := c) (i := i) he
  constructor <;>
    simp only [setIdle, setTransmitter, setReceiver, pcOut, hout] <;>
    cases hst : s.pc.currState <;> rw [hst] at hq <;>
    first | rfl | exact absurd hq (by decide) | skip
  all_goals simp [outState, outOff, apply_ite Out.setIdleI, apply_ite Out.setTransmitterI,
    apply_ite Out.setReceiverI, apply_ite Out.arbitrationLostI]

theorem NoRequest.of_hold (he : s.err.errFrmReq = false) (ht : pcRxTrigger s = false) :
    NoRequest c s i where
  idle := by simp [setIdle, ctrlSignalUpd, ht, he]
  transmitter := by simp [setTransmitter, ht]
  receiver := by simp [setReceiver, ht]
  lost := arbitrationLostI_trigger he ht

theorem NoRequest.of_integrating (he : s.err.errFrmReq = false)
    (hq : s.pc.currState = .integrating) (hz : s.ctr.ctrlCtrZero = false) : NoRequest c s i := by
  have hout := out_state (c := c) (i := i) he
  constructor <;>
    simp [setIdle, setTransmitter, setReceiver, pcOut, hout, hq, outState, outIntegrating, hz]

theorem NoRequest.of_reintegrating (he : s.err.errFrmReq = false)
    (hq : s.pc.currState = .reintegrating)
    (hx : (i.reintegCtrExpired && s.ctr.ctrlCtrZero && pcRxTrigger s) = false) :
    NoRequest c s i := by
  have hout := out_state (c := c) (i := i) he
  have hx : ((pcInput c s i).reintegCtrExpired && s.ctr.ctrlCtrZero && pcRxTrigger s) = false := hx
  constructor <;>
    simp [setIdle, setTransmitter, setReceiver, pcOut, hout, hq, outState, outReintegrating, hx]

/-- A bus-off node does not start a frame after the intermission. -/
theorem NoRequest.of_busOff (he : s.err.errFrmReq = false)
    (hq : s.pc.currState = .intermission) (hb : i.isBusOff = true) : NoRequest c s i := by
  have hout := out_state (c := c) (i := i) he
  have hb : (pcInput c s i).isBusOff = true := hb
  constructor <;>
    simp [setIdle, setTransmitter, setReceiver, pcOut, hout, hq, outState, outIntermission, hb]

theorem NoRequest.of_error (h : Sources l s) (hok : Orderly l s i)
    (he : s.err.errFrmReq = false) (hd : errDetected c s i = true) : NoRequest c s i := by
  cases ht : pcRxTrigger s
  · exact .of_hold he ht
  · cases hq : requesting s.pc.currState
    · exact .of_state he hq
    · have hcases := h.errDetected_cases hok ht hd
      have hout := out_state (c := c) (i := i) he
      rw [pcOut_noErr he] at hcases
      have hbit : s.bed.bitErrQ = true →
          (s.pc.currState = .ide ∧
            (isTransmitter s = true → i.tranMeta.tranIdentType = false)) ∨
          (s.pc.currState = .integrating ∧ 1 ≤ s.ctr.ctrlCtrQ) := by
        intro hb
        rcases h.bitErr hb with ⟨ha, hc⟩ | ⟨hm, hide⟩
        · right
          refine ⟨?_, by omega⟩
          cases hst : s.pc.currState <;> rw [hst] at ha hq <;>
            first | rfl | exact absurd ha (by decide) | exact absurd hq (by decide)
        · left
          have hst : s.pc.currState = .ide := by
            cases hst : s.pc.currState <;> rw [hst] at hm hq <;>
              first | rfl | exact absurd hm (by decide) | exact absurd hq (by decide)
          exact ⟨hst, fun hx => (hok.held hst hx).trans (hide hst hx)⟩
      have hnear : NearData 1 s → s.pc.currState = .integrating ∧ 1 ≤ s.ctr.ctrlCtrQ := by
        rintro (hs | hs | hs | ⟨hs | hs, hc⟩)
        · rw [hs] at hq; cases hq
        · rw [hs] at hq; cases hq
        · rw [hs] at hq; cases hq
        · rw [hs] at hq; cases hq
        · refine ⟨?_, hc⟩
          cases hst : s.pc.currState <;> rw [hst] at hs hq <;>
            first | rfl | exact absurd hs (by decide) | exact absurd hq (by decide)
      have hx : isTransmitter s = true → isReceiver s = false := by
        simp only [isTransmitter, isReceiver, beq_iff_eq]
        intro hx
        simp [hx]
      have hlost : s.bds.dataOut = true → arbitrationLostCondition (pcInput c s i) = false := by
        intro hb
        simp [arbitrationLostCondition, hb]
      cases hst : s.pc.currState <;> rw [hst] at hq hcases hbit hnear <;>
        first | exact absurd hq (by decide) | skip
      case integrating =>
        have hz : s.ctr.ctrlCtrZero = false := by
          have hc : 1 ≤ s.ctr.ctrlCtrQ := by
            rcases hcases with hb | hb | hb | hb | hb | hb
            · rcases hbit hb with hx | hx
              · cases hx.1
              · exact hx.2
            · cases hb
            · cases hb
            · cases hb
            · cases hb
            · exact (hnear hb).2
          simp [ControlCounter.ctrlCtrZero]
          omega
        exact .of_integrating he hst hz
      case ide =>
        have hl : (ideIsArbitration (pcInput c s i) &&
            arbitrationLostCondition (pcInput c s i)) = false := by
          rcases hcases with hb | hb | hb | hb | hb | hb
          · rcases hbit hb with ⟨-, hb⟩ | hb
            · cases hxs : isTransmitter s
              · simp [arbitrationLostCondition, hxs]
              · have hide : (pcInput c s i).tranIdentType = false := hb hxs
                simp [ideIsArbitration, hide, hx hxs]
            · cases hb.1
          · cases hb
          · cases hb
          · cases hb
          · have hb : (!txDataWbs c s && s.bds.dataOut) = true := hb
            simp only [Bool.and_eq_true] at hb
            rw [hlost hb.2, Bool.and_false]
          · cases (hnear hb).1
        constructor <;>
          simp [setIdle, setTransmitter, setReceiver, pcOut, hout, hst, outState, outIde, hl]
      case eof =>
        have hi : (outEof c (pcInput c s i)).setIdleI = false := by
          rcases hcases with hb | hb | hb | hb | hb | hb
          · rcases hbit hb with hx | hx <;> cases hx.1
          · simp only [outState, outEof, Bool.and_eq_true, Bool.or_eq_true] at hb ⊢
            rcases hb.2 with hz | hxs
            · simp_all
            · have hxs : isTransmitter s = true := hxs
              simp [hx hxs]
          · cases hb
          · cases hb
          · cases hb
          · cases (hnear hb).1
        constructor <;> simp [setIdle, setTransmitter, setReceiver, pcOut, hout, hst, outState, hi]
        all_goals simp [outEof]
      case baseId | rtrSrrR1 | extId | rtrR1 =>
        have hl : arbitrationLostCondition (pcInput c s i) = false := by
          rcases hcases with hb | hb | hb | hb | hb | hb
          · rcases hbit hb with hx | hx <;> cases hx.1
          · cases hb
          · cases hb
          · cases hb
          · have hb : (!txDataWbs c s && s.bds.dataOut) = true := hb
            simp only [Bool.and_eq_true] at hb
            exact hlost hb.2
          · cases (hnear hb).1
        constructor <;>
          simp [setIdle, setTransmitter, setReceiver, pcOut, hout, hst, outState, outBaseId,
            outRtrSrrR1, outExtId, outRtrR1, hl]
      all_goals
        rcases hcases with hb | hb | hb | hb | hb | hb
        · rcases hbit hb with hx | hx <;> cases hx.1
        · cases hb
        · cases hb
        · cases hb
        · cases hb
        · cases (hnear hb).1

theorem nextOc_quiet (h : NoRequest c s i) :
    nextOc c s i =
      if i.isBusOff && pcRxTrigger s then
        (match s.oc with
          | .receiver => .receiver
          | _ => .off)
      else s.oc := by
  simp only [nextOc, h.idle, h.transmitter, h.receiver, h.lost]
  cases s.oc <;> cases (i.isBusOff && pcRxTrigger s) <;> rfl

/-- An error frame request does not change the role outside restricted operation. -/
theorem noRequest_err (he : s.err.errFrmReq = true) (hr : c.mrModeRom = false) :
    NoRequest c s i := by
  have ho := out_err (c := c) (q := s.pc) (i := pcInput c s i) he
  constructor <;> simp [setIdle, setTransmitter, setReceiver, pcOut, ho, outErrFrm, hr]

end Roles

end CanCore
