import CtuCanFd.Core.CanCore

/-!
# Steps of the protocol control FSM

What one clock cycle does to the state register and the control counter, by the
part of the frame protocol control is in. Later proofs use these facts and the
phases defined here, and do not unfold the state table again.
-/

namespace ProtocolControl

/-! ## Phases of a frame -/

namespace PcState

def all : List PcState :=
  [off, integrating, sof, baseId, rtrSrrR1, ide, extId, rtrR1, edlR1, r0Ext, r0Fd, edlR0, brs,
    esi, dlc, data, stuffCount, crc, crcDelim, ack, ackFd1, ackFd2, ackDelim, eof, intermission,
    suspend, idle, reintegratingWait, reintegrating, actErrFlag, pasErrFlag, errDelimWait,
    errFlagTooLong, ovrFlagTooLong, errDelim, ovrFlag, ovrDelimWait, ovrDelim]

theorem mem_all (s : PcState) : s ∈ all := by
  cases s <;> decide

/-- Facts about the state graph can be checked edge by edge. -/
instance (p : PcState → Prop) [DecidablePred p] : Decidable (∀ s, p s) :=
  decidable_of_iff (∀ s ∈ all, p s) ⟨fun h s => h s s.mem_all, fun h s _ => h s⟩

/-- After the DLC, up to the acknowledge delimiter. -/
def inTail : PcState → Bool
  | data | stuffCount | crc | crcDelim | ack | ackFd1 | ackFd2 | ackDelim => true
  | _ => false

/-- After the CRC, up to the end of frame. -/
def afterCrc : PcState → Bool
  | crcDelim | ack | ackFd1 | ackFd2 | ackDelim | eof => true
  | _ => false

/-- From SOF to the DLC, where the fields the frame filters read come in. -/
def inHeader : PcState → Bool
  | sof | baseId | rtrSrrR1 | ide | extId | rtrR1 | edlR1 | r0Ext | r0Fd | edlR0 | brs | esi
  | dlc => true
  | _ => false

/-- From SOF to the CRC delimiter, where stuff bits can occur. -/
def inStuffed : PcState → Bool
  | sof | baseId | rtrSrrR1 | ide | extId | rtrR1 | edlR1 | r0Ext | r0Fd | edlR0 | brs | esi
  | dlc | data | stuffCount | crc | crcDelim => true
  | _ => false

/-- Fields that can be sent at the data bit rate. -/
def inDataRate : PcState → Bool
  | esi | dlc | data | stuffCount | crc | crcDelim => true
  | _ => false

/-- Edges of the state table without error frame requests. -/
def successors : PcState → List PcState
  | off => [integrating]
  | integrating => [idle]
  | sof => [baseId]
  | baseId => [rtrSrrR1]
  | rtrSrrR1 => [ide]
  | ide => [edlR0, extId]
  | extId => [rtrR1]
  | rtrR1 => [edlR1]
  | edlR1 => [r0Ext, integrating, r0Fd]
  | r0Ext => [dlc]
  | r0Fd => [integrating, brs]
  | edlR0 => [dlc, integrating, r0Fd]
  | brs => [esi]
  | esi => [dlc]
  | dlc => [stuffCount, crc, data]
  | data => [stuffCount, crc]
  | stuffCount => [crc]
  | crc => [crcDelim]
  | crcDelim => [ackFd1, ack]
  | ack => [ackDelim]
  | ackFd1 => [ackFd2]
  | ackFd2 => [ackDelim]
  | ackDelim => [eof]
  | eof => [intermission, ovrFlag, integrating]
  | intermission => [reintegratingWait, baseId, suspend, sof, idle, ovrFlag, integrating]
  | suspend => [baseId, sof, idle]
  | idle => [reintegratingWait, baseId, sof]
  | reintegratingWait => [reintegrating]
  | reintegrating => [idle]
  | actErrFlag | pasErrFlag => [errDelimWait]
  | errDelimWait => [errDelim, errFlagTooLong]
  | errFlagTooLong => [errDelim]
  | ovrFlagTooLong => [ovrDelim]
  | errDelim | ovrDelim => [ovrFlag, intermission]
  | ovrFlag => [ovrDelimWait]
  | ovrDelimWait => [ovrDelim, ovrFlagTooLong]

/-- States an error frame request leads to. -/
def afterError : PcState → Bool
  | actErrFlag | pasErrFlag | integrating => true
  | _ => false

end PcState

section Steps

variable {c : Config} {q : Regs} {i : Input}

theorem out_err (he : i.errFrmReq = true) : out c q i = outErrFrm c q i := by
  simp [out, he]

theorem out_noErr (he : i.errFrmReq = false) : out c q i = outState c q i q.currState := by
  simp [out, he]

/-- A signal that an error frame request leaves inactive comes from the state. -/
theorem out_active (sig : Out → Bool) (herr : sig (outErrFrm c q i) = false)
    (h : sig (out c q i) = true) :
    i.errFrmReq = false ∧ sig (outState c q i q.currState) = true := by
  cases he : i.errFrmReq
  · exact ⟨rfl, out_noErr he ▸ h⟩
  · rw [out_err he, herr] at h
    cases h

/-! ## The state register -/

theorem step_hold (ht : i.rxTrigger = false) (he : i.errFrmReq = false) :
    (step c q i).currState = q.currState := by
  simp [step, ctrlSignalUpd, ht, he]

/-- Where an error frame request leads. -/
theorem step_errFrm (he : i.errFrmReq = true) :
    (step c q i).currState =
      if c.mrModeRom then .integrating
      else if i.isErrActive then .actErrFlag else .pasErrFlag := by
  cases hr : c.mrModeRom <;> simp [step, ctrlSignalUpd, he, out, outErrFrm, nextState, hr]

theorem step_err (he : i.errFrmReq = true) :
    (step c q i).currState.afterError = true := by
  have hs : (step c q i).currState = nextState c q i := by
    simp [step, ctrlSignalUpd, he, out_err he, outErrFrm]
  rw [hs, nextState, if_pos he]
  split
  · split <;> rfl
  · rfl

/-- Two states may not tick although the state table names a successor. -/
def Stalled (c : Config) (q : Regs) (i : Input) : Prop :=
  (q.currState = .off ∧ c.mrSettingsEna = false) ∨
    (q.currState = .pasErrFlag ∧ q.rxDataNbsPrev ≠ i.rxDataNbs)

/-- At a sample point the state register takes what the state table names. -/
theorem step_sample (ht : i.rxTrigger = true) (he : i.errFrmReq = false) (hn : ¬ Stalled c q i) :
    (step c q i).currState = nextState c q i := by
  have hu : ctrlSignalUpd i = true := by simp [ctrlSignalUpd, ht]
  simp only [step, out_noErr he, hu, Bool.and_true]
  split
  · rfl
  · rename_i hk
    simp only [Stalled] at hn
    simp only [nextState, he]
    cases hs : q.currState <;>
      simp_all [outState, outOff, outIntegrating, outSof, outBaseId, outRtrSrrR1, outIde, outExtId,
        outRtrR1, outEdlR1, outR0Ext, outR0Fd, outEdlR0, outBrs, outEsi, outDlc, outData,
        outStuffCount, outCrc, outCrcDelim, outAck, outAckFd1, outAckFd2, outAckDelim, outEof,
        outIntermission, outSuspend, outIdle, outReintegratingWait, outReintegrating, outFlag,
        outPasErrFlag, outDelimWait, outFlagTooLong, outDelim]
    -- only intermission has conditions that overlap
    cases hz : i.ctrlCtrZero <;> cases hd : i.rxDataNbs <;> simp_all

theorem step_stalled (ht : i.rxTrigger = true) (he : i.errFrmReq = false) (hn : Stalled c q i) :
    (step c q i).currState = q.currState := by
  have hu : ctrlSignalUpd i = true := by simp [ctrlSignalUpd, ht]
  simp only [step, out_noErr he, hu, Bool.and_true]
  rcases hn with ⟨hs, hd⟩ | ⟨hs, hd⟩
  · simp [hs, outState, outOff, hd]
  · simp [hs, outState, outPasErrFlag, hd]

/-- Without a request a cycle keeps the state or follows the state table. -/
theorem step_cases (he : i.errFrmReq = false) :
    (step c q i).currState = q.currState ∨
      (i.rxTrigger = true ∧ (step c q i).currState = nextState c q i) := by
  cases ht : i.rxTrigger
  · exact .inl (step_hold ht he)
  · by_cases hn : Stalled c q i
    · exact .inl (step_stalled ht he hn)
    · exact .inr ⟨rfl, step_sample ht he hn⟩

/-! ## Moving through a frame -/

theorem nextState_flow (he : i.errFrmReq = false) :
    nextState c q i = q.currState ∨ nextState c q i ∈ q.currState.successors := by
  rw [nextState, he]
  cases hq : q.currState <;> simp [PcState.successors] <;> grind

/-- Without a request the state stays or moves along an edge of the graph, and
it moves at a sample point only. -/
theorem step_flow (he : i.errFrmReq = false) :
    (step c q i).currState = q.currState ∨
      (i.rxTrigger = true ∧ (step c q i).currState ∈ q.currState.successors) := by
  rcases step_cases he with hs | ⟨ht, hs⟩
  · exact .inl hs
  · rw [hs]
    exact (nextState_flow he).imp_right fun h => ⟨ht, h⟩

theorem step_counted (hq : q.currState = .dlc ∨ q.currState = .eof)
    (hz : i.ctrlCtrZero = false) (he : i.errFrmReq = false) :
    (step c q i).currState = q.currState := by
  rcases step_cases he with hs | ⟨-, hs⟩
  · exact hs
  · rcases hq with hq | hq <;> simp [hs, nextState, he, hq, hz]

theorem enter_tail (h : q.currState.inTail = false) (h' : (step c q i).currState.inTail = true) :
    q.currState = .dlc ∧ i.ctrlCtrZero = true ∧ i.rxTrigger = true ∧ i.errFrmReq = false := by
  have hedge : ∀ s t : PcState, t ∈ s.successors → t.inTail → s.inTail ∨ s = .dlc := by
    decide +kernel
  cases he : i.errFrmReq
  · rcases step_flow (c := c) (q := q) he with hs | ⟨ht, hs⟩
    · rw [hs, h] at h'
      cases h'
    · have hd : q.currState = .dlc := by
        rcases hedge _ _ hs h' with ht | hd
        · rw [h] at ht
          cases ht
        · exact hd
      refine ⟨hd, ?_, ht, rfl⟩
      by_contra hz
      rw [step_counted (.inl hd) (by simpa using hz) he, h] at h'
      cases h'
  · have hdis : ∀ s : PcState, s.afterError → s.inTail = false := by decide
    rw [hdis _ (step_err he)] at h'
    cases h'

theorem step_tail (h : q.currState.inTail = true) (he : i.errFrmReq = false) :
    (step c q i).currState.inTail = true ∨
      (q.currState = .ackDelim ∧ i.rxTrigger = true ∧ (step c q i).currState = .eof) := by
  have hedge : ∀ s t : PcState, t ∈ s.successors → s.inTail →
      t.inTail ∨ (s = .ackDelim ∧ t = .eof) := by decide +kernel
  rcases step_flow (c := c) (q := q) he with hs | ⟨ht, hs⟩
  · exact .inl (hs ▸ h)
  · rcases hedge _ _ hs h with h' | ⟨ha, hf⟩
    · exact .inl h'
    · exact .inr ⟨ha, ht, hf⟩

theorem enter_eof (h' : (step c q i).currState = .eof) :
    i.errFrmReq = false ∧
      (q.currState = .eof ∨ (q.currState = .ackDelim ∧ i.rxTrigger = true)) := by
  have hedge : ∀ s : PcState, .eof ∈ s.successors → s = .ackDelim := by decide
  cases he : i.errFrmReq
  · rcases step_flow (c := c) (q := q) he with hs | ⟨ht, hs⟩
    · exact ⟨rfl, .inl (hs ▸ h')⟩
    · rw [h'] at hs
      exact ⟨rfl, .inr ⟨hedge _ hs, ht⟩⟩
  · have := step_err (c := c) (q := q) he
    rw [h'] at this
    cases this

theorem enter_data (h' : (step c q i).currState = .data) :
    q.currState = .data ∨ q.currState = .dlc := by
  have hedge : ∀ st : PcState, .data ∈ st.successors → st = .data ∨ st = .dlc := by decide
  cases he : i.errFrmReq
  · rcases step_flow (c := c) (q := q) he with hs | ⟨-, hs⟩
    · exact .inl (hs.symm.trans h')
    · rw [h'] at hs
      exact hedge _ hs
  · have := step_err (c := c) (q := q) he
    rw [h'] at this
    cases this

/-! ## Data length -/

theorem dlcDecoder_le (dlc : BitVec 4) (ft : Bool) : dlcDecoder dlc ft ≤ 64 := by
  revert dlc ft
  decide

theorem dlcDecoder_zero (dlc : BitVec 4) (ft : Bool) : dlcDecoder dlc ft = 0 ↔ dlc = 0 := by
  revert dlc ft
  decide

theorem dataLengthC_le : dataLengthC c i ≤ 64 := by
  rw [dataLengthC]
  split
  · exact dlcDecoder_le _ _
  · exact dlcDecoder_le _ _

/-! ## Commands and controls by state -/

theorem out_storeMetadataD :
    (out c q i).storeMetadataD =
      (!i.errFrmReq && decide (q.currState = .dlc) && i.ctrlCtrZero) := by
  cases he : i.errFrmReq
  · rw [out_noErr he]
    cases hq : q.currState <;> try rfl
    simp [outState, outOff, apply_ite Out.storeMetadataD]
  · rw [out_err he]
    rfl

theorem out_recValidD :
    (out c q i).recValidD =
      (!i.errFrmReq && decide (q.currState = .eof) && i.ctrlCtrOne && i.rxDataNbs) := by
  cases he : i.errFrmReq
  · rw [out_noErr he]
    cases hq : q.currState <;> try rfl
    simp [outState, outOff, apply_ite Out.recValidD]
  · rw [out_err he]
    rfl

theorem out_storeDataD (h : (out c q i).storeDataD = true) :
    i.errFrmReq = false ∧ q.currState = .data := by
  obtain ⟨he, h⟩ := out_active Out.storeDataD rfl h
  refine ⟨he, ?_⟩
  cases hq : q.currState <;> rw [hq] at h <;> first | rfl | cases h | skip
  simp [outState, outOff, apply_ite Out.storeDataD] at h

/-- Outside the DLC and the data field no data word is addressed. -/
theorem out_txtbPtrD (hd : q.currState ≠ .dlc) (hw : q.currState ≠ .data) :
    (out c q i).txtbPtrD = 0 := by
  cases he : i.errFrmReq
  · rw [out_noErr he]
    cases hq : q.currState <;> first | rfl | exact absurd hq hd | exact absurd hq hw | skip
    simp [outState, outOff, apply_ite Out.txtbPtrD]
  · rw [out_err he]
    rfl

/-- From the DLC on, and when an error frame is requested, the identifier part of
the received fields is not written. -/
theorem out_identQuiet
    (h : i.errFrmReq = true ∨ q.currState = .dlc ∨ q.currState.inHeader = false) :
    (out c q i).rxStoreBaseIdI = false ∧
      (out c q i).rxStoreExtIdI = false ∧ (out c q i).rxStoreIdeI = false ∧
      (out c q i).rxStoreRtrI = false ∧ (out c q i).rxStoreEdlI = false := by
  cases he : i.errFrmReq
  · rw [out_noErr he]
    cases hq : q.currState <;> simp_all [PcState.inHeader] <;>
      first | exact ⟨rfl, rfl, rfl, rfl, rfl⟩ | skip
    simp [outState, outOff, apply_ite Out.rxStoreBaseIdI, apply_ite Out.rxStoreExtIdI,
      apply_ite Out.rxStoreIdeI, apply_ite Out.rxStoreRtrI, apply_ite Out.rxStoreEdlI]
  · rw [out_err he]
    exact ⟨rfl, rfl, rfl, rfl, rfl⟩

/-- From the DLC to the end of frame operation control is asked for nothing,
except to go idle in restricted operation when the frame is over. -/
theorem out_ocQuiet (he : i.errFrmReq = false)
    (h : q.currState = .dlc ∨ q.currState.inTail = true ∨
      (q.currState = .eof ∧ i.ctrlCtrZero = false)) :
    (out c q i).setTransmitterI = false ∧ (out c q i).setReceiverI = false ∧
      (out c q i).setIdleI = false ∧ (out c q i).arbitrationLostI = false := by
  rw [out_noErr he]
  cases hq : q.currState <;> simp_all [PcState.inTail] <;>
    first | exact ⟨rfl, rfl, rfl, rfl⟩ | simp [outState, outEof, *]

theorem out_ctrlCtrPloadVal_lt : (out c q i).ctrlCtrPloadVal < 512 := by
  have hcrc : crcLength c i < 512 := by
    rw [crcLength]
    split <;> decide
  have hdata : dataLengthBitsC c i < 512 := Nat.mod_lt _ (by decide)
  cases he : i.errFrmReq
  · rw [out_noErr he]
    cases hq : q.currState <;>
      simp only [outState, outOff, outIntegrating, outSof, outBaseId, outRtrSrrR1, outIde, outExtId,
        outRtrR1, outEdlR1, outR0Ext, outR0Fd, outEdlR0, outBrs, outEsi, outDlc, outData,
        outStuffCount, outCrc, outCrcDelim, outAck, outAckFd1, outAckFd2, outAckDelim, outEof,
        outIntermission, outSuspend, outIdle, outReintegratingWait, outReintegrating, outFlag,
        outPasErrFlag, outDelimWait, outFlagTooLong, outDelim] <;>
      grind
  · rw [out_err he, outErrFrm]
    grind

/-! ## Stuffing enables and sample control -/

/-- Destuffing is enabled where a frame starts. -/
theorem destuffEnableSet_next (he : i.errFrmReq = false)
    (h : (out c q i).destuffEnableSet = true) :
    nextState c q i = .sof ∨ nextState c q i = .baseId := by
  rw [out_noErr he] at h
  rw [nextState, he]
  cases hq : q.currState <;> rw [hq] at h <;> first | cases h | skip
  case off => simp [outState, outOff, apply_ite Out.destuffEnableSet] at h
  case intermission =>
    simp [outState, outIntermission, frameStart] at h
    grind
  case suspend =>
    simp [outState, outSuspend] at h
    grind
  case idle =>
    simp [outState, outIdle, frameStart] at h
    grind

/-- The received fields are cleared where a frame starts. -/
theorem rxClear_next (h : (out c q i).rxClearI = true) :
    i.errFrmReq = false ∧ (i.rxTrigger = true →
      (step c q i).currState = .sof ∨ (step c q i).currState = .baseId) := by
  obtain ⟨he, h⟩ := out_active Out.rxClearI rfl h
  refine ⟨he, fun ht => ?_⟩
  have hset : (out c q i).destuffEnableSet = true ∧ ¬ Stalled c q i := by
    rw [out_noErr he]
    cases hq : q.currState <;> rw [hq] at h <;> first | cases h | skip
    case off => simp [outState, outOff, apply_ite Out.rxClearI] at h
    all_goals exact ⟨h, by simp [Stalled, hq]⟩
  rw [step_sample ht he hset.2]
  exact destuffEnableSet_next he hset.1

theorem inHeader_start {st : PcState} (h : st = .sof ∨ st = .baseId) : st.inHeader = true := by
  rcases h with rfl | rfl <;> rfl

/-- A protocol exception switches destuffing off. -/
theorem destuffEnableClear_exception (he : i.errFrmReq = false)
    (hq : q.currState.inStuffed = true) (hn : nextState c q i = .integrating) :
    (out c q i).destuffEnableClear = true := by
  rw [nextState, he] at hn
  rw [out_noErr he]
  cases hs : q.currState <;> rw [hs] at hq hn <;> try cases hq
  case edlR1 | r0Fd | edlR0 =>
    simp [outState, outEdlR1, outR0Fd, outEdlR0]
    grind [pexOnFdfEnable, pexOnResEnable]
  all_goals grind

theorem inStuffed_next (he : i.errFrmReq = false) (hq : q.currState.inStuffed = true)
    (hc : (out c q i).destuffEnableClear = false) : (nextState c q i).inStuffed = true := by
  have hedge : ∀ s t : PcState, t ∈ s.successors → s.inStuffed →
      t.inStuffed ∨ t = .integrating ∨ s = .crcDelim := by decide +kernel
  rcases nextState_flow (c := c) (q := q) he with hs | hs
  · rw [hs]
    exact hq
  · rcases hedge _ _ hs hq with h | h | h
    · exact h
    · rw [destuffEnableClear_exception he hq h] at hc
      cases hc
    · rw [out_noErr he, h] at hc
      cases hc

theorem destuffEnable_step (h : q.destuffEnable = true → q.currState.inStuffed = true)
    (h' : (step c q i).destuffEnable = true) :
    (step c q i).currState.inStuffed = true := by
  cases he : i.errFrmReq
  · cases ht : i.rxTrigger
    · rw [step_hold ht he]
      exact h (by simpa [step, ctrlSignalUpd, ht, he] using h')
    · have hd : (out c q i).destuffEnableSet = true ∨
          (q.destuffEnable = true ∧ (out c q i).destuffEnableClear = false) := by
        simpa [step, ctrlSignalUpd, ht] using h'
      have hn : ¬ Stalled c q i := by
        rintro (⟨hq, ha⟩ | ⟨hq, ha⟩) <;> rcases hd with hd | ⟨hd, -⟩
        · rw [out_noErr he, hq] at hd
          simp [outState, outOff, ha] at hd
        · simpa [hq, PcState.inStuffed] using h hd
        · rw [out_noErr he, hq] at hd
          cases hd
        · simpa [hq, PcState.inStuffed] using h hd
      rw [step_sample ht he hn]
      rcases hd with hd | ⟨hd, hc⟩
      · rcases destuffEnableSet_next he hd with hs | hs <;> rw [hs] <;> rfl
      · exact inStuffed_next he (h hd) hc
  · rw [step, out_err he] at h'
    simp [ctrlSignalUpd, he, outErrFrm] at h'

/-- The sample point changes in the BRS bit and in the CRC delimiter only. -/
theorem out_spControl (he : i.errFrmReq = false) (hb : q.currState ≠ .brs)
    (hd : q.currState ≠ .crcDelim) :
    (out c q i).spControlSwitchData = false ∧ (out c q i).spControlSwitchNominal = false := by
  rw [out_noErr he]
  cases hq : q.currState <;>
    first | exact absurd hq hb | exact absurd hq hd | exact ⟨rfl, rfl⟩ | skip
  simp [outState, outOff, apply_ite Out.spControlSwitchData, apply_ite Out.spControlSwitchNominal]

theorem spControl_step (h : q.spControlQ ≠ .nominalSample → q.currState.inDataRate = true)
    (h' : (step c q i).spControlQ ≠ .nominalSample) :
    (step c q i).currState.inDataRate = true := by
  have hedge : ∀ s t : PcState, t ∈ s.successors → s.inDataRate → t.inDataRate ∨ s = .crcDelim := by
    decide +kernel
  cases he : i.errFrmReq
  · by_cases hb : q.currState = .brs
    · have hs : q.spControlQ = .nominalSample := by
        by_contra hs
        simpa [hb, PcState.inDataRate] using h hs
      have ht : i.rxTrigger = true := by
        by_contra ht
        simp [step, out_noErr he, hb, outState, outBrs, ht, hs] at h'
      rw [step_sample ht he (by simp [Stalled, hb]), nextState, he, hb]
      rfl
    · by_cases hd : q.currState = .crcDelim
      · have ht : i.rxTrigger = false := by
          by_contra ht
          rw [Bool.not_eq_false] at ht
          cases hs : q.spControlQ <;>
            simp [step, spControlD, out_noErr he, hd, outState, outCrcDelim, ht, hs] at h'
        rw [step_hold ht he, hd]
        rfl
      · have hs : (step c q i).spControlQ = q.spControlQ := by
          simp [step, out_spControl he hb hd]
        have hr := h (hs ▸ h')
        rcases step_flow (c := c) (q := q) he with hk | ⟨-, hk⟩
        · rw [hk]
          exact hr
        · exact (hedge _ _ hk hr).resolve_right hd
  · refine absurd ?_ h'
    cases hs : q.spControlQ <;> simp [step, spControlD, out_err he, outErrFrm, hs]

end Steps

end ProtocolControl
