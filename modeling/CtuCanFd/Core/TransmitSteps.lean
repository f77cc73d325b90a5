import CtuCanFd.Core.CoreSteps
import Mathlib.Tactic.SplitIfs

/-!
# Starting and sending a frame

What protocol control drives between two frames, where a frame starts, and from
SOF to the data field, where stuffing is regular and a transmitter compares every
bit it sends with the bit it samples.
-/

namespace ProtocolControl

namespace PcState

/-- From SOF to the data field. -/
def inPlain : PcState → Bool
  | sof | baseId | rtrSrrR1 | ide | extId | rtrR1 | edlR1 | r0Ext | r0Fd | edlR0 | brs | esi
  | dlc | data => true
  | _ => false

/-- States a frame starts from. -/
def inPause : PcState → Bool
  | intermission | suspend | idle => true
  | _ => false

/-- Bits that protocol control compares itself, with the bit error detector off. -/
def inArbitration : PcState → Bool
  | sof | baseId | rtrSrrR1 | ide | extId | rtrR1 => true
  | _ => false

theorem inStuffed_of_inPlain {st : PcState} (h : st.inPlain = true) : st.inStuffed = true := by
  revert h
  cases st <;> decide

end PcState

variable {c : Config} {q : Regs} {i : Input}

/-- Signals from SOF to the data field. -/
structure PlainOut (o : Out) : Prop where
  fixedStuff : o.fixedStuff = false
  stuffEnableSet : o.stuffEnableSet = false
  stuffEnableClear : o.stuffEnableClear = o.arbitrationLostI
  destuffEnableSet : o.destuffEnableSet = false
  setTransmitterI : o.setTransmitterI = false
  setReceiverI : o.setReceiverI = false
  setIdleI : o.setIdleI = false
  txFrameNoSofD : o.txFrameNoSofD = false
  rxClearI : o.rxClearI = false

theorem out_plain (he : i.errFrmReq = false) (hq : q.currState.inPlain = true) :
    PlainOut (out c q i) := by
  rw [out_noErr he]
  cases hs : q.currState <;> rw [hs] at hq <;>
    first | exact ⟨rfl, rfl, rfl, rfl, rfl, rfl, rfl, rfl, rfl⟩ | cases hq

/-- Signals between two frames: nothing is sent and nothing is stuffed. -/
structure PauseOut (o : Out) : Prop where
  fixedStuff : o.fixedStuff = false
  stuffEnableClear : o.stuffEnableClear = false
  stuffEnableSet : o.stuffEnableSet = o.setTransmitterI
  txDominant : o.txDominant = false
  txShiftEnaI : o.txShiftEnaI = false
  arbitrationLostI : o.arbitrationLostI = false

theorem out_pause (he : i.errFrmReq = false) (hq : q.currState.inPause = true) :
    PauseOut (out c q i) := by
  rw [out_noErr he]
  cases hs : q.currState <;> rw [hs] at hq <;>
    first | exact ⟨rfl, rfl, rfl, rfl, rfl, rfl⟩ | cases hq

theorem out_stuffEnableSet (he : i.errFrmReq = false) :
    (out c q i).stuffEnableSet = (out c q i).setTransmitterI := by
  rw [out_noErr he]
  cases hq : q.currState <;> first | rfl | skip
  simp [outState, outOff, apply_ite Out.stuffEnableSet, apply_ite Out.setTransmitterI]

/-- Up to the CRC delimiter a frame changes the role of the unit by lost
arbitration only, which switches stuffing off. -/
theorem out_stuffed (he : i.errFrmReq = false) (hq : q.currState.inStuffed = true) :
    (out c q i).setTransmitterI = false ∧ (out c q i).setReceiverI = false ∧
      (out c q i).setIdleI = false ∧
      ((out c q i).stuffEnableClear = false → (out c q i).arbitrationLostI = false) := by
  rw [out_noErr he]
  cases hs : q.currState <;> rw [hs] at hq <;>
    first | exact absurd hq (by decide) | exact ⟨rfl, rfl, rfl, id⟩ | exact ⟨rfl, rfl, rfl, fun _ => rfl⟩

theorem err_notPlain (he : i.errFrmReq = true) :
    (step c q i).currState.inPlain = false ∧ (step c q i).currState.inPause = false := by
  have hdis : ∀ s : PcState, s.afterError → s.inPlain = false ∧ s.inPause = false := by decide
  exact hdis _ (step_err he)

theorem enter_plain (h' : (step c q i).currState.inPlain = true) :
    i.errFrmReq = false ∧
      (q.currState.inPlain = true ∨ (q.currState.inPause = true ∧ i.rxTrigger = true)) := by
  have hedge : ∀ s t : PcState, t ∈ s.successors → t.inPlain → s.inPlain ∨ s.inPause := by
    decide +kernel
  cases he : i.errFrmReq
  · refine ⟨rfl, ?_⟩
    rcases step_flow (c := c) (q := q) he with hs | ⟨ht, hs⟩
    · exact .inl (hs ▸ h')
    · exact (hedge _ _ hs h').imp_right fun h => ⟨h, ht⟩
  · rw [(err_notPlain he).1] at h'
    cases h'

theorem enter_pause (h' : (step c q i).currState.inPause = true) :
    i.errFrmReq = false ∧
      (q.currState = (step c q i).currState ∨ i.rxTrigger = true) := by
  cases he : i.errFrmReq
  · refine ⟨rfl, ?_⟩
    rcases step_flow (c := c) (q := q) he with hs | ⟨ht, -⟩
    · exact .inl hs.symm
    · exact .inr ht
  · rw [(err_notPlain he).2] at h'
    cases h'

/-- A transmission starts with an own SOF after a recessive bit, or with the base
identifier after a dominant one. In the idle state `frame_start` looks at the role
of the last frame, which must be over. -/
theorem start_transmitter (he : i.errFrmReq = false) (ht : i.rxTrigger = true)
    (hrole : q.currState = .idle → i.isTransmitter = false)
    (h : (out c q i).setTransmitterI = true) :
    q.currState.inPause = true ∧ (out c q i).setReceiverI = false ∧
      (out c q i).setIdleI = false ∧ (out c q i).destuffEnableSet = true ∧
      (i.isBusOff = false ∨ q.currState = .suspend) ∧
      (((step c q i).currState = .sof ∧ i.rxDataNbs = true ∧ (step c q i).txFrameNoSofQ = false) ∨
        ((step c q i).currState = .baseId ∧ i.rxDataNbs = false ∧
          (step c q i).txFrameNoSofQ = true ∧ ctrlCtrPload c q i = true ∧
          (out c q i).ctrlCtrPloadVal = 10)) := by
  have hu : ctrlSignalUpd i = true := by simp [ctrlSignalUpd, ht]
  simp only [step, ctrlCtrPload, out_noErr he, hu] at h ⊢
  cases hq : q.currState <;> rw [hq] at h <;> first | cases h | skip
  case off => simp [outState, outOff, apply_ite Out.setTransmitterI] at h
  case intermission =>
    simp only [outState, outIntermission, goToSuspend, Bool.and_eq_true, Bool.not_eq_true'] at h
    obtain ⟨⟨⟨hz, hb⟩, hv⟩, hs⟩ := h
    cases hr : i.rxDataNbs <;>
      simp [outState, outIntermission, goToSuspend, frameStart, hz, hb, hv, hs, ht, hr, he, hq,
        PcState.inPause, nextState]
  case suspend =>
    simp only [outState, outSuspend, Bool.and_eq_true] at h
    obtain ⟨⟨hr, hz⟩, hv⟩ := h
    simp [outState, outSuspend, hz, hv, ht, hr, he, hq, PcState.inPause, nextState]
  case idle =>
    simp only [outState, outIdle, Bool.and_eq_true, Bool.not_eq_true'] at h
    obtain ⟨hb, hv⟩ := h
    cases hr : i.rxDataNbs <;>
      simp [outState, outIdle, hb, hv, ht, hr, he, hq, PcState.inPause, nextState, frameStart,
        goToSuspend, hrole hq]

/-- A frame that is not transmitted is received. -/
theorem start_receiver (he : i.errFrmReq = false) (hq : q.currState.inPause = true)
    (ht : i.rxTrigger = true) (h' : (step c q i).currState.inPlain = true)
    (h : (out c q i).setTransmitterI = false) :
    (out c q i).setReceiverI = true ∧ (out c q i).setIdleI = false ∧
      (i.isBusOff = false ∨ q.currState = .suspend) := by
  have hu : ctrlSignalUpd i = true := by simp [ctrlSignalUpd, ht]
  simp only [step, out_noErr he, hu] at h h' ⊢
  cases hs : q.currState <;> rw [hs] at hq h h' <;> try cases hq
  case intermission =>
    simp [outState, outIntermission, nextState, hs, he] at h h' ⊢
    grind [PcState.inPlain]
  case suspend =>
    simp [outState, outSuspend, nextState, hs, he] at h h' ⊢
    grind [PcState.inPlain]
  case idle =>
    simp [outState, outIdle, nextState, hs, he] at h h' ⊢
    grind [PcState.inPlain]

/-- The buffer is locked exactly when the unit becomes transmitter. -/
theorem out_lock : (out c q i).txtbHwCmdD.lock = (out c q i).setTransmitterI := by
  cases he : i.errFrmReq
  · rw [out_noErr he]
    cases hq : q.currState <;> try rfl
    simp [outState, outOff, apply_ite Out.txtbHwCmdD, apply_ite Out.setTransmitterI]
  · rw [out_err he]
    rfl

theorem out_setTransmitterI (h : (out c q i).setTransmitterI = true) :
    i.errFrmReq = false ∧ q.currState.inPause = true ∧ i.tranFrameValid = true := by
  obtain ⟨he, h⟩ := out_active Out.setTransmitterI rfl h
  refine ⟨he, ?_⟩
  cases hq : q.currState <;> rw [hq] at h <;> first | cases h | skip
  case off => simp [outState, outOff, apply_ite Out.setTransmitterI] at h
  all_goals simp_all [outState, outIntermission, outSuspend, outIdle, PcState.inPause]

/-- With the request to become transmitter a frame starts. -/
theorem start_state (ht : i.rxTrigger = true)
    (h : (out c q i).setTransmitterI = true) :
    (step c q i).currState = .sof ∨ (step c q i).currState = .baseId := by
  obtain ⟨he, hq, -⟩ := out_setTransmitterI h
  have hs : (step c q i).currState = nextState c q i :=
    step_sample ht he (by simp only [Stalled]; cases hst : q.currState <;> simp_all [PcState.inPause])
  rw [hs]
  rw [out_noErr he] at h
  cases hst : q.currState <;> rw [hst] at hq h <;> cases hq
  all_goals
    simp only [outState, outIntermission, outSuspend, outIdle, goToSuspend] at h
    simp only [nextState, hst, he, goToSuspend]
    grind

/-- The idle state is entered with `set_idle`, and left when a frame starts. -/
theorem enter_idle (h' : (step c q i).currState = .idle) :
    i.errFrmReq = false ∧ (out c q i).arbitrationLostI = false ∧ setTransmitter c q i = false ∧
      (setIdle c q i = true ∨ q.currState = .idle) := by
  have he : i.errFrmReq = false := by
    by_contra he
    have := (err_notPlain (c := c) (q := q) (by simpa using he)).2
    rw [h'] at this
    cases this
  refine ⟨he, ?_⟩
  simp only [setIdle, setTransmitter, out_noErr he]
  have hedge : ∀ s : PcState, .idle ∈ s.successors →
      s = .integrating ∨ s = .intermission ∨ s = .suspend ∨ s = .reintegrating := by decide
  have hu : i.rxTrigger = true → ctrlSignalUpd i = true := fun ht => by simp [ctrlSignalUpd, ht]
  rcases step_cases (c := c) (q := q) he with hs | ⟨ht, hs⟩
  · have hq : q.currState = .idle := hs.symm.trans h'
    refine ⟨by rw [hq]; rfl, ?_, .inr hq⟩
    by_contra hset
    simp only [Bool.not_eq_false, Bool.and_eq_true, hq, outState, outIdle, Bool.not_eq_true'] at hset
    obtain ⟨⟨hb, hv⟩, ht⟩ := hset
    simp [step, out_noErr he, hq, outState, outIdle, hb, hv, hu ht, nextState, he] at h'
    grind
  · have hn := hs.symm.trans h'
    rcases nextState_flow (c := c) (q := q) he with hq | hq
    · have hq : q.currState = .idle := hq.symm.trans hn
      refine ⟨by rw [hq]; rfl, ?_, .inr hq⟩
      simp [nextState, he, hq, outState, outIdle] at hn ⊢
      grind
    · rw [hn] at hq
      simp only [hu ht, Bool.and_true]
      rcases hedge _ hq with hq | hq | hq | hq <;> rw [hq] <;>
        simp only [nextState, he, hq, outState, outIntegrating, outIntermission, outSuspend,
          outReintegrating, ht] at hn ⊢ <;> split_ifs at hn <;> simp_all

end ProtocolControl
