import CtuCanFd.Core.ErrorSources
import CtuCanFd.Node.Integration

/-!
# Protocol control, operation control and fault confinement

The three state machines are updated at different events. A transmitter whose error
counter passes 255 is bus-off one or two cycles later and loses its role at the next
sample point; until then protocol control stays in the error frame.
-/

open ProtocolControl

namespace ProtocolControl.PcState

/-- Where a bus-off node waits after its error frame. -/
def inBusOff : PcState → Bool
  | intermission | reintegratingWait | reintegrating => true
  | _ => false

/-- From the acknowledge to the intermission, in an error or overload frame or waiting
for the reintegration. -/
def unstuffed : PcState → Bool
  | ack | ackFd1 | ackFd2 | ackDelim | eof | intermission | actErrFlag | pasErrFlag | errDelimWait
  | errFlagTooLong | errDelim | ovrFlag | ovrDelimWait | ovrFlagTooLong | ovrDelim
  | reintegratingWait | reintegrating => true
  | _ => false

end ProtocolControl.PcState

namespace FaultConfinement

variable {l : Limits} {s : State} {i : Input}

/-! ## Transmit error counter -/

theorem txErrCtr_step (hp : s.mrCtrPresPtxQ = false) :
    txErrCtr (step l s i) =
      if i.setErrActive || !s.resErrCtrsQ then 0
      else if incEight i && i.isTransmitter then (txErrCtr s + 8) % 512
      else if decOne i && i.isTransmitter then txErrCtr s - 1
      else txErrCtr s := by
  cases hr : s.resErrCtrsQ <;> cases hs : i.setErrActive <;>
    simp [txErrCtr, step, hr, hs, txErrCtrCe, txErrCtrD, hp]
  cases incEight i <;> cases decOne i <;> cases i.isTransmitter <;> simp

theorem txErrCtr_up (hp : s.mrCtrPresPtxQ = false) (h : txErrCtr s < txErrCtr (step l s i)) :
    incEight i = true ∧ i.isTransmitter = true ∧ txErrCtr (step l s i) ≤ txErrCtr s + 8 := by
  rw [txErrCtr_step hp] at h ⊢
  split at h
  · omega
  · split at h
    · rename_i hi
      simp only [Bool.and_eq_true] at hi
      refine ⟨hi.1, hi.2, ?_⟩
      simp_all
      omega
    · split at h <;> omega

theorem txErrCtr_listener (hp : s.mrCtrPresPtxQ = false) (hx : i.isTransmitter = false)
    (ha : i.setErrActive = false) : txErrCtr (step l s i) = txErrCtr s := by
  rw [txErrCtr_step hp]
  cases hr : s.resErrCtrsQ <;> simp [ha, hx, txErrCtr, hr]

/-- Without a decrement the counter does not go down, nor does it wrap. -/
theorem txErrCtr_down (hp : s.mrCtrPresPtxQ = false) (ha : i.setErrActive = false)
    (hd : i.isTransmitter = true → decOne i = false) (hw : txErrCtr s < 504) :
    txErrCtr s ≤ txErrCtr (step l s i) := by
  have h0 : s.resErrCtrsQ = false → txErrCtr s = 0 := fun hr => by simp [txErrCtr, hr]
  rw [txErrCtr_step hp]
  cases hr : s.resErrCtrsQ
  · simp [h0 hr]
  · simp only [ha, Bool.not_true, Bool.or_self, Bool.false_eq_true, if_false]
    cases hx : i.isTransmitter
    · simp
    · rw [hd hx]
      split
      · omega
      · simp

end FaultConfinement

namespace CanCore

variable {c : Config} {s : State} {i : Input}

/-! ## Operation control -/

/-- Only a bus-off unit turns off. -/
theorem nextOc_off (h : nextOc c s i = .off) :
    s.oc = .off ∨ (i.isBusOff = true ∧ pcRxTrigger s = true) := by
  by_contra hne
  simp only [not_or] at hne
  have hb : (i.isBusOff && pcRxTrigger s) = false := by
    cases hb : i.isBusOff <;> cases ht : pcRxTrigger s <;> simp_all
  rw [nextOc, hb] at h
  revert h
  generalize setIdle c s.pc (pcInput c s i) = a
  generalize setTransmitter c s.pc (pcInput c s i) = b
  generalize setReceiver c s.pc (pcInput c s i) = d
  generalize (pcOut c s i).arbitrationLostI = e
  have hoc := hne.1
  revert hoc
  cases s.oc <;> cases a <;> cases b <;> cases d <;> cases e <;> decide

end CanCore

namespace Node

open FaultConfinement (txErrCtr rxErrCtr txErrCtr_up txErrCtr_listener txErrCtr_down)

section Wires

variable (f : Settings) (s : State) (i : Input)

@[simp] theorem pcInput_rxTrigger : (pcInput f s i).rxTrigger = CanCore.pcRxTrigger s.core := rfl

@[simp] theorem pcInput_errFrmReq : (pcInput f s i).errFrmReq = s.core.err.errFrmReq := rfl

@[simp] theorem pcInput_rxDataNbs : (pcInput f s i).rxDataNbs = s.core.bds.dataOut := rfl

@[simp] theorem pcInput_ctrlCtrZero : (pcInput f s i).ctrlCtrZero = s.core.ctr.ctrlCtrZero := rfl

@[simp] theorem pcInput_isTransmitter :
    (pcInput f s i).isTransmitter = CanCore.isTransmitter s.core := rfl

@[simp] theorem pcInput_isReceiver : (pcInput f s i).isReceiver = CanCore.isReceiver s.core := rfl

@[simp] theorem pcInput_isBusOff : (pcInput f s i).isBusOff = FaultConfinement.isBusOff s.fc := rfl

@[simp] theorem pcInput_isErrActive :
    (pcInput f s i).isErrActive = FaultConfinement.isErrActive s.fc := rfl

@[simp] theorem pcInput_reintegCtrExpired :
    (pcInput f s i).reintegCtrExpired = reintegCtrExpired s := rfl

end Wires

section Protocol

variable {f : Settings} {s : State} {i : Input}

theorem out_state (he : s.core.err.errFrmReq = false) :
    out f.core s.core.pc (pcInput f s i) =
      outState f.core s.core.pc (pcInput f s i) s.core.pc.currState := out_noErr he

theorem state_cases (he : s.core.err.errFrmReq = false) :
    (step f s i).core.pc.currState = s.core.pc.currState ∨
      (CanCore.pcRxTrigger s.core = true ∧
        (step f s i).core.pc.currState = nextState f.core s.core.pc (pcInput f s i)) :=
  step_cases he

theorem state_flow (he : s.core.err.errFrmReq = false) :
    (step f s i).core.pc.currState = s.core.pc.currState ∨
      (CanCore.pcRxTrigger s.core = true ∧
        (step f s i).core.pc.currState ∈ s.core.pc.currState.successors) :=
  step_flow he

theorem state_errFrm (he : s.core.err.errFrmReq = true) :
    (step f s i).core.pc.currState =
      if f.core.mrModeRom then .integrating
      else if FaultConfinement.isErrActive s.fc then .actErrFlag else .pasErrFlag :=
  step_errFrm he

end Protocol

/-- Software does not preset the error counters. -/
structure Ordered (l : CanCore.Last) (s : State) (i : Input) : Prop where
  core : CanCore.Orderly l s.core (coreInput s i)
  presPtx : i.mrCtrPresPtx = false
  presPrx : i.mrCtrPresPrx = false

instance (l : CanCore.Last) (s : State) (i : Input) : Decidable (Ordered l s i) :=
  decidable_of_iff
    (CanCore.Orderly l s.core (coreInput s i) ∧ i.mrCtrPresPtx = false ∧ i.mrCtrPresPrx = false)
    ⟨fun ⟨a, b, c⟩ => ⟨a, b, c⟩, fun ⟨a, b, c⟩ => ⟨a, b, c⟩⟩

/-- Errors still to be reported without a bit being taken: parity errors of words read
for the core, and an error in a stuff bit. -/
def pendingErrors (l : CanCore.Last) (s : CanCore.State) : Nat :=
  l.clkEn.toNat + s.pc.txtbClkEnQ.toNat + (s.pc.txtbPtrQ != 0).toNat +
    (s.rxTrigReqQ && s.bds.destuffedQ).toNat

/-- From reset to the end of the first integration. -/
structure Starting (l : CanCore.Last) (s : CanCore.State) : Prop where
  state : s.pc.currState = .off ∨ s.pc.currState = .integrating
  role : s.oc = .off
  noErr : s.err.errFrmReq = false
  noBitErr : s.bed.bitErrQ = false
  noStuffErr : s.bds.stuffErrQ = false
  noStuffing : s.pc.stuffEnable = false
  ptr : s.pc.txtbPtrQ = 0
  clkEnQ : s.pc.txtbClkEnQ = false
  clkEn : l.clkEn = false

/-- Bus-off after a transmission. -/
structure Gone (f : Settings) (l : CanCore.Last) (s : State) : Prop where
  rom : f.core.mrModeRom = false
  state : (s.core.pc.currState.inFault = true ∧ (s.core.oc = .off ∨ s.core.oc = .transmitter)) ∨
    (s.core.pc.currState.inBusOff = true ∧ s.core.oc = .off)
  bound : s.core.oc = .transmitter → txErrCtr s.fc + 8 * pendingErrors l s.core ≤ 311

/-- The counter has passed 255 and the node is about to be bus-off. -/
structure Crossing (f : Settings) (s : State) : Prop where
  rom : f.core.mrModeRom = false
  role : s.core.oc = .transmitter
  state : s.core.err.errFrmReq = true ∨
    (s.core.pc.currState.inFault = true ∧
      (s.core.pc.currState = .errDelim ∨ s.core.pc.currState = .ovrDelim →
        s.core.ctr.ctrlCtrQ ≠ 0))
  late : f.limits.mrErpErpLimit.toNat ≤ 248 → s.fc.currState = .errPassive
  active : s.fc.currState = .errActive ∨ f.limits.mrErpErpLimit.toNat ≤ 248 →
    txErrCtr s.fc ≤ 263 ∧ (s.core.err.errFrmReq = true ∨ s.core.pc.currState = .errFlagTooLong ∨
      s.core.pc.currState = .ovrFlagTooLong ∨ s.core.pc.currState = .pasErrFlag ∨
      s.core.pc.currState = .errDelimWait)
  passive : txErrCtr s.fc ≤ 271

structure Confined (f : Settings) (l : CanCore.Last) (s : State) : Prop where
  src : CanCore.Sources l s.core
  presPtxQ : s.fc.mrCtrPresPtxQ = false
  presPrxQ : s.fc.mrCtrPresPrxQ = false
  role : s.fc.currState ≠ .busOff → s.core.oc ≠ .off
  state : s.fc.currState ≠ .busOff →
    s.core.pc.currState ∉ [PcState.off, .reintegratingWait, .reintegrating]
  starting : s.fc.currState = .busOff → txErrCtr s.fc ≤ 255 → Starting l s.core
  gone : s.fc.currState = .busOff → 255 < txErrCtr s.fc → Gone f l s
  crossing : s.fc.currState ≠ .busOff → 255 < txErrCtr s.fc → Crossing f s
  bound : txErrCtr s.fc ≤ 319
  sof : s.core.pc.currState = .sof → s.core.oc = .transmitter
  secondary : s.core.pc.spControlQ = .secondarySample → s.core.oc ≠ .receiver
  stuffing : s.core.pc.currState.unstuffed = true → s.core.pc.stuffEnable = false

namespace Confined

variable {f : Settings} {l : CanCore.Last} {s : State} {i : Input}

theorem of_reset (f : Settings) (l : CanCore.Last) (h : l.clkEn = false) : Confined f l reset where
  src := .of_reset l h
  presPtxQ := rfl
  presPrxQ := rfl
  role h := absurd rfl h
  state h := absurd rfl h
  starting _ _ := ⟨.inl rfl, rfl, rfl, rfl, rfl, rfl, rfl, rfl, h⟩
  gone _ h := absurd h (by decide)
  crossing h := absurd rfl h
  bound := by decide
  sof := nofun
  secondary := nofun
  stuffing := nofun

/-! ### Bus-off -/

/-- Bus-off is left at the end of integration or reintegration only, by a node that is off. -/
theorem setErrActive_off (h : Confined f l s) (ha : (fcInput f s i).setErrActive = true) :
    s.fc.currState = .busOff → s.core.oc = .off ∧ (step f s i).core.pc.currState = .idle ∧
      setIdle f.core s.core.pc (pcInput f s i) = true := by
  intro hb
  have ha : ProtocolControl.setErrActive s.core.pc (pcInput f s i) = true := ha
  simp only [ProtocolControl.setErrActive, pcInput_errFrmReq, pcInput_rxTrigger,
    pcInput_ctrlCtrZero, pcInput_reintegCtrExpired, Bool.and_eq_true, Bool.or_eq_true,
    Bool.not_eq_true', beq_iff_eq] at ha
  obtain ⟨⟨⟨he, ht⟩, hz⟩, hcase⟩ := ha
  have hz0 : s.core.ctr.ctrlCtrQ = 0 := by simpa [ControlCounter.ctrlCtrZero] using hz
  have hout := out_state (f := f) (i := i) he
  have hoc : s.core.pc.currState.inFault = false → s.core.oc = .off := by
    intro hst
    by_cases hc : txErrCtr s.fc ≤ 255
    · exact (h.starting hb hc).role
    · rcases (h.gone hb (by omega)).state with ⟨hx, -⟩ | ⟨-, hoc⟩
      · exact absurd (hst.symm.trans hx) (by decide)
      · exact hoc
  rcases hcase with ⟨hq, -⟩ | ⟨hq, hx⟩
  · refine ⟨hoc (by rw [hq]; rfl), integrating_zero hq he ht hz0, ?_⟩
    simp [setIdle, hout, hq, outState, outIntegrating, ctrlSignalUpd, hz, ht]
  · have hrec : recovers s = true := by simp [recovers, he, ht, hq, hz, hx]
    refine ⟨hoc (by rw [hq]; rfl), recovers_idle hrec, ?_⟩
    simp [setIdle, hout, hq, outState, outReintegrating, ctrlSignalUpd, hx, hz, ht]

/-- Fault confinement leaves bus-off on request only. -/
theorem busOff_left (hb : s.fc.currState = .busOff) (h' : (step f s i).fc.currState ≠ .busOff) :
    (fcInput f s i).setErrActive = true := by
  by_contra ha
  apply h'
  simp [step, FaultConfinement.step, FaultConfinement.nextState, hb, ha]

theorem next_role (h : Confined f l s) (h' : (step f s i).fc.currState ≠ .busOff) :
    (step f s i).core.oc ≠ .off := by
  intro hoc
  have hoc : CanCore.nextOc f.core s.core (coreInput s i) = .off := hoc
  by_cases hb : s.fc.currState = .busOff
  · obtain ⟨hoff, -, hidle⟩ := h.setErrActive_off (busOff_left hb h') hb
    rw [CanCore.nextOc, hoff] at hoc
    have hidle : setIdle f.core s.core.pc (CanCore.pcInput f.core s.core (coreInput s i)) = true :=
      hidle
    simp [OperationControl.step, hidle] at hoc
  · rcases CanCore.nextOc_off hoc with hoff | ⟨hbus, -⟩
    · exact h.role hb hoff
    · have hbus : FaultConfinement.isBusOff s.fc = true := hbus
      simp [FaultConfinement.isBusOff, hb] at hbus

theorem next_state (h : Confined f l s) (h' : (step f s i).fc.currState ≠ .busOff) :
    (step f s i).core.pc.currState ∉ [PcState.off, .reintegratingWait, .reintegrating] := by
  by_cases hb : s.fc.currState = .busOff
  · obtain ⟨-, hidle, -⟩ := h.setErrActive_off (busOff_left hb h') hb
    rw [hidle]
    decide
  · have hst := h.state hb
    have hbus : (pcInput f s i).isBusOff = false := by simp [FaultConfinement.isBusOff, hb]
    cases he : s.core.err.errFrmReq
    · rcases state_cases (f := f) (i := i) he with hs | ⟨-, hs⟩
      · rw [hs]
        exact hst
      · have hflow := nextState_flow (c := f.core) (q := s.core.pc) (i := pcInput f s i) he
        rw [hs]
        rcases hflow with hn | hn
        · rw [hn]
          exact hst
        · intro hmem
          have hq : s.core.pc.currState = .intermission ∨ s.core.pc.currState = .idle := by
            revert hst hn hmem
            generalize nextState f.core s.core.pc (pcInput f s i) = st'
            cases s.core.pc.currState <;> cases st' <;> decide
          rcases hq with hq | hq <;>
            simp only [nextState, hq, pcInput_errFrmReq, he, hbus] at hmem <;> grind
    · have hs := state_errFrm (f := f) (i := i) he
      rw [hs]
      split
      · decide
      · split <;> decide

/-! ### The transmit error counter -/

/-- What makes the counter of a transmitter go up. -/
theorem incEight_cases (hx : s.core.oc = .transmitter)
    (h : FaultConfinement.incEight (fcInput f s i) = true) :
    f.core.mrModeRom = false ∧
      (CanCore.errDetected f.core s.core (coreInput s i) = true ∨
        errDelimLate s.core.pc (pcInput f s i) = true ∨
        bitErrAfterAckErr s.core.pc s.flags (pcInput f s i) = true) := by
  have hr : (fcInput f s i).isReceiver = false := by
    show CanCore.isReceiver s.core = false
    simp [CanCore.isReceiver, hx]
  simp only [FaultConfinement.incEight, hr, Bool.and_false, Bool.false_or, Bool.and_eq_true,
    Bool.or_eq_true, Bool.not_eq_true'] at h
  refine ⟨h.2, ?_⟩
  rcases h.1 with (h | h) | h | h
  · exact .inl h.2
  · exact .inl h.1.2
  · exact .inr (.inl h)
  · exact .inr (.inr h)

/-- Only a valid frame makes the counter of a transmitter go down. -/
theorem decOne_quiet (h : Confined f l s)
    (hq : s.core.pc.currState ≠ .intermission ∨ s.core.err.errFrmReq = true)
    (hx : (fcInput f s i).isTransmitter = true) :
    FaultConfinement.decOne (fcInput f s i) = false := by
  have hx : CanCore.isTransmitter s.core = true := hx
  have hr : CanCore.isReceiver s.core = false := by
    simp only [CanCore.isTransmitter, beq_iff_eq] at hx
    simp [CanCore.isReceiver, hx]
  have hdec : (fcInput f s i).decrementRec = false := by
    show decrementRec s.core.pc (pcInput f s i) = false
    simp [decrementRec, hr]
  have hval : (fcInput f s i).tranValid = false := by
    show s.core.pc.txtbHwCmdQ.valid = false
    by_contra hv
    obtain ⟨hst, he⟩ := h.src.valid (by simpa using hv)
    rcases hq with hq | hq
    · exact hq hst
    · exact absurd (he.symm.trans hq) (by decide)
  simp [FaultConfinement.decOne, hdec, hval]

theorem setErrActive_crossing (h : Confined f l s) (hb : s.fc.currState ≠ .busOff) :
    (fcInput f s i).setErrActive = false := by
  have hst := h.state hb
  show setErrActive s.core.pc (pcInput f s i) = false
  have hbus : FaultConfinement.isBusOff s.fc = false := by simp [FaultConfinement.isBusOff, hb]
  have hre : (s.core.pc.currState == .reintegrating) = false := by
    simp only [List.mem_cons, not_or] at hst
    simpa using hst.2.2.1
  simp [setErrActive, hbus, hre]

/-- Past 255 the counter does not go down before the node reintegrates. -/
theorem ctr_kept (h : Confined f l s) (hc : 255 < txErrCtr s.fc)
    (ha : (fcInput f s i).setErrActive = false) :
    txErrCtr s.fc ≤ txErrCtr (step f s i).fc := by
  refine txErrCtr_down h.presPtxQ ha (fun hx => h.decOne_quiet ?_ hx) (by have := h.bound; omega)
  have hx : CanCore.isTransmitter s.core = true := hx
  simp only [CanCore.isTransmitter, beq_iff_eq] at hx
  have hfault : s.core.pc.currState.inFault = true → s.core.pc.currState ≠ .intermission := by
    intro hf hq
    rw [hq] at hf
    cases hf
  by_cases hb : s.fc.currState = .busOff
  · rcases (h.gone hb hc).state with ⟨hf, -⟩ | ⟨-, hoff⟩
    · exact .inl (hfault hf)
    · exact absurd (hx.symm.trans hoff) (by decide)
  · rcases (h.crossing hb hc).state with he | ⟨hf, -⟩
    · exact .inr he
    · exact .inl (hfault hf)

theorem setErrActive_busOff (hb : s.fc.currState = .busOff)
    (h' : (step f s i).fc.currState = .busOff) : (fcInput f s i).setErrActive = false := by
  by_contra ha
  have ha : (fcInput f s i).setErrActive = true := by simpa using ha
  simp [step, FaultConfinement.step, FaultConfinement.nextState, hb, ha] at h'

/-- Bus-off is entered by an error passive node whose counter has passed 255. -/
theorem enter_busOff (hb : s.fc.currState ≠ .busOff) (h' : (step f s i).fc.currState = .busOff) :
    s.fc.currState = .errPassive ∧ 255 < txErrCtr s.fc := by
  have h' : FaultConfinement.nextState f.limits s.fc (fcInput f s i) = .busOff := h'
  rw [FaultConfinement.nextState] at h'
  cases hfc : s.fc.currState <;> rw [hfc] at h' hb
  · simp only at h'
    split at h' <;> cases h'
  · refine ⟨rfl, ?_⟩
    by_contra hc
    simp only [hc, decide_false, Bool.false_eq_true, if_false] at h'
    split at h' <;> cases h'
  · exact absurd rfl hb

theorem next_bound (h : Confined f l s) : txErrCtr (step f s i).fc ≤ 319 := by
  by_contra hc
  have hup : txErrCtr s.fc < txErrCtr (step f s i).fc := by
    have := h.bound
    omega
  obtain ⟨-, hx, hle⟩ := txErrCtr_up (l := f.limits) (i := fcInput f s i) h.presPtxQ hup
  have hx : CanCore.isTransmitter s.core = true := hx
  simp only [CanCore.isTransmitter, beq_iff_eq] at hx
  have hle : txErrCtr (step f s i).fc ≤ txErrCtr s.fc + 8 := hle
  by_cases hlow : txErrCtr s.fc ≤ 255
  · omega
  · by_cases hb : s.fc.currState = .busOff
    · have := (h.gone hb (by omega)).bound hx
      omega
    · have := (h.crossing hb (by omega)).passive
      omega

/-! ### The first integration -/

theorem starting_noRequest (hs : Starting l s.core) (hb : s.fc.currState = .busOff)
    (ha : (fcInput f s i).setErrActive = false) :
    CanCore.NoRequest f.core s.core (coreInput s i) ∧
      (step f s i).core.pc.currState ≠ .idle := by
  have ha : setErrActive s.core.pc (pcInput f s i) = false := ha
  have hbus : FaultConfinement.isBusOff s.fc = true := by simp [FaultConfinement.isBusOff, hb]
  cases ht : CanCore.pcRxTrigger s.core
  · refine ⟨.of_hold hs.noErr ht, ?_⟩
    have hst : (step f s i).core.pc.currState = s.core.pc.currState :=
      step_hold (c := f.core) (i := pcInput f s i) ht hs.noErr
    rw [hst]
    rcases hs.state with hq | hq <;> simp [hq]
  · rcases hs.state with hq | hq
    · refine ⟨.of_state hs.noErr (by rw [hq]; rfl), ?_⟩
      rcases state_cases (f := f) (i := i) hs.noErr with h | ⟨-, h⟩
      · simp [h, hq]
      · simp [h, nextState, hs.noErr, hq]
    · have hz : s.core.ctr.ctrlCtrZero = false := by
        simpa [setErrActive, hs.noErr, ht, hq, hbus] using ha
      refine ⟨.of_integrating hs.noErr hq hz, ?_⟩
      rcases state_cases (f := f) (i := i) hs.noErr with h | ⟨-, h⟩
      · simp [h, hq]
      · simp [h, nextState, hs.noErr, hq, hz]

theorem starting_step (h : Confined f l s) (hok : Ordered l s i) (hs : Starting l s.core)
    (hb : s.fc.currState = .busOff) (ha : (fcInput f s i).setErrActive = false) :
    Starting (.next s.core (coreInput s i)) (step f s i).core := by
  obtain ⟨hreq, hidle⟩ := starting_noRequest (f := f) (i := i) hs hb ha
  have hout := out_state (f := f) (i := i) hs.noErr
  have hnd : s.core.pc.currState ≠ .dlc ∧ s.core.pc.currState ≠ .data := by
    rcases hs.state with hq | hq <;> simp [hq]
  have hptr : (out f.core s.core.pc (pcInput f s i)).txtbPtrD = 0 := out_txtbPtrD hnd.1 hnd.2
  have hclk : txtbClkEnD f.core s.core.pc (pcInput f s i) = false := by
    simp [txtbClkEnD, hptr, hs.ptr]
  have hquiet : s.core.pc.currState.inStuffed = false ∧ s.core.pc.currState.mayErr = false := by
    rcases hs.state with hq | hq <;> rw [hq] <;> decide
  have hdet : CanCore.errDetected f.core s.core (coreInput s i) = false := by
    have hpar : (coreInput s i).tranFrameParityError = false := by
      by_contra hp
      exact absurd (hs.clkEn.symm.trans (hok.core.parity (by simpa using hp))) (by decide)
    have hout : CanCore.pcOut f.core s.core (coreInput s i) = _ := hout
    simp only [CanCore.errDetected, ErrDetector.errFrmReqI, CanCore.errInput, hs.noBitErr,
      hs.noStuffErr, hpar, hout]
    rcases hs.state with hq | hq <;> rw [hq] <;>
      simp [outState, outOff, outIntegrating, apply_ite Out.formErrI, apply_ite Out.ackErrI,
        apply_ite Out.crcErrI, apply_ite Out.bitErrArbI]
  constructor
  · rcases state_flow (f := f) (i := i) hs.noErr with hst | ⟨-, hst⟩
    · rw [hst]
      exact hs.state
    · rcases hs.state with hq | hq <;> rw [hq] at hst
      · exact .inr (by simpa [PcState.successors] using hst)
      · exact absurd (by simpa [PcState.successors] using hst) hidle
  · show CanCore.nextOc f.core s.core (coreInput s i) = .off
    rw [CanCore.nextOc_quiet hreq, hs.role]
    split <;> rfl
  · exact hdet
  · by_contra hbe
    have hfield := CanCore.Sources.bitErrQ_field h.src.spControl
      (CanCore.Sources.sample_quiet hok.core) hs.noErr
      (c := f.core) (Bool.of_not_eq_false hbe)
    exact absurd (hquiet.2.symm.trans hfield.2.1) (by decide)
  · have hde : s.core.pc.destuffEnable = false := by
      by_contra hd
      exact absurd (hquiet.1.symm.trans (h.src.destuff (by simpa using hd))) (by decide)
    simp [step, CanCore.step, BitDestuffing.step, BitDestuffing.stuffRuleViolate,
      CanCore.bdsInput, hde]
  · have hset : (out f.core s.core.pc (CanCore.pcInput f.core s.core (coreInput s i))).stuffEnableSet =
        false := by
      have hreq := out_stuffEnableSet (c := f.core) (q := s.core.pc) (i := pcInput f s i) hs.noErr
      refine hreq.trans ?_
      rw [hout]
      rcases hs.state with hq | hq <;> rw [hq] <;>
        simp [outState, outOff, outIntegrating, apply_ite Out.setTransmitterI]
    simp [step, CanCore.step, ProtocolControl.step, hset, hs.noStuffing]
  · have hclk : txtbClkEnD f.core s.core.pc (CanCore.pcInput f.core s.core (coreInput s i)) = false :=
      hclk
    simp [step, CanCore.step, ProtocolControl.step, hclk, hs.ptr]
  · exact hclk
  · exact hs.clkEnQ

theorem next_starting (h : Confined f l s) (hok : Ordered l s i)
    (h' : (step f s i).fc.currState = .busOff) (hc' : txErrCtr (step f s i).fc ≤ 255) :
    Starting (.next s.core (coreInput s i)) (step f s i).core := by
  by_cases hb : s.fc.currState = .busOff
  · have ha := setErrActive_busOff hb h'
    by_cases hc : txErrCtr s.fc ≤ 255
    · exact h.starting_step hok (h.starting hb hc) hb ha
    · have := h.ctr_kept (by omega) ha
      omega
  · have hc := (enter_busOff hb h').2
    have := h.ctr_kept hc (h.setErrActive_crossing (i := i) hb)
    omega

/-! ### On the way to bus-off -/

/-- In an error or overload frame, and with a request for one, no other role is
asked for. -/
theorem fault_noRequest (hr : f.core.mrModeRom = false)
    (hq : s.core.err.errFrmReq = true ∨ s.core.pc.currState.inFault = true) :
    CanCore.NoRequest f.core s.core (coreInput s i) := by
  have hf : ∀ st : PcState, st.inFault = true → CanCore.requesting st = false := by decide
  cases he : s.core.err.errFrmReq
  · rcases hq with hq | hq
    · exact absurd (he.symm.trans hq) (by decide)
    · exact .of_state he (hf _ hq)
  · exact CanCore.noRequest_err he hr

theorem transmitter_kept (hreq : CanCore.NoRequest f.core s.core (coreInput s i))
    (hb : s.fc.currState ≠ .busOff) (hx : s.core.oc = .transmitter) :
    (step f s i).core.oc = .transmitter := by
  have hbus : (coreInput s i).isBusOff = false := by
    show FaultConfinement.isBusOff s.fc = false
    simp [FaultConfinement.isBusOff, hb]
  show CanCore.nextOc f.core s.core (coreInput s i) = .transmitter
  simp [CanCore.nextOc_quiet hreq, hbus, hx]

/-- The delimiters start with six more bits in the counter. -/
theorem enter_delim (he : s.core.err.errFrmReq = false)
    (hq : s.core.pc.currState ≠ .errDelim ∧ s.core.pc.currState ≠ .ovrDelim)
    (h' : (step f s i).core.pc.currState = .errDelim ∨
      (step f s i).core.pc.currState = .ovrDelim) :
    (step f s i).core.ctr.ctrlCtrQ = 6 := by
  rcases state_cases (f := f) (i := i) he with hs | ⟨ht, hs⟩
  · rw [hs] at h'
    rcases h' with h' | h'
    · exact absurd h' hq.1
    · exact absurd h' hq.2
  · have ht : CanCore.pcRxTrigger s.core = true := ht
    rw [hs] at h'
    have hcase : (s.core.pc.currState = .errDelimWait ∨ s.core.pc.currState = .ovrDelimWait ∨
        s.core.pc.currState = .errFlagTooLong ∨ s.core.pc.currState = .ovrFlagTooLong) ∧
        s.core.bds.dataOut = true := by
      simp only [nextState, pcInput_errFrmReq, pcInput_rxDataNbs, he] at h'
      cases hst : s.core.pc.currState <;> simp only [hst] at h' hq ⊢ <;> grind
    have hout := CanCore.pcOut_noErr (c := f.core) (i := coreInput s i) he
    have hload : ctrlCtrPload f.core s.core.pc (CanCore.pcInput f.core s.core (coreInput s i)) = true ∧
        (CanCore.pcOut f.core s.core (coreInput s i)).ctrlCtrPloadVal = 6 := by
      have hout' := out_noErr (c := f.core) (q := s.core.pc)
        (i := CanCore.pcInput f.core s.core (coreInput s i)) he
      simp only [ctrlCtrPload, ctrlSignalUpd, hout, hout']
      rcases hcase.1 with hst | hst | hst | hst <;>
        simp [hst, outState, outDelimWait, outFlagTooLong, hcase.2, ht]
    simp [step, CanCore.step, CanCore.nextCtr, ControlCounter.step, hload.1, hload.2]

/-- Within an error or overload frame a node moves on, and leaves it at the end of a
delimiter only. -/
theorem fault_step (he : s.core.err.errFrmReq = false)
    (hq : s.core.pc.currState.inFault = true) :
    (step f s i).core.pc.currState.inFault = true ∨
      ((step f s i).core.pc.currState = .intermission ∧ CanCore.pcRxTrigger s.core = true ∧
        (s.core.pc.currState = .errDelim ∨ s.core.pc.currState = .ovrDelim) ∧
        s.core.ctr.ctrlCtrQ = 0) := by
  have hedge : ∀ st st' : PcState, st' ∈ st.successors → st.inFault = true →
      st'.inFault = true ∨ (st' = .intermission ∧ (st = .errDelim ∨ st = .ovrDelim)) := by
    decide +kernel
  rcases state_flow (f := f) (i := i) he with hs | ⟨ht, hs⟩
  · exact .inl (hs ▸ hq)
  · rcases hedge _ _ hs hq with h | ⟨h, hd⟩
    · exact .inl h
    · refine .inr ⟨h, ht, hd, ?_⟩
      have hne : s.core.pc.currState ≠ .intermission := by rcases hd with hd | hd <;> simp [hd]
      rcases state_cases (f := f) (i := i) he with hk | ⟨-, hk⟩
      · exact absurd (hk.symm.trans h) hne
      · have hk : nextState f.core s.core.pc (pcInput f s i) = .intermission := hk.symm.trans h
        simp only [nextState, pcInput_errFrmReq, he, pcInput_ctrlCtrZero,
          ControlCounter.ctrlCtrZero] at hk
        rcases hd with hd | hd <;> simp only [hd] at hk <;> grind

/-- An error frame request leads to an error flag. -/
theorem error_fault (hr : f.core.mrModeRom = false) (he : s.core.err.errFrmReq = true) :
    (step f s i).core.pc.currState = .actErrFlag ∨
      (step f s i).core.pc.currState = .pasErrFlag := by
  have hs := state_errFrm (f := f) (i := i) he
  rw [hs, hr]
  simp only [Bool.false_eq_true, if_false]
  split
  · exact .inl rfl
  · exact .inr rfl

theorem crossing_fault (hx : Crossing f s) : (step f s i).core.pc.currState.inFault = true := by
  cases he : s.core.err.errFrmReq
  · rcases hx.state with hq | ⟨hq, hctr⟩
    · exact absurd (he.symm.trans hq) (by decide)
    · rcases fault_step (f := f) (i := i) he hq with h | ⟨-, -, hd, hz⟩
      · exact h
      · exact absurd hz (hctr hd)
  · rcases error_fault (i := i) hx.rom he with h | h <;> simp [h, PcState.inFault]

theorem crossing_role (hx : Crossing f s) (hb : s.fc.currState ≠ .busOff) :
    (step f s i).core.oc = .transmitter :=
  transmitter_kept (fault_noRequest hx.rom (hx.state.imp_right And.left)) hb hx.role

/-- The counter passes 255. -/
theorem crossing_start (h : Confined f l s) (hok : Ordered l s i) (hb : s.fc.currState ≠ .busOff)
    (hc : txErrCtr s.fc ≤ 255) (hc' : 255 < txErrCtr (step f s i).fc) :
    Crossing f (step f s i) := by
  obtain ⟨hinc, hx, hle⟩ :=
    txErrCtr_up (l := f.limits) (i := fcInput f s i) h.presPtxQ (Nat.lt_of_le_of_lt hc hc')
  have hle : txErrCtr (step f s i).fc ≤ txErrCtr s.fc + 8 := hle
  have hx : CanCore.isTransmitter s.core = true := hx
  simp only [CanCore.isTransmitter, beq_iff_eq] at hx
  obtain ⟨hrom, hcause⟩ := incEight_cases hx hinc
  have hlist : (step f s i).core.err.errFrmReq = true ∨
      (step f s i).core.pc.currState = .errFlagTooLong ∨
      (step f s i).core.pc.currState = .ovrFlagTooLong ∨
      (step f s i).core.pc.currState = .pasErrFlag ∨
      (step f s i).core.pc.currState = .errDelimWait := by
    rcases hcause with hd | hd | hd
    · exact .inl hd
    · right
      simp only [errDelimLate, pcInput_errFrmReq, pcInput_rxTrigger, pcInput_rxDataNbs,
        Bool.and_eq_true, Bool.or_eq_true, Bool.not_eq_true', beq_iff_eq] at hd
      obtain ⟨⟨⟨⟨he, -⟩, hst⟩, hrx⟩, -⟩ := hd
      rcases state_cases (f := f) (i := i) he with hs | ⟨-, hs⟩
      · rw [hs]
        rcases hst with hst | hst <;> simp [hst]
      · rw [hs]
        rcases hst with hst | hst <;> simp [nextState, he, hst, hrx]
    · right
      simp only [bitErrAfterAckErr, pcInput_errFrmReq, Bool.and_eq_true, Bool.not_eq_true',
        beq_iff_eq] at hd
      obtain ⟨⟨⟨⟨he, hst⟩, -⟩, -⟩, -⟩ := hd
      rcases state_flow (f := f) (i := i) he with hs | ⟨-, hs⟩
      · simp [hs, hst]
      · rw [hst] at hs
        simp only [PcState.successors, List.mem_cons, List.not_mem_nil, or_false] at hs
        simp [hs]
  have hreq : CanCore.NoRequest f.core s.core (coreInput s i) := by
    cases he : s.core.err.errFrmReq
    · rcases hcause with hd | hd | hd
      · exact .of_error h.src hok.core he hd
      · refine .of_state he ?_
        simp only [errDelimLate, Bool.and_eq_true, Bool.or_eq_true, beq_iff_eq] at hd
        rcases hd.1.1.2 with hst | hst <;> rw [hst] <;> rfl
      · refine .of_state he ?_
        simp only [bitErrAfterAckErr, Bool.and_eq_true, beq_iff_eq] at hd
        rw [hd.1.1.1.2]
        rfl
    · exact CanCore.noRequest_err he hrom
  have hup : txErrCtr s.fc < txErrCtr (step f s i).fc := Nat.lt_of_le_of_lt hc hc'
  refine ⟨hrom, transmitter_kept hreq hb hx, ?_, fun hlim => ?_, fun _ => ⟨by omega, hlist⟩,
    by omega⟩
  rotate_left
  · -- the counter had reached the limit before
    have hmt : FaultConfinement.txErrCtrMtErp f.limits s.fc = true := by
      simp [FaultConfinement.txErrCtrMtErp]
      omega
    show FaultConfinement.nextState f.limits s.fc (fcInput f s i) = .errPassive
    cases hfc : s.fc.currState
    · simp [FaultConfinement.nextState, hfc, hmt]
    · simp [FaultConfinement.nextState, hfc, hmt, hc]
    · exact absurd hfc hb
  rcases hlist with hl | hl | hl | hl | hl
  · exact .inl hl
  all_goals exact .inr ⟨by rw [hl]; rfl, by simp [hl]⟩

theorem next_crossing (h : Confined f l s) (hok : Ordered l s i)
    (h' : (step f s i).fc.currState ≠ .busOff) (hc' : 255 < txErrCtr (step f s i).fc) :
    Crossing f (step f s i) := by
  by_cases hb : s.fc.currState = .busOff
  · -- the counters are cleared together with the state
    have ha := busOff_left hb h'
    have hz : txErrCtr (step f s i).fc = 0 := by
      show txErrCtr (FaultConfinement.step f.limits s.fc (fcInput f s i)) = 0
      simp [FaultConfinement.txErrCtr_step h.presPtxQ, ha]
    omega
  · by_cases hc : txErrCtr s.fc ≤ 255
    · exact h.crossing_start hok hb hc hc'
    · have hx := h.crossing hb (by omega)
      have hle : txErrCtr (step f s i).fc ≤ txErrCtr s.fc + 8 := by
        by_contra hgt
        have := (txErrCtr_up (l := f.limits) (i := fcInput f s i) h.presPtxQ
          (show txErrCtr s.fc < txErrCtr (step f s i).fc by omega)).2.2
        exact hgt this
      have hfc : s.fc.currState = .errActive ∧ (step f s i).fc.currState = .errPassive := by
        have hlim : FaultConfinement.txErrCtrMtErp f.limits s.fc = true := by
          have := f.limits.mrErpErpLimit.isLt
          simp [FaultConfinement.txErrCtrMtErp]
          omega
        have hn : (step f s i).fc.currState =
          FaultConfinement.nextState f.limits s.fc (fcInput f s i) := rfl
        rw [hn] at h' ⊢
        cases hfc : s.fc.currState <;>
          simp [FaultConfinement.nextState, hfc, hlim] at h' hb ⊢
        omega
      obtain ⟨hact, hlist⟩ := hx.active (.inl hfc.1)
      have hlim : ¬ f.limits.mrErpErpLimit.toNat ≤ 248 := fun hlim =>
        absurd (hfc.1.symm.trans (hx.late hlim)) (by decide)
      refine ⟨hx.rom, crossing_role hx hb, .inr ⟨crossing_fault hx, fun hd => ?_⟩,
        fun hlim' => absurd hlim' hlim, fun ha => ?_, by omega⟩
      rotate_left
      · rcases ha with ha | ha
        · exact absurd (hfc.2.symm.trans ha) (by decide)
        · exact absurd ha hlim
      cases he : s.core.err.errFrmReq
      · rw [enter_delim he ?_ hd]
        · decide
        · rcases hlist with hl | hl | hl | hl | hl
          · exact absurd (he.symm.trans hl) (by decide)
          all_goals simp [hl]
      · rcases error_fault (i := i) hx.rom he with hq | hq <;> simp [hq] at hd

/-! ### Bus-off after a transmission -/

/-- Errors that a cycle without a bit for protocol control reports were pending. -/
theorem pending_report (h : Confined f l s) (hok : Ordered l s i)
    (ht : CanCore.pcRxTrigger s.core = false)
    (hd : CanCore.errDetected f.core s.core (coreInput s i) = true) :
    l.clkEn = true ∨ (s.core.rxTrigReqQ = true ∧ s.core.bds.destuffedQ = true) := by
  have hstuff : s.core.rxTrigReqQ = true →
      s.core.rxTrigReqQ = true ∧ s.core.bds.destuffedQ = true := by
    intro hr
    refine ⟨hr, ?_⟩
    simpa [CanCore.pcRxTrigger, hr] using ht
  simp only [CanCore.errDetected, ErrDetector.errFrmReqI, CanCore.errInput, ht, Bool.and_false,
    Bool.or_false, Bool.or_eq_true] at hd
  rcases hd with (hd | hd) | hd
  · right
    apply hstuff
    by_contra hr
    exact absurd ((h.src.quiet (by simpa using hr)).1.symm.trans hd) (by decide)
  · right
    apply hstuff
    by_contra hr
    exact absurd ((h.src.quiet (by simpa using hr)).2.symm.trans hd) (by decide)
  · exact .inl (hok.core.parity hd)

/-- In an error or overload frame no word is read and no bit is destuffed. -/
theorem pending_next (h : Confined f l s) (hq : s.core.pc.currState.inFault = true) :
    pendingErrors (.next s.core (coreInput s i)) (step f s i).core +
      (l.clkEn.toNat + (s.core.rxTrigReqQ && s.core.bds.destuffedQ).toNat) ≤
        pendingErrors l s.core := by
  have hout : s.core.pc.currState.inStuffed = false ∧ s.core.pc.currState ≠ .dlc ∧
      s.core.pc.currState ≠ .data := by
    have hdis : ∀ st : PcState, st.inFault = true →
        st.inStuffed = false ∧ st ≠ .dlc ∧ st ≠ .data := by decide
    exact hdis _ hq
  have hde : s.core.pc.destuffEnable = false := by
    by_contra hd
    exact absurd (hout.1.symm.trans (h.src.destuff (by simpa using hd))) (by decide)
  have hptr : (out f.core s.core.pc (CanCore.pcInput f.core s.core (coreInput s i))).txtbPtrD = 0 :=
    out_txtbPtrD hout.2.1 hout.2.2
  have hclk : (step f s i).core.pc.txtbClkEnQ = (s.core.pc.txtbPtrQ != 0) := by
    show txtbClkEnD _ _ _ = _
    simp [txtbClkEnD, hptr]
  have hzero : (step f s i).core.pc.txtbPtrQ = 0 := by
    by_cases hp : s.core.pc.txtbPtrQ = 0 <;>
      simp [step, CanCore.step, ProtocolControl.step, txtbClkEnD, hptr, hp]
  have hbds : (step f s i).core.bds.destuffedQ = false := by
    simp [step, CanCore.step, BitDestuffing.step, CanCore.bdsInput, hde]
  simp only [pendingErrors, CanCore.Last.next, hclk, hzero, hbds, Bool.and_false,
    bne_self_eq_false, Bool.toNat_false]
  omega

theorem pendingErrors_le (l : CanCore.Last) (s : CanCore.State) : pendingErrors l s ≤ 4 := by
  have h1 := Bool.toNat_le l.clkEn
  have h2 := Bool.toNat_le s.pc.txtbClkEnQ
  have h3 := Bool.toNat_le (s.pc.txtbPtrQ != 0)
  have h4 := Bool.toNat_le (s.rxTrigReqQ && s.bds.destuffedQ)
  simp only [pendingErrors]
  omega

/-- A bus-off node turns off at the next bit. -/
theorem off_next (hreq : CanCore.NoRequest f.core s.core (coreInput s i))
    (hb : s.fc.currState = .busOff) (hx : s.core.oc = .off ∨ s.core.oc = .transmitter) :
    (step f s i).core.oc = .off ∨
      ((step f s i).core.oc = .transmitter ∧ s.core.oc = .transmitter ∧
        CanCore.pcRxTrigger s.core = false) := by
  have hbus : (coreInput s i).isBusOff = true := by
    show FaultConfinement.isBusOff s.fc = true
    simp [FaultConfinement.isBusOff, hb]
  have hoc : (step f s i).core.oc = CanCore.nextOc f.core s.core (coreInput s i) := rfl
  rw [hoc, CanCore.nextOc_quiet hreq, hbus]
  cases ht : CanCore.pcRxTrigger s.core <;> rcases hx with hx | hx <;> simp [hx]

theorem gone_bound (h : Confined f l s) (hok : Ordered l s i) (hg : Gone f l s)
    (hx : s.core.oc = .transmitter) (ht : CanCore.pcRxTrigger s.core = false) :
    txErrCtr (step f s i).fc +
      8 * pendingErrors (.next s.core (coreInput s i)) (step f s i).core ≤ 311 := by
  have hfault : s.core.pc.currState.inFault = true := by
    rcases hg.state with hs | ⟨-, hoff⟩
    · exact hs.1
    · exact absurd (hx.symm.trans hoff) (by decide)
  have hle := hg.bound hx
  have hpend := h.pending_next (i := i) hfault
  by_cases hup : txErrCtr s.fc < txErrCtr (step f s i).fc
  · obtain ⟨hinc, -, hup⟩ := txErrCtr_up (l := f.limits) (i := fcInput f s i) h.presPtxQ hup
    have hup : txErrCtr (step f s i).fc ≤ txErrCtr s.fc + 8 := hup
    have hone : 1 ≤ l.clkEn.toNat + (s.core.rxTrigReqQ && s.core.bds.destuffedQ).toNat := by
      rcases (incEight_cases hx hinc).2 with hd | hd | hd
      · rcases h.pending_report hok ht hd with hc | ⟨hr, hs⟩
        · simp [hc]
        · simp [hr, hs]
      · simp [errDelimLate, ht] at hd
      · simp [bitErrAfterAckErr, ht] at hd
    omega
  · omega

/-- A bus-off node waits for the end of the reintegration. -/
theorem waiting_step (he : s.core.err.errFrmReq = false)
    (hq : s.core.pc.currState.inBusOff = true) (hb : s.fc.currState = .busOff)
    (ha : (fcInput f s i).setErrActive = false) :
    CanCore.NoRequest f.core s.core (coreInput s i) ∧
      (step f s i).core.pc.currState.inBusOff = true := by
  have hbus : FaultConfinement.isBusOff s.fc = true := by simp [FaultConfinement.isBusOff, hb]
  have hflow := state_cases (f := f) (i := i) he
  cases hst : s.core.pc.currState <;> rw [hst] at hq <;> first | exact absurd hq (by decide) | skip
  case intermission =>
    refine ⟨.of_busOff he hst hbus, ?_⟩
    rcases hflow with hs | ⟨-, hs⟩
    · rw [hs, hst]
      rfl
    · simp [hs, nextState, he, hst, hbus, PcState.inBusOff]
  case reintegratingWait =>
    refine ⟨.of_state he (by rw [hst]; rfl), ?_⟩
    rcases hflow with hs | ⟨-, hs⟩
    · rw [hs, hst]
      rfl
    · simp only [hs, nextState, pcInput_errFrmReq, he, hst, Bool.false_eq_true, if_false]
      split <;> rfl
  case reintegrating =>
    have ha : setErrActive s.core.pc (pcInput f s i) = false := ha
    have hx : (reintegCtrExpired s && s.core.ctr.ctrlCtrZero && CanCore.pcRxTrigger s.core) =
        false := by
      simp only [setErrActive, pcInput_errFrmReq, pcInput_rxTrigger, pcInput_ctrlCtrZero,
        pcInput_reintegCtrExpired, he, hst] at ha
      revert ha
      cases reintegCtrExpired s <;> cases s.core.ctr.ctrlCtrZero <;>
        cases CanCore.pcRxTrigger s.core <;> simp
    refine ⟨.of_reintegrating he hst hx, ?_⟩
    have hout := out_state (f := f) (i := i) he
    have hn : (step f s i).core.pc = ProtocolControl.step f.core s.core.pc (pcInput f s i) := rfl
    simp [hn, ProtocolControl.step, hout, hst, outState, outReintegrating, hx, PcState.inBusOff]

theorem gone_step (h : Confined f l s) (hok : Ordered l s i) (hg : Gone f l s)
    (hb : s.fc.currState = .busOff) (ha : (fcInput f s i).setErrActive = false) :
    Gone f (.next s.core (coreInput s i)) (step f s i) := by
  have hbus : (coreInput s i).isBusOff = true := by
    show FaultConfinement.isBusOff s.fc = true
    simp [FaultConfinement.isBusOff, hb]
  have hrole : s.core.oc = .off ∨ s.core.oc = .transmitter := by
    rcases hg.state with ⟨-, hx⟩ | ⟨-, hx⟩
    · exact hx
    · exact .inl hx
  cases he : s.core.err.errFrmReq
  · rcases hg.state with ⟨hq, -⟩ | ⟨hq, hx⟩
    · have hreq := fault_noRequest (f := f) (i := i) hg.rom (.inr hq)
      have hoc := off_next hreq hb hrole
      refine ⟨hg.rom, ?_, fun hx' => ?_⟩
      · rcases fault_step (f := f) (i := i) he hq with hf | ⟨hf, ht, -⟩
        · exact .inl ⟨hf, hoc.imp_right And.left⟩
        · refine .inr ⟨by rw [hf]; rfl, ?_⟩
          rcases hoc with hoc | ⟨-, -, ht'⟩
          · exact hoc
          · exact absurd (ht.symm.trans ht') (by decide)
      · rcases hoc with hoc | ⟨-, hx, ht⟩
        · exact absurd (hoc.symm.trans hx') (by decide)
        · exact h.gone_bound hok hg hx ht
    · obtain ⟨hreq, hst⟩ := waiting_step he hq hb ha
      have hoc : (step f s i).core.oc = .off := by
        rcases off_next hreq hb (.inl hx) with hoc | ⟨-, hx', -⟩
        · exact hoc
        · exact absurd (hx.symm.trans hx') (by decide)
      exact ⟨hg.rom, .inr ⟨hst, hoc⟩, fun hx' => absurd (hoc.symm.trans hx') (by decide)⟩
  · have hreq := CanCore.noRequest_err (i := coreInput s i) he hg.rom
    have hoc := off_next hreq hb hrole
    refine ⟨hg.rom, .inl ⟨?_, hoc.imp_right And.left⟩, fun hx' => ?_⟩
    · rcases error_fault (i := i) hg.rom he with hq | hq <;> simp [hq, PcState.inFault]
    · rcases hoc with hoc | ⟨-, hx, ht⟩
      · exact absurd (hoc.symm.trans hx') (by decide)
      · exact h.gone_bound hok hg hx ht

theorem next_gone (h : Confined f l s) (hok : Ordered l s i)
    (h' : (step f s i).fc.currState = .busOff) (hc' : 255 < txErrCtr (step f s i).fc) :
    Gone f (.next s.core (coreInput s i)) (step f s i) := by
  by_cases hb : s.fc.currState = .busOff
  · have ha := setErrActive_busOff hb h'
    by_cases hc : txErrCtr s.fc ≤ 255
    · have hx : (fcInput f s i).isTransmitter = false := by
        show CanCore.isTransmitter s.core = false
        simp [CanCore.isTransmitter, (h.starting hb hc).role]
      have hk : txErrCtr (step f s i).fc = txErrCtr s.fc := txErrCtr_listener h.presPtxQ hx ha
      omega
    · exact h.gone_step hok (h.gone hb (by omega)) hb ha
  · obtain ⟨-, hc⟩ := enter_busOff hb h'
    have hx := h.crossing hb hc
    refine ⟨hx.rom, .inl ⟨crossing_fault hx, .inr (crossing_role hx hb)⟩, fun _ => ?_⟩
    have hpend := pendingErrors_le (.next s.core (coreInput s i)) (step f s i).core
    have hpas := hx.passive
    by_cases hup : txErrCtr s.fc < txErrCtr (step f s i).fc
    · have := (txErrCtr_up (l := f.limits) (i := fcInput f s i) h.presPtxQ hup).2.2
      have : txErrCtr (step f s i).fc ≤ txErrCtr s.fc + 8 := this
      omega
    · omega

/-! ### Roles and stuffing -/

theorem next_sof (h : Confined f l s) (h' : (step f s i).core.pc.currState = .sof) :
    (step f s i).core.oc = .transmitter := by
  cases he : s.core.err.errFrmReq
  · have hout := CanCore.pcOut_noErr (c := f.core) (i := coreInput s i) he
    have hoc : (step f s i).core.oc = CanCore.nextOc f.core s.core (coreInput s i) := rfl
    rcases state_cases (f := f) (i := i) he with hs | ⟨ht, hs⟩
    · have hst : s.core.pc.currState = .sof := hs.symm.trans h'
      have ht : CanCore.pcRxTrigger s.core = false := by
        by_contra ht
        have ht : (pcInput f s i).rxTrigger = true := by simpa using ht
        have hn := step_sample (c := f.core) (q := s.core.pc) ht he (by simp [Stalled, hst])
        have hn : nextState f.core s.core.pc (pcInput f s i) = .sof := hn.symm.trans h'
        simp [nextState, he, hst] at hn
      rw [hoc, CanCore.nextOc_quiet (.of_state he (by rw [hst]; rfl)), ht, Bool.and_false]
      exact h.sof hst
    · have hn : nextState f.core s.core.pc (pcInput f s i) = .sof := hs.symm.trans h'
      have ht : CanCore.pcRxTrigger s.core = true := ht
      have hq : s.core.pc.currState = .intermission ∨ s.core.pc.currState = .suspend ∨
          s.core.pc.currState = .idle := by
        have hedge : ∀ st : PcState, PcState.sof ∈ st.successors →
            st = .intermission ∨ st = .suspend ∨ st = .idle := by decide +kernel
        rcases nextState_flow (c := f.core) (q := s.core.pc) (i := pcInput f s i) he with hk | hk
        · rw [hn] at hk
          simp [nextState, he, ← hk] at hn
        · exact hedge _ (hn ▸ hk)
      have hb : s.fc.currState ≠ .busOff := by
        intro hb
        have hbus : FaultConfinement.isBusOff s.fc = true := by simp [FaultConfinement.isBusOff, hb]
        by_cases hc : txErrCtr s.fc ≤ 255
        · rcases (h.starting hb hc).state with hx | hx <;> simp [hx] at hq
        · rcases (h.gone hb (by omega)).state with ⟨hx, -⟩ | ⟨hx, -⟩ <;>
            rcases hq with hq | hq | hq <;> rw [hq] at hx <;> cases hx
          simp [nextState, he, hq, hbus] at hn
      have hbus : FaultConfinement.isBusOff s.fc = false := by simp [FaultConfinement.isBusOff, hb]
      have hgo : (coreInput s i).isBusOff = false := hbus
      have hset : (setIdle f.core s.core.pc (pcInput f s i) = false ∧
          setTransmitter f.core s.core.pc (pcInput f s i) = true) ∧
          setReceiver f.core s.core.pc (pcInput f s i) = false ∧
          (CanCore.pcOut f.core s.core (coreInput s i)).arbitrationLostI = false := by
        have hout' := out_state (f := f) (i := i) he
        simp only [setIdle, setTransmitter, setReceiver, hout, hout', ctrlSignalUpd,
          pcInput_rxTrigger, ht]
        rcases hq with hq | hq | hq <;>
          simp only [nextState, pcInput_errFrmReq, he, hq, pcInput_isBusOff, hbus] at hn <;>
          simp only [hq, outState, outIntermission, outSuspend, outIdle, pcInput_isBusOff, hbus] <;>
          grind
      have hrole := h.role hb
      rw [hoc, CanCore.nextOc, hgo]
      obtain ⟨⟨h1, h2⟩, h3, h4⟩ := hset
      have h1 : setIdle f.core s.core.pc (CanCore.pcInput f.core s.core (coreInput s i)) = false := h1
      have h2 : setTransmitter f.core s.core.pc (CanCore.pcInput f.core s.core (coreInput s i)) =
        true := h2
      have h3 : setReceiver f.core s.core.pc (CanCore.pcInput f.core s.core (coreInput s i)) =
        false := h3
      rw [h1, h2, h3, h4, Bool.false_and]
      revert hrole
      cases s.core.oc <;> decide
  · have hs := step_err (c := f.core) (q := s.core.pc) (i := pcInput f s i) he
    have hs : (step f s i).core.pc.currState.afterError = true := hs
    rw [h'] at hs
    cases hs

theorem next_secondary (h : Confined f l s)
    (h' : (step f s i).core.pc.spControlQ = .secondarySample) :
    (step f s i).core.oc ≠ .receiver := by
  have hoc : (step f s i).core.oc = CanCore.nextOc f.core s.core (coreInput s i) := rfl
  have hsp : (step f s i).core.pc = ProtocolControl.step f.core s.core.pc (pcInput f s i) := rfl
  cases he : s.core.err.errFrmReq
  · have hkeep : CanCore.requesting s.core.pc.currState = false → s.core.oc ≠ .receiver →
        (step f s i).core.oc ≠ .receiver := by
      intro hq hx
      rw [hoc, CanCore.nextOc_quiet (.of_state he hq)]
      split
      · revert hx
        cases s.core.oc <;> simp
      · exact hx
    by_cases hbrs : s.core.pc.currState = .brs
    · refine hkeep (by rw [hbrs]; rfl) ?_
      have hnom : s.core.pc.spControlQ = .nominalSample := by
        by_contra hne
        have hr := h.src.spControl hne
        rw [hbrs] at hr
        cases hr
      intro hx
      have hxt : CanCore.isTransmitter s.core = false := by simp [CanCore.isTransmitter, hx]
      have hout := out_state (f := f) (i := i) he
      rw [hsp] at h'
      simp [ProtocolControl.step, spControlD, switchToSsp, hout, hbrs, outState, outBrs, hxt,
        hnom] at h'
      split at h' <;> cases h'
    · have hq : s.core.pc.spControlQ = .secondarySample := by
        rw [hsp] at h'
        by_cases hd : s.core.pc.currState = .crcDelim
        · have hout := out_state (f := f) (i := i) he
          simp only [ProtocolControl.step, spControlD, switchToSsp, hout, hd, outState,
            outCrcDelim] at h'
          grind
        · obtain ⟨h1, h2⟩ := out_spControl (c := f.core) (i := pcInput f s i) he hbrs hd
          simpa [ProtocolControl.step, h1, h2] using h'
      have hdr := h.src.spControl (by simp [hq])
      have hdis : ∀ st : PcState, st.inDataRate = true → CanCore.requesting st = false := by decide
      exact hkeep (hdis _ hdr) (h.secondary hq)
  · have hout := out_err (c := f.core) (q := s.core.pc) (i := pcInput f s i) he
    rw [hsp] at h'
    simp only [ProtocolControl.step, spControlD, switchToSsp, hout, outErrFrm] at h'
    revert h'
    cases s.core.pc.spControlQ <;> simp

theorem next_stuffing (h : Confined f l s)
    (h' : (step f s i).core.pc.currState.unstuffed = true) :
    (step f s i).core.pc.stuffEnable = false := by
  have hsp : (step f s i).core.pc = ProtocolControl.step f.core s.core.pc (pcInput f s i) := rfl
  rw [hsp] at h' ⊢
  cases he : s.core.err.errFrmReq
  · cases ht : CanCore.pcRxTrigger s.core
    · have hs := step_hold (c := f.core) (q := s.core.pc) (i := pcInput f s i) ht he
      rw [hs] at h'
      simp [ProtocolControl.step, ctrlSignalUpd, he, ht, h.stuffing h']
    · have hout := out_state (f := f) (i := i) he
      have hset : (out f.core s.core.pc (pcInput f s i)).stuffEnableSet = false := by
        rw [out_stuffEnableSet he]
        by_contra hset
        rcases start_state (q := s.core.pc) (i := pcInput f s i) ht (by simpa using hset) with hs | hs <;>
          rw [hs] at h' <;> cases h'
      have hkeep : (s.core.pc.stuffEnable &&
          !(out f.core s.core.pc (pcInput f s i)).stuffEnableClear) = false := by
        have hedge : ∀ st st' : PcState, st' ∈ st.successors → st'.unstuffed = true →
            st.unstuffed = true ∨ st = .crcDelim ∨ (st = .idle ∧ st' = .reintegratingWait) := by
          decide +kernel
        rcases state_flow (f := f) (i := i) he with hs | ⟨-, hs⟩
        · simp [h.stuffing (hs ▸ h')]
        · rcases hedge _ _ hs h' with hq | hq | ⟨hq, hw⟩
          · simp [h.stuffing hq]
          · simp [hout, hq, outState, outCrcDelim]
          · -- a bus-off node is not idle
            exfalso
            by_cases hb : s.fc.currState = .busOff
            · by_cases hc : txErrCtr s.fc ≤ 255
              · rcases (h.starting hb hc).state with hx | hx <;> simp [hx] at hq
              · rcases (h.gone hb (by omega)).state with ⟨hx, -⟩ | ⟨hx, -⟩ <;> rw [hq] at hx <;>
                  cases hx
            · by_cases hb' : (step f s i).fc.currState = .busOff
              · have hx := crossing_fault (i := i) (h.crossing hb (enter_busOff hb hb').2)
                rw [hw] at hx
                cases hx
              · exact h.next_state hb' (by rw [hw]; simp)
      simp [ProtocolControl.step, hset, hkeep, ctrlSignalUpd, ht]
  · have hout := out_err (c := f.core) (q := s.core.pc) (i := pcInput f s i) he
    simp [ProtocolControl.step, hout, outErrFrm, ctrlSignalUpd, he]

/-! ### One clock cycle -/

theorem step_confined (h : Confined f l s) (hok : Ordered l s i) :
    Confined f (.next s.core (coreInput s i)) (step f s i) where
  src := h.src.step_sources hok.core
  presPtxQ := hok.presPtx
  presPrxQ := hok.presPrx
  role := h.next_role
  state := h.next_state
  starting := h.next_starting hok
  gone := h.next_gone hok
  crossing := h.next_crossing hok
  bound := h.next_bound
  sof := h.next_sof
  secondary := h.next_secondary
  stuffing := h.next_stuffing

end Confined

end Node
