import CtuCanFd.Core.Locking
import CtuCanFd.TxPath.Coherence

/-!
# Restricted operation mode

A TXT buffer that is set ready is failed one cycle later, so that the arbitrator never
reads past the first word of a frame and the core is never offered one. The node sends
nothing but acknowledge bits, and error flags are replaced by the integrating state;
but the bit handed out with the request for an error frame itself is dominant.
-/

open ProtocolControl SyncMachine

namespace TxPath

variable {g : Generics} {c : Config} {s : State} {i : Input}

/-- No frame gets to the core, and the core sends none. -/
structure Restricted (s : State) : Prop where
  fsm : s.arb.fsm = .idle ∨
    (s.arb.fsm = .selLowTs ∧ (s.bufs s.arb.selectBufIndexReg).currState ≠ .ready)
  valid : s.arb.tranFrameValidCom = false
  lock : s.core.pc.txtbHwCmdQ.lock = false
  role : CanCore.isTransmitter s.core = false
  stuffing : s.core.pc.stuffEnable = false
  state : s.core.pc.currState.inFault = false ∧ s.core.pc.currState ≠ .sof

namespace Restricted

theorem of_reset (mem : Nat → Nat → RxBuffer.Word) (dataOut : Nat → RxBuffer.Word) :
    Restricted (reset mem dataOut) :=
  ⟨.inl rfl, rfl, rfl, rfl, rfl, rfl, nofun⟩

theorem noFrame (h : Restricted s) : (coreInput g c s i).tranFrameValid = false := by
  show TxArbitrator.tranFrameValid s.arb (arbInput g c s i) = false
  have hl : TxArbitrator.txArbLocked s.arb = false := by
    rcases h.fsm with hf | ⟨hf, -⟩ <;> simp [TxArbitrator.txArbLocked, hf]
  simp [TxArbitrator.tranFrameValid, TxArbitrator.validatedBuffer, h.valid, hl]

/-! ### Selection -/

/-- The buffer selected in this cycle is not ready in the next one. -/
theorem selected_fails (hrom : c.mrModeRom = true)
    (ha : TxArbitrator.selectBufAvail g.count (arbInput g c s i) = true) :
    ((step g c s i).bufs (step g c s i).arb.selectBufIndexReg).currState ≠ .ready := by
  have hav := TxArbitrator.selected_available ha
  have hready := TxtBuffer.available_ready hav
  show ((step g c s i).bufs (TxArbitrator.selectBufIndex g.count (arbInput g c s i))).currState ≠ _
  simp only [step, TxtBuffer.step, TxtBuffer.nextState, hready]
  simp [TxtBuffer.goToFailed, txtbInput, swInput, hrom]

theorem next_arb (h : Restricted s) (hrom : c.mrModeRom = true) :
    ((step g c s i).arb.fsm = .idle ∨ ((step g c s i).arb.fsm = .selLowTs ∧
        ((step g c s i).bufs (step g c s i).arb.selectBufIndexReg).currState ≠ .ready)) ∧
      (step g c s i).arb.tranFrameValidCom = false := by
  have hn : (step g c s i).arb = TxArbitrator.step g.count s.arb (arbInput g c s i) := rfl
  have hlock : (arbInput g c s i).txtbHwCmd.lock = false := h.lock
  cases ha : TxArbitrator.selectBufAvail g.count (arbInput g c s i)
  · refine ⟨.inl ?_, ?_⟩ <;> rw [hn] <;> rcases h.fsm with hf | ⟨hf, -⟩ <;>
      simp [TxArbitrator.step, TxArbitrator.nextState, TxArbitrator.fsmOut, TxArbitrator.out,
        TxArbitrator.outSelect, TxArbitrator.outHold, TxArbitrator.fsmInput, hf, ha, hlock, h.valid]
  · have hnot := selected_fails (s := s) (i := i) hrom ha
    rcases h.fsm with hf | ⟨hf, hreg⟩
    · refine ⟨.inr ⟨?_, hnot⟩, ?_⟩ <;> rw [hn] <;>
        simp [TxArbitrator.step, TxArbitrator.nextState, TxArbitrator.fsmOut, TxArbitrator.out,
          TxArbitrator.fsmInput, hf, ha, h.valid]
    · -- the buffer selected before has failed, this is another one
      have hch : TxArbitrator.selectIndexChanged g.count s.arb (arbInput g c s i) = true := by
        rw [TxArbitrator.selectIndexChanged, bne_iff_ne]
        intro heq
        have hav := TxArbitrator.selected_available ha
        rw [heq] at hav
        exact hreg (TxtBuffer.available_ready hav)
      cases hp : TxArbitrator.parityErrorVld
          (TxArbitrator.fsmInput g.count s.arb (arbInput g c s i))
      · refine ⟨.inr ⟨?_, hnot⟩, ?_⟩ <;> rw [hn] <;>
          simp only [TxArbitrator.step, TxArbitrator.nextState, TxArbitrator.fsmOut,
            TxArbitrator.out, TxArbitrator.outSelect, hf, hp] <;>
          simp [TxArbitrator.fsmInput, ha, hlock, hch, TxArbitrator.outHold, h.valid]
      · refine ⟨.inl ?_, ?_⟩ <;> rw [hn] <;>
          simp only [TxArbitrator.step, TxArbitrator.nextState, TxArbitrator.fsmOut,
            TxArbitrator.out, TxArbitrator.outSelect, hf, hp] <;>
          simp [TxArbitrator.fsmInput, ha, hlock, hch, TxArbitrator.outHold, h.valid]

/-! ### The core -/

/-- Errors are answered by integration, so that no fault state is entered. -/
theorem next_state (h : Restricted s) (hrom : c.mrModeRom = true) :
    (step g c s i).core.pc.currState.inFault = false ∧
      (step g c s i).core.pc.currState ≠ .sof := by
  have hn : (step g c s i).core.pc = ProtocolControl.step (config c i) s.core.pc
      (CanCore.pcInput (config c i) s.core (coreInput g c s i)) := rfl
  have hv : (CanCore.pcInput (config c i) s.core (coreInput g c s i)).tranFrameValid = false :=
    h.noFrame (g := g) (c := c) (i := i)
  have hrom' : (config c i).mrModeRom = true := hrom
  rw [hn]
  cases he : s.core.err.errFrmReq
  · rcases step_cases (c := config c i) (q := s.core.pc)
      (i := CanCore.pcInput (config c i) s.core (coreInput g c s i)) he with hs | ⟨-, hs⟩
    · rw [hs]
      exact h.state
    · rw [hs]
      have hst := h.state
      simp only [nextState, CanCore.pcInput_errFrmReq, he, hv, hrom']
      cases hq : s.core.pc.currState <;> rw [hq] at hst <;>
        first
          | exact absurd hst.1 (by decide)
          | exact absurd rfl hst.2
          | grind [PcState.inFault]
  · rw [step_errFrm (c := config c i) (q := s.core.pc)
      (i := CanCore.pcInput (config c i) s.core (coreInput g c s i)) he, hrom']
    simp [PcState.inFault]

theorem next_core (h : Restricted s) :
    (step g c s i).core.pc.txtbHwCmdQ.lock = false ∧
      CanCore.isTransmitter (step g c s i).core = false ∧
      (step g c s i).core.pc.stuffEnable = false := by
  have hn : (step g c s i).core = CanCore.step (config c i) s.core (coreInput g c s i) := rfl
  have hv := h.noFrame (g := g) (c := c) (i := i)
  rw [hn]
  generalize config c i = c'
  generalize coreInput g c s i = j at hv
  have hv : (CanCore.pcInput c' s.core j).tranFrameValid = false := hv
  have hset : (out c' s.core.pc (CanCore.pcInput c' s.core j)).setTransmitterI = false := by
    by_contra hset
    have := (out_setTransmitterI (by simpa using hset)).2.2
    exact absurd (hv.symm.trans this) (by decide)
  refine ⟨?_, ?_, ?_⟩
  · simp only [CanCore.step, ProtocolControl.step]
    split
    · rw [out_lock, hset]
    · rfl
  · by_contra hx
    have hx : CanCore.nextOc c' s.core j = .transmitter := by
      simpa [CanCore.isTransmitter, CanCore.step] using hx
    rcases CanCore.oc_transmitter hx with hx | ⟨hx, -⟩
    · simp [setTransmitter, hset] at hx
    · have hr := h.role
      simp [CanCore.isTransmitter, hx] at hr
  · cases he : s.core.err.errFrmReq
    · have hen := out_stuffEnableSet (c := c') (q := s.core.pc) (i := CanCore.pcInput c' s.core j) he
      simp [CanCore.step, ProtocolControl.step, hen, hset, h.stuffing]
    · have hout := out_err (c := c') (q := s.core.pc) (i := CanCore.pcInput c' s.core j) he
      simp [CanCore.step, ProtocolControl.step, hout, outErrFrm, ctrlSignalUpd, he]

theorem step_restricted (h : Restricted s) (hrom : c.mrModeRom = true) :
    Restricted (step g c s i) := by
  obtain ⟨hfsm, hvalid⟩ := h.next_arb (g := g) (i := i) hrom
  obtain ⟨hlock, hrole, hstuff⟩ := h.next_core (g := g) (c := c) (i := i)
  exact ⟨hfsm, hvalid, hlock, hrole, hstuff, h.next_state hrom⟩

/-- What a TX trigger sends. -/
theorem sent_bit (h : Restricted s) (ht : i.core.txTrigger = true)
    (he : ¬ (s.core.err.errFrmReq = true ∧ i.core.isErrActive = true))
    (hb : CanCore.txDataWbs c (step g c s i).core = false) :
    s.core.pc.currState = .ack ∨ s.core.pc.currState = .ackFd1 := by
  have ht : (coreInput g c s i).txTrigger = true := ht
  have hout : (step g c s i).core.bst.dataOut = false := by
    by_contra ho
    simp [CanCore.txDataWbs, ho] at hb
  have hbit : CanCore.txDataNbs (config c i) s.core (coreInput g c s i) = false := by
    simpa [step, CanCore.step, BitStuffing.step, CanCore.bstInput, ht, h.stuffing] using hout
  have hx : CanCore.isTransmitter s.core = false := h.role
  have hsh : CanCore.txShiftEna (config c i) s.core (coreInput g c s i) = false := by
    simp [CanCore.txShiftEna, ProtocolControl.txShiftEna, hx]
  cases hreq : s.core.err.errFrmReq
  · have hdom : (CanCore.pcOut (config c i) s.core (coreInput g c s i)).txDominant = true := by
      by_contra hd
      simp [CanCore.txDataNbs, TxShiftReg.txDataNbs, hreq, hsh, hd] at hbit
    rw [CanCore.pcOut_noErr hreq] at hdom
    have hst := h.state
    cases hq : s.core.pc.currState <;> rw [hq] at hdom hst <;>
      first
        | exact .inl rfl
        | exact .inr rfl
        | exact absurd hst.1 (by decide)
        | exact absurd rfl hst.2
        | cases hdom
        | skip
    case off => simp [outState, outOff, apply_ite Out.txDominant] at hdom
    all_goals simp [outState, outRtrSrrR1, outIde, outRtrR1, outEdlR1, outR0Ext, outR0Fd, outEdlR0,
      outBrs, outEsi, hx] at hdom
  · have hact : (coreInput g c s i).isErrActive = true := by
      simpa [CanCore.txDataNbs, TxShiftReg.txDataNbs, hreq] using hbit
    exact absurd ⟨hreq, hact⟩ he

end Restricted

/-- In restricted operation mode the node never is transmitter, and a TX trigger that
does not meet the error frame request of an error active node puts out a dominant bit
as acknowledge only. -/
theorem restricted_silence (g : Generics) (c : Config) (hrom : c.mrModeRom = true)
    (mem : Nat → Nat → RxBuffer.Word) (dataOut : Nat → RxBuffer.Word) (is : List Input)
    (i : Input) :
    let s := run (step g c) (reset mem dataOut) is
    CanCore.isTransmitter s.core = false ∧
      (i.core.txTrigger = true →
        ¬ (s.core.err.errFrmReq = true ∧ i.core.isErrActive = true) →
        CanCore.txDataWbs c (step g c s i).core = false →
        s.core.pc.currState = .ack ∨ s.core.pc.currState = .ackFd1) := by
  have h := run_invariant (step g c) (fun _ _ => True) Restricted
    (fun _ _ hp _ => hp.step_restricted hrom) (Restricted.of_reset mem dataOut) is
    (admits_true _ _ is)
  exact ⟨h.role, fun ht he hb => h.sent_bit ht he hb⟩

/-! ### Dominant bits of a restricted node -/

def restrictedConfig : Config := { nominalConfig with mrModeRom := true }

/-- A cycle of a node that is bus-off until it has integrated, and error active then. -/
def busCycle (active bit : Bool) : Input :=
  { quietCycle with
    core := { quietCycle.core with rxDataWbs := bit, isErrActive := active, isBusOff := !active } }

def sampleCycle (active bit : Bool) : Input :=
  { busCycle active bit with core := { (busCycle active bit).core with rxTrigReq := true } }

def sendCycle (active bit : Bool) : Input :=
  { busCycle active bit with core := { (busCycle active bit).core with txTrigger := true } }

/-- A bit time of five cycles, two of them behind the sample point. -/
def bitTime (active bit : Bool) : List Input :=
  [sampleCycle active bit, busCycle active bit, sendCycle active bit, busCycle active bit,
    busCycle active bit]

/-- Buffer 0 is set ready; then a remote frame is received, up to the TX trigger of its ACK slot. -/
def acknowledging : List Input :=
  offerZero ++ (List.replicate 11 true).flatMap (bitTime false) ++
    ([false, true, false, true, false, true, false, true, false, true, false, true] ++
      [true, false, false] ++ [false, true, false, true] ++
      [false, true, false, true, false, true, false, true, false, true, false, true, false, true,
        false]).flatMap (bitTime true) ++ [sampleCycle true true, busCycle true true]

theorem restricted_silence_ack :
    let s := run (step twoBuffers restrictedConfig) (reset (fun _ _ => 0) fun _ => 0) acknowledging
    (s.bufs 0).currState = .failed ∧ CanCore.isTransmitter s.core = false ∧
      CanCore.txDataWbs restrictedConfig
        (step twoBuffers restrictedConfig s (sendCycle true true)).core = false ∧
      (s.core.pc.currState = .ack ∨ s.core.pc.currState = .ackFd1) := by
  have hend : (fun s : State => (s.bufs 0).currState = .failed ∧ s.core.err.errFrmReq = false ∧
      CanCore.txDataWbs restrictedConfig
        (step twoBuffers restrictedConfig s (sendCycle true true)).core = false)
      (run (step twoBuffers restrictedConfig) (reset (fun _ _ => 0) fun _ => 0)
        acknowledging) := by
    rw [step_eq_tabled]
    decide +kernel
  obtain ⟨hfail, herr, hbit⟩ := hend
  obtain ⟨hrole, hack⟩ := restricted_silence twoBuffers restrictedConfig rfl (fun _ _ => 0)
    (fun _ => 0) acknowledging (sendCycle true true)
  exact ⟨hfail, hrole, hbit, hack rfl (fun h => by rw [herr] at h; exact nomatch h.1) hbit⟩

/-- Eleven recessive bits and six dominant ones, up to the request. -/
def sixDominant : List Input :=
  (List.replicate 11 true).flatMap (bitTime false) ++
    (List.replicate 5 false).flatMap (bitTime true) ++ [sampleCycle true false, busCycle true false]

/-- The TX trigger two cycles behind the sample point sends a dominant bit. -/
theorem restricted_error_bit :
    let s := run (step twoBuffers restrictedConfig) (reset (fun _ _ => 0) fun _ => 0) sixDominant
    s.core.pc.currState = .baseId ∧ s.core.err.errFrmReq = true ∧
      CanCore.txDataWbs restrictedConfig
        (step twoBuffers restrictedConfig s (sendCycle true false)).core = false := by
  rw [step_eq_tabled]
  decide +kernel

end TxPath
