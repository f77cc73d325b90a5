import CtuCanFd.Core.Locking
import CtuCanFd.Node.BusOff

/-!
# Each error is accounted once

An error in a field of a frame makes one request for an error frame. Its cycle counts
the error, the next one releases the buffer of a transmitter.
-/

open ProtocolControl SyncMachine

namespace Node

open FaultConfinement (txErrCtr rxErrCtr)

/-! ## Environment -/

/-- What is kept beside the model: the last cycle, the bit timing so far, and whether a
TXT buffer was locked before the command of the current cycle. -/
structure Watch where
  last : CanCore.Last
  clock : CanCore.Clock
  locked : Bool

def Watch.next (w : Watch) (s : State) (i : Input) : Watch where
  last := .next s.core (coreInput s i)
  clock := w.clock.next s.core (coreInput s i)
  locked := CanCore.lockedNow s.core w.locked

/-- Sample points at least three cycles apart with a TX trigger in between, metadata that
does not change during a transmission, and no presets. -/
structure Clocked (w : Watch) (s : State) (i : Input) : Prop
    extends CanCore.Driven w.clock s.core i.core where
  ordered : Ordered w.last s i

instance (w : Watch) (s : State) (i : Input) : Decidable (Clocked w s i) :=
  decidable_of_iff (CanCore.Driven w.clock s.core i.core ∧ Ordered w.last s i)
    ⟨fun ⟨a, b⟩ => ⟨a, b⟩, fun h => ⟨h.toDriven, h.ordered⟩⟩

/-- The same without parity errors of the words read for the core. -/
structure Timed (w : Watch) (s : State) (i : Input) : Prop extends Clocked w s i where
  parity : i.core.tranFrameParityError = false

instance (w : Watch) (s : State) (i : Input) : Decidable (Timed w s i) :=
  decidable_of_iff (Clocked w s i ∧ i.core.tranFrameParityError = false)
    ⟨fun ⟨a, b⟩ => ⟨a, b⟩, fun h => ⟨h.toClocked, h.parity⟩⟩

def timedStep (f : Settings) : State × Watch → Input → State × Watch :=
  watched (step f) Watch.next

def timedReset : State × Watch := (reset, ⟨⟨false, false⟩, ⟨4, true, none⟩, false⟩)

def TimedRun (f : Settings) (is : List Input) : Prop :=
  Admits (timedStep f) (fun p i => Timed p.2 p.1 i) timedReset is

instance (f : Settings) (is : List Input) : Decidable (TimedRun f is) :=
  inferInstanceAs (Decidable (Admits _ _ _ _))

/-! ## Invariant -/

/-- The counters are held at zero only in the first cycle of the first integration and
when the node gets idle. -/
def Counting (s : State) : Prop :=
  s.fc.resErrCtrsQ = false → s.core.pc.currState = .off ∨ s.core.pc.currState = .idle

structure Accounted (f : Settings) (w : Watch) (s : State) : Prop where
  confined : Confined f w.last s
  following : CanCore.Following f.core w.clock s.core
  locking : CanCore.Locking w.last s.core w.locked
  counting : Counting s

namespace Accounted

variable {f : Settings} {w : Watch} {s : State} {i : Input}

theorem of_reset (f : Settings) : Accounted f timedReset.2 timedReset.1 where
  confined := .of_reset f _ rfl
  following := .of_reset true
  locking := .of_reset _
  counting _ := .inl rfl

/-- What fault confinement adds to the bit timing. -/
theorem bench (h : Accounted f w s) (hok : Clocked w s i) :
    CanCore.Bench w.clock s.core (coreInput s i) where
  sample := hok.sample
  send := hok.send
  held := hok.held
  inFrame ht hq := by
    show FaultConfinement.isBusOff s.fc = false
    by_contra hb
    have hb : s.fc.currState = .busOff := by simpa [FaultConfinement.isBusOff] using hb
    have hst := (h.confined.busOff_place hb)
    have hdis : ∀ st : PcState, st = .off ∨ st = .integrating ∨ st.inFault = true ∨
        st.inBusOff = true → st.inStuffed = false ∧ st ≠ .suspend := by decide
    obtain ⟨h1, h2⟩ := hdis _ hst
    rcases hq with ⟨-, hq⟩ | hq
    · exact absurd (h1.symm.trans hq) (by decide)
    · exact h2 hq
  inPause _ _ hb := by
    have hb : FaultConfinement.isBusOff s.fc = false := hb
    exact h.confined.role (by simpa [FaultConfinement.isBusOff] using hb)

theorem busOff_outside (h : Accounted f w s) (hq : s.core.pc.currState.inFrame = true) :
    s.fc.currState ≠ .busOff := by
  intro hb
  have hdis : ∀ st : PcState, st = .off ∨ st = .integrating ∨ st.inFault = true ∨
      st.inBusOff = true → st.inFrame = false := by decide
  exact absurd ((hdis _ (h.confined.busOff_place hb)).symm.trans hq) (by decide)

theorem next_counting (h : Accounted f w s) : Counting (step f s i) := by
  intro hres
  have ha : (fcInput f s i).setErrActive = true := by
    simpa [step, FaultConfinement.step] using hres
  by_cases hb : s.fc.currState = .busOff
  · exact .inr (h.confined.setErrActive_off ha hb).2.1
  · exact absurd ((h.confined.setErrActive_crossing (i := i) hb).symm.trans ha) (by decide)

theorem step_accounted (h : Accounted f w s) (hena : f.core.mrSettingsEna = true)
    (hrom : f.core.mrModeRom = false) (hok : Clocked w s i) :
    Accounted f (w.next s i) (step f s i) where
  confined := h.confined.step_confined hok.ordered
  following := h.following.step_following (h.bench hok) hena
  locking := by
    refine h.locking.step_locking hrom h.confined.src hok.ordered.core h.following (h.bench hok) hena
      fun _ hq _ => ?_
    show FaultConfinement.isBusOff s.fc = false
    simpa [FaultConfinement.isBusOff] using h.busOff_outside hq
  counting := h.next_counting

/-! ## The cycle of an error -/

/-- An error flag is entered by a request; outside error and overload frames the error
was seen in a frame, in the cycle that takes its bit. -/
theorem error_seen (h : Accounted f w s) (hrom : f.core.mrModeRom = false) (hok : Timed w s i)
    (he' : (step f s i).core.err.errFrmReq = true)
    (hq' : (step f s i).core.pc.currState.inFault = false) :
    s.core.err.errFrmReq = false ∧ s.core.pc.currState.inFrame = true ∧ w.clock.since = 0 := by
  have he : s.core.err.errFrmReq = false := by
    by_contra he
    rcases Confined.error_fault (i := i) hrom (by simpa using he) with hk | hk <;>
      rw [hk] at hq' <;> cases hq'
  refine ⟨he, ?_, ?_⟩
  · have hflow := state_flow (f := f) (i := i) he
    have hedge : ∀ st st' : PcState, st' = st ∨ st' ∈ st.successors →
        st = .actErrFlag ∨ st = .pasErrFlag ∨ st = .ovrFlag → st'.inFault = true := by
      decide +kernel
    have hnot : s.core.pc.currState = .actErrFlag ∨ s.core.pc.currState = .pasErrFlag ∨
        s.core.pc.currState = .ovrFlag → False := fun hst =>
      absurd (hq'.symm.trans (hedge _ _ (hflow.imp_right And.right) hst)) (by decide)
    rcases h.locking.errDetected_field h.confined.src hok.ordered.core he he' with
      hq | hq | hq | hq | ⟨hq, hz⟩
    · exact hq
    · exact (hnot (.inl hq)).elim
    · exact (hnot (.inr (.inl hq))).elim
    · exact (hnot (.inr (.inr hq))).elim
    · have hf : s.core.pc.currState.inFault = true := by
        rcases hq with hq | hq <;> rw [hq] <;> rfl
      rcases Confined.fault_step (f := f) (i := i) he hf with hk | ⟨-, -, -, hz'⟩
      · exact absurd (hq'.symm.trans hk) (by decide)
      · simp [ControlCounter.ctrlCtrZero, hz'] at hz
  · by_contra h0
    have hquiet := h.following.paced.errFrmReq_quiet (c := f.core) (i := coreInput s i) h0
    exact absurd ((hquiet.trans hok.parity).symm.trans he') (by decide)

/-- In a frame only the error itself reaches the counters. -/
theorem frame_rules (h : Accounted f w s) (hq : s.core.pc.currState.inFrame = true) :
    (fcInput f s i).actErrOvrFlag = false ∧ (fcInput f s i).errDelimLate = false ∧
      (fcInput f s i).bitErrAfterAckErr = false ∧ (fcInput f s i).primaryErr = false ∧
      (fcInput f s i).setErrActive = false ∧ s.fc.resErrCtrsQ = true := by
  have hres : s.fc.resErrCtrsQ = true := by
    by_contra hres
    rcases h.counting (by simpa using hres) with hst | hst <;> rw [hst] at hq <;> cases hq
  have hfields : actErrOvrFlag s.core.pc = false ∧ errDelimLate s.core.pc (pcInput f s i) = false ∧
      bitErrAfterAckErr s.core.pc s.flags (pcInput f s i) = false ∧
      primaryErr s.core.pc s.flags (pcInput f s i) = false ∧
      setErrActive s.core.pc (pcInput f s i) = false := by
    simp only [actErrOvrFlag, errDelimLate, bitErrAfterAckErr, primaryErr, setErrActive]
    cases hst : s.core.pc.currState <;> rw [hst] at hq <;>
      first | exact absurd hq (by decide) | simp
  obtain ⟨h1, h2, h3, h4, h5⟩ := hfields
  exact ⟨h1, h2, h3, h4, h5, hres⟩

/-- The error is counted once, for the role of the unit. -/
theorem error_counted (h : Accounted f w s) (hrom : f.core.mrModeRom = false)
    (hd : CanCore.errDetected f.core s.core (coreInput s i) = true)
    (hq : s.core.pc.currState.inFrame = true) (hrec : s.fc.rxErrCtrQ < 512) :
    (CanCore.isTransmitter s.core = true ∧ rxErrCtr (step f s i).fc = rxErrCtr s.fc ∧
      txErrCtr (step f s i).fc = txErrCtr s.fc +
        if CanCore.errCtrsUnchanged f.core s.core (coreInput s i) then 0 else 8) ∨
    (CanCore.isReceiver s.core = true ∧ txErrCtr (step f s i).fc = txErrCtr s.fc ∧
      rxErrCtr (step f s i).fc = min (rxErrCtr s.fc + 1) 511) := by
  obtain ⟨hact, hlate, hack, hprim, hset, hres⟩ := h.frame_rules (i := i) hq
  have hd : (fcInput f s i).errDetected = true := hd
  have hrom : (fcInput f s i).mrModeRom = false := hrom
  have htx : txErrCtr (step f s i).fc = _ :=
    FaultConfinement.txErrCtr_step (l := f.limits) (i := fcInput f s i) h.confined.presPtxQ
  have hrx : rxErrCtr (step f s i).fc = _ :=
    FaultConfinement.rxErrCtr_step (l := f.limits) (i := fcInput f s i) h.confined.presPrxQ
  have hne : s.core.pc.currState ≠ .intermission := fun hst => by rw [hst] at hq; cases hq
  rcases h.locking.role hq with hx | hx
  · have hT : (fcInput f s i).isTransmitter = true := by
      show CanCore.isTransmitter s.core = true
      simp [CanCore.isTransmitter, hx]
    have hR : (fcInput f s i).isReceiver = false := by
      show CanCore.isReceiver s.core = false
      simp [CanCore.isReceiver, hx]
    have hdec := h.confined.decOne_quiet (i := i) (.inl hne) hT
    have hinc : FaultConfinement.incEight (fcInput f s i) =
        !CanCore.errCtrsUnchanged f.core s.core (coreInput s i) := by
      simp only [FaultConfinement.incEight, hR, hact, hT, hd, hlate, hack, hrom]
      simp [fcInput, CanCore.fcInput]
    refine .inl ⟨hT, ?_, ?_⟩
    · simpa [hset, hres, hR] using hrx
    · have hle := h.confined.bound
      simp only [hset, hres, hT, hinc, hdec, Bool.not_true, Bool.or_self, Bool.false_eq_true,
        if_false, Bool.and_true] at htx
      refine htx.trans ?_
      cases CanCore.errCtrsUnchanged f.core s.core (coreInput s i)
      · simp
        omega
      · simp
  · have hT : (fcInput f s i).isTransmitter = false := by
      show CanCore.isTransmitter s.core = false
      simp [CanCore.isTransmitter, hx]
    have hR : (fcInput f s i).isReceiver = true := by
      show CanCore.isReceiver s.core = true
      simp [CanCore.isReceiver, hx]
    have hone : FaultConfinement.incOne (fcInput f s i) = true := by
      simp [FaultConfinement.incOne, hd, hact, hR, hrom]
    refine .inr ⟨hR, ?_, ?_⟩
    · simpa [hset, hres, hT] using htx
    · have hlt := FaultConfinement.rxErrCtr_lt hrec
      simp only [hset, hres, hR, hone, Bool.not_true, Bool.or_self, Bool.true_or, Bool.and_self,
        Bool.false_eq_true, if_false, if_true] at hrx
      refine hrx.trans ?_
      simp only [FaultConfinement.rxErrCtrSat, FaultConfinement.rxErrCtrInc, hone, if_true]
      split <;> omega

/-- In the cycle of the request no counter changes. -/
theorem request_uncounted (h : Accounted f w s) (he : s.core.err.errFrmReq = true)
    (hd : CanCore.errDetected f.core s.core (coreInput s i) = false)
    (hq : s.core.pc.currState ≠ .off ∧ s.core.pc.currState ≠ .idle) :
    txErrCtr (step f s i).fc = txErrCtr s.fc ∧ rxErrCtr (step f s i).fc = rxErrCtr s.fc := by
  have hres : s.fc.resErrCtrsQ = true := by
    by_contra hres
    rcases h.counting (by simpa using hres) with hst | hst
    · exact hq.1 hst
    · exact hq.2 hst
  have hd : (fcInput f s i).errDetected = false := hd
  have hset : (fcInput f s i).setErrActive = false := by
    show setErrActive s.core.pc (pcInput f s i) = false
    simp [setErrActive, he]
  have hone : FaultConfinement.incOne (fcInput f s i) = false := by
    simp [FaultConfinement.incOne, hd]
  have height : FaultConfinement.incEight (fcInput f s i) = false := by
    have hprim : (fcInput f s i).primaryErr = false := by
      show primaryErr s.core.pc s.flags (pcInput f s i) = false
      simp [primaryErr, he]
    have hlate : (fcInput f s i).errDelimLate = false := by
      show errDelimLate s.core.pc (pcInput f s i) = false
      simp [errDelimLate, he]
    have hack : (fcInput f s i).bitErrAfterAckErr = false := by
      show bitErrAfterAckErr s.core.pc s.flags (pcInput f s i) = false
      simp [bitErrAfterAckErr, he]
    simp [FaultConfinement.incEight, hd, hprim, hlate, hack]
  have hdec : FaultConfinement.decOne (fcInput f s i) = false := by
    have hval : (fcInput f s i).tranValid = false := by
      show s.core.pc.txtbHwCmdQ.valid = false
      by_contra hv
      exact absurd (((h.confined.src.valid (by simpa using hv)).2).symm.trans he) (by decide)
    have hrec : (fcInput f s i).decrementRec = false := by
      show decrementRec s.core.pc (pcInput f s i) = false
      simp [decrementRec, he]
    simp [FaultConfinement.decOne, hval, hrec]
  have htx : txErrCtr (step f s i).fc = _ :=
    FaultConfinement.txErrCtr_step (l := f.limits) (i := fcInput f s i) h.confined.presPtxQ
  have hrx : rxErrCtr (step f s i).fc = _ :=
    FaultConfinement.rxErrCtr_step (l := f.limits) (i := fcInput f s i) h.confined.presPrxQ
  refine ⟨?_, ?_⟩
  · simpa [hset, hres, height, hdec] using htx
  · simpa [hset, hres, hone, height, hdec] using hrx

/-! ## The release of the buffer -/

/-- The cycle that sees the error does not release the buffer yet. -/
theorem error_unreleased (h : Accounted f w s) (hok : Timed w s i)
    (he : s.core.err.errFrmReq = false)
    (hd : CanCore.errDetected f.core s.core (coreInput s i) = true) :
    (step f s i).core.pc.txtbHwCmdQ.unlock = false := by
  cases ht : CanCore.pcRxTrigger s.core
  · have hcmd : (step f s i).core.pc.txtbHwCmdQ = {} := by
      simp [step, CanCore.step, ProtocolControl.step, ctrlSignalUpd, ht, he]
    rw [hcmd]
    rfl
  · have hlost := (CanCore.NoRequest.of_error h.confined.src hok.ordered.core he hd).lost
    have hun := (CanCore.Locking.command_noErr (c := f.core) (i := coreInput s i) he ht).2
    refine hun.trans ?_
    rw [hlost, Bool.false_or]
    by_contra hv
    simp only [Bool.not_eq_false, Bool.and_eq_true, beq_iff_eq] at hv
    obtain ⟨⟨⟨hq, hz⟩, hrx⟩, -⟩ := hv
    have hk := CanCore.Locking.eof_error h.confined.src hok.ordered.core he hq hd
    have hs := step_sample (c := f.core) (q := s.core.pc) (i := pcInput f s i) ht he
      (by simp [Stalled, hq])
    have hs : nextState f.core s.core.pc (pcInput f s i) = .eof := hs.symm.trans hk
    simp [nextState, he, hq, hz, hrx] at hs

/-- The request releases the buffer of a transmitter. -/
theorem request_released (h : Accounted f w s) (he : s.core.err.errFrmReq = true)
    (hq : s.core.pc.currState.inFault = false) :
    (step f s i).core.pc.txtbHwCmdQ.unlock = CanCore.lockedNow s.core w.locked := by
  have hcmd : (step f s i).core.pc.txtbHwCmdQ = errorCmd f.core s.core.pc (pcInput f s i) := by
    have hout := out_err (c := f.core) (q := s.core.pc) (i := pcInput f s i) he
    show (ProtocolControl.step f.core s.core.pc (pcInput f s i)).txtbHwCmdQ = _
    simp [ProtocolControl.step, ctrlSignalUpd, he, hout, outErrFrm]
  have hblock : blockTxtbUnlock s.core.pc.currState = false := by
    revert hq
    cases s.core.pc.currState <;> decide
  rw [hcmd, errorCmd_unlock.1, hblock, h.locking.locked, CanCore.transmitting, he]
  rcases h.locking.errored he with hst | hst | hst
  · simp [hst]
  · simp [hst]
  · exact absurd (hblock.symm.trans hst) (by decide)

end Accounted

theorem run_accounted {f : Settings} {is : List Input} (hena : f.core.mrSettingsEna = true)
    (hrom : f.core.mrModeRom = false) (h : TimedRun f is) :
    Accounted f (run (timedStep f) timedReset is).2 (run (timedStep f) timedReset is).1 ∧
      (run (timedStep f) timedReset is).1.fc.rxErrCtrQ < 512 :=
  run_invariant (timedStep f) (fun p i => Timed p.2 p.1 i)
    (fun p => Accounted f p.2 p.1 ∧ p.1.fc.rxErrCtrQ < 512)
    (fun _ _ hp hok =>
      ⟨hp.1.step_accounted hena hrom hok.toClocked, FaultConfinement.rxErrCtrQ_lt hp.2⟩)
    ⟨Accounted.of_reset f, by decide⟩ is h

/-- An error flag entered from a field of a frame: the request lasts one cycle, the
error is counted in the cycle before it and not in its own, and the locked buffer is
released once, in its cycle. -/
theorem error_accounted_once (f : Settings) (hena : f.core.mrSettingsEna = true)
    (hrom : f.core.mrModeRom = false) (is : List Input) (i j : Input)
    (h : TimedRun f (is ++ [i, j])) :
    let p := run (timedStep f) timedReset is
    let p' := timedStep f p i
    let p'' := timedStep f p' j
    let s := p.1
    let s' := p'.1
    let s'' := p''.1
    s'.core.pc.currState.inFault = false →
    s''.core.pc.currState = .actErrFlag ∨ s''.core.pc.currState = .pasErrFlag →
    (s.core.err.errFrmReq = false ∧ s'.core.err.errFrmReq = true ∧
      s''.core.err.errFrmReq = false) ∧
    ((CanCore.isTransmitter s.core = true ∧ rxErrCtr s'.fc = rxErrCtr s.fc ∧
        txErrCtr s'.fc = txErrCtr s.fc +
          if CanCore.errCtrsUnchanged f.core s.core (coreInput s i) then 0 else 8) ∨
      (CanCore.isReceiver s.core = true ∧ txErrCtr s'.fc = txErrCtr s.fc ∧
        rxErrCtr s'.fc = min (rxErrCtr s.fc + 1) 511)) ∧
    (txErrCtr s''.fc = txErrCtr s'.fc ∧ rxErrCtr s''.fc = rxErrCtr s'.fc) ∧
    (s'.core.pc.txtbHwCmdQ.unlock = false ∧
      s''.core.pc.txtbHwCmdQ.unlock = CanCore.lockedNow s'.core p'.2.locked ∧
      CanCore.lockedNow s''.core p''.2.locked = false) := by
  obtain ⟨hrun, hi, hj, -⟩ := (admits_append _ _ _ _ _).mp h
  obtain ⟨ha, hrec⟩ := run_accounted hena hrom hrun
  generalize run (timedStep f) timedReset is = p at ha hrec hi hj
  intro _ p' p'' s s' s'' hq' hflag
  have ha' : Accounted f p'.2 s' := ha.step_accounted hena hrom hi.toClocked
  have ha'' : Accounted f p''.2 s'' := ha'.step_accounted hena hrom hj.toClocked
  have he' : s'.core.err.errFrmReq = true := by
    by_contra he'
    have hflow := step_flow (c := f.core) (q := s'.core.pc) (i := pcInput f s' j) (by simpa using he')
    have hedge : ∀ st st' : PcState, st' = st ∨ st' ∈ st.successors → st.inFault = false →
        ¬ (st' = .actErrFlag ∨ st' = .pasErrFlag) := by decide +kernel
    exact hedge _ _ (hflow.imp_right And.right) hq' hflag
  obtain ⟨he, hq, h0⟩ := ha.error_seen hrom hi he' hq'
  have hsince : p'.2.clock.since ≠ 0 := by
    have hr : i.core.rxTrigReq = false := by
      by_contra hr
      have := (hi.sample (by simpa using hr)).2
      omega
    have hr : (coreInput p.1 i).rxTrigReq = false := hr
    show CanCore.sinceSample p.2.clock.since (coreInput p.1 i) ≠ 0
    simp [CanCore.sinceSample, hr]
  have he'' : s''.core.err.errFrmReq = false :=
    (ha'.following.paced.errFrmReq_quiet (c := f.core) (i := coreInput s' j) hsince).trans hj.parity
  refine ⟨⟨he, he', he''⟩, ha.error_counted hrom he' hq hrec, ha'.request_uncounted he' he'' ?_,
    ha.error_unreleased hi he he', ha'.request_released he' hq', ?_⟩
  · have hdis : ∀ st : PcState, st.inFrame = true ∨ st = .integrating ∨ blockTxtbUnlock st = true →
        st ≠ .off ∧ st ≠ .idle := by decide
    exact hdis _ (ha'.locking.errored he')
  · rw [ha''.locking.locked, CanCore.transmitting]
    rcases hflag with hk | hk <;> simp [hk, PcState.inFrame]

/-- The node starts a frame on a bus that stays recessive. -/
def missingSof : List Input :=
  frameBits (List.replicate 12 true) ++ [sampled (offering (busCycle true))]

theorem error_accounted_once_sof :
    let p := run (timedStep classicSettings) timedReset missingSof
    let p' := timedStep classicSettings p (busCycle true)
    let p'' := timedStep classicSettings p' (transmitted (busCycle true))
    p.1.core.pc.currState = .sof ∧ p''.1.core.pc.currState = .actErrFlag ∧
      txErrCtr p'.1.fc = 8 ∧ txErrCtr p''.1.fc = txErrCtr p'.1.fc ∧
      CanCore.lockedNow p'.1.core p'.2.locked = true ∧
      p''.1.core.pc.txtbHwCmdQ.unlock = CanCore.lockedNow p'.1.core p'.2.locked := by
  have h := error_accounted_once classicSettings rfl rfl missingSof (busCycle true)
    (transmitted (busCycle true)) (by decide +kernel) (by decide +kernel) (by decide +kernel)
  refine ⟨by decide +kernel, by decide +kernel, by decide +kernel, h.2.2.1.1, by decide +kernel,
    h.2.2.2.2.1⟩

/-! ### A saturated receive error counter -/

def loading (i : Input) : Input := { i with mrCtrPresCtpv := 511 }

/-- The receive error counter is preset to 511 in the idle state; then six dominant bits
in a row are received. -/
def presetReceiver : List Input :=
  tenRecessive ++ [busCycle true, { loading (busCycle true) with mrCtrPresPrx := true },
    loading (transmitted (busCycle true)), busCycle true, busCycle true] ++
    (List.replicate 5 false).flatMap (fun b => bitTime (busCycle b)) ++ [sampled (busCycle false)]

/-- The stuff error of the receiver leads to an error flag and changes no counter. -/
theorem saturated_error_uncounted :
    let s := run (step classicSettings) reset presetReceiver
    let s' := step classicSettings s (busCycle false)
    let s'' := step classicSettings s' (transmitted (busCycle false))
    s.core.pc.currState = .baseId ∧ CanCore.isReceiver s.core = true ∧
      s.core.err.errFrmReq = false ∧ s'.core.err.errFrmReq = true ∧
      s''.core.pc.currState = .pasErrFlag ∧ rxErrCtr s.fc = 511 ∧ rxErrCtr s'.fc = 511 ∧
      rxErrCtr s''.fc = 511 ∧ txErrCtr s.fc = 0 ∧ txErrCtr s''.fc = 0 := by
  decide +kernel

end Node
