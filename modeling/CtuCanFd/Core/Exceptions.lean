import CtuCanFd.Core.ErrorSources
import CtuCanFd.Core.StuffMarks

/-!
# Protocol exceptions

With protocol exceptions on, a node that samples a recessive EDL bit without CAN FD, or
a recessive bit after EDL with it, leaves the frame for integration. In the same sample
point a transmitter sees a bit error; and the status bit of the exception looks at the
received bit in every cycle of the field, not only in its sample point.
-/

open SyncMachine

namespace ProtocolControl

/-- States in which the node takes part in no frame. -/
def PcState.outside : PcState → Bool
  | .off | .integrating | .idle | .intermission | .suspend | .reintegrating => true
  | _ => false

/-- `pexs_set` of `curr_state_proc`. -/
def pexsSet (c : Config) (q : Regs) (i : Input) : Bool :=
  !i.errFrmReq && i.rxDataNbs && c.mrSettingsPex &&
    match q.currState with
    | .edlR1 | .edlR0 => !c.mrModeFde
    | .r0Fd => true
    | _ => false

section Steps

variable {c : Config} {q : Regs} {i : Input}

/-- No error is reported for the bit that is sampled. -/
structure NoError (o : Out) : Prop where
  form : o.formErrI = false
  ack : o.ackErrI = false
  crc : o.crcErrI = false
  arb : o.bitErrArbI = false

theorem noError_outside (he : i.errFrmReq = false)
    (hq : q.currState.outside = true ∨ q.currState = .reintegratingWait) :
    NoError (out c q i) ∧ q.currState.mayErr = false := by
  rw [out_noErr he]
  rcases hq with hq | hq
  · cases hst : q.currState <;> rw [hst] at hq <;> first | exact absurd hq (by decide) | skip
    case off =>
      refine ⟨⟨?_, ?_, ?_, ?_⟩, rfl⟩ <;> simp [outState, outOff, apply_ite Out.formErrI,
        apply_ite Out.ackErrI, apply_ite Out.crcErrI, apply_ite Out.bitErrArbI]
    all_goals exact ⟨⟨rfl, rfl, rfl, rfl⟩, rfl⟩
  · rw [hq]
    exact ⟨⟨rfl, rfl, rfl, rfl⟩, rfl⟩

/-- Leaving the header for integration is a protocol exception. -/
theorem pexsSet_of_integrating (he : i.errFrmReq = false)
    (hq : q.currState = .edlR1 ∨ q.currState = .r0Fd ∨ q.currState = .edlR0)
    (hn : nextState c q i = .integrating) : pexsSet c q i = true := by
  simp only [nextState, he, Bool.false_eq_true, if_false] at hn
  rcases hq with hq | hq | hq <;> rw [hq] at hn <;> simp only [pexsSet, hq] <;>
    grind [pexOnFdfEnable, pexOnResEnable]

theorem pexsSet_field (h : pexsSet c q i = true) :
    i.errFrmReq = false ∧ i.rxDataNbs = true ∧ c.mrSettingsPex = true ∧
      ((q.currState = .edlR1 ∨ q.currState = .edlR0) ∧ c.mrModeFde = false ∨
        q.currState = .r0Fd) := by
  simp only [pexsSet, Bool.and_eq_true, Bool.not_eq_true'] at h
  obtain ⟨⟨⟨he, hd⟩, hpex⟩, hq⟩ := h
  refine ⟨he, hd, hpex, ?_⟩
  split at hq <;> simp_all

/-- In a sample point the received bit is taken as an exception. -/
theorem step_exception (hfd : q.currState = .r0Fd → c.mrSettingsPex = true → c.mrModeFde = true)
    (ht : i.rxTrigger = true) (h : pexsSet c q i = true) :
    (step c q i).currState = .integrating := by
  obtain ⟨he, hd, hpex, hq⟩ := pexsSet_field h
  have hst : ¬ Stalled c q i := by
    rintro (⟨hs, -⟩ | ⟨hs, -⟩) <;> simp [hs] at hq
  rw [step_sample ht he hst]
  rcases hq with ⟨hq | hq, hf⟩ | hq
  · simp [nextState, he, hq, hd, pexOnFdfEnable, hf, hpex]
  · simp [nextState, he, hq, hd, pexOnFdfEnable, hf, hpex]
  · simp [nextState, he, hq, hd, pexOnResEnable, hfd hq hpex, hpex]

/-- An exception is no form error. -/
theorem noError_exception (h : pexsSet c q i = true) : NoError (out c q i) := by
  obtain ⟨he, -, hpex, (⟨hq | hq, -⟩ | hq)⟩ := pexsSet_field h
  all_goals
    rw [out_noErr he, hq]
    refine ⟨?_, rfl, rfl, rfl⟩
    simp [outState, outEdlR1, outR0Fd, outEdlR0, hpex]

/-- A sample point after which the node is outside a frame reports no error, except that
a bit error may come with a protocol exception. -/
theorem noError_leaving (he : i.errFrmReq = false)
    (hrole : i.isTransmitter = true → i.isReceiver = false)
    (h' : (step c q i).currState.outside = true) :
    NoError (out c q i) ∧
      (q.currState.mayErr = true → i.rxTrigger = true ∧ pexsSet c q i = true) := by
  have hedge : ∀ s t : PcState, t ∈ s.successors → t.outside = true →
      (s.outside = true ∨ s = .reintegratingWait) ∨ (s = .eof ∨ s = .errDelim ∨ s = .ovrDelim) ∨
        (t = .integrating ∧ (s = .edlR1 ∨ s = .r0Fd ∨ s = .edlR0)) := by decide +kernel
  have hstay : q.currState.outside = true ∨ q.currState = .reintegratingWait → NoError (out c q i) ∧
      (q.currState.mayErr = true → i.rxTrigger = true ∧ pexsSet c q i = true) := fun hq => by
    obtain ⟨hn, hm⟩ := noError_outside (c := c) he hq
    exact ⟨hn, fun h => absurd (hm.symm.trans h) (by decide)⟩
  rcases step_cases (c := c) he with hs | ⟨ht, hs⟩
  · exact hstay (.inl (hs ▸ h'))
  rw [hs] at h'
  rcases nextState_flow (c := c) (q := q) he with hst | hst
  · exact hstay (.inl (hst ▸ h'))
  rcases hedge _ _ hst h' with hq | hq | ⟨hint, hq⟩
  · exact hstay hq
  · -- the last bit of the end of frame or of a delimiter is recessive
    simp only [nextState, he, Bool.false_eq_true, if_false] at h'
    rw [out_noErr he]
    rcases hq with hq | hq | hq <;> rw [hq] at h' ⊢ <;>
      refine ⟨⟨?_, rfl, rfl, rfl⟩, by simp [PcState.mayErr]⟩ <;> simp only [outState, outEof, outDelim] <;>
      grind [PcState.outside]
  · have hp := pexsSet_of_integrating he hq hint
    exact ⟨noError_exception hp, fun _ => ⟨ht, hp⟩⟩

end Steps

end ProtocolControl

open ProtocolControl

namespace CanCore

variable {c : Config} {s : State} {i : Input} {since : Nat}

/-- An error frame request comes in the cycle after a sample point, inside a frame, and
the errors it collects belong to the field of the sampled bit. -/
structure Requests (s : State) (since : Nat) : Prop where
  paced : Paced s since
  request : s.err.errFrmReq = true → since = 1 ∧ s.pc.currState.outside = false
  bitErr : s.bed.bitErrQ = true → s.pc.currState.mayErr = true
  stuffErr : s.bds.stuffErrQ = true →
    s.bds.destuffedQ = true ∧ s.pc.currState.inStuffed = true

/-- No bit error comes together with a protocol exception. -/
def ExceptionClean (c : Config) (s : State) (i : Input) : Prop :=
  pcRxTrigger s = true → pexsSet c s.pc (pcInput c s i) = true → s.bed.bitErrQ = false

instance (c : Config) (s : State) (i : Input) : Decidable (ExceptionClean c s i) :=
  inferInstanceAs (Decidable (_ → _))

namespace Requests

theorem of_reset : Requests reset 4 := ⟨.of_reset, nofun, nofun, nofun⟩

/-- The cycle in which a bit is sampled takes no bit and follows no request. -/
theorem quiet_sample (h : Requests s since) (hok : SampleSpacing since i)
    (hr : i.rxTrigReq = true) : pcRxTrigger s = false ∧ s.err.errFrmReq = false := by
  have h4 := hok hr
  refine ⟨h.paced.noTrigger (by omega), ?_⟩
  by_contra he
  have := (h.request (by simpa using he)).1
  omega

theorem next_bitErr (h : Requests s since) (hok : SampleSpacing since i)
    (he' : (step c s i).bed.bitErrQ = true) : (step c s i).pc.currState.mayErr = true := by
  have hr : i.rxTrigReq = true := by
    have h0 := (h.paced.step_paced (c := c) hok).bitErr_sample he'
    by_contra hr
    simp [sinceSample, Bool.of_not_eq_true hr] at h0
  obtain ⟨-, he⟩ := h.quiet_sample hok hr
  obtain ⟨hs, hm, -⟩ := Sources.bitErrQ_field h.paced.spControl_dataRate
    (fun hr => (h.quiet_sample hok hr).1) he he'
  rw [hs]
  exact hm

theorem next_stuffErr (h : Requests s since) (hok : SampleSpacing since i)
    (he' : (step c s i).bds.stuffErrQ = true) :
    (step c s i).bds.destuffedQ = true ∧ (step c s i).pc.currState.inStuffed = true := by
  obtain ⟨hr, hena, hd⟩ := Sources.stuffErrQ_field he'
  obtain ⟨ht, he⟩ := h.quiet_sample hok hr
  have hs : (step c s i).pc.currState = s.pc.currState :=
    step_hold (c := c) (i := pcInput c s i) ht he
  rw [hs]
  exact ⟨hd, h.paced.destuff_stuffed hena⟩

/-- A request inside a frame: a bit error outside of protocol exceptions, a stuff error, or
an error of the field itself. -/
theorem next_request (h : Requests s since) (hok : SampleSpacing since i)
    (hpar : i.tranFrameParityError = false) (hclean : ExceptionClean c s i)
    (he' : (step c s i).err.errFrmReq = true) :
    sinceSample since i = 1 ∧ (step c s i).pc.currState.outside = false := by
  have h0 : since = 0 := by
    by_contra h0
    rw [h.paced.errFrmReq_quiet h0, hpar] at he'
    cases he'
  have hr : i.rxTrigReq = false := by
    by_contra hr
    have := hok (by simpa using hr)
    omega
  refine ⟨by simp [sinceSample, hr, h0], ?_⟩
  have he : s.err.errFrmReq = false := by
    by_contra he
    have := (h.request (by simpa using he)).1
    omega
  by_contra hout
  have hout : (step c s i).pc.currState.outside = true := by simpa using hout
  obtain ⟨hno, hexc⟩ := noError_leaving (c := c) (q := s.pc) (i := pcInput c s i) he
    (by cases hoc : s.oc <;> simp [pcInput, isTransmitter, isReceiver, hoc]) hout
  have hbit : s.bed.bitErrQ = false := by
    by_contra hb
    have hb : s.bed.bitErrQ = true := by simpa using hb
    obtain ⟨ht, hp⟩ := hexc (h.bitErr hb)
    exact absurd ((hclean ht hp).symm.trans hb) (by decide)
  have hstuff : s.bds.stuffErrQ = false := by
    by_contra hs
    obtain ⟨hd, hq⟩ := h.stuffErr (by simpa using hs)
    have hst : (step c s i).pc.currState = s.pc.currState :=
      step_hold (c := c) (i := pcInput c s i) (by simp [pcInput, pcRxTrigger, hd]) he
    rw [hst] at hout
    have hdis : ∀ st : PcState, st.inStuffed = true → st.outside = false := by decide
    exact absurd ((hdis _ hq).symm.trans hout) (by decide)
  have hno : NoError (pcOut c s i) := hno
  simp [step, ErrDetector.step, ErrDetector.errFrmReqI, errInput, hbit, hstuff, hpar, hno.form,
    hno.ack, hno.crc, hno.arb] at he'

theorem step_requests (h : Requests s since) (hok : SampleSpacing since i)
    (hpar : i.tranFrameParityError = false) (hclean : ExceptionClean c s i) :
    Requests (step c s i) (sinceSample since i) where
  paced := h.paced.step_paced hok
  request := h.next_request hok hpar hclean
  bitErr := h.next_bitErr hok
  stuffErr := h.next_stuffErr hok

end Requests

/-! ## Requests outside a frame -/

/-- The core with the number of cycles since the last sample point. -/
def spacedStep (c : Config) : State × Nat → Input → State × Nat :=
  watched (step c) fun since _ i => sinceSample since i

/-- Sample points keep their distance and no parity is checked. -/
def Unchecked (p : State × Nat) (i : Input) : Prop :=
  SampleSpacing p.2 i ∧ i.tranFrameParityError = false

instance (p : State × Nat) (i : Input) : Decidable (Unchecked p i) :=
  inferInstanceAs (Decidable (_ ∧ _))

/-- As long as no bit error comes together with a protocol exception, no error frame is
requested outside a frame. -/
theorem no_request_outside (c : Config) (is : List Input)
    (h : Admits (spacedStep c) (fun p i => Unchecked p i ∧ ExceptionClean c p.1 i) (reset, 4) is) :
    (run (spacedStep c) (reset, 4) is).1.err.errFrmReq = true →
      (run (spacedStep c) (reset, 4) is).1.pc.currState.outside = false := by
  have hinv := run_invariant (spacedStep c) (fun p i => Unchecked p i ∧ ExceptionClean c p.1 i)
    (fun p => Requests p.1 p.2) (fun p i hp hok => hp.step_requests hok.1.1 hok.1.2 hok.2)
    .of_reset is h
  exact fun he => (hinv.request he).2

/-- A classical CAN node with protocol exceptions on. -/
def exceptionNode : Config := { listener with mrModeFde := false, mrSettingsPex := true }

/-- A base frame up to its EDL bit. -/
def exceptionHeader : List Bool :=
  [false, true, false, true, false, true, false, true, false, true, false, true, false, false]

/-- The frame is sent, its dominant EDL bit is overwritten by a recessive one, and the cycle
after the sample point is reached. -/
def overwrittenEdl (valid : Bool) : List Input :=
  (frameOnBus valid (exceptionHeader ++ [true])).take 132

theorem no_request_outside_sent :
    (run (spacedStep listener) (reset, 4) (overwrittenEdl true)).1.err.errFrmReq = true ∧
      (run (spacedStep listener) (reset, 4) (overwrittenEdl true)).1.pc.currState.outside =
        false := by
  have hrun : Admits (spacedStep listener)
      (fun p i => Unchecked p i ∧ ExceptionClean listener p.1 i) (reset, 4)
      (overwrittenEdl true) := by decide +kernel
  have he : (run (spacedStep listener) (reset, 4) (overwrittenEdl true)).1.err.errFrmReq =
      true := by decide +kernel
  exact ⟨he, no_request_outside listener _ hrun he⟩

/-- The transmitter goes to integration and requests an error frame there. -/
theorem request_while_integrating :
    Admits (spacedStep exceptionNode) Unchecked (reset, 4) (overwrittenEdl true) ∧
      (run (spacedStep exceptionNode) (reset, 4) (overwrittenEdl true)).1.err.errFrmReq = true ∧
      (run (spacedStep exceptionNode) (reset, 4) (overwrittenEdl true)).1.pc.currState =
        .integrating := by
  decide +kernel

/-! ## The status of protocol exceptions -/

/-- The core with `mr_status_pexs` of `pexs_proc`. -/
structure PexsCore where
  core : State
  mrStatusPexs : Bool

namespace PexsCore

structure Input where
  core : CanCore.Input
  mrCommandCpexs : Bool

def reset : PexsCore := ⟨CanCore.reset, false⟩

def step (c : Config) (p : PexsCore) (i : Input) : PexsCore where
  core := CanCore.step c p.core i.core
  mrStatusPexs :=
    pexsSet c p.core.pc (pcInput c p.core i.core) || (p.mrStatusPexs && !i.mrCommandCpexs)

end PexsCore

/-- The node leaves a frame for integration in a sample point, without an error frame. -/
structure TakesException (c : Config) (s : State) (i : Input) : Prop where
  sample : pcRxTrigger s = true
  request : s.err.errFrmReq = false
  field : s.pc.currState.inStuffed = true
  leaves : (step c s i).pc.currState = .integrating

/-- Fields in which the received bit can be an exception. -/
def exceptionField (c : Config) (st : PcState) : Bool :=
  c.mrSettingsPex &&
    match st with
    | .edlR1 | .edlR0 => !c.mrModeFde
    | .r0Fd => true
    | _ => false

/-- Up to the sample point of a field with exceptions the bit received before is dominant. -/
def DominantBefore (c : Config) (s : State) : Prop :=
  exceptionField c s.pc.currState = true → pcRxTrigger s = false → s.bds.dataOut = false

instance (c : Config) (s : State) : Decidable (DominantBefore c s) :=
  inferInstanceAs (Decidable (_ → _))

theorem pexsSet_exceptionField (h : pexsSet c s.pc (pcInput c s i) = true) :
    exceptionField c s.pc.currState = true ∧ s.bds.dataOut = true := by
  obtain ⟨-, hd, hpex, (⟨hq | hq, hf⟩ | hq)⟩ := pexsSet_field h
  · exact ⟨by simp [exceptionField, hpex, hq, hf], hd⟩
  · exact ⟨by simp [exceptionField, hpex, hq, hf], hd⟩
  · exact ⟨by simp [exceptionField, hpex, hq], hd⟩

/-- Whatever sets the status in a sample point is an exception. -/
theorem TakesException.of_set
    (hfd : s.pc.currState = .r0Fd → c.mrSettingsPex = true → c.mrModeFde = true)
    (ht : pcRxTrigger s = true) (h : pexsSet c s.pc (pcInput c s i) = true) :
    TakesException c s i := by
  obtain ⟨he, -, -, hq⟩ := pexsSet_field h
  refine ⟨ht, he, ?_, step_exception (i := pcInput c s i) hfd ht h⟩
  rcases hq with ⟨hq | hq, -⟩ | hq <;> rw [hq] <;> rfl

theorem TakesException.sets (h : TakesException c s i) :
    pexsSet c s.pc (pcInput c s i) = true := by
  have hedge : ∀ st : PcState, st.inStuffed = true → .integrating ∈ st.successors →
      st = .edlR1 ∨ st = .r0Fd ∨ st = .edlR0 := by decide
  have hne : s.pc.currState ≠ .integrating := by
    intro hq
    exact absurd (hq ▸ h.field) (by decide)
  rcases state_cases (c := c) (i := i) h.request with hs | ⟨-, hs⟩
  · exact absurd (hs.symm.trans h.leaves) hne
  have hn : nextState c s.pc (pcInput c s i) = .integrating := hs.symm.trans h.leaves
  have hmem := (nextState_flow (c := c) (q := s.pc) (i := pcInput c s i) h.request).resolve_left
    fun hst => hne (hst.symm.trans hn)
  rw [hn] at hmem
  exact pexsSet_of_integrating h.request (hedge _ h.field hmem) hn

/-- As long as the bit before a field with exceptions is dominant, the status of protocol
exceptions rises with an exception only. Every exception sets it. -/
theorem pexs_exact (c : Config) (is : List PexsCore.Input) (i : PexsCore.Input)
    (h : Admits (PexsCore.step c) (fun p _ => DominantBefore c p.core) .reset (is ++ [i])) :
    let p := run (PexsCore.step c) .reset is
    (p.mrStatusPexs = false → (p.step c i).mrStatusPexs = true →
        TakesException c p.core i.core) ∧
      (TakesException c p.core i.core → (p.step c i).mrStatusPexs = true) := by
  intro p
  have hfd : p.core.pc.currState = .r0Fd → c.mrSettingsPex = true → c.mrModeFde = true := by
    refine run_invariant (PexsCore.step c) (fun _ _ => True)
      (fun p => p.core.pc.currState = .r0Fd → c.mrSettingsPex = true → c.mrModeFde = true)
      (fun p i hp _ hq hpex => ?_) (fun hq => absurd hq (by decide)) is (admits_true _ _ _)
    cases he : p.core.err.errFrmReq
    · exact enter_r0Fd hp he hq hpex
    · have ha := step_err (c := c) (q := p.core.pc) (i := pcInput c p.core i.core) he
      have hq : (ProtocolControl.step c p.core.pc (pcInput c p.core i.core)).currState = .r0Fd := hq
      rw [hq] at ha
      cases ha
  obtain ⟨-, hok, -⟩ := (admits_append _ _ _ _ _).mp h
  refine ⟨fun hlow hset => ?_, fun hex => ?_⟩
  · have hset : pexsSet c p.core.pc (pcInput c p.core i.core) = true := by
      simpa [PexsCore.step, hlow] using hset
    obtain ⟨hfield, hd⟩ := pexsSet_exceptionField hset
    refine .of_set hfd (Bool.of_not_eq_false fun ht => ?_) hset
    exact absurd ((hok hfield ht).symm.trans hd) (by decide)
  · simp [PexsCore.step, hex.sets]

/-- A receiver sees the recessive EDL bit after a dominant IDE bit. -/
theorem pexs_exact_received :
    let p := run (PexsCore.step exceptionNode) .reset
      (((overwrittenEdl false).take 131).map (⟨·, false⟩))
    p.mrStatusPexs = false ∧
      (p.step exceptionNode ⟨shortNode false false true, false⟩).mrStatusPexs = true ∧
      TakesException exceptionNode p.core (shortNode false false true) := by
  have hrun : Admits (PexsCore.step exceptionNode) (fun p _ => DominantBefore exceptionNode p.core)
      .reset (((overwrittenEdl false).take 131).map (⟨·, false⟩) ++
        [⟨shortNode false false true, false⟩]) := by decide +kernel
  have hpexs : (fun p : PexsCore => p.mrStatusPexs = false ∧
      (p.step exceptionNode ⟨shortNode false false true, false⟩).mrStatusPexs = true)
      (run (PexsCore.step exceptionNode) .reset
        (((overwrittenEdl false).take 131).map (⟨·, false⟩))) := by decide +kernel
  exact ⟨hpexs.1, hpexs.2, (pexs_exact exceptionNode _ _ hrun).1 hpexs.1 hpexs.2⟩

/-- In a CAN FD frame the status rises one cycle after the EDL bit was taken, and the frame
goes on. -/
theorem pexs_without_exception :
    let c := { listener with mrSettingsPex := true }
    let is := (frameOnBus false (exceptionHeader ++ [true, false])).map (⟨·, false⟩)
    (run (PexsCore.step c) .reset (is.take 132)).mrStatusPexs = false ∧
      (run (PexsCore.step c) .reset (is.take 133)).mrStatusPexs = true ∧
      pcRxTrigger (run (PexsCore.step c) .reset (is.take 132)).core = false ∧
      (run (PexsCore.step c) .reset is).core.pc.currState = .brs := by
  decide +kernel

end CanCore
