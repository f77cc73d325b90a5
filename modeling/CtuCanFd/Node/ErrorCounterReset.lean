import CtuCanFd.Node.BusOff

/-!
# Early error counter reset commands

An ERCRST command is captured in a latch that is read, and cleared, in the state that
waits for the reintegration, and nowhere else. Two runs are compared here, the second
with additional commands while the node is not bus-off. They stay together as long as
no additional command is still captured when the node waits. The capture outlives the
way into bus-off, though, so that a command given long before takes effect there.
-/

namespace Node

open SyncMachine ProtocolControl

/-- The cycle with an additional command, if there is one. -/
def Input.commanding (i : Input) (additional : Bool) : Input :=
  { i with core := { i.core with
      mrCommandErcrst := i.core.mrCommandErcrst || additional } }

/-- `mr_command_ercrst_q`. -/
def State.captured (s : State) : Bool := s.core.pc.mrCommandErcrstQ

def State.capturing (s : State) (b : Bool) : State :=
  { s with core := { s.core with pc := { s.core.pc with mrCommandErcrstQ := b } } }

/-- All registers agree apart from the latch. -/
def Agree (s t : State) : Prop := t = s.capturing t.captured

instance (s t : State) : Decidable (Agree s t) := inferInstanceAs (Decidable (_ = _))

theorem agree_refl (s : State) : Agree s s := rfl

/-- Both runs take one cycle. -/
def pairStep (f : Settings) (p : State × State) (i : Input × Bool) : State × State :=
  (step f p.1 i.1, step f p.2 (i.1.commanding i.2))

/-- Additional commands are given to an enabled node that is not bus-off. -/
def OutsideBusOff (f : Settings) (s : State) (i : Input × Bool) : Prop :=
  i.2 = true → f.core.mrSettingsEna = true ∧ s.fc.currState ≠ .busOff

instance (f : Settings) (s : State) (i : Input × Bool) : Decidable (OutsideBusOff f s i) :=
  inferInstanceAs (Decidable (_ → _))

/-- Where the node waits for the reintegration, no additional command is captured. -/
def NoneCaptured (p : State × State) : Prop :=
  p.1.core.pc.currState = .reintegratingWait → p.2.captured = p.1.captured

instance (p : State × State) : Decidable (NoneCaptured p) := inferInstanceAs (Decidable (_ → _))

/-! ## The latch is read in one state -/

theorem out_capture {c : Config} {q : Regs} {i : ProtocolControl.Input} {b e : Bool}
    (h : q.currState = .reintegratingWait → b = q.mrCommandErcrstQ) :
    out c { q with mrCommandErcrstQ := b } { i with mrCommandErcrst := e } = out c q i := by
  by_cases hq : q.currState = .reintegratingWait
  · rw [h hq]
    rfl
  · by_cases he : i.errFrmReq = true
    · rw [out_err he, out_err (by exact he)]
      rfl
    · have he : i.errFrmReq = false := by simpa using he
      have hread : ∀ st, st ≠ .reintegratingWait →
          outState c { q with mrCommandErcrstQ := b } { i with mrCommandErcrst := e } st =
            outState c q i st := by
        intro st hst
        cases st <;> first | rfl | exact absurd rfl hst
      rw [out_noErr he, out_noErr (by exact he)]
      exact hread _ hq

theorem nextState_capture {c : Config} {q : Regs} {i : ProtocolControl.Input} {b e : Bool}
    (h : q.currState = .reintegratingWait → b = q.mrCommandErcrstQ) :
    nextState c { q with mrCommandErcrstQ := b } { i with mrCommandErcrst := e } =
      nextState c q i := by
  by_cases hq : q.currState = .reintegratingWait
  · rw [h hq]
    rfl
  · unfold nextState
    cases hst : q.currState <;> first | rfl | exact absurd hst hq

section Steps

variable {f : Settings} {s t : State} {i : Input} {b e : Bool}

theorem pcOut_capture (h : s.core.pc.currState = .reintegratingWait → b = s.captured) :
    out f.core (s.capturing b).core.pc
        (CanCore.pcInput f.core (s.capturing b).core (coreInput (s.capturing b) (i.commanding e))) =
      out f.core s.core.pc (CanCore.pcInput f.core s.core (coreInput s i)) :=
  out_capture (i := pcInput f s i) h

theorem core_capture (h : s.core.pc.currState = .reintegratingWait → b = s.captured) :
    CanCore.step f.core (s.capturing b).core (coreInput (s.capturing b) (i.commanding e)) =
      { CanCore.step f.core s.core (coreInput s i) with
        pc := { (CanCore.step f.core s.core (coreInput s i)).pc with
          mrCommandErcrstQ := (step f (s.capturing b) (i.commanding e)).captured } } := by
  have hout := pcOut_capture (f := f) (i := i) (e := e) h
  have hnext : nextState f.core (s.capturing b).core.pc
        (CanCore.pcInput f.core (s.capturing b).core
          (coreInput (s.capturing b) (i.commanding e))) =
      nextState f.core s.core.pc (CanCore.pcInput f.core s.core (coreInput s i)) :=
    nextState_capture (i := pcInput f s i) h
  simp only [CanCore.step, State.captured, step, ProtocolControl.step, CanCore.nextCtr,
    CanCore.nextOc, CanCore.errInput, CanCore.bstInput, CanCore.bdsInput, CanCore.bedInput,
    CanCore.txsInput, CanCore.pcTxTrigger,
    CanCore.txDataNbs, CanCore.txShiftEna, CanCore.pcOut, ctrlCtrPload, setIdle, setTransmitter,
    setReceiver, ProtocolControl.txShiftEna, bitErrEnable, spControl, spControlD, switchToSsp,
    txtbClkEnD, hout, hnext]
  rfl

theorem fcInput_capture (h : s.core.pc.currState = .reintegratingWait → b = s.captured) :
    fcInput f (s.capturing b) (i.commanding e) = fcInput f s i := by
  simp only [fcInput, CanCore.fcInput, CanCore.errDetected, CanCore.errCtrsUnchanged,
    CanCore.errInput, CanCore.pcOut, pcOut_capture h]
  rfl

theorem flags_capture (h : s.core.pc.currState = .reintegratingWait → b = s.captured) :
    s.flags.step f.core (s.capturing b).core.pc (pcInput f (s.capturing b) (i.commanding e)) =
      s.flags.step f.core s.core.pc (pcInput f s i) := by
  simp only [FaultFlags.step, retrCtrAdd, retrCtrClear, pcInput, pcOut_capture h]
  rfl

theorem reintegCtr_capture (h : s.core.pc.currState = .reintegratingWait → b = s.captured) :
    nextReintegCtr f (s.capturing b) (i.commanding e) = nextReintegCtr f s i := by
  have hclr : reintegCtrClr (s.capturing b).core.pc (pcInput f (s.capturing b) (i.commanding e)) =
      reintegCtrClr s.core.pc (pcInput f s i) := by
    show (!s.core.err.errFrmReq && s.core.pc.currState == .reintegratingWait && b) =
      (!s.core.err.errFrmReq && s.core.pc.currState == .reintegratingWait && s.captured)
    by_cases hq : s.core.pc.currState = .reintegratingWait
    · rw [h hq]
    · rw [beq_eq_false_iff_ne.mpr hq, Bool.and_false]
      rfl
  simp only [nextReintegCtr, hclr]
  rfl

theorem step_capture (h : s.core.pc.currState = .reintegratingWait → b = s.captured) :
    step f (s.capturing b) (i.commanding e) =
      (step f s i).capturing (step f (s.capturing b) (i.commanding e)).captured :=
  calc step f (s.capturing b) (i.commanding e)
    _ = ⟨CanCore.step f.core (s.capturing b).core (coreInput (s.capturing b) (i.commanding e)),
          FaultConfinement.step f.limits s.fc (fcInput f (s.capturing b) (i.commanding e)),
          s.flags.step f.core (s.capturing b).core.pc (pcInput f (s.capturing b) (i.commanding e)),
          nextReintegCtr f (s.capturing b) (i.commanding e)⟩ := rfl
    _ = (step f s i).capturing (step f (s.capturing b) (i.commanding e)).captured := by
      rw [core_capture h, fcInput_capture h, flags_capture h, reintegCtr_capture h]
      rfl

end Steps

/-- One cycle keeps the runs together. -/
theorem agree_step {f : Settings} {p : State × State} {i : Input × Bool}
    (h : Agree p.1 p.2) (hn : NoneCaptured p) :
    Agree (pairStep f p i).1 (pairStep f p i).2 := by
  have hs := step_capture (f := f) (i := i.1) (e := i.2) hn
  rw [← h] at hs
  exact hs

/-- In every run whose additional commands are given outside bus-off, and in which none
of them is captured where the node waits for the reintegration, all registers but the
latch agree with those of the run without them before and after every cycle, and so do
the outputs of protocol control and what fault confinement is told. -/
theorem ercrst_without_effect (f : Settings) (is : List (Input × Bool)) (i : Input × Bool)
    (h : Admits (pairStep f) (fun p i => OutsideBusOff f p.1 i ∧ NoneCaptured p)
      (reset, reset) (is ++ [i])) :
    let p := run (pairStep f) (reset, reset) is
    let p' := pairStep f p i
    Agree p.1 p.2 ∧ Agree p'.1 p'.2 ∧
      CanCore.pcOut f.core p.2.core (coreInput p.2 (i.1.commanding i.2)) =
        CanCore.pcOut f.core p.1.core (coreInput p.1 i.1) ∧
      fcInput f p.2 (i.1.commanding i.2) = fcInput f p.1 i.1 := by
  intro p p'
  obtain ⟨hrun, ⟨-, hn⟩, -⟩ := (admits_append _ _ _ _ _).mp h
  have hp : Agree p.1 p.2 :=
    run_invariant (pairStep f) (fun p i => OutsideBusOff f p.1 i ∧ NoneCaptured p)
      (fun p => Agree p.1 p.2) (fun _ _ hp hok => agree_step hp hok.2) (agree_refl _) is hrun
  have hout := pcOut_capture (f := f) (i := i.1) (e := i.2) hn
  have hfc := fcInput_capture (f := f) (i := i.1) (e := i.2) hn
  rw [← hp] at hout hfc
  exact ⟨hp, agree_step hp hn, hout, hfc⟩

/-! ### An early command -/

/-- The run into bus-off, and ten recessive bits after it. -/
def recessiveAfter : List Input := intoBusOff ++ frameBits (List.replicate 10 true)

/-- An additional command while the node is error active. -/
def earlyCommand : List (Input × Bool) :=
  recessiveAfter.zipIdx.map fun (i, k) => (i, k == 100)

/-- The same, and in both runs a command when the node is bus-off. -/
def renewedCommand : List (Input × Bool) :=
  recessiveAfter.zipIdx.map fun (i, k) => (i.commanding (k == 290), k == 100)

theorem ercrst_without_effect_renewed :
    let p := run (pairStep highLimit) (reset, reset) renewedCommand
    p.1.fc.currState = .busOff ∧ p.1.core.pc.currState = .reintegrating ∧ Agree p.1 p.2 := by
  refine ⟨by decide +kernel, by decide +kernel, ?_⟩
  exact (ercrst_without_effect highLimit renewedCommand (busCycle true, false)
    (by decide +kernel)).1

/-- Without the early command the node waits; with it the reintegration has started,
and no command was given since the node got bus-off. -/
theorem early_ercrst_taken :
    let p := run (pairStep highLimit) (reset, reset) earlyCommand
    Admits (pairStep highLimit) (fun p i => OutsideBusOff highLimit p.1 i) (reset, reset)
        earlyCommand ∧
      earlyCommand.all (fun i => !i.1.core.mrCommandErcrst) = true ∧
      p.1.fc.currState = .busOff ∧ p.1.core.pc.currState = .reintegratingWait ∧
      p.2.fc.currState = .busOff ∧ p.2.core.pc.currState = .reintegrating ∧
      ¬ Agree p.1 p.2 := by
  decide +kernel

end Node
