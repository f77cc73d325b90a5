import CtuCanFd.Node.Consistency

/-!
# Bus-off silence

A bus-off node walks through the rest of its error frame before it waits for the
reintegration. On the way it sends a recessive bit with every TX trigger, unless the
last bit of a delimiter is dominant: then an overload flag follows, bus-off or not.
-/

open ProtocolControl SyncMachine

namespace Node

open FaultConfinement (txErrCtr)

/-- Bus-off, the last bit of an error or overload delimiter is recessive. -/
def LateRecessive (s : State) : Prop :=
  s.fc.currState = .busOff →
    s.core.pc.currState = .errDelim ∨ s.core.pc.currState = .ovrDelim →
    s.core.ctr.ctrlCtrZero = true → CanCore.pcRxTrigger s.core = true → s.core.bds.dataOut = true

instance (s : State) : Decidable (LateRecessive s) :=
  inferInstanceAs (Decidable (_ → _ → _ → _ → _))

/-- A bus-off node sends neither an active error flag nor an overload flag. -/
def Silent (s : State) : Prop :=
  s.fc.currState = .busOff →
    s.core.pc.currState ≠ .actErrFlag ∧ s.core.pc.currState ≠ .ovrFlag

namespace Confined

variable {f : Settings} {l : CanCore.Last} {s : State} {i : Input}

theorem busOff_unstuffed (h : Confined f l s) (hb : s.fc.currState = .busOff) :
    s.core.pc.stuffEnable = false := by
  by_cases hc : txErrCtr s.fc ≤ 255
  · exact (h.starting hb hc).noStuffing
  · have hun : ∀ st : PcState, st.inFault = true ∨ st.inBusOff = true → st.unstuffed = true := by
      decide
    exact h.stuffing (hun _ ((h.gone hb (by omega)).state.imp And.left And.left))

/-- With a limit up to 248 the node is error passive before it gets bus-off. -/
theorem enter_silent (h : Confined f l s) (hlim : f.limits.mrErpErpLimit.toNat ≤ 248)
    (hb : s.fc.currState ≠ .busOff) (hb' : (step f s i).fc.currState = .busOff) :
    (step f s i).core.pc.currState ≠ .actErrFlag ∧
      (step f s i).core.pc.currState ≠ .ovrFlag := by
  obtain ⟨hpas, hc⟩ := enter_busOff hb hb'
  have hx := h.crossing hb hc
  cases he : s.core.err.errFrmReq
  · have hlist := (hx.active (.inr hlim)).2
    have hs := state_flow (f := f) (i := i) he
    have hn : (step f s i).core.pc = ProtocolControl.step f.core s.core.pc (pcInput f s i) := rfl
    rw [hn]
    rcases hlist with hl | hl | hl | hl | hl
    · exact absurd (he.symm.trans hl) (by decide)
    all_goals
      rw [hl] at hs
      simp only [PcState.successors, List.mem_cons, List.not_mem_nil, or_false] at hs
      grind
  · have hs := state_errFrm (f := f) (i := i) he
    have hact : FaultConfinement.isErrActive s.fc = false := by
      simp [FaultConfinement.isErrActive, hpas]
    rw [hs, hx.rom]
    simp [hact]

theorem step_silent (h : Confined f l s) (hlim : f.limits.mrErpErpLimit.toNat ≤ 248)
    (hr : LateRecessive s) (hs : Silent s) : Silent (step f s i) := by
  intro hb'
  by_cases hb : s.fc.currState = .busOff
  · have hbus : FaultConfinement.isBusOff s.fc = true := by simp [FaultConfinement.isBusOff, hb]
    have hact : FaultConfinement.isErrActive s.fc = false := by
      simp [FaultConfinement.isErrActive, hb]
    cases he : s.core.err.errFrmReq
    · rcases state_cases (f := f) (i := i) he with hk | ⟨ht, hk⟩
      · rw [hk]
        exact hs hb
      · have hsil := hs hb
        have hdelim : s.core.pc.currState = .errDelim ∨ s.core.pc.currState = .ovrDelim →
            s.core.ctr.ctrlCtrZero = true → s.core.bds.dataOut = true :=
          fun hq hz => hr hb hq hz ht
        rw [hk]
        rcases h.busOff_place hb with hq | hq | hq | hq
        · simp [nextState, he, hq]
        · simp only [nextState, pcInput_errFrmReq, he, hq]
          grind
        all_goals
          cases hst : s.core.pc.currState <;> rw [hst] at hq hsil hdelim <;> cases hq
          all_goals
            simp only [nextState, pcInput_errFrmReq, pcInput_isBusOff, pcInput_ctrlCtrZero,
              pcInput_rxDataNbs, he, hst, hbus]
            grind
    · have hk := state_errFrm (f := f) (i := i) he
      rw [hk]
      cases f.core.mrModeRom <;> simp [hact]
  · exact h.enter_silent hlim hb hb'

/-- The bit a silent node puts out with a TX trigger. -/
theorem silent_bit (h : Confined f l s) (hs : Silent s) (hb : s.fc.currState = .busOff)
    (ht : i.core.txTrigger = true) :
    CanCore.txDataWbs f.core (step f s i).core = true := by
  have hstuff := h.busOff_unstuffed hb
  have hst := h.busOff_place hb
  have hact : (coreInput s i).isErrActive = false := by
    show FaultConfinement.isErrActive s.fc = false
    simp [FaultConfinement.isErrActive, hb]
  have ht : (coreInput s i).txTrigger = true := ht
  have hbit : CanCore.txDataNbs f.core s.core (coreInput s i) = true := by
    cases he : s.core.err.errFrmReq
    · have hout := CanCore.pcOut_noErr (c := f.core) (i := coreInput s i) he
      have hquiet : (CanCore.pcOut f.core s.core (coreInput s i)).txDominant = false ∧
          (CanCore.pcOut f.core s.core (coreInput s i)).txShiftEnaI = false := by
        have hsil := hs hb
        rw [hout]
        rcases hst with hq | hst
        · rw [hq]
          simp [outState, outOff, apply_ite Out.txDominant, apply_ite Out.txShiftEnaI]
        · cases hq : s.core.pc.currState <;> rw [hq] at hst hsil <;>
            first
              | exact ⟨rfl, rfl⟩
              | exact absurd rfl hsil.1
              | exact absurd rfl hsil.2
              | simp [PcState.inFault, PcState.inBusOff] at hst
      have hshift : CanCore.txShiftEna f.core s.core (coreInput s i) = false := by
        show ((CanCore.pcOut f.core s.core (coreInput s i)).txShiftEnaI && _) = false
        simp [hquiet.2]
      simp [CanCore.txDataNbs, TxShiftReg.txDataNbs, he, hquiet.1, hshift]
    · simp [CanCore.txDataNbs, TxShiftReg.txDataNbs, he, hact]
  have hout : (step f s i).core.bst.dataOut = true := by
    simp [step, CanCore.step, BitStuffing.step, CanCore.bstInput, ht, hstuff, hbit]
  rw [CanCore.txDataWbs, hout]
  split <;> rfl

end Confined

/-- In every run in which the last delimiter bit of a bus-off node is recessive, and
with an error passive limit up to 248, a TX trigger while bus-off puts a recessive bit
on the output. -/
theorem bus_off_silence (f : Settings) (hlim : f.limits.mrErpErpLimit.toNat ≤ 248)
    (is : List Input) (i : Input)
    (h : Admits (orderedStep f) (fun p i => Ordered p.2 p.1 i ∧ LateRecessive p.1)
      orderedReset is) :
    let s := (run (orderedStep f) orderedReset is).1
    s.fc.currState = .busOff → i.core.txTrigger = true →
      CanCore.txDataWbs f.core (step f s i).core = true := by
  intro s hb ht
  have hinv := run_invariant (orderedStep f) (fun p i => Ordered p.2 p.1 i ∧ LateRecessive p.1)
    (fun p => Confined f p.2 p.1 ∧ Silent p.1)
    (fun p j hp hok => ⟨hp.1.step_confined hok.1, hp.1.step_silent hlim hok.2 hp.2⟩)
    ⟨Confined.of_reset f _ rfl, fun _ => by decide⟩ is h
  exact hinv.1.silent_bit hinv.2 hb ht

/-! ### A run into bus-off -/

theorem bus_off_silence_flag :
    let s := (run (orderedStep highLimit) orderedReset intoBusOff).1
    s.fc.currState = .busOff ∧ s.core.pc.currState = .errFlagTooLong ∧
      CanCore.txDataWbs highLimit.core
        (step highLimit s (transmitted (busCycle false))).core = true := by
  refine ⟨by decide +kernel, by decide +kernel, ?_⟩
  exact bus_off_silence highLimit (by decide) intoBusOff (transmitted (busCycle false))
    (by decide +kernel) (by decide +kernel) rfl

/-- Seven recessive bits, and the last bit of the error delimiter dominant. -/
def lateDominant : List Input :=
  intoBusOff ++ frameBits (List.replicate 7 true) ++
    [sampled (busCycle false), busCycle false]

/-- The bus-off node sends an overload flag. -/
theorem bus_off_overload_flag :
    let s := (run (orderedStep highLimit) orderedReset lateDominant).1
    OrderedRun highLimit lateDominant ∧ s.fc.currState = .busOff ∧
      s.core.pc.currState = .ovrFlag ∧
      CanCore.txDataWbs highLimit.core
        (step highLimit s (transmitted (busCycle false))).core = false := by
  decide +kernel

end Node
