import CtuCanFd.Core.TransmitSteps
import CtuCanFd.TxPath.Model

/-!
# Steps of the transmit path

What one clock cycle does to a TXT buffer, to the arbitrator and to the commands
between them and protocol control.
-/

/-! ## TXT buffer -/

namespace TxtBuffer

variable {g : Generics} {d : Nat} {s : State} {i : Input}

/-- The RAM of a buffer that is ready or in progress is not written. -/
theorem mem_kept (hw : txtbPortAWrite s i = false) (ht : i.mrTstControlTmaena = false)
    (hf : i.ramFault = none) : (step g d s i).ram.mem = s.ram.mem := by
  simp [step, nextRam, nextMem, applyFault, hf, tstEna, ht, hw]

theorem transient_noWrite (h : s.currState.transient = true) : txtbPortAWrite s i = false := by
  simp [txtbPortAWrite, txtbUserAccessible, h]

theorem dataOut_read (hc : i.txtbPortBClkEn = true) (ht : i.mrTstControlTmaena = false) :
    (step g d s i).ram.dataOut = s.ram.mem i.txtbPortBAddress := by
  simp [step, nextRam, ramClkEn, hc, tstEna, ht]

theorem available_ready (h : txtbAvailable s i = true) : s.currState = .ready := by
  simp only [txtbAvailable, Bool.and_eq_true, beq_iff_eq] at h
  exact h.1

theorem ready_transient (h : s.currState = .ready) : s.currState.transient = true := by
  rw [h]
  rfl

/-- A buffer becomes ready on a command of software only. -/
theorem enter_transient (h : s.currState.transient = false)
    (h' : (step g d s i).currState.transient = true) : txcrValid s i = true := by
  by_contra hc
  simp only [step, nextState] at h'
  cases hs : s.currState <;> rw [hs] at h <;> first | exact absurd h (by decide) | skip
  all_goals
    simp only [hs, setByCommand, hc] at h'
    cases hte : txceValid s i <;> simp [hte, TxtBufState.transient] at h'

end TxtBuffer

/-! ## TX arbitrator -/

namespace TxArbitrator

variable {count : Nat} {s : State} {i : Input}

theorem selectBufIndex_lt (h2 : 2 ≤ count) : selectBufIndex count i < count := by
  simp only [selectBufIndex, PriorityDecoder.outputIndex]
  split
  · omega
  · omega
  · exact Nat.mod_lt _ (by omega)

theorem selected_available (h : selectBufAvail count i = true) :
    i.txtbAvailable (selectBufIndex count i) = true :=
  (PriorityDecoder.outputIndex_valid h).2

/-- States between idle and locked. -/
def TxArbState.selecting : TxArbState → Bool
  | .idle | .locked => false
  | _ => true

/-- States whose word is checked for parity. -/
def TxArbState.checked : TxArbState → Bool
  | .selLowTs | .selUppTs | .selFfw | .selIdw => true
  | _ => false

/-- Where the selection goes on after a word is read. -/
def readNext (i : FsmInput) : TxArbState → TxArbState
  | .selLowTs => .selUppTs
  | .selUppTs => if i.timestampValid then .selFtw else .selUppTs
  | .selFtw => .selFfw
  | .selFfw => .selIdw
  | .selIdw => .validated
  | st => st

/-- Everything a cycle of the FSM may do: next state and outputs. -/
inductive Cycle (i : FsmInput) : TxArbState → TxArbState → Out → Prop where
  | rest (avail : i.selectBufAvail = false) : Cycle i .idle .idle {}
  | start (avail : i.selectBufAvail = true) :
    Cycle i .idle .selLowTs { fsmWaitStateD := true, loadTsLwAddr := true }
  | lock {st : TxArbState} (sel : st.selecting = true) (lock : i.txtbHwCmdLock = true) :
    Cycle i st .locked (outHold st)
  | none {st : TxArbState} (sel : st.selecting = true) (lock : i.txtbHwCmdLock = false)
    (avail : i.selectBufAvail = false) :
    Cycle i st .idle { outHold st with frameValidComClear := true }
  | parity {st : TxArbState} {o : Out} (lock : i.txtbHwCmdLock = false)
    (avail : i.selectBufAvail = true) (check : st.checked = true)
    (parity : parityErrorVld i = true) (commit : o.commitDblBufs = false)
    (set : o.frameValidComSet = false) (clear : o.frameValidComClear = false) :
    Cycle i st .idle o
  | restart {st : TxArbState} (sel : st.selecting = true) (lock : i.txtbHwCmdLock = false)
    (avail : i.selectBufAvail = true) (changed : i.selectIndexChanged = true) :
    Cycle i st .selLowTs { outHold st with fsmWaitStateD := true, loadTsLwAddr := true }
  | wait {st : TxArbState} (sel : st.selecting = true) (lock : i.txtbHwCmdLock = false)
    (avail : i.selectBufAvail = true) (same : i.selectIndexChanged = false)
    (wait : i.fsmWaitStateQ = true) : Cycle i st st (outHold st)
  | read {st : TxArbState} (sel : st.selecting = true) (lock : i.txtbHwCmdLock = false)
    (avail : i.selectBufAvail = true) (same : i.selectIndexChanged = false)
    (wait : i.fsmWaitStateQ = false) (parity : st.checked = true → parityErrorVld i = false) :
    Cycle i st (readNext i st) (outRead i st)
  | unlock (unlock : i.txtbHwCmdUnlock = true) :
    Cycle i .locked .idle { txArbLocked := true, frameValidComClear := true }
  | keep (unlock : i.txtbHwCmdUnlock = false) : Cycle i .locked .locked { txArbLocked := true }

theorem outSelect_parity {i : FsmInput} (st : TxArbState) (hl : i.txtbHwCmdLock = false)
    (ha : i.selectBufAvail = true) (hp : parityErrorVld i = true) :
    (outSelect i st).commitDblBufs = false ∧ (outSelect i st).frameValidComSet = false ∧
      (outSelect i st).frameValidComClear = false := by
  have hh : (outHold st).commitDblBufs = false ∧ (outHold st).frameValidComSet = false ∧
      (outHold st).frameValidComClear = false := by
    cases st <;> exact ⟨rfl, rfl, rfl⟩
  simp only [outSelect, hl, ha]
  cases i.selectIndexChanged
  · cases i.fsmWaitStateQ
    · cases st <;> simp [outRead, hp]
    · exact hh
  · exact hh

theorem selecting_cases {i : FsmInput} {st : TxArbState} (hs : st.selecting = true) :
    Cycle i st (nextState i st) (outSelect i st) := by
  cases hl : i.txtbHwCmdLock
  · cases ha : i.selectBufAvail
    · have hn : nextState i st = .idle := by
        cases st <;> first | exact absurd hs (by decide) | simp [nextState, hl, ha]
      rw [hn]
      simpa [outSelect, hl, ha] using Cycle.none hs hl ha
    · by_cases hp : st.checked = true ∧ parityErrorVld i = true
      · have hn : nextState i st = .idle := by
          obtain ⟨hc, hp⟩ := hp
          cases st <;> first | exact absurd hc (by decide) | simp [nextState, hl, hp]
        obtain ⟨h1, h2, h3⟩ := outSelect_parity st hl ha hp.2
        rw [hn]
        exact .parity hl ha hp.1 hp.2 h1 h2 h3
      · have hp : st.checked = true → parityErrorVld i = false := by
          intro hc
          simpa [hc] using hp
        cases hc : i.selectIndexChanged
        · cases hw : i.fsmWaitStateQ
          · have hn : nextState i st = readNext i st := by
              cases st <;> first | exact absurd hs (by decide) | skip
              case selFtw | validated => simp [nextState, hl, ha, hc, hw, readNext]
              all_goals
                have hp := hp rfl
                simp [nextState, hl, ha, hc, hw, hp, readNext]
            rw [hn]
            simpa [outSelect, hl, ha, hc, hw] using Cycle.read hs hl ha hc hw hp
          · have hn : nextState i st = st := by
              have hq : parityErrorVld i = false := by simp [parityErrorVld, hw]
              cases st <;> first | exact absurd hs (by decide) | simp [nextState, hl, ha, hc, hw, hq]
            rw [hn]
            simpa [outSelect, hl, ha, hc, hw] using Cycle.wait hs hl ha hc hw
        · have hn : nextState i st = .selLowTs := by
            cases st <;> first | exact absurd hs (by decide) | skip
            case selFtw | validated => simp [nextState, hl, ha, hc]
            all_goals
              have hp := hp rfl
              simp [nextState, hl, ha, hc, hp]
          rw [hn]
          simpa [outSelect, hl, ha, hc] using Cycle.restart hs hl ha hc
  · have hn : nextState i st = .locked := by
      cases st <;> first | exact absurd hs (by decide) | simp [nextState, hl]
    rw [hn]
    simpa [outSelect, hl] using Cycle.lock hs hl

theorem cycle_cases (i : FsmInput) (st : TxArbState) : Cycle i st (nextState i st) (out i st) := by
  cases st
  case idle =>
    cases ha : i.selectBufAvail <;> simp only [nextState, out, ha]
    · exact .rest ha
    · exact .start ha
  case locked =>
    cases hu : i.txtbHwCmdUnlock <;> simp only [nextState, out, hu]
    · exact .keep hu
    · exact .unlock hu
  all_goals exact selecting_cases rfl

/-- When the identifier is read the buffer selected has not changed since the first
word was. -/
theorem commit_cases (h : (fsmOut count s i).commitDblBufs = true) :
    s.fsm = .selIdw ∧ i.txtbHwCmd.lock = false ∧ selectBufAvail count i = true ∧
      selectBufIndex count i = s.selectBufIndexReg ∧ s.fsmWaitStateQ = false := by
  have hcyc := cycle_cases (fsmInput count s i) s.fsm
  have hhold : ∀ st, (outHold st).commitDblBufs = false := fun st => by cases st <;> rfl
  rw [fsmOut] at h
  generalize nextState (fsmInput count s i) s.fsm = st' at hcyc
  generalize out (fsmInput count s i) s.fsm = o at hcyc h
  generalize s.fsm = st at hcyc ⊢
  cases hcyc
  case read hl ha hc hw hsel hp =>
    have hst : st = .selIdw := by
      cases st <;> first | rfl | cases h
    exact ⟨hst, hl, ha, by simpa [fsmInput, selectIndexChanged] using hc, hw⟩
  case parity h' _ _ => rw [h'] at h; cases h
  all_goals first | cases h | exact absurd ((hhold _).symm.trans h) (by decide)

/-- The arbitrator is locked by the lock command and stays so until it is unlocked;
meanwhile nothing is committed. -/
theorem enter_locked (h : (step count s i).fsm = .locked) :
    (s.fsm = .locked ∨ i.txtbHwCmd.lock = true) ∧
      (fsmOut count s i).commitDblBufs = false := by
  have hcyc := cycle_cases (fsmInput count s i) s.fsm
  have hhold : ∀ st, (outHold st).commitDblBufs = false := fun st => by cases st <;> rfl
  have hread : ∀ st, st.selecting = true → readNext (fsmInput count s i) st ≠ .locked := by
    intro st hs
    cases st <;> simp [readNext, TxArbState.selecting] at hs ⊢
    split <;> simp
  have h : nextState (fsmInput count s i) s.fsm = .locked := h
  rw [fsmOut]
  rw [h] at hcyc
  generalize out (fsmInput count s i) s.fsm = o at hcyc ⊢
  generalize s.fsm = st at hcyc ⊢
  generalize hn : TxArbState.locked = st' at hcyc
  cases hcyc <;> first | cases hn | skip
  case lock hlock _ => exact ⟨.inr hlock, hhold _⟩
  case wait hsel => cases hsel
  case read hsel _ => exact absurd hn.symm (hread _ hsel)
  case keep => exact ⟨.inl rfl, rfl⟩

theorem frameValidComSet_eq (st : TxArbState) (i : FsmInput) :
    (out i st).frameValidComSet = (out i st).commitDblBufs := by
  have hcyc := cycle_cases i st
  have hhold : ∀ st, (outHold st).commitDblBufs = false ∧ (outHold st).frameValidComSet = false :=
    fun st => by cases st <;> exact ⟨rfl, rfl⟩
  generalize nextState i st = st' at hcyc
  generalize out i st = o at hcyc
  cases hcyc
  case read => cases st <;> rfl
  case parity h1 h2 _ => rw [h1, h2]
  all_goals first | rfl | exact (hhold _).2.trans (hhold _).1.symm

/-- An offer is withdrawn on the way to idle only. -/
theorem clear_idle (h : (fsmOut count s i).frameValidComClear = true) :
    (step count s i).fsm = .idle := by
  have hcyc := cycle_cases (fsmInput count s i) s.fsm
  have hhold : ∀ st, (outHold st).frameValidComClear = false := fun st => by cases st <;> rfl
  have hread : ∀ st, (outRead (fsmInput count s i) st).frameValidComClear = false :=
    fun st => by cases st <;> rfl
  change nextState (fsmInput count s i) s.fsm = .idle
  rw [fsmOut] at h
  generalize nextState (fsmInput count s i) s.fsm = st' at hcyc ⊢
  generalize out (fsmInput count s i) s.fsm = o at hcyc h
  generalize s.fsm = st at hcyc
  cases hcyc
  case none | parity | unlock => rfl
  case read => exact absurd ((hread _).symm.trans h) (by decide)
  all_goals first | cases h | exact absurd ((hhold _).symm.trans h) (by decide)

theorem locked_next (h : s.fsm = .locked ∨ (s.fsm ≠ .idle ∧ i.txtbHwCmd.lock = true))
    (hu : txtbHwCmdUnlock i = false) : (step count s i).fsm = .locked := by
  have hu' : (fsmInput count s i).txtbHwCmdUnlock = false := hu
  change nextState (fsmInput count s i) s.fsm = .locked
  rcases h with h | ⟨h, hl⟩
  · rw [h]
    simp [nextState, hu']
  · have hl' : (fsmInput count s i).txtbHwCmdLock = true := hl
    cases hs : s.fsm <;> simp_all [nextState]

theorem commit_index (h : (fsmOut count s i).commitDblBufs = false) :
    (step count s i).currTxtbIndex = s.currTxtbIndex := by
  simp [step, h]

/-- A frame is valid after a cycle if it is committed in it or was valid before. -/
theorem valid_cases (h : (step count s i).tranFrameValidCom = true) :
    (fsmOut count s i).commitDblBufs = true ∨ s.tranFrameValidCom = true := by
  simp only [step] at h
  cases hc : (fsmOut count s i).commitDblBufs
  · have hset : (fsmOut count s i).frameValidComSet = false :=
      (frameValidComSet_eq s.fsm (fsmInput count s i)).trans hc
    rw [hset] at h
    cases hcl : (fsmOut count s i).frameValidComClear <;> simp_all
  · exact .inl rfl

theorem valid_kept (h : s.tranFrameValidCom = true) :
    (step count s i).fsm = .idle ∨ (step count s i).tranFrameValidCom = true := by
  cases hc : (fsmOut count s i).frameValidComClear
  · exact .inr (by simp [step, hc, h])
  · exact .inl (clear_idle hc)

end TxArbitrator

/-! ## Commands of protocol control -/

namespace TxPath

variable {g : Generics} {c : ProtocolControl.Config} {s : State} {i : Input}

/-- A frame is locked one cycle after it was offered at the sample point. -/
theorem lock_offered (h : (txtbHwCmd (step g c s i)).lock = true) :
    TxArbitrator.tranFrameValid s.arb (arbInput g c s i) = true := by
  simp only [txtbHwCmd, step, CanCore.step, ProtocolControl.step] at h
  split at h
  · rw [ProtocolControl.out_lock] at h
    exact (ProtocolControl.out_setTransmitterI h).2.2
  · cases h

end TxPath
