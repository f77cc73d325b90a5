import CtuCanFd.Node.BusOff

/-!
# Dominant bits after a flag

After an active error flag or an overload flag the node waits for the bus to get
recessive. The same control counter counts the bits of the flag, the seven dominant
bits that are tolerated after it, and then every eighth dominant bit; it stands still
for one bit in between. `StuckFor n` says where the node is after `n` dominant bits
from the first bit of the flag on.
-/

open ProtocolControl SyncMachine

namespace ProtocolControl.PcState

def sendsFlag : PcState → Bool
  | actErrFlag | ovrFlag => true
  | _ => false

def awaitsDelim : PcState → Bool
  | errDelimWait | ovrDelimWait => true
  | _ => false

def flagTooLong : PcState → Bool
  | errFlagTooLong | ovrFlagTooLong => true
  | _ => false

theorem not_flagTooLong {q : PcState} (h : q.sendsFlag = true ∨ q.awaitsDelim = true) :
    q.flagTooLong = false := by
  cases q <;> first | rfl | exact absurd h (by decide)

end ProtocolControl.PcState

namespace CanCore

/-- `n` dominant bits have been taken since the first bit of the flag. -/
def StuckFor (n : Nat) (s : State) : Prop :=
  (s.pc.currState.sendsFlag = true ∧ s.ctr.ctrlCtrQ + n = 5) ∨
    (s.pc.currState.awaitsDelim = true ∧ 6 ≤ n ∧ s.ctr.ctrlCtrQ + n = 12) ∨
    (s.pc.currState.flagTooLong = true ∧ 13 ≤ n ∧ s.ctr.ctrlCtrQ + (n + 2) % 8 = 7)

section Steps

variable {c : Config} {l : Last} {s : State} {i : Input} {n : Nat}

/-! ## One bit -/

theorem flag_step (he : s.err.errFrmReq = false) (hq : s.pc.currState.sendsFlag = true)
    (hl : s.ctr.ctrlCtrQ < 512) (ht : pcRxTrigger s = true) :
    if s.ctr.ctrlCtrQ = 0 then
      (step c s i).pc.currState.awaitsDelim = true ∧ (step c s i).ctr.ctrlCtrQ = 6
    else
      (step c s i).pc.currState.sendsFlag = true ∧
        (step c s i).ctr.ctrlCtrQ + 1 = s.ctr.ctrlCtrQ := by
  have hs : (step c s i).pc.currState = nextState c s.pc (pcInput c s i) :=
    step_sample (c := c) ht he
      (by cases hst : s.pc.currState <;> simp_all [Stalled, PcState.sendsFlag])
  rw [ctr_taken he ht, hs]
  cases hst : s.pc.currState <;> rw [hst] at hq <;> cases hq
  all_goals
    by_cases hz : s.ctr.ctrlCtrQ = 0
    · simp [nextState, outState, outFlag, hst, he, hz, ControlCounter.ctrlCtrZero,
        PcState.awaitsDelim]
    · simp [nextState, outState, outFlag, hst, he, hz, ControlCounter.ctrlCtrZero,
        PcState.sendsFlag]
      omega

/-- The counter stands still with the last tolerated bit. -/
theorem awaitsDelim_step (he : s.err.errFrmReq = false)
    (hq : s.pc.currState.awaitsDelim = true) (hl : s.ctr.ctrlCtrQ < 512)
    (ht : pcRxTrigger s = true) (hb : s.bds.dataOut = false) :
    if s.ctr.ctrlCtrQ = 0 then
      (step c s i).pc.currState.flagTooLong = true ∧ (step c s i).ctr.ctrlCtrQ = 0
    else
      (step c s i).pc.currState.awaitsDelim = true ∧
        (step c s i).ctr.ctrlCtrQ + 1 = s.ctr.ctrlCtrQ := by
  have hs : (step c s i).pc.currState = nextState c s.pc (pcInput c s i) :=
    step_sample (c := c) ht he
      (by cases hst : s.pc.currState <;> simp_all [Stalled, PcState.awaitsDelim])
  rw [ctr_taken he ht, hs]
  cases hst : s.pc.currState <;> rw [hst] at hq <;> cases hq
  all_goals
    by_cases hz : s.ctr.ctrlCtrQ = 0
    · simp [nextState, outState, outDelimWait, hst, he, hb, hz, ControlCounter.ctrlCtrZero,
        PcState.flagTooLong]
    · simp [nextState, outState, outDelimWait, hst, he, hb, hz, ControlCounter.ctrlCtrZero,
        PcState.awaitsDelim]
      omega

theorem flagTooLong_step (he : s.err.errFrmReq = false)
    (hq : s.pc.currState.flagTooLong = true) (hl : s.ctr.ctrlCtrQ < 512)
    (ht : pcRxTrigger s = true) (hb : s.bds.dataOut = false) :
    (step c s i).pc.currState.flagTooLong = true ∧
      (step c s i).ctr.ctrlCtrQ = if s.ctr.ctrlCtrQ = 0 then 7 else s.ctr.ctrlCtrQ - 1 := by
  have hs : (step c s i).pc.currState = nextState c s.pc (pcInput c s i) :=
    step_sample (c := c) ht he
      (by cases hst : s.pc.currState <;> simp_all [Stalled, PcState.flagTooLong])
  rw [ctr_taken he ht, hs]
  cases hst : s.pc.currState <;> rw [hst] at hq <;> cases hq
  all_goals
    refine ⟨by simp [nextState, hst, he, hb, PcState.flagTooLong], ?_⟩
    by_cases hz : s.ctr.ctrlCtrQ = 0
    · simp [outState, outFlagTooLong, hb, hz, ControlCounter.ctrlCtrZero]
    · simp [outState, outFlagTooLong, hb, hz, ControlCounter.ctrlCtrZero]
      omega

/-- A flag starts with six bits to go. -/
theorem flag_start (hq : (step c s i).pc.currState.sendsFlag = true)
    (hnew : s.err.errFrmReq = true ∨ (step c s i).pc.currState ≠ s.pc.currState) :
    (step c s i).ctr.ctrlCtrQ = 5 := by
  cases he : s.err.errFrmReq
  · have hne : (step c s i).pc.currState ≠ s.pc.currState := hnew.resolve_left (by simp [he])
    rcases step_cases (c := c) (q := s.pc) (i := pcInput c s i) he with hs | ⟨ht, hs⟩
    · exact absurd hs hne
    · have hs : (step c s i).pc.currState = nextState c s.pc (pcInput c s i) := hs
      have ht : pcRxTrigger s = true := ht
      have he' : (pcInput c s i).errFrmReq = false := he
      rw [hs] at hq hne
      rw [ctr_taken he ht]
      simp only [nextState, he', Bool.false_eq_true, if_false] at hq hne
      cases hst : s.pc.currState <;> rw [hst] at hq hne <;>
        grind [PcState.sendsFlag, outState, outEof, outIntermission, outDelim]
  · have hs := step_errFrm (c := c) (q := s.pc) (i := pcInput c s i) he
    have hs : (step c s i).pc.currState = _ := hs
    have hrom : c.mrModeRom = false := by
      by_contra hrom
      rw [hs, if_pos (by simpa using hrom)] at hq
      cases hq
    simp [step, nextCtr, ControlCounter.step, ctrlCtrPload, ctrlSignalUpd, pcOut, he, out_err,
      outErrFrm, hrom]

/-- A passive flag ends with the wait for the delimiter. -/
theorem passive_end (hq : s.pc.currState = .pasErrFlag)
    (hq' : (step c s i).pc.currState = .errDelimWait) :
    s.err.errFrmReq = false ∧ s.ctr.ctrlCtrQ = 0 ∧ (step c s i).ctr.ctrlCtrQ = 6 := by
  have he : s.err.errFrmReq = false := by
    by_contra he
    have hs := step_err (c := c) (q := s.pc) (i := pcInput c s i) (Bool.of_not_eq_false he)
    have hs : (step c s i).pc.currState.afterError = true := hs
    rw [hq'] at hs
    cases hs
  refine ⟨he, ?_⟩
  rcases step_cases (c := c) (q := s.pc) (i := pcInput c s i) he with hs | ⟨ht, hs⟩
  · exact absurd ((hq'.symm.trans hs).trans hq) (by decide)
  · have ht : pcRxTrigger s = true := ht
    have hz : s.ctr.ctrlCtrZero = true := by
      by_contra hz
      have hn : nextState c s.pc (pcInput c s i) = .errDelimWait := hs.symm.trans hq'
      simp [nextState, he, hq, hz] at hn
    have hsame : s.pc.rxDataNbsPrev = s.bds.dataOut := by
      by_contra hsame
      have hstay := step_stalled (c := c) (q := s.pc) (i := pcInput c s i) ht he
        (.inr ⟨hq, hsame⟩)
      exact absurd ((hq'.symm.trans hstay).trans hq) (by decide)
    refine ⟨by simpa [ControlCounter.ctrlCtrZero] using hz, ?_⟩
    simp [ctr_taken he ht, hq, outState, outPasErrFlag, hz, hsame]

/-! ## Errors -/

/-- Nothing but a bit error in the flag itself is seen before the delimiter. -/
theorem awaiting_noError (hs : Sources l s) (hok : Orderly l s i) (he : s.err.errFrmReq = false)
    (hq : s.pc.currState.awaitsDelim = true ∨ s.pc.currState.flagTooLong = true ∨
      (s.pc.currState = .pasErrFlag ∧ s.ctr.ctrlCtrQ = 0)) :
    errDetected c s i = false := by
  have hplace : ∀ st : PcState,
      st.awaitsDelim = true ∨ st.flagTooLong = true ∨ st = .pasErrFlag →
      st.mayErr = false ∧ st.inStuffed = false ∧ (st.afterError = true → st = .pasErrFlag) ∧
        st ∉ [.dlc, .data, .stuffCount, .crc] := by decide
  obtain ⟨hmay, hin, hafter, hfar⟩ := hplace _ (hq.imp_right (Or.imp_right And.left))
  have hzero : s.pc.currState.afterError = true → s.ctr.ctrlCtrQ = 0 := by
    intro hx
    have hpas := hafter hx
    rcases hq with hq | hq | ⟨-, hz⟩
    · rw [hpas] at hq
      cases hq
    · rw [hpas] at hq
      cases hq
    · exact hz
  have hbit : s.bed.bitErrQ = false := by
    by_contra hb
    rcases hs.bitErr (Bool.of_not_eq_false hb) with ⟨hx, hc⟩ | ⟨hx, -⟩
    · have := hzero hx
      omega
    · exact absurd (hmay.symm.trans hx) (by decide)
  have hstuff : s.bds.stuffErrQ = false := by
    by_contra hb
    rcases (hs.stuffErr (Bool.of_not_eq_false hb)).2 with hx | ⟨hx, hc⟩
    · exact absurd (hin.symm.trans hx) (by decide)
    · have := hzero hx
      omega
  have hpar : i.tranFrameParityError = false := by
    by_contra hp
    simp only [List.mem_cons, List.not_mem_nil, or_false, not_or] at hfar
    rcases hs.clkEn (hok.parity (Bool.of_not_eq_false hp)) with hx | hx | hx | ⟨hx | hx, hc⟩
    · exact hfar.1 hx
    · exact hfar.2.1 hx
    · exact hfar.2.2.1 hx
    · exact hfar.2.2.2 hx
    · have := hzero hx
      omega
  have hout : (pcOut c s i).formErrI = false ∧ (pcOut c s i).ackErrI = false ∧
      (pcOut c s i).crcErrI = false ∧ (pcOut c s i).bitErrArbI = false := by
    rw [pcOut_noErr he]
    rcases hq with hq | hq | ⟨hq, -⟩ <;> cases hst : s.pc.currState <;> rw [hst] at hq <;>
      cases hq <;> exact ⟨rfl, rfl, rfl, rfl⟩
  simp [errDetected, ErrDetector.errFrmReqI, errInput, hbit, hstuff, hpar, hout]

/-! ## Dominant bits -/

/-- Dominant bits after which the error delimiter is late. -/
def lateAt (n : Nat) : Bool := decide (14 ≤ n ∧ (n + 2) % 8 = 0)

namespace StuckFor

theorem hold (h : StuckFor n s) (he : s.err.errFrmReq = false) (ht : pcRxTrigger s = false) :
    StuckFor n (step c s i) := by
  have hs : (step c s i).pc.currState = s.pc.currState :=
    step_hold (c := c) (i := pcInput c s i) ht he
  have hc : (step c s i).ctr.ctrlCtrQ = s.ctr.ctrlCtrQ := by
    have hoff : s.pc.currState ≠ .off := by
      rintro hst
      rw [StuckFor, hst] at h
      rcases h with ⟨hq, -⟩ | ⟨hq, -⟩ | ⟨hq, -⟩ <;> cases hq
    rw [ctr_between he ht hoff]
    rcases h with ⟨hq, -⟩ | ⟨hq, -⟩ | ⟨hq, -⟩ <;> cases hst : s.pc.currState <;>
      rw [hst] at hq <;> cases hq <;> rfl
  rw [StuckFor, hs, hc]
  exact h

theorem dominant (h : StuckFor n s) (he : s.err.errFrmReq = false) (hl : s.ctr.ctrlCtrQ < 512)
    (ht : pcRxTrigger s = true) (hb : s.bds.dataOut = false) : StuckFor (n + 1) (step c s i) := by
  rcases h with ⟨hq, hn⟩ | ⟨hq, h6, hn⟩ | ⟨hq, h13, hn⟩
  · have hs := flag_step (c := c) (i := i) he hq hl ht
    split at hs
    · exact .inr (.inl ⟨hs.1, by omega, by omega⟩)
    · exact .inl ⟨hs.1, by omega⟩
  · have hs := awaitsDelim_step (c := c) (i := i) he hq hl ht hb
    split at hs
    · exact .inr (.inr ⟨hs.1, by omega, by omega⟩)
    · exact .inr (.inl ⟨hs.1, by omega, by omega⟩)
  · obtain ⟨hs, hc⟩ := flagTooLong_step (c := c) (i := i) he hq hl ht hb
    refine .inr (.inr ⟨hs, by omega, ?_⟩)
    rw [hc]
    split <;> omega

theorem late (h : StuckFor n s) (he : s.err.errFrmReq = false) :
    ProtocolControl.errDelimLate s.pc (pcInput c s i) =
      (pcRxTrigger s && !s.bds.dataOut && lateAt (n + 1)) := by
  have hlong : (s.pc.currState == .errFlagTooLong || s.pc.currState == .ovrFlagTooLong) =
      s.pc.currState.flagTooLong := by
    cases s.pc.currState <;> rfl
  have hat : (s.pc.currState.flagTooLong && s.ctr.ctrlCtrZero) = lateAt (n + 1) := by
    have hzero : s.ctr.ctrlCtrZero = decide (s.ctr.ctrlCtrQ = 0) := rfl
    rcases h with ⟨hq, hn⟩ | ⟨hq, h6, hn⟩ | ⟨hq, h13, hn⟩
    · have hat : ¬ 14 ≤ n + 1 := by omega
      simp [PcState.not_flagTooLong (.inl hq), lateAt, hat]
    · have hat : ¬ 14 ≤ n + 1 := by omega
      simp [PcState.not_flagTooLong (.inr hq), lateAt, hat]
    · have hat : 14 ≤ n + 1 := by omega
      have hmod : s.ctr.ctrlCtrQ = 0 ↔ (n + 1 + 2) % 8 = 0 := by omega
      simp [hq, lateAt, hat, hzero, hmod]
  simp only [errDelimLate, pcInput_errFrmReq, pcInput_rxTrigger, pcInput_rxDataNbs,
    pcInput_ctrlCtrZero, he, hlong, ← hat]
  cases pcRxTrigger s <;> cases s.pc.currState.flagTooLong <;> cases s.bds.dataOut <;> simp

end StuckFor

end Steps

end CanCore

namespace Node

/-! ## Whole phases -/

/-- The bits protocol control takes during a run. -/
def bitsTaken (f : Settings) : State → List Input → List Bool
  | _, [] => []
  | s, i :: is =>
    if CanCore.pcRxTrigger s.core then s.core.bds.dataOut :: bitsTaken f (step f s i) is
    else bitsTaken f (step f s i) is

/-- How often fault confinement is told during a run that the delimiter is late. -/
def lateEvents (f : Settings) : State → List Input → Nat
  | _, [] => 0
  | s, i :: is => (fcInput f s i).errDelimLate.toNat + lateEvents f (step f s i) is

/-- The flag is sent without an error. -/
def FlagUndisturbed (f : Settings) (s : State) (i : Input) : Prop :=
  s.core.pc.currState.sendsFlag = true →
    s.core.err.errFrmReq = false ∧ CanCore.errDetected f.core s.core (coreInput s i) = false

instance (f : Settings) (s : State) (i : Input) : Decidable (FlagUndisturbed f s i) :=
  inferInstanceAs (Decidable (_ → _))

/-- An active error flag or an overload flag starts with this cycle. -/
def FlagStarts (f : Settings) (s : State) (i : Input) : Prop :=
  (step f s i).core.pc.currState.sendsFlag = true ∧
    (s.core.err.errFrmReq = true ∨ (step f s i).core.pc.currState ≠ s.core.pc.currState)

/-- Late delimiters after `n` dominant bits from the first bit of a flag on. -/
def lateCount (n : Nat) : Nat := if n < 14 then 0 else 1 + (n - 14) / 8

theorem lateCount_succ (n : Nat) :
    lateCount (n + 1) = lateCount n + (CanCore.lateAt (n + 1)).toNat := by
  by_cases hat : 14 ≤ n + 1 ∧ (n + 1 + 2) % 8 = 0
  · rw [CanCore.lateAt, decide_eq_true hat, lateCount, lateCount]
    split <;> split <;> simp <;> omega
  · rw [CanCore.lateAt, decide_eq_false hat, lateCount, lateCount]
    split <;> split <;> simp <;> omega

section Phase

variable {f : Settings} {l : CanCore.Last} {s : State} {i : Input} {n : Nat}

theorem late_taken (h : (fcInput f s i).errDelimLate = true) :
    CanCore.pcRxTrigger s.core = true ∧ s.core.bds.dataOut = false := by
  have h : errDelimLate s.core.pc (pcInput f s i) = true := h
  simp only [errDelimLate, Bool.and_eq_true, Bool.not_eq_true'] at h
  exact ⟨h.1.1.1.2, h.1.2⟩

theorem lateEvents_noBits {is : List Input} (h : bitsTaken f s is = []) : lateEvents f s is = 0 := by
  induction is generalizing s with
  | nil => rfl
  | cons i is ih =>
    have ht : CanCore.pcRxTrigger s.core = false := by
      by_contra ht
      rw [bitsTaken, if_pos (Bool.of_not_eq_false ht)] at h
      cases h
    have hlate : (fcInput f s i).errDelimLate = false := by
      by_contra hl
      exact absurd (ht.symm.trans (late_taken (Bool.of_not_eq_false hl)).1) (by decide)
    have hrest : bitsTaken f (step f s i) is = [] := by simpa [bitsTaken, ht] using h
    simp [lateEvents, hlate, ih hrest]

/-- The next cycle starts without an error frame request, unless the flag itself met
an error. -/
theorem phase_quiet (hs : CanCore.Sources l s.core)
    (hok : CanCore.Orderly l s.core (coreInput s i)) (he : s.core.err.errFrmReq = false)
    (h : CanCore.StuckFor n s.core) (hu : n < 6 → FlagUndisturbed f s i) :
    (step f s i).core.err.errFrmReq = false := by
  show CanCore.errDetected f.core s.core (coreInput s i) = false
  rcases h with ⟨hq, hn⟩ | ⟨hq, -⟩ | ⟨hq, -⟩
  · exact (hu (by omega) hq).2
  · exact CanCore.awaiting_noError hs hok he (.inl hq)
  · exact CanCore.awaiting_noError hs hok he (.inr (.inl hq))

/-- Induction over the cycles: `n` dominant bits have been taken before, `m` are still
to come, and then a recessive one. -/
theorem phase_late {js : List Input} {m : Nat} (hs : CanCore.Sources l s.core)
    (hok : Admits (orderedStep f) (fun p i => CanCore.Orderly p.2 p.1.core (coreInput p.1 i))
      (s, l) js)
    (hu : n < 6 → Admits (step f) (FlagUndisturbed f) s js) (he : s.core.err.errFrmReq = false)
    (h : CanCore.StuckFor n s.core)
    (hb : bitsTaken f s js = List.replicate m false ++ [true]) :
    lateCount n + lateEvents f s js = lateCount (n + m) := by
  induction js generalizing s l n m with
  | nil => cases m <;> cases hb
  | cons i js ih =>
    have hs' : CanCore.Sources (.next s.core (coreInput s i)) (step f s i).core :=
      hs.step_sources hok.1
    have he' := phase_quiet hs hok.1 he h fun hn => (hu hn).1
    have hlate : (fcInput f s i).errDelimLate =
        (CanCore.pcRxTrigger s.core && !s.core.bds.dataOut && CanCore.lateAt (n + 1)) := h.late he
    rw [lateEvents, hlate]
    cases ht : CanCore.pcRxTrigger s.core
    · have hb : bitsTaken f (step f s i) js = List.replicate m false ++ [true] := by
        rw [← hb, bitsTaken, if_neg (by simp [ht])]
      have hn := ih hs' hok.2 (fun hn => (hu hn).2) he' (h.hold he ht) hb
      simpa using hn
    · rw [bitsTaken, if_pos ht] at hb
      cases m with
      | zero =>
        obtain ⟨hbit, hrest⟩ := List.cons.inj hb
        simp [hbit, lateEvents_noBits hrest]
      | succ m =>
        obtain ⟨hbit, hrest⟩ := List.cons.inj hb
        have hn := ih hs' hok.2 (fun hn => (hu (by omega)).2) he' (h.dominant he hs.ctr_lt ht hbit)
          hrest
        rw [lateCount_succ] at hn
        rw [show n + (m + 1) = n + 1 + m by omega, ← hn]
        simp [hbit]
        omega

/-- In restricted operation there are no flags. -/
theorem fault_operation (h : s.core.pc.currState.inFault = true → f.core.mrModeRom = false)
    (h' : (step f s i).core.pc.currState.inFault = true) : f.core.mrModeRom = false := by
  by_contra hrom
  have hout : s.core.pc.currState.inFault = false := by
    by_contra hq
    exact hrom (h (Bool.of_not_eq_false hq))
  have hrom : f.core.mrModeRom = true := Bool.of_not_eq_false hrom
  cases he : s.core.err.errFrmReq
  · rcases state_cases (f := f) (i := i) he with hk | ⟨-, hk⟩
    · rw [hk, hout] at h'
      cases h'
    · have he' : (pcInput f s i).errFrmReq = false := he
      rw [hk] at h'
      simp only [nextState, he', Bool.false_eq_true, if_false] at h'
      cases hst : s.core.pc.currState <;> rw [hst] at h' hout <;> grind [PcState.inFault]
  · have hk := state_errFrm (f := f) (i := i) he
    rw [hk, if_pos hrom] at h'
    cases h'

end Phase

/-- Sample points, parity errors and the offered frame come as `CanCore.Orderly` says. -/
def CoreOrderly (f : Settings) (is : List Input) : Prop :=
  Admits (orderedStep f) (fun p i => CanCore.Orderly p.2 p.1.core (coreInput p.1 i))
    orderedReset is

instance (f : Settings) (is : List Input) : Decidable (CoreOrderly f is) :=
  inferInstanceAs (Decidable (Admits _ _ _ _))

/-- In every run: an active error flag or an overload flag that is sent without an error
and is the beginning of `n` dominant bits before a recessive one makes the delimiter
late as often as `lateCount n` says; behind a passive error flag the dominant bits are
counted as if six had come before; every late delimiter asks for eight on the error
counter. -/
theorem stuck_dominant_accounting (f : Settings) (is : List Input) (i : Input) (js : List Input)
    (n : Nat) (h : CoreOrderly f (is ++ i :: js)) :
    let s := (run (orderedStep f) orderedReset is).1
    (FlagStarts f s i → Admits (step f) (FlagUndisturbed f) (step f s i) js →
        bitsTaken f (step f s i) js = List.replicate n false ++ [true] →
        lateEvents f (step f s i) js = if n < 14 then 0 else 1 + (n - 14) / 8) ∧
      (s.core.pc.currState = .pasErrFlag → (step f s i).core.pc.currState = .errDelimWait →
        bitsTaken f (step f s i) js = List.replicate n false ++ [true] →
        lateEvents f (step f s i) js = if 6 + n < 14 then 0 else 1 + (6 + n - 14) / 8) ∧
      ((fcInput f s i).errDelimLate = true →
        FaultConfinement.incEight (fcInput f s i) = true) := by
  intro s
  obtain ⟨hrun, hi, hjs⟩ := (admits_append _ _ _ _ _).mp h
  have hinv := run_invariant (orderedStep f)
    (fun p i => CanCore.Orderly p.2 p.1.core (coreInput p.1 i))
    (fun p => CanCore.Sources p.2 p.1.core ∧
      (p.1.core.pc.currState.inFault = true → f.core.mrModeRom = false))
    (fun p j hp hok => ⟨hp.1.step_sources hok, fault_operation hp.2⟩)
    ⟨.of_reset _ rfl, fun hq => absurd hq (by decide)⟩ is hrun
  obtain ⟨hs, hrom⟩ := hinv
  have hs' : CanCore.Sources _ (step f s i).core := hs.step_sources (c := f.core) hi
  refine ⟨?_, ?_, ?_⟩
  · intro hstart hu hb
    have hctr : (step f s i).core.ctr.ctrlCtrQ = 5 :=
      CanCore.flag_start (c := f.core) (i := coreInput s i) hstart.1 hstart.2
    have hstuck : CanCore.StuckFor 0 (step f s i).core := .inl ⟨hstart.1, by omega⟩
    -- the recessive bit is taken in some cycle, so that there is a first one
    have he : (step f s i).core.err.errFrmReq = false := by
      cases js with
      | nil => cases n <;> cases hb
      | cons j js => exact (hu.1 hstart.1).1
    have hlate := phase_late hs' hjs (fun _ => hu) he hstuck hb
    simpa [lateCount] using hlate
  · intro hpas hwait hb
    obtain ⟨he, hz, hctr⟩ :=
      CanCore.passive_end (c := f.core) (i := coreInput s i) hpas hwait
    have hctr : (step f s i).core.ctr.ctrlCtrQ = 6 := hctr
    have hstuck : CanCore.StuckFor 6 (step f s i).core :=
      .inr (.inl ⟨by rw [hwait]; rfl, Nat.le_refl 6, by omega⟩)
    have he' : (step f s i).core.err.errFrmReq = false :=
      CanCore.awaiting_noError hs hi he (.inr (.inr ⟨hpas, hz⟩))
    have hlate := phase_late hs' hjs (fun hlt => absurd hlt (by decide)) he' hstuck hb
    simpa [lateCount] using hlate
  · intro hlate
    have hfault : s.core.pc.currState.inFault = true := by
      have hlate : errDelimLate s.core.pc (pcInput f s i) = true := hlate
      simp only [errDelimLate, Bool.and_eq_true, Bool.or_eq_true, beq_iff_eq] at hlate
      rcases hlate.1.1.2 with hq | hq <;> rw [hq] <;> rfl
    have hmode : (fcInput f s i).mrModeRom = false := hrom hfault
    simp [FaultConfinement.incEight, hlate, hmode]

/-- Idle, then twenty dominant bits, the last fourteen of them since the error flag that
answers the first six, and a recessive one. -/
def stuckDominant : List Input :=
  (List.replicate 12 true ++ List.replicate 20 false ++ [true]).flatMap fun b => bitTime (busCycle b)

/-- Fourteen dominant bits from the first bit of an active error flag on, and eight
behind a passive one on the way into bus-off. -/
theorem stuck_dominant_fourteen :
    let s := (run (orderedStep classicSettings) orderedReset (stuckDominant.take 87)).1
    let p := (run (orderedStep highLimit) orderedReset (intoBusOff.take 241)).1
    lateEvents classicSettings (step classicSettings s (transmitted (busCycle false)))
        (stuckDominant.drop 88) = 1 ∧
      lateEvents highLimit (step highLimit p (offering (busCycle false)))
        (intoBusOff.drop 242 ++ frameBits [true]) = 1 := by
  constructor
  · exact (stuck_dominant_accounting classicSettings (stuckDominant.take 87)
      (transmitted (busCycle false)) (stuckDominant.drop 88) 14 (by decide +kernel)).1
      ⟨by decide +kernel, by decide +kernel⟩ (by decide +kernel) (by decide +kernel)
  · exact (stuck_dominant_accounting highLimit (intoBusOff.take 241)
      (offering (busCycle false)) (intoBusOff.drop 242 ++ frameBits [true]) 8
      (by decide +kernel)).2.1 (by decide +kernel) (by decide +kernel) (by decide +kernel)

end Node
