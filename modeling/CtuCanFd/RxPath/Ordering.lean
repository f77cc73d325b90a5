import CtuCanFd.Core.CoreSteps
import CtuCanFd.RxPath.Model

/-!
# Commands on their way to the RX buffer

The invariant that ties the RX buffer FSM to protocol control. Its clock is the
distance to the last sample point: commands reach the buffer one cycle after the
sample point, sampled errors abort two cycles after it, and only the parity check
of a TXT buffer word raises an error anywhere else.
-/

namespace RxPath

open ProtocolControl (PcState)
open RxBuffer (RxBufState)

/-! ## Entering the states of the RX buffer FSM -/

section Fsm

variable {i : RxBuffer.Input} {st : RxBufState}

/-- States in which a frame has been started and not yet finished. -/
def storing : RxBufState → Bool
  | .storeFrameFormat | .storeIdentifier | .skipTsLow | .skipTsHigh | .storeData => true
  | _ => false

/-- Cycles left in the states that log an error frame. -/
def errorLeft : RxBufState → Nat
  | .storeErrFrameFormat => 4
  | .storeErrIdentifier => 3
  | .storeErrTsLow => 2
  | .storeErrTsHigh => 1
  | _ => 0

theorem enter_storeFrameFormat (h : st.nextState i = .storeFrameFormat) :
    st = .idle ∧ i.storeMetadataF = true := by
  cases st <;> simp [RxBufState.nextState] at h ⊢ <;> grind

theorem enter_storeIdentifier (h : st.nextState i = .storeIdentifier) :
    st = .storeFrameFormat ∧ i.recAbortF = false := by
  cases st <;> simp [RxBufState.nextState] at h ⊢ <;> grind

theorem enter_skipTsLow (h : st.nextState i = .skipTsLow) : st = .storeIdentifier := by
  cases st <;> simp [RxBufState.nextState] at h ⊢ <;> grind

theorem enter_skipTsHigh (h : st.nextState i = .skipTsHigh) : st = .skipTsLow := by
  cases st <;> simp [RxBufState.nextState] at h ⊢ <;> grind

theorem enter_storeEndTsLow (h : st.nextState i = .storeEndTsLow) :
    st = .storeData ∧ i.recValidF = true := by
  cases st <;> simp [RxBufState.nextState] at h ⊢ <;> grind

theorem enter_storeEndTsHigh (h : st.nextState i = .storeEndTsHigh) : st = .storeEndTsLow := by
  cases st <;> simp [RxBufState.nextState] at h ⊢ <;> grind

/-- A frame is started by `store_metadata` and stays in progress until it is
aborted or valid. -/
theorem enter_storing (h : storing (st.nextState i) = true) :
    (st = .idle ∧ i.storeMetadataF = true) ∨
      (storing st = true ∧
        (st = .storeFrameFormat ∨ st = .storeData → i.recAbortF = false) ∧
        (st = .storeData → i.recValidF = false)) := by
  cases st <;> simp [RxBufState.nextState] at h ⊢ <;> grind [storing]

theorem storing_next (h : storing st = true) (ha : i.recAbortF = false)
    (hv : i.recValidF = false) : storing (st.nextState i) = true := by
  cases st <;> simp [storing] at h <;> simp [RxBufState.nextState, ha, hv, storing]

theorem enter_error (h : errorLeft (st.nextState i) ≠ 0) :
    i.recAbortF = true ∨ errorLeft st = errorLeft (st.nextState i) + 1 := by
  cases st <;> simp [RxBufState.nextState] at h ⊢ <;> grind [errorLeft]

theorem idle_next (hm : i.storeMetadataF = false) (ha : i.recAbortF = false) :
    RxBufState.idle.nextState i = .idle := by
  simp [RxBufState.nextState, hm, ha]

end Fsm

/-! ## Assumptions of a cycle -/

/-- No word of the TXT buffer shows a parity mismatch in the three cycles from
`store_metadata` on. -/
def ParityClear (s : State) (i : Input) : Prop :=
  storeMetadataF s = true ∨ s.rxb.fsm = .storeFrameFormat ∨ s.rxb.fsm = .storeIdentifier →
    tranFrameParityError s i = false

instance (s : State) (i : Input) : Decidable (ParityClear s i) :=
  inferInstanceAs (Decidable (_ → _))

/-- The filters and the loopback setting let the commands of the frame pass. -/
def accepting (g : Generics) (f : Settings) (s : State) : Bool :=
  (CanCore.isReceiver s.core || f.core.mrSettingsIlbp) &&
    FrameFilters.identValidD g.filters f.filters s.core.rxs.view

/-- The frame in progress has been let through to the RX buffer. -/
def frameOpen (s : State) : Bool := storing s.rxb.fsm || storeMetadataF s

/-- Protocol control is between the DLC and the bit that makes the frame valid. -/
def live (s : State) : Prop :=
  s.core.pc.currState.inTail = true ∨
    (s.core.pc.currState = .eof ∧ s.core.ctr.ctrlCtrZero = false)

instance (s : State) : Decidable (live s) := inferInstanceAs (Decidable (_ ∨ _))

/-- Protocol control asks for `store_data` or `rec_valid` in this cycle. -/
def storeDue (f : Settings) (s : State) (i : Input) : Bool :=
  ((CanCore.pcOut f.core s.core (coreInput s i)).storeDataD ||
    (CanCore.pcOut f.core s.core (coreInput s i)).recValidD) && CanCore.pcRxTrigger s.core

/-- The decision on a command due in this cycle is the one the frame was started with. -/
structure Steady (g : Generics) (f : Settings) (s : State) (i : Input) : Prop where
  store : storeDue f s i = true → accepting g f s = frameOpen s
  abort : s.core.err.errFrmReq = true → frameOpen s = true →
    FrameFilters.identValidD g.filters f.filters s.core.rxs.view = true

/-! ## Words read from the TXT buffer -/

/-- No read is under way in protocol control or in the arbitrator. -/
structure ReadsDone (s : State) : Prop where
  ptr : s.core.pc.txtbPtrQ = 0
  clkEn : s.core.pc.txtbClkEnQ = false
  check : s.txtbClkEnQ = false

/-- After the data field the last read drains through three registers. The CRC is
entered at a sample point, so it is over before the next one. -/
structure Draining (s : State) (since : Nat) : Prop where
  ptr : s.core.pc.currState = .stuffCount ∨ s.core.pc.currState = .crc → 2 ≤ since →
    s.core.pc.txtbPtrQ = 0
  clkEn : s.core.pc.currState = .stuffCount ∨ s.core.pc.currState = .crc → 3 ≤ since →
    s.core.pc.txtbPtrQ = 0 ∧ s.core.pc.txtbClkEnQ = false
  crc : s.core.pc.currState = .stuffCount ∨ s.core.pc.currState = .crc →
    4 ≤ since ∨ since = 0 → ReadsDone s
  late : s.core.pc.currState.afterCrc = true → ReadsDone s

section Reads

variable {g : Generics} {f : Settings} {s : State} {i : Input} {since : Nat}

theorem txtbPtrQ_step (hd : s.core.pc.currState ≠ .dlc) (hw : s.core.pc.currState ≠ .data) :
    (step g f s i).core.pc.txtbPtrQ = 0 ∧
      (s.core.pc.txtbPtrQ = 0 → (step g f s i).core.pc.txtbClkEnQ = false) := by
  have ho := ProtocolControl.out_txtbPtrD (c := f.core)
    (i := CanCore.pcInput f.core s.core (coreInput s i)) hd hw
  simp only [step, CanCore.step, ProtocolControl.step, ProtocolControl.txtbClkEnD, ho]
  constructor
  · split
    · rfl
    · rename_i h
      simpa using h
  · intro h
    simp [h]

theorem ReadsDone.step_done (h : ReadsDone s) (hd : s.core.pc.currState ≠ .dlc)
    (hw : s.core.pc.currState ≠ .data) : ReadsDone (step g f s i) where
  ptr := (txtbPtrQ_step hd hw).1
  clkEn := (txtbPtrQ_step hd hw).2 h.ptr
  check := h.clkEn

theorem Draining.step_drain (hd : Draining s since) (hp : CanCore.Paced s.core since)
    (hok : WideSpacing since i.core) :
    Draining (step g f s i) (CanCore.sinceSample since i.core) := by
  have hcrc : ∀ st : PcState, st = .stuffCount ∨ st = .crc →
      st.afterError = false ∧ st ≠ .dlc ∧ st ≠ .data := by decide
  -- away from the sample point the state was the same one cycle before
  have hsame : since ≠ 0 →
      (step g f s i).core.pc.currState = .stuffCount ∨ (step g f s i).core.pc.currState = .crc →
      s.core.pc.currState = .stuffCount ∨ s.core.pc.currState = .crc := by
    intro h0 hs
    have := (hp.state_before h0 (hcrc _ hs).1).2
    rwa [← this]
  constructor
  · intro hs h2
    have h0 : since ≠ 0 := by
      simp only [CanCore.sinceSample] at h2
      split at h2 <;> omega
    exact (txtbPtrQ_step (hcrc _ (hsame h0 hs)).2.1 (hcrc _ (hsame h0 hs)).2.2).1
  · intro hs h3
    have h2 : 2 ≤ since := by
      simp only [CanCore.sinceSample] at h3
      split at h3 <;> omega
    have hq := hsame (by omega) hs
    obtain ⟨hptr, hclk⟩ := txtbPtrQ_step (g := g) (f := f) (i := i) (hcrc _ hq).2.1 (hcrc _ hq).2.2
    exact ⟨hptr, hclk (hd.ptr hq h2)⟩
  · intro hs h4
    have h3 : 3 ≤ since := by
      simp only [CanCore.sinceSample] at h4
      split at h4
      · rename_i ht
        have := hok ht
        omega
      · omega
    have hq := hsame (by omega) hs
    obtain ⟨hptr, hclk⟩ := txtbPtrQ_step (g := g) (f := f) (i := i) (hcrc _ hq).2.1 (hcrc _ hq).2.2
    exact ⟨hptr, hclk (hd.ptr hq (by omega)), (hd.clkEn hq h3).2⟩
  · intro hs
    have hlate : ∀ st : PcState, st.afterCrc → st.afterError = false ∧ st ≠ .dlc ∧ st ≠ .data := by
      decide
    have hedge : ∀ st t : PcState, t ∈ st.successors → t.afterCrc → st.afterCrc ∨ st = .crc := by
      decide +kernel
    have he : s.core.err.errFrmReq = false := by
      by_contra he
      have h' := ProtocolControl.step_err (c := f.core) (q := s.core.pc)
        (i := CanCore.pcInput f.core s.core (coreInput s i)) (by simpa using he)
      exact absurd (h'.symm.trans (hlate _ hs).1) (by decide)
    rcases ProtocolControl.step_flow (c := f.core) (q := s.core.pc)
      (i := CanCore.pcInput f.core s.core (coreInput s i)) he with hk | ⟨ht, hk⟩
    · have hq : s.core.pc.currState.afterCrc = true := (congrArg PcState.afterCrc hk).symm.trans hs
      exact (hd.late hq).step_done (hlate _ hq).2.1 (hlate _ hq).2.2
    · rcases hedge _ _ hk hs with hq | hq
      · exact (hd.late hq).step_done (hlate _ hq).2.1 (hlate _ hq).2.2
      · have h0 := hp.pcRxTrigger_since ht
        exact (hd.crc (.inr hq) (.inr h0)).step_done (by simp [hq]) (by simp [hq])

end Reads

/-! ## The invariant -/

/-- Commands and RX buffer FSM fit together, cycle by cycle after a sample point. -/
structure Ordered (s : State) (since : Nat) : Prop where
  paced : CanCore.Paced s.core since
  drain : Draining s since
  metadata_tail : s.core.pc.storeMetadata = true → s.core.pc.currState.inTail = true
  metadata_idle : storeMetadataF s = true → s.rxb.fsm = .idle
  data_storing : storeDataF s = true → s.rxb.fsm = .storeData
  valid_storing : recValidF s = true → s.rxb.fsm = .storeData
  valid_end : s.core.pc.recValid = true →
    s.core.err.errFrmReq = false ∧ s.core.pc.currState = .eof ∧ s.core.ctr.ctrlCtrZero = true
  abort_ctr : s.core.pc.recAbort = true → 5 ≤ s.core.ctr.ctrlCtrQ
  at_format : s.rxb.fsm = .storeFrameFormat → since = 2 ∧ s.core.err.errFrmReq = false
  at_ident : s.rxb.fsm = .storeIdentifier →
    since = 3 ∧ s.core.err.errFrmReq = false ∧ s.core.pc.recAbort = false
  at_skipLow : s.rxb.fsm = .skipTsLow →
    since = 4 ∧ s.core.err.errFrmReq = false ∧ s.core.pc.recAbort = false
  at_skipHigh : s.rxb.fsm = .skipTsHigh →
    (since = 5 ∨ since = 0) ∧ s.core.pc.recAbort = false
  at_endLow : s.rxb.fsm = .storeEndTsLow →
    since = 2 ∧ s.core.pc.currState = .eof ∧ s.core.err.errFrmReq = false ∧
      s.core.pc.recAbort = false
  at_endHigh : s.rxb.fsm = .storeEndTsHigh →
    s.core.pc.currState = .eof ∧ s.core.pc.recAbort = false
  at_error : errorLeft s.rxb.fsm ≠ 0 →
    s.core.pc.currState.afterError = true ∧ errorLeft s.rxb.fsm ≤ s.core.ctr.ctrlCtrQ
  open_state : storing s.rxb.fsm = true →
    s.core.pc.recAbort = true ∨ s.core.pc.currState.inTail = true ∨
      (s.core.pc.currState = .eof ∧
        (s.core.ctr.ctrlCtrZero = false ∨ s.core.err.errFrmReq = true ∨ recValidF s = true))
  open_abort : storing s.rxb.fsm = true → s.core.pc.recAbort = true → s.identValidQ = true

theorem ordered_reset (g : Generics) (mem : Nat → RxBuffer.Word) (dataOut : RxBuffer.Word) :
    Ordered (reset g mem dataOut) 4 := by
  constructor
  case paced => exact CanCore.Paced.of_reset
  case drain => constructor <;> simp [reset, CanCore.reset, ProtocolControl.reset, PcState.afterCrc]
  all_goals
    simp [reset, CanCore.reset, ProtocolControl.reset, RxBuffer.reset, storeMetadataF, storeDataF,
      recValidF, errorLeft, storing]

namespace Ordered

variable {g : Generics} {f : Settings} {s : State} {i : Input} {since : Nat}

theorem abort_quiet (h : Ordered s since) (hq : s.core.pc.currState.afterError = false) :
    recAbortF s = false := by
  by_contra ha
  have ha : s.core.pc.recAbort = true := by
    simp only [recAbortF, Bool.not_eq_false, Bool.and_eq_true] at ha
    exact ha.1
  rw [h.paced.abort_afterError ha] at hq
  cases hq

/-- The buffer has finished the last frame when the DLC of the next one is read. -/
theorem idle_of_dlc (h : Ordered s since) (hq : s.core.pc.currState = .dlc) :
    s.rxb.fsm = .idle := by
  have hopen : storing s.rxb.fsm = false := by
    by_contra ho
    rcases h.open_state (by simpa using ho) with ha | ht | he
    · simpa [hq, PcState.afterError] using h.paced.abort_afterError ha
    · simp [hq, PcState.inTail] at ht
    · simp [hq] at he
  have herr : errorLeft s.rxb.fsm = 0 := by
    by_contra he
    simpa [hq, PcState.afterError] using (h.at_error he).1
  have hlow : s.rxb.fsm ≠ .storeEndTsLow := fun hl => by
    simpa [hq] using (h.at_endLow hl).2.1
  have hhigh : s.rxb.fsm ≠ .storeEndTsHigh := fun hl => by
    simpa [hq] using (h.at_endHigh hl).1
  cases hf : s.rxb.fsm <;> simp_all [storing, errorLeft]

/-- At a sample point an open frame is past its header words. -/
theorem sampled_fsm (h : Ordered s since) (h0 : since = 0) (ho : storing s.rxb.fsm = true) :
    s.rxb.fsm = .skipTsHigh ∨ s.rxb.fsm = .storeData := by
  cases hf : s.rxb.fsm <;> simp [hf, storing] at ho
  · have := (h.at_format hf).1
    omega
  · have := (h.at_ident hf).1
    omega
  · have := (h.at_skipLow hf).1
    omega
  · exact .inl rfl
  · exact .inr rfl

/-- A command for the data part finds the buffer ready for it, provided the
decision is the one the frame was started with. -/
theorem command_storing (h : Ordered s since) (hst : Steady g f s i)
    (ht : CanCore.pcRxTrigger s.core = true) (hdue : storeDue f s i = true) (hl : live s)
    (hacc : accepting g f s = true) : (step g f s i).rxb.fsm = .storeData := by
  have h0 := h.paced.pcRxTrigger_since ht
  have hm : storeMetadataF s = false := by
    by_contra hm
    simp only [storeMetadataF, Bool.not_eq_false, Bool.and_eq_true] at hm
    have := h.paced.metadata_sample hm.1
    omega
  have hv : recValidF s = false := by
    by_contra hv
    simp only [recValidF, Bool.not_eq_false, Bool.and_eq_true] at hv
    have := h.paced.recValid_sample hv.1
    omega
  have hquiet : s.core.pc.currState.afterError = false := by
    have htail : ∀ st : PcState, st.inTail → st.afterError = false := by decide
    rcases hl with hl | ⟨hl, -⟩
    · exact htail _ hl
    · simp [hl, PcState.afterError]
  have ha := h.abort_quiet hquiet
  have hopen : storing s.rxb.fsm = true := by
    simpa [frameOpen, hm, hacc] using (hst.store hdue).symm
  have hnext : (step g f s i).rxb.fsm = s.rxb.fsm.nextState (rxbInput f s i) := rfl
  rcases h.sampled_fsm h0 hopen with hf | hf <;>
    simp [hnext, hf, RxBufState.nextState, rxbInput, ha, hv]

/-! ### One clock cycle -/

theorem since_next {n : Nat} (hok : WideSpacing since i.core) (hn : since = n)
    (h4 : n < 4) : CanCore.sinceSample since i.core = n + 1 := by
  have ht : i.core.rxTrigReq = false := by
    by_contra ht
    have := hok (by simpa using ht)
    omega
  simp [CanCore.sinceSample, ht, hn]

theorem metadata_dlc (hm : (step g f s i).core.pc.storeMetadata = true) :
    s.core.err.errFrmReq = false ∧ s.core.pc.currState = .dlc ∧
      s.core.ctr.ctrlCtrZero = true ∧ CanCore.pcRxTrigger s.core = true := by
  simp [step, CanCore.step, ProtocolControl.step, ProtocolControl.out_storeMetadataD] at hm
  grind

theorem next_metadata_tail (hm : (step g f s i).core.pc.storeMetadata = true) :
    (step g f s i).core.pc.currState.inTail = true := by
  obtain ⟨he, hq, hz, ht⟩ := metadata_dlc hm
  have hs := ProtocolControl.step_sample (c := f.core) (q := s.core.pc)
    (i := CanCore.pcInput f.core s.core (coreInput s i)) ht he (by simp [ProtocolControl.Stalled, hq])
  refine (congrArg PcState.inTail hs).trans ?_
  rw [ProtocolControl.nextState, hq]
  simp [he, hz]
  grind [PcState.inTail]

theorem next_metadata_idle (h : Ordered s since)
    (hm : (step g f s i).core.pc.storeMetadata = true) :
    (step g f s i).rxb.fsm = .idle := by
  obtain ⟨-, hq, -, ht⟩ := metadata_dlc hm
  have hnone : storeMetadataF s = false := by
    by_contra hn
    simp only [storeMetadataF, Bool.not_eq_false, Bool.and_eq_true] at hn
    have := h.paced.metadata_sample hn.1
    have := h.paced.pcRxTrigger_since ht
    omega
  have hnext : (step g f s i).rxb.fsm = s.rxb.fsm.nextState (rxbInput f s i) := rfl
  rw [hnext, h.idle_of_dlc hq]
  exact idle_next hnone (h.abort_quiet (by simp [hq, PcState.afterError]))

theorem next_data_storing (h : Ordered s since) (hst : Steady g f s i)
    (hd : storeDataF (step g f s i) = true) : (step g f s i).rxb.fsm = .storeData := by
  simp [storeDataF, step, CanCore.step, ProtocolControl.step] at hd
  obtain ⟨⟨⟨hcmd, ht⟩, hdata⟩, hident⟩ := hd
  obtain ⟨-, hq⟩ := ProtocolControl.out_storeDataD hdata
  refine h.command_storing hst ht ?_ (.inl (by simp [hq, PcState.inTail])) ?_
  · simp [storeDue, CanCore.pcOut, hdata, ht]
  · simpa [accepting, hident] using hcmd

/-- What a cycle that issues `rec_valid` looks like. -/
theorem valid_sample (hv : (step g f s i).core.pc.recValid = true) :
    s.core.err.errFrmReq = false ∧ s.core.pc.currState = .eof ∧
      s.core.ctr.ctrlCtrQ = 1 ∧ s.core.bds.dataOut = true ∧
      CanCore.pcRxTrigger s.core = true ∧
      (CanCore.isReceiver s.core || f.core.mrSettingsIlbp) = true := by
  simp [step, CanCore.step, ProtocolControl.step, ProtocolControl.out_recValidD] at hv
  obtain ⟨⟨hcmd, ht⟩, ⟨⟨he, hq⟩, hone⟩, hr⟩ := hv
  exact ⟨he, hq, by simpa [ControlCounter.ctrlCtrOne] using hone, hr, ht, by simpa using hcmd⟩

theorem valid_due (he : s.core.err.errFrmReq = false) (hq : s.core.pc.currState = .eof)
    (h1 : s.core.ctr.ctrlCtrQ = 1) (hr : s.core.bds.dataOut = true)
    (ht : CanCore.pcRxTrigger s.core = true) : storeDue f s i = true := by
  simp [storeDue, CanCore.pcOut, ProtocolControl.out_recValidD, he, hq, hr, ht,
    ControlCounter.ctrlCtrOne, h1]

theorem next_valid_storing (h : Ordered s since) (hst : Steady g f s i)
    (hv : recValidF (step g f s i) = true) : (step g f s i).rxb.fsm = .storeData := by
  simp only [recValidF, Bool.and_eq_true] at hv
  obtain ⟨he, hq, h1, hr, ht, hcmd⟩ := valid_sample hv.1
  refine h.command_storing hst ht (valid_due he hq h1 hr ht)
    (.inr ⟨hq, by simp [ControlCounter.ctrlCtrZero, h1]⟩) ?_
  have hident : FrameFilters.identValidD g.filters f.filters s.core.rxs.view = true := hv.2
  simp only [accepting, hcmd, hident, Bool.and_self]

theorem noParity_late (h : Ordered s since) (hq : s.core.pc.currState = .eof) :
    tranFrameParityError s i = false := by
  have hc := (h.drain.late (by simp [hq, PcState.afterCrc])).check
  simp [tranFrameParityError, hc]

theorem next_valid_end (h : Ordered s since) (hv : (step g f s i).core.pc.recValid = true) :
    (step g f s i).core.err.errFrmReq = false ∧ (step g f s i).core.pc.currState = .eof ∧
      (step g f s i).core.ctr.ctrlCtrZero = true := by
  obtain ⟨he, hq, h1, hr, ht, -⟩ := valid_sample hv
  have hz : s.core.ctr.ctrlCtrZero = false := by simp [ControlCounter.ctrlCtrZero, h1]
  refine ⟨?_, ?_, ?_⟩
  · refine (h.paced.errFrmReq_eof (c := f.core) (i := coreInput s i) he hq hz).trans ?_
    simp [hr, coreInput, h.noParity_late hq]
  · exact (ProtocolControl.step_counted (c := f.core) (.inr hq) hz he).trans hq
  · have hctr : (step g f s i).core.ctr.ctrlCtrQ = _ :=
      CanCore.ctr_eof (c := f.core) (i := coreInput s i) he hq (by omega) h.paced.ctr_lt
    simp [ControlCounter.ctrlCtrZero, hctr, ht, h1]

/-- A frame that is open after the cycle was started or open before it. -/
theorem open_before (h : Ordered s since) (ho : storing (step g f s i).rxb.fsm = true) :
    frameOpen s = true ∧
      ((storeMetadataF s = true ∧ s.core.pc.storeMetadata = true) ∨
        (storing s.rxb.fsm = true ∧ s.core.pc.recAbort = false ∧ recValidF s = false)) := by
  rcases enter_storing ho with ⟨-, hm⟩ | ⟨hs, hab, hva⟩
  · have hm : storeMetadataF s = true := hm
    refine ⟨by simp [frameOpen, hm], .inl ⟨hm, ?_⟩⟩
    simp only [storeMetadataF, Bool.and_eq_true] at hm
    exact hm.1
  · refine ⟨by simp [frameOpen, hs], .inr ⟨hs, ?_, ?_⟩⟩
    · have hgate : recAbortF s = false → s.core.pc.recAbort = false := by
        intro ha
        by_contra hn
        have hn : s.core.pc.recAbort = true := by simpa using hn
        simp [recAbortF, hn, h.open_abort hs hn] at ha
      cases hf : s.rxb.fsm <;> simp [hf, storing] at hs
      · exact hgate (hab (.inl hf))
      · exact (h.at_ident hf).2.2
      · exact (h.at_skipLow hf).2.2
      · exact (h.at_skipHigh hf).2
      · exact hgate (hab (.inr hf))
    · by_contra hv
      have hv : recValidF s = true := by simpa using hv
      have : recValidF s = false := hva (h.valid_storing hv)
      rw [hv] at this
      cases this

/-- The last bit before a frame becomes valid either issues `rec_valid` or is an error. -/
theorem next_eof (h : Ordered s since) (hst : Steady g f s i) (ho : frameOpen s = true)
    (he : s.core.err.errFrmReq = false) (hq : s.core.pc.currState = .eof)
    (hz : s.core.ctr.ctrlCtrZero = false) :
    (step g f s i).core.ctr.ctrlCtrZero = false ∨ (step g f s i).core.err.errFrmReq = true ∨
      recValidF (step g f s i) = true := by
  have hz' : s.core.ctr.ctrlCtrQ ≠ 0 := by simpa [ControlCounter.ctrlCtrZero] using hz
  have hctr : (step g f s i).core.ctr.ctrlCtrQ = _ :=
    CanCore.ctr_eof (c := f.core) (i := coreInput s i) he hq hz' h.paced.ctr_lt
  cases ht : CanCore.pcRxTrigger s.core
  · simp only [ht] at hctr
    exact .inl (by simpa [ControlCounter.ctrlCtrZero, hctr] using hz')
  · by_cases h1 : s.core.ctr.ctrlCtrQ = 1
    · cases hr : s.core.bds.dataOut
      · refine .inr (.inl ?_)
        refine (h.paced.errFrmReq_eof (c := f.core) (i := coreInput s i) he hq hz).trans ?_
        simp [hr, ht]
      · refine .inr (.inr ?_)
        have hacc := (hst.store (valid_due he hq h1 hr ht)).trans ho
        simp only [accepting, Bool.and_eq_true] at hacc
        obtain ⟨hcmd, hid⟩ := hacc
        have hv : (step g f s i).core.pc.recValid = true := by
          have hcmd' : CanCore.isReceiver s.core = true ∨ f.core.mrSettingsIlbp = true := by
            simpa using hcmd
          simp [step, CanCore.step, ProtocolControl.step, ProtocolControl.out_recValidD, he, hq, hr,
            ht, hcmd', ControlCounter.ctrlCtrOne, h1]
        have hid' : (step g f s i).identValidQ = true := hid
        simp [recValidF, hv, hid']
    · simp only [ht, if_true] at hctr
      refine .inl ?_
      simp [ControlCounter.ctrlCtrZero, hctr]
      omega

theorem next_open_state (h : Ordered s since) (hst : Steady g f s i)
    (ho : storing (step g f s i).rxb.fsm = true) :
    (step g f s i).core.pc.recAbort = true ∨
      (step g f s i).core.pc.currState.inTail = true ∨
      ((step g f s i).core.pc.currState = .eof ∧
        ((step g f s i).core.ctr.ctrlCtrZero = false ∨
          (step g f s i).core.err.errFrmReq = true ∨ recValidF (step g f s i) = true)) := by
  obtain ⟨hopen, hbefore⟩ := h.open_before ho
  cases he : s.core.err.errFrmReq
  · refine .inr ?_
    -- what protocol control does from the tail of the frame
    have htail : s.core.pc.currState.inTail = true →
        (step g f s i).core.pc.currState.inTail = true ∨
          ((step g f s i).core.pc.currState = .eof ∧
            (step g f s i).core.ctr.ctrlCtrZero = false) := by
      intro hq
      rcases ProtocolControl.step_tail (c := f.core) (i := CanCore.pcInput f.core s.core
        (coreInput s i)) hq he with hq' | ⟨hq, ht, hq'⟩
      · exact .inl hq'
      · have hc : (step g f s i).core.ctr.ctrlCtrQ = 6 :=
          CanCore.ctr_ackDelim (c := f.core) (i := coreInput s i) he hq ht
        exact .inr ⟨hq', by simp [ControlCounter.ctrlCtrZero, hc]⟩
    have hcase : s.core.pc.currState.inTail = true ∨
        (s.core.pc.currState = .eof ∧ s.core.ctr.ctrlCtrZero = false) := by
      rcases hbefore with ⟨-, hm⟩ | ⟨hs, ha, hv⟩
      · exact .inl (h.metadata_tail hm)
      · rcases h.open_state hs with ha' | hq | ⟨hq, hz | he' | hv'⟩
        · rw [ha] at ha'
          cases ha'
        · exact .inl hq
        · exact .inr ⟨hq, hz⟩
        · rw [he] at he'
          cases he'
        · rw [hv] at hv'
          cases hv'
    rcases hcase with hq | ⟨hq, hz⟩
    · exact (htail hq).imp_right fun hnext => ⟨hnext.1, .inl hnext.2⟩
    · refine .inr ⟨?_, h.next_eof hst hopen he hq hz⟩
      exact (ProtocolControl.step_counted (c := f.core) (.inr hq) hz he).trans hq
  · exact .inl he

theorem next_error (h : Ordered s since) (hl : errorLeft (step g f s i).rxb.fsm ≠ 0) :
    (step g f s i).core.pc.currState.afterError = true ∧
      errorLeft (step g f s i).rxb.fsm ≤ (step g f s i).core.ctr.ctrlCtrQ := by
  have h4 : ∀ st : RxBufState, errorLeft st ≤ 4 := by
    intro st
    cases st <;> decide
  cases he : s.core.err.errFrmReq
  · have hbefore : s.core.pc.currState.afterError = true ∧
        errorLeft (step g f s i).rxb.fsm + 1 ≤ s.core.ctr.ctrlCtrQ := by
      rcases enter_error hl with ha | hdown
      · have ha : recAbortF s = true := ha
        simp only [recAbortF, Bool.and_eq_true] at ha
        have := h.abort_ctr ha.1
        have := h4 (step g f s i).rxb.fsm
        exact ⟨h.paced.abort_afterError ha.1, by omega⟩
      · have hd : errorLeft s.rxb.fsm = errorLeft (step g f s i).rxb.fsm + 1 := hdown
        obtain ⟨hq, hc⟩ := h.at_error (by omega)
        exact ⟨hq, by omega⟩
    exact CanCore.afterError_step (h4 _) he hbefore.1 hbefore.2 h.paced.ctr_lt
  · have hc : 5 ≤ (step g f s i).core.ctr.ctrlCtrQ :=
      CanCore.ctr_err (c := f.core) (i := coreInput s i) he
    have := h4 (step g f s i).rxb.fsm
    exact ⟨ProtocolControl.step_err (c := f.core) he, by omega⟩

/-- Away from the sample point an error is a parity error. -/
theorem noError_next (h : Ordered s since) (h0 : since ≠ 0)
    (hpar : tranFrameParityError s i = false) :
    (step g f s i).core.err.errFrmReq = false :=
  (h.paced.errFrmReq_quiet (c := f.core) (i := coreInput s i) h0).trans hpar

theorem step_ordered (h : Ordered s since) (hok : WideSpacing since i.core)
    (hpar : ParityClear s i) (hst : Steady g f s i) :
    Ordered (step g f s i) (CanCore.sinceSample since i.core) where
  paced := h.paced.step_paced hok.spacing
  drain := h.drain.step_drain h.paced hok
  metadata_tail := next_metadata_tail
  metadata_idle hm := by
    simp only [storeMetadataF, Bool.and_eq_true] at hm
    exact h.next_metadata_idle hm.1
  data_storing := h.next_data_storing hst
  valid_storing := h.next_valid_storing hst
  valid_end := h.next_valid_end
  abort_ctr ha := CanCore.ctr_err (c := f.core) (i := coreInput s i) ha
  at_format hf := by
    have hm : storeMetadataF s = true := (enter_storeFrameFormat hf).2
    have h1 : since = 1 := by
      simp only [storeMetadataF, Bool.and_eq_true] at hm
      exact h.paced.metadata_sample hm.1
    exact ⟨since_next hok h1 (by decide), h.noError_next (by omega) (hpar (.inl hm))⟩
  at_ident hf := by
    have hb := (enter_storeIdentifier hf).1
    obtain ⟨h2, he⟩ := h.at_format hb
    exact ⟨since_next hok h2 (by decide), h.noError_next (by omega) (hpar (.inr (.inl hb))), he⟩
  at_skipLow hf := by
    have hb := enter_skipTsLow hf
    obtain ⟨h3, he, -⟩ := h.at_ident hb
    exact ⟨since_next hok h3 (by decide), h.noError_next (by omega) (hpar (.inr (.inr hb))), he⟩
  at_skipHigh hf := by
    obtain ⟨h4, he, -⟩ := h.at_skipLow (enter_skipTsHigh hf)
    refine ⟨?_, he⟩
    simp only [CanCore.sinceSample]
    split <;> omega
  at_endLow hf := by
    obtain ⟨hb, hv⟩ := enter_storeEndTsLow hf
    have hv : recValidF s = true := hv
    simp only [recValidF, Bool.and_eq_true] at hv
    obtain ⟨he, hq, -⟩ := h.valid_end hv.1
    have h1 := h.paced.recValid_sample hv.1
    have hs : (step g f s i).core.pc.currState = .eof :=
      (ProtocolControl.step_hold (c := f.core) (h.paced.noTrigger (by omega)) he).trans hq
    exact ⟨since_next hok h1 (by decide), hs, h.noError_next (by omega) (h.noParity_late hq), he⟩
  at_endHigh hf := by
    obtain ⟨h2, hq, he, -⟩ := h.at_endLow (enter_storeEndTsHigh hf)
    exact ⟨(ProtocolControl.step_hold (c := f.core) (h.paced.noTrigger (by omega)) he).trans hq, he⟩
  at_error := h.next_error
  open_state := h.next_open_state hst
  open_abort ho ha := hst.abort ha (h.open_before ho).1

end Ordered

end RxPath
