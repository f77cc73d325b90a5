import CtuCanFd.Core.DataWords
import CtuCanFd.RxBuffer.Refinement
import CtuCanFd.RxPath.Commands

/-!
# Data words of a frame

The RX buffer works out the word count of a frame from the DLC, format and RTR
bit received. Protocol control issues `store_data` by counting data bits, down
from a length taken from the frame transmitted or from the frame received. The
two agree in every frame, because a transmitter has received its own header.
-/

namespace RxPath

open SyncMachine
open ProtocolControl (dlcDecoder dlcDecoder_le dlcDecoder_zero dataLengthBitsC noDataField)

/-- What has been seen of a frame on its way to the RX buffer. -/
structure Tally where
  /-- `store_metadata` was issued one cycle ago: the frame format word is due. -/
  formatDue : Bool
  /-- RWCNT of the last frame format word. -/
  rwcnt : Nat
  /-- `store_data` commands since the last `store_metadata`. -/
  words : Nat

/-- Words with the command on the port in this cycle. -/
def Tally.total (t : Tally) (s : State) : Nat :=
  if s.core.pc.storeMetadata then 0
  else if s.core.pc.storeData then t.words + 1
  else t.words

def Tally.next (f : Settings) (t : Tally) (s : State) (i : Input) : Tally where
  formatDue := s.core.pc.storeMetadata
  rwcnt :=
    if t.formatDue then RxBuffer.rwcntOf (RxBuffer.formatWord (rxbInput f s i) false) else t.rwcnt
  words := t.total s

/-- Data bytes of the frame received. -/
def dataLength (r : RxFields) : Nat :=
  if r.recIsRtr then 0 else dlcDecoder r.recDlc r.recFrameType

/-- Words needed for this many bytes. -/
def dataWords (bytes : Nat) : Nat := (bytes + 3) / 4

/-- Protocol control puts the commands of the frame on its ports. -/
def stored (f : Settings) (s : State) : Bool :=
  CanCore.isReceiver s.core || f.core.mrSettingsIlbp

/-! ## The two computations -/

section Lengths

variable {c : ProtocolControl.Config} {f : Settings} {s : State} {i : Input}

theorem dataLength_le (r : RxFields) : dataLength r ≤ 64 := by
  rw [dataLength]
  split
  · omega
  · exact dlcDecoder_le _ _

/-- RWCNT as the RX buffer forms it counts the three words after the first one and
the data words. -/
theorem rwcnt_dataWords :
    RxBuffer.rwcntOf (RxBuffer.formatWord (rxbInput f s i) false) =
      dataWords (dataLength s.core.rxs.view) + 3 := by
  have hcount : ∀ (rtr ft : Bool) (dlc : BitVec 4),
      (if rtr || false then 3 else if !ft && dlc.getLsbD 3 then 5
        else BitVec.ofNat 5 (RxBuffer.rwcntCom dlc) : BitVec 5).toNat =
      dataWords (if rtr then 0 else dlcDecoder dlc ft) + 3 := by decide
  rw [RxBuffer.rwcntOf_formatWord]
  exact hcount _ _ _

/-- The bit counter of the data field starts at its length less one. -/
theorem dataLengthBits {n : Nat} (hn : n ≠ 0) (hle : n ≤ 64) :
    (n * 8 + 1023) % 1024 % 512 + 1 = 8 * n := by
  omega

end Lengths

/-! ## Counting through a frame -/

/-- From the DLC on the words counted are those of the length received. -/
structure Counting (f : Settings) (s : State) (t : Tally) : Prop where
  format : s.rxb.fsm = .storeFrameFormat → t.formatDue = true
  cleared : s.core.rxs.clearQ = true → s.core.pc.currState ≠ .dlc
  rwcnt : live s → s.core.err.errFrmReq = false → stored f s = true →
    s.core.pc.storeMetadata = false → t.formatDue = false →
    t.rwcnt = dataWords (dataLength s.core.rxs.view) + 3
  data : s.core.pc.currState = .data → s.core.err.errFrmReq = false → stored f s = true →
    s.core.ctr.ctrlCtrQ + s.core.ctr.complCtrQ + 1 = 8 * dataLength s.core.rxs.view ∧
      t.total s = s.core.ctr.complCtrQ / 32
  words : live s → s.core.pc.currState ≠ .data → s.core.err.errFrmReq = false →
    stored f s = true → t.total s = dataWords (dataLength s.core.rxs.view)
  valid : s.core.pc.recValid = true → t.words + 3 = t.rwcnt

namespace Counting

variable {g : Generics} {f : Settings} {s : State} {i : Input} {k : CanCore.Clock} {t : Tally}

theorem of_reset (g : Generics) (f : Settings) (mem : Nat → RxBuffer.Word)
    (dataOut : RxBuffer.Word) (t : Tally) : Counting f (reset g mem dataOut) t := by
  constructor <;>
    simp [reset, live, CanCore.reset, ProtocolControl.reset, RxBuffer.reset,
      ProtocolControl.PcState.inTail]

theorem format_step
    (h : s.core.err.errFrmReq = true ∨ s.core.pc.currState = .dlc ∨
      (s.core.pc.currState.inHeader = false ∧
        (step g f s i).core.pc.currState.inHeader = false)) :
    (step g f s i).core.rxs.view.recIsRtr = s.core.rxs.view.recIsRtr ∧
      (step g f s i).core.rxs.view.recFrameType = s.core.rxs.view.recFrameType := by
  obtain ⟨-, -, hrtr, hft⟩ := CanCore.view_identQuiet (c := f.core) (i := coreInput s i) h
  exact ⟨by simp only [step, RxFields.recIsRtr, hrtr, hft], hft⟩

/-- Along the tail of a frame its length does not change. -/
theorem length_step (hl : live s) (hl' : live (step g f s i)) :
    dataLength (step g f s i).core.rxs.view = dataLength s.core.rxs.view := by
  have hq := live_noHeader hl
  have hq' := live_noHeader hl'
  obtain ⟨hrtr, hft⟩ := format_step (g := g) (.inr (.inr ⟨hq, hq'⟩))
  have hdlc : (step g f s i).core.rxs.view.recDlc = s.core.rxs.view.recDlc :=
    CanCore.view_dlcQuiet (c := f.core) (i := coreInput s i) (live_noErr hl') hq hq'
  simp only [dataLength, hrtr, hft, hdlc]

theorem stored_step (hl' : live (step g f s i)) : stored f (step g f s i) = stored f s := by
  simp only [stored, live_isReceiver hl']

theorem metadata_enter (hl : ¬ live s) (hl' : live (step g f s i)) :
    (step g f s i).core.pc.storeMetadata = stored f s := by
  obtain ⟨hd, hz, ht⟩ := enter_live hl hl'
  simp [step, CanCore.step, ProtocolControl.step, ProtocolControl.out_storeMetadataD, stored,
    live_noErr hl', hd, hz, ht]

/-- The last DLC bit completes the length. -/
theorem length_dlc (h : Counting f s t) (hd : s.core.pc.currState = .dlc)
    (he : s.core.err.errFrmReq = false) (hz : s.core.ctr.ctrlCtrZero = true)
    (ht : CanCore.pcRxTrigger s.core = true) :
    dataLength (step g f s i).core.rxs.view =
      if s.core.rxs.view.recIsRtr then 0
      else dlcDecoder (s.core.rxs.view.recDlcD s.core.bds.dataOut) s.core.rxs.view.recFrameType := by
  have hc : s.core.rxs.clearQ = false := by
    by_contra hc
    exact h.cleared (by simpa using hc) hd
  have hdlc : (step g f s i).core.rxs.view.recDlc =
      s.core.rxs.view.recDlcD s.core.bds.dataOut := by
    simp [step, CanCore.step, RxShiftReg.step, RxShiftReg.view, hc, CanCore.pcOut_noErr he, hd,
      ProtocolControl.outState, ProtocolControl.outDlc, hz, ht]
  obtain ⟨hrtr, hft⟩ := format_step (g := g) (f := f) (i := i) (.inr (.inl hd))
  simp only [dataLength, hrtr, hft, hdlc]

/-- Protocol control finds a data field exactly if the length received is not zero,
and loads its counter with that length. -/
theorem setup_dlc (h : Counting f s t) (hf : CanCore.Following f.core k s.core)
    (ho : CanCore.OwnHeader f.core k s.core) (hok : CanCore.Bench k s.core (coreInput s i))
    (hena : f.core.mrSettingsEna = true) (hd : s.core.pc.currState = .dlc)
    (he : s.core.err.errFrmReq = false) (hz : s.core.ctr.ctrlCtrZero = true)
    (ht : CanCore.pcRxTrigger s.core = true)
    (he' : (step g f s i).core.err.errFrmReq = false) :
    (noDataField f.core (CanCore.pcInput f.core s.core (coreInput s i)) = true ↔
        dataLength (step g f s i).core.rxs.view = 0) ∧
      (dataLength (step g f s i).core.rxs.view ≠ 0 →
        dataLengthBitsC f.core (CanCore.pcInput f.core s.core (coreInput s i)) + 1 =
          8 * dataLength (step g f s i).core.rxs.view) := by
  have hlen := h.length_dlc (g := g) (i := i) hd he hz ht
  have hle := dataLength_le (step g f s i).core.rxs.view
  cases hx : CanCore.isTransmitter s.core
  · have hr : CanCore.isReceiver s.core = true := by
      simpa [hx] using hf.frame_role (by rw [hd]; rfl)
    have hzero := dlcDecoder_zero (s.core.rxs.view.recDlcD s.core.bds.dataOut)
      s.core.rxs.view.recFrameType
    refine ⟨?_, fun hne => ?_⟩
    · rw [hlen]
      cases hrtr : s.core.rxs.view.recIsRtr <;>
        simp [noDataField, ProtocolControl.noDataReceiver, hx, hr, CanCore.pcInput, hrtr, hzero]
    · rw [← dataLengthBits hne hle]
      rw [hlen] at hne ⊢
      cases hrtr : s.core.rxs.view.recIsRtr
      · simp [dataLengthBitsC, ProtocolControl.dataLengthC, hx, CanCore.pcInput,
          ProtocolControl.recDataLengthC]
      · simp [hrtr] at hne
  · -- the frame received is the frame transmitted, so both lengths are the same
    have hx' := CanCore.transmitter_dlc (c := f.core) hok hx hd he
    obtain ⟨hdlc, hft, hrtr⟩ := ho.dlc_end hf hok hena he hx hd ht hz he' hx'
    rw [hdlc, hft, hrtr] at hlen
    have hzero := dlcDecoder_zero (coreInput s i).tranMeta.tranDlc
      ((coreInput s i).tranMeta.frameTypeI f.core)
    have hr : CanCore.isReceiver s.core = false := by
      simp only [CanCore.isTransmitter, beq_iff_eq] at hx
      simp [CanCore.isReceiver, hx]
    have hno : noDataField f.core (CanCore.pcInput f.core s.core (coreInput s i)) =
        ((coreInput s i).tranMeta.tranDlc == 0 || ((coreInput s i).tranMeta.tranIsRtr &&
          !(coreInput s i).tranMeta.frameTypeI f.core)) := by
      simp [noDataField, ProtocolControl.noDataTransmitter, hx, hr, CanCore.pcInput,
        ProtocolControl.tranFrameTypeI, CanCore.TranMeta.frameTypeI]
    refine ⟨?_, fun hne => ?_⟩
    · rw [hlen, hno]
      split
      · rename_i hrem
        simp [hrem]
      · rename_i hrem
        rw [hzero]
        simp [hrem]
    · rw [← dataLengthBits hne hle]
      rw [hlen] at hne ⊢
      split
      · rename_i hno
        simp [hno] at hne
      · simp [dataLengthBitsC, ProtocolControl.dataLengthC, hx, CanCore.pcInput,
          ProtocolControl.tranDataLength, ProtocolControl.tranFrameTypeI, CanCore.TranMeta.frameTypeI]

theorem total_next (hd : s.core.pc.currState ≠ .dlc) :
    (t.next f s i).total (step g f s i) =
      if (step g f s i).core.pc.storeData then t.total s + 1 else t.total s := by
  have hm : (step g f s i).core.pc.storeMetadata = false := by
    by_contra hm
    exact hd (Ordered.metadata_dlc (by simpa using hm)).2.1
  simp [Tally.total, Tally.next, hm]

theorem storeData_other (hq : s.core.pc.currState ≠ .data) :
    (step g f s i).core.pc.storeData = false := by
  by_contra hd
  exact hq (CanCore.storeData_only (Bool.of_not_eq_false hd)).2

/-- A word is complete with the last data bit and with every 32nd one. -/
theorem storeData_data (he : s.core.err.errFrmReq = false) (hq : s.core.pc.currState = .data)
    (hst : stored f s = true) :
    (step g f s i).core.pc.storeData = (CanCore.pcRxTrigger s.core &&
      (s.core.ctr.ctrlCtrZero || decide (s.core.ctr.complCtrQ % 32 = 31))) := by
  have hcmd := CanCore.storeData_data (c := f.core) (i := coreInput s i) he hq
  have hst : CanCore.issues f.core s.core = true := hst
  rw [hst, Bool.true_and] at hcmd
  exact hcmd

/-- The frame format word is formed from the fields the frame keeps. -/
theorem next_rwcnt (h : Counting f s t) (hl' : live (step g f s i))
    (hst' : stored f (step g f s i) = true)
    (hm' : (step g f s i).core.pc.storeMetadata = false) (hf' : (t.next f s i).formatDue = false) :
    (t.next f s i).rwcnt = dataWords (dataLength (step g f s i).core.rxs.view) + 3 := by
  have he := live_noErr hl'
  have hl : live s := by
    by_contra hl
    rw [metadata_enter hl hl', ← stored_step hl', hst'] at hm'
    cases hm'
  rw [length_step hl hl', Tally.next]
  simp only
  split
  · exact rwcnt_dataWords
  · rename_i hdue
    exact h.rwcnt hl he ((stored_step hl').symm.trans hst') hf' (by simpa using hdue)

theorem data_live (hq : s.core.pc.currState = .data) : live s := .inl (by rw [hq]; rfl)

theorem next_data (h : Counting f s t) (hf : CanCore.Following f.core k s.core)
    (ho : CanCore.OwnHeader f.core k s.core) (hok : CanCore.Bench k s.core (coreInput s i))
    (hena : f.core.mrSettingsEna = true) (hq' : (step g f s i).core.pc.currState = .data)
    (he' : (step g f s i).core.err.errFrmReq = false) (hst' : stored f (step g f s i) = true) :
    (step g f s i).core.ctr.ctrlCtrQ + (step g f s i).core.ctr.complCtrQ + 1 =
        8 * dataLength (step g f s i).core.rxs.view ∧
      (t.next f s i).total (step g f s i) = (step g f s i).core.ctr.complCtrQ / 32 := by
  have hl' := data_live hq'
  have he := live_noErr hl'
  have hst := (stored_step hl').symm.trans hst'
  by_cases hl : live s
  · have hq : s.core.pc.currState = .data := by
      refine (ProtocolControl.enter_data hq').resolve_right fun hd => ?_
      have := live_noHeader hl
      rw [hd] at this
      cases this
    obtain ⟨hsum, htot⟩ := h.data hq he hst
    have hlen := length_step hl hl'
    have hle : dataLength s.core.rxs.view ≤ 64 := dataLength_le _
    have hstep := CanCore.data_step (c := f.core) (i := coreInput s i) he hq (by omega)
    have hcmd := storeData_data (g := g) (i := i) he hq hst
    rw [hlen, total_next (by simp [hq]), hcmd, htot]
    split at hstep
    · rename_i ht
      split at hstep
      · exact absurd hq' hstep
      · rename_i hz
        obtain ⟨-, hctr⟩ := hstep
        have hctr : (step g f s i).core.ctr = _ := hctr
        have hne : s.core.ctr.ctrlCtrQ ≠ 0 := by simpa [ControlCounter.ctrlCtrZero] using hz
        refine ⟨by simp only [hctr]; omega, ?_⟩
        simp only [hctr, ht, hz]
        by_cases h31 : s.core.ctr.complCtrQ % 32 = 31 <;> simp [h31] <;> omega
    · rename_i ht
      obtain ⟨-, hctr⟩ := hstep
      have hctr : (step g f s i).core.ctr = _ := hctr
      simp [hctr, ht, hsum]
  · obtain ⟨hd, hz, ht⟩ := enter_live hl hl'
    have hset := h.setup_dlc (g := g) hf ho hok hena hd he hz ht he'
    have hend := CanCore.dlc_end (c := f.core) (i := coreInput s i) he hd hz ht
    have hm : (step g f s i).core.pc.storeMetadata = true := (metadata_enter hl hl').trans hst
    split at hend
    · exact absurd hq' hend
    · rename_i hno
      obtain ⟨-, hctr⟩ := hend
      have hctr : (step g f s i).core.ctr = _ := hctr
      have hne : dataLength (step g f s i).core.rxs.view ≠ 0 := fun h0 => hno (hset.1.mpr h0)
      simp [hctr, Tally.total, hm, hset.2 hne]

theorem next_words (h : Counting f s t) (hf : CanCore.Following f.core k s.core)
    (ho : CanCore.OwnHeader f.core k s.core) (hok : CanCore.Bench k s.core (coreInput s i))
    (hena : f.core.mrSettingsEna = true) (hl' : live (step g f s i))
    (hq' : (step g f s i).core.pc.currState ≠ .data)
    (he' : (step g f s i).core.err.errFrmReq = false) (hst' : stored f (step g f s i) = true) :
    (t.next f s i).total (step g f s i) =
      dataWords (dataLength (step g f s i).core.rxs.view) := by
  have he := live_noErr hl'
  have hst := (stored_step hl').symm.trans hst'
  by_cases hl : live s
  · have hd : s.core.pc.currState ≠ .dlc := fun hd => by
      have := live_noHeader hl
      rw [hd] at this
      cases this
    rw [length_step hl hl', total_next hd]
    by_cases hq : s.core.pc.currState = .data
    · -- the last data bit completes the last word
      obtain ⟨hsum, htot⟩ := h.data hq he hst
      have hle := dataLength_le s.core.rxs.view
      have hstep := CanCore.data_step (c := f.core) (i := coreInput s i) he hq (by omega)
      rw [storeData_data he hq hst, htot, dataWords]
      split at hstep
      · rename_i ht
        split at hstep
        · rename_i hz
          have h0 : s.core.ctr.ctrlCtrQ = 0 := by simpa [ControlCounter.ctrlCtrZero] using hz
          simp [ht, hz]
          omega
        · exact absurd hstep.1 hq'
      · exact absurd hstep.1 hq'
    · simp only [storeData_other hq]
      exact h.words hl hq he hst
  · obtain ⟨hd, hz, ht⟩ := enter_live hl hl'
    have hset := h.setup_dlc (g := g) hf ho hok hena hd he hz ht he'
    have hend := CanCore.dlc_end (c := f.core) (i := coreInput s i) he hd hz ht
    have hm : (step g f s i).core.pc.storeMetadata = true := (metadata_enter hl hl').trans hst
    split at hend
    · rename_i hno
      simp [Tally.total, hm, hset.1.mp hno, dataWords]
    · exact absurd hend.1 hq'

theorem next_valid (h : Counting f s t) (hp : CanCore.Paced s.core k.since)
    (hv' : (step g f s i).core.pc.recValid = true) :
    (t.next f s i).words + 3 = (t.next f s i).rwcnt := by
  obtain ⟨he, hq, h1, -, ht, hst⟩ := Ordered.valid_sample hv'
  have hl : live s := .inr ⟨hq, by simp [ControlCounter.ctrlCtrZero, h1]⟩
  have hst : stored f s = true := hst
  have hm : s.core.pc.storeMetadata = false := by
    by_contra hm
    have := hp.metadata_sample (by simpa using hm)
    have := hp.pcRxTrigger_since ht
    omega
  have hw := h.words hl (by simp [hq]) he hst
  simp only [Tally.next]
  split
  · rw [hw, rwcnt_dataWords]
  · rename_i hdue
    rw [hw, h.rwcnt hl he hst hm (by simpa using hdue)]

theorem step_counting (h : Counting f s t) (hf : CanCore.Following f.core k s.core)
    (ho : CanCore.OwnHeader f.core k s.core) (hok : CanCore.Bench k s.core (coreInput s i))
    (hena : f.core.mrSettingsEna = true) : Counting f (step g f s i) (t.next f s i) where
  format hr := by
    have hm : storeMetadataF s = true := (enter_storeFrameFormat hr).2
    simp only [storeMetadataF, Bool.and_eq_true] at hm
    exact hm.1
  cleared hc hd := by
    rcases CanCore.clearQ_start hc with hs | hs <;> exact absurd (hs.symm.trans hd) (by decide)
  rwcnt hl' _ := h.next_rwcnt hl'
  data := h.next_data hf ho hok hena
  words := h.next_words hf ho hok hena
  valid := h.next_valid hf.paced

end Counting

/-! ## Every frame of a run -/

/-- The receive path with the clock of its environment and the tally of the frame. -/
def talliedStep (g : Generics) (f : Settings) :
    State × CanCore.Clock × Tally → Input → State × CanCore.Clock × Tally :=
  watched (step g f) fun kt s i => (kt.1.next s.core (coreInput s i), kt.2.next f s i)

def talliedReset (g : Generics) (mem : Nat → RxBuffer.Word) (dataOut : RxBuffer.Word)
    (sent : Bool) (t : Tally) : State × CanCore.Clock × Tally :=
  (reset g mem dataOut, ⟨4, sent, none⟩, t)

def Benched (p : State × CanCore.Clock × Tally) (i : Input) : Prop :=
  CanCore.Bench p.2.1 p.1.core (coreInput p.1 i)

instance (p : State × CanCore.Clock × Tally) (i : Input) : Decidable (Benched p i) :=
  inferInstanceAs (Decidable (CanCore.Bench _ _ _))

/-- In every run of an enabled node with test mode off, a frame that becomes valid
has had one `store_data` for each word that RWCNT counts beyond the first three,
and the RX buffer writes a frame format word only one cycle after `store_metadata`. -/
theorem word_count_agrees (g : Generics) (f : Settings) (mem : Nat → RxBuffer.Word)
    (dataOut : RxBuffer.Word) (sent : Bool) (t : Tally) (is : List Input)
    (hena : f.core.mrSettingsEna = true) (htst : f.core.mrModeTstm = false)
    (h : Admits (talliedStep g f) Benched (talliedReset g mem dataOut sent t) is) :
    let p := run (talliedStep g f) (talliedReset g mem dataOut sent t) is
    (p.1.core.pc.recValid = true → p.2.2.words = p.2.2.rwcnt - 3 ∧ 3 ≤ p.2.2.rwcnt) ∧
      (p.1.rxb.fsm = .storeFrameFormat → p.2.2.formatDue = true) := by
  have hinv := run_invariant (talliedStep g f) Benched
    (fun p => CanCore.Following f.core p.2.1 p.1.core ∧ CanCore.OwnHeader f.core p.2.1 p.1.core ∧
      Counting f p.1 p.2.2)
    (by
      rintro p i ⟨hf, ho, hc⟩ hok
      exact ⟨hf.step_following hok hena, ho.step_own hf hok hena htst,
        hc.step_counting hf ho hok hena⟩)
    ⟨.of_reset sent, .of_reset sent, .of_reset g f mem dataOut t⟩ is h
  refine ⟨fun hv => ?_, hinv.2.2.format⟩
  have := hinv.2.2.valid hv
  omega

/-- From the last DLC bit of the own frame to the end of frame bit that makes it
valid, with data bytes and CRC that need no stuff bit. -/
def ownRest : List Input :=
  (lastDlcBit ++
    ((List.replicate 39 [false, true]).flatten ++ [false, true, false, true] ++
      List.replicate 6 true).flatMap fun b => bitTime (busCycle false true b)).map fun i =>
    { i with core := { i.core with tranWord := 0x55555555#32, crc15 := 0b010101010101010#15 } }

/-- The own frame with eight data bytes looped back: two words after the first three. -/
theorem word_count_agrees_loopback :
    let p := run (talliedStep smallNode ⟨loopbackConfig, exactFilter false 0⟩)
      (talliedReset smallNode (fun _ => 0) 0 true ⟨false, 0, 0⟩)
      (ownHeader ++ ownRest.take (ownRest.length - 3))
    p.1.core.pc.recValid = true ∧ p.2.2.words = 2 ∧ p.2.2.words = p.2.2.rwcnt - 3 := by
  have hrun : Admits (talliedStep smallNode ⟨loopbackConfig, exactFilter false 0⟩) Benched
      (talliedReset smallNode (fun _ => 0) 0 true ⟨false, 0, 0⟩)
      (ownHeader ++ ownRest.take (ownRest.length - 3)) := by decide +kernel
  have hend : (fun p : State × CanCore.Clock × Tally =>
      p.1.core.pc.recValid = true ∧ p.2.2.words = 2)
      (run (talliedStep smallNode ⟨loopbackConfig, exactFilter false 0⟩)
        (talliedReset smallNode (fun _ => 0) 0 true ⟨false, 0, 0⟩)
        (ownHeader ++ ownRest.take (ownRest.length - 3))) := by decide +kernel
  exact ⟨hend.1, hend.2, ((word_count_agrees _ _ _ _ _ _ _ rfl rfl hrun).1 hend.1).1⟩

end RxPath
