import CtuCanFd.Core.TransmitSteps
import CtuCanFd.TxPath.Steps

/-!
# Committed metadata and the words of the committed buffer

While a frame is offered to the core, its metadata are those of the words in the
RAM of the buffer offered. The buffer committed last stays offered while another
one is being read, so software must not set it ready again with other words.
-/

namespace TxPath

open SyncMachine TxArbitrator
open CanCore (TranMeta)
open ProtocolControl (Config)
open RxBuffer (Word)

/-- Metadata in the words of a buffer. -/
def frameMeta (mem : Nat → Word) : TranMeta where
  tranDlc := (mem frameFormatW).extractLsb' 0 4
  tranIsRtr := (mem frameFormatW).getLsbD 5
  tranIdentType := (mem frameFormatW).getLsbD 6
  tranFrameType := (mem frameFormatW).getLsbD 7
  tranBrs := (mem frameFormatW).getLsbD 9
  tranIdentifier := (mem identifierW).extractLsb' 0 29
  tranFrameTest := frameTestOf (mem frameTestW)

def transmissionTime (mem : Nat → Word) : BitVec 64 := mem timestampUW ++ mem timestampLW

/-- Time and time triggered mode of the last cycle. -/
structure Watch where
  now : BitVec 64
  tttm : Bool

def Watch.of (i : Input) : Watch := ⟨i.timestamp, i.mrModeTttm⟩

/-- In time triggered mode the time of the frame has come. -/
def Timely (w : Watch) (mem : Nat → Word) : Prop := w.tttm = true → transmissionTime mem < w.now

instance (w : Watch) (mem : Nat → Word) : Decidable (Timely w mem) :=
  inferInstanceAs (Decidable (_ → _))

/-- The metadata are those of the words, and the time of the frame has come. -/
def Agrees (w : Watch) (com : TranMeta) (mem : Nat → Word) : Prop :=
  com = frameMeta mem ∧ Timely w mem

instance (w : Watch) (com : TranMeta) (mem : Nat → Word) : Decidable (Agrees w com mem) :=
  inferInstanceAs (Decidable (_ ∧ _))

/-- The committed buffer. -/
def current (s : State) : TxtBuffer.State := s.bufs s.arb.currTxtbIndex

/-! ## Conditions on a cycle -/

/-- Software sets the offered buffer ready again only with the words it had and
writes no word of the buffer the core has locked; the RAM is neither tested nor
faulty; the time does not run back, and time triggered mode is not switched on for
a frame whose time has not been looked at. -/
structure Guarded (g : Generics) (c : Config) (p : State × Watch) (i : Input) : Prop where
  ready : p.1.arb.tranFrameValidCom = true → p.1.arb.fsm ≠ .locked →
    TxtBuffer.txcrValid (current p.1) (swInput c p.1 i p.1.arb.currTxtbIndex) = true →
    (current p.1).currState.transient = true ∨
      (i.txtbPortACs p.1.arb.currTxtbIndex = false ∧
        Agrees (.of i) p.1.arb.com (current p.1).ram.mem)
  write : p.1.arb.fsm = .locked ∨ (txtbHwCmd p.1).lock = true →
    TxtBuffer.txtbPortAWrite (current p.1) (swInput c p.1 i p.1.arb.currTxtbIndex) = false
  test : i.mrTstControlTmaena = false
  fault : ∀ k < g.count, i.ramFault k = none
  time : p.2.now ≤ i.timestamp
  mode : i.mrModeTttm = true → p.2.tttm = true ∨
    (p.1.arb.tranFrameValidCom = false ∧ (txtbHwCmd p.1).lock = false ∧
      p.1.arb.fsm ∈ [TxArbState.idle, .selLowTs, .selUppTs])

instance (g : Generics) (c : Config) (p : State × Watch) (i : Input) :
    Decidable (Guarded g c p i) :=
  decidable_of_iff
    ((p.1.arb.tranFrameValidCom = true → p.1.arb.fsm ≠ .locked →
        TxtBuffer.txcrValid (current p.1) (swInput c p.1 i p.1.arb.currTxtbIndex) = true →
        (current p.1).currState.transient = true ∨
          (i.txtbPortACs p.1.arb.currTxtbIndex = false ∧
            Agrees (.of i) p.1.arb.com (current p.1).ram.mem)) ∧
      (p.1.arb.fsm = .locked ∨ (txtbHwCmd p.1).lock = true →
        TxtBuffer.txtbPortAWrite (current p.1)
          (swInput c p.1 i p.1.arb.currTxtbIndex) = false) ∧
      i.mrTstControlTmaena = false ∧
      (∀ k < g.count, i.ramFault k = none) ∧
      p.2.now ≤ i.timestamp ∧
      (i.mrModeTttm = true → p.2.tttm = true ∨
        (p.1.arb.tranFrameValidCom = false ∧ (txtbHwCmd p.1).lock = false ∧
          p.1.arb.fsm ∈ [TxArbState.idle, .selLowTs, .selUppTs])))
    ⟨fun ⟨a, b, c, d, e, f⟩ => ⟨a, b, c, d, e, f⟩, fun ⟨a, b, c, d, e, f⟩ => ⟨a, b, c, d, e, f⟩⟩

/-! ## Invariant -/

/-- The arbitrator addresses word `n`, and has it unless it still waits. -/
def Addressed (a : TxArbitrator.State) (r : TxtBuffer.Ram) (n : Nat) : Prop :=
  a.txtbPointerMetaQ = n ∧ (a.fsmWaitStateQ = false → r.dataOut = r.mem n)

/-- What the selection has read of the RAM so far. -/
def Reading (w : Watch) (a : TxArbitrator.State) (r : TxtBuffer.Ram) : Prop :=
  match a.fsm with
  | .selLowTs => Addressed a r timestampLW
  | .selUppTs => Addressed a r timestampUW ∧ a.tsLowInternal = r.mem timestampLW
  | .selFtw => Addressed a r frameTestW ∧ Timely w r.mem
  | .selFfw => Addressed a r frameFormatW ∧ Timely w r.mem ∧
      a.dblBuf.tranFrameTest = frameTestOf (r.mem frameTestW)
  | .selIdw => Addressed a r identifierW ∧ Timely w r.mem ∧
      a.dblBuf.tranFrameTest = frameTestOf (r.mem frameTestW) ∧
      a.dblBuf = a.dblBuf.withFormat (r.mem frameFormatW)
  | _ => True

/-- Registers and words that stay keep what has been read. -/
theorem Reading.kept {w w' : Watch} {a a' : TxArbitrator.State} {r r' : TxtBuffer.Ram}
    (h : Reading w a r) (hf : a'.fsm = a.fsm) (hp : a'.txtbPointerMetaQ = a.txtbPointerMetaQ)
    (hl : a'.tsLowInternal = a.tsLowInternal) (hd : a'.dblBuf = a.dblBuf) (hm : r'.mem = r.mem)
    (hw : (outHold a.fsm).txtbMetaClkEn = true → r'.dataOut = r.mem a.txtbPointerMetaQ)
    (ht : a.fsm ∉ [TxArbState.idle, .selLowTs, .selUppTs] → Timely w r.mem → Timely w' r.mem) :
    Reading w' a' r' := by
  simp only [Reading, Addressed, hf, hp, hl, hd, hm] at h ⊢
  cases hst : a.fsm <;> rw [hst] at h hw ht <;> dsimp only at h ⊢
  case selLowTs => exact ⟨h.1, fun _ => h.1 ▸ hw rfl⟩
  case selUppTs => exact ⟨⟨h.1.1, fun _ => h.1.1 ▸ hw rfl⟩, h.2⟩
  case selFtw => exact ⟨⟨h.1.1, fun _ => h.1.1 ▸ hw rfl⟩, ht (by decide) h.2⟩
  case selFfw => exact ⟨⟨h.1.1, fun _ => h.1.1 ▸ hw rfl⟩, ht (by decide) h.2.1, h.2.2⟩
  case selIdw => exact ⟨⟨h.1.1, fun _ => h.1.1 ▸ hw rfl⟩, ht (by decide) h.2.1, h.2.2⟩

structure Coherence (g : Generics) (w : Watch) (s : State) : Prop where
  curr_lt : s.arb.currTxtbIndex < g.count
  valid : s.arb.tranFrameValidCom = true → (current s).currState.transient = true →
    Agrees w s.arb.com (current s).ram.mem
  locked : s.arb.fsm = .locked → Agrees w s.arb.com (current s).ram.mem
  pending : (txtbHwCmd s).lock = true → Agrees w s.arb.com (current s).ram.mem
  reading : Reading w s.arb (s.bufs s.arb.selectBufIndexReg).ram

namespace Coherence

variable {g : Generics} {c : Config} {w : Watch} {s : State} {i : Input}

theorem of_reset (g : Generics) (w : Watch) (mem : Nat → Nat → Word) (dataOut : Nat → Word) :
    Coherence g w (reset mem dataOut) where
  curr_lt := by
    have := g.two_le
    simp only [reset, TxArbitrator.reset]
    omega
  valid h := by cases h
  locked h := by cases h
  pending h := by cases h
  reading := trivial

/-! ### Words that stay -/

theorem mem_kept {k : Nat} (hok : Guarded g c (s, w) i) (hk : k < g.count)
    (hw : TxtBuffer.txtbPortAWrite (s.bufs k) (swInput c s i k) = false) :
    ((step g c s i).bufs k).ram.mem = (s.bufs k).ram.mem :=
  TxtBuffer.mem_kept (g := g.txtb) (i := txtbInput g c s i k) hw hok.test (hok.fault k hk)

theorem transient_kept {k : Nat} (hok : Guarded g c (s, w) i) (hk : k < g.count)
    (ht : (s.bufs k).currState.transient = true) :
    ((step g c s i).bufs k).ram.mem = (s.bufs k).ram.mem :=
  mem_kept hok hk (TxtBuffer.transient_noWrite ht)

theorem timely_next {mem : Nat → Word} (hok : Guarded g c (s, w) i)
    (hm : i.mrModeTttm = true → w.tttm = true) (h : Timely w mem) : Timely (.of i) mem :=
  fun ht => Nat.lt_of_lt_of_le (h (hm ht)) hok.time

theorem agrees_next {com : TranMeta} {mem : Nat → Word} (hok : Guarded g c (s, w) i)
    (hm : i.mrModeTttm = true → w.tttm = true) (h : Agrees w com mem) : Agrees (.of i) com mem :=
  ⟨h.1, timely_next hok hm h.2⟩

/-- The buffer selected is ready. -/
theorem selected_ready (ha : selectBufAvail g.count (arbInput g c s i) = true) :
    (s.bufs (selectBufIndex g.count (arbInput g c s i))).currState = .ready :=
  TxtBuffer.available_ready (selected_available ha)

/-- Without a commit the buffer offered stays the same. -/
theorem current_kept
    (hc : (fsmOut g.count s.arb (arbInput g c s i)).commitDblBufs = false) :
    (step g c s i).arb.com = s.arb.com ∧
      current (step g c s i) = (step g c s i).bufs s.arb.currTxtbIndex := by
  simp [current, step, TxArbitrator.step, hc]

/-- While the selected buffer is read its word is at the output of the RAM. -/
theorem selected_word (ha : selectBufAvail g.count (arbInput g c s i) = true)
    (hl : s.arb.fsm ≠ .locked) :
    txtbSelectedInput g.count s.arb (arbInput g c s i) =
      (s.bufs (selectBufIndex g.count (arbInput g c s i))).ram.dataOut := by
  have hm : txtbIndexMuxed g.count s.arb (arbInput g c s i) =
      selectBufIndex g.count (arbInput g c s i) := by
    simp [txtbIndexMuxed, txArbLocked, hl]
  have ht := TxtBuffer.ready_transient (selected_ready ha)
  rw [txtbSelectedInput, hm]
  exact if_pos ht

/-- A word addressed while the RAM is clocked is there in the next cycle. -/
theorem word_next {k : Nat} (hok : Guarded g c (s, w) i) (hl : s.arb.fsm ≠ .locked)
    (ho : (fsmOut g.count s.arb (arbInput g c s i)).txtbMetaClkEn = true) :
    ((step g c s i).bufs k).ram.dataOut = (s.bufs k).ram.mem s.arb.txtbPointerMetaQ := by
  have hc : (txtbInput g c s i k).txtbPortBClkEn = true := by
    simp [txtbInput, txtbPortBClkEn, txArbLocked, hl, ho]
  have ha : (txtbInput g c s i k).txtbPortBAddress = s.arb.txtbPointerMetaQ := by
    simp [txtbInput, txtbPortBAddress, txArbLocked, hl]
  exact ha ▸ TxtBuffer.dataOut_read (g := g.txtb) (d := k) (s := s.bufs k) hc hok.test

/-- The frame committed is the frame read. -/
theorem commit_agrees (h : Coherence g w s) (hok : Guarded g c (s, w) i)
    (hc : (fsmOut g.count s.arb (arbInput g c s i)).commitDblBufs = true) :
    Agrees (.of i) (step g c s i).arb.com (current (step g c s i)).ram.mem := by
  obtain ⟨hs, -, ha, hsame, hw⟩ := commit_cases hc
  have hl : s.arb.fsm ≠ .locked := by simp [hs]
  have hread := h.reading
  simp only [Reading, hs] at hread
  obtain ⟨⟨-, hword⟩, htime, htest, hfmt⟩ := hread
  have hcur : current (step g c s i) = (step g c s i).bufs s.arb.selectBufIndexReg := by
    simp [current, step, TxArbitrator.step, hc, hsame]
  have hlt : s.arb.selectBufIndexReg < g.count := hsame ▸ selectBufIndex_lt g.two_le
  have hkept := transient_kept hok hlt (TxtBuffer.ready_transient (hsame ▸ selected_ready ha))
  have hcom : (step g c s i).arb.com =
      s.arb.dblBuf.committed ((s.bufs s.arb.selectBufIndexReg).ram.mem identifierW) := by
    rw [← hword hw, ← hsame, ← selected_word ha hl]
    simp [step, TxArbitrator.step, hc]
  rw [hcom, hcur, hkept]
  refine ⟨?_, timely_next hok (fun ht => (hok.mode ht).resolve_right ?_) htime⟩
  · rw [hfmt]
    simp only [DblBuf.committed, DblBuf.withFormat, frameMeta, htest]
  · simp [hs]

/-! ### One clock cycle -/

theorem next_valid (h : Coherence g w s) (hok : Guarded g c (s, w) i)
    (hv : (step g c s i).arb.tranFrameValidCom = true)
    (ht : (current (step g c s i)).currState.transient = true) :
    Agrees (.of i) (step g c s i).arb.com (current (step g c s i)).ram.mem := by
  cases hc : (fsmOut g.count s.arb (arbInput g c s i)).commitDblBufs
  · obtain ⟨hcom, hcur⟩ := current_kept hc
    have hvc : s.arb.tranFrameValidCom = true := (valid_cases hv).resolve_left (by simp [hc])
    have hmode : i.mrModeTttm = true → w.tttm = true := fun hm =>
      (hok.mode hm).resolve_right (by simp [hvc])
    rw [hcom, hcur]
    rw [hcur] at ht
    cases htr : (current s).currState.transient
    · have hcr : TxtBuffer.txcrValid (current s) (swInput c s i s.arb.currTxtbIndex) = true :=
        TxtBuffer.enter_transient (g := g.txtb) (i := txtbInput g c s i s.arb.currTxtbIndex) htr ht
      by_cases hl : s.arb.fsm = .locked
      · rw [mem_kept hok h.curr_lt (hok.write (.inl hl))]
        exact agrees_next hok hmode (h.locked hl)
      · rcases hok.ready hvc hl hcr with hx | ⟨hcs, hagree⟩
        · exact absurd (htr.symm.trans hx) (by decide)
        · rw [mem_kept hok h.curr_lt (by simp [TxtBuffer.txtbPortAWrite, swInput, hcs])]
          exact hagree
    · rw [transient_kept hok h.curr_lt htr]
      exact agrees_next hok hmode (h.valid hvc htr)
  · exact h.commit_agrees hok hc

theorem locked_next (h : Coherence g w s) (hok : Guarded g c (s, w) i) (hl : s.arb.fsm = .locked)
    (hc : (fsmOut g.count s.arb (arbInput g c s i)).commitDblBufs = false) :
    Agrees (.of i) (step g c s i).arb.com (current (step g c s i)).ram.mem := by
  obtain ⟨hcom, hcur⟩ := current_kept hc
  rw [hcom, hcur, mem_kept hok h.curr_lt (hok.write (.inl hl))]
  exact agrees_next hok (fun hm => (hok.mode hm).resolve_right (by simp [hl])) (h.locked hl)

theorem next_locked (h : Coherence g w s) (hok : Guarded g c (s, w) i)
    (hl' : (step g c s i).arb.fsm = .locked) :
    Agrees (.of i) (step g c s i).arb.com (current (step g c s i)).ram.mem := by
  obtain ⟨hl | hlock, hc⟩ := enter_locked hl'
  · exact h.locked_next hok hl hc
  · obtain ⟨hcom, hcur⟩ := current_kept hc
    rw [hcom, hcur, mem_kept hok h.curr_lt (hok.write (.inr hlock))]
    refine agrees_next hok (fun hm => (hok.mode hm).resolve_right ?_) (h.pending hlock)
    have hlock : (txtbHwCmd s).lock = true := hlock
    simp [hlock]

/-- The core locks a frame that is offered. -/
theorem next_pending (h : Coherence g w s) (hok : Guarded g c (s, w) i)
    (hp : (txtbHwCmd (step g c s i)).lock = true) :
    Agrees (.of i) (step g c s i).arb.com (current (step g c s i)).ram.mem := by
  cases hc : (fsmOut g.count s.arb (arbInput g c s i)).commitDblBufs
  · have hvalid := lock_offered hp
    simp only [tranFrameValid, validatedBuffer, Bool.or_eq_true, Bool.and_eq_true] at hvalid
    rcases hvalid with ⟨ha, hvc⟩ | hl
    · obtain ⟨hcom, hcur⟩ := current_kept hc
      have ht := TxtBuffer.ready_transient (TxtBuffer.available_ready ha)
      rw [hcom, hcur, transient_kept hok h.curr_lt ht]
      exact agrees_next hok (fun hm => (hok.mode hm).resolve_right (by simp [hvc])) (h.valid hvc ht)
    · exact h.locked_next hok (by simpa [txArbLocked] using hl) hc
  · exact h.commit_agrees hok hc

theorem reading_start (hf : (step g c s i).arb.fsm = .selLowTs)
    (hp : (fsmOut g.count s.arb (arbInput g c s i)).loadTsLwAddr = true)
    (hw : (fsmOut g.count s.arb (arbInput g c s i)).fsmWaitStateD = true) :
    Reading (.of i) (step g c s i).arb
      ((step g c s i).bufs (step g c s i).arb.selectBufIndexReg).ram := by
  simp only [Reading, hf]
  refine ⟨if_pos hp, fun h => ?_⟩
  exact absurd (hw.symm.trans h) (by decide)

/-- The buffer the selection goes on with: its words stay, and the word addressed is
there in the next cycle. -/
theorem same_buffer (hok : Guarded g c (s, w) i)
    (ha : selectBufAvail g.count (arbInput g c s i) = true)
    (hsame : selectBufIndex g.count (arbInput g c s i) = s.arb.selectBufIndexReg) :
    ((step g c s i).bufs (step g c s i).arb.selectBufIndexReg).ram.mem =
      (s.bufs s.arb.selectBufIndexReg).ram.mem := by
  have hreg : (step g c s i).arb.selectBufIndexReg = s.arb.selectBufIndexReg := hsame
  rw [hreg]
  exact transient_kept hok (hsame ▸ selectBufIndex_lt g.two_le)
    (TxtBuffer.ready_transient (hsame ▸ selected_ready ha))

theorem reading_kept (h : Coherence g w s) (hok : Guarded g c (s, w) i)
    (hl : s.arb.fsm ≠ .locked)
    (ha : selectBufAvail g.count (arbInput g c s i) = true)
    (hsame : selectBufIndex g.count (arbInput g c s i) = s.arb.selectBufIndexReg)
    (hf : (step g c s i).arb.fsm = s.arb.fsm)
    {v : Bool} (ho : fsmOut g.count s.arb (arbInput g c s i) =
      { outHold s.arb.fsm with txArbParityCheckValid := v }) :
    Reading (.of i) (step g c s i).arb
      ((step g c s i).bufs (step g c s i).arb.selectBufIndexReg).ram := by
  have hmem := same_buffer hok ha hsame
  have hreg : (step g c s i).arb.selectBufIndexReg = s.arb.selectBufIndexReg := hsame
  have hhold : (outHold s.arb.fsm).loadTsLwAddr = false ∧
      (outHold s.arb.fsm).loadTsUwAddr = false ∧ (outHold s.arb.fsm).loadFfmtWAddr = false ∧
      (outHold s.arb.fsm).loadIdentWAddr = false ∧
      (outHold s.arb.fsm).loadFrameTestWAddr = false ∧
      (outHold s.arb.fsm).storeTsLW = false ∧ (outHold s.arb.fsm).bufferMdW = false ∧
      (outHold s.arb.fsm).bufferFrameTestW = false := by
    cases s.arb.fsm <;> decide
  refine h.reading.kept hf ?_ ?_ ?_ hmem (fun hc => ?_) fun hs => ?_
  · simp [step, TxArbitrator.step, nextPointerMeta, ho, hhold]
  · simp [step, TxArbitrator.step, ho, hhold]
  · simp [step, TxArbitrator.step, nextDblBuf, ho, hhold]
  · rw [hreg]
    exact word_next hok hl (by rw [ho]; exact hc)
  · exact timely_next hok fun hm => (hok.mode hm).resolve_right fun hx => hs hx.2.2

theorem reading_read (h : Coherence g w s) (hok : Guarded g c (s, w) i)
    (hsel : s.arb.fsm.selecting = true)
    (ha : selectBufAvail g.count (arbInput g c s i) = true)
    (hsame : selectBufIndex g.count (arbInput g c s i) = s.arb.selectBufIndexReg)
    (hwait : s.arb.fsmWaitStateQ = false)
    (hf : (step g c s i).arb.fsm =
      readNext (fsmInput g.count s.arb (arbInput g c s i)) s.arb.fsm)
    (ho : fsmOut g.count s.arb (arbInput g c s i) =
      outRead (fsmInput g.count s.arb (arbInput g c s i)) s.arb.fsm) :
    Reading (.of i) (step g c s i).arb
      ((step g c s i).bufs (step g c s i).arb.selectBufIndexReg).ram := by
  have hread := h.reading
  have hmem := same_buffer hok ha hsame
  have hl : s.arb.fsm ≠ .locked := fun hl => by rw [hl] at hsel; cases hsel
  have hword := selected_word ha hl
  rw [hsame] at hword
  have htime : s.arb.fsm ∉ [TxArbState.idle, .selLowTs, .selUppTs] →
      Timely w (s.bufs s.arb.selectBufIndexReg).ram.mem →
      Timely (.of i) (s.bufs s.arb.selectBufIndexReg).ram.mem := fun hs =>
    timely_next hok fun hm => (hok.mode hm).resolve_right fun hx => hs hx.2.2
  have hnew : ∀ n, nextPointerMeta (fsmOut g.count s.arb (arbInput g c s i)) s.arb = n →
      (fsmOut g.count s.arb (arbInput g c s i)).fsmWaitStateD = true →
      Addressed (step g c s i).arb
        ((step g c s i).bufs (step g c s i).arb.selectBufIndexReg).ram n := fun n hp hw =>
    ⟨hp, fun h0 => absurd (hw.symm.trans h0) (by decide)⟩
  cases hst : s.arb.fsm <;> rw [hst] at hf ho hsel htime <;> simp only [Reading, hst] at hread
  case idle | locked => cases hsel
  case selLowTs =>
    have hlow : (step g c s i).arb.tsLowInternal =
        txtbSelectedInput g.count s.arb (arbInput g c s i) := if_pos (by rw [ho]; rfl)
    simp only [Reading, hf, readNext]
    exact ⟨hnew _ (by rw [ho]; rfl) (by rw [ho]; rfl), by rw [hlow, hword, hmem, hread.2 hwait]⟩
  case selUppTs =>
    have hv : (fsmInput g.count s.arb (arbInput g c s i)).timestampValid =
        timestampValid g.count s.arb (arbInput g c s i) := rfl
    cases hts : timestampValid g.count s.arb (arbInput g c s i)
    · refine h.reading_kept hok hl ha hsame (v := true) ?_ ?_
      · simp only [hf, readNext, hv, hts, hst]
        rfl
      · simp only [ho, outRead, hv, hts, hst]
        rfl
    · have htimely : Timely (.of i) (s.bufs s.arb.selectBufIndexReg).ram.mem := by
        intro hm
        have hm : (arbInput g c s i).mrModeTttm = true := hm
        simp only [timestampValid, hm, txtbTimestamp, hword, hread.1.2 hwait, hread.2,
          Bool.not_true, Bool.false_or, decide_eq_true_eq] at hts
        exact hts
      simp only [Reading, hf, readNext, hv, hts, if_true]
      exact ⟨hnew _ (by rw [ho, outRead, hv, hts]; rfl) (by rw [ho, outRead, hv, hts]), by rwa [hmem]⟩
  case selFtw =>
    have hdbl : (step g c s i).arb.dblBuf.tranFrameTest =
        frameTestOf (txtbSelectedInput g.count s.arb (arbInput g c s i)) := by
      simp [step, TxArbitrator.step, nextDblBuf, ho, outRead]
    simp only [Reading, hf, readNext]
    exact ⟨hnew _ (by rw [ho]; rfl) (by rw [ho]; rfl), by rw [hmem]; exact htime (by decide) hread.2,
      by rw [hdbl, hword, hmem, hread.1.2 hwait]⟩
  case selFfw =>
    have hdbl : (step g c s i).arb.dblBuf =
        s.arb.dblBuf.withFormat (txtbSelectedInput g.count s.arb (arbInput g c s i)) := by
      simp [step, TxArbitrator.step, nextDblBuf, ho, outRead]
    simp only [Reading, hf, readNext]
    rw [hmem, hdbl, hword, hread.1.2 hwait]
    exact ⟨hnew _ (by rw [ho]; rfl) (by rw [ho]; rfl), htime (by decide) hread.2.1, hread.2.2, rfl⟩
  case selIdw => simp only [Reading, hf, readNext]
  case validated => simp only [Reading, hf, readNext]

theorem next_reading (h : Coherence g w s) (hok : Guarded g c (s, w) i) :
    Reading (.of i) (step g c s i).arb
      ((step g c s i).bufs (step g c s i).arb.selectBufIndexReg).ram := by
  have hcyc := cycle_cases (fsmInput g.count s.arb (arbInput g c s i)) s.arb.fsm
  have hfsm : (step g c s i).arb.fsm =
    nextState (fsmInput g.count s.arb (arbInput g c s i)) s.arb.fsm := rfl
  have hsame : (fsmInput g.count s.arb (arbInput g c s i)).selectIndexChanged = false →
      selectBufIndex g.count (arbInput g c s i) = s.arb.selectBufIndexReg := fun hc => by
    simpa [fsmInput, selectIndexChanged] using hc
  generalize nextState (fsmInput g.count s.arb (arbInput g c s i)) s.arb.fsm = st' at hcyc hfsm
  generalize ho : out (fsmInput g.count s.arb (arbInput g c s i)) s.arb.fsm = o at hcyc
  generalize hst : s.arb.fsm = st at hcyc
  cases hcyc
  case start | restart => exact reading_start hfsm (by rw [fsmOut, ho]) (by rw [fsmOut, ho])
  case wait _ ha hc hw hsel =>
    subst hst
    refine h.reading_kept hok (fun hl => ?_) ha (hsame hc) hfsm (v := false) ?_
    · rw [hl] at hsel
      cases hsel
    · rw [fsmOut, ho]
      cases s.arb.fsm <;> rfl
  case read _ ha hc hw hsel _ =>
    subst hst
    exact h.reading_read hok hsel ha (hsame hc) hw hfsm (by rw [fsmOut, ho])
  all_goals simp only [Reading, hfsm]

theorem step_coherence (h : Coherence g w s) (hok : Guarded g c (s, w) i) :
    Coherence g (.of i) (step g c s i) where
  curr_lt := by
    show (if _ then _ else _) < _
    split
    · exact selectBufIndex_lt g.two_le
    · exact h.curr_lt
  valid := h.next_valid hok
  locked := h.next_locked hok
  pending := h.next_pending hok
  reading := h.next_reading hok

end Coherence

/-! ## Every run -/

def watchedStep (g : Generics) (c : Config) : State × Watch → Input → State × Watch :=
  watched (step g c) fun _ _ i => .of i

/-- In every run under the conditions, a frame offered to the core has the metadata
of the words in the committed buffer, and in time triggered mode the timestamp there
has passed. -/
theorem offered_metadata_coherent (g : Generics) (c : Config) (mem : Nat → Nat → Word)
    (dataOut : Nat → Word) (w : Watch) (is : List Input) (i : Input)
    (h : Admits (watchedStep g c) (Guarded g c) (reset mem dataOut, w) is)
    (hi : Guarded g c (run (watchedStep g c) (reset mem dataOut, w) is) i) :
    let s := (run (watchedStep g c) (reset mem dataOut, w) is).1
    tranFrameValid s.arb (arbInput g c s i) = true →
      s.arb.com = frameMeta (current s).ram.mem ∧
        (i.mrModeTttm = true → transmissionTime (current s).ram.mem < i.timestamp) := by
  have hinv := run_invariant (watchedStep g c) (Guarded g c) (fun p => Coherence g p.2 p.1)
    (fun p i h hok => h.step_coherence hok) (.of_reset g w mem dataOut) is h
  generalize run (watchedStep g c) (reset mem dataOut, w) is = p at hinv hi
  intro s hv
  have hagree : Agrees (.of i) s.arb.com (current s).ram.mem := by
    simp only [tranFrameValid, validatedBuffer, Bool.or_eq_true, Bool.and_eq_true] at hv
    rcases hv with ⟨ha, hvc⟩ | hl
    · have ht := TxtBuffer.ready_transient (TxtBuffer.available_ready ha)
      exact Coherence.agrees_next hi (fun hm => (hi.mode hm).resolve_right fun hx =>
        absurd (hvc.symm.trans hx.1) (by decide)) (hinv.valid hvc ht)
    · have hl : p.1.arb.fsm = .locked := by simpa [txArbLocked] using hl
      exact Coherence.agrees_next hi (fun hm => (hi.mode hm).resolve_right fun hx => by
        have := hx.2.2
        rw [hl] at this
        exact absurd this (by decide)) (hinv.locked hl)
  exact hagree

/-! ### Two buffers -/

def twoBuffers : Generics := ⟨2, by decide, by decide, ⟨.fpga, false⟩⟩

def nominalConfig : Config where
  mrSettingsEna := true
  mrSettingsIlbp := false
  mrSettingsPex := false
  mrSettingsNisofd := false
  mrSettingsRtrle := false
  mrModeRom := false
  mrModeBmm := false
  mrModeFde := true
  mrModeAcf := false
  mrModeSam := false
  mrModeStm := false
  mrModeTstm := false
  mrSspCfgSspSrc := .noSsp

/-- A cycle without a bit on the bus; buffer 1 has the higher priority. -/
def quietCycle : Input where
  core :=
    { rxTrigReq := false
      txTrigger := false
      rxDataWbs := true
      sampleSec := false
      dataTxDelayed := true
      syncEdge := false
      tranFrameValid := false
      tranMeta := TxArbitrator.reset.com
      tranWord := 0
      tranFrameParityError := false
      isErrActive := true
      isErrPassive := false
      isBusOff := false
      retrLimitReached := false
      reintegCtrExpired := false
      mrCommandErcrst := false
      crcMatchC := true
      crc15 := 0
      crc17 := 0
      crc21 := 0 }
  mrSettingsRtrle := false
  mrSettingsTbfbo := true
  mrSettingsPchke := false
  mrModeTttm := true
  mrModeTxbbm := false
  mrTxPriority k := BitVec.ofNat 3 k
  mrTxCommandTxce := false
  mrTxCommandTxcr := false
  mrTxCommandTxca := false
  mrTxCommandTxbi _ := false
  txtbPortACs _ := false
  txtbPortAAddress := 0
  txtbPortADataIn := 0
  txtbPortABe := 0b1111#4
  mrTstControlTmaena := false
  mrTstControlTwrstb := false
  mrTstDestTstAddr := 0
  mrTstDestTstMtgt := 0
  mrTstWdataTstWdata := 0
  timestamp := 5
  ramFault _ := none

def writeWord (k : Nat) (addr : BitVec 5) (w : Word) : Input :=
  { quietCycle with
    txtbPortACs := (· == k)
    txtbPortAAddress := addr
    txtbPortADataIn := w }

/-- The strobe of a command acts in the cycle after it. -/
def setReady (k : Nat) : List Input :=
  [{ quietCycle with mrTxCommandTxcr := true, mrTxCommandTxbi := (· == k) },
    { quietCycle with mrTxCommandTxbi := (· == k) }]

def setAbort (k : Nat) : List Input :=
  [{ quietCycle with mrTxCommandTxca := true, mrTxCommandTxbi := (· == k) },
    { quietCycle with mrTxCommandTxbi := (· == k) }]

/-- Buffer 0 gets eight data bytes and is committed. -/
def offerZero : List Input :=
  writeWord 0 0 0x8 :: setReady 0 ++ List.replicate 12 quietCycle

theorem offered_metadata_coherent_zero :
    let s := (run (watchedStep twoBuffers nominalConfig)
      (reset (fun _ _ => 0) (fun _ => 0), ⟨0, true⟩) offerZero).1
    tranFrameValid s.arb (arbInput twoBuffers nominalConfig s quietCycle) = true ∧
      s.arb.com.tranDlc = 8 ∧ s.arb.com = frameMeta (current s).ram.mem := by
  have hrun : Admits (watchedStep twoBuffers nominalConfig) (Guarded twoBuffers nominalConfig)
      (reset (fun _ _ => 0) (fun _ => 0), ⟨0, true⟩) offerZero := by
    rw [watchedStep, step_eq_tabled]
    decide +kernel
  have hnext : Guarded twoBuffers nominalConfig (run (watchedStep twoBuffers nominalConfig)
      (reset (fun _ _ => 0) (fun _ => 0), ⟨0, true⟩) offerZero) quietCycle := by
    rw [watchedStep, step_eq_tabled]
    decide +kernel
  have hend : (fun s : State => tranFrameValid s.arb
      (arbInput twoBuffers nominalConfig s quietCycle) = true ∧ s.arb.com.tranDlc = 8)
      (run (watchedStep twoBuffers nominalConfig)
        (reset (fun _ _ => 0) (fun _ => 0), ⟨0, true⟩) offerZero).1 := by
    rw [watchedStep, step_eq_tabled]
    decide +kernel
  exact ⟨hend.1, hend.2, (offered_metadata_coherent _ _ _ _ _ _ _ hrun hnext hend.1).1⟩

/-- Buffer 1 waits for a time far ahead while buffer 0 is aborted, gets a frame
without data bytes and is set ready again. -/
def refillZero : List Input :=
  writeWord 1 3 0xFFFFFFFF :: setReady 1 ++ List.replicate 8 quietCycle ++ setAbort 0 ++
    writeWord 0 0 0x0 :: setReady 0

/-- The frame of eight bytes committed before is then offered for buffer 0. -/
theorem refilled_metadata_stale :
    let s := run (step twoBuffers nominalConfig) (reset (fun _ _ => 0) (fun _ => 0))
      (offerZero ++ refillZero)
    tranFrameValid s.arb (arbInput twoBuffers nominalConfig s quietCycle) = true ∧
      s.arb.currTxtbIndex = 0 ∧ s.arb.com.tranDlc = 8 ∧
      (frameMeta (current s).ram.mem).tranDlc = 0 := by
  rw [step_eq_tabled]
  decide +kernel

end TxPath
