import CtuCanFd.Core.BitSync

/-!
# Transmission over whole runs

The alignment of stuffing and destuffing as an invariant of the core: it is set up
where a transmission starts, after a recessive bit or in place of the SOF, and kept
until the data field is over, an error is requested or arbitration is lost.
-/

open ProtocolControl

namespace CanCore

variable {c : Config} {k : Clock} {s : State} {i : Input}

structure Following (c : Config) (k : Clock) (s : State) : Prop where
  paced : Paced s k.since
  unsent : k.since = 0 → k.sent = false
  idle_role : s.pc.currState = .idle → isTransmitter s = false
  frame_role : s.pc.currState.inPlain = true → isTransmitter s = true ∨ isReceiver s = true
  stuffing : s.pc.stuffEnable = true →
    s.err.errFrmReq = true ∨ (s.pc.currState.inStuffed = true ∧ isTransmitter s = true)
  pause_bit : s.pc.currState.inPause = true → k.sent = true ∨ k.since = 0 → s.bst.dataOut = true
  pause_value : s.pc.currState.inPause = true → k.since = 0 → s.bds.prevValQ = s.bds.dataOut
  aligned : isTransmitter s = true → s.pc.currState.inPlain = true →
    s.err.errFrmReq = false → Aligned c k s

/-! ## Operation control -/

/-- A unit becomes transmitter on request, and stays it as long as nothing else is
requested. -/
theorem oc_transmitter {setIdle setTransmitter setReceiver lost goToOff : Bool}
    {o : OperationControl}
    (h : o.step setIdle setTransmitter setReceiver lost goToOff = .transmitter) :
    setTransmitter = true ∨
      (o = .transmitter ∧ goToOff = false ∧ setIdle = false ∧ setReceiver = false ∧
        lost = false) := by
  revert h
  cases o <;> cases setIdle <;> cases setTransmitter <;> cases setReceiver <;> cases lost <;>
    cases goToOff <;> decide

/-- A unit that is not off becomes receiver on request. -/
theorem oc_receive {o : OperationControl} {lost : Bool} (h : o ≠ .off) :
    o.step false false true lost false = .receiver := by
  cases o <;> first | exact absurd rfl h | rfl

theorem oc_frame {o : OperationControl} (lost : Bool)
    (h : o = .transmitter ∨ o = .receiver) :
    o.step false false false lost false = .transmitter ∨
      o.step false false false lost false = .receiver := by
  rcases h with rfl | rfl <;> cases lost <;> simp [OperationControl.step]

theorem oc_receiver_kept {lost goToOff : Bool} :
    OperationControl.receiver.step false false false lost goToOff = .receiver := rfl

theorem oc_set {o : OperationControl} (h : o ≠ .off) :
    o.step false true false false false = .transmitter := by
  cases o <;> first | exact absurd rfl h | rfl

/-- From SOF to the CRC delimiter nobody becomes transmitter. -/
theorem transmitter_before (he : s.err.errFrmReq = false) (hq : s.pc.currState.inStuffed = true)
    (hx' : isTransmitter (step c s i) = true) : isTransmitter s = true := by
  have hset := (out_stuffed (c := c) (i := pcInput c s i) he hq).1
  have hn : nextOc c s i = .transmitter := by simpa [isTransmitter, step] using hx'
  rcases oc_transmitter hn with hs | ⟨hoc, -⟩
  · simp [setTransmitter, hset] at hs
  · simp [isTransmitter, hoc]

/-- The role changes at the start of a frame. -/
theorem start_role (he : s.err.errFrmReq = false) (hq : s.pc.currState.inPause = true)
    (ht : pcRxTrigger s = true) (h' : (step c s i).pc.currState.inPlain = true)
    (hx' : isTransmitter (step c s i) = true) : (pcOut c s i).setTransmitterI = true := by
  by_contra hset
  have hset : (out c s.pc (pcInput c s i)).setTransmitterI = false := by simpa [pcOut] using hset
  obtain ⟨hr, hi, -⟩ := start_receiver (c := c) (q := s.pc) (i := pcInput c s i) he hq ht h' hset
  have hn : nextOc c s i = .transmitter := by simpa [isTransmitter, step] using hx'
  rcases oc_transmitter hn with hs | ⟨-, -, -, hrec, -⟩
  · simp [setTransmitter, hset] at hs
  · simp [setReceiver, hr, ht] at hrec

/-- A transmitter that has not lost arbitration stays one up to the CRC delimiter. -/
theorem transmitter_stays (hok : Bench k s i) (he : s.err.errFrmReq = false)
    (hst : s.pc.currState.inStuffed = true) (hx : isTransmitter s = true)
    (hl : (pcOut c s i).arbitrationLostI = false) : isTransmitter (step c s i) = true := by
  obtain ⟨-, hr, hi, -⟩ := out_stuffed (c := c) (q := s.pc) (i := pcInput c s i) he hst
  have hb : (i.isBusOff && pcRxTrigger s) = false := by
    by_contra hb
    simp only [Bool.not_eq_false, Bool.and_eq_true] at hb
    exact absurd (hb.1.symm.trans (hok.inFrame hb.2 (.inl ⟨hx, hst⟩))) (by decide)
  have hoc : s.oc = .transmitter := by simpa [isTransmitter] using hx
  simp [isTransmitter, step, nextOc, setIdle, setReceiver, hr, hi, hl, hb, hoc,
    OperationControl.step]

/-- A transmitter does not stop being one in the DLC or the data field. -/
theorem transmitter_dlc (hok : Bench k s i) (hx : isTransmitter s = true)
    (hq : s.pc.currState = .dlc) (he : s.err.errFrmReq = false) :
    isTransmitter (step c s i) = true := by
  obtain ⟨-, -, -, hl⟩ := out_ocQuiet (c := c) (i := pcInput c s i) he (.inl hq)
  exact transmitter_stays hok he (by rw [hq]; rfl) hx hl

namespace Following

theorem next_idle_role (h : Following c k s) (h' : (step c s i).pc.currState = .idle) :
    isTransmitter (step c s i) = false := by
  obtain ⟨-, -, hset, hidle⟩ := enter_idle (c := c) (q := s.pc) (i := pcInput c s i) h'
  by_contra hx'
  have hn : nextOc c s i = .transmitter := by simpa [isTransmitter, step] using hx'
  rcases oc_transmitter hn with hs | ⟨hoc, -, hnidle, -⟩
  · rw [hset] at hs
    cases hs
  · rcases hidle with hi | hq
    · rw [hi] at hnidle
      cases hnidle
    · have hrole := h.idle_role hq
      simp [isTransmitter, hoc] at hrole

/-- Between two frames nothing is stuffed and nothing destuffed. -/
theorem pause_off (h : Following c k s) (hq : s.pc.currState.inPause = true) :
    (s.err.errFrmReq = false → s.pc.stuffEnable = false) ∧ s.pc.destuffEnable = false := by
  have hdis : ∀ st : PcState, st.inPause → st.inStuffed = false := by decide
  constructor
  · intro he
    by_contra hen
    rcases h.stuffing (by simpa using hen) with herr | ⟨hst, -⟩
    · exact absurd (he.symm.trans herr) (by decide)
    · exact absurd ((hdis _ hq).symm.trans hst) (by decide)
  · by_contra hden
    have hst := h.paced.destuff_stuffed (by simpa using hden)
    exact absurd ((hdis _ hq).symm.trans hst) (by decide)

/-- What is sent and sampled between two frames. -/
theorem next_pause (h : Following c k s) (hok : Bench k s i)
    (h' : (step c s i).pc.currState.inPause = true) :
    ((k.next s i).sent = true ∨ (k.next s i).since = 0 → (step c s i).bst.dataOut = true) ∧
      ((k.next s i).since = 0 → (step c s i).bds.prevValQ = (step c s i).bds.dataOut) := by
  obtain ⟨he, hsame⟩ := enter_pause (c := c) (q := s.pc) (i := pcInput c s i) h'
  have hstay : k.since ≠ 0 → s.pc.currState.inPause = true := by
    intro h0
    have hs := hsame.resolve_right (by simp [h.paced.noTrigger h0])
    rw [hs]
    exact h'
  have hheld : i.txTrigger = false → (step c s i).bst.dataOut = s.bst.dataOut := by
    intro htx
    simp [step, BitStuffing.step, bstInput, htx]
  have hfixed : s.pc.currState.inPause = true → (pcOut c s i).fixedStuff = false := fun hq =>
    (out_pause (c := c) (i := pcInput c s i) he hq).fixedStuff
  have hsent : k.sent = true → k.since ≠ 0 := by
    intro hs h0
    rw [h.unsent h0] at hs
    cases hs
  cases hrx : i.rxTrigReq
  · refine ⟨fun hs => ?_, fun h0 => by simp [Clock.next, sinceSample, hrx] at h0⟩
    have hs : k.sent = true ∨ i.txTrigger = true := by
      simpa [Clock.next, sinceSample, hrx] using hs
    cases htx : i.txTrigger
    · have hs : k.sent = true := by simpa [htx] using hs
      rw [hheld htx]
      exact h.pause_bit (hstay (hsent hs)) (.inl hs)
    · obtain ⟨-, h0⟩ := hok.send htx
      have hq := hstay h0
      have hen := (h.pause_off hq).1 he
      simp [step, BitStuffing.step, bstInput, htx, hen, txDataNbs_pause (c := c) (i := i) he hq]
  · obtain ⟨hs, -⟩ := hok.sample hrx
    have htx : i.txTrigger = false := by
      by_contra htx
      rw [(hok.send (by simpa using htx)).1] at hs
      cases hs
    have hq := hstay (hsent hs)
    refine ⟨fun _ => by rw [hheld htx]; exact h.pause_bit hq (.inl hs), fun _ => ?_⟩
    simp [step, BitDestuffing.step, bdsInput, hrx, BitDestuffing.nonFixToFixChng, hfixed hq]

/-- The bit a transmitter takes without an error is the bit it sent. -/
theorem taken (h : Following c k s) (hok : Bench k s i) (hena : c.mrSettingsEna = true)
    (h0 : k.since = 0) (he : s.err.errFrmReq = false) (hx : isTransmitter s = true)
    (hq : s.pc.currState.inPlain = true) (he' : (step c s i).err.errFrmReq = false)
    (hx' : isTransmitter (step c s i) = true) :
    Sampled c s ∧ s.bds.dataOut = s.bst.dataOut ∧
      (s.bst.dataHaltQ = false → ∀ b, fixedBit c i.tranMeta s.pc.currState = some b →
        s.bst.dataOut = b) := by
  have ha := h.aligned hx hq he
  obtain ⟨m, hm⟩ := Option.ne_none_iff_exists'.mp (ha.held (.inr h0))
  have hc : s.bst.dataHaltQ = false → ∀ b, fixedBit c i.tranMeta s.pc.currState = some b →
      s.bst.dataOut = b := by
    intro hh b hb
    rw [hok.held m hm hx hq] at hb
    exact ha.content (.inr h0) hh m b hm hb
  have hs := ha.sampled h0
  exact ⟨hs, hs.matched (h0 ▸ h.paced) he hx hq hena hc he' hx', hc⟩

/-- A transmission has started. -/
theorem started (h : Following c k s) (hok : Bench k s i) (he : s.err.errFrmReq = false)
    (ht : pcRxTrigger s = true) (hset : (out c s.pc (pcInput c s i)).setTransmitterI = true) :
    isTransmitter (step c s i) = true := by
  obtain ⟨hq, hr, hi, -, hb, -⟩ := start_transmitter (c := c) (q := s.pc) (i := pcInput c s i) he ht
    (fun hq => h.idle_role hq) hset
  have hb : i.isBusOff = false := hb.elim id fun hs => hok.inFrame ht (.inr hs)
  have hl : (pcOut c s i).arbitrationLostI = false :=
    (out_pause (c := c) (q := s.pc) (i := pcInput c s i) he hq).arbitrationLostI
  have hn : nextOc c s i = .transmitter := by
    simp only [nextOc, setIdle, setTransmitter, setReceiver, hset, hr, hi, hl, hb, pcInput_rxTrigger,
      ht]
    exact oc_set (hok.inPause ht hq hb)
  simp [isTransmitter, step, hn]

/-- Stuffing is on only while a frame is transmitted. A protocol exception of a
transmitter is a bit error as well, and the request switches stuffing off. -/
theorem next_stuffing (h : Following c k s) (hok : Bench k s i) (hena : c.mrSettingsEna = true)
    (hen' : (step c s i).pc.stuffEnable = true) :
    (step c s i).err.errFrmReq = true ∨
      ((step c s i).pc.currState.inStuffed = true ∧ isTransmitter (step c s i) = true) := by
  have he : s.err.errFrmReq = false := by
    by_contra he
    have he : (pcInput c s i).errFrmReq = true := by simpa using he
    simp [step, ProtocolControl.step, ctrlSignalUpd, out_err he, outErrFrm] at hen'
    simp_all
  cases ht : pcRxTrigger s
  · have hen : s.pc.stuffEnable = true := by
      simpa [step, ProtocolControl.step, ctrlSignalUpd, ht, he] using hen'
    obtain ⟨hst, hx⟩ := (h.stuffing hen).resolve_left (by simp [he])
    refine .inr ⟨?_, ?_⟩
    · have hs := step_hold (c := c) (q := s.pc) (i := pcInput c s i) ht he
      exact (congrArg PcState.inStuffed hs).trans hst
    · have hn := nextOc_hold (c := c) (i := i) ht he (arbitrationLostI_trigger he ht)
      simpa [isTransmitter, step, hn] using hx
  have h0 := h.paced.pcRxTrigger_since ht
  cases hset : (out c s.pc (pcInput c s i)).setTransmitterI
  · have hcase : s.pc.stuffEnable = true ∧
        (out c s.pc (pcInput c s i)).stuffEnableClear = false := by
      have hs := out_stuffEnableSet (c := c) (q := s.pc) (i := pcInput c s i) he
      rw [hset] at hs
      simpa [step, ProtocolControl.step, ctrlSignalUpd, ht, hs] using hen'
    obtain ⟨hen, hclear⟩ := hcase
    obtain ⟨hst, hx⟩ := (h.stuffing hen).resolve_left (by simp [he])
    obtain ⟨-, -, -, hlost⟩ := out_stuffed (c := c) (q := s.pc) (i := pcInput c s i) he hst
    have hx' := transmitter_stays hok he hst hx (hlost hclear)
    cases he' : (step c s i).err.errFrmReq
    · refine .inr ⟨?_, hx'⟩
      have hdc : (out c s.pc (pcInput c s i)).destuffEnableClear = false := by
        cases hq : s.pc.currState.inPlain
        · rw [out_state he] at hclear ⊢
          cases hs : s.pc.currState <;> rw [hs] at hst hq hclear <;>
            first
              | exact absurd hst (by decide)
              | exact absurd hq (by decide)
              | rfl
              | cases hclear
        · obtain ⟨hs, heq, hc⟩ := h.taken hok hena h0 he hx hq he' hx'
          exact hs.noException (h0 ▸ h.paced) he hq hc heq ht
      have hn := inStuffed_next (c := c) (q := s.pc) (i := pcInput c s i) he hst hdc
      have hs := state_sample (c := c) (i := i) ht he (by
        rintro (⟨hs, -⟩ | ⟨hs, -⟩) <;> rw [hs] at hst <;> cases hst)
      exact (congrArg PcState.inStuffed hs).trans hn
    · exact .inl rfl
  · refine .inr ⟨?_, h.started hok he ht hset⟩
    obtain ⟨-, -, -, -, -, hs⟩ := start_transmitter (c := c) (q := s.pc) (i := pcInput c s i) he ht
      (fun hq => h.idle_role hq) hset
    rcases hs with ⟨hs, -⟩ | ⟨hs, -⟩
    · exact congrArg PcState.inStuffed hs
    · exact congrArg PcState.inStuffed hs

/-- Whoever takes part in a frame does so up to the CRC delimiter. -/
theorem role_kept (hok : Bench k s i) (he : s.err.errFrmReq = false)
    (hst : s.pc.currState.inStuffed = true)
    (h : isTransmitter s = true ∨ isReceiver s = true) :
    isTransmitter (step c s i) = true ∨ isReceiver (step c s i) = true := by
  obtain ⟨hs, hr, hi, -⟩ := out_stuffed (c := c) (q := s.pc) (i := pcInput c s i) he hst
  rcases h with hx | hx
  · have hb : (i.isBusOff && pcRxTrigger s) = false := by
      by_contra hb
      simp only [Bool.not_eq_false, Bool.and_eq_true] at hb
      exact absurd (hb.1.symm.trans (hok.inFrame hb.2 (.inl ⟨hx, hst⟩))) (by decide)
    have hoc : s.oc = .transmitter := by simpa [isTransmitter] using hx
    have := oc_frame (pcOut c s i).arbitrationLostI (.inl hoc)
    simpa [isTransmitter, isReceiver, step, nextOc, setIdle, setTransmitter, setReceiver, hs, hr,
      hi, hb] using this
  · have hoc : s.oc = .receiver := by simpa [isReceiver] using hx
    refine .inr ?_
    simp [isReceiver, step, nextOc, setIdle, setTransmitter, setReceiver, hs, hr, hi, hoc,
      oc_receiver_kept]

/-- A frame is either transmitted or received. -/
theorem next_frame_role (h : Following c k s) (hok : Bench k s i)
    (h' : (step c s i).pc.currState.inPlain = true) :
    isTransmitter (step c s i) = true ∨ isReceiver (step c s i) = true := by
  obtain ⟨he, hq | ⟨hq, ht⟩⟩ := enter_plain (c := c) (q := s.pc) (i := pcInput c s i) h'
  · exact role_kept hok he (PcState.inStuffed_of_inPlain hq) (h.frame_role hq)
  · cases hset : (out c s.pc (pcInput c s i)).setTransmitterI
    · obtain ⟨hr, hi, hb⟩ := start_receiver (c := c) (q := s.pc) (i := pcInput c s i) he hq ht h' hset
      have hb : i.isBusOff = false := hb.elim id fun hs => hok.inFrame ht (.inr hs)
      have hoc := hok.inPause ht hq hb
      have ht : pcRxTrigger s = true := ht
      refine .inr ?_
      simp [isReceiver, step, nextOc, setIdle, setTransmitter, setReceiver, hset, hr, hi, hb, ht,
        oc_receive hoc]
    · exact .inl (h.started hok he ht hset)

/-- The cycle that takes a bit has neither trigger. -/
theorem quiet_take (hok : Bench k s i) (h0 : k.since = 0) :
    i.rxTrigReq = false ∧ i.txTrigger = false := by
  constructor
  · by_contra hrx
    have := (hok.sample (by simpa using hrx)).2
    omega
  · by_contra htx
    exact (hok.send (by simpa using htx)).2 h0

theorem next_take (h : Following c k s) (hok : Bench k s i) (h0 : k.since = 0) :
    (k.next s i).since = 1 ∧ (k.next s i).sent = false := by
  obtain ⟨hrx, htx⟩ := quiet_take hok h0
  simp [Clock.next, sinceSample, hrx, htx, h0, h.unsent h0]

theorem start_aligned (h : Following c k s) (hok : Bench k s i) (he : s.err.errFrmReq = false)
    (hq : s.pc.currState.inPause = true) (ht : pcRxTrigger s = true)
    (h' : (step c s i).pc.currState.inPlain = true) (hx' : isTransmitter (step c s i) = true) :
    Aligned c (k.next s i) (step c s i) := by
  have h0 := h.paced.pcRxTrigger_since ht
  obtain ⟨hrx, htx⟩ := quiet_take hok h0
  obtain ⟨hsince, hsent⟩ := h.next_take hok h0
  have hset : (out c s.pc (pcInput c s i)).setTransmitterI = true := start_role he hq ht h' hx'
  obtain ⟨-, -, -, hdset, -, hs⟩ := start_transmitter (c := c) (q := s.pc) (i := pcInput c s i) he ht
    (fun hq => h.idle_role hq) hset
  have hen := (h.pause_off hq).1 he
  have hden := (h.pause_off hq).2
  have hu : ctrlSignalUpd (pcInput c s i) = true := by simp [ctrlSignalUpd, ht]
  have hrun : (step c s i).bds.sameBitsQ = 1 := by
    simp [step, BitDestuffing.step, BitDestuffing.sameBitsErase, bdsInput, hden]
  have hbst : (step c s i).bst.sameBitsQ = 1 := by
    simp [step, BitStuffing.step, bstInput, hen]
  have hout : (step c s i).bst.dataOut = true := by
    simpa [step, BitStuffing.step, bstInput, htx] using h.pause_bit hq (.inr h0)
  have hval : (step c s i).bds.prevValQ = s.bds.dataOut := by
    simpa [step, BitDestuffing.step, bdsInput, hrx] using h.pause_value hq h0
  have hnot : ¬ ((k.next s i).sent = true ∨ (k.next s i).since = 0) := by simp [hsince, hsent]
  constructor
  · have := out_stuffEnableSet (c := c) (q := s.pc) (i := pcInput c s i) he
    simp [step, ProtocolControl.step, hu, this, hset]
  · simp [step, ProtocolControl.step, hu, hdset]
  · omega
  · exact fun hc => absurd hc hnot
  · exact fun hc => absurd hc hnot
  · intro hz
    rw [hsince] at hz
    cases hz
  · intro _ _
    rcases hs with ⟨hst, hr, hn⟩ | ⟨hst, hr, hn, hpl, hv⟩
    · have hr : s.bds.dataOut = true := hr
      exact .level hn ⟨hbst.trans hrun.symm, by rw [hout, hval, hr]⟩ (.inr ⟨hst, hbst, hout⟩)
        (.inr hrun)
    · have hr : s.bds.dataOut = false := hr
      have hctr : (step c s i).ctr.ctrlCtrQ = 10 := by
        simp [step, nextCtr, ControlCounter.step, hpl, pcOut, hv]
      exact .start hn hst (by omega) hrun (hval.trans hr) (by omega)
  · intro _ hc
    rw [hsent] at hc
    cases hc

/-- Metadata held from the last cycle. -/
theorem next_held (hx : isTransmitter s = true) (hq : s.pc.currState.inPlain = true) :
    (k.next s i).held = some i.tranMeta := by
  simp [Clock.next, hx, hq]

theorem take_aligned (h : Following c k s) (hok : Bench k s i) (hena : c.mrSettingsEna = true)
    (he : s.err.errFrmReq = false) (hx : isTransmitter s = true)
    (hq : s.pc.currState.inPlain = true) (h0 : k.since = 0)
    (hx' : isTransmitter (step c s i) = true) (he' : (step c s i).err.errFrmReq = false) :
    Aligned c (k.next s i) (step c s i) := by
  have ha := h.aligned hx hq he
  obtain ⟨hrx, htx⟩ := quiet_take hok h0
  obtain ⟨hsince, hsent⟩ := h.next_take hok h0
  obtain ⟨hs, heq, hc⟩ := h.taken hok hena h0 he hx hq he' hx'
  have hbds := bds_regular (c := c) (i := i) he hq ha.destuffEnable
  have hd : (bdsInput c s i).bdsTrigger = false := hrx
  have hnot : ¬ ((k.next s i).sent = true ∨ (k.next s i).since = 0) := by simp [hsince, hsent]
  constructor
  · exact (Sampled.stuffEnable_kept he hx hq hx').trans ha.stuffEnable
  · exact (hs.destuffEnable_kept (h0 ▸ h.paced) he hq hc heq).trans ha.destuffEnable
  · have := (BitDestuffing.step_quiet (d := s.bds) hbds hd (.inl hs.rx)).1
    simpa only [step, this] using ha.run
  · exact fun hc => absurd hc hnot
  · exact fun hc => absurd hc hnot
  · intro hz
    rw [hsince] at hz
    cases hz
  · intro _ _
    exact hs.waiting (h0 ▸ h.paced) he hx hq ha.stuffEnable ha.destuffEnable heq hrx htx
  · intro _ hc
    rw [hsent] at hc
    cases hc

theorem between_aligned (h : Following c k s) (hok : Bench k s i) (hena : c.mrSettingsEna = true)
    (he : s.err.errFrmReq = false) (hx : isTransmitter s = true)
    (hq : s.pc.currState.inPlain = true) (h0 : k.since ≠ 0) :
    Aligned c (k.next s i) (step c s i) := by
  have ha := h.aligned hx hq he
  have ht := h.paced.noTrigger h0
  have hk := kept_plain (c := c) (i := i) he hq ht
  have hheld := next_held (k := k) (i := i) hx hq
  have hbds := bds_regular (c := c) (i := i) he hq ha.destuffEnable
  have hen := hk.stuffEnable.trans ha.stuffEnable
  have hden := hk.destuffEnable.trans ha.destuffEnable
  have hsome : (k.next s i).held ≠ none := by simp [hheld]
  -- a bit on the bus stays there, and so does what it stands for
  have hstay : k.sent = true → (step c s i).bst.dataOut = s.bst.dataOut →
      (step c s i).bst.dataHaltQ = s.bst.dataHaltQ → (step c s i).bst.dataHaltQ = false →
      ∀ m b, (k.next s i).held = some m →
        fixedBit c m (step c s i).pc.currState = some b → (step c s i).bst.dataOut = b := by
    intro hsent hout hhalt hh m b hm hb
    obtain ⟨m', hm'⟩ := Option.ne_none_iff_exists'.mp (ha.held (.inl hsent))
    have heq : m = m' := by
      rw [hheld, hok.held m' hm' hx hq] at hm
      exact (Option.some.inj hm).symm
    rw [hk.state, heq] at hb
    rw [hout]
    exact ha.content (.inl hsent) (hhalt.symm.trans hh) m' b hm' hb
  cases hrx : i.rxTrigReq
  · have hd : (bdsInput c s i).bdsTrigger = false := hrx
    have hsince : (k.next s i).since ≠ 0 := by simp [Clock.next, sinceSample, hrx]
    have hready : s.bds.enablePrev = true ∨ s.bds.sameBitsQ = 1 := by
      cases hs : k.sent
      · cases ha.waiting h0 hs with
        | level noSof lv tx rx => exact rx
        | start noSof state ctr run => exact .inr run
        | second noSof state tx rx => exact .inl rx
      · exact .inl (ha.sending h0 hs).2.1
    have hrun : (step c s i).bds.sameBitsQ ≤ 5 := by
      have := (BitDestuffing.step_quiet (d := s.bds) hbds hd hready).1
      simpa only [step, this] using ha.run
    cases htx : i.txTrigger
    · have hsent : (k.next s i).sent = k.sent := by simp [Clock.next, hrx, htx]
      have hout : (step c s i).bst.dataOut = s.bst.dataOut := by
        simp [step, BitStuffing.step, bstInput, htx]
      refine ⟨hen, hden, hrun, fun _ => hsome, fun hc => ?_, fun hz => absurd hz hsince, fun _ hs => ?_,
        fun _ hs => ?_⟩
      · have hs : k.sent = true := by simpa [hsince, hsent] using hc
        refine hstay hs hout ?_
        simp [step, BitStuffing.step, BitStuffing.dataHalt, bstInput, htx, (ha.sending h0 hs).1,
          ha.stuffEnable]
      · exact ha.waiting_quiet h.paced he hq h0 (hsent ▸ hs) hrx htx
      · exact ⟨bst_enablePrev ha.stuffEnable, bds_enablePrev ha.destuffEnable,
          ha.sending_quiet h.paced he hq h0 (hsent ▸ hs) hrx htx⟩
    · obtain ⟨hs, hbit⟩ := ha.send h.paced he hx hq h0 (hok.send htx).1 hrx htx
      have hsent : (k.next s i).sent = true := by simp [Clock.next, hrx, htx]
      refine ⟨hen, hden, hrun, fun _ => hsome, fun _ hh m b hm hb => ?_, fun hz => absurd hz hsince,
        fun _ hs => ?_, fun _ _ => ?_⟩
      · rw [hheld] at hm
        rw [hk.state, ← Option.some.inj hm] at hb
        exact (hbit hh).trans (txDataNbs_fixed he hx hb)
      · rw [hsent] at hs
        cases hs
      · exact ⟨bst_enablePrev ha.stuffEnable, bds_enablePrev ha.destuffEnable, hs⟩
  · have hsent := (hok.sample hrx).1
    have htx : i.txTrigger = false := by
      by_contra htx
      rw [(hok.send (by simpa using htx)).1] at hsent
      cases hsent
    obtain ⟨hs, hout, hhalt, hrun⟩ := ha.sample h.paced he hx hq hena h0 hsent hrx htx
    have hsince : (k.next s i).since = 0 := by simp [Clock.next, sinceSample, hrx]
    exact ⟨hen, hden, hrun, fun _ => hsome, fun _ => hstay hsent hout hhalt, fun _ => hs,
      fun hz => absurd hsince hz, fun hz => absurd hsince hz⟩

theorem next_aligned (h : Following c k s) (hok : Bench k s i) (hena : c.mrSettingsEna = true)
    (hx' : isTransmitter (step c s i) = true) (hq' : (step c s i).pc.currState.inPlain = true)
    (he' : (step c s i).err.errFrmReq = false) : Aligned c (k.next s i) (step c s i) := by
  obtain ⟨he, hq | ⟨hq, ht⟩⟩ := enter_plain (c := c) (q := s.pc) (i := pcInput c s i) hq'
  · have hx := transmitter_before he (PcState.inStuffed_of_inPlain hq) hx'
    by_cases h0 : k.since = 0
    · exact h.take_aligned hok hena he hx hq h0 hx' he'
    · exact h.between_aligned hok hena he hx hq h0
  · exact h.start_aligned hok he hq ht hq' hx'

theorem step_following (h : Following c k s) (hok : Bench k s i) (hena : c.mrSettingsEna = true) :
    Following c (k.next s i) (step c s i) where
  paced := h.paced.step_paced fun hrx => (hok.sample hrx).2
  unsent h0 := by
    have hrx : i.rxTrigReq = true := by
      by_contra hrx
      simp [Clock.next, sinceSample, hrx] at h0
    simp [Clock.next, hrx]
  idle_role := h.next_idle_role
  frame_role := h.next_frame_role hok
  stuffing := h.next_stuffing hok hena
  pause_bit hq := (h.next_pause hok hq).1
  pause_value hq := (h.next_pause hok hq).2
  aligned := h.next_aligned hok hena

theorem of_reset (sent : Bool) : Following c ⟨4, sent, none⟩ reset where
  paced := .of_reset
  unsent h := by cases h
  idle_role h := by cases h
  frame_role h := by cases h
  stuffing h := by cases h
  pause_bit h := by cases h
  pause_value h := by cases h
  aligned h := by cases h

end Following

end CanCore
