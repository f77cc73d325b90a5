import CtuCanFd.Core.Stuffing
import CtuCanFd.Core.TransmitSteps

/-!
# A transmitter follows its own bits

From SOF to the data field a transmitter sends one bit at each TX trigger and
samples it before the next one. As long as no error is requested and arbitration
is not lost, every bit it samples is the bit it sent: any other bit is a stuff
error, a bit error, a form error or a lost arbitration.
-/

open ProtocolControl

namespace CanCore

/-! ## Environment -/

/-- What the environment of the core has done so far: cycles since the last sample
point, whether the bit of this bit time is on the bus, and the metadata of the
last cycle of a transmission. -/
structure Clock where
  since : Nat
  sent : Bool
  held : Option TranMeta

def Clock.next (k : Clock) (s : State) (i : Input) : Clock where
  since := sinceSample k.since i
  sent := if i.rxTrigReq then false else k.sent || i.txTrigger
  held := if isTransmitter s && s.pc.currState.inPlain then some i.tranMeta else none

/-- TX triggers and sample points alternate and do not meet, and sample points are at least
three cycles apart. -/
structure Triggers (k : Clock) (i : Input) : Prop where
  sample : i.rxTrigReq = true → k.sent = true ∧ 2 ≤ k.since
  send : i.txTrigger = true → k.sent = false ∧ k.since ≠ 0

instance (k : Clock) (i : Input) : Decidable (Triggers k i) :=
  decidable_of_iff
    ((i.rxTrigReq = true → k.sent = true ∧ 2 ≤ k.since) ∧
      (i.txTrigger = true → k.sent = false ∧ k.since ≠ 0))
    ⟨fun ⟨a, b⟩ => ⟨a, b⟩, fun ⟨a, b⟩ => ⟨a, b⟩⟩

/-- The metadata offered does not change during a transmission either. -/
structure Driven (k : Clock) (s : State) (i : Input) : Prop extends Triggers k i where
  held : ∀ m, k.held = some m → isTransmitter s = true → s.pc.currState.inPlain = true →
    i.tranMeta = m

instance (k : Clock) (s : State) (i : Input) : Decidable (Driven k s i) :=
  decidable_of_iff
    (Triggers k i ∧
      ∀ m ∈ k.held, isTransmitter s = true → s.pc.currState.inPlain = true → i.tranMeta = m)
    ⟨fun ⟨a, b⟩ => ⟨a, b⟩, fun h => ⟨h.toTriggers, h.held⟩⟩

/-- The unit turns bus-off neither while it transmits nor in suspend, and stays so as long as
operation control is off. -/
structure StaysOn (s : State) (i : Input) : Prop where
  inFrame : pcRxTrigger s = true →
    (isTransmitter s = true ∧ s.pc.currState.inStuffed = true) ∨ s.pc.currState = .suspend →
    i.isBusOff = false
  inPause : pcRxTrigger s = true → s.pc.currState.inPause = true → i.isBusOff = false →
    s.oc ≠ .off

instance (s : State) (i : Input) : Decidable (StaysOn s i) :=
  decidable_of_iff
    ((pcRxTrigger s = true →
        (isTransmitter s = true ∧ s.pc.currState.inStuffed = true) ∨ s.pc.currState = .suspend →
        i.isBusOff = false) ∧
      (pcRxTrigger s = true → s.pc.currState.inPause = true → i.isBusOff = false → s.oc ≠ .off))
    ⟨fun ⟨a, b⟩ => ⟨a, b⟩, fun ⟨a, b⟩ => ⟨a, b⟩⟩

/-- Surroundings of the core: bit timing, metadata and fault confinement. -/
structure Bench (k : Clock) (s : State) (i : Input) : Prop extends Driven k s i, StaysOn s i

instance (k : Clock) (s : State) (i : Input) : Decidable (Bench k s i) :=
  decidable_of_iff (Driven k s i ∧ StaysOn s i)
    ⟨fun ⟨a, b⟩ => ⟨a, b⟩, fun h => ⟨h.toDriven, h.toStaysOn⟩⟩

/-! ## Bits handed to bit stuffing -/

section Bits

variable {c : Config} {s : State} {i : Input}

/-- Bits of a frame that are sent without the shift register. -/
def fixedBit (c : Config) (m : TranMeta) : PcState → Option Bool
  | .sof | .r0Ext | .r0Fd => some false
  | .rtrSrrR1 => some (m.tranIdentType || (m.tranIsRtr && !(m.tranFrameType && c.mrModeFde)))
  | .ide => some m.tranIdentType
  | .rtrR1 => some (m.tranIsRtr && !(m.tranFrameType && c.mrModeFde))
  | .edlR1 | .edlR0 => some (m.tranFrameType && c.mrModeFde)
  | .brs => some m.tranBrs
  | _ => none

/-- Fields sent through the shift register. -/
def shifted : PcState → Bool
  | .baseId | .extId | .dlc | .data => true
  | _ => false

theorem txDataNbs_fixed {b : Bool} (he : s.err.errFrmReq = false) (hx : isTransmitter s = true)
    (hb : fixedBit c i.tranMeta s.pc.currState = some b) : txDataNbs c s i = b := by
  have hx' : (pcInput c s i).isTransmitter = true := hx
  simp only [txDataNbs, TxShiftReg.txDataNbs, txShiftEna, ProtocolControl.txShiftEna, pcOut,
    out_state he, he, hx']
  cases hq : s.pc.currState <;> rw [hq] at hb <;> simp [fixedBit] at hb <;>
    simp [outState, outSof, outR0Ext, outR0Fd, outRtrSrrR1, outIde, outRtrR1, outEdlR1, outEdlR0,
      outBrs, hx, tranFrameTypeI, pcInput, ← hb]
  all_goals grind

theorem txDataNbs_shifted (he : s.err.errFrmReq = false) (hx : isTransmitter s = true)
    (hq : shifted s.pc.currState = true) : txDataNbs c s i = s.txs.getLsbD 31 := by
  simp only [txDataNbs, TxShiftReg.txDataNbs, txShiftEna, ProtocolControl.txShiftEna, pcOut,
    out_state he, he]
  cases hs : s.pc.currState <;> rw [hs] at hq <;> simp [shifted] at hq <;>
    simp [outState, outBaseId, outExtId, outDlc, outData, hx]

theorem txDataNbs_pause (he : s.err.errFrmReq = false) (hq : s.pc.currState.inPause = true) :
    txDataNbs c s i = true := by
  have ho := out_pause (c := c) (q := s.pc) (i := pcInput c s i) he hq
  simp [txDataNbs, TxShiftReg.txDataNbs, txShiftEna, ProtocolControl.txShiftEna, pcOut, he,
    ho.txDominant, ho.txShiftEnaI]

end Bits

/-! ## Alignment -/

/-- Between sample point and TX trigger. A transmission without SOF takes the
dominant bit it sampled for SOF, and stuffing presets its counter from the bit to
be sent next, which is right only if that bit goes on with the run. -/
inductive Waiting (s : State) : Prop where
  | level (noSof : s.pc.txFrameNoSofQ = false) (level : StuffLevel s.bst s.bds)
    (tx : s.bst.enablePrev = true ∨
      (s.pc.currState = .sof ∧ s.bst.sameBitsQ = 1 ∧ s.bst.dataOut = true))
    (rx : s.bds.enablePrev = true ∨ s.bds.sameBitsQ = 1)
  | start (noSof : s.pc.txFrameNoSofQ = true) (state : s.pc.currState = .baseId)
    (ctr : s.ctr.ctrlCtrQ ≠ 0) (run : s.bds.sameBitsQ = 1) (value : s.bds.prevValQ = false)
    (low : s.bst.sameBitsQ ≤ 2)
  | second (noSof : s.pc.txFrameNoSofQ = false) (state : s.pc.currState = .baseId)
    (tx : s.bst.enablePrev = true) (rx : s.bds.enablePrev = true)
    (value : s.bst.dataOut = s.bds.prevValQ) (lowTx : s.bst.sameBitsQ ≤ 2)
    (lowRx : s.bds.sameBitsQ ≤ 2) (differs : s.txs.getLsbD 31 ≠ s.bst.dataOut)

/-- Between TX trigger and sample point. -/
inductive Sending (s : State) : Prop where
  | ahead (noSof : s.pc.txFrameNoSofQ = false) (ahead : StuffAhead s.bst s.bds)
  | start (noSof : s.pc.txFrameNoSofQ = true) (state : s.pc.currState = .baseId)
    (ctr : s.ctr.ctrlCtrQ ≠ 0) (run : s.bds.sameBitsQ = 1) (value : s.bds.prevValQ = false)
    (halt : s.bst.dataHaltQ = false)

/-- In the cycle in which protocol control takes the bit: a bit that is not the
one sent has been detected, or is about to be by protocol control. -/
structure Sampled (c : Config) (s : State) : Prop where
  tx : s.bst.enablePrev = true
  rx : s.bds.enablePrev = true
  halt : s.bds.destuffedQ = s.bst.dataHaltQ
  detected : s.bds.dataOut ≠ s.bst.dataOut →
    s.bed.bitErrQ = true ∨ s.bds.stuffErrQ = true ∨
      (s.bst.dataHaltQ = false ∧ s.pc.currState.inArbitration = true ∧
        (c.mrModeBmm = true → s.bst.dataOut = true))
  value : s.bds.dataOut = s.bst.dataOut → s.bds.prevValQ = s.bst.dataOut
  level : s.bds.dataOut = s.bst.dataOut → s.pc.txFrameNoSofQ = false →
    s.bst.sameBitsQ = s.bds.sameBitsQ
  start : s.pc.txFrameNoSofQ = true →
    s.pc.currState = .baseId ∧ s.ctr.ctrlCtrQ ≠ 0 ∧ s.bst.dataHaltQ = false ∧
      s.bds.sameBitsQ = if s.bds.dataOut then 1 else 2

/-- A transmitter from SOF to the data field, no error being requested. -/
structure Aligned (c : Config) (k : Clock) (s : State) : Prop where
  stuffEnable : s.pc.stuffEnable = true
  destuffEnable : s.pc.destuffEnable = true
  run : s.bds.sameBitsQ ≤ 5
  held : k.sent = true ∨ k.since = 0 → k.held ≠ none
  content : k.sent = true ∨ k.since = 0 → s.bst.dataHaltQ = false → ∀ m b, k.held = some m →
    fixedBit c m s.pc.currState = some b → s.bst.dataOut = b
  sampled : k.since = 0 → Sampled c s
  waiting : k.since ≠ 0 → k.sent = false → Waiting s
  sending : k.since ≠ 0 → k.sent = true →
    s.bst.enablePrev = true ∧ s.bds.enablePrev = true ∧ Sending s

/-! ## Cycles between sample points -/

section Between

variable {c : Config} {s : State} {i : Input}

structure Kept (s s' : State) : Prop where
  state : s'.pc.currState = s.pc.currState
  noSof : s'.pc.txFrameNoSofQ = s.pc.txFrameNoSofQ
  stuffEnable : s'.pc.stuffEnable = s.pc.stuffEnable
  destuffEnable : s'.pc.destuffEnable = s.pc.destuffEnable
  ctr : s'.ctr = s.ctr

theorem kept_between (he : s.err.errFrmReq = false)
    (hq : s.pc.currState.inStuffed = true ∨ s.pc.currState.inPause = true)
    (ht : pcRxTrigger s = false) : Kept s (step c s i) := by
  have hu : ctrlSignalUpd (pcInput c s i) = false := by simp [ctrlSignalUpd, ht, he]
  have hoff : s.pc.currState ≠ .off := by
    intro h
    rw [h] at hq
    exact absurd hq (by decide)
  have hp : ctrlCtrPload c s.pc (pcInput c s i) = false := by
    simp only [ctrlCtrPload, hu, beq_eq_false_iff_ne.mpr hoff]
    simp only [out_state he]
    cases hs : s.pc.currState <;> rw [hs] at hq <;> first | rfl | exact absurd hq (by decide)
  constructor
  · exact step_hold ht he
  · simp [step, ProtocolControl.step, ht]
  · simp [step, ProtocolControl.step, hu]
  · simp [step, ProtocolControl.step, hu]
  · simp [step, nextCtr, ControlCounter.step, hp, ht]

theorem kept_plain (he : s.err.errFrmReq = false) (hq : s.pc.currState.inPlain = true)
    (ht : pcRxTrigger s = false) : Kept s (step c s i) :=
  kept_between he (.inl (PcState.inStuffed_of_inPlain hq)) ht

theorem txs_kept (ht : pcRxTrigger s = false) (hx : i.txTrigger = false) :
    (step c s i).txs = s.txs := by
  simp [step, TxShiftReg.step, ht, txsInput, pcTxTrigger, hx]

theorem bst_regular (he : s.err.errFrmReq = false) (hq : s.pc.currState.inPlain = true)
    (hen : s.pc.stuffEnable = true) : BitStuffing.Regular (bstInput c s i) :=
  ⟨hen, (out_plain (c := c) (i := pcInput c s i) he hq).fixedStuff⟩

theorem bds_regular (he : s.err.errFrmReq = false) (hq : s.pc.currState.inPlain = true)
    (hen : s.pc.destuffEnable = true) : BitDestuffing.Regular (bdsInput c s i) :=
  ⟨hen, (out_plain (c := c) (i := pcInput c s i) he hq).fixedStuff⟩

theorem bst_enablePrev (hen : s.pc.stuffEnable = true) : (step c s i).bst.enablePrev = true := hen

theorem bds_enablePrev (hen : s.pc.destuffEnable = true) :
    (step c s i).bds.enablePrev = true := hen

/-- A bit that differs from the bit sent is taken from the bus, and in bus
monitoring it can only be dominant. -/
theorem bdsDataIn_differs (h : bdsDataIn c s i ≠ s.bst.dataOut) :
    s.pc.spControlQ ≠ .secondarySample ∧
      (c.mrModeBmm = true → s.bst.dataOut = true ∧ i.rxDataWbs = false) ∧
      (c.mrModeBmm = false → i.rxDataWbs ≠ s.bst.dataOut) := by
  simp only [bdsDataIn] at h
  refine ⟨fun hs => h (by simp [hs]), fun hb => ?_, fun hb => ?_⟩
  · split at h
    · exact absurd rfl h
    · cases hd : s.bst.dataOut <;> simp_all
  · split at h
    · exact absurd rfl h
    · simpa [hb] using h

/-- Behind the arbitration field the bit error detector sees it. -/
theorem bitErr_control (he : s.err.errFrmReq = false) (hx : isTransmitter s = true)
    (hq : s.pc.currState.inPlain = true ∨ s.pc.currState = .stuffCount)
    (ha : s.pc.currState.inArbitration = false)
    (ht : pcRxTrigger s = false) (hrx : i.rxTrigReq = true) (hena : c.mrSettingsEna = true)
    (h : bdsDataIn c s i ≠ s.bst.dataOut) : (step c s i).bed.bitErrQ = true := by
  obtain ⟨hsp, hbmm, hbus⟩ := bdsDataIn_differs h
  have hrec : isReceiver s = false := by
    simp only [isTransmitter, isReceiver, beq_iff_eq] at hx ⊢
    rw [hx]
    rfl
  have hen : bitErrEnable c s.pc (pcInput c s i) = true ∧
      spControl c s.pc (pcInput c s i) = s.pc.spControlQ := by
    simp only [bitErrEnable, spControl, out_state he,
      pcInput_isReceiver, hrec]
    cases hs : s.pc.currState <;> rw [hs] at hq ha <;>
      first
        | exact absurd hq (by decide)
        | exact absurd ha (by decide)
        | exact ⟨rfl, rfl⟩
        | simp [outState, outBrs, ht]
  have hne : (i.rxDataWbs != txDataWbs c s) = true := by
    simp only [txDataWbs, hena]
    cases hb : c.mrModeBmm
    · simpa using hbus hb
    · simp [(hbmm hb).2]
  simp [step, BitErrDetector.step, BitErrDetector.bitErrNormValid, bedInput, hena, hen.1, hen.2, hrx,
    hsp] at hne ⊢
  exact .inr hne

end Between

namespace Aligned

variable {c : Config} {k : Clock} {s : State} {i : Input}

/-- Between the sample points protocol control stands still, and stuffing is regular. -/
theorem between (h : Aligned c k s) (hp : Paced s k.since) (he : s.err.errFrmReq = false)
    (hq : s.pc.currState.inPlain = true) (h0 : k.since ≠ 0) :
    pcRxTrigger s = false ∧ Kept s (step c s i) ∧ BitStuffing.Regular (bstInput c s i) ∧
      BitDestuffing.Regular (bdsInput c s i) := by
  have ht := hp.noTrigger h0
  exact ⟨ht, kept_plain he hq ht, bst_regular he hq h.stuffEnable,
    bds_regular he hq h.destuffEnable⟩

theorem waiting_quiet (h : Aligned c k s) (hp : Paced s k.since) (he : s.err.errFrmReq = false)
    (hq : s.pc.currState.inPlain = true) (h0 : k.since ≠ 0) (hsent : k.sent = false)
    (hrx : i.rxTrigReq = false) (htx : i.txTrigger = false) : Waiting (step c s i) := by
  obtain ⟨ht, hk, hbst, hbds⟩ := h.between (i := i) hp he hq h0
  have hb : (bstInput c s i).bstTrigger = false := htx
  have hd : (bdsInput c s i).bdsTrigger = false := hrx
  cases h.waiting h0 hsent with
  | level noSof lv tx rx =>
    obtain ⟨hr1, hr2, -⟩ := BitDestuffing.step_quiet (d := s.bds) hbds hd rx
    have hsame : (s.bst.step (bstInput c s i)).sameBitsQ = s.bst.sameBitsQ ∧
        (s.bst.step (bstInput c s i)).dataOut = s.bst.dataOut := by
      rcases tx with tx | ⟨-, h1, -⟩
      · exact ⟨(BitStuffing.step_quiet hbst hb tx noSof).1, (BitStuffing.step_quiet hbst hb tx noSof).2.1⟩
      · have hn : (bstInput c s i).txFrameNoSof = false := noSof
        simp [BitStuffing.step, BitStuffing.sameBitsD, hbst.enabled, hb, hn, h1]
    refine .level (hk.noSof.trans noSof) ⟨?_, ?_⟩ (.inl (bst_enablePrev h.stuffEnable))
      (.inl (bds_enablePrev h.destuffEnable))
    · exact hsame.1.trans (lv.sameBits.trans hr1.symm)
    · exact hsame.2.trans (lv.value.trans hr2.symm)
  | start noSof state ctr run value low =>
    obtain ⟨hr1, hr2, -⟩ := BitDestuffing.step_quiet (d := s.bds) hbds hd (.inr run)
    refine .start (hk.noSof.trans noSof) (hk.state.trans state) (hk.ctr ▸ ctr) (hr1.trans run)
      (hr2.trans value) ?_
    have := BitStuffing.step_noSof (t := s.bst) hbst noSof
    simp only [step, this]
    split <;> decide
  | second noSof state tx rx value lowTx lowRx differs =>
    obtain ⟨hr1, hr2, -⟩ := BitDestuffing.step_quiet (d := s.bds) hbds hd (.inl rx)
    obtain ⟨ht1, ht2, -⟩ := BitStuffing.step_quiet (t := s.bst) hbst hb tx noSof
    refine .second (hk.noSof.trans noSof) (hk.state.trans state) (bst_enablePrev h.stuffEnable)
      (bds_enablePrev h.destuffEnable) (ht2.trans (value.trans hr2.symm)) ?_ ?_ ?_
    · simpa only [step, ht1] using lowTx
    · simpa only [step, hr1] using lowRx
    · rw [txs_kept ht htx]
      simpa only [step, ht2] using differs

theorem sending_quiet (h : Aligned c k s) (hp : Paced s k.since) (he : s.err.errFrmReq = false)
    (hq : s.pc.currState.inPlain = true) (h0 : k.since ≠ 0) (hsent : k.sent = true)
    (hrx : i.rxTrigReq = false) (htx : i.txTrigger = false) : Sending (step c s i) := by
  obtain ⟨ht, hk, hbst, hbds⟩ := h.between (i := i) hp he hq h0
  have hb : (bstInput c s i).bstTrigger = false := htx
  obtain ⟨tx, rx, hs⟩ := h.sending h0 hsent
  obtain ⟨hr1, hr2, -⟩ := BitDestuffing.step_quiet (d := s.bds) hbds hrx (.inl rx)
  cases hs with
  | ahead noSof ahead =>
    obtain ⟨ht1, ht2, ht3⟩ := BitStuffing.step_quiet (t := s.bst) hbst hb tx noSof
    refine .ahead (hk.noSof.trans noSof) ⟨?_, ?_, ?_⟩
    · simpa only [step, ht3, hr1] using ahead.halt
    · simpa only [step, ht2, hr1, hr2] using ahead.stuff
    · simpa only [step, ht1, ht2, hr1, hr2] using ahead.sameBits
  | start noSof state ctr run value halt =>
    refine .start (hk.noSof.trans noSof) (hk.state.trans state) (hk.ctr ▸ ctr) (hr1.trans run)
      (hr2.trans value) ?_
    simp [step, BitStuffing.step, BitStuffing.dataHalt, hb, halt]

/-- A TX trigger sends the bit protocol control asks for, or a stuff bit. -/
theorem send (h : Aligned c k s) (hp : Paced s k.since) (he : s.err.errFrmReq = false)
    (hx : isTransmitter s = true) (hq : s.pc.currState.inPlain = true) (h0 : k.since ≠ 0)
    (hsent : k.sent = false) (hrx : i.rxTrigReq = false) (htx : i.txTrigger = true) :
    Sending (step c s i) ∧
      ((step c s i).bst.dataHaltQ = false → (step c s i).bst.dataOut = txDataNbs c s i) := by
  obtain ⟨ht, hk, hbst, hbds⟩ := h.between (i := i) hp he hq h0
  have hb : (bstInput c s i).bstTrigger = true := htx
  have hlow : s.bst.sameBitsQ ≠ 5 → (step c s i).bst.dataOut = txDataNbs c s i := fun h5 =>
    BitStuffing.dataOut_low (t := s.bst) hbst hb h5
  have hhalt : s.bst.enablePrev = true → (step c s i).bst.dataHaltQ = false →
      s.bst.sameBitsQ ≠ 5 := by
    intro hen hh h5
    have hd : (step c s i).bst.dataHaltQ = s.bst.dataHalt (bstInput c s i) := rfl
    rw [hd, BitStuffing.dataHalt_send hbst hb hen, h5] at hh
    cases hh
  cases h.waiting h0 hsent with
  | level noSof lv tx rx =>
    obtain ⟨hr1, hr2, -⟩ := BitDestuffing.step_quiet (d := s.bds) hbds hrx rx
    have htx' : s.bst.enablePrev = true ∨
        (s.bst.sameBitsQ ≠ 5 ∧ (bstInput c s i).dataIn ≠ s.bst.dataOut) := by
      refine tx.imp_right fun ⟨hsof, h1, hout⟩ => ⟨by omega, ?_⟩
      have : txDataNbs c s i = false := txDataNbs_fixed he hx (by rw [hsof]; rfl)
      simp [bstInput, this, hout]
    have hah := StuffAhead.of_send (d := s.bds) hbst hb noSof htx' h.run lv.value
      (by rw [lv.sameBits]) fun _ => lv.sameBits
    refine ⟨.ahead (hk.noSof.trans noSof) ⟨?_, ?_, ?_⟩, fun hh => hlow ?_⟩
    · simpa only [step, hr1] using hah.halt
    · simpa only [step, hr1, hr2] using hah.stuff
    · simpa only [step, hr1, hr2] using hah.sameBits
    · rcases tx with tx | ⟨-, h1, -⟩
      · exact hhalt tx hh
      · omega
  | start noSof state ctr run value low =>
    obtain ⟨hr1, hr2, -⟩ := BitDestuffing.step_quiet (d := s.bds) hbds hrx (.inr run)
    refine ⟨.start (hk.noSof.trans noSof) (hk.state.trans state) (hk.ctr ▸ ctr) (hr1.trans run)
      (hr2.trans value) ?_, fun _ => hlow (by omega)⟩
    exact BitStuffing.dataHalt_low hbst hb (by omega)
  | second noSof state tx rx value lowTx lowRx differs =>
    obtain ⟨hr1, hr2, -⟩ := BitDestuffing.step_quiet (d := s.bds) hbds hrx (.inl rx)
    have hin : txDataNbs c s i = s.txs.getLsbD 31 :=
      txDataNbs_shifted he hx (by rw [state]; rfl)
    have hah := StuffAhead.of_send (d := s.bds) (t := s.bst) hbst hb noSof (.inl tx) h.run value
      (by omega) fun heq => absurd (hin.symm.trans heq) differs
    refine ⟨.ahead (hk.noSof.trans noSof) ⟨?_, ?_, ?_⟩, fun hh => hlow (hhalt tx hh)⟩
    · simpa only [step, hr1] using hah.halt
    · simpa only [step, hr1, hr2] using hah.stuff
    · simpa only [step, hr1, hr2] using hah.sameBits

/-- The sample point of the bit that was sent. -/
theorem sample (h : Aligned c k s) (hp : Paced s k.since) (he : s.err.errFrmReq = false)
    (hx : isTransmitter s = true) (hq : s.pc.currState.inPlain = true)
    (hena : c.mrSettingsEna = true) (h0 : k.since ≠ 0) (hsent : k.sent = true)
    (hrx : i.rxTrigReq = true) (htx : i.txTrigger = false) :
    Sampled c (step c s i) ∧ (step c s i).bst.dataOut = s.bst.dataOut ∧
      (step c s i).bst.dataHaltQ = s.bst.dataHaltQ ∧ (step c s i).bds.sameBitsQ ≤ 5 := by
  obtain ⟨ht, hk, hbst, hbds⟩ := h.between (i := i) hp he hq h0
  have hb : (bstInput c s i).bstTrigger = false := htx
  have hd : (bdsInput c s i).bdsTrigger = true := hrx
  obtain ⟨tx, rx, hs⟩ := h.sending h0 hsent
  obtain ⟨hd1, hd2, hd3, hd4, -⟩ := BitDestuffing.step_sample (d := s.bds) hbds hd rx h.run
  have hout : (step c s i).bst.dataOut = s.bst.dataOut := by
    simp [step, BitStuffing.step, hb]
  have hhalt : (step c s i).bst.dataHaltQ = s.bst.dataHaltQ := by
    simp [step, BitStuffing.step, BitStuffing.dataHalt, hb, tx, hbst.enabled]
  have hrun : (step c s i).bds.sameBitsQ ≤ 5 := by
    have hrun := h.run
    simp only [step, hd1]
    split
    · decide
    · omega
  refine ⟨?_, hout, hhalt, hrun⟩
  have hdest : s.bst.dataHaltQ = (s.bds.sameBitsQ == 5) := by
    cases hs with
    | ahead noSof ahead => exact ahead.halt
    | start noSof state ctr run value halt =>
      rw [halt, run]
      rfl
  constructor
  · exact bst_enablePrev h.stuffEnable
  · exact bds_enablePrev h.destuffEnable
  · rw [hhalt, hdest]
    exact hd4
  · intro hne
    have hne : bdsDataIn c s i ≠ s.bst.dataOut := by
      rw [hout] at hne
      exact fun heq => hne (hd3.trans heq)
    cases ha : s.pc.currState.inArbitration
    · exact .inl (bitErr_control he hx (.inl hq) ha ht hrx hena hne)
    · cases hh : s.bst.dataHaltQ
      · refine .inr (.inr ⟨hhalt.trans hh, by rw [hk.state, ha], fun hb => ?_⟩)
        exact hout.trans ((bdsDataIn_differs hne).2.1 hb).1
      · refine .inr (.inl ?_)
        cases hs with
        | ahead noSof ahead => exact ahead.violation hbds hd rx h.run hne hh
        | start noSof state ctr run value halt =>
          rw [halt] at hh
          cases hh
  · intro heq
    rw [hout] at heq ⊢
    exact hd2.trans (hd3.symm.trans heq)
  · intro heq hn
    have heq : bdsDataIn c s i = s.bst.dataOut := hd3.symm.trans (heq.trans hout)
    cases hs with
    | ahead noSof ahead =>
      have hsame := (BitStuffing.step_quiet (t := s.bst) hbst hb tx noSof).1
      exact hsame.trans (ahead.level hbds hd rx h.run heq).sameBits
    | start noSof =>
      rw [hk.noSof, noSof] at hn
      cases hn
  · intro hn
    cases hs with
    | ahead noSof ahead =>
      rw [hk.noSof, noSof] at hn
      cases hn
    | start noSof state ctr run value halt =>
      refine ⟨hk.state.trans state, hk.ctr ▸ ctr, hhalt.trans halt, ?_⟩
      simp only [step, hd1, hd3, run, value]
      cases (bdsInput c s i).dataIn <;> rfl

end Aligned

/-! ## The cycle in which protocol control takes the bit -/

section Take

variable {c : Config} {k : Clock} {s : State} {i : Input}

/-- No error is requested for the bit taken in this cycle. -/
theorem noErr_next (h : (step c s i).err.errFrmReq = false) :
    s.bed.bitErrQ = false ∧ s.bds.stuffErrQ = false ∧
      (pcRxTrigger s = true → (pcOut c s i).formErrI = false ∧ (pcOut c s i).bitErrArbI = false) := by
  simp [step, ErrDetector.step, ErrDetector.errFrmReqI, errInput] at h
  obtain ⟨⟨⟨⟨⟨⟨hb, hs⟩, hf⟩, -⟩, -⟩, ha⟩, -⟩ := h
  refine ⟨hb, hs, fun ht => ⟨?_, ?_⟩⟩
  · simpa [ht] using hf
  · simpa [ht] using ha

/-- A transmitter that stays one has not lost arbitration. -/
theorem arbitrationLostI_false (he : s.err.errFrmReq = false) (hx : isTransmitter s = true)
    (hq : s.pc.currState.inPlain = true) (hx' : isTransmitter (step c s i) = true) :
    (pcOut c s i).arbitrationLostI = false := by
  have ho := out_plain (c := c) (i := pcInput c s i) he hq
  by_contra hl
  have hoc : s.oc = .transmitter := by simpa [isTransmitter] using hx
  have hs : nextOc c s i ≠ .transmitter := by
    simp only [nextOc, setIdle, setReceiver, ho.setIdleI, ho.setReceiverI, hoc,
      OperationControl.step]
    cases i.isBusOff && pcRxTrigger s <;> simp_all
  exact hs (by simpa [isTransmitter, step] using hx')

theorem Sampled.trigger (h : Sampled c s) (hp : Paced s 0) :
    pcRxTrigger s = !s.bst.dataHaltQ := by
  simp [pcRxTrigger, hp.trigger, h.halt]

/-- The bit taken is the bit sent. -/
theorem Sampled.matched (h : Sampled c s) (hp : Paced s 0) (he : s.err.errFrmReq = false)
    (hx : isTransmitter s = true) (hq : s.pc.currState.inPlain = true)
    (hena : c.mrSettingsEna = true)
    (hc : s.bst.dataHaltQ = false → ∀ b, fixedBit c i.tranMeta s.pc.currState = some b →
      s.bst.dataOut = b)
    (he' : (step c s i).err.errFrmReq = false) (hx' : isTransmitter (step c s i) = true) :
    s.bds.dataOut = s.bst.dataOut := by
  obtain ⟨hbit, hstuff, hpc⟩ := noErr_next he'
  have hlost := arbitrationLostI_false he hx hq hx'
  by_contra hne
  rcases h.detected hne with hd | hd | ⟨hh, ha, hbmm⟩
  · rw [hbit] at hd
    cases hd
  · rw [hstuff] at hd
    cases hd
  have ht : pcRxTrigger s = true := by rw [h.trigger hp, hh]; rfl
  have hw : txDataWbs c s = s.bst.dataOut := by
    simp only [txDataWbs, hena]
    cases hb : c.mrModeBmm
    · rfl
    · exact (hbmm hb).symm
  obtain ⟨hform, harb⟩ := hpc ht
  rw [pcOut_noErr he] at hform harb hlost
  have hwi : (pcInput c s i).txDataWbs = s.bst.dataOut := hw
  -- either the bit was sent recessive and arbitration is lost, or it is an error
  have hcond : s.bst.dataOut = true → arbitrationLostCondition (pcInput c s i) = true := by
    intro ho
    have hr : s.bds.dataOut = false := by simpa [ho] using hne
    simp [arbitrationLostCondition, hx, hwi, ho, hr, ht]
  have hrec : s.bst.dataOut = false → s.bds.dataOut = true := fun ho => by simpa [ho] using hne
  cases hs : s.pc.currState <;> rw [hs] at ha hc hform harb hlost <;>
    first | exact absurd ha (by decide) | skip
  case sof =>
    have ho := hc hh false rfl
    simp [outState, outSof, hrec ho] at hform
  case ide =>
    have ho := hc hh i.tranMeta.tranIdentType rfl
    cases hb : s.bst.dataOut
    · simp [outState, outIde, hwi, hb, hrec hb] at harb
    · have hid : ideIsArbitration (pcInput c s i) = true := by
        simp [ideIsArbitration, pcInput, ← ho, hb]
      simp [outState, outIde, hid, hcond hb] at hlost
  all_goals
    cases hb : s.bst.dataOut
    · simp [outState, outBaseId, outRtrSrrR1, outExtId, outRtrR1, hwi, hb, hrec hb] at harb
    · simp [outState, outBaseId, outRtrSrrR1, outExtId, outRtrR1, hcond hb] at hlost

/-- A transmitter that sees its own bits takes no protocol exception. -/
theorem Sampled.noException (h : Sampled c s) (hp : Paced s 0) (he : s.err.errFrmReq = false)
    (hq : s.pc.currState.inPlain = true)
    (hc : s.bst.dataHaltQ = false → ∀ b, fixedBit c i.tranMeta s.pc.currState = some b →
      s.bst.dataOut = b)
    (heq : s.bds.dataOut = s.bst.dataOut) (ht : pcRxTrigger s = true) :
    (out c s.pc (pcInput c s i)).destuffEnableClear = false := by
  have hh : s.bst.dataHaltQ = false := by simpa [h.trigger hp] using ht
  rw [out_state he]
  cases hs : s.pc.currState <;> rw [hs] at hq hc <;>
    first | exact absurd hq (by decide) | rfl | skip
  case r0Fd =>
    have hb := hc hh false rfl
    simp [outState, outR0Fd, heq, hb]
  all_goals
    have hb := hc hh _ rfl
    simp only [outState, outEdlR1, outEdlR0, pcInput_rxDataNbs, heq, hb]
    grind

theorem Sampled.destuffEnable_kept (h : Sampled c s) (hp : Paced s 0)
    (he : s.err.errFrmReq = false) (hq : s.pc.currState.inPlain = true)
    (hc : s.bst.dataHaltQ = false → ∀ b, fixedBit c i.tranMeta s.pc.currState = some b →
      s.bst.dataOut = b)
    (heq : s.bds.dataOut = s.bst.dataOut) :
    (step c s i).pc.destuffEnable = s.pc.destuffEnable := by
  cases ht : pcRxTrigger s
  · exact (kept_plain he hq ht).destuffEnable
  · have ho := out_plain (c := c) (i := pcInput c s i) he hq
    have hclear := h.noException hp he hq hc heq ht
    simp [step, ProtocolControl.step, ctrlSignalUpd, ht, he, hclear, ho.destuffEnableSet]

theorem Sampled.stuffEnable_kept (he : s.err.errFrmReq = false) (hx : isTransmitter s = true)
    (hq : s.pc.currState.inPlain = true) (hx' : isTransmitter (step c s i) = true) :
    (step c s i).pc.stuffEnable = s.pc.stuffEnable := by
  have ho := out_plain (c := c) (i := pcInput c s i) he hq
  have hlost : (out c s.pc (pcInput c s i)).arbitrationLostI = false :=
    arbitrationLostI_false he hx hq hx'
  simp [step, ProtocolControl.step, ho.stuffEnableSet, ho.stuffEnableClear, hlost]

theorem Sampled.waiting (h : Sampled c s) (hp : Paced s 0) (he : s.err.errFrmReq = false)
    (hx : isTransmitter s = true) (hq : s.pc.currState.inPlain = true)
    (hen : s.pc.stuffEnable = true) (hden : s.pc.destuffEnable = true)
    (heq : s.bds.dataOut = s.bst.dataOut) (hrx : i.rxTrigReq = false)
    (htx : i.txTrigger = false) : Waiting (step c s i) := by
  have ho := out_plain (c := c) (i := pcInput c s i) he hq
  have hbst := bst_regular (c := c) (i := i) he hq hen
  have hbds := bds_regular (c := c) (i := i) he hq hden
  have hb : (bstInput c s i).bstTrigger = false := htx
  have hd : (bdsInput c s i).bdsTrigger = false := hrx
  obtain ⟨hd1, hd2, -⟩ := BitDestuffing.step_quiet (d := s.bds) hbds hd (.inl h.rx)
  have hout : (step c s i).bst.dataOut = s.bst.dataOut := by simp [step, BitStuffing.step, hb]
  have hvalue : (step c s i).bst.dataOut = (step c s i).bds.prevValQ :=
    hout.trans ((h.value heq).symm.trans hd2.symm)
  cases hn : s.pc.txFrameNoSofQ
  · have hn' : (step c s i).pc.txFrameNoSofQ = false := by
      simp [step, ProtocolControl.step, ho.txFrameNoSofD, hn]
    obtain ⟨ht1, -, -⟩ := BitStuffing.step_quiet (t := s.bst) hbst hb h.tx hn
    exact .level hn' ⟨ht1.trans ((h.level heq hn).trans hd1.symm), hvalue⟩
      (.inl (bst_enablePrev hen)) (.inl (bds_enablePrev hden))
  · obtain ⟨hs, hctr, hh, hrun⟩ := h.start hn
    have ht : pcRxTrigger s = true := by rw [h.trigger hp, hh]; rfl
    have hn' : (step c s i).pc.txFrameNoSofQ = false := by
      simp [step, ProtocolControl.step, ho.txFrameNoSofD, ht]
    have hz : s.ctr.ctrlCtrZero = false := by simp [ControlCounter.ctrlCtrZero, hctr]
    have hs' : (step c s i).pc.currState = .baseId := by
      simp [step, ProtocolControl.step, out_state he, hs,
        outState, outBaseId, hz]
    have htxs : (step c s i).txs = s.txs := by
      simp [step, TxShiftReg.step, ht, txsInput, pcTxTrigger, htx, TxShiftReg.pload,
        pcOut_noErr he, hs, outState, outBaseId]
    have hin : txDataNbs c s i = s.txs.getLsbD 31 := txDataNbs_shifted he hx (by rw [hs]; rfl)
    have hsame : (step c s i).bst.sameBitsQ = if s.txs.getLsbD 31 then 1 else 2 := by
      rw [← hin]
      exact BitStuffing.step_noSof (t := s.bst) hbst hn
    have hrun' : (step c s i).bds.sameBitsQ = if s.bst.dataOut then 1 else 2 := by
      rw [← heq]
      exact hd1.trans hrun
    by_cases hnext : s.txs.getLsbD 31 = s.bst.dataOut
    · refine .level hn' ⟨?_, hvalue⟩ (.inl (bst_enablePrev hen)) (.inl (bds_enablePrev hden))
      rw [hsame, hrun', hnext]
    · refine .second hn' hs' (bst_enablePrev hen) (bds_enablePrev hden) hvalue ?_ ?_ ?_
      · rw [hsame]
        split <;> decide
      · rw [hrun']
        split <;> decide
      · rwa [htxs, hout]

end Take

end CanCore
