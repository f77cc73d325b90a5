import CtuCanFd.Core.CanCrc
import CtuCanFd.Core.Following
import CtuCanFd.Core.StuffLink

/-!
# What the CRC covers

Transmitter and receivers see a frame as the bits they sample, each of them a bit of the
frame or a stuff bit. The CRC registers take in these bits from SOF on, once each and in
order, although a transmitter feeds them with the bits it sends as soon as arbitration is
over: a bit is then taken in when it is sent, before it is sampled.
-/

open ProtocolControl SyncMachine

/-- Behind the fields covered by the CRC, up to the end of frame. -/
def ProtocolControl.PcState.behindCovered : PcState → Bool
  | .crc | .crcDelim | .ack | .ackFd1 | .ackFd2 | .ackDelim | .eof => true
  | _ => false

namespace CanCore

/-! ## The bits of a frame -/

/-- A bit sampled in a frame, whether it is a stuff bit, and whether it is in a field with
fixed stuffing. -/
structure FrameBit where
  bit : Bool
  stuff : Bool
  fixed : Bool
deriving DecidableEq, Repr

/-- Bits without stuff bits. -/
def nbs (v : List FrameBit) : List Bool := (v.filter fun b => !b.stuff).map FrameBit.bit

/-- Bits without fixed stuff bits. -/
def wbs (v : List FrameBit) : List Bool := (v.filter fun b => !(b.stuff && b.fixed)).map FrameBit.bit

theorem nbs_concat (v : List FrameBit) (b : FrameBit) :
    nbs (v ++ [b]) = nbs v ++ if b.stuff then [] else [b.bit] := by
  cases h : b.stuff <;> simp [nbs, h]

theorem wbs_concat (v : List FrameBit) (b : FrameBit) :
    wbs (v ++ [b]) = wbs v ++ if b.stuff && b.fixed then [] else [b.bit] := by
  cases hs : b.stuff <;> cases hf : b.fixed <;> simp [wbs, hs, hf]

/-- The bits sampled since SOF, up to the end of the data field or the stuff count. SOF is
sampled in its own state, or is the dominant bit that ends the pause. -/
def seen (c : Config) (v : List FrameBit) (s : State) (i : Input) : List FrameBit :=
  if s.err.errFrmReq then v
  else if s.pc.currState.inCovered then
    if s.rxTrigReqQ then
      v ++ [⟨s.bds.dataOut, s.bds.destuffedQ, (pcOut c s i).fixedStuff⟩]
    else v
  else if s.pc.currState.inPause && pcRxTrigger s then
    if (step c s i).pc.currState = .baseId then [⟨s.bds.dataOut, false, false⟩] else []
  else v

/-! ## The bits taken in -/

section Taken

variable {c : Config} {k : Clock} {s : State} {i : Input} {r : CanCrc} {x y : List Bool}

/-- The registers hold the CRC of `x`, a list of bits without stuff bits, and of `y`, a list
of bits with stuff bits. -/
structure Holds (c : Config) (r : CanCrc) (x y : List Bool) : Prop where
  crc15 : r.crc15 = CrcCalc.ofBits CanCrc.crc15Pol false x
  crc17 : r.crc17 = CrcCalc.ofBits CanCrc.crc17Pol (!c.mrSettingsNisofd) y
  crc21 : r.crc21 = CrcCalc.ofBits CanCrc.crc21Pol (!c.mrSettingsNisofd) y

/-- What one cycle adds to the bits a CRC was calculated over. -/
def taken (load enable trig bit : Bool) (x : List Bool) : List Bool :=
  if load then [] else if enable && trig then x ++ [bit] else x

theorem step_over {w : Nat} (pol : BitVec w) (msb load enable trig bit : Bool) (x : List Bool) :
    CrcCalc.step pol (CrcCalc.ofBits pol msb x) bit trig enable msb load =
      CrcCalc.ofBits pol msb (taken load enable trig bit x) := by
  simp only [CrcCalc.step, taken]
  split
  · rfl
  · split
    · simp [CrcCalc.ofBits]
    · rfl

theorem Holds.next (h : Holds c r x y) :
    Holds c (r.next c s i)
      (taken (CanCrc.load c s i) (CanCrc.crcEna15 c s i) (CanCrc.crc15Trigger c s i)
        (CanCrc.crc15DataIn c s i) x)
      (taken (CanCrc.load c s i) (CanCrc.crcEna1721 c s i r) (CanCrc.crc1721Trigger c s i r)
        (CanCrc.crc1721DataIn c s i r) y) where
  crc15 := by rw [CanCrc.next, h.crc15, step_over]
  crc17 := by rw [CanCrc.next, h.crc17, step_over]
  crc21 := by rw [CanCrc.next, h.crc21, step_over]

/-- The initial value is loaded. -/
theorem Holds.of_load (h : CanCrc.load c s i = true) : Holds c (r.next c s i) [] [] := by
  constructor <;> simp [CanCrc.next, CrcCalc.step, h, CrcCalc.ofBits]

theorem covered_enable (he : s.err.errFrmReq = false) (hq : s.pc.currState.inCovered = true) :
    CanCrc.load c s i = false ∧ CanCrc.crcEna15 c s i = true ∧ CanCrc.crcEna1721 c s i r = true := by
  simp only [CanCrc.load, loadInitVect, CanCrc.crcEna15, CanCrc.crcEna1721, crcEnable,
    pcInput_errFrmReq, he]
  cases hs : s.pc.currState <;> rw [hs] at hq <;> 
    first | exact absurd hq (by decide) | simp [PcState.inCovered]

/-- A receiver, and a transmitter during arbitration, takes in the bits it samples. -/
theorem Holds.next_rx (h : Holds c r x y) (he : s.err.errFrmReq = false)
    (hq : s.pc.currState.inCovered = true) (hrx : CanCrc.fromRx c s i = true) :
    Holds c (r.next c s i)
      (if s.rxTrigReqQ && !s.bds.destuffedQ then x ++ [s.bds.dataOut] else x)
      (if s.rxTrigReqQ && !((pcOut c s i).fixedStuff && s.bds.destuffedQ) then
        y ++ [r.crcDataRxWbs] else y) := by
  obtain ⟨hl, h15, h17⟩ := covered_enable (c := c) (i := i) (r := r) he hq
  have hn := h.next (s := s) (i := i)
  simpa [taken, hl, h15, h17, CanCrc.crc15Trigger, CanCrc.crc15DataIn, CanCrc.crc1721Trigger,
    CanCrc.crc1721DataIn, hrx, CanCrc.crcTrigRxNbs, CanCrc.crcTrigRxWbs, and_comm] using hn

/-- After arbitration a transmitter takes in the bits it sends. -/
theorem Holds.next_tx (h : Holds c r x y) (he : s.err.errFrmReq = false)
    (hq : s.pc.currState.inCovered = true) (hrx : CanCrc.fromRx c s i = false) :
    Holds c (r.next c s i)
      (if i.txTrigger && !s.bst.dataHalt (bstInput c s i) then x ++ [txDataNbs c s i] else x)
      (if r.txTriggerQ && !((pcOut c s i).fixedStuff && s.bst.dataHalt (bstInput c s i)) then
        y ++ [s.bst.dataOut] else y) := by
  obtain ⟨hl, h15, h17⟩ := covered_enable (c := c) (i := i) (r := r) he hq
  have hn := h.next (s := s) (i := i)
  simpa [taken, hl, h15, h17, CanCrc.crc15Trigger, CanCrc.crc15DataIn, CanCrc.crc1721Trigger,
    CanCrc.crc1721DataIn, hrx, CanCrc.crcTrigTxNbs, CanCrc.crcTrigTxWbs, and_comm] using hn

/-- Outside the covered fields and the states a frame starts from nothing is taken in. -/
theorem Holds.next_idle (h : Holds c r x y) (hq : s.pc.currState.inCovered = false)
    (hp : s.pc.currState.inPause = false) (hl : CanCrc.load c s i = false) :
    Holds c (r.next c s i) x y := by
  have hena : crcEnable s.pc (pcInput c s i) = false ∧
      crcSpecEnable s.pc (pcInput c s i) = false := by
    simp only [crcEnable, crcSpecEnable]
    cases hs : s.pc.currState <;> rw [hs] at hq hp <;>
      first
        | exact absurd hq (by decide)
        | exact absurd hp (by decide)
        | simp [PcState.inCovered]
  have hn := h.next (s := s) (i := i)
  simpa [taken, hl, CanCrc.crcEna15, CanCrc.crcEna1721, hena.1, hena.2] using hn

end Taken

/-! ## Fixed stuffing

In the stuff count the runs of both circuits count bits whatever their value, so that they
agree on the stuff bits even where the bits differ; a bit that differs is a bit error.
-/

section Fixed

variable {t : BitStuffing} {d : BitDestuffing} {a : BitStuffing.Input} {b : BitDestuffing.Input}

/-- Every bit sent was sampled. -/
structure FixedLevel (t : BitStuffing) (d : BitDestuffing) : Prop where
  fixed : t.fixedRegQ = d.fixedPrevQ
  same : t.sameBitsQ = d.sameBitsQ

/-- One bit was sent and not sampled yet. -/
structure FixedAhead (t : BitStuffing) (d : BitDestuffing) : Prop where
  fixed : t.fixedRegQ = true
  halt : t.dataHaltQ = (!d.fixedPrevQ || d.sameBitsQ == 5)
  same : t.sameBitsQ = if t.dataHaltQ then 1 else d.sameBitsQ + 1

theorem stuffing_held (ht : a.bstTrigger = false) (he : a.stuffEnable = true)
    (hn : a.txFrameNoSof = false) (hp : t.enablePrev = true) : t.step a = t := by
  obtain ⟨en, fx, ctr, sm, out, hq⟩ := t
  simp_all [BitStuffing.step, BitStuffing.sameBitsD, BitStuffing.sameBitsRst,
    BitStuffing.dataHalt]

theorem FixedLevel.send (h : FixedLevel t d) (low : d.sameBitsQ ≤ 5) (hp : t.enablePrev = true)
    (ht : a.bstTrigger = true) (he : a.stuffEnable = true) (hf : a.fixedStuff = true)
    (hn : a.txFrameNoSof = false) :
    FixedAhead (t.step a) d ∧ ((t.step a).dataHaltQ = false → (t.step a).dataOut = a.dataIn) := by
  have hhalt : (t.step a).dataHaltQ = (!d.fixedPrevQ || d.sameBitsQ == 5) := by
    simp [BitStuffing.step, BitStuffing.dataHalt, BitStuffing.insertStuffBit,
      BitStuffing.nonFixToFixChng, BitStuffing.stuffLvlReached, hp, ht, he, hf, h.fixed, h.same]
  have hins : t.insertStuffBit a = (t.step a).dataHaltQ := by
    simp [BitStuffing.step, BitStuffing.dataHalt, hp, ht, he]
  refine ⟨⟨by simp [BitStuffing.step, he, hp, ht, hf], hhalt, ?_⟩, fun hh => ?_⟩
  · have hrst : t.sameBitsRst a = (t.step a).dataHaltQ := by
      rw [← hins]
      simp [BitStuffing.sameBitsRst, BitStuffing.insertStuffBit, hp, ht, hf]
    have hlt : (d.sameBitsQ + 1) % 8 = d.sameBitsQ + 1 := by omega
    have hsame : (t.step a).sameBitsQ = t.sameBitsD a := by simp [BitStuffing.step, he]
    rw [hsame]
    simp [BitStuffing.sameBitsD, hn, hrst, ht, h.same, hlt]
  · rw [hh] at hins
    simp [BitStuffing.step, ht, hins]

theorem FixedAhead.sample (h : FixedAhead t d) (low : d.sameBitsQ ≤ 5)
    (hp : d.enablePrev = true) (ht : b.bdsTrigger = true) (he : b.destuffEnable = true)
    (hf : b.fixedStuff = true) :
    FixedLevel t (d.step b) ∧ (d.step b).destuffedQ = t.dataHaltQ ∧
      (d.step b).sameBitsQ ≤ 5 ∧ (d.step b).dataOut = b.dataIn := by
  have hdis : d.discardStuffBit b = t.dataHaltQ := by
    rw [h.halt]
    simp [BitDestuffing.discardStuffBit, BitDestuffing.nonFixToFixChng,
      BitDestuffing.stuffLvlReached, hf]
  have hlt : (d.sameBitsQ + 1) % 8 = d.sameBitsQ + 1 := by omega
  have hsame : (d.step b).sameBitsQ = if t.dataHaltQ then 1 else d.sameBitsQ + 1 := by
    simp [BitDestuffing.step, BitDestuffing.sameBitsErase, he, hp, ht, hdis, hf, hlt]
  refine ⟨⟨?_, h.same.trans hsame.symm⟩, ?_, ?_, ?_⟩
  · simp [BitDestuffing.step, he, hp, ht, hf, h.fixed]
  · simp [BitDestuffing.step, he, ht, hdis]
  · rw [hsame]
    split
    · decide
    · rename_i hh
      have h5 : d.sameBitsQ ≠ 5 := by
        intro h5
        exact hh (by simp [h.halt, h5])
      omega
  · simp [BitDestuffing.step, ht]

variable {c : Config} {k : Clock} {s : State} {i : Input}

/-- A transmitter in the stuff count. -/
structure FixedLead (k : Clock) (s : State) : Prop where
  stuffEnable : s.pc.stuffEnable = true
  destuffEnable : s.pc.destuffEnable = true
  noSof : s.pc.txFrameNoSofQ = false
  tx : s.bst.enablePrev = true
  rx : s.bds.enablePrev = true
  low : s.bds.sameBitsQ ≤ 5
  level : k.sent = false → FixedLevel s.bst s.bds
  ahead : k.sent = true → FixedAhead s.bst s.bds
  sampled : k.since = 0 → s.bds.destuffedQ = s.bst.dataHaltQ ∧
    (s.bds.dataOut ≠ s.bst.dataOut → s.bed.bitErrQ = true)

theorem FixedLead.step (h : FixedLead k s) (hf : Following c k s) (hok : Bench k s i)
    (hena : c.mrSettingsEna = true) (he : s.err.errFrmReq = false) (hx : isTransmitter s = true)
    (hq : s.pc.currState = .stuffCount) : FixedLead (k.next s i) (step c s i) := by
  have ho : pcOut c s i = outStuffCount c (pcInput c s i) := by
    rw [pcOut_noErr he, hq]
    rfl
  have hbst : (bstInput c s i).stuffEnable = true ∧ (bstInput c s i).fixedStuff = true ∧
      (bstInput c s i).txFrameNoSof = false :=
    ⟨h.stuffEnable, by simp [bstInput, ho, outStuffCount], h.noSof⟩
  have hbds : (bdsInput c s i).destuffEnable = true ∧ (bdsInput c s i).fixedStuff = true :=
    ⟨h.destuffEnable, by simp [bdsInput, ho, outStuffCount]⟩
  have ho : out c s.pc (pcInput c s i) = outStuffCount c (pcInput c s i) := ho
  have hen : (CanCore.step c s i).pc.stuffEnable = true := by
    simp [CanCore.step, ProtocolControl.step, ho, outStuffCount, h.stuffEnable]
  have hden : (CanCore.step c s i).pc.destuffEnable = true := by
    simp [CanCore.step, ProtocolControl.step, ho, outStuffCount, h.destuffEnable]
  have hn : (CanCore.step c s i).pc.txFrameNoSofQ = false := by
    simp [CanCore.step, ProtocolControl.step, ho, outStuffCount, h.noSof]
  have htx := bst_enablePrev (c := c) (i := i) h.stuffEnable
  have hrx := bds_enablePrev (c := c) (i := i) h.destuffEnable
  -- both circuits rest when there is no trigger for them
  have hbst_held : i.txTrigger = false → (CanCore.step c s i).bst = s.bst := fun ht =>
    stuffing_held (a := bstInput c s i) ht hbst.1 hbst.2.2 h.tx
  have hbds_held : i.rxTrigReq = false →
      (CanCore.step c s i).bds = { s.bds with stuffErrQ := false } := fun ht =>
    StuffLink.destuffing_quiet (j := bdsInput c s i) ht hbds.1 h.rx
  by_cases hsample : i.rxTrigReq = true
  · obtain ⟨hsent, hsince⟩ := hok.sample hsample
    have hsend : i.txTrigger = false := by
      by_contra hsend
      rw [(hok.send (by simpa using hsend)).1] at hsent
      cases hsent
    have hq' : s.pc.currState.inPlain = true ∨ s.pc.currState = .stuffCount := .inr hq
    obtain ⟨hlv, hdest, hlow, hout⟩ := (h.ahead hsent).sample (b := bdsInput c s i) h.low h.rx hsample
      hbds.1 hbds.2
    have hnext : (k.next s i).sent = false := by simp [Clock.next, hsample]
    refine ⟨hen, hden, hn, htx, hrx, hlow, fun _ => ?_, fun hs => ?_, fun _ => ?_⟩
    · rw [hbst_held hsend]
      exact hlv
    · rw [hnext] at hs
      cases hs
    · rw [hbst_held hsend]
      refine ⟨hdest, fun hne => ?_⟩
      have hne : bdsDataIn c s i ≠ s.bst.dataOut := fun heq => hne (hout.trans heq)
      exact bitErr_control he hx hq' (by rw [hq]; rfl) (hf.paced.noTrigger (by omega)) hsample
        hena hne
  · have hsample : i.rxTrigReq = false := by simpa using hsample
    have hsince : (k.next s i).since ≠ 0 := by simp [Clock.next, sinceSample, hsample]
    have hbds' := hbds_held hsample
    have hlow : (CanCore.step c s i).bds.sameBitsQ ≤ 5 := by
      rw [hbds']
      exact h.low
    by_cases hsend : i.txTrigger = true
    · have hlv := h.level (hok.send hsend).1
      obtain ⟨hah, -⟩ := hlv.send (a := bstInput c s i) h.low h.tx hsend hbst.1 hbst.2.1 hbst.2.2
      have hnext : (k.next s i).sent = true := by simp [Clock.next, hsample, hsend]
      refine ⟨hen, hden, hn, htx, hrx, hlow, fun hs => ?_, fun _ => ?_, fun hz => absurd hz hsince⟩
      · rw [hnext] at hs
        cases hs
      · rw [hbds']
        exact ⟨hah.fixed, hah.halt, hah.same⟩
    · have hsend : i.txTrigger = false := by simpa using hsend
      have hnext : (k.next s i).sent = k.sent := by simp [Clock.next, hsample, hsend]
      refine ⟨hen, hden, hn, htx, hrx, hlow, fun hs => ?_, fun hs => ?_, fun hz => absurd hz hsince⟩
      · rw [hbds', hbst_held hsend]
        exact ⟨(h.level (hnext ▸ hs)).fixed, (h.level (hnext ▸ hs)).same⟩
      · rw [hbds', hbst_held hsend]
        have hah := h.ahead (hnext ▸ hs)
        exact ⟨hah.fixed, hah.halt, hah.same⟩

end Fixed

/-! ## Where the bits come from -/

section Source

variable {c : Config} {k : Clock} {s : State} {i : Input} {r : CanCrc}

/-- A transmitter that takes in the bits it sends. -/
def ownBits (k : Clock) (s : State) : Bool :=
  isTransmitter s &&
    match s.pc.currState with
    | .baseId | .rtrSrrR1 | .extId | .rtrR1 => false
    | .ide => !k.held.any fun m => m.tranIdentType
    | _ => true

/-- The bit of this bit time is on the bus. -/
def bitSent (k : Clock) : Bool := k.sent || k.since == 0

/-- The bit on the bus, taken in before it is sampled. -/
def aheadNbs (k : Clock) (s : State) : List Bool :=
  if ownBits k s && bitSent k && !s.bst.dataHaltQ then [s.bst.dataOut] else []

/-- As for CRC15, but one cycle later and with regular stuff bits. -/
def aheadWbs (k : Clock) (s : State) (r : CanCrc) : List Bool :=
  if ownBits k s && bitSent k && !r.txTriggerQ &&
      !(s.pc.currState == .stuffCount && s.bst.dataHaltQ) then [s.bst.dataOut] else []

theorem fromRx_eq (hok : Bench k s i) (he : s.err.errFrmReq = false)
    (hq : s.pc.currState.inCovered = true)
    (hrole : isTransmitter s = true ∨ isReceiver s = true)
    (hheld : s.pc.currState = .ide → isTransmitter s = true → k.held ≠ none) :
    CanCrc.fromRx c s i = !ownBits k s := by
  have hrec : isReceiver s = !isTransmitter s := by
    simp only [isTransmitter, isReceiver] at hrole ⊢
    cases hoc : s.oc <;> simp_all
  simp only [CanCrc.fromRx, crcCalcFromRx, crcSpecEnable, isArbitration, ownBits,
    pcInput_errFrmReq, he, pcInput_isReceiver, hrec]
  cases hs : s.pc.currState <;> rw [hs] at hq <;>
    first | exact absurd hq (by decide) | simp
  cases hx : isTransmitter s
  · simp
  · obtain ⟨m, hm⟩ := Option.ne_none_iff_exists'.mp (hheld hs hx)
    have hmeta := hok.held m hm hx (by rw [hs]; rfl)
    simp [ideIsArbitration, pcInput, hm, hmeta, hrec, hx]

/-- A transmitter that takes in its own bits cannot lose arbitration. -/
theorem ownBits_stays (hok : Bench k s i) (he : s.err.errFrmReq = false)
    (hq : s.pc.currState.inCovered = true)
    (hheld : s.pc.currState = .ide → isTransmitter s = true → k.held ≠ none)
    (ho : ownBits k s = true) : isTransmitter (step c s i) = true := by
  have hx : isTransmitter s = true := by
    simp only [ownBits, Bool.and_eq_true] at ho
    exact ho.1
  have hst : ∀ st : PcState, st.inCovered → st.inStuffed := by decide
  have hl : (out c s.pc (pcInput c s i)).arbitrationLostI = false := by
    rw [out_state he]
    simp only [ownBits] at ho
    cases hs : s.pc.currState <;> rw [hs] at hq ho <;>
      first | exact absurd hq (by decide) | rfl | simp at ho
    obtain ⟨m, hm⟩ := Option.ne_none_iff_exists'.mp (hheld hs hx)
    have hmeta := hok.held m hm hx (by rw [hs]; rfl)
    have hrec : isReceiver s = false := by
      simp only [isTransmitter, isReceiver, beq_iff_eq] at hx ⊢
      rw [hx]
      rfl
    have hid : ideIsArbitration (pcInput c s i) = false := by
      simp [hm] at ho
      simp [ideIsArbitration, pcInput, hmeta, ho.2, hrec]
    simp [outState, outIde, hid]
  exact transmitter_stays hok he (hst _ hq) hx hl

end Source

/-! ## Where a frame starts -/

section Start

variable {c : Config} {k : Clock} {s : State} {i : Input} {r : CanCrc}

/-- A frame may start with the next bit. -/
def mayStart (s : State) : Bool :=
  match s.pc.currState with
  | .idle | .suspend => true
  | .intermission => s.ctr.ctrlCtrZero
  | _ => false

theorem mayStart_pause (h : mayStart s = true) : s.pc.currState.inPause = true := by
  simp only [mayStart] at h
  cases hs : s.pc.currState <;> rw [hs] at h <;> first | rfl | cases h

/-- The intermission starts with three bits to go. -/
theorem enter_intermission (he : s.err.errFrmReq = false) (ht : pcRxTrigger s = true)
    (hq : s.pc.currState ≠ .intermission) (h' : (step c s i).pc.currState = .intermission) :
    (step c s i).ctr.ctrlCtrQ = 2 := by
  have hedge : ∀ st : PcState, .intermission ∈ st.successors →
      st = .eof ∨ st = .errDelim ∨ st = .ovrDelim := by decide
  have hu : ctrlSignalUpd (pcInput c s i) = true := by simp [ctrlSignalUpd, ht]
  rcases state_cases (c := c) (i := i) he with hs | ⟨-, hs⟩
  · exact absurd (hs.symm.trans h') hq
  have hn : nextState c s.pc (pcInput c s i) = .intermission := hs.symm.trans h'
  have hmem := (nextState_flow (c := c) (q := s.pc) (i := pcInput c s i) he).resolve_left
    fun hst => hq (hst.symm.trans hn)
  rw [hn] at hmem
  simp only [step, nextCtr, ControlCounter.step, ctrlCtrPload, hu]
  simp only [pcOut, out_state he]
  rcases hedge _ hmem with hst | hst | hst <;> rw [hst] <;>
    simp [nextState, he, hst] at hn <;> simp [outState, outEof, outDelim] <;> grind

/-- Before a frame the initial value is loaded, and only recessive bits are sampled from
then on. -/
theorem mayStart_before (h' : mayStart (step c s i) = true) :
    s.err.errFrmReq = false ∧
      (CanCrc.load c s i = true ∨
        (mayStart s = true ∧ (pcRxTrigger s = true → s.bds.dataOut = true))) := by
  have hp' := mayStart_pause h'
  obtain ⟨he, -⟩ := enter_pause (c := c) (q := s.pc) (i := pcInput c s i) hp'
  refine ⟨he, ?_⟩
  have he : s.err.errFrmReq = false := he
  cases ht : pcRxTrigger s
  · have hs : (step c s i).pc.currState = s.pc.currState := step_hold ht he
    have hk := kept_between (c := c) (i := i) he (.inr (hs ▸ hp')) ht
    refine .inr ⟨?_, nofun⟩
    simpa [mayStart, hs, hk.ctr] using h'
  · have hn : (step c s i).pc.currState = nextState c s.pc (pcInput c s i) := by
      refine step_sample ht he fun hst => ?_
      have hs : (step c s i).pc.currState = s.pc.currState := step_stalled ht he hst
      rw [hs] at hp'
      rcases hst with ⟨hst, -⟩ | ⟨hst, -⟩ <;> rw [hst] at hp' <;> cases hp'
    by_cases hi : (step c s i).pc.currState = .intermission
    · by_cases hq : s.pc.currState = .intermission
      · -- the counter is not zero, or the intermission would be over
        rw [hi] at hn
        simp only [nextState, he, hq, pcInput_errFrmReq, pcInput_ctrlCtrZero] at hn
        have hz : s.ctr.ctrlCtrZero = false := by grind
        simp [CanCrc.load, loadInitVect, ht, he, hq, hz]
      · have h2 := enter_intermission he ht hq hi
        simp [mayStart, hi, ControlCounter.ctrlCtrZero, h2] at h'
    · have hedge : ∀ st q : PcState, st = .idle ∨ st = .suspend → st = q ∨ st ∈ q.successors →
          q = .idle ∨ q = .suspend ∨ q = .integrating ∨ q = .intermission ∨ q = .reintegrating := by
        decide +kernel
      have hto : (step c s i).pc.currState = .idle ∨ (step c s i).pc.currState = .suspend := by
        cases hs : (step c s i).pc.currState <;> rw [hs] at hp' hi <;>
          first | exact absurd hp' (by decide) | exact absurd rfl hi | decide
      have hflow := nextState_flow (c := c) (q := s.pc) (i := pcInput c s i) he
      rw [← hn] at hflow
      rcases hedge _ _ hto hflow with hq | hq | hq | hq | hq <;>
        simp only [nextState, he, hq, pcInput_errFrmReq, pcInput_ctrlCtrZero,
          pcInput_rxDataNbs] at hn <;>
        simp only [CanCrc.load, loadInitVect, mayStart, hq, he, ht, pcInput_errFrmReq,
          pcInput_ctrlCtrZero, pcInput_rxTrigger] <;> grind

/-- A frame starts with a dominant bit in place of SOF, or with an own SOF after a recessive
one. -/
theorem start_bit (he : s.err.errFrmReq = false) (hq : s.pc.currState.inPause = true)
    (ht : pcRxTrigger s = true) (h' : (step c s i).pc.currState.inPlain = true) :
    mayStart s = true ∧ CanCrc.load c s i = false ∧
      crcSpecEnable s.pc (pcInput c s i) = true ∧
      ((step c s i).pc.currState = .baseId ∧ s.bds.dataOut = false ∨
        (step c s i).pc.currState = .sof ∧ s.bds.dataOut = true) := by
  have hn : (step c s i).pc.currState = nextState c s.pc (pcInput c s i) := by
    refine step_sample ht he fun hst => ?_
    rcases hst with ⟨hst, -⟩ | ⟨hst, -⟩ <;> rw [hst] at hq <;> cases hq
  rw [hn] at h' ⊢
  cases hs : s.pc.currState <;> rw [hs] at hq <;> first | exact absurd hq (by decide) | skip
  all_goals
    simp only [nextState, he, hs, pcInput_errFrmReq, pcInput_ctrlCtrZero, pcInput_rxDataNbs] at h' ⊢
    simp only [CanCrc.load, loadInitVect, crcSpecEnable, mayStart, hs, he, pcInput_errFrmReq,
      pcInput_ctrlCtrZero]
    grind [PcState.inPlain]

/-- A frame does not start with a recessive bit: nothing is taken in. -/
theorem Holds.next_recessive {x y : List Bool} (h : Holds c r x y) (hm : mayStart s = true)
    (hl : CanCrc.load c s i = false)
    (hbit : s.rxTrigReqQ = true → s.bds.dataOut = true ∧ r.crcDataRxWbs = true) :
    Holds c (r.next c s i) x y := by
  have hp := mayStart_pause hm
  have hn := h.next (s := s) (i := i)
  have hena : (CanCrc.crcEna15 c s i && CanCrc.crc15Trigger c s i) = false ∧
      (CanCrc.crcEna1721 c s i r && CanCrc.crc1721Trigger c s i r) = false := by
    cases hspec : crcSpecEnable s.pc (pcInput c s i)
    · have hen : crcEnable s.pc (pcInput c s i) = false := by
        simp only [crcSpecEnable] at hspec
        simp only [crcEnable]
        cases hs : s.pc.currState <;> rw [hs] at hp hspec <;>
          first | exact absurd hp (by decide) | simp_all [PcState.inCovered]
      simp [CanCrc.crcEna15, CanCrc.crcEna1721, hspec, hen]
    · have hfrom : CanCrc.fromRx c s i = true := by simp [CanCrc.fromRx, crcCalcFromRx, hspec]
      cases hrq : s.rxTrigReqQ
      · simp [CanCrc.crc15Trigger, CanCrc.crc1721Trigger, hfrom, CanCrc.crcTrigRxNbs,
          CanCrc.crcTrigRxWbs, hrq]
      · obtain ⟨hout, hwbs⟩ := hbit hrq
        have hen : crcEnable s.pc (pcInput c s i) = false := by
          simp only [crcEnable]
          cases hs : s.pc.currState <;> rw [hs] at hp <;>
            first | exact absurd hp (by decide) | simp [PcState.inCovered, hout]
        simp [CanCrc.crcEna15, CanCrc.crcEna1721, CanCrc.crc15DataIn, CanCrc.crc1721DataIn, hfrom,
          hen, hout, hwbs]
  simpa [taken, hl, hena.1, hena.2] using hn

/-- The dominant bit a frame starts with is taken in whether it was expected or not. -/
theorem Holds.next_start {x y : List Bool} (h : Holds c r x y) (he : s.err.errFrmReq = false)
    (hq : s.pc.currState.inPause = true) (ht : pcRxTrigger s = true)
    (hl : CanCrc.load c s i = false) (hspec : crcSpecEnable s.pc (pcInput c s i) = true)
    (hbit : s.bds.dataOut = false ∧ r.crcDataRxWbs = false) :
    Holds c (r.next c s i) (x ++ [false]) (y ++ [false]) := by
  have hn := h.next (s := s) (i := i)
  have hfrom : CanCrc.fromRx c s i = true := by simp [CanCrc.fromRx, crcCalcFromRx, hspec]
  have hfx : (pcOut c s i).fixedStuff = false :=
    (out_pause (c := c) (i := pcInput c s i) he hq).fixedStuff
  simp only [pcRxTrigger, Bool.and_eq_true, Bool.not_eq_true'] at ht
  simpa [taken, hl, CanCrc.crcEna15, CanCrc.crcEna1721, CanCrc.crc15DataIn, CanCrc.crc1721DataIn,
    CanCrc.crc15Trigger, CanCrc.crc1721Trigger, hfrom, hspec, CanCrc.crcTrigRxNbs,
    CanCrc.crcTrigRxWbs, hfx, ht, hbit] using hn

end Start

/-! ## Invariant -/

structure Coverage (c : Config) (k : Clock) (s : State) (r : CanCrc) (v : List FrameBit) :
    Prop where
  trigger : r.txTriggerQ = true → k.sent = true ∧ k.since ≠ 0
  sampled : k.since = 0 → r.crcDataRxWbs = s.bds.dataOut
  pause : s.pc.currState.inPause = true → k.since = 0 → s.bds.destuffedQ = false
  held : s.pc.currState = .ide → isTransmitter s = true → k.held ≠ none
  role : s.pc.currState.inCovered = true → isTransmitter s = true ∨ isReceiver s = true
  regular : s.pc.currState.inPlain = true → isTransmitter s = true → s.err.errFrmReq = false →
    (s.bst.enablePrev = true → s.bst.fixedRegQ = false) ∧
      (s.bds.enablePrev = true → s.bds.fixedPrevQ = false)
  fixed : s.pc.currState = .stuffCount → isTransmitter s = true → s.err.errFrmReq = false →
    FixedLead k s
  initial : mayStart s = true → Holds c r [] []
  frame : s.pc.currState.inCovered = true → s.err.errFrmReq = false →
    Holds c r (nbs v ++ aheadNbs k s) (wbs v ++ aheadWbs k s r)
  done : s.pc.currState.behindCovered = true → s.err.errFrmReq = false →
    Holds c r (nbs v) (wbs v)

section Fields

variable {c : Config} {k : Clock} {s : State} {i : Input} {v : List FrameBit}

theorem inCovered_of_inPlain {st : PcState} (h : st.inPlain = true) : st.inCovered = true := by
  revert h
  cases st <;> decide

theorem inCovered_of_inPause {st : PcState} (h : st.inPause = true) : st.inCovered = false := by
  revert h
  cases st <;> decide

theorem inStuffed_of_inCovered {st : PcState} (h : st.inCovered = true) : st.inStuffed = true := by
  revert h
  cases st <;> decide

theorem covered_cases {st : PcState} (h : st.inCovered = true) :
    st.inPlain = true ∨ st = .stuffCount := by
  cases st <;> first | exact absurd h (by decide) | exact .inl rfl | exact .inr rfl

theorem fixedStuff_covered (he : s.err.errFrmReq = false) (hq : s.pc.currState.inCovered = true) :
    (pcOut c s i).fixedStuff = (s.pc.currState == .stuffCount) := by
  rcases covered_cases hq with hp | hp
  · have hne : s.pc.currState ≠ .stuffCount := by
      intro hs
      rw [hs] at hp
      cases hp
    rw [beq_eq_false_iff_ne.mpr hne]
    exact (out_plain (c := c) (i := pcInput c s i) he hp).fixedStuff
  · simp [pcOut_noErr he, hp, outState, outStuffCount]

theorem seen_take (hp : Paced s 0) (he : s.err.errFrmReq = false)
    (hq : s.pc.currState.inCovered = true) :
    seen c v s i = v ++ [⟨s.bds.dataOut, s.bds.destuffedQ, s.pc.currState == .stuffCount⟩] := by
  simp [seen, he, hq, hp.trigger, fixedStuff_covered he hq]

theorem seen_between (hp : Paced s k.since) (hq : s.pc.currState.inPause = false ∨ k.since ≠ 0)
    (h0 : s.pc.currState.inCovered = false ∨ k.since ≠ 0) : seen c v s i = v := by
  have ht : k.since ≠ 0 → s.rxTrigReqQ = false ∧ pcRxTrigger s = false := fun h0 =>
    ⟨by simp [hp.trigger, h0], hp.noTrigger h0⟩
  rcases hq with hq | hq
  · rcases h0 with h0 | h0
    · simp [seen, hq, h0]
    · simp [seen, hq, ht h0]
  · simp [seen, ht hq]

/-- Where the covered fields are entered from. -/
theorem enter_covered (h' : (step c s i).pc.currState.inCovered = true) :
    s.err.errFrmReq = false ∧
      (s.pc.currState.inCovered = true ∨
        (s.pc.currState.inPause = true ∧ pcRxTrigger s = true ∧
          (step c s i).pc.currState.inPlain = true)) := by
  have hpl : ∀ st : PcState, st.inPlain → st.inCovered := by decide
  rcases covered_cases h' with hp | hp
  · obtain ⟨he, hq | ⟨hq, ht⟩⟩ := enter_plain (c := c) (q := s.pc) (i := pcInput c s i) hp
    · exact ⟨he, .inl (hpl _ hq)⟩
    · exact ⟨he, .inr ⟨hq, ht, hp⟩⟩
  · have hedge : ∀ st : PcState, .stuffCount ∈ st.successors → st.inCovered := by decide
    cases he : s.err.errFrmReq
    · refine ⟨rfl, .inl ?_⟩
      rcases state_flow (c := c) (i := i) he with hs | ⟨-, hs⟩
      · rw [← hs, hp]
        rfl
      · rw [hp] at hs
        exact hedge _ hs
    · have := state_err (c := c) (i := i) he
      have this : (step c s i).pc.currState.afterError = true := this
      rw [hp] at this
      cases this

theorem enter_behind (h' : (step c s i).pc.currState.behindCovered = true) :
    s.err.errFrmReq = false ∧
      (s.pc.currState.behindCovered = true ∨
        (s.pc.currState.inCovered = true ∧ pcRxTrigger s = true)) := by
  have hedge : ∀ st st' : PcState, st' ∈ st.successors → st'.behindCovered →
      st.behindCovered ∨ st.inCovered := by decide +kernel
  have hdis : ∀ st : PcState, st.afterError → st.behindCovered = false := by decide
  cases he : s.err.errFrmReq
  · refine ⟨rfl, ?_⟩
    rcases state_flow (c := c) (i := i) he with hs | ⟨ht, hs⟩
    · exact .inl (hs ▸ h')
    · exact (hedge _ _ hs h').imp_right fun hq => ⟨hq, ht⟩
  · have := hdis _ (state_err (c := c) (i := i) he)
    exact absurd (this.symm.trans h') (by decide)

end Fields

namespace Coverage

variable {c : Config} {k : Clock} {s : State} {i : Input} {r : CanCrc} {v : List FrameBit}

/-- The bit a transmitter takes without an error is the bit it took in when it sent it. -/
theorem own_bit (h : Coverage c k s r v) (hf : Following c k s) (hok : Bench k s i)
    (hena : c.mrSettingsEna = true) (he : s.err.errFrmReq = false)
    (hq : s.pc.currState.inCovered = true) (h0 : k.since = 0) (ho : ownBits k s = true)
    (he' : (step c s i).err.errFrmReq = false) :
    s.bds.destuffedQ = s.bst.dataHaltQ ∧ s.bds.dataOut = s.bst.dataOut := by
  have hx : isTransmitter s = true := by
    simp only [ownBits, Bool.and_eq_true] at ho
    exact ho.1
  have hx' := ownBits_stays (c := c) hok he hq h.held ho
  rcases covered_cases hq with hp | hp
  · obtain ⟨hs, heq, -⟩ := hf.taken hok hena h0 he hx hp he' hx'
    exact ⟨hs.halt, heq⟩
  · obtain ⟨hhalt, hbit⟩ := (h.fixed hp hx he).sampled h0
    refine ⟨hhalt, ?_⟩
    by_contra hne
    exact absurd ((noErr_next he').1.symm.trans (hbit hne)) (by decide)

/-- When a transmitter loads its CRC, the bit sampled in this cycle is already in it. -/
theorem loaded (h : Coverage c k s r v) (hf : Following c k s) (hok : Bench k s i)
    (hena : c.mrSettingsEna = true) (he : s.err.errFrmReq = false)
    (hq : s.pc.currState.inCovered = true) (h0 : k.since = 0) (ho : ownBits k s = true)
    (he' : (step c s i).err.errFrmReq = false) :
    Holds c r (nbs (seen c v s i)) (wbs (seen c v s i)) := by
  obtain ⟨hhalt, hbit⟩ := h.own_bit hf hok hena he hq h0 ho he'
  have htq : r.txTriggerQ = false := by
    by_contra htq
    exact (h.trigger (by simpa using htq)).2 h0
  have hh := h.frame hq he
  rw [seen_take (h0 ▸ hf.paced) he hq, nbs_concat, wbs_concat, hhalt, hbit]
  have h15 : aheadNbs k s = if s.bst.dataHaltQ then [] else [s.bst.dataOut] := by
    cases hd : s.bst.dataHaltQ <;> simp [aheadNbs, ho, bitSent, h0, hd]
  have h17 : aheadWbs k s r =
      if s.bst.dataHaltQ && (s.pc.currState == .stuffCount) then [] else [s.bst.dataOut] := by
    cases hd : s.bst.dataHaltQ <;> cases hs : s.pc.currState == .stuffCount <;>
      simp [aheadWbs, ho, bitSent, h0, hd, hs, htq]
  rwa [h15, h17] at hh

/-- The cycle that takes a bit of the covered fields. -/
theorem next_taken (h : Coverage c k s r v) (hf : Following c k s) (hok : Bench k s i)
    (hena : c.mrSettingsEna = true) (he : s.err.errFrmReq = false)
    (hq : s.pc.currState.inCovered = true) (h0 : k.since = 0)
    (he' : (step c s i).err.errFrmReq = false) :
    Holds c (r.next c s i) (nbs (seen c v s i)) (wbs (seen c v s i)) := by
  obtain ⟨-, htx⟩ := Following.quiet_take hok h0
  have hsrc := fromRx_eq (c := c) hok he hq (h.role hq) h.held
  cases ho : ownBits k s
  · rw [ho] at hsrc
    have hh := h.frame hq he
    have h15 : aheadNbs k s = [] := by simp [aheadNbs, ho]
    have h17 : aheadWbs k s r = [] := by simp [aheadWbs, ho]
    rw [h15, h17, List.append_nil, List.append_nil] at hh
    have hn := hh.next_rx he hq hsrc
    rw [seen_take (h0 ▸ hf.paced) he hq, nbs_concat, wbs_concat]
    rw [h.sampled h0, fixedStuff_covered he hq, (h0 ▸ hf.paced : Paced s 0).trigger] at hn
    cases hd : s.bds.destuffedQ <;> cases hs : s.pc.currState == .stuffCount <;>
      simpa [hd, hs] using hn
  · rw [ho] at hsrc
    have htq : r.txTriggerQ = false := by
      by_contra htq
      exact (h.trigger (by simpa using htq)).2 h0
    have hn := (h.loaded hf hok hena he hq h0 ho he').next_tx he hq hsrc
    simpa [htx, htq] using hn

/-- Who takes in own bits does not change between sample points. -/
theorem ownBits_kept (h : Coverage c k s r v) (hok : Bench k s i) (he : s.err.errFrmReq = false)
    (hq : s.pc.currState.inCovered = true) (ht : pcRxTrigger s = false) :
    ownBits (k.next s i) (step c s i) = ownBits k s := by
  have hst : ∀ st : PcState, st.inCovered → st.inStuffed := by decide
  have hs := (kept_between (c := c) (i := i) he (.inl (hst _ hq)) ht).state
  have hx : isTransmitter (step c s i) = isTransmitter s := by
    have hn := nextOc_hold (c := c) (i := i) ht he (arbitrationLostI_trigger he ht)
    simp [isTransmitter, step, hn]
  simp only [ownBits, hs, hx]
  cases hr : isTransmitter s
  · rfl
  cases hst : s.pc.currState <;> try rfl
  obtain ⟨m, hm⟩ := Option.ne_none_iff_exists'.mp (h.held hst hr)
  have hpl : s.pc.currState.inPlain = true := by rw [hst]; rfl
  rw [Following.next_held hr hpl, hm, hok.held m hm hr hpl]

/-- Stuffing is on while a bit of an own frame is on the bus. -/
theorem own_sent (h : Coverage c k s r v) (hf : Following c k s) (he : s.err.errFrmReq = false)
    (hq : s.pc.currState.inCovered = true) (h0 : k.since ≠ 0) (hx : isTransmitter s = true)
    (hs : k.sent = true) : s.bst.enablePrev = true ∧ s.pc.stuffEnable = true := by
  rcases covered_cases hq with hp | hp
  · have ha := hf.aligned hx hp he
    exact ⟨(ha.sending h0 hs).1, ha.stuffEnable⟩
  · exact ⟨(h.fixed hp hx he).tx, (h.fixed hp hx he).stuffEnable⟩

/-- A TX trigger sends the bit that CRC15 takes in, or a stuff bit. -/
theorem own_send (h : Coverage c k s r v) (hf : Following c k s) (hok : Bench k s i)
    (he : s.err.errFrmReq = false) (hq : s.pc.currState.inCovered = true) (h0 : k.since ≠ 0)
    (hx : isTransmitter s = true) (htx : i.txTrigger = true)
    (hh : (step c s i).bst.dataHaltQ = false) : (step c s i).bst.dataOut = txDataNbs c s i := by
  obtain ⟨hs, -⟩ := hok.send htx
  have hrx : i.rxTrigReq = false := by
    by_contra hrx
    rw [(hok.sample (by simpa using hrx)).1] at hs
    cases hs
  rcases covered_cases hq with hp | hp
  · exact ((hf.aligned hx hp he).send hf.paced he hx hp h0 hs hrx htx).2 hh
  · have hl := h.fixed hp hx he
    have hfx : (bstInput c s i).fixedStuff = true := by
      have := fixedStuff_covered (c := c) (i := i) he hq
      simpa [bstInput, hp] using this
    exact ((hl.level hs).send (a := bstInput c s i) hl.low hl.tx htx hl.stuffEnable hfx hl.noSof).2 hh

/-- A cycle of the covered fields that takes no bit. -/
theorem next_between (h : Coverage c k s r v) (hf : Following c k s) (hok : Bench k s i)
    (he : s.err.errFrmReq = false) (hq : s.pc.currState.inCovered = true) (h0 : k.since ≠ 0) :
    Holds c (r.next c s i) (nbs v ++ aheadNbs (k.next s i) (step c s i))
      (wbs v ++ aheadWbs (k.next s i) (step c s i) (r.next c s i)) := by
  have ht := hf.paced.noTrigger h0
  have hown := h.ownBits_kept hok he hq ht
  have hsrc := fromRx_eq (c := c) hok he hq (h.role hq) h.held
  have hst : ∀ st : PcState, st.inCovered → st.inStuffed := by decide
  have hs := (kept_between (c := c) (i := i) he (.inl (hst _ hq)) ht).state
  have hh := h.frame hq he
  cases ho : ownBits k s
  · rw [ho] at hsrc hown
    have hrq : s.rxTrigReqQ = false := by simp [hf.paced.trigger, h0]
    have hn := hh.next_rx he hq hsrc
    simpa [hrq, aheadNbs, aheadWbs, ho, hown] using hn
  · rw [ho] at hsrc hown
    have hx : isTransmitter s = true := by
      simp only [ownBits, Bool.and_eq_true] at ho
      exact ho.1
    have hn := hh.next_tx he hq hsrc
    have hhalt' : (step c s i).bst.dataHaltQ = s.bst.dataHalt (bstInput c s i) := rfl
    cases htx : i.txTrigger
    · -- what is on the bus stays there
      have hsent : bitSent (k.next s i) = bitSent k := by
        cases hrx : i.rxTrigReq
        · simp [bitSent, Clock.next, sinceSample, hrx, htx, h0]
        · simp [bitSent, Clock.next, sinceSample, hrx, (hok.sample hrx).1]
      have hout : (step c s i).bst.dataOut = s.bst.dataOut := by
        simp [step, BitStuffing.step, bstInput, htx]
      have hhalt : bitSent k = true → s.bst.dataHalt (bstInput c s i) = s.bst.dataHaltQ := by
        intro hb
        obtain ⟨hp, hen⟩ := h.own_sent hf he hq h0 hx (by simpa [bitSent, h0] using hb)
        simp [BitStuffing.dataHalt, bstInput, htx, hp, hen]
      have h15 : aheadNbs (k.next s i) (step c s i) = aheadNbs k s := by
        cases hb : bitSent k
        · simp [aheadNbs, hsent, hb]
        · simp [aheadNbs, hown, ho, hsent, hb, hhalt', hhalt hb, hout]
      have htq' : (r.next c s i).txTriggerQ = false := htx
      have hy : (if r.txTriggerQ &&
            !((pcOut c s i).fixedStuff && s.bst.dataHalt (bstInput c s i)) then
          wbs v ++ aheadWbs k s r ++ [s.bst.dataOut] else wbs v ++ aheadWbs k s r) =
          wbs v ++ aheadWbs (k.next s i) (step c s i) (r.next c s i) := by
        rw [fixedStuff_covered he hq]
        cases hb : bitSent k
        · have htq : r.txTriggerQ = false := by
            by_contra htq
            have := (h.trigger (by simpa using htq)).1
            simp [bitSent, this] at hb
          simp [aheadWbs, hsent, hb, htq]
        · cases htq : r.txTriggerQ <;>
            simp [aheadWbs, hown, ho, hsent, hb, htq, htq', hs, hhalt', hhalt hb, hout]
          grind
      rw [htx] at hn
      rw [h15, ← hy]
      simpa using hn
    · obtain ⟨hs0, -⟩ := hok.send htx
      have hrx : i.rxTrigReq = false := by
        by_contra hrx
        rw [(hok.sample (by simpa using hrx)).1] at hs0
        cases hs0
      have hb : bitSent k = false := by simp [bitSent, hs0, h0]
      have hb' : bitSent (k.next s i) = true := by simp [bitSent, Clock.next, hrx, htx]
      have htq : r.txTriggerQ = false := by
        by_contra htq
        rw [(h.trigger (by simpa using htq)).1] at hs0
        cases hs0
      have htq' : (r.next c s i).txTriggerQ = true := htx
      have hout := h.own_send hf hok he hq h0 hx htx
      rw [htx, htq] at hn
      cases hd : s.bst.dataHalt (bstInput c s i)
      · have hout := hout (hhalt'.trans hd)
        simpa [aheadNbs, aheadWbs, hb, hown, hb', hhalt', hd, hout, htq'] using hn
      · simpa [aheadNbs, aheadWbs, hb, hhalt', hd, htq'] using hn

/-- Between two frames protocol control takes every bit. -/
theorem pause_trigger (h : Coverage c k s r v) (hf : Following c k s)
    (hq : s.pc.currState.inPause = true) : pcRxTrigger s = s.rxTrigReqQ := by
  cases hrq : s.rxTrigReqQ
  · simp [pcRxTrigger, hrq]
  · have h0 : k.since = 0 := by simpa [hf.paced.trigger] using hrq
    simp [pcRxTrigger, hrq, h.pause hq h0]

theorem next_initial (h : Coverage c k s r v) (hf : Following c k s)
    (h' : mayStart (step c s i) = true) : Holds c (r.next c s i) [] [] := by
  obtain ⟨he, hl | ⟨hm, hbit⟩⟩ := mayStart_before h'
  · exact .of_load hl
  cases hl : CanCrc.load c s i
  · refine (h.initial hm).next_recessive hm hl fun hrq => ?_
    have h0 : k.since = 0 := by simpa [hf.paced.trigger] using hrq
    have ht := (h.pause_trigger hf (mayStart_pause hm)).trans hrq
    exact ⟨hbit ht, (h.sampled h0).trans (hbit ht)⟩
  · exact .of_load hl

/-- The first bit of a frame. -/
theorem next_started (h : Coverage c k s r v) (hf : Following c k s)
    (he : s.err.errFrmReq = false) (hq : s.pc.currState.inPause = true)
    (ht : pcRxTrigger s = true) (h' : (step c s i).pc.currState.inPlain = true) :
    Holds c (r.next c s i) (nbs (seen c v s i)) (wbs (seen c v s i)) := by
  have h0 := hf.paced.pcRxTrigger_since ht
  obtain ⟨hm, hl, hspec, hst⟩ := start_bit he hq ht h'
  have hcov := inCovered_of_inPause hq
  rcases hst with ⟨hst, hbit⟩ | ⟨hst, hbit⟩
  · have hn := (h.initial hm).next_start he hq ht hl hspec ⟨hbit, (h.sampled h0).trans hbit⟩
    simpa [seen, he, hcov, hq, ht, hst, hbit, nbs, wbs] using hn
  · have hn := (h.initial hm).next_recessive hm hl fun _ => ⟨hbit, (h.sampled h0).trans hbit⟩
    simpa [seen, he, hcov, hq, ht, hst, nbs, wbs] using hn

theorem next_frame (h : Coverage c k s r v) (hf : Following c k s) (hok : Bench k s i)
    (hena : c.mrSettingsEna = true) (hq' : (step c s i).pc.currState.inCovered = true)
    (he' : (step c s i).err.errFrmReq = false) :
    Holds c (r.next c s i) (nbs (seen c v s i) ++ aheadNbs (k.next s i) (step c s i))
      (wbs (seen c v s i) ++ aheadWbs (k.next s i) (step c s i) (r.next c s i)) := by
  -- no bit has been sent yet after the cycle that takes one
  have hnone : k.since = 0 → aheadNbs (k.next s i) (step c s i) = [] ∧
      aheadWbs (k.next s i) (step c s i) (r.next c s i) = [] := by
    intro h0
    obtain ⟨hsince, hsent⟩ := hf.next_take hok h0
    simp [aheadNbs, aheadWbs, bitSent, hsince, hsent]
  obtain ⟨he, hq | ⟨hq, ht, hp'⟩⟩ := enter_covered hq'
  · by_cases h0 : k.since = 0
    · rw [(hnone h0).1, (hnone h0).2, List.append_nil, List.append_nil]
      exact h.next_taken hf hok hena he hq h0 he'
    · rw [seen_between hf.paced (.inr h0) (.inr h0)]
      exact h.next_between hf hok he hq h0
  · have h0 := hf.paced.pcRxTrigger_since ht
    rw [(hnone h0).1, (hnone h0).2, List.append_nil, List.append_nil]
    exact h.next_started hf he hq ht hp'

theorem next_done (h : Coverage c k s r v) (hf : Following c k s) (hok : Bench k s i)
    (hena : c.mrSettingsEna = true) (hq' : (step c s i).pc.currState.behindCovered = true)
    (he' : (step c s i).err.errFrmReq = false) :
    Holds c (r.next c s i) (nbs (seen c v s i)) (wbs (seen c v s i)) := by
  obtain ⟨he, hq | ⟨hq, ht⟩⟩ := enter_behind hq'
  · have hdis : ∀ st : PcState, st.behindCovered → st.inCovered = false ∧ st.inPause = false := by
      decide
    have hl : CanCrc.load c s i = false := by
      simp only [CanCrc.load, loadInitVect]
      cases hs : s.pc.currState <;> rw [hs] at hq <;> first | exact absurd hq (by decide) | simp
    rw [seen_between hf.paced (.inl (hdis _ hq).2) (.inl (hdis _ hq).1)]
    exact (h.done hq he).next_idle (hdis _ hq).1 (hdis _ hq).2 hl
  · exact h.next_taken hf hok hena he hq (hf.paced.pcRxTrigger_since ht) he'

theorem next_held (he : s.err.errFrmReq = false)
    (h' : (step c s i).pc.currState = .ide) (hx' : isTransmitter (step c s i) = true) :
    (k.next s i).held ≠ none := by
  have hedge : ∀ st : PcState, .ide ∈ st.successors → st.inPlain := by decide
  have hq : s.pc.currState.inPlain = true := by
    rcases state_flow (c := c) (i := i) he with hs | ⟨-, hs⟩
    · rw [← hs, h']
      rfl
    · rw [h'] at hs
      exact hedge _ hs
  have hx := transmitter_before he (PcState.inStuffed_of_inPlain hq) hx'
  simp [Following.next_held hx hq]

theorem next_role (h : Coverage c k s r v) (hf : Following c k s) (hok : Bench k s i)
    (h' : (step c s i).pc.currState.inCovered = true) :
    isTransmitter (step c s i) = true ∨ isReceiver (step c s i) = true := by
  obtain ⟨he, hq | ⟨-, -, hp'⟩⟩ := enter_covered h'
  · exact Following.role_kept hok he (inStuffed_of_inCovered hq) (h.role hq)
  · exact hf.next_frame_role hok hp'

/-- Up to the data field the circuits are not in fixed stuffing. -/
theorem next_regular (h : Coverage c k s r v) (hf : Following c k s)
    (hx' : isTransmitter (step c s i) = true) (he : s.err.errFrmReq = false)
    (hq : s.pc.currState.inPlain = true) :
    (step c s i).bst.fixedRegQ = false ∧ (step c s i).bds.fixedPrevQ = false := by
  have hx := transmitter_before he (PcState.inStuffed_of_inPlain hq) hx'
  have ha := hf.aligned hx hq he
  obtain ⟨htx, hrx⟩ := h.regular hq hx he
  have hfx : (pcOut c s i).fixedStuff = false :=
    (out_plain (c := c) (i := pcInput c s i) he hq).fixedStuff
  constructor
  · cases hp : s.bst.enablePrev <;> simp_all [step, BitStuffing.step, bstInput, ha.stuffEnable]
  · cases hp : s.bds.enablePrev <;>
      simp_all [step, BitDestuffing.step, bdsInput, ha.destuffEnable]

/-- The stuff count starts with both circuits level. -/
theorem next_fixed (h : Coverage c k s r v) (hf : Following c k s) (hok : Bench k s i)
    (hena : c.mrSettingsEna = true) (h' : (step c s i).pc.currState = .stuffCount)
    (hx' : isTransmitter (step c s i) = true) (he' : (step c s i).err.errFrmReq = false) :
    FixedLead (k.next s i) (step c s i) := by
  obtain ⟨he, hq | ⟨-, -, hp'⟩⟩ := enter_covered (c := c) (i := i) (by rw [h']; rfl)
  · have hx := transmitter_before he (inStuffed_of_inCovered hq) hx'
    rcases covered_cases hq with hp | hp
    · have h0 : k.since = 0 := by
        by_contra h0
        have hs := (kept_plain (c := c) (i := i) he hp (hf.paced.noTrigger h0)).state
        rw [← hs, h'] at hp
        cases hp
      have ha := hf.aligned hx hp he
      have ha' := hf.take_aligned hok hena he hx hp h0 hx' he'
      obtain ⟨hsince, hsent⟩ := hf.next_take hok h0
      obtain ⟨hft, hfd⟩ := h.next_regular hf hx' he hp
      cases ha'.waiting (by omega) hsent with
      | level noSof lv tx rx =>
        refine ⟨ha'.stuffEnable, ha'.destuffEnable, noSof, bst_enablePrev ha.stuffEnable,
          bds_enablePrev ha.destuffEnable, ha'.run, fun _ => ⟨hft.trans hfd.symm, lv.sameBits⟩,
          fun hs => ?_, fun hz => ?_⟩
        · rw [hsent] at hs
          cases hs
        · omega
      | start noSof state =>
        rw [h'] at state
        cases state
      | second noSof state =>
        rw [h'] at state
        cases state
    · exact (h.fixed hp hx he).step hf hok hena he hx hp
  · rw [h'] at hp'
    cases hp'

theorem step_coverage (h : Coverage c k s r v) (hf : Following c k s) (hok : Bench k s i)
    (hena : c.mrSettingsEna = true) :
    Coverage c (k.next s i) (step c s i) (r.next c s i) (seen c v s i) where
  trigger htx := by
    have htx : i.txTrigger = true := htx
    have hrx : i.rxTrigReq = false := by
      by_contra hrx
      have hs := (hok.sample (by simpa using hrx)).1
      rw [(hok.send htx).1] at hs
      cases hs
    simp [Clock.next, sinceSample, hrx, htx]
  sampled h0 := by
    have hrx : i.rxTrigReq = true := by
      by_contra hrx
      simp [Clock.next, sinceSample, hrx] at h0
    simp [CanCrc.next, step, BitDestuffing.step, bdsInput, hrx]
  pause hq h0 := by
    have hrx : i.rxTrigReq = true := by
      by_contra hrx
      simp [Clock.next, sinceSample, hrx] at h0
    obtain ⟨he, hsame⟩ := enter_pause (c := c) (q := s.pc) (i := pcInput c s i) hq
    have ht : pcRxTrigger s = false := hf.paced.noTrigger (by have := (hok.sample hrx).2; omega)
    have hs : s.pc.currState = (step c s i).pc.currState :=
      hsame.resolve_right (by simp [ht])
    have hen := (hf.pause_off (hs ▸ hq)).2
    simp [step, BitDestuffing.step, bdsInput, hen]
  held hq hx := by
    obtain ⟨he, -⟩ := enter_covered (c := c) (s := s) (i := i) (by rw [hq]; rfl)
    exact next_held he hq hx
  role := h.next_role hf hok
  regular hq hx _ := by
    obtain ⟨he, hp | ⟨hp, -⟩⟩ := enter_plain (c := c) (q := s.pc) (i := pcInput c s i) hq
    · obtain ⟨hft, hfd⟩ := h.next_regular hf hx he hp
      exact ⟨fun _ => hft, fun _ => hfd⟩
    · have hen := (hf.pause_off hp).1 he
      have hden := (hf.pause_off hp).2
      exact ⟨fun h => absurd (hen.symm.trans h) (by decide),
        fun h => absurd (hden.symm.trans h) (by decide)⟩
  fixed hq hx he := h.next_fixed hf hok hena hq hx he
  initial := h.next_initial hf
  frame := h.next_frame hf hok hena
  done := h.next_done hf hok hena

theorem of_reset (c : Config) (sent : Bool) (v : List FrameBit) :
    Coverage c ⟨4, sent, none⟩ reset .reset v where
  trigger h := by cases h
  sampled h := by cases h
  pause h := by cases h
  held h := by cases h
  role h := by cases h
  regular h := by cases h
  fixed h := by cases h
  initial h := by cases h
  frame h := by cases h
  done h := by cases h

end Coverage

end CanCore
