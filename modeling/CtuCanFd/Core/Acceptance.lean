import CtuCanFd.Core.StuffTally

/-!
# Accepted frames

A receiver validates a frame in the last bit but one of the end of frame. By then the frame has
gone through every check: its length is the length the header announces, the CRC sequence is the
CRC of its bits, the stuff count of an ISO CAN FD frame is the number of its stuff bits, and the
delimiters and the end of frame are recessive.
-/

open ProtocolControl SyncMachine BitFields

namespace CanCore

open FrameFormat (Header headerLength dataEnd coveredLength)

/-! ## What an accepted frame is -/

/-- The CRC sequence of a frame in the order in which it is sent. -/
def crcSequence (c : Config) (v : List FrameBit) : CrcSrc → List Bool
  | .crc15 => sent (CrcCalc.ofBits CanCrc.crc15Pol false (nbs v))
  | .crc17 => sent (CrcCalc.ofBits CanCrc.crc17Pol (!c.mrSettingsNisofd) (wbs v))
  | .crc21 => sent (CrcCalc.ofBits CanCrc.crc21Pol (!c.mrSettingsNisofd) (wbs v))

def isoFd (c : Config) (v : List FrameBit) : Bool :=
  !c.mrSettingsNisofd && (FrameFormat.header (nbs v)).frameType

/-- The CRC field received behind the bits `v` belongs to them, and so does the stuff count. -/
structure Checked (c : Config) (v : List FrameBit) (crcBits : List Bool) : Prop where
  crc : crcBits = crcSequence c v (FrameFormat.header (nbs v)).crcSrc
  count : isoFd c v = true →
    word (nbs v) (dataEnd (nbs v)) 4 = TxShiftReg.stuffCount (regularStuff v % 8)

instance (c : Config) (v : List FrameBit) (crcBits : List Bool) : Decidable (Checked c v crcBits) :=
  decidable_of_iff (_ ∧ (_ → _)) ⟨fun h => ⟨h.1, h.2⟩, fun h => ⟨h.crc, h.count⟩⟩

/-- Bits behind the fields covered by the CRC: the CRC field without stuff bits, and what
follows it. -/
structure TailWatch where
  crcBits : List Bool
  trailer : List Bool
deriving DecidableEq, Repr

def TailWatch.next (w : TailWatch) (s : State) : TailWatch :=
  if s.err.errFrmReq || !pcRxTrigger s then w
  else if s.pc.currState = .crc then { w with crcBits := w.crcBits ++ [s.bds.dataOut] }
  else if s.pc.currState.afterCrc then { w with trailer := w.trailer ++ [s.bds.dataOut] }
  else ⟨[], []⟩

/-- ACK slot, which has two bits in a CAN FD frame. -/
def ackLength (h : Header) : Nat := if h.frameType then 2 else 1

/-- Behind the CRC: delimiter, ACK slot, delimiter, and `n` bits of the end of frame. -/
def TrailerOk (h : Header) (n : Nat) (trailer : List Bool) : Prop :=
  ∃ acks : List Bool, acks.length = ackLength h ∧
    trailer = true :: acks ++ true :: List.replicate n true

structure Accepted (c : Config) (v : List FrameBit) (w : TailWatch) : Prop where
  length : (nbs v).length = coveredLength (nbs v) (!c.mrSettingsNisofd)
  checked : Checked c v w.crcBits
  trailer : TrailerOk (FrameFormat.header (nbs v)) 6 w.trailer

/-! ## Roles and formats -/

section Format

variable {c : Config} {k : Clock} {s : State} {i : Input} {v : List FrameBit}

theorem isTransmitter_receiver (hr : isReceiver s = true) : isTransmitter s = false := by
  simp only [isReceiver, beq_iff_eq] at hr
  simp [isTransmitter, hr]

theorem receiver_fd (hr : isReceiver s = true) :
    isFdFrame c (pcInput c s i) = s.rxs.view.header.frameType := by
  simp [isFdFrame, isTransmitter_receiver hr, hr, pcInput, RxFields.header]

theorem receiver_crcSrc (hr : isReceiver s = true) :
    crcSrc c (pcInput c s i) = s.rxs.view.header.crcSrc := by
  have hfd := receiver_fd (c := c) (i := i) hr
  have h21 : crcUse21 c (pcInput c s i) = (s.rxs.view.header.frameType &&
      decide (16 < dlcDecoder s.rxs.view.header.dlc s.rxs.view.header.frameType)) := by
    simp only [crcUse21, pcInput_isTransmitter, isTransmitter_receiver hr, pcInput_isReceiver, hr,
      Bool.false_and, Bool.true_and, Bool.false_or]
    rfl
  rw [crcSrc, crcUse17, hfd, h21, Header.crcSrc]
  cases s.rxs.view.header.frameType
  · simp
  · by_cases h16 : 16 < dlcDecoder s.rxs.view.header.dlc true
    · simp [h16]
    · simp [h16]

theorem crcLength_eq : crcLength c (pcInput c s i) + 1 =
    FrameFormat.crcLength (crcSrc c (pcInput c s i)) := by
  rw [crcLength]
  cases crcSrc c (pcInput c s i) <;> rfl

end Format

/-! ## Fixed stuffing in the core -/

section Fixed

variable {c : Config} {k : Clock} {s : State} {i : Input}

/-- Bits of the fields with fixed stuffing that destuffing has sampled; protocol control takes
the last of them one cycle later. -/
def sampledBits (k : Clock) (s : State) (taken : Nat) : Nat :=
  if k.since = 0 ∧ s.bds.destuffedQ = false then taken + 1 else taken

theorem FixedRun.next {t : Nat} (h : FixedRun (sampledBits k s t) s.bds) (hf : Following c k s)
    (hok : Bench k s i) (hen : s.pc.destuffEnable = true) (hprev : s.bds.enablePrev = true)
    (hfix : (pcOut c s i).fixedStuff = true) :
    FixedRun (sampledBits (k.next s i) (step c s i) (if pcRxTrigger s then t + 1 else t))
        (step c s i).bds ∧ (step c s i).bds.dstCtrQ = s.bds.dstCtrQ := by
  cases hrx : i.rxTrigReq
  · have hq : (step c s i).bds = { s.bds with stuffErrQ := false } :=
      StuffLink.destuffing_quiet (j := bdsInput c s i) hrx hen hprev
    have hn : sampledBits (k.next s i) (step c s i) (if pcRxTrigger s then t + 1 else t) =
        sampledBits k s t := by
      have h1 : (k.next s i).since ≠ 0 := by simp [Clock.next, sinceSample, hrx]
      rw [sampledBits, if_neg (by simp [h1]), sampledBits, pcRxTrigger, hf.paced.trigger]
      by_cases h0 : k.since = 0 <;> cases hd : s.bds.destuffedQ <;> simp [h0]
    rw [hn, hq]
    exact ⟨⟨h.first, h.run⟩, rfl⟩
  · have hk := (hok.sample hrx).2
    have h0 : k.since ≠ 0 := by omega
    rw [sampledBits, if_neg (by simp [h0])] at h
    obtain ⟨hrun, hctr⟩ := h.sample (b := bdsInput c s i) hrx hen hprev hfix
    have hz : (k.next s i).since = 0 := by simp [Clock.next, sinceSample, hrx]
    refine ⟨?_, hctr⟩
    rw [hf.paced.noTrigger h0, if_neg (by decide : ¬ false = true), sampledBits]
    have hbds : (step c s i).bds = s.bds.step (bdsInput c s i) := rfl
    rw [hbds]
    cases hd : (s.bds.step (bdsInput c s i)).destuffedQ
    · simpa [hz, hd] using hrun
    · simpa [hz, hd] using hrun

end Fixed

/-! ## Invariant -/

/-- Width of the CRC the header asks for. -/
def crcWidth (v : List FrameBit) : Nat := FrameFormat.crcLength (FrameFormat.header (nbs v)).crcSrc

/-- In the stuff count. -/
structure CountRead (c : Config) (k : Clock) (s : State) (v : List FrameBit) : Prop where
  iso : isoFd c v = true
  left : (nbs v).length + s.ctr.ctrlCtrQ = dataEnd (nbs v) + 3
  begun : dataEnd (nbs v) ≤ (nbs v).length
  shifted : Shifted (nbs v) (dataEnd (nbs v)) s.rxs.view.rxShiftRegQ
  enable : s.pc.destuffEnable = true
  enabled : s.bds.enablePrev = true
  run : FixedRun (sampledBits k s ((nbs v).length - dataEnd (nbs v))) s.bds

/-- The stuff count of an ISO CAN FD frame was received, and the count to compare it with
stands. -/
structure IsoRead (s : State) (v : List FrameBit) : Prop where
  received : s.rxs.view.rxStuffCount = word (nbs v) (dataEnd (nbs v)) 4
  enable : s.pc.destuffEnable = true
  enabled : s.bds.enablePrev = true
  counted : s.bds.dstCtrQ = regularStuff v % 8

/-- In the CRC field, or in the delimiter behind it. -/
structure CrcRead (c : Config) (s : State) (v : List FrameBit) (w : TailWatch) : Prop where
  length : (nbs v).length = coveredLength (nbs v) (!c.mrSettingsNisofd)
  shifted : Shifted w.crcBits 0 s.rxs.view.rxShiftRegQ
  trailer : w.trailer = []
  iso : isoFd c v = true → IsoRead s v

/-- The CRC has been compared. -/
structure Judged (c : Config) (s : State) (v : List FrameBit) (w : TailWatch) : Prop where
  length : (nbs v).length = coveredLength (nbs v) (!c.mrSettingsNisofd)
  verdict : s.err.crcMatchQ = true ↔ Checked c v w.crcBits

/-- What a receiver has received, by the field it is in. -/
def TailAt (c : Config) (k : Clock) (s : State) (v : List FrameBit) (w : TailWatch) :
    PcState → Prop
  | .data => (nbs v).length + s.ctr.ctrlCtrQ + 1 = dataEnd (nbs v)
  | .stuffCount => CountRead c k s v
  | .crc => CrcRead c s v w ∧ w.crcBits.length + s.ctr.ctrlCtrQ + 1 = crcWidth v ∧
      (isoFd c v = true → FixedRun (sampledBits k s (4 + w.crcBits.length)) s.bds)
  | .crcDelim => CrcRead c s v w ∧ w.crcBits.length = crcWidth v ∧
      (isoFd c v = true → if k.since = 0 then s.bds.destuffedQ = false else s.bds.sameBitsQ ≠ 5)
  | .ack => Judged c s v w ∧ (FrameFormat.header (nbs v)).frameType = false ∧ w.trailer = [true]
  | .ackFd1 => Judged c s v w ∧ (FrameFormat.header (nbs v)).frameType = true ∧ w.trailer = [true]
  | .ackFd2 => Judged c s v w ∧ (FrameFormat.header (nbs v)).frameType = true ∧
      ∃ a, w.trailer = [true, a]
  | .ackDelim => Judged c s v w ∧ ∃ acks : List Bool,
      acks.length = ackLength (FrameFormat.header (nbs v)) ∧ w.trailer = true :: acks
  | .eof => (nbs v).length = coveredLength (nbs v) (!c.mrSettingsNisofd) ∧ Checked c v w.crcBits ∧
      ∃ n, n + s.ctr.ctrlCtrQ = 6 ∧ TrailerOk (FrameFormat.header (nbs v)) n w.trailer
  | _ => True

section Steps

variable {c : Config} {k : Clock} {s : State} {i : Input} {v : List FrameBit} {w : TailWatch}

theorem TailWatch.next_hold (ht : pcRxTrigger s = false) : w.next s = w := by
  simp [TailWatch.next, ht]

theorem TailWatch.next_covered (he : s.err.errFrmReq = false) (ht : pcRxTrigger s = true)
    (hq : s.pc.currState.inCovered = true) : w.next s = ⟨[], []⟩ := by
  have hdis : ∀ st : PcState, st.inCovered → st ≠ .crc ∧ st.afterCrc = false := by decide
  simp [TailWatch.next, he, ht, (hdis _ hq).1, (hdis _ hq).2]

theorem TailWatch.next_crc (he : s.err.errFrmReq = false) (ht : pcRxTrigger s = true)
    (hq : s.pc.currState = .crc) :
    w.next s = { w with crcBits := w.crcBits ++ [s.bds.dataOut] } := by
  simp [TailWatch.next, he, ht, hq]

theorem TailWatch.next_trailer (he : s.err.errFrmReq = false) (ht : pcRxTrigger s = true)
    (hq : s.pc.currState.afterCrc = true) :
    w.next s = { w with trailer := w.trailer ++ [s.bds.dataOut] } := by
  have hdis : ∀ st : PcState, st.afterCrc → st ≠ .crc := by decide
  simp [TailWatch.next, he, ht, hdis _ hq, hq]

/-- Behind the covered fields the bits of the frame do not change. -/
theorem seen_behind (hq : s.pc.currState.behindCovered = true) : seen c v s i = v := by
  have hdis : ∀ st : PcState, st.behindCovered → st.inCovered = false ∧ st.inPause = false := by
    decide
  simp [seen, hdis _ hq]

/-- The CRC is compared in the delimiter. -/
theorem crcMatch_checked {r : CanCrc} (h : CrcRead c s v w) (hlen : w.crcBits.length = crcWidth v)
    (hh : s.rxs.view.header = FrameFormat.header (nbs v)) (hr : isReceiver s = true)
    (hold : Holds c r (nbs v) (wbs v)) :
    CanCrc.crcMatchC c s i r = true ↔ Checked c v w.crcBits := by
  have hsrc := receiver_crcSrc (c := c) (i := i) hr
  have hword : ∀ n, w.crcBits.length = n →
      (CanCrc.rxCrc s).extractLsb' 0 n = word w.crcBits 0 n := fun n hn =>
    h.shifted n (by omega)
  have hcount : (FrameFormat.header (nbs v)).frameType = true →
      (CanCrc.crcMatchC.stuffCountOk c s = true ↔ (isoFd c v = true →
        word (nbs v) (dataEnd (nbs v)) 4 = TxShiftReg.stuffCount (regularStuff v % 8))) := by
    intro hfd
    cases hnis : c.mrSettingsNisofd
    · have hiso : isoFd c v = true := by simp [isoFd, hnis, hfd]
      simp [CanCrc.crcMatchC.stuffCountOk, hnis, hiso, (h.iso hiso).received,
        (h.iso hiso).counted]
    · simp [CanCrc.crcMatchC.stuffCountOk, hnis, isoFd]
  have hsplit : Checked c v w.crcBits ↔
      w.crcBits = crcSequence c v (FrameFormat.header (nbs v)).crcSrc ∧ (isoFd c v = true →
        word (nbs v) (dataEnd (nbs v)) 4 = TxShiftReg.stuffCount (regularStuff v % 8)) :=
    ⟨fun hx => ⟨hx.crc, hx.count⟩, fun hx => ⟨hx.1, hx.2⟩⟩
  rw [hh] at hsrc
  rw [hsplit, CanCrc.crcMatchC, hsrc]
  rw [crcWidth] at hlen
  cases hfd : (FrameFormat.header (nbs v)).frameType
  · have h15 : (FrameFormat.header (nbs v)).crcSrc = .crc15 := by simp [Header.crcSrc, hfd]
    rw [h15] at hlen ⊢
    replace hlen : w.crcBits.length = 15 := hlen
    have hiso : isoFd c v = false := by simp [isoFd, hfd]
    simp only [beq_iff_eq, hword 15 hlen, hold.crc15, crcSequence, hiso]
    simp [word_eq_iff hlen]
  · have hfdSrc : (FrameFormat.header (nbs v)).crcSrc = .crc17 ∨
        (FrameFormat.header (nbs v)).crcSrc = .crc21 := by
      rw [Header.crcSrc, hfd]
      simp only [Bool.not_true, Bool.false_eq_true, if_false]
      split
      · exact .inr rfl
      · exact .inl rfl
    rw [← hcount hfd]
    rcases hfdSrc with h17 | h21
    · rw [h17] at hlen ⊢
      replace hlen : w.crcBits.length = 17 := hlen
      simp only [Bool.and_eq_true, beq_iff_eq, hword 17 hlen, hold.crc17, crcSequence,
        word_eq_iff hlen]
    · rw [h21] at hlen ⊢
      replace hlen : w.crcBits.length = 21 := hlen
      simp only [Bool.and_eq_true, beq_iff_eq, hword 21 hlen, hold.crc21, crcSequence,
        word_eq_iff hlen]

/-- Between the bits behind the header only destuffing goes on. -/
structure Between (s s' : State) : Prop where
  state : s'.pc.currState = s.pc.currState
  ctr : s'.ctr.ctrlCtrQ = s.ctr.ctrlCtrQ
  view : s'.rxs.view = s.rxs.view
  enable : s'.pc.destuffEnable = s.pc.destuffEnable

theorem between_behind (he : s.err.errFrmReq = false) (hq : s.pc.currState.behindHeader = true)
    (ht : pcRxTrigger s = false) : Between s (step c s i) where
  state := step_hold ht he
  ctr := by
    have hoff : s.pc.currState ≠ .off := by
      intro hs
      rw [hs] at hq
      cases hq
    rw [ctr_between he ht hoff]
    cases hs : s.pc.currState <;> rw [hs] at hq <;> first | rfl | exact absurd hq (by decide)
  view := view_hold ht
  enable := by simp [step, ProtocolControl.step, ctrlSignalUpd, ht, he]

/-- The comparison stands until the end of frame. -/
theorem crcMatch_kept (he : s.err.errFrmReq = false)
    (hq : s.pc.currState = .ack ∨ s.pc.currState = .ackFd1 ∨ s.pc.currState = .ackFd2 ∨
      s.pc.currState = .ackDelim) : (step c s i).err.crcMatchQ = s.err.crcMatchQ := by
  have ho : (pcOut c s i).crcClearMatchFlag = false ∧ (pcOut c s i).crcCheck = false := by
    rw [pcOut_noErr he]
    rcases hq with hq | hq | hq | hq <;> rw [hq] <;> exact ⟨rfl, rfl⟩
  simp [step, ErrDetector.step, errInput, ho.1, ho.2]

theorem isoFd_congr {v' : List FrameBit} (h : nbs v' = nbs v) : isoFd c v' = isoFd c v := by
  rw [isoFd, isoFd, h]

theorem fixedStuff_crc (he : s.err.errFrmReq = false) (hr : isReceiver s = true)
    (hq : s.pc.currState = .crc) (hh : s.rxs.view.header = FrameFormat.header (nbs v))
    (hiso : isoFd c v = true) : (pcOut c s i).fixedStuff = true := by
  have hfd : (FrameFormat.header (nbs v)).frameType = true := by
    simp only [isoFd, Bool.and_eq_true] at hiso
    exact hiso.2
  rw [pcOut_noErr he, hq]
  show isFdFrame c (pcInput c s i) = true
  rw [receiver_fd hr, hh, hfd]

theorem TailAt.hold (h : TailAt c k s v w s.pc.currState) (hf : Following c k s)
    (hok : Bench k s i) (he : s.err.errFrmReq = false) (hr : isReceiver s = true)
    (hq : s.pc.currState.behindHeader = true) (ht : pcRxTrigger s = false)
    (hh : s.rxs.view.header = FrameFormat.header (nbs v)) :
    TailAt c (k.next s i) (step c s i) (seen c v s i) w (step c s i).pc.currState := by
  have hb := between_behind (c := c) (i := i) he hq ht
  rw [hb.state]
  have hcov : s.pc.currState.inCovered = true → nbs (seen c v s i) = nbs v := fun hcov => by
    rw [nbs_seen he hcov, if_neg (by simp [ht])]
  cases hs : s.pc.currState <;> rw [hs] at h hq <;> first | exact absurd hq (by decide) | skip
  case data =>
    have hn := hcov (by rw [hs]; rfl)
    show (nbs (seen c v s i)).length + (step c s i).ctr.ctrlCtrQ + 1 = dataEnd (nbs (seen c v s i))
    rw [hn, hb.ctr]
    exact h
  case stuffCount =>
    have hn := hcov (by rw [hs]; rfl)
    have h : CountRead c k s v := h
    have hfix : (pcOut c s i).fixedStuff = true := by
      rw [pcOut_noErr he, hs]
      rfl
    have hrun := (h.run.next hf hok h.enable h.enabled hfix).1
    rw [ht, if_neg (by decide)] at hrun
    refine ⟨(isoFd_congr hn).trans h.iso, ?_, ?_, ?_, hb.enable.trans h.enable, h.enable, ?_⟩
    · rw [hn, hb.ctr]
      exact h.left
    · rw [hn]
      exact h.begun
    · rw [hn, hb.view]
      exact h.shifted
    · rw [hn]
      exact hrun
  all_goals rw [seen_behind (by rw [hs]; rfl)]
  case crc =>
    obtain ⟨hcr, hlen, hrun⟩ := h
    have hnext : isoFd c v = true → _ := fun hiso =>
      (hrun hiso).next hf hok (hcr.iso hiso).enable (hcr.iso hiso).enabled
        (fixedStuff_crc (c := c) (i := i) he hr hs hh hiso)
    rw [ht, if_neg (by decide)] at hnext
    refine ⟨⟨hcr.length, ?_, hcr.trailer, fun hiso => ?_⟩, ?_, fun hiso => (hnext hiso).1⟩
    · rw [hb.view]
      exact hcr.shifted
    · have hi := hcr.iso hiso
      exact ⟨by rw [hb.view]; exact hi.received, hb.enable.trans hi.enable, hi.enable,
        (hnext hiso).2.trans hi.counted⟩
    · rw [hb.ctr]
      exact hlen
  case crcDelim =>
    obtain ⟨hcr, hlen, hrun⟩ := h
    have hnext : isoFd c v = true → (step c s i).bds.dstCtrQ = s.bds.dstCtrQ ∧
        if (k.next s i).since = 0 then (step c s i).bds.destuffedQ = false
        else (step c s i).bds.sameBitsQ ≠ 5 := by
      intro hiso
      have hi := hcr.iso hiso
      have h0 : k.since ≠ 0 := by
        intro h0
        have hd := hrun hiso
        rw [if_pos h0] at hd
        simp [pcRxTrigger, hf.paced.trigger, h0, hd] at ht
      have h5 := hrun hiso
      rw [if_neg h0] at h5
      have hfix : (pcOut c s i).fixedStuff = false := by
        rw [pcOut_noErr he, hs]
        rfl
      cases hrx : i.rxTrigReq
      · have hquiet : (step c s i).bds = { s.bds with stuffErrQ := false } :=
          StuffLink.destuffing_quiet (j := bdsInput c s i) hrx hi.enable hi.enabled
        rw [hquiet, if_neg (by simp [Clock.next, sinceSample, hrx])]
        exact ⟨rfl, h5⟩
      · rw [if_pos (by simp [Clock.next, sinceSample, hrx])]
        simp [step, BitDestuffing.step, bdsInput, hrx, hfix, hi.enable, hi.enabled,
          BitDestuffing.discardStuffBit, BitDestuffing.nonFixToFixChng,
          BitDestuffing.stuffLvlReached, h5]
    refine ⟨⟨hcr.length, ?_, hcr.trailer, fun hiso => ?_⟩, hlen, fun hiso => (hnext hiso).2⟩
    · rw [hb.view]
      exact hcr.shifted
    · have hi := hcr.iso hiso
      exact ⟨by rw [hb.view]; exact hi.received, hb.enable.trans hi.enable, hi.enable,
        (hnext hiso).1.trans hi.counted⟩
  case eof =>
    obtain ⟨hlen, hchk, n, hn, htr⟩ := h
    exact ⟨hlen, hchk, n, by rw [hb.ctr]; exact hn, htr⟩
  all_goals
    have hm := crcMatch_kept (c := c) (i := i) he (by simp [hs])
    exact ⟨⟨h.1.length, by rw [hm]; exact h.1.verdict⟩, h.2⟩

/-! ### Bits taken -/

theorem behind_next (he : s.err.errFrmReq = false) (ht : pcRxTrigger s = true)
    (hq : s.pc.currState = .dlc ∨ s.pc.currState.behindHeader = true) :
    (step c s i).pc.currState = nextState c s.pc (pcInput c s i) :=
  step_sample ht he fun hst => by
    rcases hst with ⟨hst, -⟩ | ⟨hst, -⟩ <;> rw [hst] at hq <;> exact absurd hq (by decide)

/-- Fixed stuffing starts with a stuff bit. -/
theorem fixedRun_start (hm : Marks c k s v) (hf : Following c k s) (hok : Bench k s i)
    (he : s.err.errFrmReq = false) (hq : s.pc.currState.inCovered = true)
    (hne : s.pc.currState ≠ .stuffCount) (ht : pcRxTrigger s = true) :
    FixedRun (sampledBits (k.next s i) (step c s i) 0) (step c s i).bds ∧
      (step c s i).bds.enablePrev = true := by
  have h0 := hf.paced.pcRxTrigger_since ht
  obtain ⟨hen, hprev⟩ := hm.enabled hq he
  obtain ⟨-, htr, hfx⟩ := hm.tracks hq he
  have hfix : s.bds.fixedPrevQ = false := by
    rw [htr.fixed (hprev (by omega))]
    by_contra hx
    exact hne (hfx (by simpa using hx))
  have hrx := (Following.quiet_take hok h0).1
  have hquiet : (step c s i).bds = { s.bds with stuffErrQ := false } :=
    StuffLink.destuffing_quiet (j := bdsInput c s i) hrx hen (hprev (by omega))
  rw [sampledBits, if_neg (by simp [(hf.next_take hok h0).1]), hquiet]
  exact ⟨⟨fun _ => rfl, fun hx => absurd (hfix.symm.trans hx) (by decide)⟩, hprev (by omega)⟩

/-- The stuff count is entered. -/
theorem CountRead.enter {v' : List FrameBit} (hm : Marks c k s v) (hf : Following c k s)
    (hok : Bench k s i) (he : s.err.errFrmReq = false) (hq : s.pc.currState.inCovered = true)
    (hne : s.pc.currState ≠ .stuffCount) (ht : pcRxTrigger s = true)
    (hen' : (step c s i).pc.destuffEnable = true) (hiso : isoFd c v' = true)
    (hlen : (nbs v').length = dataEnd (nbs v')) (hctr : (step c s i).ctr.ctrlCtrQ = 3) :
    CountRead c (k.next s i) (step c s i) v' := by
  obtain ⟨hrun, hprev⟩ := fixedRun_start (i := i) hm hf hok he hq hne ht
  refine ⟨hiso, by omega, by omega, .empty (by omega), hen', hprev, ?_⟩
  rw [hlen, Nat.sub_self]
  exact hrun

/-- The CRC field is entered without a stuff count before it. -/
theorem tailAt_crc {v' : List FrameBit} {s' : State} {k' : Clock} (hiso : isoFd c v' = false)
    (hlen : (nbs v').length = dataEnd (nbs v')) (hctr : s'.ctr.ctrlCtrQ + 1 = crcWidth v') :
    TailAt c k' s' v' ⟨[], []⟩ .crc := by
  have hcov : coveredLength (nbs v') (!c.mrSettingsNisofd) = dataEnd (nbs v') := by
    rw [isoFd] at hiso
    simp [coveredLength, hiso]
  refine ⟨⟨by rw [hcov, hlen], .empty (by simp), rfl, fun h => ?_⟩, by simpa using hctr,
    fun h => ?_⟩ <;> exact absurd (hiso.symm.trans h) (by decide)

theorem crcLength_receiver (hr : isReceiver s = true) {h : Header}
    (hh : s.rxs.view.header.crcSrc = h.crcSrc) :
    crcLength c (pcInput c s i) + 1 = FrameFormat.crcLength h.crcSrc := by
  rw [crcLength_eq, receiver_crcSrc hr, hh]

theorem goToStuffCount_receiver (hr : isReceiver s = true) {v' : List FrameBit}
    (hh : s.rxs.view.header.frameType = (FrameFormat.header (nbs v')).frameType) :
    goToStuffCount c (pcInput c s i) = isoFd c v' := by
  rw [goToStuffCount, receiver_fd hr, hh, isoFd]

/-- The last bit of the DLC completes the fields stored so far. -/
theorem header_dlc (hread : HeaderRead k s v) (hf : Following c k s)
    (he : s.err.errFrmReq = false) (hq : s.pc.currState = .dlc) (hz : s.ctr.ctrlCtrZero = true)
    (ht : pcRxTrigger s = true) :
    FrameFormat.header (nbs (seen c v s i)) =
      { s.rxs.view.header with dlc := s.rxs.view.recDlcD s.bds.dataOut } := by
  have hc := hread.clearQ_taken hf ht
  have ho := pcOut_noErr (c := c) (i := i) he
  rw [hq] at ho
  have hview := view_take (c := c) (i := i) ht hc (by rw [ho]; rfl)
  rw [← (hread.complete (c := c) (i := i) hf he hq hz ht).2.header, hview, ho]
  simp [RxFields.header, RxFields.take, RxFields.recIsRtr, outState, outDlc, hz,
    FrameFormat.ident_split]

theorem noDataField_receiver (hr : isReceiver s = true) {h : Header}
    (hh : h = { s.rxs.view.header with dlc := s.rxs.view.recDlcD s.bds.dataOut }) :
    noDataField c (pcInput c s i) = decide (h.dataLength = 0) ∧
      (h.dataLength ≠ 0 → dataLengthC c (pcInput c s i) = h.dataLength) := by
  have hno : noDataField c (pcInput c s i) = (h.isRtr || h.dlc == 0) := by
    rw [noDataField, pcInput_isTransmitter, isTransmitter_receiver hr, pcInput_isReceiver, hr, hh]
    rfl
  have hlen : dataLengthC c (pcInput c s i) = dlcDecoder h.dlc h.frameType := by
    rw [dataLengthC, pcInput_isTransmitter, isTransmitter_receiver hr, hh]
    rfl
  have hzero := dlcDecoder_zero h.dlc h.frameType
  rw [hno, hlen, Header.dataLength]
  cases h.isRtr
  · refine ⟨?_, fun _ => rfl⟩
    rw [Bool.false_or, if_neg (by decide), Bool.eq_iff_iff, beq_iff_eq, decide_eq_true_eq, hzero]
  · simp

/-- The header decides how a receiver goes on behind the DLC. -/
theorem TailAt.take_dlc (hread : HeaderRead k s v) (hm : Marks c k s v) (hf : Following c k s)
    (hok : Bench k s i) (he : s.err.errFrmReq = false) (hr : isReceiver s = true)
    (hq : s.pc.currState = .dlc) (hz : s.ctr.ctrlCtrZero = true) (ht : pcRxTrigger s = true)
    (he' : (step c s i).err.errFrmReq = false) :
    TailAt c (k.next s i) (step c s i) (seen c v s i) (w.next s) (step c s i).pc.currState := by
  have hcov : s.pc.currState.inCovered = true := by rw [hq]; rfl
  obtain ⟨hlen, hdone⟩ := hread.complete (c := c) (i := i) hf he hq hz ht
  have hhead := header_dlc (c := c) (i := i) hread hf he hq hz ht
  obtain ⟨hno, hdata⟩ := noDataField_receiver (c := c) (i := i) hr hhead
  have hgo : goToStuffCount c (pcInput c s i) = isoFd c (seen c v s i) :=
    goToStuffCount_receiver hr (by rw [hhead])
  have hctr := ctr_taken (c := c) (i := i) he ht
  rw [hq] at hctr
  have hn := behind_next (c := c) (i := i) he ht (.inl hq)
  rw [nextState, pcInput_errFrmReq, he, hq] at hn
  simp only [Bool.false_eq_true, if_false, if_true, pcInput_ctrlCtrZero, hz, hno,
    decide_eq_true_eq, hgo] at hn
  simp only [outState, outDlc, pcInput_ctrlCtrZero, hz, if_true, hno, hgo,
    decide_eq_true_eq] at hctr
  rw [TailWatch.next_covered he ht hcov, hn]
  by_cases h0 : (FrameFormat.header (nbs (seen c v s i))).dataLength = 0
  · have hend : dataEnd (nbs (seen c v s i)) = (nbs (seen c v s i)).length := by
      rw [dataEnd, h0, ← hlen, Nat.mul_zero, Nat.add_zero]
    rw [if_pos h0] at hctr ⊢
    cases hiso : isoFd c (seen c v s i)
    · rw [hiso, if_neg (by decide)] at hctr
      rw [if_neg (by decide)]
      refine tailAt_crc hiso hend.symm ?_
      -- without data the CRC does not depend on the DLC, which is stored in this cycle
      have hsrc : s.rxs.view.header.crcSrc = (FrameFormat.header (nbs (seen c v s i))).crcSrc := by
        have hp : s.rxs.view.header.dlc = 0 := hread.pending (by rw [hq]; rfl)
        rw [hhead, Header.dataLength] at h0
        rw [hhead, Header.crcSrc, Header.crcSrc]
        cases hfd : s.rxs.view.header.frameType
        · rfl
        · have hrtr : s.rxs.view.header.isRtr = false := by
            have hfd : s.rxs.view.recFrameType = true := hfd
            simp [RxFields.header, RxFields.recIsRtr, hfd]
          simp only [hrtr, Bool.false_eq_true, if_false, hfd] at h0
          have hpre : dlcDecoder s.rxs.view.header.dlc true = 0 := (dlcDecoder_zero _ _).mpr hp
          simp only [Bool.not_true, Bool.false_eq_true, if_false, h0, hpre]
      rw [hctr, crcWidth]
      exact crcLength_receiver hr hsrc
    · rw [hiso, if_pos rfl] at hctr
      rw [if_pos rfl]
      rw [hiso, if_pos h0, if_pos rfl] at hn
      have hen' := ((hm.step_marks hf hok).enabled (by rw [hn]; rfl) he').1
      exact .enter hm hf hok he hcov (by rw [hq]; decide) ht hen' hiso hend.symm hctr
  · rw [if_neg h0] at hctr ⊢
    have hle := dataLengthC_le (c := c) (i := pcInput c s i)
    rw [hdata h0] at hle
    rw [dataLengthBitsC, hdata h0] at hctr
    show (nbs (seen c v s i)).length + (step c s i).ctr.ctrlCtrQ + 1 = dataEnd (nbs (seen c v s i))
    rw [hctr, dataEnd, ← hlen]
    omega

/-- Behind the header the bits taken do not change it. -/
theorem header_taken (hdone : HeaderDone (nbs v) s.rxs.view) (he : s.err.errFrmReq = false)
    (hcov : s.pc.currState.inCovered = true) (ht : pcRxTrigger s = true) :
    nbs (seen c v s i) = nbs v ++ [s.bds.dataOut] ∧
      FrameFormat.header (nbs (seen c v s i)) = FrameFormat.header (nbs v) ∧
      dataEnd (nbs (seen c v s i)) = dataEnd (nbs v) := by
  have hn : nbs (seen c v s i) = nbs v ++ [s.bds.dataOut] := by
    rw [nbs_seen he hcov, if_pos ht]
  rw [hn]
  exact ⟨rfl, FrameFormat.header_append _ hdone.complete,
    FrameFormat.dataEnd_append _ hdone.complete⟩

theorem TailAt.take_data (h : TailAt c k s v w .data) (hdone : HeaderDone (nbs v) s.rxs.view)
    (hm : Marks c k s v) (hf : Following c k s) (hok : Bench k s i)
    (he : s.err.errFrmReq = false) (hr : isReceiver s = true) (hq : s.pc.currState = .data)
    (ht : pcRxTrigger s = true) (he' : (step c s i).err.errFrmReq = false) :
    TailAt c (k.next s i) (step c s i) (seen c v s i) (w.next s) (step c s i).pc.currState := by
  have hcov : s.pc.currState.inCovered = true := by rw [hq]; rfl
  have h : (nbs v).length + s.ctr.ctrlCtrQ + 1 = dataEnd (nbs v) := h
  obtain ⟨hn, hhead, hend⟩ := header_taken (c := c) (i := i) hdone he hcov ht
  have hlen : (nbs (seen c v s i)).length = (nbs v).length + 1 := by simp [hn]
  have hgo : goToStuffCount c (pcInput c s i) = isoFd c (seen c v s i) :=
    goToStuffCount_receiver hr (by rw [hdone.header, hhead])
  have hctr := ctr_taken (c := c) (i := i) he ht
  rw [hq] at hctr
  have hst := behind_next (c := c) (i := i) he ht (.inr (by rw [hq]; rfl))
  rw [nextState, pcInput_errFrmReq, he, hq] at hst
  simp only [Bool.false_eq_true, if_false, pcInput_ctrlCtrZero, hgo] at hst
  simp only [outState, outData, pcInput_ctrlCtrZero, hgo] at hctr
  rw [TailWatch.next_covered he ht hcov]
  by_cases h0 : s.ctr.ctrlCtrQ = 0
  · have hz : s.ctr.ctrlCtrZero = true := by simp [ControlCounter.ctrlCtrZero, h0]
    simp only [hz, if_true] at hst hctr
    have hfull : (nbs (seen c v s i)).length = dataEnd (nbs (seen c v s i)) := by omega
    cases hiso : isoFd c (seen c v s i)
    · rw [hiso, if_neg (by decide)] at hctr hst
      rw [hst]
      refine tailAt_crc hiso hfull ?_
      rw [hctr, crcWidth]
      exact crcLength_receiver hr (by rw [hdone.header, hhead])
    · rw [hiso, if_pos rfl] at hctr hst
      have hen' := ((hm.step_marks hf hok).enabled (by rw [hst]; rfl) he').1
      rw [hst]
      exact CountRead.enter hm hf hok he hcov (by rw [hq]; decide) ht hen' hiso hfull hctr
  · have hz : s.ctr.ctrlCtrZero = false := by simp [ControlCounter.ctrlCtrZero, h0]
    have hlt := hf.paced.ctr_lt
    simp only [hz, Bool.false_eq_true, if_false, if_true] at hst hctr
    rw [hst]
    show (nbs (seen c v s i)).length + (step c s i).ctr.ctrlCtrQ + 1 = dataEnd (nbs (seen c v s i))
    omega

/-- With all bytes enabled a bit is shifted in. -/
theorem view_shift (ht : pcRxTrigger s = true) (hc : s.rxs.clearQ = false)
    (ho : (pcOut c s i).rxClearI = false) (hsel : (pcOut c s i).rxShiftInSel = false)
    (hena : (pcOut c s i).rxShiftEna = fun _ => true) :
    (step c s i).rxs.view.rxShiftRegQ =
      shiftRegByte s.rxs.view.rxShiftRegQ (fun _ => true) false s.bds.dataOut := by
  rw [view_take ht hc ho, RxFields.take, hsel, hena]

theorem destuffEnable_taken (he : s.err.errFrmReq = false)
    (hq : s.pc.currState = .stuffCount ∨ s.pc.currState = .crc) :
    (step c s i).pc.destuffEnable = s.pc.destuffEnable := by
  have ho : (pcOut c s i).destuffEnableSet = false ∧ (pcOut c s i).destuffEnableClear = false := by
    rw [pcOut_noErr he]
    rcases hq with hq | hq <;> rw [hq] <;> exact ⟨rfl, rfl⟩
  have hs : (step c s i).pc.destuffEnable = if ctrlSignalUpd (pcInput c s i) then
      (pcOut c s i).destuffEnableSet || (s.pc.destuffEnable && !(pcOut c s i).destuffEnableClear)
      else s.pc.destuffEnable := rfl
  rw [hs, ho.1, ho.2]
  simp

theorem TailAt.take_stuffCount (h : TailAt c k s v w .stuffCount) (hread : HeaderRead k s v)
    (htally : Tallies s.bds (upTo k s v)) (hf : Following c k s) (hok : Bench k s i)
    (he : s.err.errFrmReq = false) (hr : isReceiver s = true) (hq : s.pc.currState = .stuffCount)
    (ht : pcRxTrigger s = true) :
    TailAt c (k.next s i) (step c s i) (seen c v s i) (w.next s) (step c s i).pc.currState := by
  have hcov : s.pc.currState.inCovered = true := by rw [hq]; rfl
  have hdone := hread.done (by rw [hq]; rfl)
  have h : CountRead c k s v := h
  have hc := hread.clearQ_taken hf ht
  obtain ⟨hn, hhead, hend⟩ := header_taken (c := c) (i := i) hdone he hcov ht
  have hlen : (nbs (seen c v s i)).length = (nbs v).length + 1 := by simp [hn]
  have hiso : isoFd c (seen c v s i) = true := by
    rw [isoFd, hhead]
    exact h.iso
  have ho := pcOut_noErr (c := c) (i := i) he
  rw [hq] at ho
  have hfix : (pcOut c s i).fixedStuff = true := by rw [ho]; rfl
  obtain ⟨hrun, hcount⟩ := h.run.next (c := c) hf hok h.enable h.enabled hfix
  rw [if_pos ht] at hrun
  have hen' := destuffEnable_taken (c := c) (i := i) he (.inl hq)
  have hbegun := h.begun
  have hleft := h.left
  have hctr := ctr_taken (c := c) (i := i) he ht
  rw [hq] at hctr
  have hst := behind_next (c := c) (i := i) he ht (.inr (by rw [hq]; rfl))
  rw [nextState, pcInput_errFrmReq, he, hq] at hst
  simp only [Bool.false_eq_true, if_false, pcInput_ctrlCtrZero] at hst
  simp only [outState, outStuffCount, pcInput_ctrlCtrZero] at hctr
  rw [TailWatch.next_covered he ht hcov]
  by_cases h0 : s.ctr.ctrlCtrQ = 0
  · have hz : s.ctr.ctrlCtrZero = true := by simp [ControlCounter.ctrlCtrZero, h0]
    simp only [hz, if_true] at hst hctr
    rw [hst]
    refine ⟨⟨?_, .empty (by simp), rfl, fun _ => ⟨?_, hen'.trans h.enable, h.enable, ?_⟩⟩, ?_,
      fun _ => ?_⟩
    · have hiso' : (!c.mrSettingsNisofd && (FrameFormat.header (nbs (seen c v s i))).frameType) =
          true := hiso
      rw [coveredLength, hiso', if_pos rfl]
      omega
    · have hstore : (pcOut c s i).rxStoreStuffCountI = true := by
        rw [ho]
        exact hz
      rw [view_take ht hc (by rw [ho]; rfl), hend, hn, word_concat _ (by omega)]
      simp only [RxFields.take, hstore, if_true, RxFields.recDlcD]
      rw [h.shifted 3 (by omega)]
    · rw [hcount, htally.count h.enabled, Marks.seen_upTo hf he hcov]
    · show 0 + (step c s i).ctr.ctrlCtrQ + 1 = crcWidth (seen c v s i)
      rw [hctr, crcWidth, Nat.zero_add]
      exact crcLength_receiver hr (by rw [hdone.header, hhead])
    · have hm : (nbs v).length - dataEnd (nbs v) + 1 = 4 := by omega
      rw [hm] at hrun
      exact hrun
  · have hz : s.ctr.ctrlCtrZero = false := by simp [ControlCounter.ctrlCtrZero, h0]
    have hlt := hf.paced.ctr_lt
    simp only [hz, Bool.false_eq_true, if_false, if_true] at hst hctr
    rw [hst]
    refine (⟨hiso, by omega, by omega, ?_, hen'.trans h.enable, h.enable, ?_⟩ :
      CountRead c (k.next s i) (step c s i) (seen c v s i))
    · rw [view_shift ht hc (by rw [ho]; rfl) (by rw [ho]; rfl) (by rw [ho]; rfl), hend, hn]
      exact h.shifted.take hbegun (by omega) _
    · have hm : (nbs (seen c v s i)).length - dataEnd (nbs (seen c v s i)) =
          (nbs v).length - dataEnd (nbs v) + 1 := by omega
      rw [hm]
      exact hrun

theorem crcWidth_fd (hiso : isoFd c v = true) : crcWidth v = 17 ∨ crcWidth v = 21 := by
  have hfd : (FrameFormat.header (nbs v)).frameType = true := by
    simp only [isoFd, Bool.and_eq_true] at hiso
    exact hiso.2
  rw [crcWidth, Header.crcSrc, hfd]
  simp only [Bool.not_true, Bool.false_eq_true, if_false]
  split
  · exact .inr rfl
  · exact .inl rfl

theorem crcWidth_le (v : List FrameBit) : crcWidth v ≤ 21 := by
  rw [crcWidth]
  cases (FrameFormat.header (nbs v)).crcSrc <;> decide

theorem TailAt.take_crc (h : TailAt c k s v w .crc) (hread : HeaderRead k s v)
    (hf : Following c k s) (hok : Bench k s i) (he : s.err.errFrmReq = false)
    (hr : isReceiver s = true) (hq : s.pc.currState = .crc) (ht : pcRxTrigger s = true) :
    TailAt c (k.next s i) (step c s i) (seen c v s i) (w.next s) (step c s i).pc.currState := by
  have hdone := hread.done (by rw [hq]; rfl)
  obtain ⟨hcr, hlen, hfix⟩ := h
  have hc := hread.clearQ_taken hf ht
  have ho := pcOut_noErr (c := c) (i := i) he
  rw [hq] at ho
  have hen' := destuffEnable_taken (c := c) (i := i) he (.inr hq)
  have hwidth := crcWidth_le v
  have hnext : isoFd c v = true → _ := fun hiso =>
    (hfix hiso).next (c := c) hf hok (hcr.iso hiso).enable (hcr.iso hiso).enabled
      (fixedStuff_crc (c := c) (i := i) he hr hq hdone.header hiso)
  rw [if_pos ht] at hnext
  have hctr := ctr_taken (c := c) (i := i) he ht
  rw [hq] at hctr
  have hst := behind_next (c := c) (i := i) he ht (.inr (by rw [hq]; rfl))
  rw [nextState, pcInput_errFrmReq, he, hq] at hst
  simp only [Bool.false_eq_true, if_false, pcInput_ctrlCtrZero] at hst
  simp only [outState, outCrc, Bool.false_eq_true, if_false, if_true] at hctr
  -- what holds in the field and in the delimiter
  have hread' : CrcRead c (step c s i) v { w with crcBits := w.crcBits ++ [s.bds.dataOut] } := by
    refine ⟨hcr.length, ?_, hcr.trailer, fun hiso => ?_⟩
    · rw [view_shift ht hc (by rw [ho]; rfl) (by rw [ho]; rfl) (by rw [ho]; rfl)]
      exact hcr.shifted.take (by omega) (by omega) _
    · have hi := hcr.iso hiso
      refine ⟨?_, hen'.trans hi.enable, hi.enable, (hnext hiso).2.trans hi.counted⟩
      have hstore : (pcOut c s i).rxStoreStuffCountI = false := by rw [ho]; rfl
      rw [view_take ht hc (by rw [ho]; rfl)]
      simpa [RxFields.take, hstore] using hi.received
  rw [TailWatch.next_crc he ht hq, seen_behind (by rw [hq]; rfl)]
  have hbits : (w.crcBits ++ [s.bds.dataOut]).length = w.crcBits.length + 1 := by simp
  by_cases h0 : s.ctr.ctrlCtrQ = 0
  · have hz : s.ctr.ctrlCtrZero = true := by simp [ControlCounter.ctrlCtrZero, h0]
    simp only [hz, if_true] at hst
    rw [hst]
    refine ⟨hread', by rw [hbits]; omega, fun hiso => ?_⟩
    rw [if_neg (by simp [(hf.next_take hok (hf.paced.pcRxTrigger_since ht)).1])]
    -- one bit was sampled behind the last fixed stuff bit
    have hrun := (hnext hiso).1
    rw [sampledBits, if_neg (by simp [(hf.next_take hok (hf.paced.pcRxTrigger_since ht)).1])]
      at hrun
    have hw := crcWidth_fd hiso
    cases hfx : (step c s i).bds.fixedPrevQ
    · have := hrun.first hfx
      omega
    · rcases hrun.run hfx with hs | ⟨-, hs, -⟩ <;> omega
  · have hz : s.ctr.ctrlCtrZero = false := by simp [ControlCounter.ctrlCtrZero, h0]
    have hlt := hf.paced.ctr_lt
    simp only [hz, Bool.false_eq_true, if_false] at hst
    rw [hst]
    refine ⟨hread', by rw [hbits]; omega, fun hiso => ?_⟩
    rw [hbits, ← Nat.add_assoc]
    exact (hnext hiso).1

/-- A bit taken without an error has the form its field asks for. -/
theorem form_taken (he' : (step c s i).err.errFrmReq = false) (ht : pcRxTrigger s = true) :
    (pcOut c s i).formErrI = false ∧ (pcOut c s i).crcErrI = false := by
  simp [step, ErrDetector.step, ErrDetector.errFrmReqI, errInput, ht] at he'
  obtain ⟨⟨⟨⟨⟨-, hform⟩, -⟩, hcrc⟩, -⟩, -⟩ := he'
  exact ⟨hform, hcrc⟩

theorem TailAt.take_crcDelim {r : CanCrc} (h : TailAt c k s v w .crcDelim)
    (hdone : HeaderDone (nbs v) s.rxs.view) (hold : Holds c r (nbs v) (wbs v))
    (hmatch : i.crcMatchC = CanCrc.crcMatchC c s i r) (he : s.err.errFrmReq = false)
    (hr : isReceiver s = true) (hq : s.pc.currState = .crcDelim) (ht : pcRxTrigger s = true)
    (he' : (step c s i).err.errFrmReq = false) :
    TailAt c (k.next s i) (step c s i) (seen c v s i) (w.next s) (step c s i).pc.currState := by
  obtain ⟨hcr, hlen, -⟩ := h
  have ho := pcOut_noErr (c := c) (i := i) he
  rw [hq] at ho
  have hbit : s.bds.dataOut = true := by
    have hform := (form_taken he' ht).1
    rw [ho] at hform
    simpa [outState, outCrcDelim, ht] using hform
  have hjudged : Judged c (step c s i) v { w with trailer := w.trailer ++ [s.bds.dataOut] } := by
    have hclear : (pcOut c s i).crcClearMatchFlag = false := by rw [ho]; rfl
    have hcheck : (pcOut c s i).crcCheck = true := by
      rw [ho]
      exact ht
    refine ⟨hcr.length, ?_⟩
    have hnew : (step c s i).err.crcMatchQ = i.crcMatchC := by
      simp [step, ErrDetector.step, errInput, hclear, hcheck]
    rw [hnew, hmatch]
    exact crcMatch_checked (w := w) hcr hlen hdone.header hr hold
  have hst := behind_next (c := c) (i := i) he ht (.inr (by rw [hq]; rfl))
  rw [nextState, pcInput_errFrmReq, he, hq] at hst
  simp only [Bool.false_eq_true, if_false, receiver_fd hr, hdone.header] at hst
  rw [TailWatch.next_trailer he ht (by rw [hq]; rfl), seen_behind (by rw [hq]; rfl), hst]
  have htr : w.trailer ++ [s.bds.dataOut] = [true] := by rw [hcr.trailer, hbit]; rfl
  cases hfd : (FrameFormat.header (nbs v)).frameType
  · exact ⟨hjudged, hfd, htr⟩
  · exact ⟨hjudged, hfd, htr⟩

theorem Judged.taken (h : Judged c s v w) (he : s.err.errFrmReq = false)
    (hq : s.pc.currState = .ack ∨ s.pc.currState = .ackFd1 ∨ s.pc.currState = .ackFd2 ∨
      s.pc.currState = .ackDelim) (trailer : List Bool) :
    Judged c (step c s i) v { w with trailer := trailer } :=
  ⟨h.length, by rw [crcMatch_kept he hq]; exact h.verdict⟩

theorem TailAt.take_ack (h : TailAt c k s v w s.pc.currState) (he : s.err.errFrmReq = false)
    (hq : s.pc.currState = .ack ∨ s.pc.currState = .ackFd1 ∨ s.pc.currState = .ackFd2)
    (ht : pcRxTrigger s = true) :
    TailAt c (k.next s i) (step c s i) (seen c v s i) (w.next s) (step c s i).pc.currState := by
  have hst := behind_next (c := c) (i := i) he ht
    (.inr (by rcases hq with hq | hq | hq <;> rw [hq] <;> rfl))
  rw [nextState, pcInput_errFrmReq, he] at hst
  rw [TailWatch.next_trailer he ht (by rcases hq with hq | hq | hq <;> rw [hq] <;> rfl),
    seen_behind (by rcases hq with hq | hq | hq <;> rw [hq] <;> rfl)]
  rcases hq with hq | hq | hq <;> rw [hq] at h hst <;>
    simp only [Bool.false_eq_true, if_false] at hst <;> rw [hst]
  · obtain ⟨hj, hfd, htr⟩ := h
    exact ⟨hj.taken he (by simp [hq]) _, [s.bds.dataOut], by simp [ackLength, hfd], by simp [htr]⟩
  · obtain ⟨hj, hfd, htr⟩ := h
    exact ⟨hj.taken he (by simp [hq]) _, hfd, s.bds.dataOut, by simp [htr]⟩
  · obtain ⟨hj, hfd, a, htr⟩ := h
    exact ⟨hj.taken he (by simp [hq]) _, [a, s.bds.dataOut], by simp [ackLength, hfd],
      by simp [htr]⟩

/-- Only a frame with the right CRC gets to the end of frame. -/
theorem TailAt.take_ackDelim (h : TailAt c k s v w .ackDelim) (he : s.err.errFrmReq = false)
    (hr : isReceiver s = true) (hq : s.pc.currState = .ackDelim) (ht : pcRxTrigger s = true)
    (he' : (step c s i).err.errFrmReq = false) :
    TailAt c (k.next s i) (step c s i) (seen c v s i) (w.next s) (step c s i).pc.currState := by
  obtain ⟨hj, acks, hacks, htr⟩ := h
  have ho := pcOut_noErr (c := c) (i := i) he
  rw [hq] at ho
  obtain ⟨hform, hcrc⟩ := form_taken he' ht
  rw [ho] at hform hcrc
  have hbit : s.bds.dataOut = true := by simpa [outState, outAckDelim] using hform
  have hmatch : s.err.crcMatchQ = true := by
    simpa [outState, outAckDelim, hr, pcInput] using hcrc
  have hst := behind_next (c := c) (i := i) he ht (.inr (by rw [hq]; rfl))
  rw [nextState, pcInput_errFrmReq, he, hq] at hst
  simp only [Bool.false_eq_true, if_false] at hst
  rw [TailWatch.next_trailer he ht (by rw [hq]; rfl), seen_behind (by rw [hq]; rfl), hst]
  exact ⟨hj.length, hj.verdict.mp hmatch, 0, by rw [ctr_ackDelim he hq ht],
    acks, hacks, by simp [htr, hbit]⟩

theorem TrailerOk.recessive {h : Header} {n : Nat} {l : List Bool} (ht : TrailerOk h n l) :
    TrailerOk h (n + 1) (l ++ [true]) := by
  obtain ⟨acks, hacks, rfl⟩ := ht
  exact ⟨acks, hacks, by simp [List.replicate_succ']⟩

theorem TailAt.take_eof (h : TailAt c k s v w .eof) (hf : Following c k s)
    (he : s.err.errFrmReq = false) (hr : isReceiver s = true) (hq : s.pc.currState = .eof)
    (ht : pcRxTrigger s = true) (he' : (step c s i).err.errFrmReq = false) :
    TailAt c (k.next s i) (step c s i) (seen c v s i) (w.next s) (step c s i).pc.currState := by
  obtain ⟨hlen, hchk, n, hn, htr⟩ := h
  have hst := behind_next (c := c) (i := i) he ht (.inr (by rw [hq]; rfl))
  rw [nextState, pcInput_errFrmReq, he, hq] at hst
  rw [TailWatch.next_trailer he ht (by rw [hq]; rfl), seen_behind (by rw [hq]; rfl)]
  by_cases h0 : s.ctr.ctrlCtrQ = 0
  · -- the frame is over
    have hz : s.ctr.ctrlCtrZero = true := by simp [ControlCounter.ctrlCtrZero, h0]
    simp only [Bool.false_eq_true, if_false, pcInput_ctrlCtrZero, hz, if_true, pcInput_isReceiver,
      hr] at hst
    rw [hst]
    (repeat' split) <;> trivial
  · have hz : s.ctr.ctrlCtrZero = false := by simp [ControlCounter.ctrlCtrZero, h0]
    simp only [Bool.false_eq_true, if_false, pcInput_ctrlCtrZero, hz] at hst
    have hbit : s.bds.dataOut = true := by
      have hform := (form_taken he' ht).1
      rw [pcOut_noErr he, hq] at hform
      simpa [outState, outEof, hz] using hform
    have hctr := ctr_eof (c := c) (i := i) he hq h0 hf.paced.ctr_lt
    rw [if_pos ht] at hctr
    rw [hst, hbit]
    exact ⟨hlen, hchk, n + 1, by rw [hctr]; omega, htr.recessive⟩

/-! ### Whole frames -/

structure TailRead (c : Config) (k : Clock) (s : State) (v : List FrameBit) (w : TailWatch) :
    Prop where
  tallies : s.pc.currState.inCovered = true → s.err.errFrmReq = false → Tallies s.bds (upTo k s v)
  tail : isReceiver s = true → s.err.errFrmReq = false → TailAt c k s v w s.pc.currState
  valid : s.pc.recValid = true → s.pc.currState = .eof ∧ (isReceiver s = true → Accepted c v w)

/-- Behind the header nobody becomes receiver. -/
theorem receiver_before (he : s.err.errFrmReq = false) (hq : s.pc.currState.behindHeader = true)
    (hr' : isReceiver (step c s i) = true) : isReceiver s = true := by
  have ho : (out c s.pc (pcInput c s i)).setReceiverI = false ∧
      (pcOut c s i).arbitrationLostI = false := by
    rw [pcOut_noErr he, out_state he]
    cases hs : s.pc.currState <;> rw [hs] at hq <;>
      first | exact ⟨rfl, rfl⟩ | exact absurd hq (by decide)
  simp only [isReceiver, step, nextOc, setReceiver, ho.1, ho.2, Bool.false_and] at hr' ⊢
  revert hr'
  cases s.oc <;> simp only [OperationControl.step, Bool.false_or] <;> grind

theorem TailRead.next_tail {r : CanCrc} (h : TailRead c k s v w) (hf : Following c k s)
    (hm : Marks c k s v) (hcov : Coverage c k s r v) (hread : HeaderRead k s v)
    (hok : Bench k s i) (hmatch : i.crcMatchC = CanCrc.crcMatchC c s i r)
    (hr' : isReceiver (step c s i) = true) (he' : (step c s i).err.errFrmReq = false) :
    TailAt c (k.next s i) (step c s i) (seen c v s i) (w.next s) (step c s i).pc.currState := by
  by_cases hb : (step c s i).pc.currState.behindHeader = true
  · obtain ⟨he, hq | ⟨hq, hz, ht⟩⟩ := enter_behindHeader hb
    · have hr := receiver_before he hq hr'
      have hat := h.tail hr he
      have hdone := hread.done hq
      cases ht : pcRxTrigger s
      · rw [TailWatch.next_hold ht]
        exact hat.hold hf hok he hr hq ht hdone.header
      · cases hs : s.pc.currState <;> rw [hs] at hat hq <;> first | exact absurd hq (by decide) | skip
        case data => exact hat.take_data hdone hm hf hok he hr hs ht he'
        case stuffCount =>
          exact hat.take_stuffCount hread (h.tallies (by rw [hs]; rfl) he) hf hok he hr hs ht
        case crc => exact hat.take_crc hread hf hok he hr hs ht
        case crcDelim =>
          exact hat.take_crcDelim hdone (hcov.done (by rw [hs]; rfl) he) hmatch he hr hs ht he'
        case ack => exact TailAt.take_ack (hs ▸ hat) he (.inl hs) ht
        case ackFd1 => exact TailAt.take_ack (hs ▸ hat) he (.inr (.inl hs)) ht
        case ackFd2 => exact TailAt.take_ack (hs ▸ hat) he (.inr (.inr hs)) ht
        case ackDelim => exact hat.take_ackDelim he hr hs ht he'
        case eof => exact hat.take_eof hf he hr hs ht he'
    · have hr : isReceiver s = true := by
        rw [← isReceiver_step (c := c) (i := i) he (.inl hq)]
        exact hr'
      exact .take_dlc hread hm hf hok he hr hq hz ht he'
  · -- outside a frame there is nothing to show
    revert hb
    cases (step c s i).pc.currState <;> first | exact fun _ => trivial | exact fun h => absurd rfl h

/-- The frame is validated with the sixth bit of the end of frame. -/
theorem TailRead.next_valid (h : TailRead c k s v w) (hv : (step c s i).pc.recValid = true) :
    (step c s i).pc.currState = .eof ∧
      (isReceiver (step c s i) = true → Accepted c (seen c v s i) (w.next s)) := by
  have hs : (step c s i).pc.recValid =
      ((isReceiver s || c.mrSettingsIlbp) && pcRxTrigger s &&
        (out c s.pc (pcInput c s i)).recValidD) := rfl
  rw [hs, out_recValidD] at hv
  simp only [Bool.and_eq_true, Bool.not_eq_true', decide_eq_true_eq, pcInput_errFrmReq,
    pcInput_ctrlCtrOne, pcInput_rxDataNbs] at hv
  obtain ⟨⟨-, ht⟩, ⟨⟨he, hq⟩, hone⟩, hbit⟩ := hv
  have h1 : s.ctr.ctrlCtrQ = 1 := by simpa [ControlCounter.ctrlCtrOne] using hone
  have hz : s.ctr.ctrlCtrZero = false := by simp [ControlCounter.ctrlCtrZero, h1]
  refine ⟨(step_counted (c := c) (i := pcInput c s i) (.inr hq) hz he).trans hq, fun hr' => ?_⟩
  have hat := h.tail (receiver_before he (by rw [hq]; rfl) hr') he
  rw [hq] at hat
  obtain ⟨hlen, hchk, n, hn, htr⟩ := hat
  obtain rfl : n = 5 := by omega
  rw [TailWatch.next_trailer he ht (by rw [hq]; rfl), seen_behind (by rw [hq]; rfl), hbit]
  exact ⟨hlen, hchk, htr.recessive⟩

theorem TailRead.of_reset (c : Config) (sent : Bool) (v : List FrameBit) (w : TailWatch) :
    TailRead c ⟨4, sent, none⟩ reset v w where
  tallies h := by cases h
  tail h := by cases h
  valid h := by cases h

end Steps

/-! ## Every frame of a run -/

def acceptStep (c : Config) :
    (CrcCore × FrameWatch) × TailWatch → Input → (CrcCore × FrameWatch) × TailWatch :=
  watched (crcStep c) fun w p _ => w.next p.1.core

def acceptStart (sent : Bool) (v : List FrameBit) (w : TailWatch) :
    (CrcCore × FrameWatch) × TailWatch := (crcStart sent v, w)

def AcceptBench (c : Config) (q : (CrcCore × FrameWatch) × TailWatch) (i : Input) : Prop :=
  CrcBench c q.1 i

instance (c : Config) (q : (CrcCore × FrameWatch) × TailWatch) (i : Input) :
    Decidable (AcceptBench c q i) := inferInstanceAs (Decidable (CrcBench _ _ _))

structure AcceptInvariant (c : Config) (q : (CrcCore × FrameWatch) × TailWatch) : Prop where
  crc : CrcInvariant c q.1
  header : HeaderRead q.1.2.clock q.1.1.core q.1.2.frame
  tail : TailRead c q.1.2.clock q.1.1.core q.1.2.frame q.2

theorem run_acceptInvariant {c : Config} (hena : c.mrSettingsEna = true) (sent : Bool)
    (v : List FrameBit) (w : TailWatch) (is : List Input)
    (h : Admits (acceptStep c) (AcceptBench c) (acceptStart sent v w) is) :
    AcceptInvariant c (run (acceptStep c) (acceptStart sent v w) is) := by
  refine run_invariant (acceptStep c) (AcceptBench c) (AcceptInvariant c) ?_
    ⟨⟨.of_reset sent, .of_reset c sent v, .of_reset c sent v⟩, .of_reset sent v,
      .of_reset c sent v w⟩ is h
  rintro ⟨⟨p, f⟩, w⟩ i ⟨hcrc, hhead, htail⟩ hok
  have hok : Bench f.clock p.core (p.input c i) := hok
  exact {
    crc := ⟨hcrc.following.step_following hok hena,
      hcrc.coverage.step_coverage hcrc.following hok hena,
      hcrc.marks.step_marks hcrc.following hok⟩
    header := hhead.step_read hcrc.following hok
    tail := {
      tallies := fun hq _ => tallies_next htail.tallies hcrc.marks hcrc.following hok hq
      tail := fun hr he => htail.next_tail hcrc.following hcrc.marks hcrc.coverage hhead hok rfl hr he
      valid := fun hv => htail.next_valid hv } }

/-- In every run, when a receiver validates a frame, the bits it has taken form a complete frame:
as many bits as the header announces, the CRC sequence of these bits, the number of their stuff
bits in an ISO CAN FD frame, and recessive delimiters and end of frame. The header stands on the
outputs for the RX buffer. -/
theorem accepted_frame (c : Config) (hena : c.mrSettingsEna = true) (sent : Bool)
    (v : List FrameBit) (w : TailWatch) (is : List Input)
    (h : Admits (acceptStep c) (AcceptBench c) (acceptStart sent v w) is) :
    let q := run (acceptStep c) (acceptStart sent v w) is
    q.1.1.core.pc.recValid = true → isReceiver q.1.1.core = true →
      Accepted c q.1.2.frame q.2 ∧
        q.1.1.core.rxs.view.header = FrameFormat.header (nbs q.1.2.frame) := by
  intro q hv hr
  have hinv := run_acceptInvariant hena sent v w is h
  obtain ⟨hq, hacc⟩ := hinv.tail.valid hv
  exact ⟨hacc hr, (hinv.header.done (by rw [hq]; rfl)).header⟩

/-- Behind the CRC delimiter, ACK slot and ACK delimiter, and six bits of the end of frame. -/
def shortTail : List Bool := [true, false] ++ List.replicate 7 true

/-- Up to the cycle in which the receiver validates the frame. -/
def shortAccepted : List Input :=
  (frameOnBus false (shortHeader ++ shortCrc ++ shortTail)).take 277

theorem accepted_frame_short :
    let q := run (acceptStep listener) (acceptStart true [] ⟨[], []⟩) shortAccepted
    q.1.1.core.pc.recValid = true ∧ q.2.crcBits = shortCrc ∧ Accepted listener q.1.2.frame q.2 := by
  have hadm : Admits (acceptStep listener) (AcceptBench listener)
      (acceptStart true [] ⟨[], []⟩) shortAccepted := by decide +kernel
  have hrun : (fun q : (CrcCore × FrameWatch) × TailWatch => q.1.1.core.pc.recValid = true ∧
      isReceiver q.1.1.core = true ∧ q.2.crcBits = shortCrc)
      (run (acceptStep listener) (acceptStart true [] ⟨[], []⟩) shortAccepted) := by decide +kernel
  obtain ⟨hv, hr, hcrc⟩ := hrun
  exact ⟨hv, hcrc, (accepted_frame listener rfl true [] _ _ hadm hv hr).1⟩

/-- In every run, a receiver in the first bit of the ACK slot sends a dominant bit exactly if the
CRC sequence and the stuff count it received belong to the bits before them, unless it was told
not to acknowledge. -/
theorem acknowledges_checked (c : Config) (hena : c.mrSettingsEna = true) (sent : Bool)
    (v : List FrameBit) (w : TailWatch) (is : List Input)
    (h : Admits (acceptStep c) (AcceptBench c) (acceptStart sent v w) is) (i : Input) :
    let q := run (acceptStep c) (acceptStart sent v w) is
    (q.1.1.core.pc.currState = .ack ∨ q.1.1.core.pc.currState = .ackFd1) →
      isReceiver q.1.1.core = true → q.1.1.core.err.errFrmReq = false →
      (txDataNbs c q.1.1.core (q.1.1.input c i) = false ↔
        Checked c q.1.2.frame q.2.crcBits ∧ c.mrModeAcf = false) := by
  intro q hq hr he
  have hat := (run_acceptInvariant hena sent v w is h).tail.tail hr he
  have hj : Judged c q.1.1.core q.1.2.frame q.2 := by
    rcases hq with hq | hq
    · rw [hq] at hat
      exact hat.1
    · rw [hq] at hat
      exact hat.1
  have hdom : (pcOut c q.1.1.core (q.1.1.input c i)).txDominant =
      (q.1.1.core.err.crcMatchQ && !c.mrModeAcf) := by
    rw [pcOut_noErr he]
    have hack : txDominantAck c (pcInput c q.1.1.core (q.1.1.input c i)) =
        (q.1.1.core.err.crcMatchQ && !c.mrModeAcf) := by
      simp [txDominantAck, isTransmitter_receiver hr, hr, pcInput]
    rcases hq with hq | hq <;> rw [hq] <;> exact hack
  have hshift : txShiftEna c q.1.1.core (q.1.1.input c i) = false := by
    simp [txShiftEna, ProtocolControl.txShiftEna, isTransmitter_receiver hr]
  rw [← hj.verdict, txDataNbs, TxShiftReg.txDataNbs, he, hdom, hshift]
  cases q.1.1.core.err.crcMatchQ <;> cases c.mrModeAcf <;> simp

/-- Up to the cycle after the CRC delimiter was taken. -/
def shortCompared : List Input :=
  (frameOnBus false (shortHeader ++ shortCrc ++ shortTail)).take 237

theorem acknowledges_checked_short :
    let q := run (acceptStep listener) (acceptStart true [] ⟨[], []⟩) shortCompared
    q.1.1.core.pc.currState = .ack ∧
      txDataNbs listener q.1.1.core (q.1.1.input listener (shortNode false false true)) = false := by
  have hadm : Admits (acceptStep listener) (AcceptBench listener)
      (acceptStart true [] ⟨[], []⟩) shortCompared := by decide +kernel
  have hrun : (fun q : (CrcCore × FrameWatch) × TailWatch => q.1.1.core.pc.currState = .ack ∧
      isReceiver q.1.1.core = true ∧ q.1.1.core.err.errFrmReq = false ∧
      Checked listener q.1.2.frame q.2.crcBits)
      (run (acceptStep listener) (acceptStart true [] ⟨[], []⟩) shortCompared) := by decide +kernel
  obtain ⟨hq, hr, he, hchk⟩ := hrun
  exact ⟨hq, (acknowledges_checked listener rfl true [] _ _ hadm _ (.inl hq) hr he).mpr ⟨hchk, rfl⟩⟩

end CanCore
