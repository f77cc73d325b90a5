import CtuCanFd.Core.StuffMarks
import CtuCanFd.Core.FrameFormat

/-!
# The header of a received frame

Protocol control walks through the header field by field and tells the RX shift register
which bit to store where. The fields that stand on its output with `store_metadata` are those
the frame format reads off the bits taken since SOF: the state machine is a parser of the
format.
-/

open ProtocolControl SyncMachine BitFields

/-- Behind the DLC, up to the end of frame. -/
def ProtocolControl.PcState.behindHeader (st : PcState) : Bool := st.inTail || st == .eof

namespace RxFields

/-- The fields that go to the RX buffer with `store_metadata`. -/
def header (f : RxFields) : FrameFormat.Header where
  ident := f.recIdent
  identType := f.recIdentType
  isRtr := f.recIsRtr
  frameType := f.recFrameType
  brs := f.recBrs
  esi := f.recEsi
  dlc := f.recDlc

/-- What the fields make of a bit that is taken. -/
def take (f : RxFields) (o : Out) (b : Bool) : RxFields where
  rxShiftRegQ := shiftRegByte f.rxShiftRegQ o.rxShiftEna o.rxShiftInSel b
  recIdent :=
    (if o.rxStoreBaseIdI then f.rxShiftRegQ.extractLsb' 0 10 ++ BitVec.ofBool b
      else f.recIdent.extractLsb' 18 11) ++
    (if o.rxStoreExtIdI then f.rxShiftRegQ.extractLsb' 0 17 ++ BitVec.ofBool b
      else f.recIdent.extractLsb' 0 18)
  recIdentType := if o.rxStoreIdeI then b else f.recIdentType
  recIsRtrI := if o.rxStoreRtrI then b else f.recIsRtrI
  recFrameType := if o.rxStoreEdlI then b else f.recFrameType
  recEsi := if o.rxStoreEsiI then b else f.recEsi
  recBrs := if o.rxStoreBrsI then b else f.recBrs
  recDlc := if o.rxStoreDlcI then f.recDlcD b else f.recDlc
  rxStuffCount := if o.rxStoreStuffCountI then f.recDlcD b else f.rxStuffCount

end RxFields

namespace CanCore

open FrameFormat (identType fdfAt frameType dlcAt headerLength ident_split ident_base ident_ext)

/-! ## Fields captured so far -/

/-- The fields stored agree with the bits so far. The registers were cleared with the start of
the frame, so a field that has not come reads as zero. -/
structure Captured (bits : List Bool) (f : RxFields) : Prop where
  base : f.recIdent.extractLsb' 18 11 = if 12 ≤ bits.length then word bits 1 11 else 0
  ext : f.recIdent.extractLsb' 0 18 =
    if identType bits = true ∧ 32 ≤ bits.length then word bits 14 18 else 0
  ident : f.recIdentType = identType bits
  rtr : f.recIsRtrI = bit bits (if identType bits = true ∧ 33 ≤ bits.length then 32 else 12)
  edl : f.recFrameType = frameType bits
  brs : f.recBrs = (frameType bits && bit bits (fdfAt bits + 2))
  esi : f.recEsi = (frameType bits && bit bits (fdfAt bits + 3))

/-- Which field the next bit completes. -/
structure Stores (bits : List Bool) (o : Out) : Prop where
  base : o.rxStoreBaseIdI = decide (bits.length = 11)
  ext : o.rxStoreExtIdI = decide (identType bits = true ∧ bits.length = 31)
  ident : o.rxStoreIdeI = decide (bits.length = 13)
  rtr : o.rxStoreRtrI = decide (bits.length = 12 ∨ identType bits = true ∧ bits.length = 32)
  edl : o.rxStoreEdlI = decide (bits.length = fdfAt bits)
  brs : o.rxStoreBrsI = decide (frameType bits = true ∧ bits.length = fdfAt bits + 2)
  esi : o.rxStoreEsiI = decide (frameType bits = true ∧ bits.length = fdfAt bits + 3)

namespace Captured

variable {bits : List Bool} {f : RxFields} {o : Out} {b : Bool}

theorem cleared (h : bits.length ≤ 1) : Captured bits .cleared := by
  have hid : identType bits = false := bit_of_length_le (by omega)
  have hc : fdfAt bits = 14 := by simp [fdfAt, hid]
  have hft : frameType bits = false := bit_of_length_le (by omega)
  refine ⟨?_, ?_, hid.symm, ?_, hft.symm, ?_, ?_⟩
  · rw [if_neg (by omega)]
    rfl
  · rw [if_neg (by omega)]
    rfl
  · rw [if_neg (by omega), bit_of_length_le (by omega)]
    rfl
  · rw [hft]
    rfl
  · rw [hft]
    rfl

/-- A flag is the bit at its position once it has come, whichever bit comes. -/
theorem flag_take {p : Nat} {x : Bool} (h : x = bit bits p) :
    (if bits.length = p then b else x) = bit (bits ++ [b]) p := by
  rw [bit_concat, h]
  simp only [eq_comm]

theorem take_base (h : Captured bits f) (ho : Stores bits o)
    (hs : bits.length = 11 → f.rxShiftRegQ.extractLsb' 0 10 = word bits 1 10) :
    (f.take o b).recIdent.extractLsb' 18 11 =
      if 12 ≤ (bits ++ [b]).length then word (bits ++ [b]) 1 11 else 0 := by
  rw [RxFields.take, ident_base]
  simp only [ho.base, List.length_append, List.length_singleton]
  by_cases h11 : bits.length = 11
  · rw [if_pos (by simpa using h11), if_pos (by omega), hs h11, word_concat b (by omega)]
  · rw [if_neg (by simpa using h11), h.base]
    by_cases h12 : 12 ≤ bits.length
    · rw [if_pos h12, if_pos (by omega), word_append_left _ (by omega)]
    · rw [if_neg h12, if_neg (by omega)]

theorem take_ext (h : Captured bits f) (ho : Stores bits o)
    (hs : identType bits = true → bits.length = 31 →
      f.rxShiftRegQ.extractLsb' 0 17 = word bits 14 17) :
    (f.take o b).recIdent.extractLsb' 0 18 =
      if identType (bits ++ [b]) = true ∧ 32 ≤ (bits ++ [b]).length then
        word (bits ++ [b]) 14 18 else 0 := by
  rw [RxFields.take, ident_ext]
  simp only [ho.ext, List.length_append, List.length_singleton]
  by_cases h31 : identType bits = true ∧ bits.length = 31
  · have hid : identType (bits ++ [b]) = true := by
      rw [FrameFormat.identType_concat, if_neg (by omega)]
      exact h31.1
    rw [if_pos (by simpa using h31), if_pos ⟨hid, by omega⟩, hs h31.1 h31.2,
      word_concat b (by omega)]
  · rw [if_neg (by simpa using h31), h.ext]
    by_cases h32 : identType bits = true ∧ 32 ≤ bits.length
    · have hid : identType (bits ++ [b]) = true := by
        rw [FrameFormat.identType_concat, if_neg (by omega)]
        exact h32.1
      rw [if_pos h32, if_pos ⟨hid, by omega⟩, word_append_left _ (by omega)]
    · rw [if_neg h32, if_neg]
      rintro ⟨hid, hlen⟩
      rw [FrameFormat.identType_concat, if_neg (by omega)] at hid
      exact h31 ⟨hid, by by_contra hne; exact h32 ⟨hid, by omega⟩⟩

theorem take_ident (h : Captured bits f) (ho : Stores bits o) :
    (f.take o b).recIdentType = identType (bits ++ [b]) := by
  simp only [RxFields.take, ho.ident, h.ident, decide_eq_true_eq]
  exact flag_take rfl

theorem take_rtr (h : Captured bits f) (ho : Stores bits o) :
    (f.take o b).recIsRtrI = bit (bits ++ [b])
      (if identType (bits ++ [b]) = true ∧ 33 ≤ (bits ++ [b]).length then 32 else 12) := by
  simp only [RxFields.take, ho.rtr, h.rtr, FrameFormat.identType_concat, decide_eq_true_eq,
    List.length_append, List.length_singleton]
  by_cases h13 : bits.length = 13
  · rw [if_neg (by omega), if_neg (by omega), if_neg (by omega), bit_concat, if_neg (by omega)]
  · rw [if_neg h13]
    by_cases h32 : identType bits = true ∧ bits.length = 32
    · rw [if_pos (.inr h32), if_pos ⟨h32.1, by omega⟩, bit_concat, if_pos h32.2.symm]
    · by_cases h12 : bits.length = 12
      · rw [if_pos (.inl h12), if_neg (by omega), bit_concat, if_pos h12.symm]
      · rw [if_neg (by tauto)]
        by_cases h33 : identType bits = true ∧ 33 ≤ bits.length
        · rw [if_pos h33, if_pos ⟨h33.1, by omega⟩, bit_concat, if_neg (by omega)]
        · have h33' : ¬ (identType bits = true ∧ 33 ≤ bits.length + 1) := by
            rintro ⟨hid, hlen⟩
            exact h32 ⟨hid, by by_contra hne; exact h33 ⟨hid, by omega⟩⟩
          rw [if_neg h33, if_neg h33', bit_concat, if_neg (fun hx => h12 hx.symm)]

theorem take_edl (h : Captured bits f) (ho : Stores bits o) :
    (f.take o b).recFrameType = frameType (bits ++ [b]) := by
  simp only [RxFields.take, ho.edl, h.edl, decide_eq_true_eq]
  by_cases h13 : bits.length = 13
  · have hlt := (FrameFormat.fdfAt_lt_dlcAt bits).1
    have hlt' := (FrameFormat.fdfAt_lt_dlcAt (bits ++ [b])).1
    rw [if_neg (by omega), frameType, frameType, bit_of_length_le (by omega),
      bit_of_length_le (by simp; omega)]
  · rw [FrameFormat.frameType_concat _ b h13]

/-- A flag of the CAN FD control field. -/
theorem take_control {x y : Bool} {d : Nat} (hd : 2 ≤ d)
    (hx : x = (frameType bits && bit bits (fdfAt bits + d)))
    (hy : y = decide (frameType bits = true ∧ bits.length = fdfAt bits + d)) :
    (if y then b else x) =
      (frameType (bits ++ [b]) && bit (bits ++ [b]) (fdfAt (bits ++ [b]) + d)) := by
  have hlt := (FrameFormat.fdfAt_lt_dlcAt bits).1
  subst hx hy
  simp only [decide_eq_true_eq]
  by_cases h13 : bits.length = 13
  · have hlt' := (FrameFormat.fdfAt_lt_dlcAt (bits ++ [b])).1
    rw [if_neg (by omega), FrameFormat.frameType_early bits (by omega),
      FrameFormat.frameType_early (bits ++ [b]) (by simp; omega)]
    rfl
  · rw [FrameFormat.frameType_concat _ b h13, FrameFormat.fdfAt_concat _ b h13, bit_concat]
    by_cases hc : bits.length = fdfAt bits
    · have hft := FrameFormat.frameType_early bits (by omega)
      rw [if_neg (by omega), hft, if_pos hc, if_neg (by omega), bit_of_length_le (by omega)]
      simp
    · rw [if_neg hc]
      cases hft : frameType bits
      · simp
      · by_cases hlen : bits.length = fdfAt bits + d
        · simp [hlen]
        · simp [hlen, Ne.symm hlen]

theorem take (h : Captured bits f) (ho : Stores bits o)
    (hbase : bits.length = 11 → f.rxShiftRegQ.extractLsb' 0 10 = word bits 1 10)
    (hext : identType bits = true → bits.length = 31 →
      f.rxShiftRegQ.extractLsb' 0 17 = word bits 14 17) :
    Captured (bits ++ [b]) (f.take o b) where
  base := h.take_base ho hbase
  ext := h.take_ext ho hext
  ident := h.take_ident ho
  rtr := h.take_rtr ho
  edl := h.take_edl ho
  brs := take_control (by decide) h.brs ho.brs
  esi := take_control (by decide) h.esi ho.esi

/-- With the DLC the header is complete. -/
theorem header (h : Captured bits f) (hlen : headerLength bits ≤ bits.length)
    (hdlc : f.recDlc = word bits (dlcAt bits) 4) : f.header = FrameFormat.header bits := by
  have hlt := FrameFormat.fdfAt_lt_dlcAt bits
  have hend : dlcAt bits + 4 ≤ bits.length := hlen
  have hident : f.recIdent = word bits 1 11 ++
      if identType bits = true then word bits 14 18 else 0#18 := by
    rw [← ident_split f.recIdent, h.base, h.ext, if_pos (by omega)]
    rcases FrameFormat.fdfAt_cases bits with ⟨hi, hc⟩ | ⟨hi, hc⟩
    · rw [if_pos ⟨hi, by omega⟩, if_pos hi]
    · rw [if_neg (by simp [hi]), if_neg (by simp [hi])]
      rfl
  have hrtr : f.recIsRtrI = bit bits (if identType bits = true then 32 else 12) := by
    rw [h.rtr]
    rcases FrameFormat.fdfAt_cases bits with ⟨hi, hc⟩ | ⟨hi, hc⟩
    · rw [if_pos ⟨hi, by omega⟩, if_pos hi]
    · rw [if_neg (by simp [hi]), if_neg (by simp [hi])]
  simp only [RxFields.header, FrameFormat.header, RxFields.recIsRtr, hident, hrtr, hdlc, h.ident,
    h.edl, h.brs, h.esi]

end Captured

/-! ## Where protocol control is in the header -/

/-- The bits taken so far, by the field that is received. -/
def Position (bits : List Bool) (ctr : Nat) : PcState → Prop
  | .sof => bits.length = 0
  | .baseId => bits.length + ctr = 11 ∧ 1 ≤ bits.length
  | .rtrSrrR1 => bits.length = 12
  | .ide => bits.length = 13
  | .extId => bits.length + ctr = 31 ∧ 14 ≤ bits.length ∧ identType bits = true
  | .rtrR1 => bits.length = 32 ∧ identType bits = true
  | .edlR1 => bits.length = 33 ∧ identType bits = true
  | .r0Ext => bits.length = 34 ∧ identType bits = true ∧ frameType bits = false
  | .edlR0 => bits.length = 14 ∧ identType bits = false
  | .r0Fd => bits.length = fdfAt bits + 1 ∧ frameType bits = true
  | .brs => bits.length = fdfAt bits + 2 ∧ frameType bits = true
  | .esi => bits.length = fdfAt bits + 3 ∧ frameType bits = true
  | .dlc => bits.length + ctr = dlcAt bits + 3 ∧ dlcAt bits ≤ bits.length
  | _ => True

/-- Fields of several bits come in through the shift register. -/
def fieldAt (bits : List Bool) : PcState → Option Nat
  | .baseId => some 1
  | .extId => some 14
  | .dlc => some (dlcAt bits)
  | _ => none

section Position

variable {c : Config} {s : State} {i : Input} {bits : List Bool}

theorem stores_of_position (he : s.err.errFrmReq = false) (hq : s.pc.currState.inHeader = true)
    (hp : Position bits s.ctr.ctrlCtrQ s.pc.currState) : Stores bits (pcOut c s i) := by
  have hfdf := FrameFormat.fdfAt_cases bits
  have hdlc := FrameFormat.dlcAt_cases bits
  have hearly := FrameFormat.frameType_early bits
  have hz : (pcInput c s i).ctrlCtrZero = decide (s.ctr.ctrlCtrQ = 0) := by
    simp [ControlCounter.ctrlCtrZero, Bool.beq_eq_decide_eq]
  rw [pcOut_noErr he]
  cases hs : s.pc.currState <;> rw [hs] at hp hq <;>
    first | exact absurd hq (by decide) | skip
  all_goals
    simp only [Position] at hp
    constructor <;>
      simp only [outState, outSof, outBaseId, outRtrSrrR1, outIde, outExtId, outRtrR1, outEdlR1,
        outR0Ext, outR0Fd, outEdlR0, outBrs, outEsi, outDlc, hz] <;>
      grind

/-- The bit taken moves protocol control on in the header, or completes the header. -/
theorem position_take (he : s.err.errFrmReq = false) (ht : pcRxTrigger s = true)
    (hq : s.pc.currState.inHeader = true) (hp : Position bits s.ctr.ctrlCtrQ s.pc.currState) :
    Position (bits ++ [s.bds.dataOut]) (step c s i).ctr.ctrlCtrQ (step c s i).pc.currState := by
  have hz : (pcInput c s i).ctrlCtrZero = decide (s.ctr.ctrlCtrQ = 0) := by
    simp [ControlCounter.ctrlCtrZero, Bool.beq_eq_decide_eq]
  have hn := state_sample (c := c) (i := i) ht he fun hst => by
      rcases hst with ⟨hst, -⟩ | ⟨hst, -⟩ <;> rw [hst] at hq <;> cases hq
  have hfdf := FrameFormat.fdfAt_cases bits
  have hdlc := FrameFormat.dlcAt_cases bits
  have hearly := FrameFormat.frameType_early bits
  have hident := FrameFormat.identType_concat bits s.bds.dataOut
  have hfdf' := FrameFormat.fdfAt_cases (bits ++ [s.bds.dataOut])
  have hdlc' := FrameFormat.dlcAt_cases (bits ++ [s.bds.dataOut])
  have hframe := FrameFormat.frameType_concat bits s.bds.dataOut
  have hlen : (bits ++ [s.bds.dataOut]).length = bits.length + 1 := by simp
  rw [hn, ctr_taken he ht, nextState, pcInput_errFrmReq, he]
  cases hs : s.pc.currState <;> rw [hs] at hp hq <;>
    first | exact absurd hq (by decide) | skip
  all_goals
    simp only [Position] at hp
    simp only [outState, outSof, outBaseId, outRtrSrrR1, outIde, outExtId, outRtrR1, outEdlR1,
      outR0Ext, outR0Fd, outEdlR0, outBrs, outEsi, outDlc, hz, pcInput_rxDataNbs]
  case sof => simp [Position, hp]
  case rtrSrrR1 => simp [Position, hp]
  case rtrR1 | r0Ext | brs | esi => simp only [Bool.false_eq_true, if_false, if_true, Position]; grind
  case baseId | extId =>
    by_cases h0 : s.ctr.ctrlCtrQ = 0 <;> simp [h0, Position] <;> grind
  case ide | edlR0 | edlR1 | r0Fd =>
    -- a protocol exception leaves the frame
    by_cases hb : s.bds.dataOut = true <;> simp only [hb] at hident hfdf' hdlc' hframe hlen ⊢ <;>
      simp <;> (repeat' split) <;> first | trivial | simp only [Position]; grind
  case dlc =>
    by_cases h0 : s.ctr.ctrlCtrQ = 0
    · simp only [h0, decide_true, if_true, Bool.false_eq_true, if_false]
      (repeat' split) <;> trivial
    · simp [h0, Position]
      grind

theorem Position.base {ctr : Nat} {st : PcState} (hp : Position bits ctr st)
    (hq : st.inHeader = true) (h : bits.length = 11) : st = .baseId := by
  have hfdf := FrameFormat.fdfAt_cases bits
  have hlt := FrameFormat.fdfAt_lt_dlcAt bits
  cases st <;> first | rfl | exact absurd hq (by decide) | simp only [Position] at hp; omega

theorem Position.ext {ctr : Nat} {st : PcState} (hp : Position bits ctr st)
    (hq : st.inHeader = true) (hid : identType bits = true) (h : bits.length = 31) :
    st = .extId := by
  have hfdf : fdfAt bits = 33 := by simp [fdfAt, hid]
  have hlt := FrameFormat.fdfAt_lt_dlcAt bits
  cases st <;> first | rfl | exact absurd hq (by decide) | simp only [Position] at hp; omega

/-- A field is entered with its first bit. -/
theorem Position.enter_field {ctr : Nat} {st st' : PcState} {b : Bool} {p : Nat}
    (hp : Position bits ctr st) (hq : st.inHeader = true)
    (hedge : st' ∈ st.successors) (hf : fieldAt (bits ++ [b]) st' = some p) :
    (bits ++ [b]).length ≤ p := by
  have hfdf := FrameFormat.fdfAt_cases bits
  have hdlc' := FrameFormat.dlcAt_cases (bits ++ [b])
  have hident := FrameFormat.identType_concat bits b
  have hfdf' := FrameFormat.fdfAt_concat bits b
  have hframe := FrameFormat.frameType_concat bits b
  rw [List.length_append, List.length_singleton]
  cases st <;> first | exact absurd hq (by decide) | skip
  all_goals
    simp only [PcState.successors, List.mem_cons, List.not_mem_nil, or_false] at hedge
    rcases hedge with rfl | rfl | rfl <;> cases hf
  all_goals
    simp only [Position] at hp
    grind

end Position

/-! ## The shift register -/

section Registers

variable {c : Config} {k : Clock} {s : State} {i : Input} {v : List FrameBit}

theorem view_hold (ht : pcRxTrigger s = false) : (step c s i).rxs.view = s.rxs.view := by
  cases hc : s.rxs.clearQ
  · rw [rxs_hold ht hc]
  · simp [step, RxShiftReg.step, RxShiftReg.view, ht, hc]

theorem view_take (ht : pcRxTrigger s = true) (hc : s.rxs.clearQ = false)
    (ho : (pcOut c s i).rxClearI = false) :
    (step c s i).rxs.view = s.rxs.view.take (pcOut c s i) s.bds.dataOut := by
  simp [step, RxShiftReg.step, RxShiftReg.view, RxFields.take, ht, hc, ho]

/-- The bits without stuff bits are those protocol control takes. -/
theorem nbs_seen (he : s.err.errFrmReq = false) (hq : s.pc.currState.inCovered = true) :
    nbs (seen c v s i) = if pcRxTrigger s then nbs v ++ [s.bds.dataOut] else nbs v := by
  rw [seen, if_neg (by simp [he]), if_pos hq, pcRxTrigger]
  cases hr : s.rxTrigReqQ
  · simp
  · cases hd : s.bds.destuffedQ <;> simp [nbs_concat]

end Registers

/-! ## Invariant -/

/-- In the header. -/
structure HeaderAt (bits : List Bool) (s : State) : Prop where
  position : Position bits s.ctr.ctrlCtrQ s.pc.currState
  captured : Captured bits s.rxs.view
  field : ∀ p, fieldAt bits s.pc.currState = some p → Shifted bits p s.rxs.view.rxShiftRegQ

/-- Behind the header, up to the end of frame. -/
structure HeaderDone (bits : List Bool) (f : RxFields) : Prop where
  complete : headerLength bits ≤ bits.length
  header : f.header = FrameFormat.header bits

structure HeaderRead (k : Clock) (s : State) (v : List FrameBit) : Prop where
  fresh : s.rxs.clearQ = true → k.since ≠ 0
  reading : s.pc.currState.inHeader = true → HeaderAt (nbs v) s
  pending : s.pc.currState.inHeader = true → s.rxs.view.recDlc = 0
  done : s.pc.currState.behindHeader = true → HeaderDone (nbs v) s.rxs.view
  stored : s.pc.storeMetadata = true →
    (nbs v).length = headerLength (nbs v) ∧ HeaderDone (nbs v) s.rxs.view

section Steps

variable {c : Config} {k : Clock} {s : State} {i : Input} {v : List FrameBit}

theorem inPlain_of_inHeader {st : PcState} (h : st.inHeader = true) : st.inPlain = true := by
  revert h
  cases st <;> decide

theorem inCovered_of_inHeader {st : PcState} (h : st.inHeader = true) : st.inCovered = true :=
  inCovered_of_inPlain (inPlain_of_inHeader h)

theorem HeaderRead.clearQ_taken (h : HeaderRead k s v) (hf : Following c k s)
    (ht : pcRxTrigger s = true) : s.rxs.clearQ = false := by
  by_contra hc
  exact h.fresh (by simpa using hc) (hf.paced.pcRxTrigger_since ht)

/-- Where the header is entered from. -/
theorem enter_header (h' : (step c s i).pc.currState.inHeader = true) :
    s.err.errFrmReq = false ∧
      (s.pc.currState.inHeader = true ∨
        (s.pc.currState.inPause = true ∧ pcRxTrigger s = true ∧
          (step c s i).pc.currState.inPlain = true)) := by
  have hedge : ∀ st t : PcState, t ∈ st.successors → t.inHeader → st.inHeader ∨ st.inPause := by
    decide +kernel
  obtain ⟨he, hq⟩ := enter_covered (inCovered_of_inHeader h')
  refine ⟨he, ?_⟩
  rcases hq with hq | hq
  · left
    rcases state_flow (c := c) (i := i) he with hs | ⟨-, hs⟩
    · rw [← hs]
      exact h'
    · exact (hedge _ _ hs h').resolve_right fun hp =>
        absurd ((inCovered_of_inPause hp).symm.trans hq) (by decide)
  · exact .inr hq

theorem HeaderAt.take (h : HeaderAt (nbs v) s) (he : s.err.errFrmReq = false)
    (hq : s.pc.currState.inHeader = true) (ht : pcRxTrigger s = true)
    (hc : s.rxs.clearQ = false) :
    HeaderAt (nbs v ++ [s.bds.dataOut]) (step c s i) := by
  have hst := stores_of_position (c := c) (i := i) he hq h.position
  have hplain := inPlain_of_inHeader hq
  have hclear := (out_plain (c := c) (q := s.pc) (i := pcInput c s i) he hplain).rxClearI
  have hview := view_take (c := c) (i := i) ht hc hclear
  have hpos := position_take (c := c) (i := i) he ht hq h.position
  refine ⟨hpos, ?_, fun p hp => ?_⟩
  · rw [hview]
    exact h.captured.take hst
      (fun h11 => h.field 1 (by rw [h.position.base hq h11]; rfl) 10 (by omega))
      (fun hid h31 => h.field 14 (by rw [h.position.ext hq hid h31]; rfl) 17 (by omega))
  · rcases state_flow (c := c) (i := i) he with hs | ⟨-, hs⟩
    · rw [hs] at hp
      -- inside a field the bit is shifted in
      have hin : fieldAt (nbs v) s.pc.currState = some p ∧ p ≤ (nbs v).length ∧
          (nbs v).length < p + 31 ∧ (pcOut c s i).rxShiftInSel = false ∧
          (pcOut c s i).rxShiftEna = fun _ => true := by
        have hpos := h.position
        rw [pcOut_noErr he]
        cases hst : s.pc.currState <;> rw [hst] at hp hpos <;> cases hp
        all_goals simp only [Position] at hpos
        · exact ⟨rfl, by omega, by omega, rfl, rfl⟩
        · exact ⟨rfl, by omega, by omega, rfl, rfl⟩
        · rw [FrameFormat.dlcAt_append _ hpos.2]
          exact ⟨rfl, hpos.2, by omega, rfl, rfl⟩
      obtain ⟨hf, hle, hlt, hsel, hena⟩ := hin
      rw [hview]
      simp only [RxFields.take, hsel, hena]
      exact (h.field p hf).take hle hlt _
    · exact .empty (h.position.enter_field hq hs hp)

/-- A frame clears the registers. -/
theorem HeaderAt.view_start (hf : Following c k s) (he : s.err.errFrmReq = false)
    (hq : s.pc.currState.inPause = true) (ht : pcRxTrigger s = true)
    (h' : (step c s i).pc.currState.inPlain = true) : (step c s i).rxs.view = .cleared := by
  have hclear : (pcOut c s i).rxClearI = true := by
    have hen : (step c s i).pc.destuffEnable = true := destuff_start hf he hq ht h'
    have hsame : (pcOut c s i).rxClearI = (pcOut c s i).destuffEnableSet := by
      rw [pcOut_noErr he]
      cases hs : s.pc.currState <;> rw [hs] at hq <;> first | rfl | cases hq
    rw [hsame, pcOut]
    simpa [step, ProtocolControl.step, ctrlSignalUpd, ht, (hf.pause_off hq).2] using hen
  simp [step, RxShiftReg.step, RxShiftReg.view, hclear, ht]

/-- The bits of a frame at its start: none, or a dominant bit in place of SOF, and the base
identifier is counted from there. -/
theorem nbs_start (he : s.err.errFrmReq = false) (hq : s.pc.currState.inPause = true)
    (ht : pcRxTrigger s = true) (h' : (step c s i).pc.currState.inPlain = true) :
    ((step c s i).pc.currState = .baseId ∧ nbs (seen c v s i) = [false] ∧
        (step c s i).ctr.ctrlCtrQ = 10) ∨
      ((step c s i).pc.currState = .sof ∧ nbs (seen c v s i) = []) := by
  have hcov := inCovered_of_inPause hq
  obtain ⟨-, -, -, hst⟩ := start_bit he hq ht h'
  rcases hst with ⟨hst, hbit⟩ | ⟨hst, hbit⟩
  · refine .inl ⟨hst, by simp [seen, he, hcov, hq, ht, hst, hbit, nbs], ?_⟩
    have hn := state_sample (c := c) (i := i) ht he fun hs => by
        rcases hs with ⟨hs, -⟩ | ⟨hs, -⟩ <;> rw [hs] at hq <;> cases hq
    rw [hst, nextState, pcInput_errFrmReq, he] at hn
    rw [ctr_taken he ht]
    cases hs : s.pc.currState <;> rw [hs] at hq hn <;> cases hq
    all_goals
      simp only [outState, outIntermission, outSuspend, outIdle, pcInput_rxDataNbs,
        pcInput_ctrlCtrZero, hbit] at hn ⊢
      grind
  · exact .inr ⟨hst, by simp [seen, he, hcov, hq, ht, hst, nbs]⟩

theorem HeaderAt.start (hf : Following c k s) (he : s.err.errFrmReq = false)
    (hq : s.pc.currState.inPause = true) (ht : pcRxTrigger s = true)
    (h' : (step c s i).pc.currState.inPlain = true) :
    HeaderAt (nbs (seen c v s i)) (step c s i) := by
  have hview := HeaderAt.view_start hf he hq ht h'
  rcases nbs_start (v := v) he hq ht h' with ⟨hst, hseen, hctr⟩ | ⟨hst, hseen⟩
  · rw [hseen]
    refine ⟨?_, ?_, fun p hp => ?_⟩
    · rw [hst, hctr]
      exact ⟨rfl, by decide⟩
    · rw [hview]
      exact .cleared (by decide)
    · rw [hst] at hp
      cases hp
      exact .empty (by decide)
  · rw [hseen]
    refine ⟨?_, ?_, fun p hp => ?_⟩
    · rw [hst]
      exact rfl
    · rw [hview]
      exact .cleared (by decide)
    · rw [hst] at hp
      cases hp

theorem HeaderAt.next (h : HeaderRead k s v) (hf : Following c k s)
    (h' : (step c s i).pc.currState.inHeader = true) :
    HeaderAt (nbs (seen c v s i)) (step c s i) := by
  obtain ⟨he, hq | ⟨hq, ht, hp'⟩⟩ := enter_header h'
  · rw [nbs_seen he (inCovered_of_inHeader hq)]
    cases ht : pcRxTrigger s
    · have hk := kept_between (c := c) (i := i) he
        (.inl (inStuffed_of_inCovered (inCovered_of_inHeader hq))) ht
      have hat := h.reading hq
      rw [if_neg (by decide)]
      refine ⟨?_, ?_, ?_⟩
      · rw [hk.ctr, hk.state]
        exact hat.position
      · rw [view_hold ht]
        exact hat.captured
      · rw [view_hold ht, hk.state]
        exact hat.field
    · have hc := h.clearQ_taken hf ht
      rw [if_pos rfl]
      exact (h.reading hq).take he hq ht hc
  · exact .start hf he hq ht hp'

/-- The received DLC is stored with its last bit. -/
theorem HeaderRead.next_pending (h : HeaderRead k s v) (hf : Following c k s)
    (h' : (step c s i).pc.currState.inHeader = true) : (step c s i).rxs.view.recDlc = 0 := by
  obtain ⟨he, hq | ⟨hq, ht, hp'⟩⟩ := enter_header h'
  · cases ht : pcRxTrigger s
    · rw [view_hold ht]
      exact h.pending hq
    · have hc := h.clearQ_taken hf ht
      have hplain := inPlain_of_inHeader hq
      have hclear := (out_plain (c := c) (q := s.pc) (i := pcInput c s i) he hplain).rxClearI
      have hdlc : (pcOut c s i).rxStoreDlcI = false := by
        rw [pcOut_noErr he]
        cases hs : s.pc.currState <;> rw [hs] at hq <;>
          first | rfl | exact absurd hq (by decide) | skip
        -- the last bit of the DLC leaves the header
        by_contra hz
        have hz : s.ctr.ctrlCtrZero = true := by simpa [outState, outDlc] using hz
        have hn := state_sample (c := c) (i := i) ht he (by simp [Stalled, hs])
        rw [hn, nextState, pcInput_errFrmReq, he, hs] at h'
        simp only [pcInput_ctrlCtrZero, hz, Bool.false_eq_true, if_false, if_true] at h'
        revert h'
        (repeat' split) <;> decide
      rw [view_take ht hc hclear]
      simpa [RxFields.take, hdlc] using h.pending hq
  · rw [HeaderAt.view_start hf he hq ht hp']
    rfl

/-- Behind the header nothing is stored in its fields. -/
theorem header_kept (he : s.err.errFrmReq = false) (hq : s.pc.currState.behindHeader = true) :
    (step c s i).rxs.view.header = s.rxs.view.header := by
  cases ht : pcRxTrigger s
  · rw [view_hold ht]
  · have ho : (pcOut c s i).rxClearI = false ∧ (pcOut c s i).rxStoreBaseIdI = false ∧
        (pcOut c s i).rxStoreExtIdI = false ∧ (pcOut c s i).rxStoreIdeI = false ∧
        (pcOut c s i).rxStoreRtrI = false ∧ (pcOut c s i).rxStoreEdlI = false ∧
        (pcOut c s i).rxStoreEsiI = false ∧ (pcOut c s i).rxStoreBrsI = false ∧
        (pcOut c s i).rxStoreDlcI = false := by
      rw [pcOut_noErr he]
      cases hs : s.pc.currState <;> rw [hs] at hq <;>
        first | exact ⟨rfl, rfl, rfl, rfl, rfl, rfl, rfl, rfl, rfl⟩ | exact absurd hq (by decide)
    obtain ⟨hcl, hb, hx, hi, hr, hf, he, hbr, hd⟩ := ho
    cases hc : s.rxs.clearQ
    · rw [view_take ht hc hcl]
      simp [RxFields.header, RxFields.take, RxFields.recIsRtr, hb, hx, hi, hr, hf, he, hbr, hd,
        ident_split]
    · simp [step, RxShiftReg.step, RxShiftReg.view, hcl, hc]

theorem enter_behindHeader (h' : (step c s i).pc.currState.behindHeader = true) :
    s.err.errFrmReq = false ∧
      (s.pc.currState.behindHeader = true ∨
        (s.pc.currState = .dlc ∧ s.ctr.ctrlCtrZero = true ∧ pcRxTrigger s = true)) := by
  have hdis : ∀ st : PcState, st.afterError → st.behindHeader = false := by decide
  have hedge : ∀ st t : PcState, t ∈ st.successors → t.behindHeader → st.behindHeader ∨ st = .dlc := by
    decide +kernel
  have he : s.err.errFrmReq = false := by
    by_contra he
    have ha := hdis _ (state_err (c := c) (i := i) (by simpa using he))
    exact absurd (ha.symm.trans h') (by decide)
  refine ⟨he, ?_⟩
  rcases state_flow (c := c) (i := i) he with hs | ⟨ht, hs⟩
  · exact .inl (hs ▸ h')
  · refine (hedge _ _ hs h').imp_right fun hd => ⟨hd, ?_, ht⟩
    by_contra hz
    have hstay := step_counted (c := c) (q := s.pc) (i := pcInput c s i) (.inl hd)
      (by simpa using hz) he
    have hstay : (step c s i).pc.currState = s.pc.currState := hstay
    rw [hstay, hd] at h'
    cases h'

/-- The last bit of the DLC completes the header. -/
theorem HeaderRead.complete (h : HeaderRead k s v) (hf : Following c k s)
    (he : s.err.errFrmReq = false) (hq : s.pc.currState = .dlc) (hz : s.ctr.ctrlCtrZero = true)
    (ht : pcRxTrigger s = true) :
    (nbs (seen c v s i)).length = headerLength (nbs (seen c v s i)) ∧
      HeaderDone (nbs (seen c v s i)) (step c s i).rxs.view := by
  have hc := h.clearQ_taken hf ht
  have hhead : s.pc.currState.inHeader = true := by rw [hq]; rfl
  have hat := h.reading hhead
  have hpos := hat.position
  rw [hq] at hpos
  have hz0 : s.ctr.ctrlCtrQ = 0 := by simpa [ControlCounter.ctrlCtrZero] using hz
  have hlen : (nbs v).length = dlcAt (nbs v) + 3 := by
    have := hpos.1
    omega
  have hat' := hat.take (c := c) (i := i) he hhead ht hc
  have hdlc : (pcOut c s i).rxStoreDlcI = true := by
    rw [pcOut_noErr he, hq]
    exact hz
  have hclear : (pcOut c s i).rxClearI = false := by
    rw [pcOut_noErr he, hq]
    rfl
  rw [nbs_seen he (inCovered_of_inHeader hhead), if_pos ht]
  have hdlcAt := FrameFormat.dlcAt_append [s.bds.dataOut] hpos.2
  have hlen' : (nbs v ++ [s.bds.dataOut]).length = headerLength (nbs v ++ [s.bds.dataOut]) := by
    rw [List.length_append, List.length_singleton, headerLength, hdlcAt]
    omega
  refine ⟨hlen', hlen'.ge, hat'.captured.header hlen'.ge ?_⟩
  rw [view_take ht hc hclear, hdlcAt, word_concat _ (by omega)]
  simp only [RxFields.take, hdlc, if_true, RxFields.recDlcD]
  rw [hat.field _ (by rw [hq]; rfl) 3 (by omega)]

/-- Behind the header the bits of the frame stay, and more may come. -/
theorem nbs_seen_more (he : s.err.errFrmReq = false) (hq : s.pc.currState.behindHeader = true) :
    ∃ more, nbs (seen c v s i) = nbs v ++ more := by
  have hpause : s.pc.currState.inPause = false := by
    revert hq
    cases s.pc.currState <;> decide
  cases hcov : s.pc.currState.inCovered
  · exact ⟨[], by simp [seen, he, hcov, hpause]⟩
  · rw [nbs_seen he hcov]
    split
    · exact ⟨_, rfl⟩
    · exact ⟨[], by simp⟩

theorem HeaderRead.next_done (h : HeaderRead k s v) (hf : Following c k s)
    (h' : (step c s i).pc.currState.behindHeader = true) :
    HeaderDone (nbs (seen c v s i)) (step c s i).rxs.view := by
  obtain ⟨he, hq | ⟨hq, hz, ht⟩⟩ := enter_behindHeader h'
  · obtain ⟨hlen, hhead⟩ := h.done hq
    obtain ⟨more, hmore⟩ := nbs_seen_more (c := c) (i := i) (v := v) he hq
    refine ⟨?_, ?_⟩
    · rw [hmore, FrameFormat.headerLength_append more hlen, List.length_append]
      omega
    · rw [header_kept he hq, hhead, hmore, FrameFormat.header_append more hlen]
  · exact (h.complete hf he hq hz ht).2

theorem HeaderRead.step_read (h : HeaderRead k s v) (hf : Following c k s) (hok : Bench k s i) :
    HeaderRead (k.next s i) (step c s i) (seen c v s i) where
  fresh hc := by
    have ht : pcRxTrigger s = true := by
      simp only [step, RxShiftReg.step, Bool.and_eq_true] at hc
      exact hc.2
    rw [(hf.next_take hok (hf.paced.pcRxTrigger_since ht)).1]
    decide
  reading h' := .next h hf h'
  pending h' := h.next_pending hf h'
  done h' := h.next_done hf h'
  stored hm := by
    have hs : (step c s i).pc.storeMetadata =
        ((isReceiver s || c.mrSettingsIlbp) && pcRxTrigger s && (pcOut c s i).storeMetadataD) := rfl
    rw [hs, Bool.and_eq_true, Bool.and_eq_true] at hm
    have ho : (out c s.pc (pcInput c s i)).storeMetadataD = true := hm.2
    rw [out_storeMetadataD] at ho
    simp only [Bool.and_eq_true, Bool.not_eq_true', decide_eq_true_eq] at ho
    exact h.complete hf ho.1.1 ho.1.2 ho.2 hm.1.2

theorem HeaderRead.of_reset (sent : Bool) (v : List FrameBit) :
    HeaderRead ⟨4, sent, none⟩ reset v where
  fresh _ := by simp
  reading h := by cases h
  pending h := by cases h
  done h := by cases h
  stored h := by cases h

end Steps

theorem run_headerRead {c : Config} (hena : c.mrSettingsEna = true) (sent : Bool)
    (v : List FrameBit) (is : List Input)
    (h : Admits (crcStep c) (CrcBench c) (crcStart sent v) is) :
    let p := run (crcStep c) (crcStart sent v) is
    Following c p.2.clock p.1.core ∧ HeaderRead p.2.clock p.1.core p.2.frame :=
  run_invariant (crcStep c) (CrcBench c)
    (fun p => Following c p.2.clock p.1.core ∧ HeaderRead p.2.clock p.1.core p.2.frame)
    (fun _ _ h hok => ⟨h.1.step_following hok hena, h.2.step_read h.1 hok⟩)
    ⟨.of_reset sent, .of_reset sent v⟩ is h

/-- In every run, when `store_metadata` is on the port of protocol control, the bits taken since
SOF are exactly a header of the frame format, and the identifier, the flags and the DLC that
stand beside the command are the fields the format reads off these bits. -/
theorem metadata_received (c : Config) (hena : c.mrSettingsEna = true) (sent : Bool)
    (v : List FrameBit) (is : List Input)
    (h : Admits (crcStep c) (CrcBench c) (crcStart sent v) is) :
    let p := run (crcStep c) (crcStart sent v) is
    p.1.core.pc.storeMetadata = true →
      (nbs p.2.frame).length = headerLength (nbs p.2.frame) ∧
        p.1.core.rxs.view.header = FrameFormat.header (nbs p.2.frame) := by
  intro p hm
  obtain ⟨hlen, hdone⟩ := (run_headerRead hena sent v is h).2.stored hm
  exact ⟨hlen, hdone.header⟩

/-- Up to the cycle in which the receiver presents the header of the frame. -/
def headerReceived : List Input := (frameOnBus false shortHeader).take 157

theorem metadata_received_short :
    let p := run (crcStep listener) (crcStart true []) headerReceived
    p.1.core.pc.storeMetadata = true ∧
      p.1.core.rxs.view.header = ⟨0b10101010101#11 ++ 0#18, false, false, false, false, false, 0⟩ := by
  have hadm : Admits (crcStep listener) (CrcBench listener) (crcStart true []) headerReceived := by
    decide +kernel
  have hrun : (fun p : CrcCore × FrameWatch => p.1.core.pc.storeMetadata = true ∧
      FrameFormat.header (nbs p.2.frame) =
        ⟨0b10101010101#11 ++ 0#18, false, false, false, false, false, 0⟩)
      (run (crcStep listener) (crcStart true []) headerReceived) := by decide +kernel
  obtain ⟨hm, hhead⟩ := hrun
  exact ⟨hm, ((metadata_received listener rfl true [] _ hadm hm).2).trans hhead⟩

end CanCore
