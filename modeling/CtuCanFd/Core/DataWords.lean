import CtuCanFd.Core.OwnHeader
import CtuCanFd.Lib.BitFields
import CtuCanFd.Lib.SyncMachine

/-!
# Data words of a received frame

In the data field the RX shift register shifts one byte lane at a time, chosen by the
complementary counter. `store_data` is registered in the cycle in which the last bit of a
word is shifted in, so that the word stands on the output of the register in the cycle in
which the command does. How long the field is follows from the bits taken before it: RTR, FDF
and the four bits of the DLC.
-/

namespace CanCore

open SyncMachine BitFields
open ProtocolControl (dataLengthC dataLengthBitsC dlcDecoder noDataField outState PcState Config)

/-! ## Byte lanes -/

theorem shiftByte_bit (w : BitVec 32) (b ena : Bool) {j p : Nat} (hp : p < 8) :
    (shiftByte w j ena true b).getLsbD p =
      if ena = true then (if p = 0 then b else w.getLsbD (8 * j + p - 1))
      else w.getLsbD (8 * j + p) := by
  cases ena
  · simp [shiftByte, hp]
  · simp only [shiftByte, Bool.or_true, if_true, BitVec.getLsbD_append]
    by_cases h0 : p = 0
    · simp [h0]
    · have hlt : p - 1 < 7 := by omega
      have hidx : 8 * j + (p - 1) = 8 * j + p - 1 := by omega
      simp [h0, hlt, hidx]
      omega

theorem getLsbD_append_byte {v : Nat} (x : BitVec v) (y : BitVec 8) (j : Nat) {p : Nat}
    (hp : p < 8) :
    (x ++ y).getLsbD (8 * j + p) = if j = 0 then y.getLsbD p else x.getLsbD (8 * (j - 1) + p) := by
  rw [BitVec.getLsbD_append]
  by_cases hj : j = 0
  · simp [hj, hp]
  · have hge : ¬ 8 * j + p < 8 := by omega
    have hidx : 8 * j + p - 8 = 8 * (j - 1) + p := by omega
    simp [hj, hge, hidx]

/-- With one lane enabled the bit enters there, and the other lanes are held. -/
theorem shiftRegByte_lane (w : BitVec 32) (b : Bool) {ena : Nat → Bool} {n j p : Nat}
    (hena : ∀ k, ena k = (k == n)) (hj : j < 4) (hp : p < 8) :
    (shiftRegByte w ena true b).getLsbD (8 * j + p) =
      if j = n then (if p = 0 then b else w.getLsbD (8 * j + p - 1))
      else w.getLsbD (8 * j + p) := by
  have hlane : (shiftRegByte w ena true b).getLsbD (8 * j + p) =
      (shiftByte w j (ena j) true b).getLsbD p := by
    simp only [shiftRegByte, getLsbD_append_byte _ _ _ hp]
    rcases (by omega : j = 0 ∨ j = 1 ∨ j = 2 ∨ j = 3) with rfl | rfl | rfl | rfl
    · rfl
    · rfl
    · rfl
    · simp
  rw [hlane, shiftByte_bit w b (ena j) hp, hena]
  simp

/-! ## Fields of several bits -/

/-- The low bits of the register are the field at `p` as far as it has come. -/
def Shifted (bits : List Bool) (p : Nat) (r : BitVec 32) : Prop :=
  ∀ n, p + n = bits.length → r.extractLsb' 0 n = word bits p n

/-- All bytes enabled, one bit shifted in. -/
theorem shiftRegByte_shift (w : BitVec 32) (b : Bool) :
    shiftRegByte w (fun _ => true) false b = w.extractLsb' 0 31 ++ BitVec.ofBool b := by
  ext k hk
  rw [← BitVec.getLsbD_eq_getElem, shiftRegByte_all w b k hk, ← BitVec.getLsbD_eq_getElem,
    BitVec.getLsbD_append]
  cases k with
  | zero => simp
  | succ k => simp [(by omega : k < 31)]

theorem Shifted.empty {bits : List Bool} {p : Nat} {r : BitVec 32} (h : bits.length ≤ p) :
    Shifted bits p r := by
  intro n hn
  obtain rfl : n = 0 := by omega
  exact Subsingleton.elim _ _

theorem Shifted.take {bits : List Bool} {p : Nat} {r : BitVec 32} (h : Shifted bits p r)
    (hp : p ≤ bits.length) (hn : bits.length < p + 31) (b : Bool) :
    Shifted (bits ++ [b]) p (shiftRegByte r (fun _ => true) false b) := by
  intro n hlen
  rw [List.length_append, List.length_singleton] at hlen
  obtain ⟨m, rfl⟩ : ∃ m, n = m + 1 := ⟨n - 1, by omega⟩
  rw [shiftRegByte_shift, extractLsb_shift r b (by omega), word_concat b (by omega),
    h m (by omega)]

/-! ## What was received of a data field -/

structure DataField where
  /-- Bits taken in the places of RTR and FDF. -/
  rtr : Bool
  fdf : Bool
  /-- Bits of the DLC. -/
  dlc : List Bool
  /-- Data length in bytes, from the last bit of the DLC on. -/
  length : Nat
  /-- The node is transmitter or receiver of the frame. -/
  takesPart : Bool
  /-- Protocol control puts the commands of the frame on its ports. -/
  issued : Bool
  bits : List Bool
  /-- Words that stood on `store_data_word` with `store_data`. -/
  words : List (BitVec 32)
  /-- An error frame was requested in the data field. -/
  cut : Bool

/-- Commands for the RX buffer leave protocol control in a receiver and in loopback. -/
def issues (c : Config) (s : State) : Bool := isReceiver s || c.mrSettingsIlbp

/-- Bytes of data of a frame. A classical frame with RTR has none. -/
def dataBytes (rtr fdf : Bool) (dlc : BitVec 4) : Nat :=
  if rtr && !fdf then 0 else dlcDecoder dlc fdf

/-- A transmitter goes by the frame it was offered, any other node by the bits it took. -/
def DataField.frameBytes (c : Config) (g : DataField) (s : State) (i : Input) : Nat :=
  if g.dlc.length < 4 then 0
  else if isTransmitter s then
    dataBytes i.tranMeta.tranIsRtr (i.tranMeta.frameTypeI c) i.tranMeta.tranDlc
  else dataBytes g.rtr g.fdf (word g.dlc 0 4)

/-- `store_data_word`. -/
def storeDataWord (s : State) : BitVec 32 := s.rxs.view.rxShiftRegQ

/-- The words stored, with the one whose command is on the port. -/
def DataField.presented (g : DataField) (s : State) : List (BitVec 32) :=
  if s.pc.storeData then g.words ++ [storeDataWord s] else g.words

/-- One word for every four bytes received, and at the end of the field one for the rest. -/
def DataField.wordCount (g : DataField) : Nat :=
  if g.bits.length = 8 * g.length then (g.length + 3) / 4 else g.bits.length / 32

/-- Protocol control takes a bit. -/
def takesBit (s : State) : Bool := !s.err.errFrmReq && pcRxTrigger s

/-- The bits of the DLC with the one that is taken. -/
def DataField.takeDlc (g : DataField) (s : State) : DataField :=
  { g with dlc := if takesBit s then g.dlc ++ [s.bds.dataOut] else g.dlc }

def DataField.next (c : Config) (g : DataField) (s : State) (i : Input) : DataField :=
  match s.pc.currState with
  | .rtrSrrR1 | .rtrR1 =>
    { g with
      rtr := if takesBit s then s.bds.dataOut else g.rtr
      words := g.presented s }
  | .edlR0 | .edlR1 =>
    { g with
      fdf := if takesBit s then s.bds.dataOut else g.fdf
      dlc := []
      words := g.presented s }
  | .dlc =>
    { g.takeDlc s with
      length := (g.takeDlc s).frameBytes c s i
      takesPart := isTransmitter s || isReceiver s
      issued := issues c s
      bits := []
      words := []
      cut := false }
  | .data =>
    { g with
      bits := if takesBit s then g.bits ++ [s.bds.dataOut] else g.bits
      words := g.presented s
      cut := s.err.errFrmReq }
  | _ => { g with words := g.presented s }

/-- Byte `4 * k + n` of the field, if it has that many, is in byte `n` of the word, its
first bit on top. -/
def HoldsBytes (g : DataField) (k : Nat) (w : BitVec 32) : Prop :=
  ∀ n < 4, 4 * k + n < g.length → ∀ p < 8,
    g.bits[8 * (4 * k + n) + (7 - p)]? = some (w.getLsbD (8 * n + p))

/-- The register holds the bits of the word that the last of `bits` belongs to: complete
bytes in their lane, and the last byte at the low end of its lane. -/
def Lanes (bits : List Bool) (w : BitVec 32) : Prop :=
  ∀ m < bits.length, m / 32 = (bits.length - 1) / 32 →
    bits[m]? = some (w.getLsbD (8 * (m / 8 % 4) +
      if m / 8 = (bits.length - 1) / 8 then bits.length - 1 - m else 7 - m % 8))

theorem Lanes.take {bits : List Bool} {w : BitVec 32} (h : Lanes bits w) (b : Bool)
    {ena : Nat → Bool} (hena : ∀ k, ena k = (k == bits.length / 8 % 4)) :
    Lanes (bits ++ [b]) (shiftRegByte w ena true b) := by
  intro m hm hword
  simp only [List.length_append, List.length_singleton, Nat.add_sub_cancel] at hm hword ⊢
  by_cases hlast : m = bits.length
  · subst hlast
    simp only [if_true, Nat.sub_self]
    rw [shiftRegByte_lane w b hena (Nat.mod_lt _ (by decide)) (by decide)]
    simp
  · have hlt : m < bits.length := by omega
    have hold := h m hlt (by omega)
    rw [List.getElem?_append_left hlt, hold]
    by_cases hbyte : m / 8 = bits.length / 8
    · -- The byte the bit enters moves up.
      have hprev : m / 8 = (bits.length - 1) / 8 := by omega
      rw [if_pos hbyte, if_pos hprev,
        shiftRegByte_lane w b hena (Nat.mod_lt _ (by decide)) (by omega), if_pos (by rw [hbyte]),
        if_neg (by omega)]
      congr 2
      omega
    · -- The other bytes of the word stay.
      have hdiv : m / 8 / 4 = bits.length / 8 / 4 := by
        rw [Nat.div_div_eq_div_mul, Nat.div_div_eq_div_mul]
        exact hword
      have hoff : (if m / 8 = (bits.length - 1) / 8 then bits.length - 1 - m else 7 - m % 8) =
          7 - m % 8 := by
        split <;> omega
      rw [hoff, if_neg hbyte, shiftRegByte_lane w b hena (Nat.mod_lt _ (by decide)) (by omega),
        if_neg (by omega)]

/-- A register with all bits of word `k`, or of the whole field, holds its bytes. -/
theorem Lanes.holdsBytes {g : DataField} {w : BitVec 32} {k : Nat} (h : Lanes g.bits w)
    (hlen : g.bits.length = 32 * (k + 1) ∨
      g.bits.length = 8 * g.length ∧ 32 * k < g.bits.length ∧ g.bits.length ≤ 32 * (k + 1)) :
    HoldsBytes g k w := by
  intro n hn hex p hp
  have hm := h (8 * (4 * k + n) + (7 - p)) (by omega) (by omega)
  rw [hm]
  congr 2
  have hlane : (8 * (4 * k + n) + (7 - p)) / 8 % 4 = n := by omega
  rw [hlane]
  split <;> omega

/-! ## Length of the field -/

section Control

variable {c : Config} {g : DataField} {s : State} {i : Input}

/-- The bits taken since RTR are in the registers, by the field that is received. -/
def controlSeen (g : DataField) (r : RxShiftReg) (ctr : Nat) : PcState → Prop
  | .rtrSrrR1 => r.clearQ = false
  | .ide | .extId | .rtrR1 | .edlR0 | .edlR1 => r.clearQ = false ∧ r.fields.recIsRtrI = g.rtr
  | .r0Ext | .r0Fd | .brs | .esi => r.clearQ = false ∧ r.fields.recIsRtrI = g.rtr ∧
      r.fields.recFrameType = g.fdf ∧ g.dlc = []
  | .dlc => r.clearQ = false ∧ r.fields.recIsRtrI = g.rtr ∧ r.fields.recFrameType = g.fdf ∧
      g.dlc.length + ctr = 3 ∧ Shifted g.dlc 0 r.fields.rxShiftRegQ
  | _ => True

theorem controlSeen_outside {r : RxShiftReg} {ctr : Nat} {st : PcState}
    (h : st.inHeader = false) : controlSeen g r ctr st := by
  cases st <;> trivial

/-- Between two bits everything is held. -/
theorem controlSeen_hold (h : controlSeen g s.rxs s.ctr.ctrlCtrQ s.pc.currState)
    (he : s.err.errFrmReq = false) (ht : pcRxTrigger s = false) :
    controlSeen (g.next c s i) (step c s i).rxs (step c s i).ctr.ctrlCtrQ
      (step c s i).pc.currState := by
  have hs : (step c s i).pc.currState = s.pc.currState := ProtocolControl.step_hold ht he
  rw [hs]
  by_cases hq : s.pc.currState.inPlain = true
  · rw [(kept_plain (c := c) (i := i) he hq ht).ctr]
    cases hst : s.pc.currState <;> rw [hst] at h hq <;>
      first
      | trivial
      | (have hc : s.rxs.clearQ = false := by
          first | exact h | exact h.1
         simpa [controlSeen, rxs_hold ht hc, DataField.next, DataField.takeDlc, takesBit, ht, hst]
           using h)
  · refine controlSeen_outside ?_
    revert hq
    cases s.pc.currState <;> decide

/-- A bit of the DLC is shifted in. -/
theorem controlSeen_dlc (h : controlSeen g s.rxs s.ctr.ctrlCtrQ .dlc)
    (he : s.err.errFrmReq = false) (ht : pcRxTrigger s = true) (hq : s.pc.currState = .dlc)
    (hz : s.ctr.ctrlCtrZero = false) :
    controlSeen (g.next c s i) (step c s i).rxs (step c s i).ctr.ctrlCtrQ .dlc := by
  obtain ⟨hc, hrtr, hfdf, hctr, hreg⟩ := h
  have hne : s.ctr.ctrlCtrQ ≠ 0 := by simpa [ControlCounter.ctrlCtrZero] using hz
  have ho := pcOut_noErr (c := c) (i := i) he
  have hrx := rxs_take (c := c) (i := i) ht hc
  have hg : (g.next c s i).rtr = g.rtr ∧ (g.next c s i).fdf = g.fdf ∧
      (g.next c s i).dlc = g.dlc ++ [s.bds.dataOut] := by
    simp [DataField.next, DataField.takeDlc, takesBit, hq, he, ht]
  have hshift : (step c s i).rxs.fields.rxShiftRegQ =
      shiftRegByte s.rxs.fields.rxShiftRegQ (fun _ => true) false s.bds.dataOut := by
    simp [step, RxShiftReg.step, ht, hc, ho, hq, outState, ProtocolControl.outDlc]
  rw [ho, hq] at hrx
  rw [controlSeen, hg.1, hg.2.1, hg.2.2, hrx.1, hrx.2, hshift, ctr_taken he ht, hq]
  refine ⟨clearQ_plain he (by rw [hq]; rfl), hrtr, hfdf, ?_,
    hreg.take (Nat.zero_le _) (by omega) _⟩
  simp [outState, ProtocolControl.outDlc, hz]
  omega

/-- A bit that is taken is stored in its register. -/
theorem controlSeen_take (h : controlSeen g s.rxs s.ctr.ctrlCtrQ s.pc.currState)
    (he : s.err.errFrmReq = false) (ht : pcRxTrigger s = true)
    (hq : s.pc.currState.inHeader = true) :
    controlSeen (g.next c s i) (step c s i).rxs (step c s i).ctr.ctrlCtrQ
      (step c s i).pc.currState := by
  have hn := state_sample (c := c) (i := i) ht he fun hst => by
      rcases hst with ⟨hst, -⟩ | ⟨hst, -⟩ <;> rw [hst] at hq <;> cases hq
  have hclear : (step c s i).rxs.clearQ = false := clearQ_plain he (by
    revert hq
    cases s.pc.currState <;> decide)
  have hctr := ctr_taken (c := c) (i := i) he ht
  rw [ProtocolControl.nextState, pcInput_errFrmReq, he, pcInput_rxDataNbs, pcInput_ctrlCtrZero] at hn
  cases hst : s.pc.currState <;> rw [hst] at h hn hctr hq <;>
    first | exact absurd hq (by decide) | skip
  case sof =>
    rw [hn]
    trivial
  case baseId =>
    rw [hn]
    cases s.ctr.ctrlCtrZero
    · trivial
    · exact hclear
  case dlc =>
    cases hz : s.ctr.ctrlCtrZero
    · rw [hz] at hn
      rw [hn]
      exact controlSeen_dlc h he ht hst hz
    · refine controlSeen_outside ?_
      rw [hn, hz]
      simp only [Bool.false_eq_true, if_false, if_true]
      (repeat' split) <;> rfl
  all_goals
    have hc : s.rxs.clearQ = false := by first | exact h | exact h.1
    have hrx := rxs_take (c := c) (i := i) ht hc
    rw [pcOut_noErr he, hst] at hrx
    have htake : takesBit s = true := by simp [takesBit, he, ht]
    have hempty : Shifted [] 0 (step c s i).rxs.fields.rxShiftRegQ := .empty (by simp)
    simp only [controlSeen] at h
    simp only [outState, ProtocolControl.outRtrSrrR1, ProtocolControl.outIde,
      ProtocolControl.outExtId, ProtocolControl.outRtrR1, ProtocolControl.outEdlR1,
      ProtocolControl.outEdlR0, ProtocolControl.outR0Ext, ProtocolControl.outR0Fd,
      ProtocolControl.outBrs, ProtocolControl.outEsi, pcInput_rxDataNbs, Bool.false_eq_true,
      if_false, if_true] at hrx hctr hn
  case ide | extId | edlR1 | edlR0 | r0Fd =>
    split at hn <;> rw [hn] <;>
      (try split) <;> simp_all [controlSeen, DataField.next]
  all_goals
    rw [hn]
    simp_all [controlSeen, DataField.next]

theorem controlSeen_step (h : controlSeen g s.rxs s.ctr.ctrlCtrQ s.pc.currState) :
    controlSeen (g.next c s i) (step c s i).rxs (step c s i).ctr.ctrlCtrQ
      (step c s i).pc.currState := by
  have hout : ∀ st : PcState, st.afterError → st.inHeader = false := by decide
  have hedge : ∀ st t : PcState, t ∈ st.successors → t.inHeader → st.inHeader = false →
      t = .sof ∨ t = .baseId := by decide +kernel
  cases he : s.err.errFrmReq
  · cases ht : pcRxTrigger s
    · exact controlSeen_hold h he ht
    · cases hq : s.pc.currState.inHeader
      · cases hq' : (step c s i).pc.currState.inHeader
        · exact controlSeen_outside hq'
        · rcases state_flow (c := c) (i := i) he with
            hs | ⟨-, hs⟩
          · rw [hs, hq] at hq'
            cases hq'
          · rcases hedge _ _ hs hq' hq with hs | hs <;> rw [hs] <;> trivial
      · exact controlSeen_take h he ht hq
  · exact controlSeen_outside
      (hout _ (state_err (c := c) (i := i) he))

/-- The frame has no data whatever its DLC. -/
def isRemote (c : Config) (s : State) (i : Input) : Bool :=
  if isTransmitter s then i.tranMeta.tranIsRtr && !i.tranMeta.frameTypeI c
  else s.rxs.view.recIsRtr

theorem noDataField_eq : noDataField c (pcInput c s i) =
    ((isTransmitter s || isReceiver s) &&
      (isRemote c s i || dataLengthC c (pcInput c s i) == 0)) := by
  have hzero : ∀ (d : BitVec 4) (ft : Bool), (dlcDecoder d ft == 0) = (d == 0) := by decide
  cases hx : isTransmitter s
  · simp [noDataField, ProtocolControl.noDataReceiver, isRemote, dataLengthC,
      ProtocolControl.recDataLengthC, hx, hzero, pcInput]
  · have hr : isReceiver s = false := by
      revert hx
      simp only [isTransmitter, isReceiver]
      cases s.oc <;> decide
    simp [noDataField, ProtocolControl.noDataTransmitter, isRemote, dataLengthC,
      ProtocolControl.tranDataLength, ProtocolControl.tranFrameTypeI, TranMeta.frameTypeI, hx, hr,
      hzero, pcInput, Bool.or_comm]

/-- A transmitter or receiver enters the data field only for data. -/
theorem length_takesPart (hn : noDataField c (pcInput c s i) = false)
    (hr : (isTransmitter s || isReceiver s) = true) :
    isRemote c s i = false ∧ dataLengthC c (pcInput c s i) ≠ 0 := by
  rw [noDataField_eq, hr, Bool.true_and, Bool.or_eq_false_iff, beq_eq_false_iff_ne] at hn
  exact hn

/-- With the last bit of the DLC the length is what protocol control decodes. -/
theorem frameBytes_last (h : controlSeen g s.rxs s.ctr.ctrlCtrQ .dlc)
    (he : s.err.errFrmReq = false) (ht : pcRxTrigger s = true) (hz : s.ctr.ctrlCtrZero = true) :
    (g.takeDlc s).frameBytes c s i =
      if isRemote c s i then 0 else dataLengthC c (pcInput c s i) := by
  obtain ⟨hc, hrtr, hfdf, hctr, hreg⟩ := h
  have hz0 : s.ctr.ctrlCtrQ = 0 := by simpa [ControlCounter.ctrlCtrZero] using hz
  have hlen : g.dlc.length = 3 := by omega
  have hview : s.rxs.view = s.rxs.fields := by simp [RxShiftReg.view, hc]
  have hdlc : word (g.dlc ++ [s.bds.dataOut]) 0 4 = s.rxs.fields.recDlcD s.bds.dataOut := by
    rw [word_concat _ (by omega), RxFields.recDlcD, hreg 3 (by omega)]
  have htake : takesBit s = true := by simp [takesBit, he, ht]
  cases hx : isTransmitter s
  · simp [DataField.frameBytes, DataField.takeDlc, htake, hlen, hx, hdlc, dataBytes, isRemote, hview,
      RxFields.recIsRtr, hrtr, hfdf, dataLengthC, ProtocolControl.recDataLengthC, pcInput]
  · simp [DataField.frameBytes, DataField.takeDlc, htake, hlen, hx, dataBytes, isRemote,
      dataLengthC, ProtocolControl.tranDataLength, ProtocolControl.tranFrameTypeI,
      TranMeta.frameTypeI, pcInput]

/-- Before its last bit there is none. -/
theorem frameBytes_before (h : controlSeen g s.rxs s.ctr.ctrlCtrQ .dlc)
    (hlast : ¬ (s.err.errFrmReq = false ∧ pcRxTrigger s = true ∧ s.ctr.ctrlCtrZero = true)) :
    (g.takeDlc s).frameBytes c s i = 0 := by
  obtain ⟨-, -, -, hctr, -⟩ := h
  have hlt : (g.takeDlc s).dlc.length < 4 := by
    cases ht : takesBit s
    · simp only [DataField.takeDlc, ht, Bool.false_eq_true, if_false]
      omega
    · have hne : s.ctr.ctrlCtrQ ≠ 0 := by
        intro hz
        simp only [takesBit, Bool.and_eq_true, Bool.not_eq_true'] at ht
        exact hlast ⟨ht.1, ht.2, by simp [ControlCounter.ctrlCtrZero, hz]⟩
      simp only [DataField.takeDlc, ht, if_true, List.length_append, List.length_singleton]
      omega
  simp [DataField.frameBytes, hlt]

end Control

/-! ## Through the data field -/

section Step

variable {c : Config} {g : DataField} {s : State} {i : Input}

/-- In the data field. -/
structure InField (c : Config) (g : DataField) (s : State) : Prop where
  bound : s.ctr.ctrlCtrQ + s.ctr.complCtrQ < 512
  remaining : g.length ≠ 0 → s.ctr.ctrlCtrQ + s.ctr.complCtrQ + 1 = 8 * g.length
  takesPart : g.takesPart = true → g.length ≠ 0
  taken : g.bits.length = s.ctr.complCtrQ
  issued : g.issued = issues c s
  clearQ : s.rxs.clearQ = false
  lanes : Lanes g.bits s.rxs.fields.rxShiftRegQ
  count : g.issued = true → (g.presented s).length = s.ctr.complCtrQ / 32
  cut : g.cut = false

/-- Outside of it: all bits were taken, or an error frame came before them. -/
structure Over (g : DataField) (s : State) : Prop where
  extent : g.bits.length = 8 * g.length ∨ (g.cut = true ∧ g.bits.length < 8 * g.length)
  count : g.issued = true → (g.presented s).length = g.wordCount

structure Received (c : Config) (g : DataField) (s : State) : Prop where
  control : controlSeen g s.rxs s.ctr.ctrlCtrQ s.pc.currState
  words : ∀ k w, g.words[k]? = some w → HoldsBytes g k w
  port : s.pc.storeData = true → HoldsBytes g g.words.length (storeDataWord s)
  data : s.pc.currState = .data → InField c g s
  ended : s.pc.currState ≠ .data → g.takesPart = true → Over g s

theorem storeData_data (he : s.err.errFrmReq = false) (hq : s.pc.currState = .data) :
    (step c s i).pc.storeData = (issues c s && pcRxTrigger s &&
      (s.ctr.ctrlCtrZero || decide (s.ctr.complCtrQ % 32 = 31))) := by
  have hword : (s.ctr.ctrlCountedByte && s.ctr.ctrlCountedByteIndex == 3) =
      decide (s.ctr.complCtrQ % 32 = 31) := by
    simp only [ControlCounter.ctrlCountedByte, ControlCounter.ctrlCountedByteIndex]
    rw [Bool.eq_iff_iff]
    simp
    omega
  have hd : (pcOut c s i).storeDataD = (s.ctr.ctrlCtrZero ||
      (s.ctr.ctrlCountedByte && s.ctr.ctrlCountedByteIndex == 3 && !s.ctr.ctrlCtrZero)) := by
    rw [pcOut_noErr he, hq]
    rfl
  have hs : (step c s i).pc.storeData = (issues c s && pcRxTrigger s &&
      (pcOut c s i).storeDataD) := rfl
  rw [hs, hd, hword]
  cases s.ctr.ctrlCtrZero <;> simp

theorem storeData_only (h : (step c s i).pc.storeData = true) :
    s.err.errFrmReq = false ∧ s.pc.currState = .data := by
  have hs : (step c s i).pc.storeData = (issues c s && pcRxTrigger s &&
      (pcOut c s i).storeDataD) := rfl
  rw [hs, Bool.and_eq_true] at h
  exact ProtocolControl.out_storeDataD (c := c) h.2

theorem storeData_closed (h : s.err.errFrmReq = true ∨ s.pc.currState ≠ .data) :
    (step c s i).pc.storeData = false := by
  by_contra hs
  obtain ⟨he, hq⟩ := storeData_only (c := c) (i := i) (by simpa using hs)
  rcases h with h | h
  · simp [he] at h
  · exact h hq

/-- A data bit enters the lane of its byte. -/
theorem rxs_data (he : s.err.errFrmReq = false) (hq : s.pc.currState = .data)
    (hc : s.rxs.clearQ = false) :
    (step c s i).rxs.clearQ = false ∧ (step c s i).rxs.fields.rxShiftRegQ =
      shiftRegByte s.rxs.fields.rxShiftRegQ
        (fun k => k == s.ctr.complCtrQ / 8 % 4 && pcRxTrigger s) true s.bds.dataOut := by
  have ho := pcOut_noErr (c := c) (i := i) he
  have hidx : (pcInput c s i).ctrlCountedByteIndex = s.ctr.complCtrQ / 8 % 4 := rfl
  simp [step, RxShiftReg.step, hc, ho, hq, ProtocolControl.outState, ProtocolControl.outData, hidx]

theorem HoldsBytes.extend {g' : DataField} {k : Nat} {w : BitVec 32} (h : HoldsBytes g k w)
    (hlen : g'.length = g.length) (more : List Bool) (hbits : g'.bits = g.bits ++ more) :
    HoldsBytes g' k w := by
  intro n hn hex p hp
  have hbit := h n hn (by omega) p hp
  rw [hbits, List.getElem?_append_left (List.getElem?_eq_some_iff.mp hbit).1, hbit]

/-- Words that were stored before, and the one on the port. -/
theorem Received.presented (h : Received c g s) {k : Nat} {w : BitVec 32}
    (hk : (g.presented s)[k]? = some w) : HoldsBytes g k w := by
  simp only [DataField.presented] at hk
  split at hk
  · rename_i hd
    rcases Nat.lt_or_ge k g.words.length with hlt | hge
    · rw [List.getElem?_append_left hlt] at hk
      exact h.words k w hk
    · rw [List.getElem?_append_right hge] at hk
      obtain ⟨h0, rfl⟩ := List.getElem?_eq_some_iff.mp hk
      have hkl : k = g.words.length := by
        simp only [List.length_singleton] at h0
        omega
      subst hkl
      simpa using h.port hd
  · exact h.words k w hk

theorem issues_step (he : s.err.errFrmReq = false)
    (hq : s.pc.currState = .dlc ∨ s.pc.currState = .data) :
    issues c (step c s i) = issues c s := by
  rw [issues, isReceiver_step he (hq.imp_right fun hd => .inl (by rw [hd]; rfl)), issues]

/-! ### The DLC -/

theorem next_dlc (hq : s.pc.currState = .dlc) : g.next c s i =
    { g.takeDlc s with
      length := (g.takeDlc s).frameBytes c s i
      takesPart := isTransmitter s || isReceiver s
      issued := issues c s
      bits := []
      words := []
      cut := false } := by
  simp [DataField.next, hq]

theorem presented_dlc (hq : s.pc.currState = .dlc) :
    (g.next c s i).presented (step c s i) = [] := by
  have hport : (step c s i).pc.storeData = false := storeData_closed (.inr (by rw [hq]; decide))
  simp [DataField.presented, hport, next_dlc hq]

/-- The last bit of the DLC opens the data field. -/
theorem InField.opened (hctl : controlSeen g s.rxs s.ctr.ctrlCtrQ .dlc)
    (hq : s.pc.currState = .dlc) (hq' : (step c s i).pc.currState = .data) :
    InField c (g.next c s i) (step c s i) := by
  have htail : (ProtocolControl.step c s.pc (pcInput c s i)).currState.inTail = true := by
    have hq' : (ProtocolControl.step c s.pc (pcInput c s i)).currState = .data := hq'
    rw [hq']
    rfl
  obtain ⟨-, hz, ht, he⟩ := ProtocolControl.enter_tail (by rw [hq]; rfl) htail
  have hend := dlc_end (c := c) (i := i) he hq hz ht
  have hlen := frameBytes_last (c := c) (i := i) hctl he ht hz
  split at hend
  · exact absurd hq' hend
  · rename_i hno
    rw [Bool.not_eq_true] at hno
    obtain ⟨-, hctr⟩ := hend
    have hle := ProtocolControl.dataLengthC_le (c := c) (i := pcInput c s i)
    have ho := pcOut_noErr (c := c) (i := i) he
    have hg := next_dlc (c := c) (g := g) (i := i) hq
    rw [hg]
    refine ⟨?_, ?_, ?_, ?_, ?_, ?_, ?_, ?_, rfl⟩
    · have hlt : dataLengthBitsC c (pcInput c s i) < 512 := by
        rw [dataLengthBitsC]
        omega
      simpa [hctr] using hlt
    · intro hne
      simp only [hctr, hlen, dataLengthBitsC] at hne ⊢
      split at hne
      · exact absurd rfl hne
      · rename_i hrem
        rw [if_neg hrem]
        omega
    · intro hr
      obtain ⟨hrem, hpos⟩ := length_takesPart hno hr
      simp only [hlen, hrem, Bool.false_eq_true, if_false]
      exact hpos
    · rw [hctr]
      rfl
    · exact (issues_step he (.inl hq)).symm
    · simp [step, RxShiftReg.step, ho, hq, outState, ProtocolControl.outDlc]
    · intro m hm
      exact absurd hm (by simp)
    · intro _
      rw [← hg, presented_dlc hq, hctr]
      simp

/-- While the DLC goes on, and for a frame without data field, no byte is expected. -/
theorem length_dlc (hctl : controlSeen g s.rxs s.ctr.ctrlCtrQ .dlc) (hq : s.pc.currState = .dlc)
    (hq' : (step c s i).pc.currState ≠ .data) : (g.next c s i).length = 0 := by
  rw [next_dlc hq]
  by_cases hlast : s.err.errFrmReq = false ∧ pcRxTrigger s = true ∧ s.ctr.ctrlCtrZero = true
  · obtain ⟨he, ht, hz⟩ := hlast
    have hend := dlc_end (c := c) (i := i) he hq hz ht
    have hno : noDataField c (pcInput c s i) = true := by
      by_contra hno
      rw [if_neg hno] at hend
      exact hq' hend.1
    rw [noDataField_eq] at hno
    simp only [Bool.and_eq_true, Bool.or_eq_true, beq_iff_eq] at hno
    simp only [frameBytes_last hctl he ht hz]
    split
    · rfl
    · rename_i hrem
      exact hno.2.resolve_left hrem
  · exact frameBytes_before hctl hlast

theorem received_dlc (h : Received c g s) (hq : s.pc.currState = .dlc) :
    Received c (g.next c s i) (step c s i) := by
  have hctl := h.control
  rw [hq] at hctl
  have hg := next_dlc (c := c) (g := g) (i := i) hq
  have hport : (step c s i).pc.storeData = false := storeData_closed (.inr (by rw [hq]; decide))
  refine ⟨controlSeen_step h.control, by simp [hg], by simp [hport], InField.opened hctl hq, ?_⟩
  intro hq' _
  have hzero := length_dlc hctl hq hq'
  have hbits : (g.next c s i).bits = [] := by rw [hg]
  refine ⟨.inl (by rw [hzero, hbits]; rfl), fun _ => ?_⟩
  rw [presented_dlc hq, DataField.wordCount, hzero, hbits]
  rfl

/-! ### The data field -/

theorem next_data (hq : s.pc.currState = .data) (he : s.err.errFrmReq = false) : g.next c s i =
    { g with
      bits := if pcRxTrigger s then g.bits ++ [s.bds.dataOut] else g.bits
      words := g.presented s
      cut := false } := by
  simp [DataField.next, takesBit, hq, he]

theorem length_presented (hq : s.pc.currState = .data) (he : s.err.errFrmReq = false) :
    ((g.next c s i).presented (step c s i)).length =
      if (step c s i).pc.storeData then (g.presented s).length + 1
      else (g.presented s).length := by
  rw [DataField.presented, next_data hq he]
  split <;> simp

theorem InField.next_lanes (hf : InField c g s) (hq : s.pc.currState = .data)
    (he : s.err.errFrmReq = false) :
    Lanes (g.next c s i).bits (step c s i).rxs.fields.rxShiftRegQ := by
  rw [next_data hq he]
  cases ht : pcRxTrigger s
  · rw [rxs_hold ht hf.clearQ]
    exact hf.lanes
  · rw [(rxs_data (c := c) (i := i) he hq hf.clearQ).2]
    exact hf.lanes.take s.bds.dataOut (by simp [ht, hf.taken])

/-- A word is given to the port with its last byte, or with the last one of the field. -/
theorem InField.next_port (hf : InField c g s) (hq : s.pc.currState = .data)
    (he : s.err.errFrmReq = false) (hd : (step c s i).pc.storeData = true) :
    HoldsBytes (g.next c s i) (g.next c s i).words.length (storeDataWord (step c s i)) := by
  have hg := next_data (c := c) (g := g) (i := i) hq he
  rw [storeData_data he hq, ← hf.issued] at hd
  simp only [Bool.and_eq_true, Bool.or_eq_true, decide_eq_true_eq] at hd
  obtain ⟨⟨hiss, ht⟩, hend⟩ := hd
  have hword : storeDataWord (step c s i) = (step c s i).rxs.fields.rxShiftRegQ := by
    simp [storeDataWord, RxShiftReg.view, (rxs_data (c := c) (i := i) he hq hf.clearQ).1]
  have hk : (g.next c s i).words.length = s.ctr.complCtrQ / 32 := by
    rw [hg]
    exact hf.count hiss
  have hlen : (g.next c s i).bits.length = s.ctr.complCtrQ + 1 := by
    rw [hg]
    simp [ht, hf.taken]
  rw [hword, hk]
  by_cases h0 : (g.next c s i).length = 0
  · intro n _ hex
    omega
  · have hrem : s.ctr.ctrlCtrQ + s.ctr.complCtrQ + 1 = 8 * (g.next c s i).length := by
      rw [hg] at h0 ⊢
      exact hf.remaining h0
    refine (hf.next_lanes hq he).holdsBytes ?_
    rw [hlen]
    rcases hend with hz | h31
    · have hz : s.ctr.ctrlCtrQ = 0 := by simpa [ControlCounter.ctrlCtrZero] using hz
      omega
    · omega

theorem InField.between (hf : InField c g s) (hq : s.pc.currState = .data)
    (he : s.err.errFrmReq = false) (ht : pcRxTrigger s = false) :
    InField c (g.next c s i) (step c s i) := by
  have hg := next_data (c := c) (g := g) (i := i) hq he
  have hstep := data_step (c := c) (i := i) he hq hf.bound
  rw [ht] at hstep
  obtain ⟨-, hctr⟩ := hstep
  have hport : (step c s i).pc.storeData = false := by simp [storeData_data he hq, ht]
  have hpresented := length_presented (c := c) (g := g) (i := i) hq he
  rw [hport] at hpresented
  refine ⟨?_, ?_, ?_, ?_, ?_, (rxs_data he hq hf.clearQ).1, hf.next_lanes hq he, ?_, by rw [hg]⟩
  · rw [hctr]
    exact hf.bound
  · rw [hctr, hg]
    exact hf.remaining
  · rw [hg]
    exact hf.takesPart
  · rw [hctr, hg]
    simpa [ht] using hf.taken
  · rw [issues_step he (.inr hq), hg]
    exact hf.issued
  · rw [hctr, hpresented, hg]
    exact hf.count

theorem InField.take (hf : InField c g s) (hq : s.pc.currState = .data)
    (he : s.err.errFrmReq = false) (ht : pcRxTrigger s = true) (hz : s.ctr.ctrlCtrZero = false) :
    InField c (g.next c s i) (step c s i) := by
  have hg := next_data (c := c) (g := g) (i := i) hq he
  have hstep := data_step (c := c) (i := i) he hq hf.bound
  rw [ht, if_pos rfl, hz] at hstep
  obtain ⟨-, hctr⟩ := hstep
  have hne : s.ctr.ctrlCtrQ ≠ 0 := by simpa [ControlCounter.ctrlCtrZero] using hz
  have hbound := hf.bound
  refine ⟨?_, ?_, ?_, ?_, ?_, (rxs_data he hq hf.clearQ).1, hf.next_lanes hq he, ?_, by rw [hg]⟩
  · simp only [hctr]
    omega
  · intro hlen
    have hlen : g.length ≠ 0 := by simpa [hg] using hlen
    have hrem := hf.remaining hlen
    simp only [hctr, hg]
    omega
  · rw [hg]
    exact hf.takesPart
  · simp [hctr, hg, ht, hf.taken]
  · rw [issues_step he (.inr hq), hg]
    exact hf.issued
  · intro hiss
    have hiss : g.issued = true := by simpa [hg] using hiss
    rw [length_presented hq he, storeData_data he hq, hf.count hiss, ← hf.issued, hiss, ht]
    simp only [hz, Bool.true_and, Bool.false_or, decide_eq_true_eq, hctr]
    split <;> omega

/-- The last bit completes the field. -/
theorem InField.complete (hf : InField c g s) (hq : s.pc.currState = .data)
    (he : s.err.errFrmReq = false) (ht : pcRxTrigger s = true) (hz : s.ctr.ctrlCtrZero = true)
    (hpart : g.takesPart = true) : Over (g.next c s i) (step c s i) := by
  have hg := next_data (c := c) (g := g) (i := i) hq he
  have hrem := hf.remaining (hf.takesPart hpart)
  have h0 : s.ctr.ctrlCtrQ = 0 := by simpa [ControlCounter.ctrlCtrZero] using hz
  have hall : (g.next c s i).bits.length = 8 * (g.next c s i).length := by
    simp only [hg, ht, if_true, List.length_append, List.length_singleton, hf.taken]
    omega
  refine ⟨.inl hall, fun hiss => ?_⟩
  have hiss : g.issued = true := by simpa [hg] using hiss
  rw [length_presented hq he, storeData_data he hq, hf.count hiss, ← hf.issued, hiss, ht, hz,
    DataField.wordCount, if_pos hall, hg]
  simp only [Bool.true_and, Bool.true_or, if_true]
  omega

/-- One cycle in the data field without an error. -/
theorem received_data (h : Received c g s) (hq : s.pc.currState = .data)
    (he : s.err.errFrmReq = false) : Received c (g.next c s i) (step c s i) := by
  have hf := h.data hq
  have hg := next_data (c := c) (g := g) (i := i) hq he
  have hstep := data_step (c := c) (i := i) he hq hf.bound
  have hwords : ∀ k w, (g.next c s i).words[k]? = some w → HoldsBytes (g.next c s i) k w := by
    rw [hg]
    intro k w hk
    refine (h.presented hk).extend rfl (if pcRxTrigger s then [s.bds.dataOut] else []) ?_
    cases pcRxTrigger s <;> simp
  refine ⟨controlSeen_step h.control, hwords, hf.next_port hq he, fun hq' => ?_,
    fun hq' hpart => ?_⟩ <;> cases ht : pcRxTrigger s
  · exact hf.between hq he ht
  · cases hz : s.ctr.ctrlCtrZero
    · exact hf.take hq he ht hz
    · rw [ht, if_pos rfl, hz] at hstep
      exact absurd hq' hstep
  · rw [ht] at hstep
    exact absurd hstep.1 hq'
  · cases hz : s.ctr.ctrlCtrZero
    · rw [ht, if_pos rfl, hz] at hstep
      exact absurd hstep.1 hq'
    · exact hf.complete hq he ht hz (by simpa [hg] using hpart)

/-- An error ends the field; a bit sampled with it is not taken. -/
theorem received_cut (h : Received c g s) (hq : s.pc.currState = .data)
    (he : s.err.errFrmReq = true) : Received c (g.next c s i) (step c s i) := by
  have hf := h.data hq
  have hg : g.next c s i = { g with words := g.presented s, cut := true } := by
    simp [DataField.next, takesBit, hq, he]
  have hport : (step c s i).pc.storeData = false := storeData_closed (.inl he)
  have hpresented : (g.next c s i).presented (step c s i) = g.presented s := by
    rw [DataField.presented, hport, hg]
    rfl
  refine ⟨controlSeen_step h.control, ?_, by simp [hport], ?_, ?_⟩
  · rw [hg]
    exact fun k w hk => (h.presented hk).extend rfl [] (List.append_nil _).symm
  · intro hq'
    have herr := state_err (c := c) (i := i) he
    rw [hq'] at herr
    cases herr
  · intro _ hpart
    have hpart : g.takesPart = true := by simpa [hg] using hpart
    have hrem := hf.remaining (hf.takesPart hpart)
    have htaken := hf.taken
    have hlt : g.bits.length < 8 * g.length := by omega
    refine ⟨.inr ⟨by rw [hg], by rw [hg]; exact hlt⟩, fun hiss => ?_⟩
    have hiss : g.issued = true := by simpa [hg] using hiss
    rw [hpresented, hf.count hiss, DataField.wordCount, hg, if_neg (by simp only; omega), ← htaken]

/-- Outside of DLC and data field nothing is stored but the word on the port. -/
theorem received_outside (h : Received c g s) (hd : s.pc.currState ≠ .dlc)
    (hq : s.pc.currState ≠ .data) : Received c (g.next c s i) (step c s i) := by
  have hg : (g.next c s i).length = g.length ∧ (g.next c s i).takesPart = g.takesPart ∧
      (g.next c s i).issued = g.issued ∧ (g.next c s i).bits = g.bits ∧
      (g.next c s i).words = g.presented s ∧ (g.next c s i).cut = g.cut := by
    rw [DataField.next]
    split <;> first | exact ⟨rfl, rfl, rfl, rfl, rfl, rfl⟩ | contradiction
  obtain ⟨hlen, hpart, hiss, hbits, hwords, hcut⟩ := hg
  have hq' : (step c s i).pc.currState ≠ .data := by
    intro hq'
    rcases ProtocolControl.enter_data (c := c) (q := s.pc) (i := pcInput c s i) hq' with h' | h'
    · exact hq h'
    · exact hd h'
  have hport : (step c s i).pc.storeData = false := storeData_closed (.inr hq)
  have hpresented : (g.next c s i).presented (step c s i) = g.presented s := by
    rw [DataField.presented, hport, hwords]
    rfl
  refine ⟨controlSeen_step h.control, ?_, by simp [hport], fun h' => absurd h' hq', fun _ hp => ?_⟩
  · rw [hwords]
    exact fun k w hk => (h.presented hk).extend hlen [] (by rw [hbits, List.append_nil])
  · have ho := h.ended hq (hpart ▸ hp)
    refine ⟨?_, ?_⟩
    · rw [hbits, hlen, hcut]
      exact ho.extent
    · rw [hiss, hpresented, DataField.wordCount, hbits, hlen]
      exact ho.count

theorem step_received (h : Received c g s) : Received c (g.next c s i) (step c s i) := by
  by_cases hd : s.pc.currState = .dlc
  · exact received_dlc h hd
  by_cases hq : s.pc.currState = .data
  · cases he : s.err.errFrmReq
    · exact received_data h hq he
    · exact received_cut h hq he
  · exact received_outside h hd hq

end Step

/-- Nothing was received. -/
def DataField.none : DataField where
  rtr := false
  fdf := false
  dlc := []
  length := 0
  takesPart := false
  issued := false
  bits := []
  words := []
  cut := false

theorem Received.of_reset (c : Config) : Received c .none reset where
  control := trivial
  words := by simp [DataField.none]
  port := by simp [reset, ProtocolControl.reset]
  data := by simp [reset, ProtocolControl.reset]
  ended := by simp [DataField.none]

/-- The core with what it received of the last data field. -/
def fieldStep (c : Config) : State × DataField → Input → State × DataField :=
  watched (step c) fun g s i => g.next c s i

/-- In every run of the core, whatever its surroundings do, each word that is stored holds
the bytes received, four to a word with the first one in bits 7 to 0. A node that takes part in
a frame is in its data field until all bytes the DLC names are received or an error frame is
requested, and stores one word for every four bytes and, at the end, one for the rest. -/
theorem data_words_received (c : Config) (is : List Input) :
    let p := run (fieldStep c) (reset, .none) is
    (∀ k w, (p.2.presented p.1)[k]? = some w → HoldsBytes p.2 k w) ∧
      (p.2.takesPart = true → p.2.bits.length ≤ 8 * p.2.length ∧
        (p.1.pc.currState = .data ↔ p.2.cut = false ∧ p.2.bits.length < 8 * p.2.length) ∧
        (p.2.issued = true → (p.2.presented p.1).length = p.2.wordCount)) := by
  intro p
  have hinv : Received c p.2 p.1 :=
    run_invariant (fieldStep c) (fun _ _ => True) (fun p => Received c p.2 p.1)
      (fun _ _ h _ => step_received h) (Received.of_reset c) is (admits_true _ _ _)
  refine ⟨fun k w hk => hinv.presented hk, fun hpart => ?_⟩
  by_cases hq : p.1.pc.currState = .data
  · have hf := hinv.data hq
    have hrem := hf.remaining (hf.takesPart hpart)
    have htaken := hf.taken
    have hlt : p.2.bits.length < 8 * p.2.length := by omega
    refine ⟨hlt.le, iff_of_true hq ⟨hf.cut, hlt⟩, fun hiss => ?_⟩
    rw [hf.count hiss, DataField.wordCount, if_neg hlt.ne, htaken]
  · obtain ⟨hext, hcount⟩ := hinv.ended hq hpart
    refine ⟨?_, iff_of_false hq ?_, hcount⟩
    · rcases hext with hall | ⟨-, hlt⟩
      · exact hall.le
      · exact hlt.le
    · rintro ⟨hcut, hlt⟩
      rcases hext with hall | ⟨hcut', -⟩
      · omega
      · rw [hcut] at hcut'
        cases hcut'

def listener : Config where
  mrSettingsEna := true
  mrSettingsIlbp := false
  mrSettingsPex := false
  mrSettingsNisofd := false
  mrSettingsRtrle := false
  mrModeRom := false
  mrModeBmm := false
  mrModeFde := true
  mrModeAcf := false
  mrModeSam := false
  mrModeStm := false
  mrModeTstm := false
  mrSspCfgSspSrc := .noSsp

/-- A cycle of a node with nothing to send, bus-off until integration is over. -/
def listening (busOff sample bit : Bool) : Input where
  rxTrigReq := sample
  txTrigger := false
  rxDataWbs := bit
  sampleSec := false
  dataTxDelayed := true
  syncEdge := false
  tranFrameValid := false
  tranMeta := ⟨0, false, false, false, false, 0, ⟨false, false, false, 0⟩⟩
  tranWord := 0
  tranFrameParityError := false
  isErrActive := !busOff
  isErrPassive := false
  isBusOff := busOff
  retrLimitReached := false
  reintegCtrExpired := false
  mrCommandErcrst := false
  crcMatchC := true
  crc15 := 0
  crc17 := 0
  crc21 := 0

/-- Integration, and the bits of a frame from SOF on. -/
def listenTo (bits : List Bool) : List Input :=
  (List.replicate 11 [listening true true true, listening true false true]).flatten ++
    bits.flatMap fun b => [listening false true b, listening false false b]

/-- A classical base frame with DLC 5, up to the end of its data field. -/
def fiveBytes : List Input := listenTo
  ([false] ++ [true, false, true, false, true, false, true, false, true, false, true] ++
    [false, false, false] ++ [false, true, false, true] ++
    [true, false, true, true, false, false, true, false] ++
    [false, true, false, true, false, true, false, true] ++
    [true, true, false, false, true, true, false, false] ++
    [true, false, false, true, true, false, false, true] ++
    [false, false, true, true, false, false, true, true])

theorem data_words_received_five :
    let p := run (fieldStep listener) (reset, .none) fiveBytes
    p.2.dlc = [false, true, false, true] ∧ p.2.length = 5 ∧ p.2.bits.length = 40 ∧
      p.1.pc.currState ≠ .data ∧ (p.2.presented p.1).length = 2 ∧
      p.2.presented p.1 = [0x99CC55B2, 0x99CC5533] ∧ HoldsBytes p.2 0 0x99CC55B2 ∧
      HoldsBytes p.2 1 0x99CC5533 := by
  obtain ⟨hwords, hfield⟩ := data_words_received listener fiveBytes
  have hrun : (fun p : State × DataField => (p.2.takesPart = true ∧ p.2.issued = true) ∧
      p.2.dlc = [false, true, false, true] ∧ p.2.length = 5 ∧ p.2.bits.length = 40 ∧
      p.2.presented p.1 = [0x99CC55B2, 0x99CC5533])
      (run (fieldStep listener) (reset, .none) fiveBytes) := by decide +kernel
  obtain ⟨⟨hpart, hiss⟩, hdlc, hlen, hbits, hpres⟩ := hrun
  obtain ⟨-, hdata, hcount⟩ := hfield hpart
  refine ⟨hdlc, hlen, hbits, ?_, ?_, hpres, hwords 0 _ (by rw [hpres]; rfl),
    hwords 1 _ (by rw [hpres]; rfl)⟩
  · rw [Ne, hdata, hlen, hbits]
    exact fun h => absurd h.2 (by decide)
  · rw [hcount hiss, DataField.wordCount, hbits, hlen]
    rfl

end CanCore
