import CtuCanFd.Core.DataWords
import CtuCanFd.Core.HeaderFields

/-!
# The frame a transmitter sends

The fields of the metadata go out through the TX shift register or as fixed bits, and the data
words are read from the TXT buffer one word ahead of the word that is sent. Up to the end of
the data field the bits on the bus are the frame format's bits of the metadata, followed by the
bytes of the buffer.
-/

open ProtocolControl SyncMachine BitFields

namespace CanCore

open FrameFormat (Header)

/-! ## The frame in the TXT buffer -/

/-- The header of the frame that is offered. CAN FD format is subject to FD mode, and ESI is the
fault confinement state at the ESI bit. -/
def TranMeta.header (c : Config) (m : TranMeta) (esi : Bool) : Header where
  ident := m.tranIdentifier.extractLsb' 18 11 ++
    if m.tranIdentType then m.tranIdentifier.extractLsb' 0 18 else 0#18
  identType := m.tranIdentType
  isRtr := m.tranIsRtr && !m.frameTypeI c
  frameType := m.frameTypeI c
  brs := m.frameTypeI c && m.tranBrs
  esi := m.frameTypeI c && esi
  dlc := m.tranDlc

theorem TranMeta.header_wellFormed (c : Config) (m : TranMeta) (esi : Bool) :
    (m.header c esi).WellFormed where
  ident h := by
    have h : m.tranIdentType = false := h
    show (_ ++ if m.tranIdentType then _ else 0#18 : BitVec 29).extractLsb' 0 18 = 0
    rw [FrameFormat.ident_ext, h]
    rfl
  isRtr h := by
    have h : m.frameTypeI c = true := h
    simp [header, h]
  brs h := by
    have h : m.frameTypeI c = false := h
    simp [header, h]
  esi h := by
    have h : m.frameTypeI c = false := h
    simp [header, h]

/-- Bit `n` of the data field: the data words start at address 4 and are sent byte by byte in
address order, each byte from its top bit on. -/
def dataBit (mem : Nat → BitVec 32) (n : Nat) : Bool :=
  (mem (4 + n / 32)).getLsbD (8 * (n / 8 % 4) + (7 - n % 8))

def dataBits (mem : Nat → BitVec 32) (len : Nat) : List Bool :=
  (List.range (8 * len)).map (dataBit mem)

/-- The frame up to the end of the data field. -/
def frameBits (mem : Nat → BitVec 32) (h : Header) : List Bool :=
  h.sentBits ++ dataBits mem h.dataLength

theorem dataLength_le (h : Header) : h.dataLength ≤ 64 := by
  rw [Header.dataLength]
  split
  · omega
  · exact dlcDecoder_le _ _

theorem tranWordSwapped_bit (w : BitVec 32) {n : Nat} (hn : n < 32) :
    (TxShiftReg.tranWordSwapped w).getLsbD (31 - n) = w.getLsbD (8 * (n / 8) + (7 - n % 8)) := by
  have hbyte : n / 8 = 0 ∨ n / 8 = 1 ∨ n / 8 = 2 ∨ n / 8 = 3 := by omega
  simp only [TxShiftReg.tranWordSwapped, BitVec.getLsbD_append, BitVec.getLsbD_extractLsb']
  rcases hbyte with h | h | h | h <;> rw [h]
  · rw [if_neg (by omega), if_neg (by omega), if_neg (by omega), decide_eq_true (by omega)]
    simp only [Bool.true_and]
    congr 1
    omega
  · rw [if_neg (by omega), if_neg (by omega), if_pos (by omega), decide_eq_true (by omega)]
    simp only [Bool.true_and]
    congr 1
    omega
  · rw [if_neg (by omega), if_pos (by omega), decide_eq_true (by omega)]
    simp only [Bool.true_and]
    congr 1
    omega
  · rw [if_pos (by omega), decide_eq_true (by omega)]
    simp only [Bool.true_and]
    congr 1
    omega

/-! ## How far the frame has come -/

/-- The bits sent before the current bit. -/
def sentSoFar (h : Header) (mem : Nat → BitVec 32) (q : ControlCounter) : PcState → List Bool
  | .baseId => false :: (sent (h.ident.extractLsb' 18 11)).take (10 - q.ctrlCtrQ)
  | .rtrSrrR1 => h.baseBits
  | .ide => h.baseBits ++ [h.identType || h.isRtr]
  | .extId => h.baseBits ++ true :: true :: (sent (h.ident.extractLsb' 0 18)).take (17 - q.ctrlCtrQ)
  | .rtrR1 => h.baseBits ++ true :: true :: sent (h.ident.extractLsb' 0 18)
  | .edlR1 | .edlR0 => h.identBits
  | .r0Ext => h.identBits ++ [false]
  | .r0Fd => h.identBits ++ [true]
  | .brs => h.identBits ++ [true, false]
  | .esi => h.identBits ++ [true, false, h.brs]
  | .dlc => h.controlBits ++ (sent h.dlc).take (3 - q.ctrlCtrQ)
  | .data => h.sentBits ++ (List.range q.complCtrQ).map (dataBit mem)
  | _ => []

/-- Fields a frame with this header has, and the bits left in them. -/
def OnPath (h : Header) (q : ControlCounter) : PcState → Prop
  | .baseId => q.ctrlCtrQ ≤ 10
  | .extId => h.identType = true ∧ q.ctrlCtrQ ≤ 17
  | .rtrR1 | .edlR1 => h.identType = true
  | .edlR0 => h.identType = false
  | .r0Ext => h.identType = true ∧ h.frameType = false
  | .r0Fd | .brs | .esi => h.frameType = true
  | .dlc => q.ctrlCtrQ ≤ 3
  | .data => q.ctrlCtrQ + q.complCtrQ + 1 = 8 * h.dataLength
  | _ => True

/-- What the shift register was loaded with for the field, counted from the last bit. -/
def fieldBit (h : Header) (mem : Nat → BitVec 32) (q : ControlCounter) : PcState → Nat → Bool
  | .baseId => (h.ident.extractLsb' 18 11).getLsbD
  | .extId => (h.ident.extractLsb' 0 18).getLsbD
  | .dlc => h.dlc.getLsbD
  | .data => (TxShiftReg.tranWordSwapped (mem (4 + q.complCtrQ / 32))).getLsbD
  | _ => fun _ => false

/-- Bits of the field, or of the data word, behind the current bit. -/
def fieldLeft (q : ControlCounter) : PcState → Nat
  | .data => 31 - q.complCtrQ % 32
  | _ => q.ctrlCtrQ

/-- The current bit. -/
def currentBit (h : Header) (mem : Nat → BitVec 32) (q : ControlCounter) : PcState → Bool
  | .sof | .r0Ext | .r0Fd => false
  | .rtrSrrR1 => h.identType || h.isRtr
  | .ide => h.identType
  | .rtrR1 => h.isRtr
  | .edlR1 | .edlR0 => h.frameType
  | .brs => h.brs
  | .esi => h.esi
  | st => fieldBit h mem q st (fieldLeft q st)

structure Sends (mem : Nat → BitVec 32) (k : Clock) (s : State) (bits : List Bool) (h : Header) :
    Prop where
  path : OnPath h s.ctr s.pc.currState
  bits : bits = sentSoFar h mem s.ctr s.pc.currState
  field : shifted s.pc.currState = true →
    ShiftOut k s (fieldBit h mem s.ctr s.pc.currState) (fieldLeft s.ctr s.pc.currState)

section Steps

variable {c : Config} {k : Clock} {s : State} {i : Input} {v : List FrameBit}
  {mem : Nat → BitVec 32} {m : TranMeta} {h : Header}

/-- Between sample points, and when a stuff bit is taken, the frame does not move on. -/
theorem Sends.quiet (hs : Sends mem k s (nbs v) h) (hf : Following c k s) (hok : Bench k s i)
    (he : s.err.errFrmReq = false) (hx : isTransmitter s = true)
    (hq : s.pc.currState.inPlain = true) (ht : pcRxTrigger s = false)
    (hleft : shifted s.pc.currState = true → fieldLeft s.ctr s.pc.currState ≤ 31) :
    Sends mem (k.next s i) (step c s i) (nbs (seen c v s i)) h := by
  have hk := kept_plain (c := c) (i := i) he hq ht
  have hcov := inCovered_of_inPlain hq
  refine ⟨?_, ?_, fun hsh => ?_⟩
  · rw [hk.ctr, hk.state]
    exact hs.path
  · rw [nbs_seen he hcov, ht, hk.ctr, hk.state]
    exact hs.bits
  · rw [hk.state] at hsh
    rw [hk.ctr, hk.state]
    by_cases h0 : k.since = 0
    · have hsam := (hf.aligned hx hq he).sampled h0
      have hh : s.bst.dataHaltQ = true := by
        have := hsam.trigger (h0 ▸ hf.paced)
        simpa [ht] using this
      exact (hs.field hsh).take_stuff hf hok h0 hh (txs_kept ht (Following.quiet_take hok h0).2)
    · exact (hs.field hsh).between (hleft hsh) hf hok he hx hq hsh h0

/-- A bit that a transmitter takes without an error. -/
structure Taking (c : Config) (k : Clock) (s : State) (i : Input) (m : TranMeta) : Prop where
  following : Following c k s
  bench : Bench k s i
  ena : c.mrSettingsEna = true
  tstm : c.mrModeTstm = false
  offered : i.tranMeta = m
  noErr : s.err.errFrmReq = false
  transmitter : isTransmitter s = true
  plain : s.pc.currState.inPlain = true
  trigger : pcRxTrigger s = true
  noErr_next : (step c s i).err.errFrmReq = false
  transmitter_next : isTransmitter (step c s i) = true

namespace Taking

theorem since (t : Taking c k s i m) : k.since = 0 :=
  t.following.paced.pcRxTrigger_since t.trigger

theorem state (t : Taking c k s i m) :
    (step c s i).pc.currState = nextState c s.pc (pcInput c s i) :=
  step_sample t.trigger t.noErr fun hst => by
    have hq := t.plain
    rcases hst with ⟨hst, -⟩ | ⟨hst, -⟩ <;> rw [hst] at hq <;> cases hq

theorem ctr (t : Taking c k s i m) :
    (step c s i).ctr.ctrlCtrQ =
      if (outState c s.pc (pcInput c s i) s.pc.currState).ctrlCtrPloadI then
        (outState c s.pc (pcInput c s i) s.pc.currState).ctrlCtrPloadVal
      else if (outState c s.pc (pcInput c s i) s.pc.currState).ctrlCtrEna then
        (s.ctr.ctrlCtrQ + 511) % 512
      else s.ctr.ctrlCtrQ :=
  ctr_taken t.noErr t.trigger

theorem halt (t : Taking c k s i m) : s.bst.dataHaltQ = false := by
  obtain ⟨hsam, -⟩ := t.following.taken t.bench t.ena t.since t.noErr t.transmitter t.plain
    t.noErr_next t.transmitter_next
  simpa [hsam.trigger (t.since ▸ t.following.paced)] using t.trigger

/-- The shift register is loaded with the next field. -/
theorem load (t : Taking c k s i m) {w : BitVec 32} {bit : Nat → Bool} {n : Nat}
    (hw : TxShiftReg.pload (outState c s.pc (pcInput c s i) s.pc.currState) (txsInput c s i) = some w)
    (hbit : ∀ j, j ≤ n → w.getLsbD (31 - (n - j)) = bit j) :
    ShiftOut (k.next s i) (step c s i) bit n := by
  refine .of_load t.following t.bench t.since fun j hj => ?_
  have htxs : (step c s i).txs = w := by
    simp [step, TxShiftReg.step, t.trigger, pcOut_noErr t.noErr, hw]
  rw [htxs, hbit j hj]

/-- Within a field the register stands. -/
theorem next_bit (t : Taking c k s i m) {bit : Nat → Bool} {n : Nat} (hs : ShiftOut k s bit (n + 1))
    (hw : TxShiftReg.pload (outState c s.pc (pcInput c s i) s.pc.currState) (txsInput c s i) = none) :
    ShiftOut (k.next s i) (step c s i) bit n := by
  have htx : (txsInput c s i).txTrigger = false := by
    simp [txsInput, pcTxTrigger, (Following.quiet_take t.bench t.since).2]
  refine hs.take_bit t.following t.bench t.since t.halt ?_
  simp [step, TxShiftReg.step, t.trigger, pcOut_noErr t.noErr, hw, htx]

end Taking

/-- The bit a transmitter takes without an error is the current bit of the frame. -/
theorem Sends.taken {bits : List Bool} {e : Bool} (hs : Sends mem k s bits (m.header c e))
    (t : Taking c k s i m) (hesi : s.pc.currState ≠ .esi) :
    s.bds.dataOut = currentBit (m.header c e) mem s.ctr s.pc.currState := by
  obtain ⟨-, heq, hc⟩ := t.following.taken t.bench t.ena t.since t.noErr t.transmitter t.plain
    t.noErr_next t.transmitter_next
  have hc := hc t.halt
  have hq := t.plain
  rw [t.offered] at hc
  rw [heq]
  obtain ⟨hp, -, hfield⟩ := hs
  cases hst : s.pc.currState <;> rw [hst] at hc hp hfield hq hesi <;>
    first
      | exact absurd hq (by decide)
      | exact hc _ rfl
      | exact (hfield rfl).current ⟨.inr t.since, t.halt⟩
      | exact absurd rfl hesi
      | skip
  case brs =>
    have hp : m.frameTypeI c = true := hp
    rw [hc _ rfl]
    simp [currentBit, TranMeta.header, hp]

theorem Sends.single {bits : List Bool} {st : PcState} (hn : s.pc.currState = st)
    (hsh : shifted st = false) (hp : OnPath h s.ctr st) (hb : bits = sentSoFar h mem s.ctr st) :
    Sends mem k s bits h where
  path := by rw [hn]; exact hp
  bits := by rw [hn]; exact hb
  field hs := by
    rw [hn, hsh] at hs
    cases hs

namespace Taking

variable {e : Bool} {bits : List Bool}

/-- SOF is followed by the base identifier. -/
theorem take_sof (t : Taking c k s i m) (hs : Sends mem k s bits (m.header c e))
    (hq : s.pc.currState = .sof) :
    Sends mem (k.next s i) (step c s i) (bits ++ [false]) (m.header c e) := by
  have hn : (step c s i).pc.currState = .baseId := by
    rw [t.state, nextState, pcInput_errFrmReq, t.noErr, hq]
    rfl
  have hctr : (step c s i).ctr.ctrlCtrQ = 10 := by
    rw [t.ctr, hq]
    rfl
  obtain ⟨-, hbits, -⟩ := hs
  rw [hq] at hbits
  refine ⟨?_, ?_, fun _ => ?_⟩ <;> rw [hn]
  · exact hctr.le
  · simp [hbits, sentSoFar, hctr]
  · simp only [fieldLeft, hctr]
    refine t.load (w := m.tranIdentifier.extractLsb' 18 11 ++ 0#21) ?_ fun j hj => ?_
    · rw [hq]
      simp [TxShiftReg.pload, outState, outSof, txsInput, t.offered]
    · have hidx : 31 - (10 - j) = 21 + j := by omega
      rw [hidx, getLsbD_top, fieldBit, TranMeta.header, FrameFormat.ident_base]

/-- Within a field the counter counts the bits left. -/
theorem within (t : Taking c k s i m) {bit : Nat → Bool}
    (hq : s.pc.currState = .baseId ∨ s.pc.currState = .extId ∨ s.pc.currState = .dlc)
    (hctr : s.ctr.ctrlCtrQ < 512) (hz : s.ctr.ctrlCtrQ ≠ 0)
    (hs : ShiftOut k s bit s.ctr.ctrlCtrQ) :
    (step c s i).pc.currState = s.pc.currState ∧
      (step c s i).ctr.ctrlCtrQ + 1 = s.ctr.ctrlCtrQ ∧
      ShiftOut (k.next s i) (step c s i) bit (step c s i).ctr.ctrlCtrQ := by
  have h0 : s.ctr.ctrlCtrZero = false := by simpa [ControlCounter.ctrlCtrZero] using hz
  have hn : (step c s i).pc.currState = s.pc.currState := by
    rw [t.state, nextState, pcInput_errFrmReq, t.noErr]
    rcases hq with hq | hq | hq <;> simp [hq, h0]
  have hc : (step c s i).ctr.ctrlCtrQ = s.ctr.ctrlCtrQ - 1 := by
    have hc := t.ctr
    rcases hq with hq | hq | hq <;> rw [hq] at hc <;>
      simp [outState, outBaseId, outExtId, outDlc, h0] at hc <;> omega
  refine ⟨hn, by omega, ?_⟩
  rw [hc]
  obtain ⟨n, hsucc⟩ := Nat.exists_eq_succ_of_ne_zero hz
  rw [hsucc] at hs ⊢
  refine t.next_bit hs ?_
  rcases hq with hq | hq | hq <;> rw [hq] <;>
    simp [TxShiftReg.pload, outState, outBaseId, outExtId, outDlc, h0]

theorem take_baseId (t : Taking c k s i m) (hs : Sends mem k s bits (m.header c e))
    (hq : s.pc.currState = .baseId) :
    Sends mem (k.next s i) (step c s i)
      (bits ++ [currentBit (m.header c e) mem s.ctr .baseId]) (m.header c e) := by
  obtain ⟨hp, hbits, hfield⟩ := hs
  rw [hq] at hp hbits hfield
  have hp : s.ctr.ctrlCtrQ ≤ 10 := hp
  have hmore : bits ++ [currentBit (m.header c e) mem s.ctr .baseId] =
      false :: (sent ((m.header c e).ident.extractLsb' 18 11)).take (11 - s.ctr.ctrlCtrQ) := by
    rw [hbits, ← take_sent_concat ((m.header c e).ident.extractLsb' 18 11) hp]
    rfl
  rw [hmore]
  by_cases hz : s.ctr.ctrlCtrQ = 0
  · have hn : (step c s i).pc.currState = .rtrSrrR1 := by
      rw [t.state, nextState, pcInput_errFrmReq, t.noErr, hq]
      simp [ControlCounter.ctrlCtrZero, hz]
    refine .single hn rfl trivial ?_
    rw [hz, Nat.sub_zero, take_sent]
    rfl
  · obtain ⟨hn, hc, hout⟩ := t.within (.inl hq) (by omega) hz (hfield rfl)
    have hidx : 11 - s.ctr.ctrlCtrQ = 10 - (step c s i).ctr.ctrlCtrQ := by omega
    refine ⟨?_, ?_, fun _ => ?_⟩ <;> rw [hn, hq]
    · show (step c s i).ctr.ctrlCtrQ ≤ 10
      omega
    · rw [hidx]
      rfl
    · exact hout

theorem take_rtrSrrR1 (t : Taking c k s i m) (hs : Sends mem k s bits (m.header c e))
    (hq : s.pc.currState = .rtrSrrR1) :
    Sends mem (k.next s i) (step c s i)
      (bits ++ [currentBit (m.header c e) mem s.ctr .rtrSrrR1]) (m.header c e) := by
  have hn : (step c s i).pc.currState = .ide := by
    rw [t.state, nextState, pcInput_errFrmReq, t.noErr, hq]
    rfl
  have hbits := hs.bits
  rw [hq] at hbits
  rw [hbits]
  exact .single hn rfl trivial rfl

/-- IDE tells base frames from extended ones. -/
theorem take_ide (t : Taking c k s i m) (hs : Sends mem k s bits (m.header c e))
    (hq : s.pc.currState = .ide) (hb : s.bds.dataOut = m.tranIdentType) :
    Sends mem (k.next s i) (step c s i) (bits ++ [m.tranIdentType]) (m.header c e) := by
  have hn := t.state
  have hctr := t.ctr
  have hbits := hs.bits
  rw [nextState, pcInput_errFrmReq, t.noErr, hq] at hn
  rw [hq] at hctr hbits
  simp only [pcInput_rxDataNbs, outState, outIde, hb, Bool.false_eq_true, if_false] at hn hctr
  rw [hbits]
  cases hid : m.tranIdentType
  · rw [hid] at hn
    refine .single hn rfl hid ?_
    simp [sentSoFar, Header.identBits, TranMeta.header, hid]
  · rw [hid] at hn hctr
    have hn : (step c s i).pc.currState = .extId := hn
    have hctr : (step c s i).ctr.ctrlCtrQ = 17 := hctr
    refine ⟨?_, ?_, fun _ => ?_⟩ <;> rw [hn]
    · exact ⟨hid, hctr.le⟩
    · simp [sentSoFar, hctr, TranMeta.header, hid]
    · simp only [fieldLeft, hctr]
      refine t.load (w := m.tranIdentifier.extractLsb' 0 18 ++ 0#14) ?_ fun j hj => ?_
      · rw [hq]
        simp [TxShiftReg.pload, outState, outIde, txsInput, t.offered, hb, hid]
      · have hidx : 31 - (17 - j) = 14 + j := by omega
        rw [hidx, getLsbD_top, fieldBit, TranMeta.header, FrameFormat.ident_ext, if_pos hid]

theorem take_extId (t : Taking c k s i m) (hs : Sends mem k s bits (m.header c e))
    (hq : s.pc.currState = .extId) :
    Sends mem (k.next s i) (step c s i)
      (bits ++ [currentBit (m.header c e) mem s.ctr .extId]) (m.header c e) := by
  obtain ⟨hp, hbits, hfield⟩ := hs
  rw [hq] at hp hbits hfield
  obtain ⟨hid, hp⟩ : (m.header c e).identType = true ∧ s.ctr.ctrlCtrQ ≤ 17 := hp
  have hmore : bits ++ [currentBit (m.header c e) mem s.ctr .extId] = (m.header c e).baseBits ++
      true :: true :: (sent ((m.header c e).ident.extractLsb' 0 18)).take (18 - s.ctr.ctrlCtrQ) := by
    rw [hbits, ← take_sent_concat ((m.header c e).ident.extractLsb' 0 18) hp, sentSoFar,
      List.append_assoc]
    rfl
  rw [hmore]
  by_cases hz : s.ctr.ctrlCtrQ = 0
  · have hn : (step c s i).pc.currState = .rtrR1 := by
      rw [t.state, nextState, pcInput_errFrmReq, t.noErr, hq]
      simp [ControlCounter.ctrlCtrZero, hz]
    refine .single hn rfl hid ?_
    rw [hz, Nat.sub_zero, take_sent]
    rfl
  · obtain ⟨hn, hc, hout⟩ := t.within (.inr (.inl hq)) (by omega) hz (hfield rfl)
    have hidx : 18 - s.ctr.ctrlCtrQ = 17 - (step c s i).ctr.ctrlCtrQ := by omega
    refine ⟨?_, ?_, fun _ => ?_⟩ <;> rw [hn, hq]
    · exact ⟨hid, by omega⟩
    · rw [hidx]
      rfl
    · exact hout

theorem take_rtrR1 (t : Taking c k s i m) (hs : Sends mem k s bits (m.header c e))
    (hq : s.pc.currState = .rtrR1) :
    Sends mem (k.next s i) (step c s i)
      (bits ++ [currentBit (m.header c e) mem s.ctr .rtrR1]) (m.header c e) := by
  have hn : (step c s i).pc.currState = .edlR1 := by
    rw [t.state, nextState, pcInput_errFrmReq, t.noErr, hq]
    rfl
  obtain ⟨hp, hbits, -⟩ := hs
  rw [hq] at hp hbits
  have hid : (m.header c e).identType = true := hp
  rw [hbits]
  refine .single hn rfl hid ?_
  simp [sentSoFar, Header.identBits, hid, currentBit]

/-- The DLC is loaded. -/
theorem enter_dlc (t : Taking c k s i m)
    (hq : s.pc.currState = .edlR0 ∧ s.bds.dataOut = false ∨ s.pc.currState = .r0Ext ∨
      s.pc.currState = .esi)
    (hb : bits = (m.header c e).controlBits) :
    Sends mem (k.next s i) (step c s i) bits (m.header c e) := by
  have hn : (step c s i).pc.currState = .dlc := by
    rw [t.state, nextState, pcInput_errFrmReq, t.noErr, pcInput_rxDataNbs]
    rcases hq with ⟨hq, hr⟩ | hq | hq <;> simp [*]
  have hctr : (step c s i).ctr.ctrlCtrQ = 3 := by
    rw [t.ctr]
    rcases hq with ⟨hq, hr⟩ | hq | hq <;> simp [outState, outEdlR0, outR0Ext, outEsi, *]
  refine ⟨?_, ?_, fun _ => ?_⟩ <;> rw [hn]
  · exact hctr.le
  · simp [hb, sentSoFar, hctr]
  · simp only [fieldLeft, hctr]
    refine t.load (w := m.tranDlc ++ 0#28) ?_ fun j hj => ?_
    · rcases hq with ⟨hq, hr⟩ | hq | hq <;>
        simp [outState, outEdlR0, outR0Ext, outEsi, TxShiftReg.pload, TxShiftReg.tranDlcSwapped,
          txsInput, t.offered, t.tstm, *]
    · have hidx : 31 - (3 - j) = 28 + j := by omega
      rw [hidx, getLsbD_top]
      rfl

/-- A CAN FD frame goes on with its reserved bit. A transmitter in FD mode takes no protocol
exception there. -/
theorem enter_r0Fd (t : Taking c k s i m)
    (hq : s.pc.currState = .edlR1 ∨ s.pc.currState = .edlR0) (hb : s.bds.dataOut = true)
    (hfd : m.frameTypeI c = true) (hbits : bits = (m.header c e).identBits) :
    Sends mem (k.next s i) (step c s i) (bits ++ [true]) (m.header c e) := by
  have hpex : pexOnFdfEnable c = false := by
    simp only [TranMeta.frameTypeI, Bool.and_eq_true] at hfd
    simp [pexOnFdfEnable, hfd.2]
  have hn : (step c s i).pc.currState = .r0Fd := by
    rw [t.state, nextState, pcInput_errFrmReq, t.noErr, pcInput_rxDataNbs, hb]
    rcases hq with hq | hq <;> simp [hq, hpex]
  exact .single hn rfl hfd (by rw [hbits]; rfl)

theorem take_edlR1 (t : Taking c k s i m) (hs : Sends mem k s bits (m.header c e))
    (hq : s.pc.currState = .edlR1) (hb : s.bds.dataOut = m.frameTypeI c) :
    Sends mem (k.next s i) (step c s i) (bits ++ [m.frameTypeI c]) (m.header c e) := by
  obtain ⟨hp, hbits, -⟩ := hs
  rw [hq] at hp hbits
  cases hfd : m.frameTypeI c
  · have hn : (step c s i).pc.currState = .r0Ext := by
      rw [t.state, nextState, pcInput_errFrmReq, t.noErr, pcInput_rxDataNbs, hq, hb, hfd]
      rfl
    exact .single hn rfl ⟨hp, hfd⟩ (by rw [hbits]; rfl)
  · exact t.enter_r0Fd (.inl hq) (hb.trans hfd) hfd hbits

theorem take_edlR0 (t : Taking c k s i m) (hs : Sends mem k s bits (m.header c e))
    (hq : s.pc.currState = .edlR0) (hb : s.bds.dataOut = m.frameTypeI c) :
    Sends mem (k.next s i) (step c s i) (bits ++ [m.frameTypeI c]) (m.header c e) := by
  obtain ⟨hp, hbits, -⟩ := hs
  rw [hq] at hp hbits
  have hid : m.tranIdentType = false := hp
  cases hfd : m.frameTypeI c
  · refine t.enter_dlc (.inl ⟨hq, hb.trans hfd⟩) ?_
    simp [hbits, sentSoFar, Header.controlBits, TranMeta.header, hid, hfd]
  · exact t.enter_r0Fd (.inr hq) (hb.trans hfd) hfd hbits

theorem take_r0Ext (t : Taking c k s i m) (hs : Sends mem k s bits (m.header c e))
    (hq : s.pc.currState = .r0Ext) :
    Sends mem (k.next s i) (step c s i) (bits ++ [false]) (m.header c e) := by
  obtain ⟨hp, hbits, -⟩ := hs
  rw [hq] at hp hbits
  refine t.enter_dlc (.inr (.inl hq)) ?_
  simp [hbits, sentSoFar, Header.controlBits, hp.1, hp.2]

theorem take_r0Fd (t : Taking c k s i m) (hs : Sends mem k s bits (m.header c e))
    (hq : s.pc.currState = .r0Fd) (hb : s.bds.dataOut = false) :
    Sends mem (k.next s i) (step c s i) (bits ++ [false]) (m.header c e) := by
  obtain ⟨hp, hbits, -⟩ := hs
  rw [hq] at hp hbits
  have hn : (step c s i).pc.currState = .brs := by
    rw [t.state, nextState, pcInput_errFrmReq, t.noErr, pcInput_rxDataNbs, hq, hb]
    rfl
  exact .single hn rfl hp (by simp [hbits, sentSoFar])

theorem take_brs (t : Taking c k s i m) (hs : Sends mem k s bits (m.header c e))
    (hq : s.pc.currState = .brs) :
    Sends mem (k.next s i) (step c s i)
      (bits ++ [currentBit (m.header c e) mem s.ctr .brs]) (m.header c e) := by
  obtain ⟨hp, hbits, -⟩ := hs
  rw [hq] at hp hbits
  have hn : (step c s i).pc.currState = .esi := by
    rw [t.state, nextState, pcInput_errFrmReq, t.noErr, hq]
    rfl
  exact .single hn rfl hp (by simp [hbits, sentSoFar, currentBit])

/-- The ESI bit is what it is. -/
theorem take_esi (t : Taking c k s i m) (hs : Sends mem k s bits (m.header c e))
    (hq : s.pc.currState = .esi) (b : Bool) :
    Sends mem (k.next s i) (step c s i) (bits ++ [b]) (m.header c b) := by
  obtain ⟨hp, hbits, -⟩ := hs
  rw [hq] at hp hbits
  have hfd : m.frameTypeI c = true := hp
  refine t.enter_dlc (.inr (.inr hq)) ?_
  simp [hbits, sentSoFar, Header.controlBits, Header.identBits, Header.baseBits, TranMeta.header, hfd]

/-- Data bits of the frame. -/
theorem dataLength_header (t : Taking c k s i m) :
    (m.header c e).dataLength =
      if noDataField c (pcInput c s i) then 0 else dataLengthC c (pcInput c s i) := by
  have hx : (pcInput c s i).isTransmitter = true := t.transmitter
  have hr : (pcInput c s i).isReceiver = false := by
    have := t.transmitter
    simp only [isTransmitter, beq_iff_eq] at this
    simp [isReceiver, this]
  have hno : noDataField c (pcInput c s i) =
      (m.tranDlc == 0 || (m.tranIsRtr && !m.frameTypeI c)) := by
    rw [noDataField, hx, hr, ← t.offered]
    simp [noDataTransmitter, tranFrameTypeI, TranMeta.frameTypeI, pcInput]
  have hlen : dataLengthC c (pcInput c s i) = dlcDecoder m.tranDlc (m.frameTypeI c) := by
    rw [dataLengthC, if_pos hx, ← t.offered]
    rfl
  rw [hno, hlen, Header.dataLength]
  show (if (m.tranIsRtr && !m.frameTypeI c) = true then 0 else dlcDecoder m.tranDlc (m.frameTypeI c)) = _
  cases hrtr : m.tranIsRtr && !m.frameTypeI c
  · cases h0 : m.tranDlc == 0
    · simp
    · have h0 : m.tranDlc = 0 := by simpa using h0
      have hz := (dlcDecoder_zero m.tranDlc (m.frameTypeI c)).mpr h0
      simp [hz]
  · simp

theorem take_dlc (t : Taking c k s i m) (hs : Sends mem k s bits (m.header c e))
    (hq : s.pc.currState = .dlc)
    (hword : s.ctr.ctrlCtrQ = 0 → (m.header c e).dataLength ≠ 0 → i.tranWord = mem 4) :
    ((step c s i).pc.currState.inPlain = true → Sends mem (k.next s i) (step c s i)
      (bits ++ [currentBit (m.header c e) mem s.ctr .dlc]) (m.header c e)) ∧
    ((step c s i).pc.currState.inPlain = false →
      bits ++ [currentBit (m.header c e) mem s.ctr .dlc] = frameBits mem (m.header c e)) := by
  obtain ⟨hp, hbits, hfield⟩ := hs
  rw [hq] at hp hbits hfield
  have hp : s.ctr.ctrlCtrQ ≤ 3 := hp
  have hmore : bits ++ [currentBit (m.header c e) mem s.ctr .dlc] = (m.header c e).controlBits ++
      (sent (m.header c e).dlc).take (4 - s.ctr.ctrlCtrQ) := by
    rw [hbits, ← take_sent_concat (m.header c e).dlc hp, sentSoFar, List.append_assoc]
    rfl
  rw [hmore]
  by_cases hz : s.ctr.ctrlCtrQ = 0
  · have h0 : s.ctr.ctrlCtrZero = true := by simp [ControlCounter.ctrlCtrZero, hz]
    have hend := CanCore.dlc_end (c := c) (i := i) t.noErr hq h0 t.trigger
    have hlen := t.dataLength_header (e := e)
    rw [hz, Nat.sub_zero, take_sent]
    cases hno : noDataField c (pcInput c s i)
    · rw [hno] at hend hlen
      obtain ⟨hn, hctr⟩ : (step c s i).pc.currState = .data ∧
        (step c s i).ctr = ⟨dataLengthBitsC c (pcInput c s i), 0⟩ := hend
      have hlen : (m.header c e).dataLength = dataLengthC c (pcInput c s i) := hlen
      have hpos : dataLengthC c (pcInput c s i) ≠ 0 :=
        (length_takesPart hno (by rw [t.transmitter]; rfl)).2
      have hle := dataLengthC_le (c := c) (i := pcInput c s i)
      refine ⟨fun _ => ⟨?_, ?_, fun _ => ?_⟩, fun hp => ?_⟩
      · rw [hn, hctr]
        simp only [OnPath, hlen, dataLengthBitsC]
        omega
      · simp [hn, hctr, sentSoFar, Header.sentBits]
      · rw [hn, hctr]
        refine t.load (w := TxShiftReg.tranWordSwapped (mem 4)) ?_ fun j hj => ?_
        · rw [hq]
          simp [TxShiftReg.pload, outState, outDlc, h0, hno, txsInput,
            hword hz (by rw [hlen]; exact hpos)]
        · have hj : j ≤ 31 := hj
          have hidx : 31 - (31 - j) = j := by omega
          simp [fieldLeft, fieldBit, hidx]
      · rw [hn] at hp
        cases hp
    · rw [hno] at hend hlen
      have hlen : (m.header c e).dataLength = 0 := hlen
      refine ⟨fun hp => ?_, fun _ => ?_⟩
      · have hn := t.state
        rw [nextState, pcInput_errFrmReq, t.noErr, hq] at hn
        simp only [pcInput_ctrlCtrZero, h0, hno, Bool.false_eq_true, if_false, if_true] at hn
        rw [hn] at hp
        split at hp <;> cases hp
      · simp [frameBits, dataBits, hlen, Header.sentBits]
  · obtain ⟨hn, hc, hout⟩ := t.within (.inr (.inr hq)) (by omega) hz (hfield rfl)
    have hidx : 4 - s.ctr.ctrlCtrQ = 3 - (step c s i).ctr.ctrlCtrQ := by omega
    refine ⟨fun _ => ⟨?_, ?_, fun _ => ?_⟩, fun hno => ?_⟩
    · rw [hn, hq]
      show (step c s i).ctr.ctrlCtrQ ≤ 3
      omega
    · rw [hn, hq, hidx]
      rfl
    · rw [hn, hq]
      exact hout
    · rw [hn, hq] at hno
      cases hno

/-- The last bit of a word loads the next word. -/
theorem take_data (t : Taking c k s i m) (hs : Sends mem k s bits (m.header c e))
    (hq : s.pc.currState = .data)
    (hword : s.ctr.complCtrQ % 32 = 31 → s.ctr.ctrlCtrQ ≠ 0 →
      i.tranWord = mem (4 + (s.ctr.complCtrQ + 1) / 32)) :
    ((step c s i).pc.currState.inPlain = true → Sends mem (k.next s i) (step c s i)
      (bits ++ [currentBit (m.header c e) mem s.ctr .data]) (m.header c e)) ∧
    ((step c s i).pc.currState.inPlain = false →
      bits ++ [currentBit (m.header c e) mem s.ctr .data] = frameBits mem (m.header c e)) := by
  obtain ⟨hp, hbits, hfield⟩ := hs
  rw [hq] at hp hbits hfield
  have hp : s.ctr.ctrlCtrQ + s.ctr.complCtrQ + 1 = 8 * (m.header c e).dataLength := hp
  have hle := dataLength_le (m.header c e)
  have hcur : currentBit (m.header c e) mem s.ctr .data = dataBit mem s.ctr.complCtrQ := by
    show (TxShiftReg.tranWordSwapped (mem (4 + s.ctr.complCtrQ / 32))).getLsbD
      (31 - s.ctr.complCtrQ % 32) = _
    rw [tranWordSwapped_bit _ (by omega), dataBit]
    congr 1
    omega
  have hmore : bits ++ [currentBit (m.header c e) mem s.ctr .data] = (m.header c e).sentBits ++
      (List.range (s.ctr.complCtrQ + 1)).map (dataBit mem) := by
    rw [hbits, hcur, sentSoFar, List.range_succ, List.map_append, List.append_assoc]
    rfl
  rw [hmore]
  have hstep := data_step (c := c) (i := i) t.noErr hq (by omega)
  rw [if_pos t.trigger] at hstep
  by_cases hz : s.ctr.ctrlCtrQ = 0
  · have h0 : s.ctr.ctrlCtrZero = true := by simp [ControlCounter.ctrlCtrZero, hz]
    refine ⟨fun hp => ?_, fun _ => ?_⟩
    · have hn := t.state
      rw [nextState, pcInput_errFrmReq, t.noErr, hq] at hn
      simp only [pcInput_ctrlCtrZero, h0, Bool.false_eq_true, if_false, if_true] at hn
      rw [hn] at hp
      split at hp <;> cases hp
    · have hlen : s.ctr.complCtrQ + 1 = 8 * (m.header c e).dataLength := by omega
      rw [hlen]
      rfl
  · have h0 : s.ctr.ctrlCtrZero = false := by simpa [ControlCounter.ctrlCtrZero] using hz
    rw [h0] at hstep
    obtain ⟨hn, hctr⟩ : (step c s i).pc.currState = .data ∧
      (step c s i).ctr = ⟨s.ctr.ctrlCtrQ - 1, s.ctr.complCtrQ + 1⟩ := hstep
    refine ⟨fun _ => ⟨?_, ?_, fun _ => ?_⟩, fun hp => ?_⟩
    · rw [hn, hctr]
      show s.ctr.ctrlCtrQ - 1 + (s.ctr.complCtrQ + 1) + 1 = 8 * (m.header c e).dataLength
      omega
    · rw [hn, hctr]
      rfl
    · rw [hn, hctr]
      show ShiftOut _ _
        (TxShiftReg.tranWordSwapped (mem (4 + (s.ctr.complCtrQ + 1) / 32))).getLsbD
        (31 - (s.ctr.complCtrQ + 1) % 32)
      by_cases h31 : s.ctr.complCtrQ % 32 = 31
      · refine t.load (w := TxShiftReg.tranWordSwapped i.tranWord) ?_ fun j hj => ?_
        · have hbyte : (pcInput c s i).ctrlCountedByte = true := by
            simp [pcInput, ControlCounter.ctrlCountedByte]
            omega
          have hidx : (pcInput c s i).ctrlCountedByteIndex = 3 := by
            simp only [pcInput, ControlCounter.ctrlCountedByteIndex]
            omega
          rw [hq]
          simp [TxShiftReg.pload, outState, outData, h0, hbyte, hidx, txsInput]
        · have hidx : 31 - (31 - (s.ctr.complCtrQ + 1) % 32 - j) = j := by omega
          rw [hidx, hword h31 hz]
      · have hsame : (s.ctr.complCtrQ + 1) / 32 = s.ctr.complCtrQ / 32 := by omega
        have hleft : 31 - s.ctr.complCtrQ % 32 = 31 - (s.ctr.complCtrQ + 1) % 32 + 1 := by omega
        have hfield := hfield rfl
        rw [fieldLeft, hleft] at hfield
        rw [hsame]
        refine t.next_bit hfield ?_
        have hcount : ((pcInput c s i).ctrlCountedByte &&
            (pcInput c s i).ctrlCountedByteIndex == 3) = false := by
          simp only [pcInput, ControlCounter.ctrlCountedByte, ControlCounter.ctrlCountedByteIndex]
          by_contra hcon
          simp at hcon
          omega
        rw [hq]
        simp [TxShiftReg.pload, outState, outData, h0, hcount]
    · rw [hn] at hp
      cases hp

end Taking

/-! ## The next data word -/

/-- The word at address `a` is fetched: protocol control addresses it, the buffer is clocked one
cycle later, and then `word` is on its output until another word is addressed. -/
inductive Fetching (mem : Nat → BitVec 32) (a : Nat) (k : Clock) (s : State) (word : BitVec 32) :
    Prop where
  | entered (since : k.since = 1) (ptr : s.pc.txtbPtrQ ≠ a)
  | addressed (since : k.since = 2) (ptr : s.pc.txtbPtrQ = a) (clkEn : s.pc.txtbClkEnQ = true)
  | ready (ptr : s.pc.txtbPtrQ = a) (clkEn : s.pc.txtbClkEnQ = false) (word : word = mem a)

/-- The buffer reads the word addressed when its clock is enabled, and does not change its output
otherwise unless it reads in every cycle. -/
def Reads (mem : Nat → BitVec 32) (s : State) (word word' : BitVec 32) : Prop :=
  word' = mem s.pc.txtbPtrQ ∨ (s.pc.txtbClkEnQ = false ∧ word' = word)

/-- Output of a buffer with a gated clock. -/
def nextWord (mem : Nat → BitVec 32) (s : State) (word : BitVec 32) : BitVec 32 :=
  if s.pc.txtbClkEnQ then mem s.pc.txtbPtrQ else word

theorem reads_nextWord (mem : Nat → BitVec 32) (s : State) (word : BitVec 32) :
    Reads mem s word (nextWord mem s word) := by
  cases h : s.pc.txtbClkEnQ
  · exact .inr ⟨h, by simp [nextWord, h]⟩
  · exact .inl (by simp [nextWord, h])

theorem txtbClkEnD_iff : txtbClkEnD c s.pc (pcInput c s i) = true ↔
    s.pc.txtbPtrQ ≠ (pcOut c s i).txtbPtrD ∧
      (pcOut c s i).txtbPtrD ≤ txtbNumWordsGate (tranDataLength c (pcInput c s i)) := by
  simp [txtbClkEnD, pcOut]

theorem txtbPtrQ_step : (step c s i).pc.txtbPtrQ =
    if s.pc.txtbPtrQ ≠ (pcOut c s i).txtbPtrD ∧
        (pcOut c s i).txtbPtrD ≤ txtbNumWordsGate (tranDataLength c (pcInput c s i)) then
      (pcOut c s i).txtbPtrD
    else s.pc.txtbPtrQ :=
  if_congr txtbClkEnD_iff rfl rfl

theorem txtbClkEnQ_step : (step c s i).pc.txtbClkEnQ = true ↔
    s.pc.txtbPtrQ ≠ (pcOut c s i).txtbPtrD ∧
      (pcOut c s i).txtbPtrD ≤ txtbNumWordsGate (tranDataLength c (pcInput c s i)) :=
  txtbClkEnD_iff

namespace Fetching

variable {a : Nat} {word word' : BitVec 32}

/-- In the cycle that takes a bit the word is there. -/
theorem arrived (hf : Fetching mem a k s word) (h0 : k.since = 0) : word = mem a := by
  cases hf with
  | entered since => omega
  | addressed since => omega
  | ready _ _ hw => exact hw

theorem next (hf : Fetching mem a k s word) (hok : Bench k s i) (hptr : (pcOut c s i).txtbPtrD = a)
    (hgate : a ≤ txtbNumWordsGate (tranDataLength c (pcInput c s i)))
    (hr : Reads mem s word word') : Fetching mem a (k.next s i) (step c s i) word' := by
  have hp := txtbPtrQ_step (c := c) (s := s) (i := i)
  have he := txtbClkEnQ_step (c := c) (s := s) (i := i)
  rw [hptr] at hp he
  cases hf with
  | entered since ptr =>
    have hrx : i.rxTrigReq = false := by
      by_contra hrx
      have := (hok.sample (by simpa using hrx)).2
      omega
    rw [if_pos ⟨ptr, hgate⟩] at hp
    exact .addressed (by simp [Clock.next, sinceSample, hrx, since]) hp (he.mpr ⟨ptr, hgate⟩)
  | addressed since ptr clkEn =>
    refine .ready (by simpa [ptr] using hp) (by simpa [ptr] using he) ?_
    rcases hr with hr | ⟨hr, -⟩
    · rw [hr, ptr]
    · exact absurd (hr.symm.trans clkEn) (by decide)
  | ready ptr clkEn hw =>
    refine .ready (by simpa [ptr] using hp) (by simpa [ptr] using he) ?_
    rcases hr with hr | ⟨-, hr⟩
    · rw [hr, ptr]
    · rw [hr, hw]

/-- With the bit that is taken another word is addressed. -/
theorem move (hf : Fetching mem a k s word) (h0 : k.since = 0) (h1 : (k.next s i).since = 1)
    (hptr : (pcOut c s i).txtbPtrD = a) (b : Nat) (hb : a ≠ b) :
    Fetching mem b (k.next s i) (step c s i) word' := by
  have hp := txtbPtrQ_step (c := c) (s := s) (i := i)
  rw [hptr] at hp
  cases hf with
  | entered since => omega
  | addressed since => omega
  | ready ptr => exact .entered h1 (by rw [hp]; simpa [ptr] using hb)

end Fetching

/-- Outside DLC and data field no word is addressed. -/
theorem txtbPtrQ_zero (hd : s.pc.currState ≠ .dlc) (hw : s.pc.currState ≠ .data) :
    (step c s i).pc.txtbPtrQ = 0 := by
  have hp : (pcOut c s i).txtbPtrD = 0 := out_txtbPtrD hd hw
  rw [txtbPtrQ_step, hp]
  by_cases h0 : s.pc.txtbPtrQ = 0 <;> simp [h0]

theorem txtbNumWordsGate_covers (dlc : BitVec 4) (fd : Bool) (n : Nat)
    (hn : 4 * n < dlcDecoder dlc fd) : 4 + n ≤ txtbNumWordsGate (dlcDecoder dlc fd) := by
  have hall : ∀ dlc : BitVec 4, ∀ fd : Bool, ∀ n < 16, 4 * n < dlcDecoder dlc fd →
      4 + n ≤ txtbNumWordsGate (dlcDecoder dlc fd) := by decide +kernel
  have hle := dlcDecoder_le dlc fd
  exact hall dlc fd n (by omega) hn

/-- The words of the data field are fetched one ahead of the word that is sent. -/
structure Fetches (mem : Nat → BitVec 32) (k : Clock) (s : State) (word : BitVec 32) (len : Nat) :
    Prop where
  dlc : s.pc.currState = .dlc → len ≠ 0 → Fetching mem 4 k s word
  data : s.pc.currState = .data → 4 * (s.ctr.complCtrQ / 32 + 1) < len →
    Fetching mem (4 + (s.ctr.complCtrQ / 32 + 1)) k s word

theorem dataLength_covers {e : Bool} {n : Nat} (hm : i.tranMeta = m)
    (hn : 4 * n < (m.header c e).dataLength) :
    4 + n ≤ txtbNumWordsGate (tranDataLength c (pcInput c s i)) := by
  have hlen : tranDataLength c (pcInput c s i) = dlcDecoder m.tranDlc (m.frameTypeI c) := by
    rw [← hm]
    rfl
  rw [hlen]
  refine txtbNumWordsGate_covers _ _ n (Nat.lt_of_lt_of_le hn ?_)
  rw [Header.dataLength]
  split
  · omega
  · exact Nat.le_refl _

theorem txtbPtrD_dlc (he : s.err.errFrmReq = false) (hx : isTransmitter s = true)
    (hq : s.pc.currState = .dlc) : (pcOut c s i).txtbPtrD = 4 := by
  rw [pcOut_noErr he, hq]
  simp [outState, outDlc, hx]

/-- The word after the one that is sent is addressed, as long as the frame has one. -/
theorem txtbPtrD_data (he : s.err.errFrmReq = false) (hx : isTransmitter s = true)
    (hq : s.pc.currState = .data) (hn : s.ctr.complCtrQ / 32 + 1 < 16) :
    (pcOut c s i).txtbPtrD = 4 + (s.ctr.complCtrQ / 32 + 1) := by
  have hidx : (pcInput c s i).ctrlCtrMemIndex = 4 + (s.ctr.complCtrQ / 32 + 1) := by
    simp only [pcInput, ControlCounter.ctrlCtrMemIndex]
    split <;> omega
  rw [pcOut_noErr he, hq]
  simp [outState, outData, hx, hidx]

theorem Fetches.next_dlc {e : Bool} {word word' : BitVec 32}
    (h : Fetches mem k s word (m.header c e).dataLength) (hf : Following c k s) (hok : Bench k s i)
    (hm : i.tranMeta = m) (he : s.err.errFrmReq = false) (hx : isTransmitter s = true)
    (hq' : (step c s i).pc.currState = .dlc) (hlen : (m.header c e).dataLength ≠ 0)
    (hr : s.pc.currState = .dlc → Reads mem s word word') :
    Fetching mem 4 (k.next s i) (step c s i) word' := by
  by_cases hd : s.pc.currState = .dlc
  · exact (h.dlc hd hlen).next hok (txtbPtrD_dlc he hx hd)
      (dataLength_covers (e := e) (n := 0) hm (by omega)) (hr hd)
  · have hedge : ∀ st : PcState, .dlc ∈ st.successors → st ≠ .data := by decide
    obtain ⟨ht, hs⟩ := (state_flow (c := c) (i := i) he).resolve_left
      fun hs => hd (hs.symm.trans hq')
    rw [hq'] at hs
    have h0 := hf.paced.pcRxTrigger_since ht
    exact .entered (hf.next_take hok h0).1 (by rw [txtbPtrQ_zero hd (hedge _ hs)]; decide)

theorem Fetches.next_data {e : Bool} {word word' : BitVec 32} {bits : List Bool}
    (h : Fetches mem k s word (m.header c e).dataLength) (hs : Sends mem k s bits (m.header c e))
    (hf : Following c k s) (hok : Bench k s i) (hm : i.tranMeta = m)
    (he : s.err.errFrmReq = false) (hx : isTransmitter s = true)
    (hq' : (step c s i).pc.currState = .data)
    (hlen : 4 * ((step c s i).ctr.complCtrQ / 32 + 1) < (m.header c e).dataLength)
    (hr : s.pc.currState = .data → Reads mem s word word') :
    Fetching mem (4 + ((step c s i).ctr.complCtrQ / 32 + 1)) (k.next s i) (step c s i) word' := by
  have hle := dataLength_le (m.header c e)
  by_cases hd : s.pc.currState = .data
  · have hp := hs.path
    rw [hd] at hp
    have hp : s.ctr.ctrlCtrQ + s.ctr.complCtrQ + 1 = 8 * (m.header c e).dataLength := hp
    have hstep := data_step (c := c) (i := i) he hd (by omega)
    cases ht : pcRxTrigger s
    · rw [ht] at hstep
      obtain ⟨-, hctr⟩ : _ ∧ (step c s i).ctr = s.ctr := hstep
      rw [hctr] at hlen ⊢
      exact (h.data hd hlen).next hok (txtbPtrD_data he hx hd (by omega))
        (dataLength_covers hm hlen) (hr hd)
    · have h0 := hf.paced.pcRxTrigger_since ht
      have hz : s.ctr.ctrlCtrZero = false := by
        by_contra hz
        rw [if_pos ht, if_pos (by simpa using hz)] at hstep
        exact hstep hq'
      rw [if_pos ht, if_neg (by simp [hz])] at hstep
      rw [hstep.2] at hlen ⊢
      simp only at hlen ⊢
      have hbefore := h.data hd (by omega)
      have hptr := txtbPtrD_data (c := c) (i := i) he hx hd (by omega)
      by_cases h31 : s.ctr.complCtrQ % 32 = 31
      · exact hbefore.move h0 (hf.next_take hok h0).1 hptr _ (by omega)
      · have hsame : (s.ctr.complCtrQ + 1) / 32 = s.ctr.complCtrQ / 32 := by omega
        rw [hsame] at hlen ⊢
        exact hbefore.next hok hptr (dataLength_covers hm hlen) (hr hd)
  · have hedge : ∀ st : PcState, .data ∈ st.successors → st = .dlc := by decide
    obtain ⟨ht, hsucc⟩ := (state_flow (c := c) (i := i) he).resolve_left
      fun hs => hd (hs.symm.trans hq')
    rw [hq'] at hsucc
    have hdlc := hedge _ hsucc
    have h0 := hf.paced.pcRxTrigger_since ht
    have hz : s.ctr.ctrlCtrZero = true := by
      by_contra hz
      have hstay := step_counted (c := c) (q := s.pc) (i := pcInput c s i) (.inl hdlc)
        (by simpa using hz) he
      exact hd (hstay.symm.trans hq')
    have hend := CanCore.dlc_end (c := c) (i := i) he hdlc hz ht
    have hctr : (step c s i).ctr.complCtrQ = 0 := by
      split at hend
      · exact absurd hq' hend
      · rw [hend.2]
    rw [hctr] at hlen ⊢
    exact (h.dlc hdlc (by omega)).move h0 (hf.next_take hok h0).1 (txtbPtrD_dlc he hx hdlc) _
      (by decide)

/-! ## Bit by bit through the frame -/

/-- The words the shift register is loaded with are those of the buffer. -/
structure Loads (mem : Nat → BitVec 32) (s : State) (i : Input) (h : Header) : Prop where
  dlc : s.pc.currState = .dlc → h.dataLength ≠ 0 → i.tranWord = mem 4
  data : s.pc.currState = .data → s.ctr.complCtrQ % 32 = 31 → s.ctr.ctrlCtrQ ≠ 0 →
    i.tranWord = mem (4 + (s.ctr.complCtrQ + 1) / 32)

theorem Fetches.loads {e : Bool} {bits : List Bool}
    (h : Fetches mem k s i.tranWord (m.header c e).dataLength)
    (hs : Sends mem k s bits (m.header c e)) (h0 : k.since = 0) : Loads mem s i (m.header c e) where
  dlc hq hlen := (h.dlc hq hlen).arrived h0
  data hq h31 hz := by
    have hp := hs.path
    rw [hq] at hp
    have hp : s.ctr.ctrlCtrQ + s.ctr.complCtrQ + 1 = 8 * (m.header c e).dataLength := hp
    have hnext : (s.ctr.complCtrQ + 1) / 32 = s.ctr.complCtrQ / 32 + 1 := by omega
    rw [hnext]
    exact (h.data hq (by omega)).arrived h0

theorem Taking.take {e : Bool} {bits : List Bool} (t : Taking c k s i m)
    (hs : Sends mem k s bits (m.header c e)) (hl : Loads mem s i (m.header c e))
    (h' : (step c s i).pc.currState.inPlain = true) :
    ∃ e', Sends mem (k.next s i) (step c s i) (bits ++ [s.bds.dataOut]) (m.header c e') := by
  by_cases hesi : s.pc.currState = .esi
  · exact ⟨_, t.take_esi hs hesi s.bds.dataOut⟩
  refine ⟨e, ?_⟩
  have hb := hs.taken t hesi
  have hq := t.plain
  cases hst : s.pc.currState <;> rw [hst] at hq hb hesi <;>
    first | exact absurd hq (by decide) | exact absurd rfl hesi | skip
  case sof => exact hb ▸ t.take_sof hs hst
  case baseId => exact hb ▸ t.take_baseId hs hst
  case rtrSrrR1 => exact hb ▸ t.take_rtrSrrR1 hs hst
  case ide => exact hb ▸ t.take_ide hs hst hb
  case extId => exact hb ▸ t.take_extId hs hst
  case rtrR1 => exact hb ▸ t.take_rtrR1 hs hst
  case edlR1 => exact hb ▸ t.take_edlR1 hs hst hb
  case r0Ext => exact hb ▸ t.take_r0Ext hs hst
  case r0Fd => exact hb ▸ t.take_r0Fd hs hst hb
  case edlR0 => exact hb ▸ t.take_edlR0 hs hst hb
  case brs => exact hb ▸ t.take_brs hs hst
  case dlc => exact hb ▸ (t.take_dlc hs hst fun _ => hl.dlc hst).1 h'
  case data => exact hb ▸ (t.take_data hs hst (hl.data hst)).1 h'

/-- The last bit of the DLC or of the data field completes the frame. -/
theorem Taking.complete {e : Bool} {bits : List Bool} (t : Taking c k s i m)
    (hs : Sends mem k s bits (m.header c e)) (hl : Loads mem s i (m.header c e))
    (hq : s.pc.currState = .dlc ∨ s.pc.currState = .data)
    (h' : (step c s i).pc.currState.inPlain = false) :
    bits ++ [s.bds.dataOut] = frameBits mem (m.header c e) := by
  have hb := hs.taken t (by rcases hq with hq | hq <;> rw [hq] <;> decide)
  rcases hq with hq | hq <;> rw [hb, hq]
  · exact (t.take_dlc hs hq fun _ => hl.dlc hq).2 h'
  · exact (t.take_data hs hq (hl.data hq)).2 h'

/-- A transmission starts with SOF, or with a dominant bit of another node in its place. Then the
identifier is loaded in the cycle in which it starts. -/
theorem Sends.start (hf : Following c k s) (hok : Bench k s i) (he : s.err.errFrmReq = false)
    (hq : s.pc.currState.inPause = true) (ht : pcRxTrigger s = true)
    (h' : (step c s i).pc.currState.inPlain = true) (hx' : isTransmitter (step c s i) = true)
    (hm : (step c s i).pc.currState ≠ .sof → m = i.tranMeta) (e : Bool) :
    Sends mem (k.next s i) (step c s i) (nbs (seen c v s i)) (m.header c e) := by
  rcases nbs_start (v := v) he hq ht h' with ⟨hst, hseen, hctr⟩ | ⟨hst, hseen⟩
  · obtain rfl := hm (by rw [hst]; decide)
    have hset : (out c s.pc (pcInput c s i)).setTransmitterI = true := start_role he hq ht h' hx'
    have hload : (pcOut c s i).txLoadBaseIdI = true := by
      obtain ⟨-, -, -, -, -, hs⟩ := start_transmitter (c := c) (q := s.pc) (i := pcInput c s i) he ht
        (fun hq => hf.idle_role hq) hset
      rcases hs with ⟨hs, -⟩ | ⟨-, hr, -⟩
      · exact absurd (hs.symm.trans hst) (by decide)
      · rw [out_noErr he] at hset
        rw [pcOut_noErr he]
        cases hs : s.pc.currState <;> rw [hs] at hq hset <;>
          first | exact absurd hq (by decide) | skip
        case intermission =>
          simp only [outState, outIntermission, Bool.and_eq_true] at hset ⊢
          exact ⟨hset.1.1, by rw [hr]; rfl⟩
        case suspend =>
          simp only [outState, outSuspend]
          rw [hr]
          rfl
        case idle => exact hset
    refine ⟨?_, ?_, fun _ => ?_⟩ <;> rw [hst]
    · exact hctr.le
    · simp [hseen, sentSoFar, hctr]
    · simp only [fieldLeft, hctr]
      refine .of_load hf hok (hf.paced.pcRxTrigger_since ht) fun j hj => ?_
      have htxs : (step c s i).txs = i.tranMeta.tranIdentifier.extractLsb' 18 11 ++ 0#21 := by
        simp [step, TxShiftReg.step, ht, TxShiftReg.pload, hload, txsInput]
      have hidx : 31 - (10 - j) = 21 + j := by omega
      rw [htxs, hidx, getLsbD_top, fieldBit, TranMeta.header, FrameFormat.ident_base]
  · exact .single hst rfl trivial hseen

/-! ## Invariant -/

/-- What is recorded beside a transmitter: the metadata offered in the cycle in which its frame
started, and the output of the TXT buffer. -/
structure SendWatch where
  offered : TranMeta
  word : BitVec 32
deriving DecidableEq, Repr

def SendWatch.next (mem : Nat → BitVec 32) (w : SendWatch) (s : State) (i : Input) : SendWatch where
  offered := if s.pc.currState.inPause then i.tranMeta else w.offered
  word := nextWord mem s w.word

/-- The TX arbitrator keeps offering the frame that is sent, and passes on the output of its
buffer. -/
structure Offers (w : SendWatch) (s : State) (i : Input) : Prop where
  held : isTransmitter s = true → s.pc.currState.inPlain = true → i.tranMeta = w.offered
  word : isTransmitter s = true → s.pc.currState = .dlc ∨ s.pc.currState = .data →
    i.tranWord = w.word

instance (w : SendWatch) (s : State) (i : Input) : Decidable (Offers w s i) :=
  decidable_of_iff (_ ∧ _) ⟨fun h => ⟨h.1, h.2⟩, fun h => ⟨h.held, h.word⟩⟩

/-- Behind the data field, up to the end of frame. -/
def behindData (st : PcState) : Bool := st.behindHeader && st != .data

structure FrameSending (c : Config) (mem : Nat → BitVec 32) (k : Clock) (s : State)
    (v : List FrameBit) (w : SendWatch) : Prop where
  sends : isTransmitter s = true → s.err.errFrmReq = false → s.pc.currState.inPlain = true →
    ∃ e, Sends mem k s (nbs v) (w.offered.header c e) ∧
      Fetches mem k s w.word (w.offered.header c e).dataLength
  done : isTransmitter s = true → s.err.errFrmReq = false → behindData s.pc.currState = true →
    ∃ e, frameBits mem (w.offered.header c e) <+: nbs v

/-- The metadata and the output of the buffer one cycle later. -/
structure Follows (c : Config) (mem : Nat → BitVec 32) (w : SendWatch) (s : State) (i : Input)
    (w' : SendWatch) : Prop where
  taken : s.pc.currState.inPause = true → isTransmitter (step c s i) = true →
    (step c s i).pc.currState ≠ .sof → w'.offered = i.tranMeta
  kept : s.pc.currState.inPause = false → isTransmitter s = true → w'.offered = w.offered
  reads : isTransmitter s = true → s.pc.currState = .dlc ∨ s.pc.currState = .data →
    Reads mem s w.word w'.word

theorem Follows.of_next (mem : Nat → BitVec 32) (w : SendWatch) :
    Follows c mem w s i (w.next mem s i) where
  taken h _ _ := by simp [SendWatch.next, h]
  kept h _ := by simp [SendWatch.next, h]
  reads _ _ := reads_nextWord mem s w.word

namespace FrameSending

variable {w w' : SendWatch}

/-- The unit becomes transmitter only where a frame starts. -/
theorem transmitter_before (hq : s.pc.currState.inPause = false)
    (hx' : isTransmitter (step c s i) = true) : isTransmitter s = true := by
  have hn : nextOc c s i = .transmitter := by simpa [isTransmitter, step] using hx'
  rcases oc_transmitter hn with hs | ⟨hoc, -⟩
  · have hset : (out c s.pc (pcInput c s i)).setTransmitterI = true := by
      simp only [setTransmitter, Bool.and_eq_true] at hs
      exact hs.1
    rw [(out_setTransmitterI hset).2.1] at hq
    cases hq
  · simp [isTransmitter, hoc]

theorem fieldLeft_le {bits : List Bool} (hs : Sends mem k s bits h)
    (hsh : shifted s.pc.currState = true) : fieldLeft s.ctr s.pc.currState ≤ 31 := by
  have hp := hs.path
  cases hst : s.pc.currState <;> rw [hst] at hp hsh <;> cases hsh
  case baseId => exact Nat.le_trans hp (by decide)
  case extId => exact Nat.le_trans hp.2 (by decide)
  case dlc => exact Nat.le_trans hp (by decide)
  case data => exact Nat.sub_le 31 _

/-- The bit that is taken in the frame. -/
theorem taking (h : FrameSending c mem k s v w) (hf : Following c k s) (hok : Bench k s i)
    (hena : c.mrSettingsEna = true) (htst : c.mrModeTstm = false) (ho : Offers w s i)
    (he : s.err.errFrmReq = false) (hx : isTransmitter s = true)
    (hq : s.pc.currState.inPlain = true) (ht : pcRxTrigger s = true)
    (hx' : isTransmitter (step c s i) = true) (he' : (step c s i).err.errFrmReq = false) :
    Taking c k s i w.offered ∧ ∃ e, Sends mem k s (nbs v) (w.offered.header c e) ∧
      Loads mem s i (w.offered.header c e) := by
  obtain ⟨e, hs, hfet⟩ := h.sends hx he hq
  have hl : s.pc.currState = .dlc ∨ s.pc.currState = .data →
      Loads mem s i (w.offered.header c e) := fun hd =>
    Fetches.loads (ho.word hx hd ▸ hfet) hs (hf.paced.pcRxTrigger_since ht)
  exact ⟨⟨hf, hok, hena, htst, ho.held hx hq, he, hx, hq, ht, he', hx'⟩, e, hs,
    fun hd => (hl (.inl hd)).dlc hd, fun hd => (hl (.inr hd)).data hd⟩

theorem next_sends (h : FrameSending c mem k s v w) (hf : Following c k s) (hok : Bench k s i)
    (hena : c.mrSettingsEna = true) (htst : c.mrModeTstm = false) (ho : Offers w s i)
    (hw : Follows c mem w s i w') (hx' : isTransmitter (step c s i) = true)
    (he' : (step c s i).err.errFrmReq = false) (h' : (step c s i).pc.currState.inPlain = true) :
    ∃ e, Sends mem (k.next s i) (step c s i) (nbs (seen c v s i)) (w'.offered.header c e) ∧
      Fetches mem (k.next s i) (step c s i) w'.word (w'.offered.header c e).dataLength := by
  obtain ⟨he, hq | ⟨hq, ht⟩⟩ := enter_plain (c := c) (q := s.pc) (i := pcInput c s i) h'
  · have he : s.err.errFrmReq = false := he
    have hpause : s.pc.currState.inPause = false := by
      revert hq
      cases s.pc.currState <;> decide
    have hcov := inCovered_of_inPlain hq
    have hx := transmitter_before hpause hx'
    have hm := ho.held hx hq
    rw [hw.kept hpause hx]
    have hfet' : ∀ e, Sends mem k s (nbs v) (w.offered.header c e) →
        Fetches mem k s w.word (w.offered.header c e).dataLength →
        Fetches mem (k.next s i) (step c s i) w'.word
          (w.offered.header c e).dataLength := fun e hs hfet =>
      ⟨fun hd hlen => hfet.next_dlc hf hok hm he hx hd hlen fun hq => hw.reads hx (.inl hq),
        fun hd hlen => hfet.next_data hs hf hok hm he hx hd hlen fun hq => hw.reads hx (.inr hq)⟩
    cases ht : pcRxTrigger s
    · obtain ⟨e, hs, hfet⟩ := h.sends hx he hq
      exact ⟨e, hs.quiet hf hok he hx hq ht (fieldLeft_le hs), hfet' e hs hfet⟩
    · obtain ⟨d, hs, hfet⟩ := h.sends hx he hq
      obtain ⟨t, e, hs', hl⟩ := h.taking hf hok hena htst ho he hx hq ht hx' he'
      obtain ⟨e', hs''⟩ := t.take hs' hl h'
      rw [nbs_seen he hcov, if_pos ht]
      exact ⟨e', hs'', hfet' d hs hfet⟩
  · refine ⟨false, .start hf hok he hq ht h' hx' (hw.taken hq hx') false, ?_⟩
    -- SOF or the base identifier is sent
    have hstart := nbs_start (v := v) (c := c) (i := i) he hq ht h'
    constructor <;> intro hd <;> rcases hstart with ⟨hst, -⟩ | ⟨hst, -⟩ <;>
      exact absurd (hd.symm.trans hst) (by decide)

theorem next_done (h : FrameSending c mem k s v w) (hf : Following c k s) (hok : Bench k s i)
    (hena : c.mrSettingsEna = true) (htst : c.mrModeTstm = false) (ho : Offers w s i)
    (hw : Follows c mem w s i w') (hx' : isTransmitter (step c s i) = true)
    (he' : (step c s i).err.errFrmReq = false)
    (h' : behindData (step c s i).pc.currState = true) :
    ∃ e, frameBits mem (w'.offered.header c e) <+: nbs (seen c v s i) := by
  have hplain' : (step c s i).pc.currState.inPlain = false := by
    revert h'
    cases (step c s i).pc.currState <;> decide
  have hdata' : (step c s i).pc.currState ≠ .data := by
    intro hd
    rw [hd] at h'
    cases h'
  obtain ⟨he, hq⟩ := enter_behindHeader (c := c) (s := s) (i := i) (by
    simp only [behindData, Bool.and_eq_true] at h'
    exact h'.1)
  have hpause : s.pc.currState.inPause = false := by
    rcases hq with hq | ⟨hq, -⟩
    · revert hq
      cases s.pc.currState <;> decide
    · rw [hq]
      rfl
  have hx := transmitter_before hpause hx'
  rw [hw.kept hpause hx]
  -- the last bit of the DLC or of the data field
  have hlast : (s.pc.currState = .dlc ∨ s.pc.currState = .data) → pcRxTrigger s = true →
      ∃ e, frameBits mem (w.offered.header c e) <+: nbs (seen c v s i) := by
    intro hq ht
    have hp : s.pc.currState.inPlain = true := by rcases hq with hq | hq <;> rw [hq] <;> rfl
    have hcov : s.pc.currState.inCovered = true := by rcases hq with hq | hq <;> rw [hq] <;> rfl
    obtain ⟨t, e, hs, hl⟩ := h.taking hf hok hena htst ho he hx hp ht hx' he'
    refine ⟨e, ?_⟩
    rw [nbs_seen he hcov, if_pos ht, t.complete hs hl hq hplain']
  rcases hq with hq | ⟨hq, -, ht⟩
  · by_cases hd : s.pc.currState = .data
    · refine hlast (.inr hd) ?_
      rcases state_flow (c := c) (i := i) he with hs | ⟨ht, -⟩
      · exact absurd (hs.trans hd) hdata'
      · exact ht
    · obtain ⟨e, hpre⟩ := h.done hx he (by simp [behindData, hq, hd])
      obtain ⟨more, hmore⟩ := nbs_seen_more (c := c) (i := i) (v := v) he hq
      refine ⟨e, ?_⟩
      rw [hmore]
      exact hpre.trans (List.prefix_append _ _)
  · exact hlast (.inl hq) ht

/-- Between frames nothing is sent. -/
theorem of_pause (hq : s.pc.currState.inPause = true) (v : List FrameBit) (w : SendWatch) :
    FrameSending c mem k s v w := by
  have hst : s.pc.currState.inPlain = false ∧ behindData s.pc.currState = false := by
    revert hq
    cases s.pc.currState <;> decide
  exact ⟨fun _ _ hp => absurd (hst.1.symm.trans hp) (by decide),
    fun _ _ hp => absurd (hst.2.symm.trans hp) (by decide)⟩

theorem of_reset (c : Config) (mem : Nat → BitVec 32) (sent : Bool) (v : List FrameBit)
    (w : SendWatch) : FrameSending c mem ⟨4, sent, none⟩ reset v w where
  sends h := by cases h
  done h := by cases h

end FrameSending

end Steps

/-- What is sent at any moment is the beginning of the frame. -/
theorem sentSoFar_isPrefix {h : Header} {mem : Nat → BitVec 32} {q : ControlCounter} {st : PcState}
    (hp : OnPath h q st) : sentSoFar h mem q st <+: frameBits mem h := by
  have hcontrol : ∀ {l}, l <+: h.controlBits → l <+: frameBits mem h := fun hl => by
    rw [frameBits, Header.sentBits, List.append_assoc]
    exact hl.trans (List.prefix_append _ _)
  have hident : ∀ {l}, l <+: h.identBits → l <+: frameBits mem h := fun hl =>
    hcontrol (hl.trans (List.prefix_append _ _))
  cases st <;> simp only [sentSoFar, OnPath] at hp ⊢ <;> try exact List.nil_prefix
  case baseId =>
    refine hident (List.IsPrefix.trans ?_ (List.prefix_append _ _))
    exact List.cons_prefix_cons.mpr ⟨rfl, List.take_prefix _ _⟩
  case rtrSrrR1 => exact hident (List.prefix_append _ _)
  case ide =>
    refine hident ((List.prefix_append_right_inj _).mpr ?_)
    cases h.identType <;> simp
  case extId =>
    refine hident ((List.prefix_append_right_inj _).mpr ?_)
    rw [hp.1, if_pos rfl]
    refine List.cons_prefix_cons.mpr ⟨rfl, List.cons_prefix_cons.mpr ⟨rfl, ?_⟩⟩
    exact (List.take_prefix _ _).trans (List.prefix_append _ _)
  case rtrR1 =>
    refine hident ((List.prefix_append_right_inj _).mpr ?_)
    rw [hp, if_pos rfl]
    exact List.prefix_append _ _
  case edlR1 | edlR0 => exact hident (List.prefix_refl _)
  case r0Ext | r0Fd | brs | esi =>
    refine hcontrol ((List.prefix_append_right_inj _).mpr ?_)
    simp [hp]
  case dlc =>
    rw [frameBits, Header.sentBits, List.append_assoc]
    exact (List.prefix_append_right_inj _).mpr ((List.take_prefix _ _).trans (List.prefix_append _ _))
  case data =>
    refine (List.prefix_append_right_inj _).mpr ?_
    have hsplit : 8 * h.dataLength = q.complCtrQ + (8 * h.dataLength - q.complCtrQ) := by omega
    rw [dataBits, hsplit, List.range_add, List.map_append]
    exact List.prefix_append _ _

/-- A frame is read back from its bits. -/
theorem frameBits_read {h : Header} {mem : Nat → BitVec 32} {bits : List Bool} (hw : h.WellFormed)
    (hpre : frameBits mem h <+: bits) :
    FrameFormat.header bits = h ∧ bits.take (FrameFormat.dataEnd bits) = frameBits mem h := by
  obtain ⟨more, rfl⟩ := hpre
  have hhead : FrameFormat.header (frameBits mem h ++ more) = h := by
    rw [frameBits, List.append_assoc, Header.header_sentBits _ hw]
  have hend : FrameFormat.dataEnd (frameBits mem h ++ more) = (frameBits mem h).length := by
    rw [FrameFormat.dataEnd, hhead, frameBits, List.append_assoc, Header.headerLength_sentBits]
    simp [dataBits]
  exact ⟨hhead, List.take_left' hend.symm⟩

/-! ## Every frame of a run -/

def sendStep (c : Config) (mem : Nat → BitVec 32) :
    (CrcCore × FrameWatch) × SendWatch → Input → (CrcCore × FrameWatch) × SendWatch :=
  watched (crcStep c) fun w p i => w.next mem p.1.core i

def sendStart (sent : Bool) (v : List FrameBit) (w : SendWatch) :
    (CrcCore × FrameWatch) × SendWatch := (crcStart sent v, w)

def SendBench (c : Config) (q : (CrcCore × FrameWatch) × SendWatch) (i : Input) : Prop :=
  CrcBench c q.1 i ∧ Offers q.2 q.1.1.core i

instance (c : Config) (q : (CrcCore × FrameWatch) × SendWatch) (i : Input) :
    Decidable (SendBench c q i) := inferInstanceAs (Decidable (_ ∧ _))

structure SendInvariant (c : Config) (mem : Nat → BitVec 32)
    (q : (CrcCore × FrameWatch) × SendWatch) : Prop where
  following : Following c q.1.2.clock q.1.1.core
  sending : FrameSending c mem q.1.2.clock q.1.1.core q.1.2.frame q.2

theorem SendInvariant.of_reset (c : Config) (mem : Nat → BitVec 32) (sent : Bool)
    (v : List FrameBit) (w : SendWatch) : SendInvariant c mem (sendStart sent v w) :=
  ⟨.of_reset sent, .of_reset c mem sent v w⟩

theorem SendInvariant.step {c : Config} {mem : Nat → BitVec 32} (hena : c.mrSettingsEna = true)
    (htst : c.mrModeTstm = false) {q : (CrcCore × FrameWatch) × SendWatch} {i : Input}
    (h : SendInvariant c mem q) (hok : SendBench c q i) : SendInvariant c mem (sendStep c mem q i) := by
  obtain ⟨⟨p, f⟩, w⟩ := q
  obtain ⟨hf, hs⟩ := h
  obtain ⟨hok, ho⟩ := hok
  have hok : Bench f.clock p.core (p.input c i) := hok
  have ho : Offers w p.core (p.input c i) := ⟨ho.held, ho.word⟩
  exact ⟨hf.step_following hok hena,
    fun hx he hq => hs.next_sends (i := p.input c i) hf hok hena htst ho
      (.of_next mem w) hx he hq,
    fun hx he hq => hs.next_done (i := p.input c i) hf hok hena htst ho
      (.of_next mem w) hx he hq⟩

theorem run_sendInvariant {c : Config} {mem : Nat → BitVec 32} (hena : c.mrSettingsEna = true)
    (htst : c.mrModeTstm = false) (sent : Bool) (v : List FrameBit) (w : SendWatch)
    (is : List Input) (h : Admits (sendStep c mem) (SendBench c) (sendStart sent v w) is) :
    SendInvariant c mem (run (sendStep c mem) (sendStart sent v w) is) :=
  run_invariant (sendStep c mem) (SendBench c) (SendInvariant c mem)
    (fun _ _ hq hok => hq.step hena htst hok) (.of_reset c mem sent v w) is h

/-- In every run, the bits a transmitter has taken without an error are the beginning of the
frame in its TXT buffer: the header of the metadata offered when the frame started, and the bytes
of the data words in address order. Behind the data field they are the whole frame: its header
reads back as the metadata, with the ESI bit that was sent, and the bits up to the end of the
data field are those of the frame. -/
theorem frame_sent (c : Config) (hena : c.mrSettingsEna = true) (htst : c.mrModeTstm = false)
    (mem : Nat → BitVec 32) (sent : Bool) (v : List FrameBit) (w : SendWatch) (is : List Input)
    (h : Admits (sendStep c mem) (SendBench c) (sendStart sent v w) is) :
    let q := run (sendStep c mem) (sendStart sent v w) is
    isTransmitter q.1.1.core = true → q.1.1.core.err.errFrmReq = false →
      (q.1.1.core.pc.currState.inPlain = true →
        ∃ esi, nbs q.1.2.frame <+: frameBits mem (q.2.offered.header c esi)) ∧
      (behindData q.1.1.core.pc.currState = true →
        ∃ esi, FrameFormat.header (nbs q.1.2.frame) = q.2.offered.header c esi ∧
          (nbs q.1.2.frame).take (FrameFormat.dataEnd (nbs q.1.2.frame)) =
            frameBits mem (q.2.offered.header c esi)) := by
  intro q hx he
  have hsend := (run_sendInvariant hena htst sent v w is h).sending
  refine ⟨fun hq => ?_, fun hq => ?_⟩
  · obtain ⟨e, hs, -⟩ := hsend.sends hx he hq
    exact ⟨e, by rw [hs.bits]; exact sentSoFar_isPrefix hs.path⟩
  · obtain ⟨e, hpre⟩ := hsend.done hx he hq
    exact ⟨e, frameBits_read (TranMeta.header_wellFormed c _ e) hpre⟩

/-- A base frame with one byte of data. -/
def byteMeta : TranMeta :=
  ⟨1, false, false, false, false, 0b10101010101#11 ++ 0#18, ⟨false, false, false, 0⟩⟩

def byteWords (a : Nat) : BitVec 32 := if a = 4 then 0x53 else 0

/-- From SOF to the last data bit, with one stuff bit in the DLC. -/
def byteFrame : List Bool :=
  [false, true, false, true, false, true, false, true, false, true, false, true, false, false,
    false, false, false, true, false, true, false, true, false, true, false, false, true, true]

/-- Up to the cycle in which the transmitter has taken the last data bit. -/
def byteSent : List Input :=
  ((frameOnBus true byteFrame).map fun i =>
    { i with tranMeta := byteMeta, tranWord := 0x53 }).take 197

theorem frame_sent_byte :
    let q := run (sendStep listener byteWords) (sendStart true [] ⟨byteMeta, 0x53⟩) byteSent
    q.1.1.core.pc.currState = .crc ∧
      ∃ esi, (nbs q.1.2.frame).take (FrameFormat.dataEnd (nbs q.1.2.frame)) =
        frameBits byteWords (byteMeta.header listener esi) := by
  have hadm : Admits (sendStep listener byteWords) (SendBench listener)
      (sendStart true [] ⟨byteMeta, 0x53⟩) byteSent := by decide +kernel
  have hrun : (fun q : (CrcCore × FrameWatch) × SendWatch =>
      (isTransmitter q.1.1.core = true ∧ q.1.1.core.err.errFrmReq = false) ∧
        q.1.1.core.pc.currState = .crc ∧ q.2.offered = byteMeta)
      (run (sendStep listener byteWords) (sendStart true [] ⟨byteMeta, 0x53⟩) byteSent) := by
    decide +kernel
  obtain ⟨⟨hx, he⟩, hq, hm⟩ := hrun
  have hsent :=
    (frame_sent listener rfl rfl byteWords true [] ⟨byteMeta, 0x53⟩ byteSent hadm hx he).2
  obtain ⟨esi, -, hbits⟩ := hsent (by rw [hq]; rfl)
  exact ⟨hq, esi, by rw [hbits, hm]⟩

end CanCore
