import CtuCanFd.TxPath.Restricted

/-!
# Data words that protocol control reads

While the arbitrator is locked, protocol control addresses the words of the locked buffer: the
first data word from the DLC on, and the word after the transmitted one in the data field. The
gate of its reads is computed from the DLC alone, so it lets the first data word of a remote
frame through.
-/

namespace TxPath

open SyncMachine TxArbitrator
open CanCore (TranMeta)
open ProtocolControl (Config dlcDecoder txtbNumWordsGate out txtbClkEnD)

/-- Bytes of the data field that a frame has on the bus. -/
def dataFieldLength (c : Config) (m : TranMeta) : Nat :=
  if m.tranIsRtr && !(m.tranFrameType && c.mrModeFde) then 0
  else dlcDecoder m.tranDlc (m.tranFrameType && c.mrModeFde)

/-- Protocol control reads a word of the locked buffer. -/
def CoreReads (s : State) (addr : Nat) : Prop :=
  s.arb.fsm = .locked ∧ s.core.pc.txtbClkEnQ = true ∧ s.core.pc.txtbPtrQ = addr

/-- Every data word that is read carries a byte of the data field. -/
def ReadsFrame (c : Config) (s : State) : Prop :=
  ∀ addr, CoreReads s addr → 4 ≤ addr → 4 * (addr - 4) < dataFieldLength c s.arb.com

/-- Remote frames are sent with DLC 0. -/
def RemoteEmpty (c : Config) (s : State) (_ : Input) : Prop :=
  CanCore.isTransmitter s.core = true → s.arb.com.tranIsRtr = true →
    (s.arb.com.tranFrameType && c.mrModeFde) = false → s.arb.com.tranDlc = 0

instance (c : Config) (s : State) (i : Input) : Decidable (RemoteEmpty c s i) :=
  inferInstanceAs (Decidable (_ → _ → _ → _))

/-- A data word up to the gate has a byte of the data that the DLC announces. -/
theorem gated_word (dlc : BitVec 4) (fd : Bool) {addr : Nat} (hdata : 4 ≤ addr)
    (hgate : addr ≤ txtbNumWordsGate (dlcDecoder dlc fd)) :
    4 * (addr - 4) < dlcDecoder dlc fd := by
  have hlast : ∀ (dlc : BitVec 4) (fd : Bool), 4 ≤ txtbNumWordsGate (dlcDecoder dlc fd) →
      4 * (txtbNumWordsGate (dlcDecoder dlc fd) - 4) < dlcDecoder dlc fd := by decide
  have := hlast dlc fd (by omega)
  omega

section Step

variable {g : Generics} {c : Config} {s : State} {i : Input}

/-- Only a transmitter addresses data words. -/
theorem transmitter_of_pointer {q : ProtocolControl.Regs} {i : ProtocolControl.Input}
    (h : 4 ≤ (out c q i).txtbPtrD) : i.isTransmitter = true := by
  by_contra hx
  have hx : i.isTransmitter = false := eq_false_of_ne_true hx
  have hzero : (out c q i).txtbPtrD = 0 := by
    by_cases hq : q.currState = .dlc ∨ q.currState = .data
    · cases he : i.errFrmReq
      · rw [ProtocolControl.out_noErr he]
        rcases hq with hq | hq <;>
          simp [ProtocolControl.outState, ProtocolControl.outDlc, ProtocolControl.outData, hq, hx]
      · rw [ProtocolControl.out_err he]
        rfl
    · rw [not_or] at hq
      exact ProtocolControl.out_txtbPtrD hq.1 hq.2
  omega

theorem readsFrame_step (ok : RemoteEmpty c s i) : ReadsFrame c (step g c s i) := by
  rintro addr ⟨hlocked, hclk, rfl⟩ hdata
  have hcom : (step g c s i).arb.com = s.arb.com := by
    have hno := (enter_locked hlocked).2
    simp [step, TxArbitrator.step, hno]
  have hen : txtbClkEnD (config c i) s.core.pc
      (CanCore.pcInput (config c i) s.core (coreInput g c s i)) = true := hclk
  have hptr : (step g c s i).core.pc.txtbPtrQ = (out (config c i) s.core.pc
      (CanCore.pcInput (config c i) s.core (coreInput g c s i))).txtbPtrD := by
    show (if txtbClkEnD _ _ _ = true then _ else _) = _
    exact if_pos hen
  rw [hptr] at hdata ⊢
  have htx := transmitter_of_pointer hdata
  simp only [txtbClkEnD, Bool.and_eq_true, Bool.not_eq_true', decide_eq_false_iff_not,
    Nat.not_lt] at hen
  have hword := gated_word _ _ hdata hen.2
  rw [hcom, dataFieldLength]
  split_ifs with hremote
  · -- with DLC 0 the gate is closed
    rw [Bool.and_eq_true, Bool.not_eq_true'] at hremote
    have hzero := ok htx hremote.1 hremote.2
    have hlen : dlcDecoder s.arb.com.tranDlc (s.arb.com.tranFrameType && c.mrModeFde) = 0 := by
      rw [hzero]
      rfl
    exact absurd hword (by
      show ¬ _ < dlcDecoder s.arb.com.tranDlc (s.arb.com.tranFrameType && c.mrModeFde)
      rw [hlen]
      exact Nat.not_lt_zero _)
  · exact hword

end Step

/-- In every run in which remote frames have DLC 0, protocol control reads no data word that
carries no byte of the transmitted frame. -/
theorem core_reads_frame_words (g : Generics) (c : Config) (mem : Nat → Nat → RxBuffer.Word)
    (dataOut : Nat → RxBuffer.Word) (is : List Input)
    (ok : Admits (step g c) (RemoteEmpty c) (reset mem dataOut) is) :
    ReadsFrame c (run (step g c) (reset mem dataOut) is) :=
  run_invariant (step g c) (RemoteEmpty c) (ReadsFrame c) (fun _ _ _ hok => readsFrame_step hok)
    (fun _ h => absurd h.2.1 (by simp [reset, CanCore.reset, ProtocolControl.reset])) is ok

/-! ### A remote frame of a node with parity protection -/

def parityBuffers : Generics := ⟨2, twoBuffers.two_le, twoBuffers.le_eight, ⟨.fpga, true⟩⟩

/-- After integration, software writes the words of buffer 0 up to the data words and sets it
ready. The bits of the frame follow, and some cycles of a dominant bit. -/
def sendZero (format : RxBuffer.Word) (bits : List Bool) (cycles : Nat) : List Input :=
  ((List.replicate 11 true).flatMap (bitTime false) ++
    [writeWord 0 0 format, writeWord 0 1 (0b10101010101#11 ++ 0#18).toNat, writeWord 0 2 0,
      writeWord 0 3 0] ++
    setReady 0 ++ List.replicate 14 quietCycle ++ bits.flatMap (bitTime true) ++
    (bitTime true false).take cycles).map fun i => { i with mrSettingsPchke := true }

/-- Idle, SOF and the identifier. -/
def headerBits : List Bool :=
  [true, false, true, false, true, false, true, false, true, false, true, false, true]

/-- The first of two data words is read in the DLC. -/
theorem core_reads_frame_words_first :
    let s := run (step parityBuffers nominalConfig) (reset (fun _ _ => 0) fun _ => 0)
      (sendZero 0x8 (headerBits ++ [false, false]) 3)
    CoreReads s 4 ∧ 4 * (4 - 4) < dataFieldLength nominalConfig s.arb.com := by
  have hrun : Admits (step parityBuffers nominalConfig) (RemoteEmpty nominalConfig)
      (reset (fun _ _ => 0) fun _ => 0) (sendZero 0x8 (headerBits ++ [false, false]) 3) := by
    rw [step_eq_tabled]
    decide +kernel
  have hreads : (fun s : State => s.arb.fsm = .locked ∧ s.core.pc.txtbClkEnQ = true ∧
      s.core.pc.txtbPtrQ = 4)
      (run (step parityBuffers nominalConfig) (reset (fun _ _ => 0) fun _ => 0)
        (sendZero 0x8 (headerBits ++ [false, false]) 3)) := by
    rw [step_eq_tabled]
    decide +kernel
  exact ⟨hreads, core_reads_frame_words _ _ _ _ _ hrun 4 hreads (Nat.le_refl 4)⟩

/-- A remote frame with DLC 8: the first data word is read, which software had no reason to
write, and the buffer ends with a parity error two cycles later. -/
theorem remote_frame_data_read :
    ¬ ReadsFrame nominalConfig
        (run (step parityBuffers nominalConfig) (reset (fun _ _ => 0) fun _ => 0)
          (sendZero 0x28 (headerBits ++ [true, false]) 3)) ∧
      ((run (step parityBuffers nominalConfig) (reset (fun _ _ => 0) fun _ => 0)
        (sendZero 0x28 (headerBits ++ [true, false]) 5)).bufs 0).currState = .parityErr := by
  have hreads : (fun s : State => (s.arb.fsm = .locked ∧ s.core.pc.txtbClkEnQ = true ∧
      s.core.pc.txtbPtrQ = 4) ∧ dataFieldLength nominalConfig s.arb.com = 0)
      (run (step parityBuffers nominalConfig) (reset (fun _ _ => 0) fun _ => 0)
        (sendZero 0x28 (headerBits ++ [true, false]) 3)) := by
    rw [step_eq_tabled]
    decide +kernel
  constructor
  · intro h
    have hbyte := h 4 hreads.1 (Nat.le_refl 4)
    rw [hreads.2] at hbyte
    cases hbyte
  · rw [step_eq_tabled]
    decide +kernel

end TxPath
