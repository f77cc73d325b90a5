import CtuCanFd.RxBuffer.Fifo
import CtuCanFd.RxPath.Ledger

/-!
# Command protocol between core and RX buffer

`rx_buffer_fsm` asserts where each command may arrive. The assertions hold in
every run with spaced sample points as long as no word read from the TXT buffer
shows a parity mismatch while the header of a frame is being stored, and the
restriction is needed.
-/

namespace RxPath

open SyncMachine ProtocolControl
open RxBuffer (RxBufState)

/-- Commands that arrive in this cycle find the RX buffer FSM where it expects them. -/
structure CommandsInOrder (s : State) : Prop where
  metadata : storeMetadataF s = true → s.rxb.fsm = .idle
  data : storeDataF s = true ∨ recValidF s = true → s.rxb.fsm = .storeData
  abort : recAbortF s = true →
    s.rxb.fsm ∉ [RxBufState.storeIdentifier, .skipTsLow, .skipTsHigh, .storeEndTsLow,
      .storeEndTsHigh]

instance (s : State) : Decidable (CommandsInOrder s) :=
  decidable_of_iff
    ((storeMetadataF s = true → s.rxb.fsm = .idle) ∧
      (storeDataF s = true ∨ recValidF s = true → s.rxb.fsm = .storeData) ∧
      (recAbortF s = true →
        s.rxb.fsm ∉ [RxBufState.storeIdentifier, .skipTsLow, .skipTsHigh, .storeEndTsLow,
          .storeEndTsHigh]))
    ⟨fun ⟨a, b, c⟩ => ⟨a, b, c⟩, fun ⟨a, b, c⟩ => ⟨a, b, c⟩⟩

theorem Ordered.commandsInOrder {s : State} {since : Nat} (h : Ordered s since) :
    CommandsInOrder s where
  metadata := h.metadata_idle
  data := by
    rintro (hd | hv)
    · exact h.data_storing hd
    · exact h.valid_storing hv
  abort ha := by
    simp only [recAbortF, Bool.and_eq_true] at ha
    have hno : ∀ {b : Prop}, s.core.pc.recAbort = false → b := fun hn => by
      rw [hn] at ha
      cases ha.1
    simp only [List.mem_cons, List.not_mem_nil, or_false]
    rintro (hf | hf | hf | hf | hf)
    · exact hno (h.at_ident hf).2.2
    · exact hno (h.at_skipLow hf).2.2
    · exact hno (h.at_skipHigh hf).2
    · exact hno (h.at_endLow hf).2.2.2
    · exact hno (h.at_endHigh hf).2

/-- Sample points are spaced and the header of a frame is stored without a parity
error in the TXT buffer. -/
structure Undisturbed (p : State × Nat) (i : Input) : Prop where
  spacing : WideSpacing p.2 i.core
  parity : ParityClear p.1 i

instance (p : State × Nat) (i : Input) : Decidable (Undisturbed p i) :=
  decidable_of_iff (WideSpacing p.2 i.core ∧ ParityClear p.1 i)
    ⟨fun ⟨a, b⟩ => ⟨a, b⟩, fun ⟨a, b⟩ => ⟨a, b⟩⟩

/-- Settings that never change decide on every command as before. -/
theorem consistent_constant {g : Generics} {f : Settings} {s : State} {i : Input}
    {log : List Outcome} (h : ∀ o ∈ log, o.settings = f) : Consistent g f log s i where
  loopback _ o hm _ := by rw [h o (mem_carried hm).2]
  filters _ o hm _ := by rw [h o (mem_carried hm).2]

theorem record_constant {g : Generics} {f : Settings} {s : State} {i : Input}
    {log : List Outcome} (h : ∀ o ∈ log, o.settings = f) :
    ∀ o ∈ record g f log s i, o.settings = f := by
  intro o hm
  rcases mem_record.mp hm with hm | ⟨k, -, rfl⟩
  · exact h o (mem_carried hm).2
  · rfl

/-- In every undisturbed run of any configuration each command arrives where the
RX buffer FSM expects it. -/
theorem commands_in_order (g : Generics) (f : Settings) (mem : Nat → RxBuffer.Word)
    (dataOut : RxBuffer.Word) (is : List Input)
    (h : Admits (timedStep g f) Undisturbed (timedReset g mem dataOut) is) :
    CommandsInOrder (run (timedStep g f) (timedReset g mem dataOut) is).1 := by
  have hinv := run_invariant (timedStep g f) Undisturbed
    (fun p => Ordered p.1 p.2 ∧ ∃ log, Logged g p.1 log ∧ ∀ o ∈ log, o.settings = f)
    (by
      rintro p i ⟨ho, log, hlog, hf⟩ hok
      have hc := consistent_constant (g := g) (s := p.1) (i := i) hf
      exact ⟨ho.step_ordered hok.spacing hok.parity (hlog.steady ho hc), _,
        hlog.step_logged ho hc, record_constant hf⟩)
    ⟨ordered_reset g mem dataOut, [], Logged.of_reset g mem dataOut, by simp⟩ is h
  exact hinv.1.commandsInOrder

/-! ## An own frame with internal loopback -/

def loopbackConfig : Config where
  mrSettingsEna := true
  mrSettingsIlbp := true
  mrSettingsPex := false
  mrSettingsNisofd := false
  mrSettingsRtrle := false
  mrModeRom := false
  mrModeBmm := false
  mrModeFde := true
  mrModeAcf := false
  mrModeSam := false
  mrModeStm := false
  mrModeTstm := false
  mrSspCfgSspSrc := .noSsp

/-- Filter A accepts identifiers equal to its value when the filters are on. -/
def exactFilter (afm : Bool) (val : BitVec 29) : FrameFilters.Registers where
  mrModeAfm := afm
  mrSettingsFdrf := false
  controlA := ⟨true, true, true, true⟩
  maskA := BitVec.allOnes 29
  valA := val
  controlB := ⟨false, false, false, false⟩
  maskB := 0
  valB := 0
  controlC := ⟨false, false, false, false⟩
  maskC := 0
  valC := 0
  controlRan := ⟨false, false, false, false⟩
  ranHigh := 0
  ranLow := 0

def smallNode : Generics where
  filters := ⟨true, true, true, true⟩
  rxb := ⟨5, RxBuffer.smallest.ptrWidth_ge, RxBuffer.smallest.ptrWidth_le, .asic, true⟩

/-- Classical base frame with eight data bytes and no stuff bit up to the DLC. -/
def ownMeta : CanCore.TranMeta where
  tranDlc := 8
  tranIsRtr := false
  tranIdentType := false
  tranFrameType := false
  tranBrs := false
  tranIdentifier := 0b10101010101#11 ++ 0#18
  tranFrameTest := ⟨false, false, false, 0⟩

def quietRxb : RxBuffer.Input where
  recIdent := 0
  recDlc := 0
  recIdentType := false
  recFrameType := false
  recLbpf := false
  recIsRtr := false
  recBrs := false
  recEsi := false
  recIvld := false
  storeMetadataF := false
  storeDataF := false
  storeDataWord := 0
  recValidF := false
  recAbortF := false
  sofPulse := false
  errCaptErrType := 0
  errCaptErrPos := 0
  errCaptErrErp := false
  timestamp := 0
  currTxtbIndex := 0
  mrModeRxbam := true
  mrCommandCdo := false
  mrCommandCrxpe := false
  mrCommandRrb := false
  mrCommandRxrpmv := false
  mrRxDataRead := false
  mrRxSettingsRtsop := false
  mrSettingsPchke := true
  mrModeErfm := false
  mrTstControlTmaena := false
  mrTstControlTwrstb := false
  mrTstDestTstAddr := 0
  mrTstDestTstMtgt := 0
  mrTstWdataTstWdata := 0

/-- One cycle with this bus level, bus-off until integration is over. -/
def busCycle (busOff frame bit : Bool) : Input where
  core :=
    { rxTrigReq := false
      txTrigger := false
      rxDataWbs := bit
      sampleSec := false
      dataTxDelayed := true
      syncEdge := false
      tranFrameValid := frame
      tranMeta := ownMeta
      tranWord := 0
      tranFrameParityError := false
      isErrActive := !busOff
      isErrPassive := false
      isBusOff := busOff
      retrLimitReached := false
      reintegCtrExpired := false
      mrCommandErcrst := false
      crcMatchC := true
      crc15 := 0
      crc17 := 0
      crc21 := 0 }
  txtbParityMismatch := false
  rxb := quietRxb

def sampled (i : Input) : Input := { i with core := { i.core with rxTrigReq := true } }

def transmitted (i : Input) : Input := { i with core := { i.core with txTrigger := true } }

/-- One bit of five cycles: sample point, protocol control, TX trigger, two quiet cycles. -/
def bitTime (i : Input) : List Input := [sampled i, i, transmitted i, i, i]

/-- Integration, one idle bit, and the own frame up to the last but one DLC bit. -/
def ownHeader : List Input :=
  (List.replicate 11 (bitTime (busCycle true false true))).flatten ++
    [true, false, true, false, true, false, true, false, true, false, true, false, true, false,
      false, false, true, false, false].flatMap fun b => bitTime (busCycle false true b)

def lastDlcBit : List Input := bitTime (busCycle false true false)

/-- The header words are stored while the second data word is read and checked. -/
theorem commands_in_order_loopback :
    storeMetadataF (run (timedStep smallNode ⟨loopbackConfig, exactFilter false 0⟩)
        (timedReset smallNode (fun _ => 0) 0) (ownHeader ++ lastDlcBit.take 2)).1 = true ∧
      CommandsInOrder (run (timedStep smallNode ⟨loopbackConfig, exactFilter false 0⟩)
        (timedReset smallNode (fun _ => 0) 0) (ownHeader ++ lastDlcBit.take 2)).1 :=
  ⟨by decide +kernel, commands_in_order _ _ _ _ _ (by decide +kernel)⟩

/-- A parity mismatch of the second data word of an own frame aborts in
`s_rxb_skip_ts_high`. -/
theorem parity_abort_while_skipping :
    Admits (timedStep smallNode ⟨loopbackConfig, exactFilter false 0⟩)
        (fun p i => WideSpacing p.2 i.core) (timedReset smallNode (fun _ => 0) 0)
        (ownHeader ++ lastDlcBit.take 4 ++
          [{ busCycle false true false with txtbParityMismatch := true },
            sampled (busCycle false true false)]) ∧
      ¬ CommandsInOrder (run (timedStep smallNode ⟨loopbackConfig, exactFilter false 0⟩)
        (timedReset smallNode (fun _ => 0) 0)
        (ownHeader ++ lastDlcBit.take 4 ++
          [{ busCycle false true false with txtbParityMismatch := true },
            sampled (busCycle false true false)])).1 := by
  decide +kernel

end RxPath
