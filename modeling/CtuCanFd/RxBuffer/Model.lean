import Mathlib.Algebra.Group.Nat.Defs
import Mathlib.Logic.Function.Basic

/-!
# RX buffer

`rx_buffer` with its FSM, pointers and RAM, one step per clock cycle of
`clk_sys`. A `std_logic` signal is a `Bool`; unsigned registers are naturals
with the wrap at their width written out. `scan_enable` is left out (functional
mode).
-/

namespace RxBuffer

abbrev Word := BitVec 32

/-- `G_TECHNOLOGY`: the RAM clock is gated on an ASIC and free on an FPGA. -/
inductive Technology where
  | asic
  | fpga
deriving DecidableEq, Repr

/-- Generics of the entity as the top level derives them from the buffer size,
which must be a power of two from 32 to 4096. -/
structure Generics where
  ptrWidth : Nat
  ptrWidth_ge : 5 ≤ ptrWidth
  ptrWidth_le : ptrWidth ≤ 12
  technology : Technology
  supParity : Bool

namespace Generics

def size (g : Generics) : Nat := 2 ^ g.ptrWidth

def frameCntWidth (g : Generics) : Nat := g.ptrWidth - 1

end Generics

/-- Increment and decrement of an unsigned register of `w` bits. -/
def inc (w n : Nat) : Nat := (n + 1) % 2 ^ w

def dec (w n : Nat) : Nat := (n + 2 ^ w - 1) % 2 ^ w

/-! ## Ports -/

structure Input where
  recIdent : BitVec 29
  recDlc : BitVec 4
  recIdentType : Bool
  recFrameType : Bool
  recLbpf : Bool
  recIsRtr : Bool
  recBrs : Bool
  recEsi : Bool
  recIvld : Bool
  storeMetadataF : Bool
  storeDataF : Bool
  storeDataWord : Word
  recValidF : Bool
  recAbortF : Bool
  sofPulse : Bool
  errCaptErrType : BitVec 3
  errCaptErrPos : BitVec 4
  errCaptErrErp : Bool
  timestamp : BitVec 64
  currTxtbIndex : BitVec 3
  mrModeRxbam : Bool
  mrCommandCdo : Bool
  mrCommandCrxpe : Bool
  mrCommandRrb : Bool
  mrCommandRxrpmv : Bool
  mrRxDataRead : Bool
  mrRxSettingsRtsop : Bool
  mrSettingsPchke : Bool
  mrModeErfm : Bool
  mrTstControlTmaena : Bool
  mrTstControlTwrstb : Bool
  mrTstDestTstAddr : BitVec 16
  mrTstDestTstMtgt : BitVec 4
  mrTstWdataTstWdata : Word

/-! ## `rx_buffer_fsm` -/

inductive RxBufState where
  | idle
  | storeFrameFormat
  | storeIdentifier
  | skipTsLow
  | skipTsHigh
  | storeData
  | storeEndTsLow
  | storeEndTsHigh
  | storeErrFrameFormat
  | storeErrIdentifier
  | storeErrTsLow
  | storeErrTsHigh
deriving DecidableEq, Repr

namespace RxBufState

def nextState (i : Input) : RxBufState → RxBufState
  | idle =>
    if i.storeMetadataF then storeFrameFormat
    else if i.mrModeErfm && i.recAbortF then storeErrFrameFormat
    else idle
  | storeFrameFormat =>
    if i.recAbortF then
      if i.mrModeErfm then storeErrFrameFormat else idle
    else storeIdentifier
  | storeIdentifier => skipTsLow
  | skipTsLow => skipTsHigh
  | skipTsHigh => storeData
  | storeData =>
    if i.recAbortF then
      if i.mrModeErfm then storeErrFrameFormat else idle
    else if i.recValidF then storeEndTsLow
    else storeData
  | storeEndTsLow => storeEndTsHigh
  | storeEndTsHigh => idle
  | storeErrFrameFormat => storeErrIdentifier
  | storeErrIdentifier => storeErrTsLow
  | storeErrTsLow => storeErrTsHigh
  | storeErrTsHigh => idle

def writeRawIntent (i : Input) : RxBufState → Bool
  | storeFrameFormat => !i.recAbortF
  | storeData => i.storeDataF
  | storeIdentifier | skipTsLow | skipTsHigh => true
  | storeErrFrameFormat | storeErrIdentifier | storeErrTsLow | storeErrTsHigh => true
  | idle | storeEndTsLow | storeEndTsHigh => false

def selectTsWptr : RxBufState → Bool
  | storeEndTsLow | storeEndTsHigh => true
  | _ => false

def commitIntent : RxBufState → Bool
  | storeEndTsHigh | storeErrTsHigh => true
  | _ => false

def storeTsWrPtr : RxBufState → Bool
  | skipTsLow => true
  | _ => false

def incTsWrPtr : RxBufState → Bool
  | storeEndTsLow => true
  | _ => false

def resetOverrunFlag : RxBufState → Bool
  | idle => true
  | _ => false

def recErf : RxBufState → Bool
  | storeErrFrameFormat => true
  | _ => false

end RxBufState

/-! ## Words written into the RAM -/

/-- RWCNT of a data frame by its DLC. -/
def rwcntCom (recDlc : BitVec 4) : Nat :=
  match recDlc.toNat with
  | 0 => 3
  | 1 | 2 | 3 | 4 => 4
  | 5 | 6 | 7 | 8 => 5
  | 9 => 6
  | 10 => 7
  | 11 => 8
  | 12 => 9
  | 13 => 11
  | 14 => 15
  | _ => 19

def rwcnt (i : Input) (recErf : Bool) : BitVec 5 :=
  if i.recIsRtr || recErf then 3
  else if !i.recFrameType && i.recDlc.getLsbD 3 then 5
  else BitVec.ofNat 5 (rwcntCom i.recDlc)

/-- Fields from bit 27 down: LBTBI, IVLD, ERF_TYPE, ERF_ERP, ERF_POS, RWCNT,
ESI_RSV, BRS, LBPF, FDF, IDE, RTR, ERF, DLC. -/
def frameFormW (i : Input) (recErf : Bool) : BitVec 28 :=
  (if i.recLbpf then i.currTxtbIndex else 0#3) ++
  BitVec.ofBool i.recIvld ++
  (if recErf then i.errCaptErrType else 0#3) ++
  BitVec.ofBool (recErf && i.errCaptErrErp) ++
  (if recErf then i.errCaptErrPos else 0#4) ++
  rwcnt i recErf ++
  BitVec.ofBool i.recEsi ++
  BitVec.ofBool i.recBrs ++
  BitVec.ofBool i.recLbpf ++
  BitVec.ofBool i.recFrameType ++
  BitVec.ofBool i.recIdentType ++
  BitVec.ofBool i.recIsRtr ++
  BitVec.ofBool recErf ++
  i.recDlc

/-- RWCNT field of a stored frame format word. -/
def rwcntOf (w : Word) : Nat := (w.extractLsb' 11 5).toNat

def formatWord (i : Input) (recErf : Bool) : Word := 0#4 ++ frameFormW i recErf

def identWord (i : Input) : Word := 0#3 ++ i.recIdent

def tsLowWord (ts : BitVec 64) : Word := ts.extractLsb' 0 32

def tsHighWord (ts : BitVec 64) : Word := ts.extractLsb' 32 32

/-! ## Registers -/

/-- `rx_buffer_pointers`. -/
structure Pointers where
  readPointer : Nat
  writePointer : Nat
  writePointerRaw : Nat
  writePointerTs : Nat
  rxMemFree : Nat
  rxMemFreeRaw : Nat

/-- `rx_buffer_ram`: the words, the registered read port and the parity bits. -/
structure Ram where
  mem : Nat → Word
  dataOut : Word
  parityWord : Nat → Bool
  parityReadExp : Bool

structure State where
  fsm : RxBufState
  /-- `rx_buf_res_n_q_scan`, active low. -/
  resN : Bool
  ptrs : Pointers
  ram : Ram
  readCounter : Nat
  frameCount : Nat
  commitRxFrame : Bool
  commitOverrunAbort : Bool
  dataOverrunFlg : Bool
  dataOverrun : Bool
  timestampCapture : BitVec 64
  rxParityError : Bool

/-! ## Combinational signals -/

def writeData (s : State) (i : Input) : Word :=
  match s.fsm with
  | .storeFrameFormat => formatWord i false
  | .storeErrFrameFormat => formatWord i true
  | .storeIdentifier | .storeErrIdentifier => identWord i
  | .storeData => i.storeDataWord
  | .storeEndTsLow | .storeErrTsLow => tsLowWord s.timestampCapture
  | .storeEndTsHigh | .storeErrTsHigh => tsHighWord s.timestampCapture
  | .idle | .skipTsLow | .skipTsHigh => 0

def rxEmpty (s : State) : Bool := s.frameCount == 0

def readAttempt (i : Input) : Bool := if i.mrModeRxbam then i.mrRxDataRead else i.mrCommandRxrpmv

def readIncrement (s : State) (i : Input) : Bool := readAttempt i && !rxEmpty s

def isFreeWord (s : State) : Bool :=
  !(s.ptrs.readPointer == s.ptrs.writePointerRaw && decide (0 < s.frameCount))

def writeRawIntent (s : State) (i : Input) : Bool := s.fsm.writeRawIntent i

def overrunCondition (s : State) (i : Input) : Bool := writeRawIntent s i && !isFreeWord s

def writeRawOK (s : State) (i : Input) : Bool :=
  writeRawIntent s i && !overrunCondition s i && !s.dataOverrun

def rxbPortAWrite (s : State) (i : Input) : Bool :=
  writeRawOK s i || (s.fsm.selectTsWptr && !s.dataOverrun && !overrunCondition s i)

def rxbPortAAddress (s : State) : Nat :=
  if s.fsm.selectTsWptr then s.ptrs.writePointerTs else s.ptrs.writePointerRaw

def rxbPortBAddress (g : Generics) (s : State) (i : Input) : Nat :=
  if readIncrement s i then inc g.ptrWidth s.ptrs.readPointer else s.ptrs.readPointer

/-- The word a read of the register map returns; zeroes while the buffer is empty. -/
def rxbPortBDataOut (s : State) : Word := if rxEmpty s then 0 else s.ram.dataOut

def ramClkEn (g : Generics) (s : State) (i : Input) : Bool :=
  g.technology == .fpga || rxbPortAWrite s i || readAttempt i || i.mrTstControlTmaena

/-! ## One clock cycle -/

def resetPointers (g : Generics) : Pointers where
  readPointer := 0
  writePointer := 0
  writePointerRaw := 0
  writePointerTs := 0
  rxMemFree := g.size
  rxMemFreeRaw := g.size

def Pointers.nextRaw (g : Generics) (p : Pointers) (ok abort overrunAbort : Bool) : Nat :=
  if ok then inc g.ptrWidth p.writePointerRaw
  else if abort || overrunAbort then p.writePointer
  else p.writePointerRaw

def Pointers.nextTs (g : Generics) (p : Pointers) (store incr : Bool) : Nat :=
  if store then p.writePointerRaw
  else if incr then inc g.ptrWidth p.writePointerTs
  else p.writePointerTs

def Pointers.nextFreeRaw (g : Generics) (p : Pointers) (rd ok abortApplied : Bool) : Nat :=
  let w := g.ptrWidth + 1
  if rd then
    if abortApplied then inc w p.rxMemFree
    else if !ok then inc w p.rxMemFreeRaw
    else p.rxMemFreeRaw
  else
    if abortApplied then p.rxMemFree
    else if ok then dec w p.rxMemFreeRaw
    else p.rxMemFreeRaw

def Pointers.nextFree (g : Generics) (p : Pointers) (rd commit : Bool) : Nat :=
  let w := g.ptrWidth + 1
  if rd then
    if commit then inc w p.rxMemFreeRaw else inc w p.rxMemFree
  else if commit then p.rxMemFreeRaw
  else p.rxMemFree

def nextPointers (g : Generics) (s : State) (i : Input) : Pointers where
  readPointer :=
    if readIncrement s i then inc g.ptrWidth s.ptrs.readPointer else s.ptrs.readPointer
  writePointer := if s.commitRxFrame then s.ptrs.writePointerRaw else s.ptrs.writePointer
  writePointerRaw :=
    s.ptrs.nextRaw g (writeRawOK s i) i.recAbortF s.commitOverrunAbort
  writePointerTs := s.ptrs.nextTs g s.fsm.storeTsWrPtr s.fsm.incTsWrPtr
  rxMemFree := s.ptrs.nextFree g (readIncrement s i) s.commitRxFrame
  rxMemFreeRaw :=
    s.ptrs.nextFreeRaw g (readIncrement s i) (writeRawOK s i)
      (i.recAbortF || s.commitOverrunAbort)

/-- `parity_calculator` with `C_PARITY_TYPE = '1'`. -/
def parity (w : Word) : Bool := (List.range 32).foldl (fun acc k => acc ^^ w.getLsbD k) true

def parityMismatch (g : Generics) (s : State) : Bool :=
  g.supParity && parity s.ram.dataOut != s.ram.parityReadExp

/-- The test port addresses the RAM when `TMAENA` is set and the RX buffer is the target. -/
def tstEna (i : Input) : Bool := i.mrTstControlTmaena && i.mrTstDestTstMtgt == 1

def nextRam (g : Generics) (s : State) (i : Input) : Ram :=
  let addrA := if tstEna i then i.mrTstDestTstAddr.toNat % g.size else rxbPortAAddress s
  let write := if tstEna i then i.mrTstControlTwrstb else rxbPortAWrite s i
  let dataIn := if tstEna i then i.mrTstWdataTstWdata else writeData s i
  let addrB := if tstEna i then i.mrTstDestTstAddr.toNat % g.size else rxbPortBAddress g s i
  if ramClkEn g s i then
    { mem := if write then Function.update s.ram.mem addrA dataIn else s.ram.mem
      dataOut := s.ram.mem addrB
      parityWord :=
        if g.supParity && rxbPortAWrite s i then
          Function.update s.ram.parityWord (rxbPortAAddress s) (parity (writeData s i))
        else s.ram.parityWord
      parityReadExp :=
        if g.supParity then s.ram.parityWord (rxbPortBAddress g s i) else s.ram.parityReadExp }
  else s.ram

def nextReadCounter (s : State) (i : Input) : Nat :=
  if readIncrement s i then
    if 0 < s.readCounter then s.readCounter - 1 else rwcntOf s.ram.dataOut
  else s.readCounter

def nextFrameCount (g : Generics) (s : State) (i : Input) : Nat :=
  if readIncrement s i && s.readCounter == 1 then
    if s.commitRxFrame then s.frameCount else dec g.frameCntWidth s.frameCount
  else if s.commitRxFrame then inc g.frameCntWidth s.frameCount
  else s.frameCount

def timestampCaptureCe (i : Input) : Bool :=
  (!i.mrRxSettingsRtsop && i.recValidF) || (i.mrRxSettingsRtsop && i.sofPulse) ||
    (i.mrModeErfm && i.recAbortF)

/-- Registers held by the buffer reset take their reset values when it is
asserted at this edge (`RRB` in this cycle) or still is (`resN` low). -/
def step (g : Generics) (s : State) (i : Input) : State :=
  let run := s.resN && !i.mrCommandRrb
  { fsm := s.fsm.nextState i
    resN := !i.mrCommandRrb
    ptrs := if run then nextPointers g s i else resetPointers g
    ram := nextRam g s i
    readCounter := if run then nextReadCounter s i else 0
    frameCount := if run then nextFrameCount g s i else 0
    commitRxFrame :=
      run && (if s.fsm.commitIntent then !s.dataOverrun || s.commitRxFrame else false)
    commitOverrunAbort :=
      run && (if s.fsm.commitIntent then s.dataOverrun || s.commitOverrunAbort else false)
    dataOverrunFlg :=
      run && !i.mrCommandCdo && (overrunCondition s i || s.dataOverrunFlg)
    dataOverrun :=
      overrunCondition s i || i.mrCommandRrb || (!s.fsm.resetOverrunFlag && s.dataOverrun)
    timestampCapture := if timestampCaptureCe i then i.timestamp else s.timestampCapture
    rxParityError :=
      (readAttempt i && parityMismatch g s && i.mrSettingsPchke) ||
        (!i.mrCommandCrxpe && s.rxParityError) }

/-- State after the asynchronous reset; the words of the RAM are unknown. -/
def reset (g : Generics) (mem : Nat → Word) (dataOut : Word) : State where
  fsm := .idle
  resN := false
  ptrs := resetPointers g
  ram := { mem, dataOut, parityWord := fun _ => false, parityReadExp := false }
  readCounter := 0
  frameCount := 0
  commitRxFrame := false
  commitOverrunAbort := false
  dataOverrunFlg := false
  dataOverrun := false
  timestampCapture := 0
  rxParityError := false

end RxBuffer
