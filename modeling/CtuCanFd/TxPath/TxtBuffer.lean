import CtuCanFd.Core.ProtocolControl
import CtuCanFd.RxBuffer.Model

/-!
# TXT buffer

`txt_buffer` with its FSM and RAM. Software writes the RAM through port A while the
buffer is accessible, the TX arbitrator reads it through port B. RAM faults are
inputs: they flip bits of a stored word. The status output for software, and the
status of parity errors in backup buffers, are left out; the completion interrupt
stands in `TxPath.Completion`.
-/

namespace TxtBuffer

open ProtocolControl (TxtbHwCmd)
open RxBuffer (Word)

/-- `t_txt_buf_state`. -/
inductive TxtBufState where
  | empty
  | ready
  | txProg
  | abProg
  | ok
  | failed
  | aborted
  | parityErr
deriving DecidableEq, Repr

structure Generics where
  technology : RxBuffer.Technology
  supParity : Bool
deriving DecidableEq, Repr

structure Input where
  mrModeBmm : Bool
  mrModeRom : Bool
  mrSettingsTbfbo : Bool
  mrTxCommandTxce : Bool
  mrTxCommandTxcr : Bool
  mrTxCommandTxca : Bool
  mrTxCommandTxbi : Bool
  txtbIsBb : Bool
  txtbHwCmd : TxtbHwCmd
  txtbHwCmdCs : Bool
  isBusOff : Bool
  mrSettingsPchke : Bool
  txtbParityCheckValid : Bool
  /-- `txtb_index_muxed = G_ID`. -/
  txtbIndexMuxed : Bool
  txtbPortACs : Bool
  txtbPortAAddress : BitVec 5
  txtbPortADataIn : Word
  txtbPortABe : BitVec 4
  txtbPortBAddress : Nat
  txtbPortBClkEn : Bool
  mrTstControlTmaena : Bool
  mrTstControlTwrstb : Bool
  mrTstDestTstAddr : BitVec 5
  mrTstDestTstMtgt : BitVec 4
  mrTstWdataTstWdata : Word
  /-- Address and bits flipped by a fault of the RAM. -/
  ramFault : Option (Nat × Word)

structure Ram where
  mem : Nat → Word
  dataOut : Word
  parityWord : Nat → Bool
  parityReadExp : Bool

structure State where
  currState : TxtBufState
  mrTxCommandTxceQ : Bool
  mrTxCommandTxcrQ : Bool
  mrTxCommandTxcaQ : Bool
  ram : Ram

/-- State after reset. The words of a RAM that is not resettable are unknown. -/
def reset (mem : Nat → Word) (dataOut : Word) : State where
  currState := .empty
  mrTxCommandTxceQ := false
  mrTxCommandTxcrQ := false
  mrTxCommandTxcaQ := false
  ram := { mem, dataOut, parityWord := fun _ => false, parityReadExp := false }

/-! ## `txt_buffer_fsm` -/

/-- `transient_state`: ready or in progress. -/
def TxtBufState.transient : TxtBufState → Bool
  | .ready | .txProg | .abProg => true
  | _ => false

/-- Transmission from the buffer is in progress. -/
def TxtBufState.inProgress : TxtBufState → Bool
  | .txProg | .abProg => true
  | _ => false

def txceValid (s : State) (i : Input) : Bool := s.mrTxCommandTxceQ && i.mrTxCommandTxbi

def txcrValid (s : State) (i : Input) : Bool := s.mrTxCommandTxcrQ && i.mrTxCommandTxbi

def abortApplied (s : State) (i : Input) : Bool := s.mrTxCommandTxcaQ && i.mrTxCommandTxbi

def bufferSkipped (i : Input) : Bool := (i.txtbHwCmd.failed || i.txtbHwCmd.valid) && i.txtbIsBb

def goToFailed (i : Input) : Bool :=
  (i.isBusOff && i.mrSettingsTbfbo) || i.mrModeBmm || i.mrModeRom

/-- `txtb_hw_cmd_i`. -/
def hwCmd (i : Input) : TxtbHwCmd := if i.txtbHwCmdCs then i.txtbHwCmd else {}

def arblOrErr (i : Input) : Bool := (hwCmd i).err || (hwCmd i).arbl

def txtbUserAccessible (s : State) : Bool := !s.currState.transient

def txtbAvailable (s : State) (i : Input) : Bool := s.currState == .ready && !abortApplied s i

def txtbUnmaskDataRam (s : State) : Bool := s.currState.transient

/-! ## RAM -/

def txtbPortAWrite (s : State) (i : Input) : Bool := i.txtbPortACs && txtbUserAccessible s

def tstEna (id : Nat) (i : Input) : Bool :=
  i.mrTstControlTmaena && i.mrTstDestTstMtgt == BitVec.ofNat 4 (id + 2)

def ramClkEn (g : Generics) (s : State) (i : Input) : Bool :=
  g.technology == .fpga || i.txtbPortBClkEn || txtbPortAWrite s i || i.mrTstControlTmaena

def parityMismatch (g : Generics) (s : State) (i : Input) : Bool :=
  g.supParity && RxBuffer.parity s.ram.dataOut != s.ram.parityReadExp && i.mrSettingsPchke

def txtbParityErrorValid (g : Generics) (s : State) (i : Input) : Bool :=
  parityMismatch g s i && i.txtbParityCheckValid && i.txtbIndexMuxed

/-- The word seen by the arbitrator and the core. -/
def txtbPortBDataOut (s : State) : Word := if txtbUnmaskDataRam s then s.ram.dataOut else 0

/-- One byte of a word written with byte enables. -/
def writeByte (old new : Word) (be : BitVec 4) (k : Nat) : BitVec 8 :=
  if be.getLsbD k then new.extractLsb' (8 * k) 8 else old.extractLsb' (8 * k) 8

def writeBytes (old new : Word) (be : BitVec 4) : Word :=
  writeByte old new be 3 ++ writeByte old new be 2 ++ writeByte old new be 1 ++
    writeByte old new be 0

def nextMem (g : Generics) (id : Nat) (s : State) (i : Input) : Nat → Word :=
  let addrA := if tstEna id i then i.mrTstDestTstAddr.toNat else i.txtbPortAAddress.toNat
  let write := if tstEna id i then i.mrTstControlTwrstb else txtbPortAWrite s i
  let dataIn := if tstEna id i then i.mrTstWdataTstWdata else i.txtbPortADataIn
  if ramClkEn g s i && write then
    Function.update s.ram.mem addrA (writeBytes (s.ram.mem addrA) dataIn i.txtbPortABe)
  else s.ram.mem

def applyFault (fault : Option (Nat × Word)) (mem : Nat → Word) : Nat → Word :=
  match fault with
  | none => mem
  | some (addr, bits) => Function.update mem addr (mem addr ^^^ bits)

/-- The parity bit is that of the whole word on the data bus, whatever the byte enables. -/
def nextRam (g : Generics) (id : Nat) (s : State) (i : Input) : Ram where
  mem := applyFault i.ramFault (nextMem g id s i)
  dataOut :=
    if ramClkEn g s i then
      s.ram.mem (if tstEna id i then i.mrTstDestTstAddr.toNat else i.txtbPortBAddress)
    else s.ram.dataOut
  parityWord :=
    if g.supParity && ramClkEn g s i && txtbPortAWrite s i then
      Function.update s.ram.parityWord i.txtbPortAAddress.toNat
        (RxBuffer.parity i.txtbPortADataIn)
    else s.ram.parityWord
  parityReadExp :=
    if g.supParity && ramClkEn g s i then s.ram.parityWord i.txtbPortBAddress
    else s.ram.parityReadExp

/-! ## One clock cycle -/

/-- States in which the buffer waits for software. -/
def setByCommand (s : State) (i : Input) (stay : TxtBufState) : TxtBufState :=
  if txcrValid s i then .ready else if txceValid s i then .empty else stay

/-- `tx_buf_fsm_next_state_proc`. -/
def nextState (g : Generics) (s : State) (i : Input) : TxtBufState :=
  match s.currState with
  | .empty => if txcrValid s i then .ready else .empty
  | .ready =>
    if goToFailed i then .failed
    else if txtbParityErrorValid g s i then .parityErr
    else if (hwCmd i).lock then
      if abortApplied s i then .abProg else .txProg
    else if abortApplied s i || bufferSkipped i then .aborted
    else .ready
  | .txProg =>
    if goToFailed i then .failed
    else if txtbParityErrorValid g s i then .parityErr
    else if (hwCmd i).failed then .failed
    else if (hwCmd i).valid then .ok
    else if arblOrErr i then
      if abortApplied s i then .aborted else .ready
    else if abortApplied s i then .abProg
    else .txProg
  | .abProg =>
    if goToFailed i then .failed
    else if txtbParityErrorValid g s i then .parityErr
    else if (hwCmd i).failed then .failed
    else if (hwCmd i).valid then .ok
    else if arblOrErr i then .aborted
    else .abProg
  | .failed => setByCommand s i .failed
  | .aborted => setByCommand s i .aborted
  | .ok => setByCommand s i .ok
  | .parityErr => setByCommand s i .parityErr

def step (g : Generics) (id : Nat) (s : State) (i : Input) : State where
  currState := nextState g s i
  mrTxCommandTxceQ := i.mrTxCommandTxce
  mrTxCommandTxcrQ := i.mrTxCommandTxcr
  mrTxCommandTxcaQ := i.mrTxCommandTxca
  ram := nextRam g id s i

end TxtBuffer
