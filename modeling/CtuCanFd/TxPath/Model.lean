import CtuCanFd.Lib.SyncMachine
import CtuCanFd.TxPath.Arbitrator
import CtuCanFd.TxPath.TxtBuffer

/-!
# Transmit path

CAN core, TX arbitrator and TXT buffers wired as in the top level. Configuration
that software may change while the node is enabled is part of the inputs of a
cycle: commands and writes to the buffers, priorities, time triggered mode, backup
mode, retransmission limitation and what bus-off does to a buffer. The other modes
(`Config`) are constant, as the documentation asks for an enabled node; a disabled
node is held in reset.
-/

namespace TxPath

open ProtocolControl (Config)
open RxBuffer (Word)

structure Generics where
  /-- `G_TXT_BUFFER_COUNT`. -/
  count : Nat
  two_le : 2 ≤ count
  le_eight : count ≤ 8
  txtb : TxtBuffer.Generics

structure Input where
  core : CanCore.Input
  mrSettingsRtrle : Bool
  mrSettingsTbfbo : Bool
  mrSettingsPchke : Bool
  mrModeTttm : Bool
  mrModeTxbbm : Bool
  mrTxPriority : Nat → BitVec 3
  mrTxCommandTxce : Bool
  mrTxCommandTxcr : Bool
  mrTxCommandTxca : Bool
  mrTxCommandTxbi : Nat → Bool
  txtbPortACs : Nat → Bool
  txtbPortAAddress : BitVec 5
  txtbPortADataIn : Word
  txtbPortABe : BitVec 4
  mrTstControlTmaena : Bool
  mrTstControlTwrstb : Bool
  mrTstDestTstAddr : BitVec 5
  mrTstDestTstMtgt : BitVec 4
  mrTstWdataTstWdata : Word
  timestamp : BitVec 64
  /-- Faults of the RAM of each buffer. -/
  ramFault : Nat → Option (Nat × Word)

/-- Entries of `bufs` past the number of buffers are never selected. -/
structure State where
  core : CanCore.State
  arb : TxArbitrator.State
  bufs : Nat → TxtBuffer.State

def reset (mem : Nat → Nat → Word) (dataOut : Nat → Word) : State where
  core := CanCore.reset
  arb := TxArbitrator.reset
  bufs k := TxtBuffer.reset (mem k) (dataOut k)

/-! ## Wires -/

/-- Configuration in force in this cycle. -/
def config (c : Config) (i : Input) : Config := { c with mrSettingsRtrle := i.mrSettingsRtrle }

def txtbHwCmd (s : State) : ProtocolControl.TxtbHwCmd := s.core.pc.txtbHwCmdQ

/-- Software side of the inputs of buffer `k`; the FSM outputs of the buffers depend
on nothing else. -/
def swInput (c : Config) (s : State) (i : Input) (k : Nat) : TxtBuffer.Input where
  mrModeBmm := c.mrModeBmm
  mrModeRom := c.mrModeRom
  mrSettingsTbfbo := i.mrSettingsTbfbo
  mrTxCommandTxce := i.mrTxCommandTxce
  mrTxCommandTxcr := i.mrTxCommandTxcr
  mrTxCommandTxca := i.mrTxCommandTxca
  mrTxCommandTxbi := i.mrTxCommandTxbi k
  txtbIsBb := false
  txtbHwCmd := txtbHwCmd s
  txtbHwCmdCs := k == s.arb.currTxtbIndex
  isBusOff := i.core.isBusOff
  mrSettingsPchke := i.mrSettingsPchke
  txtbParityCheckValid := false
  txtbIndexMuxed := false
  txtbPortACs := i.txtbPortACs k
  txtbPortAAddress := i.txtbPortAAddress
  txtbPortADataIn := i.txtbPortADataIn
  txtbPortABe := i.txtbPortABe
  txtbPortBAddress := 0
  txtbPortBClkEn := false
  mrTstControlTmaena := i.mrTstControlTmaena
  mrTstControlTwrstb := i.mrTstControlTwrstb
  mrTstDestTstAddr := i.mrTstDestTstAddr
  mrTstDestTstMtgt := i.mrTstDestTstMtgt
  mrTstWdataTstWdata := i.mrTstWdataTstWdata
  ramFault := i.ramFault k

def arbInput (g : Generics) (c : Config) (s : State) (i : Input) : TxArbitrator.Input where
  txtbPortBDataOut k := TxtBuffer.txtbPortBDataOut (s.bufs k)
  txtbAvailable k := TxtBuffer.txtbAvailable (s.bufs k) (swInput c s i k)
  txtbParityMismatch k := TxtBuffer.parityMismatch g.txtb (s.bufs k) (swInput c s i k)
  txtbHwCmd := txtbHwCmd s
  txtbPtr := s.core.pc.txtbPtrQ
  txtbClkEn := s.core.pc.txtbClkEnQ
  mrModeTttm := i.mrModeTttm
  mrModeTxbbm := i.mrModeTxbbm
  mrTxPriority := i.mrTxPriority
  timestamp := i.timestamp

def txtbInput (g : Generics) (c : Config) (s : State) (i : Input) (k : Nat) : TxtBuffer.Input :=
  let a := arbInput g c s i
  { swInput c s i k with
    txtbIsBb := TxArbitrator.txtbIsBb s.arb a (fun j => (s.bufs j).currState.transient) k
    txtbParityCheckValid := TxArbitrator.txtbParityCheckValid g.count s.arb a
    txtbIndexMuxed := TxArbitrator.txtbIndexMuxed g.count s.arb a == k
    txtbPortBAddress := TxArbitrator.txtbPortBAddress s.arb a
    txtbPortBClkEn := TxArbitrator.txtbPortBClkEn g.count s.arb a }

def coreInput (g : Generics) (c : Config) (s : State) (i : Input) : CanCore.Input :=
  let a := arbInput g c s i
  { i.core with
    tranFrameValid := TxArbitrator.tranFrameValid s.arb a
    tranMeta := s.arb.com
    tranWord := TxArbitrator.txtbSelectedInput g.count s.arb a
    tranFrameParityError := TxArbitrator.tranFrameParityError s.arb a }

def step (g : Generics) (c : Config) (s : State) (i : Input) : State where
  core := CanCore.step (config c i) s.core (coreInput g c s i)
  arb := TxArbitrator.step g.count s.arb (arbInput g c s i)
  bufs k := TxtBuffer.step g.txtb k (s.bufs k) (txtbInput g c s i k)

/-! ## Evaluation

A RAM is a function, and so is the array of the buffers. On a fixed run they are read
at addresses that are registers themselves; a table brings the address to a numeral
before it goes on to the cycle before.
-/

/-- The same function, which looks at its argument first. -/
def tabled {α : Type} (f : Nat → α) (k : Nat) : α :=
  match k with
  | 0 => f 0
  | 1 => f 1
  | 2 => f 2
  | 3 => f 3
  | 4 => f 4
  | k + 5 => f (k + 5)

theorem tabled_eq {α : Type} (f : Nat → α) : tabled f = f := by
  funext k
  match k with
  | 0 | 1 | 2 | 3 | 4 | k + 5 => rfl

def tabledStep (g : Generics) (c : Config) (s : State) (i : Input) : State :=
  let s' := step g c s i
  { s' with
    bufs := tabled fun k =>
      { s'.bufs k with ram := { (s'.bufs k).ram with mem := tabled (s'.bufs k).ram.mem } } }

theorem step_eq_tabled (g : Generics) (c : Config) : step g c = tabledStep g c := by
  funext s i
  simp [tabledStep, tabled_eq]

end TxPath
