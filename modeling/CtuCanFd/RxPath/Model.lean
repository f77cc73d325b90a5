import CtuCanFd.Core.CanCore
import CtuCanFd.FrameFilters
import CtuCanFd.Lib.SyncMachine
import CtuCanFd.RxBuffer.Model

/-!
# Receive path

CAN core, frame filters and RX buffer wired as in the top level, with the
parity check the TX arbitrator makes on the words protocol control reads from
the locked TXT buffer. Whether such a word shows a parity mismatch is an input:
any corruption of the TXT buffer RAM is possible.
-/

namespace RxPath

open ProtocolControl (Config)

structure Generics where
  filters : FrameFilters.Generics
  rxb : RxBuffer.Generics

/-- Configuration registers of the node. -/
structure Settings where
  core : Config
  filters : FrameFilters.Registers

structure Input where
  core : CanCore.Input
  /-- `txtb_parity_mismatch(curr_txtb_index)`, with parity checking enabled. -/
  txtbParityMismatch : Bool
  /-- Ports of the RX buffer the core does not drive. -/
  rxb : RxBuffer.Input

structure State where
  core : CanCore.State
  /-- `txtb_clk_en_q` of the TX arbitrator: the word read is checked in this cycle. -/
  txtbClkEnQ : Bool
  identValidQ : Bool
  rxb : RxBuffer.State

def reset (g : Generics) (mem : Nat → RxBuffer.Word) (dataOut : RxBuffer.Word) : State where
  core := CanCore.reset
  txtbClkEnQ := false
  identValidQ := false
  rxb := RxBuffer.reset g.rxb mem dataOut

def tranFrameParityError (s : State) (i : Input) : Bool := i.txtbParityMismatch && s.txtbClkEnQ

def storeMetadataF (s : State) : Bool := s.core.pc.storeMetadata && s.identValidQ

def storeDataF (s : State) : Bool := s.core.pc.storeData && s.identValidQ

def recValidF (s : State) : Bool := s.core.pc.recValid && s.identValidQ

def recAbortF (s : State) : Bool := s.core.pc.recAbort && s.identValidQ

def coreInput (s : State) (i : Input) : CanCore.Input :=
  { i.core with tranFrameParityError := tranFrameParityError s i }

def rxbInput (f : Settings) (s : State) (i : Input) : RxBuffer.Input :=
  let fields := s.core.rxs.view
  { i.rxb with
    recIdent := fields.recIdent
    recDlc := fields.recDlc
    recIdentType := fields.recIdentType
    recFrameType := fields.recFrameType
    recLbpf := s.core.pc.recLbpfQ
    recIsRtr := fields.recIsRtr
    recBrs := fields.recBrs
    recEsi := fields.recEsi
    recIvld := s.core.pc.recIvldQ
    storeMetadataF := storeMetadataF s
    storeDataF := storeDataF s
    storeDataWord := fields.rxShiftRegQ
    recValidF := recValidF s
    recAbortF := recAbortF s
    sofPulse :=
      (CanCore.pcOut f.core s.core (coreInput s i)).sofPulseI && CanCore.pcRxTrigger s.core }

def step (g : Generics) (f : Settings) (s : State) (i : Input) : State where
  core := CanCore.step f.core s.core (coreInput s i)
  txtbClkEnQ := s.core.pc.txtbClkEnQ
  identValidQ := FrameFilters.identValidD g.filters f.filters s.core.rxs.view
  rxb := RxBuffer.step g.rxb s.rxb (rxbInput f s i)

/-- Sample points at least five clock cycles apart: the RX buffer FSM stores the words of a
header before the next one. -/
def WideSpacing (since : Nat) (i : CanCore.Input) : Prop := i.rxTrigReq = true → 4 ≤ since

instance (since : Nat) (i : CanCore.Input) : Decidable (WideSpacing since i) :=
  inferInstanceAs (Decidable (_ → _))

theorem WideSpacing.spacing {since : Nat} {i : CanCore.Input} (h : WideSpacing since i) :
    CanCore.SampleSpacing since i := fun ht => Nat.le_trans (by decide) (h ht)

/-- The receive path together with the distance to the last sample point. -/
def timedStep (g : Generics) (f : Settings) : State × Nat → Input → State × Nat :=
  SyncMachine.watched (step g f) fun since _ i => CanCore.sinceSample since i.core

def timedReset (g : Generics) (mem : Nat → RxBuffer.Word) (dataOut : RxBuffer.Word) :
    State × Nat :=
  (reset g mem dataOut, 4)

end RxPath
