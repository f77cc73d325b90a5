import CtuCanFd.Core.FaultConfinement
import CtuCanFd.Lib.SyncMachine

/-!
# Core with fault confinement

The CAN core closed over fault confinement and the reintegration counter. The bus,
the triggers, the frame offered for transmission and the CRC registers are inputs
without any relation to the rest, and so is the answer of the retransmission counter.
-/

namespace Node

open ProtocolControl (Config FaultFlags)

structure Settings where
  core : Config
  limits : FaultConfinement.Limits

structure Input where
  core : CanCore.Input
  mrCtrPresPtx : Bool
  mrCtrPresPrx : Bool
  mrCtrPresCtpv : BitVec 9

structure State where
  core : CanCore.State
  fc : FaultConfinement.State
  flags : FaultFlags
  reintegCtrQ : Nat
deriving DecidableEq, Repr

def reset : State where
  core := CanCore.reset
  fc := FaultConfinement.reset
  flags := .reset
  reintegCtrQ := 0

/-! ## Wires -/

def reintegCtrExpired (s : State) : Bool := s.reintegCtrQ == 128

def coreInput (s : State) (i : Input) : CanCore.Input :=
  { i.core with
    isErrActive := FaultConfinement.isErrActive s.fc
    isErrPassive := FaultConfinement.isErrPassive s.fc
    isBusOff := FaultConfinement.isBusOff s.fc
    reintegCtrExpired := reintegCtrExpired s }

def pcInput (f : Settings) (s : State) (i : Input) : ProtocolControl.Input :=
  CanCore.pcInput f.core s.core (coreInput s i)

def fcInput (f : Settings) (s : State) (i : Input) : FaultConfinement.Input :=
  CanCore.fcInput f.core s.core s.flags (coreInput s i) i.mrCtrPresPtx i.mrCtrPresPrx
    i.mrCtrPresCtpv

/-! ## One clock cycle -/

/-- `reintegration_counter`. -/
def nextReintegCtr (f : Settings) (s : State) (i : Input) : Nat :=
  if ProtocolControl.reintegCtrClr s.core.pc (pcInput f s i) then 0
  else if ProtocolControl.reintegCtrEnable s.core.pc (pcInput f s i) && CanCore.pcRxTrigger s.core then
    (s.reintegCtrQ + 1) % 256
  else s.reintegCtrQ

def step (f : Settings) (s : State) (i : Input) : State where
  core := CanCore.step f.core s.core (coreInput s i)
  fc := FaultConfinement.step f.limits s.fc (fcInput f s i)
  flags := s.flags.step f.core s.core.pc (pcInput f s i)
  reintegCtrQ := nextReintegCtr f s i

end Node
