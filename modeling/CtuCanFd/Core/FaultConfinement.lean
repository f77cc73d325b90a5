import CtuCanFd.Core.CanCore

/-!
# Fault confinement

`fault_confinement` with its counters, rules and FSM, and what protocol control and
the error detector tell it. The counters of errors per bit rate are left out: nothing
reads them but software.
-/

namespace FaultConfinement

inductive FcState where
  | errActive
  | errPassive
  | busOff
deriving DecidableEq, Repr

structure Limits where
  mrErpErpLimit : BitVec 8
  mrEwlEwLimit : BitVec 8
deriving DecidableEq, Repr

structure Input where
  mrModeRom : Bool
  isTransmitter : Bool
  isReceiver : Bool
  setErrActive : Bool
  errDetected : Bool
  errCtrsUnchanged : Bool
  primaryErr : Bool
  actErrOvrFlag : Bool
  errDelimLate : Bool
  tranValid : Bool
  decrementRec : Bool
  bitErrAfterAckErr : Bool
  mrCtrPresPtx : Bool
  mrCtrPresPrx : Bool
  mrCtrPresCtpv : BitVec 9

structure State where
  currState : FcState
  txErrCtrQ : Nat
  rxErrCtrQ : Nat
  /-- `res_err_ctrs_q`: while low the counters are held at zero. -/
  resErrCtrsQ : Bool
  mrCtrPresPtxQ : Bool
  mrCtrPresPrxQ : Bool
  errWarningLimitQ : Bool
deriving DecidableEq, Repr

def reset : State where
  currState := .busOff
  txErrCtrQ := 0
  rxErrCtrQ := 0
  resErrCtrsQ := false
  mrCtrPresPtxQ := false
  mrCtrPresPrxQ := false
  errWarningLimitQ := false

def isErrActive (s : State) : Bool := s.currState == .errActive

def isErrPassive (s : State) : Bool := s.currState == .errPassive

def isBusOff (s : State) : Bool := s.currState == .busOff

/-! ## `fault_confinement_rules` -/

def incOne (i : Input) : Bool :=
  i.errDetected && !i.actErrOvrFlag && i.isReceiver && !i.mrModeRom

def incEight (i : Input) : Bool :=
  ((i.primaryErr && i.isReceiver) || (i.actErrOvrFlag && i.errDetected) ||
    (i.isTransmitter && i.errDetected && !i.errCtrsUnchanged) ||
    (i.errDelimLate || i.bitErrAfterAckErr)) && !i.mrModeRom

def decOne (i : Input) : Bool := i.decrementRec || i.tranValid

/-! ## `err_counters` -/

/-- The counters are cleared asynchronously by the registered reset. -/
def txErrCtr (s : State) : Nat := if s.resErrCtrsQ then s.txErrCtrQ else 0

def rxErrCtr (s : State) : Nat := if s.resErrCtrsQ then s.rxErrCtrQ else 0

def txErrCtrD (s : State) (i : Input) : Nat :=
  if s.mrCtrPresPtxQ then i.mrCtrPresCtpv.toNat
  else if incEight i then (txErrCtr s + 8) % 512
  else txErrCtr s - 1

def txErrCtrCe (s : State) (i : Input) : Bool :=
  ((incEight i || decOne i) && i.isTransmitter) || s.mrCtrPresPtxQ

def rxErrCtrInc (s : State) (i : Input) : Nat :=
  if incOne i then (rxErrCtr s + 1) % 512 else (rxErrCtr s + 8) % 512

def rxErrCtrSat (s : State) (i : Input) : Nat :=
  if rxErrCtrInc s i < rxErrCtr s then 511 else rxErrCtrInc s i

def rxErrCtrDec (s : State) : Nat := if 127 < rxErrCtr s then 120 else rxErrCtr s - 1

def rxErrCtrD (s : State) (i : Input) : Nat :=
  if s.mrCtrPresPrxQ then i.mrCtrPresCtpv.toNat
  else if incOne i || incEight i then rxErrCtrSat s i
  else rxErrCtrDec s

def rxErrCtrCe (s : State) (i : Input) : Bool :=
  ((incOne i || incEight i || decOne i) && i.isReceiver) || s.mrCtrPresPrxQ

/-! ## `fault_confinement_fsm` -/

def txErrCtrMtErp (l : Limits) (s : State) : Bool := decide (l.mrErpErpLimit.toNat ≤ txErrCtr s)

def rxErrCtrMtErp (l : Limits) (s : State) : Bool := decide (l.mrErpErpLimit.toNat ≤ rxErrCtr s)

def errWarningLimitD (l : Limits) (s : State) : Bool :=
  decide (l.mrEwlEwLimit.toNat ≤ txErrCtr s) || decide (l.mrEwlEwLimit.toNat ≤ rxErrCtr s)

def nextState (l : Limits) (s : State) (i : Input) : FcState :=
  match s.currState with
  | .errActive => if txErrCtrMtErp l s || rxErrCtrMtErp l s then .errPassive else .errActive
  | .errPassive =>
    if decide (255 < txErrCtr s) then .busOff
    else if !txErrCtrMtErp l s && !rxErrCtrMtErp l s then .errActive
    else .errPassive
  | .busOff => if i.setErrActive then .errActive else .busOff

/-! ## One clock cycle -/

def step (l : Limits) (s : State) (i : Input) : State where
  currState := nextState l s i
  txErrCtrQ :=
    if !s.resErrCtrsQ then 0 else if txErrCtrCe s i then txErrCtrD s i else s.txErrCtrQ
  rxErrCtrQ :=
    if !s.resErrCtrsQ then 0 else if rxErrCtrCe s i then rxErrCtrD s i else s.rxErrCtrQ
  resErrCtrsQ := !i.setErrActive
  mrCtrPresPtxQ := i.mrCtrPresPtx
  mrCtrPresPrxQ := i.mrCtrPresPrx
  errWarningLimitQ := errWarningLimitD l s

end FaultConfinement

/-! ## Signals of protocol control for fault confinement and the limit counters -/

namespace ProtocolControl

/-- Flags of protocol control that only reach these blocks. -/
structure FaultFlags where
  firstErrDelimQ : Bool
  ackErrFlag : Bool
  retrCtrAddBlock : Bool
deriving DecidableEq, Repr

def FaultFlags.reset : FaultFlags where
  firstErrDelimQ := false
  ackErrFlag := false
  retrCtrAddBlock := false

variable (c : Config) (q : Regs) (f : FaultFlags) (i : Input)

def setErrActive : Bool :=
  !i.errFrmReq && i.rxTrigger && i.ctrlCtrZero &&
    ((q.currState == .integrating && i.isBusOff) ||
      (q.currState == .reintegrating && i.reintegCtrExpired))

def primaryErr : Bool :=
  !i.errFrmReq && i.rxTrigger && q.currState == .errDelimWait && !i.rxDataNbs && f.firstErrDelimQ

def errDelimLate : Bool :=
  !i.errFrmReq && i.rxTrigger && (q.currState == .errFlagTooLong || q.currState == .ovrFlagTooLong) &&
    !i.rxDataNbs && i.ctrlCtrZero

def firstErrDelimD : Bool :=
  !i.errFrmReq && i.ctrlCtrZero &&
    (q.currState == .actErrFlag || (q.currState == .pasErrFlag && q.rxDataNbsPrev == i.rxDataNbs))

def actErrOvrFlag : Bool := q.currState == .actErrFlag || q.currState == .ovrFlag

def decrementRec : Bool :=
  !i.errFrmReq && i.rxTrigger && (q.currState == .ack || q.currState == .ackFd1) &&
    i.isReceiver && i.crcMatch && !i.rxDataNbs

def bitErrAfterAckErr : Bool :=
  !i.errFrmReq && q.currState == .pasErrFlag && f.ackErrFlag && !i.rxDataNbs && i.rxTrigger

def ackErrFlagClr : Bool :=
  bitErrAfterAckErr q f i || (!i.errFrmReq && q.currState == .errDelimWait)

def isArbitration : Bool :=
  !i.errFrmReq &&
    match q.currState with
    | .baseId | .rtrSrrR1 | .extId | .rtrR1 => true
    | .ide => ideIsArbitration i
    | _ => false

def reintegCtrClr : Bool :=
  !i.errFrmReq && q.currState == .reintegratingWait && q.mrCommandErcrstQ

def reintegCtrEnable : Bool :=
  !i.errFrmReq && q.currState == .reintegrating && i.ctrlCtrZero

def retrCtrClear : Bool :=
  ((out c q i).txtbHwCmdD.valid && i.rxTrigger) || (out c q i).txtbHwCmdD.failed

def retrCtrAdd : Bool :=
  !(retrCtrClear c q i || !c.mrSettingsRtrle || i.isReceiver || f.retrCtrAddBlock) &&
    (((out c q i).arbitrationLostI && i.rxTrigger) || i.errFrmReq)

def FaultFlags.step : FaultFlags where
  firstErrDelimQ := if i.rxTrigger then firstErrDelimD q i else f.firstErrDelimQ
  ackErrFlag :=
    ((out c q i).ackErrI && i.rxTrigger) || (f.ackErrFlag && !ackErrFlagClr q f i)
  retrCtrAddBlock :=
    retrCtrAdd c q f i ||
      (f.retrCtrAddBlock && !(!i.errFrmReq && q.currState == .intermission))

end ProtocolControl

namespace CanCore

open ProtocolControl (Config FaultFlags)

variable (c : Config) (s : State) (f : FaultFlags) (i : Input)

def errDetected : Bool := ErrDetector.errFrmReqI (errInput c s i)

def errCtrsUnchanged : Bool :=
  ((errInput c s i).ackErr && i.isErrPassive) ||
    ((errInput c s i).stuffErr && ProtocolControl.isArbitration s.pc (pcInput c s i) &&
      isTransmitter s && !s.bds.dataOut && txDataWbs c s)

/-- Wires to fault confinement; the presets come from software. -/
def fcInput (presPtx presPrx : Bool) (ctpv : BitVec 9) : FaultConfinement.Input where
  mrModeRom := c.mrModeRom
  isTransmitter := isTransmitter s
  isReceiver := isReceiver s
  setErrActive := ProtocolControl.setErrActive s.pc (pcInput c s i)
  errDetected := errDetected c s i
  errCtrsUnchanged := errCtrsUnchanged c s i
  primaryErr := ProtocolControl.primaryErr s.pc f (pcInput c s i)
  actErrOvrFlag := ProtocolControl.actErrOvrFlag s.pc
  errDelimLate := ProtocolControl.errDelimLate s.pc (pcInput c s i)
  tranValid := s.pc.txtbHwCmdQ.valid
  decrementRec := ProtocolControl.decrementRec s.pc (pcInput c s i)
  bitErrAfterAckErr := ProtocolControl.bitErrAfterAckErr s.pc f (pcInput c s i)
  mrCtrPresPtx := presPtx
  mrCtrPresPrx := presPrx
  mrCtrPresCtpv := ctpv

end CanCore
