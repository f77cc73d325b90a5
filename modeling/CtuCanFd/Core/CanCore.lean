import CtuCanFd.Core.Blocks

/-!
# CAN core

The blocks wired together as in `can_core` and `protocol_control`, with the
registered sample point of the prescaler and the bit error detector of bus
sampling. Inputs are the sampled bus, the triggers, the metadata and words the
TX arbitrator presents, and the answers of the blocks that are left out.
-/

open ProtocolControl (Config)

namespace CanCore

/-- Metadata of the frame the TX arbitrator offers. -/
structure TranMeta where
  tranDlc : BitVec 4
  tranIsRtr : Bool
  tranIdentType : Bool
  tranFrameType : Bool
  tranBrs : Bool
  tranIdentifier : BitVec 29
  tranFrameTest : FrameTest
deriving DecidableEq, Repr

structure Input where
  /-- `rx_triggers(1)`; `rx_triggers(0)` follows one cycle later. -/
  rxTrigReq : Bool
  txTrigger : Bool
  rxDataWbs : Bool
  sampleSec : Bool
  dataTxDelayed : Bool
  syncEdge : Bool
  tranFrameValid : Bool
  tranMeta : TranMeta
  tranWord : BitVec 32
  tranFrameParityError : Bool
  isErrActive : Bool
  isErrPassive : Bool
  isBusOff : Bool
  retrLimitReached : Bool
  reintegCtrExpired : Bool
  mrCommandErcrst : Bool
  crcMatchC : Bool
  crc15 : BitVec 15
  crc17 : BitVec 17
  crc21 : BitVec 21

structure State where
  rxTrigReqQ : Bool
  pc : ProtocolControl.Regs
  ctr : ControlCounter
  oc : OperationControl
  err : ErrDetector
  bst : BitStuffing
  bds : BitDestuffing
  bed : BitErrDetector
  rxs : RxShiftReg
  txs : BitVec 32
deriving DecidableEq, Repr

def reset : State where
  rxTrigReqQ := false
  pc := ProtocolControl.reset
  ctr := .reset
  oc := .off
  err := .reset
  bst := .reset
  bds := .reset
  bed := .reset
  rxs := .reset
  txs := 0

/-! ## Wires -/

/-- `trigger_mux`: protocol control skips sample points of stuff bits. -/
def pcRxTrigger (s : State) : Bool := s.rxTrigReqQ && !s.bds.destuffedQ

def isTransmitter (s : State) : Bool := s.oc == .transmitter

def isReceiver (s : State) : Bool := s.oc == .receiver

def txDataWbs (c : Config) (s : State) : Bool :=
  if !c.mrSettingsEna || c.mrModeBmm then true else s.bst.dataOut

def bdsDataIn (c : Config) (s : State) (i : Input) : Bool :=
  if s.pc.spControlQ = .secondarySample then s.bst.dataOut
  else if c.mrModeBmm then i.rxDataWbs && s.bst.dataOut
  else i.rxDataWbs

def pcInput (c : Config) (s : State) (i : Input) : ProtocolControl.Input where
  rxTrigger := pcRxTrigger s
  errFrmReq := s.err.errFrmReq
  rxDataNbs := s.bds.dataOut
  txDataWbs := txDataWbs c s
  syncEdge := i.syncEdge
  ctrlCtrZero := s.ctr.ctrlCtrZero
  ctrlCtrOne := s.ctr.ctrlCtrOne
  ctrlCountedByte := s.ctr.ctrlCountedByte
  ctrlCountedByteIndex := s.ctr.ctrlCountedByteIndex
  ctrlCtrMemIndex := s.ctr.ctrlCtrMemIndex
  isTransmitter := isTransmitter s
  isReceiver := isReceiver s
  isErrActive := i.isErrActive
  isErrPassive := i.isErrPassive
  isBusOff := i.isBusOff
  tranFrameValid := i.tranFrameValid
  tranDlc := i.tranMeta.tranDlc
  tranIsRtr := i.tranMeta.tranIsRtr
  tranIdentType := i.tranMeta.tranIdentType
  tranFrameType := i.tranMeta.tranFrameType
  tranBrs := i.tranMeta.tranBrs
  recDlcD := s.rxs.view.recDlcD s.bds.dataOut
  recDlcQ := s.rxs.view.recDlc
  recIsRtr := s.rxs.view.recIsRtr
  recFrameType := s.rxs.view.recFrameType
  crcMatch := s.err.crcMatchQ
  retrLimitReached := i.retrLimitReached
  reintegCtrExpired := i.reintegCtrExpired
  mrCommandErcrst := i.mrCommandErcrst

def pcOut (c : Config) (s : State) (i : Input) : ProtocolControl.Out :=
  ProtocolControl.out c s.pc (pcInput c s i)

def txShiftEna (c : Config) (s : State) (i : Input) : Bool :=
  ProtocolControl.txShiftEna c s.pc (pcInput c s i)

def txDataNbs (c : Config) (s : State) (i : Input) : Bool :=
  TxShiftReg.txDataNbs s.txs s.err.errFrmReq i.isErrActive (pcOut c s i).txDominant
    (txShiftEna c s i)

def bstInput (c : Config) (s : State) (i : Input) : BitStuffing.Input where
  dataIn := txDataNbs c s i
  bstTrigger := i.txTrigger
  stuffEnable := s.pc.stuffEnable
  fixedStuff := (pcOut c s i).fixedStuff
  txFrameNoSof := s.pc.txFrameNoSofQ

/-- `pc_tx_trigger`: no bit is taken from protocol control while a stuff bit is sent. -/
def pcTxTrigger (c : Config) (s : State) (i : Input) : Bool :=
  i.txTrigger && !s.bst.dataHalt (bstInput c s i)

def bdsInput (c : Config) (s : State) (i : Input) : BitDestuffing.Input where
  dataIn := bdsDataIn c s i
  bdsTrigger := i.rxTrigReq
  destuffEnable := s.pc.destuffEnable
  fixedStuff := (pcOut c s i).fixedStuff

def bedInput (c : Config) (s : State) (i : Input) : BitErrDetector.Input where
  mrSettingsEna := c.mrSettingsEna
  bitErrEnable := ProtocolControl.bitErrEnable c s.pc (pcInput c s i)
  spControl := ProtocolControl.spControl c s.pc (pcInput c s i)
  rxTrigger := i.rxTrigReq
  sampleSec := i.sampleSec
  dataTx := txDataWbs c s
  dataTxDelayed := i.dataTxDelayed
  dataRxSynced := i.rxDataWbs

def errInput (c : Config) (s : State) (i : Input) : ErrDetector.Input where
  bitErr := s.bed.bitErrQ
  stuffErr := s.bds.stuffErrQ
  formErr := (pcOut c s i).formErrI && pcRxTrigger s
  ackErr := (pcOut c s i).ackErrI && pcRxTrigger s
  crcErr := (pcOut c s i).crcErrI && pcRxTrigger s
  bitErrArb := (pcOut c s i).bitErrArbI && pcRxTrigger s
  tranFrameParityError := i.tranFrameParityError
  crcCheck := (pcOut c s i).crcCheck
  crcClearMatchFlag := (pcOut c s i).crcClearMatchFlag
  crcMatchC := i.crcMatchC

def txsInput (c : Config) (s : State) (i : Input) : TxShiftReg.Input where
  txTrigger := pcTxTrigger c s i
  txShiftEna := txShiftEna c s i
  mrModeTstm := c.mrModeTstm
  crcSrc := ProtocolControl.crcSrc c (pcInput c s i)
  crc15 := i.crc15
  crc17 := i.crc17
  crc21 := i.crc21
  bstCtr := s.bst.bstCtrQ
  tranIdentifier := i.tranMeta.tranIdentifier
  tranFrameTest := i.tranMeta.tranFrameTest
  tranWord := i.tranWord
  tranDlc := i.tranMeta.tranDlc

/-! ## One clock cycle -/

def nextCtr (c : Config) (s : State) (i : Input) : ControlCounter :=
  s.ctr.step (pcRxTrigger s) (pcOut c s i).ctrlCtrEna
    ((pcOut c s i).complCtrEnaI && pcRxTrigger s)
    (ProtocolControl.ctrlCtrPload c s.pc (pcInput c s i)) (pcOut c s i).ctrlCtrPloadVal

def nextOc (c : Config) (s : State) (i : Input) : OperationControl :=
  s.oc.step (ProtocolControl.setIdle c s.pc (pcInput c s i))
    (ProtocolControl.setTransmitter c s.pc (pcInput c s i))
    (ProtocolControl.setReceiver c s.pc (pcInput c s i))
    (pcOut c s i).arbitrationLostI (i.isBusOff && pcRxTrigger s)

def step (c : Config) (s : State) (i : Input) : State where
  rxTrigReqQ := i.rxTrigReq
  pc := ProtocolControl.step c s.pc (pcInput c s i)
  ctr := nextCtr c s i
  oc := nextOc c s i
  err := s.err.step (errInput c s i)
  bst := s.bst.step (bstInput c s i)
  bds := s.bds.step (bdsInput c s i)
  bed := s.bed.step (bedInput c s i)
  rxs := s.rxs.step (pcOut c s i) (pcRxTrigger s) s.bds.dataOut
  txs := TxShiftReg.step s.txs (pcOut c s i) (pcRxTrigger s) (txsInput c s i)

/-! ## Distance of sample points -/

/-- Cycles since the last sample point; zero is the cycle in which protocol
control takes the sampled bit. -/
def sinceSample (since : Nat) (i : Input) : Nat := if i.rxTrigReq then 0 else since + 1

/-- Consecutive sample points are at least three clock cycles apart. -/
def SampleSpacing (since : Nat) (i : Input) : Prop := i.rxTrigReq = true → 2 ≤ since

instance (since : Nat) (i : Input) : Decidable (SampleSpacing since i) :=
  inferInstanceAs (Decidable (_ → _))

end CanCore
