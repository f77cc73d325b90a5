import CtuCanFd.Core.FaultConfinement

/-!
# CRC calculation

`can_crc` with the part of `trigger_mux` and of protocol control that drives it. CRC15
runs over the bits without stuff bits, CRC17 and CRC21 over the bits with stuff bits.
Each of the two streams is taken either from the bits sampled or from the bits sent.
-/

open ProtocolControl (Config PcState)

/-! ## `crc_calc` -/

namespace CrcCalc

variable {w : Nat}

def crcD (pol crcQ : BitVec w) (dataIn : Bool) : BitVec w :=
  if dataIn ^^ crcQ.msb then (crcQ <<< 1) ^^^ pol else crcQ <<< 1

def initVect (w : Nat) (initVectMsb : Bool) : BitVec w :=
  if initVectMsb then BitVec.twoPow w (w - 1) else 0

def step (pol crcQ : BitVec w) (dataIn trig enable initVectMsb loadInitVect : Bool) : BitVec w :=
  if loadInitVect then initVect w initVectMsb
  else if enable && trig then crcD pol crcQ dataIn
  else crcQ

/-- CRC over a list of bits, first bit first. -/
def ofBits (pol : BitVec w) (initVectMsb : Bool) (bits : List Bool) : BitVec w :=
  bits.foldl (crcD pol) (initVect w initVectMsb)

end CrcCalc

/-! ## Signals of protocol control -/

namespace ProtocolControl

/-- Covered by the CRC: from SOF to the data field, or to the stuff count. -/
def PcState.inCovered : PcState → Bool
  | .sof | .baseId | .rtrSrrR1 | .ide | .extId | .rtrR1 | .edlR1 | .r0Ext | .r0Fd | .edlR0 | .brs
  | .esi | .dlc | .data | .stuffCount => true
  | _ => false

def crcEnable (q : Regs) (i : Input) : Bool :=
  !i.errFrmReq &&
    match q.currState with
    | .idle => !i.isBusOff && !i.rxDataNbs
    | st => st.inCovered

def crcSpecEnable (q : Regs) (i : Input) : Bool :=
  !i.errFrmReq &&
    match q.currState with
    | .intermission => i.ctrlCtrZero && !i.isBusOff
    | .suspend | .idle => true
    | _ => false

def crcCalcFromRx (q : Regs) (i : Input) : Bool :=
  crcSpecEnable q i || isArbitration q i || i.isReceiver

def loadInitVect (q : Regs) (i : Input) : Bool :=
  i.rxTrigger && !i.errFrmReq &&
    match q.currState with
    | .integrating => i.ctrlCtrZero
    | .intermission => !i.ctrlCtrZero
    | .reintegrating => i.reintegCtrExpired && i.ctrlCtrZero && i.rxTrigger
    | _ => false

end ProtocolControl

/-! ## `can_crc` in the core -/

namespace CanCore

/-- Registers of `can_crc`, and those of `trigger_mux` for the bits with stuff bits. -/
structure CanCrc where
  crc15 : BitVec 15
  crc17 : BitVec 17
  crc21 : BitVec 21
  txTriggerQ : Bool
  crcDataRxWbs : Bool
deriving DecidableEq, Repr

namespace CanCrc

def reset : CanCrc where
  crc15 := 0
  crc17 := 0
  crc21 := 0
  txTriggerQ := false
  crcDataRxWbs := false

/-! The polynomials without their leading coefficients. -/

def crc15Pol : BitVec 15 := 0x4599#15

def crc17Pol : BitVec 17 := 0x1685B#17

def crc21Pol : BitVec 21 := 0x102899#21

section

variable (c : Config) (s : State) (i : Input) (r : CanCrc)

def crcTrigRxNbs : Bool := s.rxTrigReqQ && !s.bds.destuffedQ

def crcTrigTxNbs : Bool := i.txTrigger && !s.bst.dataHalt (bstInput c s i)

/-- One cycle after the bit was sent. Fixed stuff bits are left out. -/
def crcTrigTxWbs : Bool :=
  !((pcOut c s i).fixedStuff && s.bst.dataHalt (bstInput c s i)) && r.txTriggerQ

def crcTrigRxWbs : Bool := !((pcOut c s i).fixedStuff && s.bds.destuffedQ) && s.rxTrigReqQ

def fromRx : Bool := ProtocolControl.crcCalcFromRx s.pc (pcInput c s i)

def crc1721DataIn : Bool := if fromRx c s i then r.crcDataRxWbs else s.bst.dataOut

def crc1721Trigger : Bool := if fromRx c s i then crcTrigRxWbs c s i else crcTrigTxWbs c s i r

def crc15DataIn : Bool := if fromRx c s i then s.bds.dataOut else txDataNbs c s i

def crc15Trigger : Bool := if fromRx c s i then crcTrigRxNbs s else crcTrigTxNbs c s i

/-- A speculative SOF is taken only if it is dominant. -/
def crcEna15 : Bool :=
  ProtocolControl.crcEnable s.pc (pcInput c s i) ||
    (ProtocolControl.crcSpecEnable s.pc (pcInput c s i) && !crc15DataIn c s i)

def crcEna1721 : Bool :=
  ProtocolControl.crcEnable s.pc (pcInput c s i) ||
    (ProtocolControl.crcSpecEnable s.pc (pcInput c s i) && !crc1721DataIn c s i r)

def load : Bool := ProtocolControl.loadInitVect s.pc (pcInput c s i)

def next : CanCrc where
  crc15 := CrcCalc.step crc15Pol r.crc15 (crc15DataIn c s i) (crc15Trigger c s i)
    (crcEna15 c s i) false (load c s i)
  crc17 := CrcCalc.step crc17Pol r.crc17 (crc1721DataIn c s i r) (crc1721Trigger c s i r)
    (crcEna1721 c s i r) (!c.mrSettingsNisofd) (load c s i)
  crc21 := CrcCalc.step crc21Pol r.crc21 (crc1721DataIn c s i r) (crc1721Trigger c s i r)
    (crcEna1721 c s i r) (!c.mrSettingsNisofd) (load c s i)
  txTriggerQ := i.txTrigger
  crcDataRxWbs := if i.rxTrigReq then bdsDataIn c s i else r.crcDataRxWbs

def rxCrc : BitVec 32 := s.rxs.view.rxShiftRegQ

/-- `crc_match_c`: the CRC received, and the stuff count of an ISO CAN FD frame. -/
def crcMatchC : Bool :=
  match ProtocolControl.crcSrc c (pcInput c s i) with
  | .crc15 => (rxCrc s).extractLsb' 0 15 == r.crc15
  | .crc17 => (rxCrc s).extractLsb' 0 17 == r.crc17 && stuffCountOk
  | .crc21 => (rxCrc s).extractLsb' 0 21 == r.crc21 && stuffCountOk
where
  stuffCountOk : Bool :=
    c.mrSettingsNisofd || s.rxs.view.rxStuffCount == TxShiftReg.stuffCount s.bds.dstCtrQ

/-- The CRC registers feed the TX shift register and the comparison. -/
def closed : Input :=
  { i with
    crc15 := r.crc15
    crc17 := r.crc17
    crc21 := r.crc21
    crcMatchC := crcMatchC c s i r }

end

end CanCrc

/-- The core with its CRC calculation. -/
structure CrcCore where
  core : State
  crc : CanCrc
deriving DecidableEq, Repr

def CrcCore.reset : CrcCore := ⟨CanCore.reset, .reset⟩

def CrcCore.input (c : Config) (p : CrcCore) (i : Input) : Input := p.crc.closed c p.core i

def CrcCore.step (c : Config) (p : CrcCore) (i : Input) : CrcCore :=
  ⟨CanCore.step c p.core (p.input c i), p.crc.next c p.core (p.input c i)⟩

end CanCore
