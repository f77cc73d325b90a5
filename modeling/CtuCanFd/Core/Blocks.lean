import CtuCanFd.Core.ProtocolControl

/-!
# Datapath blocks of the CAN core

The entities around the protocol control FSM: counters, operation control,
error detector, bit stuffing and destuffing, bit error detector and the two
shift registers. Each one is its registers and what one clock cycle makes of
them.
-/

/-! ## `control_counter` -/

structure ControlCounter where
  ctrlCtrQ : Nat
  complCtrQ : Nat
deriving DecidableEq, Repr

namespace ControlCounter

def reset : ControlCounter where
  ctrlCtrQ := 0
  complCtrQ := 0

def ctrlCtrZero (q : ControlCounter) : Bool := q.ctrlCtrQ == 0

def ctrlCtrOne (q : ControlCounter) : Bool := q.ctrlCtrQ == 1

def ctrlCountedByte (q : ControlCounter) : Bool := q.complCtrQ % 8 == 7

def ctrlCountedByteIndex (q : ControlCounter) : Nat := q.complCtrQ / 8 % 4

/-- Word of the TXT buffer that follows the word being transmitted. -/
def ctrlCtrMemIndex (q : ControlCounter) : Nat :=
  let divPlus5 := q.complCtrQ / 32 + 5
  if divPlus5 < 19 then divPlus5 else 19

def step (rxTrigger ctrlCtrEna complCtrEna ctrlCtrPload : Bool) (ctrlCtrPloadVal : Nat)
    (q : ControlCounter) : ControlCounter where
  ctrlCtrQ :=
    if ctrlCtrPload then ctrlCtrPloadVal
    else if rxTrigger && ctrlCtrEna then (q.ctrlCtrQ + 511) % 512
    else q.ctrlCtrQ
  complCtrQ :=
    if ctrlCtrPload then 0
    else if complCtrEna then (q.complCtrQ + 1) % 512
    else q.complCtrQ

end ControlCounter

/-! ## `operation_control` -/

inductive OperationControl where
  | off
  | idle
  | transmitter
  | receiver
deriving DecidableEq, Repr

namespace OperationControl

def step (setIdle setTransmitter setReceiver arbitrationLost goToOff : Bool) :
    OperationControl → OperationControl
  | off => if setIdle then idle else off
  | idle =>
    if goToOff then off
    else if setTransmitter then transmitter
    else if setReceiver then receiver
    else idle
  | transmitter =>
    if goToOff then off
    else if setIdle then idle
    else if setReceiver || arbitrationLost then receiver
    else transmitter
  | receiver =>
    if setIdle then idle
    else if setTransmitter then transmitter
    else receiver

end OperationControl

/-! ## `err_detector` -/

structure ErrDetector where
  errFrmReq : Bool
  crcMatchQ : Bool
deriving DecidableEq, Repr

namespace ErrDetector

def reset : ErrDetector where
  errFrmReq := false
  crcMatchQ := false

structure Input where
  bitErr : Bool
  stuffErr : Bool
  formErr : Bool
  ackErr : Bool
  crcErr : Bool
  bitErrArb : Bool
  tranFrameParityError : Bool
  crcCheck : Bool
  crcClearMatchFlag : Bool
  crcMatchC : Bool

def errFrmReqI (i : Input) : Bool :=
  i.bitErr || i.stuffErr || i.formErr || i.ackErr || i.crcErr || i.bitErrArb ||
    i.tranFrameParityError

/-- The top level instantiates the entity with the error pipeline register. -/
def step (q : ErrDetector) (i : Input) : ErrDetector where
  errFrmReq := errFrmReqI i
  crcMatchQ :=
    if i.crcClearMatchFlag then false
    else if i.crcCheck then i.crcMatchC
    else q.crcMatchQ

end ErrDetector

/-! ## `bit_stuffing` -/

structure BitStuffing where
  enablePrev : Bool
  fixedRegQ : Bool
  bstCtrQ : Nat
  sameBitsQ : Nat
  dataOut : Bool
  dataHaltQ : Bool
deriving DecidableEq, Repr

namespace BitStuffing

def reset : BitStuffing where
  enablePrev := false
  fixedRegQ := false
  bstCtrQ := 0
  sameBitsQ := 1
  dataOut := true
  dataHaltQ := false

structure Input where
  dataIn : Bool
  bstTrigger : Bool
  stuffEnable : Bool
  fixedStuff : Bool
  txFrameNoSof : Bool

def nonFixToFixChng (q : BitStuffing) (i : Input) : Bool := i.fixedStuff && !q.fixedRegQ

def stuffLvlReached (q : BitStuffing) : Bool := q.sameBitsQ == 5

def insertStuffBit (q : BitStuffing) (i : Input) : Bool := nonFixToFixChng q i || stuffLvlReached q

def sameBitsRst (q : BitStuffing) (i : Input) : Bool :=
  !q.enablePrev ||
    (i.bstTrigger &&
      (nonFixToFixChng q i || stuffLvlReached q || (i.dataIn != q.dataOut && !i.fixedStuff)))

def sameBitsD (q : BitStuffing) (i : Input) : Nat :=
  if i.txFrameNoSof then (if !i.dataIn then 2 else 1)
  else if sameBitsRst q i then 1
  else if i.bstTrigger then (q.sameBitsQ + 1) % 8
  else q.sameBitsQ

/-- `data_halt`; the source selects between the register and this value, which
is this value either way. -/
def dataHalt (q : BitStuffing) (i : Input) : Bool :=
  if !q.enablePrev || !i.stuffEnable then false
  else if i.bstTrigger then insertStuffBit q i
  else q.dataHaltQ

def step (q : BitStuffing) (i : Input) : BitStuffing where
  enablePrev := i.stuffEnable
  fixedRegQ :=
    if i.stuffEnable then
      if !q.enablePrev then false else if i.bstTrigger then i.fixedStuff else q.fixedRegQ
    else q.fixedRegQ
  bstCtrQ :=
    if i.stuffEnable then
      if !q.enablePrev then 0
      else if i.bstTrigger && stuffLvlReached q && !i.fixedStuff then (q.bstCtrQ + 1) % 8
      else q.bstCtrQ
    else q.bstCtrQ
  sameBitsQ := if i.stuffEnable then sameBitsD q i else 1
  dataOut :=
    if i.bstTrigger then
      if i.stuffEnable && insertStuffBit q i then !q.dataOut else i.dataIn
    else q.dataOut
  dataHaltQ := dataHalt q i

end BitStuffing

/-! ## `bit_destuffing` -/

structure BitDestuffing where
  enablePrev : Bool
  fixedPrevQ : Bool
  dstCtrQ : Nat
  sameBitsQ : Nat
  destuffedQ : Bool
  stuffErrQ : Bool
  prevValQ : Bool
  dataOut : Bool
deriving DecidableEq, Repr

namespace BitDestuffing

def reset : BitDestuffing where
  enablePrev := false
  fixedPrevQ := false
  dstCtrQ := 0
  sameBitsQ := 1
  destuffedQ := false
  stuffErrQ := false
  prevValQ := true
  dataOut := true

structure Input where
  dataIn : Bool
  bdsTrigger : Bool
  destuffEnable : Bool
  fixedStuff : Bool

def nonFixToFixChng (q : BitDestuffing) (i : Input) : Bool := i.fixedStuff && !q.fixedPrevQ

def stuffLvlReached (q : BitDestuffing) : Bool := q.sameBitsQ == 5

def discardStuffBit (q : BitDestuffing) (i : Input) : Bool :=
  nonFixToFixChng q i || stuffLvlReached q

def stuffRuleViolate (q : BitDestuffing) (i : Input) : Bool :=
  discardStuffBit q i && q.prevValQ == i.dataIn && i.destuffEnable

def sameBitsErase (q : BitDestuffing) (i : Input) : Bool :=
  !i.destuffEnable || !q.enablePrev ||
    (i.bdsTrigger && (discardStuffBit q i || (i.dataIn != q.prevValQ && !i.fixedStuff)))

def step (q : BitDestuffing) (i : Input) : BitDestuffing where
  enablePrev := i.destuffEnable
  fixedPrevQ :=
    if i.destuffEnable then
      if !q.enablePrev then false else if i.bdsTrigger then i.fixedStuff else q.fixedPrevQ
    else q.fixedPrevQ
  dstCtrQ :=
    if i.destuffEnable then
      if !q.enablePrev then 0
      else if i.bdsTrigger && stuffLvlReached q && !i.fixedStuff then (q.dstCtrQ + 1) % 8
      else q.dstCtrQ
    else q.dstCtrQ
  sameBitsQ :=
    if sameBitsErase q i then 1
    else if i.bdsTrigger then (q.sameBitsQ + 1) % 8
    else q.sameBitsQ
  destuffedQ :=
    if !i.destuffEnable then false
    else if i.bdsTrigger then discardStuffBit q i
    else q.destuffedQ
  stuffErrQ := i.bdsTrigger && stuffRuleViolate q i
  prevValQ :=
    if i.bdsTrigger then (if nonFixToFixChng q i then true else i.dataIn) else q.prevValQ
  dataOut := if i.bdsTrigger then i.dataIn else q.dataOut

end BitDestuffing

/-! ## `bit_err_detector` -/

structure BitErrDetector where
  bitErrQ : Bool
  bitErrSspCaptQ : Bool
deriving DecidableEq, Repr

namespace BitErrDetector

def reset : BitErrDetector where
  bitErrQ := false
  bitErrSspCaptQ := false

structure Input where
  mrSettingsEna : Bool
  bitErrEnable : Bool
  spControl : ProtocolControl.SpControl
  rxTrigger : Bool
  sampleSec : Bool
  dataTx : Bool
  dataTxDelayed : Bool
  dataRxSynced : Bool

def bitErrSspCondition (i : Input) : Bool :=
  i.dataTxDelayed != i.dataRxSynced && i.sampleSec && i.bitErrEnable

def bitErrSspValid (q : BitErrDetector) (i : Input) : Bool :=
  i.spControl == .secondarySample && i.rxTrigger && (q.bitErrSspCaptQ || bitErrSspCondition i)

def bitErrNormValid (i : Input) : Bool :=
  i.spControl != .secondarySample && i.dataRxSynced != i.dataTx && i.rxTrigger && i.bitErrEnable

/-- An error seen in a secondary sample point is reported in the next regular
sample point. -/
def step (q : BitErrDetector) (i : Input) : BitErrDetector where
  bitErrQ := i.mrSettingsEna && (bitErrSspValid q i || bitErrNormValid i)
  bitErrSspCaptQ := !i.rxTrigger && (bitErrSspCondition i || q.bitErrSspCaptQ)

end BitErrDetector

/-! ## `rx_shift_reg` -/

structure RxFields where
  rxShiftRegQ : BitVec 32
  recIdent : BitVec 29
  recIdentType : Bool
  recIsRtrI : Bool
  recFrameType : Bool
  recEsi : Bool
  recBrs : Bool
  recDlc : BitVec 4
  rxStuffCount : BitVec 4
deriving DecidableEq, Repr

namespace RxFields

def cleared : RxFields where
  rxShiftRegQ := 0
  recIdent := 0
  recIdentType := false
  recIsRtrI := false
  recFrameType := false
  recEsi := false
  recBrs := false
  recDlc := 0
  rxStuffCount := 0

def recIsRtr (f : RxFields) : Bool := f.recIsRtrI && !f.recFrameType

def recDlcD (f : RxFields) (rxDataNbs : Bool) : BitVec 4 :=
  f.rxShiftRegQ.extractLsb' 0 3 ++ BitVec.ofBool rxDataNbs

end RxFields

/-- Byte `k` of `shift_reg_byte`, which shifts in either the bit line or the top
bit of the byte below. -/
def shiftByte (reg : BitVec 32) (k : Nat) (ena inSel bit : Bool) : BitVec 8 :=
  let byte := reg.extractLsb' (8 * k) 8
  let below := if k == 0 || inSel then bit else reg.getLsbD (8 * k - 1)
  if ena then byte.extractLsb' 0 7 ++ BitVec.ofBool below else byte

def shiftRegByte (reg : BitVec 32) (ena : Nat → Bool) (inSel bit : Bool) : BitVec 32 :=
  shiftByte reg 3 (ena 3) inSel bit ++ shiftByte reg 2 (ena 2) inSel bit ++
    shiftByte reg 1 (ena 1) inSel bit ++ shiftByte reg 0 (ena 0) inSel bit

/-- The fields are cleared asynchronously by the registered `rx_clear`. -/
structure RxShiftReg where
  clearQ : Bool
  fields : RxFields
deriving DecidableEq, Repr

namespace RxShiftReg

def reset : RxShiftReg where
  clearQ := true
  fields := .cleared

/-- What the entity drives in the current cycle. -/
def view (q : RxShiftReg) : RxFields := if q.clearQ then .cleared else q.fields

open ProtocolControl in
def step (q : RxShiftReg) (o : Out) (rxTrigger rxDataNbs : Bool) : RxShiftReg where
  clearQ := o.rxClearI && rxTrigger
  fields :=
    if q.clearQ then .cleared
    else
      let f := q.fields
      let sr := f.rxShiftRegQ
      { rxShiftRegQ :=
          shiftRegByte sr (fun k => o.rxShiftEna k && rxTrigger) o.rxShiftInSel rxDataNbs
        recIdent :=
          (if o.rxStoreBaseIdI && rxTrigger then sr.extractLsb' 0 10 ++ BitVec.ofBool rxDataNbs
            else f.recIdent.extractLsb' 18 11) ++
          (if o.rxStoreExtIdI && rxTrigger then sr.extractLsb' 0 17 ++ BitVec.ofBool rxDataNbs
            else f.recIdent.extractLsb' 0 18)
        recIdentType := if o.rxStoreIdeI && rxTrigger then rxDataNbs else f.recIdentType
        recIsRtrI := if o.rxStoreRtrI && rxTrigger then rxDataNbs else f.recIsRtrI
        recFrameType := if o.rxStoreEdlI && rxTrigger then rxDataNbs else f.recFrameType
        recEsi := if o.rxStoreEsiI && rxTrigger then rxDataNbs else f.recEsi
        recBrs := if o.rxStoreBrsI && rxTrigger then rxDataNbs else f.recBrs
        recDlc := if o.rxStoreDlcI && rxTrigger then f.recDlcD rxDataNbs else f.recDlc
        rxStuffCount :=
          if o.rxStoreStuffCountI && rxTrigger then f.recDlcD rxDataNbs else f.rxStuffCount }

end RxShiftReg

/-! ## `tx_shift_reg` -/

/-- `t_frame_test_w`. -/
structure FrameTest where
  fstc : Bool
  fcrc : Bool
  sdlc : Bool
  tprm : BitVec 5
deriving DecidableEq, Repr

namespace TxShiftReg

structure Input where
  txTrigger : Bool
  txShiftEna : Bool
  mrModeTstm : Bool
  crcSrc : ProtocolControl.CrcSrc
  crc15 : BitVec 15
  crc17 : BitVec 17
  crc21 : BitVec 21
  bstCtr : Nat
  tranIdentifier : BitVec 29
  tranFrameTest : FrameTest
  tranWord : BitVec 32
  tranDlc : BitVec 4

def greyCode (ctr : Nat) : BitVec 3 :=
  match ctr with
  | 1 => 0b001
  | 2 => 0b011
  | 3 => 0b010
  | 4 => 0b110
  | 5 => 0b111
  | 6 => 0b101
  | 7 => 0b100
  | _ => 0b000

def stuffCount (ctr : Nat) : BitVec 4 :=
  let grey := greyCode ctr
  grey ++ BitVec.ofBool (grey.getLsbD 0 ^^ grey.getLsbD 1 ^^ grey.getLsbD 2)

def txCrc (i : Input) : BitVec 21 :=
  match i.crcSrc with
  | .crc15 => i.crc15 ++ 0#6
  | .crc17 => i.crc17 ++ 0#4
  | .crc21 => i.crc21

/-- One bit, counted from the top, is flipped in test mode. -/
def flipMask (i : Input) : BitVec 21 :=
  if i.mrModeTstm && decide (i.tranFrameTest.tprm.toNat ≤ 20) then
    1#21 <<< (20 - i.tranFrameTest.tprm.toNat)
  else 0

def txCrcFlipped (i : Input) : BitVec 21 :=
  if i.tranFrameTest.fcrc then txCrc i ^^^ flipMask i else txCrc i

def stuffCountFlipped (i : Input) : BitVec 4 :=
  if i.tranFrameTest.fstc then stuffCount i.bstCtr ^^^ (flipMask i).extractLsb' 17 4
  else stuffCount i.bstCtr

def tranDlcSwapped (i : Input) : BitVec 4 :=
  if i.tranFrameTest.sdlc && i.mrModeTstm then i.tranFrameTest.tprm.extractLsb' 0 4
  else i.tranDlc

/-- `endian_swapper` with four groups of eight bits. -/
def tranWordSwapped (w : BitVec 32) : BitVec 32 :=
  w.extractLsb' 0 8 ++ w.extractLsb' 8 8 ++ w.extractLsb' 16 8 ++ w.extractLsb' 24 8

open ProtocolControl in
/-- `tx_sr_pload_val` when one of the load signals is set. -/
def pload (o : Out) (i : Input) : Option (BitVec 32) :=
  if o.txLoadBaseIdI then some (i.tranIdentifier.extractLsb' 18 11 ++ 0#21)
  else if o.txLoadExtIdI then some (i.tranIdentifier.extractLsb' 0 18 ++ 0#14)
  else if o.txLoadDlcI then some (tranDlcSwapped i ++ 0#28)
  else if o.txLoadDataWordI then some (tranWordSwapped i.tranWord)
  else if o.txLoadStuffCountI then some (stuffCountFlipped i ++ 0#28)
  else if o.txLoadCrcI then some (txCrcFlipped i ++ 0#11)
  else none

open ProtocolControl in
def step (q : BitVec 32) (o : Out) (rxTrigger : Bool) (i : Input) : BitVec 32 :=
  match if rxTrigger then pload o i else none with
  | some v => v
  | none =>
    if i.txShiftEna && i.txTrigger then q.extractLsb' 0 31 ++ 0#1 else q

/-- `tx_data_nbs`. -/
def txDataNbs (q : BitVec 32) (errFrmReq isErrActive txDominant txShiftEna : Bool) : Bool :=
  if errFrmReq then !isErrActive
  else if txDominant then false
  else if txShiftEna then q.getLsbD 31
  else true

end TxShiftReg
