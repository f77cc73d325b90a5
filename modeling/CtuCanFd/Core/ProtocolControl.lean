import Mathlib.Logic.Function.Basic

/-!
# Protocol control FSM

`protocol_control_fsm`, one step per clock cycle of `clk_sys`. Dominant is
`false` and recessive is `true`. The control signals that only reach the CRC
calculation, fault confinement, the reintegration and retransmission counters,
the prescaler or the capture registers are left out; what those blocks answer
(CRC comparison, fault confinement state, limits) comes in as inputs.
-/

namespace ProtocolControl

inductive PcState where
  | off
  | integrating
  | sof
  | baseId
  | rtrSrrR1
  | ide
  | extId
  | rtrR1
  | edlR1
  | r0Ext
  | r0Fd
  | edlR0
  | brs
  | esi
  | dlc
  | data
  | stuffCount
  | crc
  | crcDelim
  | ack
  | ackFd1
  | ackFd2
  | ackDelim
  | eof
  | intermission
  | suspend
  | idle
  | reintegratingWait
  | reintegrating
  | actErrFlag
  | pasErrFlag
  | errDelimWait
  | errFlagTooLong
  | ovrFlagTooLong
  | errDelim
  | ovrFlag
  | ovrDelimWait
  | ovrDelim
deriving DecidableEq, Repr

/-- `sp_control`: which sample point the node uses. -/
inductive SpControl where
  | nominalSample
  | dataSample
  | secondarySample
deriving DecidableEq, Repr

/-- `mr_ssp_cfg_ssp_src`. -/
inductive SspSrc where
  | measNOffset
  | noSsp
  | offset
deriving DecidableEq, Repr

inductive CrcSrc where
  | crc15
  | crc17
  | crc21
deriving DecidableEq, Repr

/-- Bits of the MODE, SETTINGS and SSP_CFG registers the CAN core reads. -/
structure Config where
  mrSettingsEna : Bool
  mrSettingsIlbp : Bool
  mrSettingsPex : Bool
  mrSettingsNisofd : Bool
  mrSettingsRtrle : Bool
  mrModeRom : Bool
  mrModeBmm : Bool
  mrModeFde : Bool
  mrModeAcf : Bool
  mrModeSam : Bool
  mrModeStm : Bool
  mrModeTstm : Bool
  mrSspCfgSspSrc : SspSrc
deriving DecidableEq, Repr

/-- `txtb_hw_cmd`: commands of protocol control for the TXT buffers. -/
structure TxtbHwCmd where
  lock : Bool := false
  valid : Bool := false
  err : Bool := false
  arbl : Bool := false
  failed : Bool := false
deriving DecidableEq, Repr

structure Input where
  rxTrigger : Bool
  errFrmReq : Bool
  rxDataNbs : Bool
  txDataWbs : Bool
  syncEdge : Bool
  ctrlCtrZero : Bool
  ctrlCtrOne : Bool
  ctrlCountedByte : Bool
  ctrlCountedByteIndex : Nat
  ctrlCtrMemIndex : Nat
  isTransmitter : Bool
  isReceiver : Bool
  isErrActive : Bool
  isErrPassive : Bool
  isBusOff : Bool
  tranFrameValid : Bool
  tranDlc : BitVec 4
  tranIsRtr : Bool
  tranIdentType : Bool
  tranFrameType : Bool
  tranBrs : Bool
  recDlcD : BitVec 4
  recDlcQ : BitVec 4
  recIsRtr : Bool
  recFrameType : Bool
  crcMatch : Bool
  retrLimitReached : Bool
  reintegCtrExpired : Bool
  mrCommandErcrst : Bool

/-- Registers of the entity. -/
structure Regs where
  currState : PcState
  spControlQ : SpControl
  mrCommandErcrstQ : Bool
  storeMetadata : Bool
  storeData : Bool
  recValid : Bool
  recAbort : Bool
  recLbpfQ : Bool
  recIvldQ : Bool
  txtbHwCmdQ : TxtbHwCmd
  stuffEnable : Bool
  destuffEnable : Bool
  txtbPtrQ : Nat
  txtbClkEnQ : Bool
  txFrameNoSofQ : Bool
  rxDataNbsPrev : Bool
deriving DecidableEq, Repr

def reset : Regs where
  currState := .off
  spControlQ := .nominalSample
  mrCommandErcrstQ := false
  storeMetadata := false
  storeData := false
  recValid := false
  recAbort := false
  recLbpfQ := false
  recIvldQ := false
  txtbHwCmdQ := {}
  stuffEnable := false
  destuffEnable := false
  txtbPtrQ := 0
  txtbClkEnQ := false
  txFrameNoSofQ := false
  rxDataNbsPrev := true

/-! ## Combinational signals -/

/-- `dlc_decoder`. -/
def dlcDecoder (dlc : BitVec 4) (frameType : Bool) : Nat :=
  let dlcInt := dlc.toNat
  if dlcInt ≤ 8 then dlcInt
  else if !frameType then 8
  else
    match dlcInt with
    | 9 => 12
    | 10 => 16
    | 11 => 20
    | 12 => 24
    | 13 => 32
    | 14 => 48
    | _ => 64

def tranFrameTypeI (c : Config) (i : Input) : Bool := i.tranFrameType && c.mrModeFde

def noDataTransmitter (c : Config) (i : Input) : Bool :=
  i.tranDlc == 0 || (i.tranIsRtr && !tranFrameTypeI c i)

def noDataReceiver (i : Input) : Bool := i.recIsRtr || i.recDlcD == 0

def noDataField (c : Config) (i : Input) : Bool :=
  (i.isTransmitter && noDataTransmitter c i) || (i.isReceiver && noDataReceiver i)

def goToSuspend (i : Input) : Bool := i.isErrPassive && i.isTransmitter

def ideIsArbitration (i : Input) : Bool := i.tranIdentType || i.isReceiver

def arbitrationLostCondition (i : Input) : Bool :=
  i.isTransmitter && i.txDataWbs && !i.rxDataNbs && i.rxTrigger

def txFailed (c : Config) (i : Input) : Bool := c.mrSettingsRtrle && i.retrLimitReached

def isFdFrame (c : Config) (i : Input) : Bool :=
  (i.isTransmitter && tranFrameTypeI c i) || (i.isReceiver && i.recFrameType)

def goToStuffCount (c : Config) (i : Input) : Bool := !c.mrSettingsNisofd && isFdFrame c i

def frameStart (i : Input) : Bool := (i.tranFrameValid && !goToSuspend i) || !i.rxDataNbs

def txDominantAck (c : Config) (i : Input) : Bool :=
  i.crcMatch && ((i.isReceiver && !c.mrModeAcf) || (i.isTransmitter && c.mrModeSam))

/-- States in which an error frame request does not unlock the TXT buffer again. -/
def blockTxtbUnlock : PcState → Bool
  | .actErrFlag | .pasErrFlag | .errDelimWait | .errDelim | .ovrFlag | .ovrDelimWait
  | .ovrDelim => true
  | _ => false

def pexOnFdfEnable (c : Config) : Bool := !c.mrModeFde && c.mrSettingsPex

def pexOnResEnable (c : Config) : Bool := c.mrModeFde && c.mrSettingsPex

def tranDataLength (c : Config) (i : Input) : Nat := dlcDecoder i.tranDlc (tranFrameTypeI c i)

def recDataLength (i : Input) : Nat := dlcDecoder i.recDlcQ i.recFrameType

def recDataLengthC (i : Input) : Nat := dlcDecoder i.recDlcD i.recFrameType

/-- Last TXT buffer word that carries data of a frame of this length. -/
def txtbNumWordsGate : Nat → Nat
  | 1 | 2 | 3 | 4 => 4
  | 5 | 6 | 7 | 8 => 5
  | 12 => 6
  | 16 => 7
  | 20 => 8
  | 24 => 9
  | 32 => 11
  | 48 => 15
  | 64 => 19
  | _ => 0

def crcUse21 (c : Config) (i : Input) : Bool :=
  (i.isTransmitter && tranFrameTypeI c i && decide (16 < tranDataLength c i)) ||
    (i.isReceiver && i.recFrameType && decide (16 < recDataLength i))

def crcUse17 (c : Config) (i : Input) : Bool := isFdFrame c i && !crcUse21 c i

def crcSrc (c : Config) (i : Input) : CrcSrc :=
  if crcUse21 c i then .crc21 else if crcUse17 c i then .crc17 else .crc15

def crcLength (c : Config) (i : Input) : Nat :=
  match crcSrc c i with
  | .crc15 => 14
  | .crc17 => 16
  | .crc21 => 20

def dataLengthC (c : Config) (i : Input) : Nat :=
  if i.isTransmitter then tranDataLength c i else recDataLengthC i

/-- Number of data bits minus one, in the 9 bits of the control counter. -/
def dataLengthBitsC (c : Config) (i : Input) : Nat := (dataLengthC c i * 8 + 1023) % 1024 % 512

/-! ## `next_state_proc` -/

def nextState (c : Config) (q : Regs) (i : Input) : PcState :=
  if i.errFrmReq then
    if !c.mrModeRom then
      if i.isErrActive then .actErrFlag else .pasErrFlag
    else .integrating
  else
    match q.currState with
    | .off => .integrating
    | .integrating => if i.ctrlCtrZero then .idle else .integrating
    | .sof => .baseId
    | .baseId => if i.ctrlCtrZero then .rtrSrrR1 else .baseId
    | .rtrSrrR1 => .ide
    | .ide => if !i.rxDataNbs then .edlR0 else .extId
    | .extId => if i.ctrlCtrZero then .rtrR1 else .extId
    | .rtrR1 => .edlR1
    | .edlR1 =>
      if !i.rxDataNbs then .r0Ext
      else if pexOnFdfEnable c then .integrating
      else .r0Fd
    | .r0Ext => .dlc
    | .r0Fd => if i.rxDataNbs && pexOnResEnable c then .integrating else .brs
    | .edlR0 =>
      if !i.rxDataNbs then .dlc
      else if pexOnFdfEnable c then .integrating
      else .r0Fd
    | .brs => .esi
    | .esi => .dlc
    | .dlc =>
      if i.ctrlCtrZero then
        if noDataField c i then
          if goToStuffCount c i then .stuffCount else .crc
        else .data
      else .dlc
    | .data =>
      if i.ctrlCtrZero then
        if goToStuffCount c i then .stuffCount else .crc
      else .data
    | .stuffCount => if i.ctrlCtrZero then .crc else .stuffCount
    | .crc => if i.ctrlCtrZero then .crcDelim else .crc
    | .crcDelim => if isFdFrame c i then .ackFd1 else .ack
    | .ack => .ackDelim
    | .ackFd1 => .ackFd2
    | .ackFd2 => .ackDelim
    | .ackDelim => .eof
    | .eof =>
      if i.ctrlCtrZero then
        if i.rxDataNbs then .intermission
        else if i.isReceiver then
          if !c.mrModeRom then .ovrFlag else .integrating
        else .eof
      else .eof
    | .intermission =>
      if i.isBusOff then .reintegratingWait
      else if i.ctrlCtrZero then
        if !i.rxDataNbs then .baseId
        else if goToSuspend i then .suspend
        else if i.tranFrameValid then .sof
        else .idle
      else if !i.rxDataNbs then
        if !c.mrModeRom then .ovrFlag else .integrating
      else .intermission
    | .suspend =>
      if !i.rxDataNbs then .baseId
      else if i.ctrlCtrZero then
        if i.tranFrameValid then .sof else .idle
      else .suspend
    | .idle =>
      if i.isBusOff then .reintegratingWait
      else if !i.rxDataNbs then .baseId
      else if i.tranFrameValid then .sof
      else .idle
    | .reintegratingWait =>
      if q.mrCommandErcrstQ then .reintegrating else .reintegratingWait
    | .reintegrating =>
      if i.reintegCtrExpired && i.ctrlCtrZero then .idle else .reintegrating
    | .actErrFlag => if i.ctrlCtrZero then .errDelimWait else .actErrFlag
    | .pasErrFlag => if i.ctrlCtrZero then .errDelimWait else .pasErrFlag
    | .errDelimWait =>
      if i.rxDataNbs then .errDelim
      else if i.ctrlCtrZero then .errFlagTooLong
      else .errDelimWait
    | .errFlagTooLong => if i.rxDataNbs then .errDelim else .errFlagTooLong
    | .ovrFlagTooLong => if i.rxDataNbs then .ovrDelim else .ovrFlagTooLong
    | .errDelim =>
      if i.ctrlCtrZero then
        if !i.rxDataNbs then .ovrFlag else .intermission
      else .errDelim
    | .ovrFlag => if i.ctrlCtrZero then .ovrDelimWait else .ovrFlag
    | .ovrDelimWait =>
      if i.rxDataNbs then .ovrDelim
      else if i.ctrlCtrZero then .ovrFlagTooLong
      else .ovrDelimWait
    | .ovrDelim =>
      if i.ctrlCtrZero then
        if !i.rxDataNbs then .ovrFlag else .intermission
      else .ovrDelim

/-! ## `curr_state_proc` -/

/-- Signals driven by `curr_state_proc`, at their default values unless a state
drives them. -/
structure Out where
  tickStateReg : Bool := false
  ctrlCtrPloadI : Bool := false
  ctrlCtrPloadVal : Nat := 0
  ctrlCtrPloadUnaliged : Bool := false
  ctrlCtrEna : Bool := false
  complCtrEnaI : Bool := false
  storeMetadataD : Bool := false
  storeDataD : Bool := false
  recValidD : Bool := false
  sofPulseI : Bool := false
  txtbHwCmdD : TxtbHwCmd := {}
  txtbPtrD : Nat := 0
  rxStoreBaseIdI : Bool := false
  rxStoreExtIdI : Bool := false
  rxStoreIdeI : Bool := false
  rxStoreRtrI : Bool := false
  rxStoreEdlI : Bool := false
  rxStoreDlcI : Bool := false
  rxStoreEsiI : Bool := false
  rxStoreBrsI : Bool := false
  rxStoreStuffCountI : Bool := false
  rxShiftEna : Nat → Bool := fun _ => false
  rxShiftInSel : Bool := false
  rxClearI : Bool := false
  txLoadBaseIdI : Bool := false
  txLoadExtIdI : Bool := false
  txLoadDlcI : Bool := false
  txLoadDataWordI : Bool := false
  txLoadStuffCountI : Bool := false
  txLoadCrcI : Bool := false
  txShiftEnaI : Bool := false
  txDominant : Bool := false
  txFrameNoSofD : Bool := false
  crcCheck : Bool := false
  crcClearMatchFlag : Bool := false
  formErrI : Bool := false
  ackErrI : Bool := false
  crcErrI : Bool := false
  bitErrArbI : Bool := false
  bitErrDisable : Bool := false
  bitErrDisableReceiver : Bool := false
  arbitrationLostI : Bool := false
  setTransmitterI : Bool := false
  setReceiverI : Bool := false
  setIdleI : Bool := false
  spControlSwitchData : Bool := false
  spControlSwitchNominal : Bool := false
  brShiftedI : Bool := false
  fixedStuff : Bool := false
  stuffEnableSet : Bool := false
  stuffEnableClear : Bool := false
  destuffEnableSet : Bool := false
  destuffEnableClear : Bool := false
  clrBusOffRstFlg : Bool := false

/-- Command for the TXT buffer when arbitration is lost. -/
def arbitrationCmd (c : Config) (i : Input) (lost : Bool) : TxtbHwCmd :=
  { failed := lost && txFailed c i, arbl := lost && !txFailed c i }

/-- Command for the TXT buffer when an error frame is requested. -/
def errorCmd (c : Config) (q : Regs) (i : Input) : TxtbHwCmd :=
  let unlock := i.isTransmitter && !blockTxtbUnlock q.currState
  { failed := unlock && txFailed c i, err := unlock && !txFailed c i }

/-- The branch of `err_frm_req = '1'`, common to all states. -/
def outErrFrm (c : Config) (q : Regs) (i : Input) : Out :=
  let shifted := q.spControlQ == .dataSample || q.spControlQ == .secondarySample
  { tickStateReg := true
    ctrlCtrPloadI := true
    ctrlCtrPloadVal := if !c.mrModeRom then 5 else 10
    setIdleI := c.mrModeRom
    crcClearMatchFlag := true
    destuffEnableClear := true
    stuffEnableClear := true
    spControlSwitchNominal := shifted
    brShiftedI := shifted
    txtbHwCmdD := errorCmd c q i }

/-- `s_pc_off` to `s_pc_rtr_r1`. -/
def outOff (c : Config) (i : Input) : Out :=
  if c.mrSettingsEna then
    { tickStateReg := true
      ctrlCtrPloadI := true
      bitErrDisable := true
      ctrlCtrPloadVal := if !i.rxDataNbs then 10 else 9 }
  else {}

def outIntegrating (c : Config) (i : Input) : Out :=
  { bitErrDisable := true
    ctrlCtrEna := true
    ctrlCtrPloadVal := if !i.rxDataNbs || i.syncEdge then 10 else 0
    ctrlCtrPloadI := !i.rxDataNbs
    ctrlCtrPloadUnaliged := i.syncEdge && !(!c.mrSettingsPex && !c.mrModeFde)
    tickStateReg := i.ctrlCtrZero
    setIdleI := i.ctrlCtrZero }

def outSof (i : Input) : Out :=
  { tickStateReg := true
    bitErrDisable := true
    ctrlCtrPloadI := true
    ctrlCtrPloadVal := 10
    txLoadBaseIdI := true
    sofPulseI := true
    txDominant := true
    formErrI := i.rxDataNbs }

def outBaseId (c : Config) (i : Input) : Out :=
  let lost := arbitrationLostCondition i
  { bitErrDisable := true
    ctrlCtrEna := true
    rxShiftEna := fun _ => true
    txShiftEnaI := true
    arbitrationLostI := lost
    stuffEnableClear := lost
    txtbHwCmdD := arbitrationCmd c i lost
    tickStateReg := i.ctrlCtrZero
    rxStoreBaseIdI := i.ctrlCtrZero
    bitErrArbI := !i.txDataWbs && i.rxDataNbs }

def outRtrSrrR1 (c : Config) (i : Input) : Out :=
  let lost := arbitrationLostCondition i
  { tickStateReg := true
    bitErrDisable := true
    rxStoreRtrI := true
    arbitrationLostI := lost
    stuffEnableClear := lost
    txtbHwCmdD := arbitrationCmd c i lost
    txDominant :=
      i.isTransmitter && !i.tranIdentType && (tranFrameTypeI c i || !i.tranIsRtr)
    bitErrArbI := !i.txDataWbs && i.rxDataNbs }

def outIde (c : Config) (i : Input) : Out :=
  let lost := ideIsArbitration i && arbitrationLostCondition i
  { tickStateReg := true
    rxStoreIdeI := true
    ctrlCtrPloadI := i.rxDataNbs
    ctrlCtrPloadVal := if i.rxDataNbs then 17 else 0
    txLoadExtIdI := i.rxDataNbs
    arbitrationLostI := lost
    stuffEnableClear := lost
    txtbHwCmdD := arbitrationCmd c i lost
    bitErrDisable := ideIsArbitration i
    bitErrArbI := !i.txDataWbs && i.rxDataNbs
    txDominant := i.isTransmitter && !i.tranIdentType }

def outExtId (c : Config) (i : Input) : Out :=
  let lost := arbitrationLostCondition i
  { ctrlCtrEna := true
    rxShiftEna := fun _ => true
    txShiftEnaI := true
    bitErrDisable := true
    arbitrationLostI := lost
    stuffEnableClear := lost
    txtbHwCmdD := arbitrationCmd c i lost
    tickStateReg := i.ctrlCtrZero
    rxStoreExtIdI := i.ctrlCtrZero
    bitErrArbI := !i.txDataWbs && i.rxDataNbs }

def outRtrR1 (c : Config) (i : Input) : Out :=
  let lost := arbitrationLostCondition i
  { tickStateReg := true
    bitErrDisable := true
    rxStoreRtrI := true
    arbitrationLostI := lost
    stuffEnableClear := lost
    txtbHwCmdD := arbitrationCmd c i lost
    txDominant := i.isTransmitter && (tranFrameTypeI c i || !i.tranIsRtr)
    bitErrArbI := !i.txDataWbs && i.rxDataNbs }

/-- `s_pc_edl_r1` to `s_pc_dlc`. -/
def outEdlR1 (c : Config) (i : Input) : Out :=
  let exception := i.rxDataNbs && !c.mrModeFde
  { tickStateReg := true
    rxStoreEdlI := true
    bitErrDisableReceiver := true
    txDominant := i.isTransmitter && !tranFrameTypeI c i
    formErrI := exception && !c.mrSettingsPex
    destuffEnableClear := exception && c.mrSettingsPex
    ctrlCtrPloadI := exception && c.mrSettingsPex
    ctrlCtrPloadVal := if exception && c.mrSettingsPex then 10 else 0 }

def outR0Ext (i : Input) : Out :=
  { tickStateReg := true
    ctrlCtrPloadI := true
    ctrlCtrPloadVal := 3
    txLoadDlcI := true
    bitErrDisableReceiver := true
    txDominant := i.isTransmitter }

def outR0Fd (c : Config) (i : Input) : Out :=
  { tickStateReg := true
    bitErrDisableReceiver := true
    txDominant := i.isTransmitter
    formErrI := i.rxDataNbs && !c.mrSettingsPex
    destuffEnableClear := i.rxDataNbs && c.mrSettingsPex
    ctrlCtrPloadI := i.rxDataNbs && c.mrSettingsPex
    ctrlCtrPloadVal := if i.rxDataNbs && c.mrSettingsPex then 10 else 0 }

def outEdlR0 (c : Config) (i : Input) : Out :=
  let exception := i.rxDataNbs && !c.mrModeFde
  { tickStateReg := true
    rxStoreEdlI := true
    bitErrDisableReceiver := true
    txLoadDlcI := !i.rxDataNbs
    txDominant := i.isTransmitter && !tranFrameTypeI c i
    formErrI := exception && !c.mrSettingsPex
    destuffEnableClear := exception && c.mrSettingsPex
    ctrlCtrPloadI := !i.rxDataNbs || (exception && c.mrSettingsPex)
    ctrlCtrPloadVal :=
      if exception && c.mrSettingsPex then 10 else if !i.rxDataNbs then 3 else 0 }

def outBrs (i : Input) : Out :=
  let switch := i.rxDataNbs && i.rxTrigger
  { tickStateReg := true
    rxStoreBrsI := true
    bitErrDisableReceiver := true
    txDominant := i.isTransmitter && !i.tranBrs
    spControlSwitchData := switch
    brShiftedI := switch }

def outEsi (i : Input) : Out :=
  { tickStateReg := true
    ctrlCtrPloadI := true
    ctrlCtrPloadVal := 3
    txLoadDlcI := true
    rxStoreEsiI := true
    bitErrDisableReceiver := true
    txDominant := i.isTransmitter && i.isErrActive }

def outDlc (c : Config) (i : Input) : Out :=
  { ctrlCtrEna := true
    rxShiftEna := fun _ => true
    txShiftEnaI := true
    bitErrDisableReceiver := true
    txtbPtrD := if i.isTransmitter then 4 else 0
    tickStateReg := i.ctrlCtrZero
    ctrlCtrPloadI := i.ctrlCtrZero
    ctrlCtrPloadVal :=
      if i.ctrlCtrZero then
        if noDataField c i then
          if goToStuffCount c i then 3 else crcLength c i
        else dataLengthBitsC c i
      else 0
    txLoadStuffCountI := i.ctrlCtrZero && noDataField c i && goToStuffCount c i
    txLoadCrcI := i.ctrlCtrZero && noDataField c i && !goToStuffCount c i
    txLoadDataWordI := i.ctrlCtrZero && !noDataField c i
    storeMetadataD := i.ctrlCtrZero
    rxStoreDlcI := i.ctrlCtrZero }

/-- `s_pc_data` to `s_pc_eof`. -/
def outData (c : Config) (i : Input) : Out :=
  let countedWord := i.ctrlCountedByte && i.ctrlCountedByteIndex == 3 && !i.ctrlCtrZero
  { ctrlCtrEna := true
    rxShiftEna := fun k => k == i.ctrlCountedByteIndex
    rxShiftInSel := true
    txShiftEnaI := true
    complCtrEnaI := true
    bitErrDisableReceiver := true
    txtbPtrD := if i.isTransmitter then i.ctrlCtrMemIndex else 0
    tickStateReg := i.ctrlCtrZero
    ctrlCtrPloadI := i.ctrlCtrZero
    ctrlCtrPloadVal :=
      if i.ctrlCtrZero then
        if goToStuffCount c i then 3 else crcLength c i
      else 0
    txLoadStuffCountI := i.ctrlCtrZero && goToStuffCount c i
    txLoadCrcI := i.ctrlCtrZero && !goToStuffCount c i
    storeDataD := i.ctrlCtrZero || countedWord
    txLoadDataWordI := countedWord }

def outStuffCount (c : Config) (i : Input) : Out :=
  { ctrlCtrEna := true
    rxShiftEna := fun _ => true
    txShiftEnaI := true
    bitErrDisableReceiver := true
    fixedStuff := true
    tickStateReg := i.ctrlCtrZero
    ctrlCtrPloadI := i.ctrlCtrZero
    ctrlCtrPloadVal := if i.ctrlCtrZero then crcLength c i else 0
    txLoadCrcI := i.ctrlCtrZero
    rxStoreStuffCountI := i.ctrlCtrZero }

def outCrc (c : Config) (i : Input) : Out :=
  { ctrlCtrEna := true
    rxShiftEna := fun _ => true
    txShiftEnaI := true
    bitErrDisableReceiver := true
    fixedStuff := isFdFrame c i
    tickStateReg := i.ctrlCtrZero }

def outCrcDelim (q : Regs) (i : Input) : Out :=
  let shifted := i.rxTrigger && (q.spControlQ == .dataSample || q.spControlQ == .secondarySample)
  { tickStateReg := true
    bitErrDisable := true
    destuffEnableClear := true
    stuffEnableClear := true
    crcCheck := i.rxTrigger
    formErrI := i.rxTrigger && !i.rxDataNbs
    spControlSwitchNominal := shifted
    brShiftedI := shifted }

def outAck (c : Config) (i : Input) : Out :=
  { tickStateReg := true
    txDominant := txDominantAck c i
    bitErrDisable := !txDominantAck c i
    ackErrI := i.isTransmitter && !c.mrModeStm && i.rxDataNbs }

def outAckFd1 (c : Config) (i : Input) : Out :=
  { tickStateReg := true
    txDominant := txDominantAck c i
    bitErrDisable := !txDominantAck c i }

def outAckFd2 (c : Config) (q : Regs) (i : Input) : Out :=
  { tickStateReg := true
    bitErrDisable := true
    ackErrI := i.isTransmitter && !c.mrModeStm && i.rxDataNbs && q.rxDataNbsPrev }

def outAckDelim (i : Input) : Out :=
  { tickStateReg := true
    ctrlCtrPloadI := true
    ctrlCtrPloadVal := 6
    bitErrDisable := true
    formErrI := !i.rxDataNbs
    crcErrI := i.isReceiver && !i.crcMatch }

def outEof (c : Config) (i : Input) : Out :=
  { ctrlCtrEna := true
    bitErrDisable := true
    tickStateReg := i.ctrlCtrZero
    ctrlCtrPloadI := i.ctrlCtrZero
    ctrlCtrPloadVal :=
      if i.ctrlCtrZero then
        if i.rxDataNbs then 2
        else if i.isReceiver then
          if !c.mrModeRom then 5 else 10
        else 0
      else 0
    txtbHwCmdD := { valid := i.ctrlCtrZero && i.rxDataNbs && i.isTransmitter }
    setIdleI := i.ctrlCtrZero && !i.rxDataNbs && i.isReceiver && c.mrModeRom
    crcClearMatchFlag := i.ctrlCtrZero
    recValidD := i.ctrlCtrOne && i.rxDataNbs
    formErrI := !i.rxDataNbs && (!i.ctrlCtrZero || i.isTransmitter) }

/-- `s_pc_intermission` to `s_pc_reintegrating`. -/
def outIntermission (c : Config) (i : Input) : Out :=
  let last := i.ctrlCtrZero && !i.isBusOff
  let overload := !last && !i.rxDataNbs && !i.isBusOff
  let transmit := last && i.tranFrameValid && !goToSuspend i
  { ctrlCtrEna := true
    bitErrDisable := true
    tickStateReg := i.isBusOff || last || overload
    ctrlCtrPloadI := last || overload
    ctrlCtrPloadVal :=
      if last then
        if !i.rxDataNbs then 10 else 7
      else if overload then
        if !c.mrModeRom then 5 else 10
      else 0
    txLoadBaseIdI := last && !i.rxDataNbs
    sofPulseI := last && !i.rxDataNbs
    txtbHwCmdD := { lock := transmit }
    setTransmitterI := transmit
    stuffEnableSet := transmit
    txFrameNoSofD := transmit && !i.rxDataNbs
    setReceiverI := last && !transmit && !i.rxDataNbs
    destuffEnableSet := last && frameStart i
    rxClearI := last && frameStart i
    setIdleI :=
      (last && i.rxDataNbs && !i.tranFrameValid && !goToSuspend i) || (overload && c.mrModeRom) }

def outSuspend (i : Input) : Out :=
  let transmit := i.rxDataNbs && i.ctrlCtrZero && i.tranFrameValid
  { ctrlCtrEna := true
    bitErrDisable := true
    tickStateReg := !i.rxDataNbs || i.ctrlCtrZero
    ctrlCtrPloadI := !i.rxDataNbs
    ctrlCtrPloadVal := if !i.rxDataNbs then 10 else 0
    txLoadBaseIdI := !i.rxDataNbs
    sofPulseI := !i.rxDataNbs
    setReceiverI := !i.rxDataNbs
    destuffEnableSet := !i.rxDataNbs || transmit
    rxClearI := !i.rxDataNbs || transmit
    setTransmitterI := transmit
    txtbHwCmdD := { lock := transmit }
    stuffEnableSet := transmit
    setIdleI := i.rxDataNbs && i.ctrlCtrZero && !i.tranFrameValid }

def outIdle (i : Input) : Out :=
  let transmit := !i.isBusOff && i.tranFrameValid
  let dominant := !i.isBusOff && !i.rxDataNbs
  { bitErrDisable := true
    tickStateReg := dominant || transmit || i.isBusOff
    ctrlCtrPloadI := dominant
    ctrlCtrPloadVal := if dominant then 10 else 0
    sofPulseI := dominant
    txtbHwCmdD := { lock := transmit }
    setTransmitterI := transmit
    txLoadBaseIdI := transmit
    stuffEnableSet := transmit
    txFrameNoSofD := transmit && !i.rxDataNbs
    setReceiverI := dominant && !transmit
    destuffEnableSet := !i.isBusOff && frameStart i
    rxClearI := !i.isBusOff && frameStart i }

def outReintegratingWait (q : Regs) : Out :=
  { bitErrDisable := true
    tickStateReg := q.mrCommandErcrstQ
    ctrlCtrPloadI := q.mrCommandErcrstQ
    ctrlCtrPloadVal := if q.mrCommandErcrstQ then 10 else 0
    clrBusOffRstFlg := q.mrCommandErcrstQ }

def outReintegrating (c : Config) (i : Input) : Out :=
  let again := i.ctrlCtrZero && !i.reintegCtrExpired
  let expired := i.reintegCtrExpired && i.ctrlCtrZero && i.rxTrigger
  { ctrlCtrEna := true
    bitErrDisable := true
    ctrlCtrPloadVal := if !i.rxDataNbs || i.syncEdge || again then 10 else 0
    ctrlCtrPloadI := !i.rxDataNbs || again
    ctrlCtrPloadUnaliged := i.syncEdge && !(!c.mrSettingsPex && !c.mrModeFde)
    tickStateReg := expired
    setIdleI := expired }

/-- `s_pc_act_err_flag` to `s_pc_ovr_delim`. Active error flag and overload flag,
the two waits for the delimiter, the two too long flags and the two delimiters
drive the same signals. -/
def outFlag (i : Input) : Out :=
  { ctrlCtrEna := true
    txDominant := true
    tickStateReg := i.ctrlCtrZero
    ctrlCtrPloadI := i.ctrlCtrZero
    ctrlCtrPloadVal := if i.ctrlCtrZero then 6 else 0 }

def outPasErrFlag (q : Regs) (i : Input) : Out :=
  let changed := q.rxDataNbsPrev != i.rxDataNbs
  { ctrlCtrEna := true
    bitErrDisable := true
    tickStateReg := !changed && i.ctrlCtrZero
    ctrlCtrPloadI := changed || i.ctrlCtrZero
    ctrlCtrPloadVal := if changed then 4 else if i.ctrlCtrZero then 6 else 0 }

def outDelimWait (i : Input) : Out :=
  { bitErrDisable := true
    ctrlCtrEna := !i.ctrlCtrZero
    tickStateReg := i.ctrlCtrZero || i.rxDataNbs
    ctrlCtrPloadI := i.rxDataNbs
    ctrlCtrPloadVal := if i.rxDataNbs then 6 else 0 }

def outFlagTooLong (i : Input) : Out :=
  { bitErrDisable := true
    ctrlCtrEna := true
    tickStateReg := i.rxDataNbs || i.ctrlCtrZero
    ctrlCtrPloadI := i.rxDataNbs || i.ctrlCtrZero
    ctrlCtrPloadVal := if i.rxDataNbs then 6 else if i.ctrlCtrZero then 7 else 0 }

def outDelim (i : Input) : Out :=
  { bitErrDisable := true
    ctrlCtrEna := true
    tickStateReg := i.ctrlCtrZero
    ctrlCtrPloadI := i.ctrlCtrZero
    ctrlCtrPloadVal :=
      if i.ctrlCtrZero then
        if !i.rxDataNbs then 5 else 2
      else 0
    formErrI := !i.ctrlCtrZero && !i.rxDataNbs }

def outState (c : Config) (q : Regs) (i : Input) : PcState → Out
  | .off => outOff c i
  | .integrating => outIntegrating c i
  | .sof => outSof i
  | .baseId => outBaseId c i
  | .rtrSrrR1 => outRtrSrrR1 c i
  | .ide => outIde c i
  | .extId => outExtId c i
  | .rtrR1 => outRtrR1 c i
  | .edlR1 => outEdlR1 c i
  | .r0Ext => outR0Ext i
  | .r0Fd => outR0Fd c i
  | .edlR0 => outEdlR0 c i
  | .brs => outBrs i
  | .esi => outEsi i
  | .dlc => outDlc c i
  | .data => outData c i
  | .stuffCount => outStuffCount c i
  | .crc => outCrc c i
  | .crcDelim => outCrcDelim q i
  | .ack => outAck c i
  | .ackFd1 => outAckFd1 c i
  | .ackFd2 => outAckFd2 c q i
  | .ackDelim => outAckDelim i
  | .eof => outEof c i
  | .intermission => outIntermission c i
  | .suspend => outSuspend i
  | .idle => outIdle i
  | .reintegratingWait => outReintegratingWait q
  | .reintegrating => outReintegrating c i
  | .actErrFlag | .ovrFlag => outFlag i
  | .pasErrFlag => outPasErrFlag q i
  | .errDelimWait | .ovrDelimWait => outDelimWait i
  | .errFlagTooLong | .ovrFlagTooLong => outFlagTooLong i
  | .errDelim | .ovrDelim => outDelim i

def out (c : Config) (q : Regs) (i : Input) : Out :=
  if i.errFrmReq then outErrFrm c q i else outState c q i q.currState

/-- `rec_lbpf_d`: set in the last bit of the DLC and kept from then on. -/
def recLbpfD (c : Config) (q : Regs) (i : Input) : Bool :=
  if !i.errFrmReq && q.currState == .dlc && i.ctrlCtrZero then
    i.isTransmitter && c.mrSettingsIlbp
  else q.recLbpfQ

/-- `rec_ivld_i`: the received identifier is complete. -/
def recIvldI (q : Regs) (i : Input) : Bool :=
  if i.errFrmReq then q.recIvldQ
  else
    match q.currState with
    | .sof => false
    | .ide => if i.rxDataNbs then q.recIvldQ else true
    | .rtrR1 => true
    | .intermission =>
      if i.ctrlCtrZero && !i.isBusOff && !i.rxDataNbs then false else q.recIvldQ
    | .suspend => if !i.rxDataNbs then false else q.recIvldQ
    | .idle => if !i.isBusOff && !i.rxDataNbs then false else q.recIvldQ
    | _ => q.recIvldQ

/-! ## Outputs gated by the sample point -/

def ctrlSignalUpd (i : Input) : Bool := i.rxTrigger || i.errFrmReq

def ctrlCtrPload (c : Config) (q : Regs) (i : Input) : Bool :=
  if q.currState == .off then (out c q i).ctrlCtrPloadI
  else if ctrlSignalUpd i then (out c q i).ctrlCtrPloadI
  else (out c q i).ctrlCtrPloadUnaliged

def setTransmitter (c : Config) (q : Regs) (i : Input) : Bool :=
  (out c q i).setTransmitterI && i.rxTrigger

def setReceiver (c : Config) (q : Regs) (i : Input) : Bool :=
  (out c q i).setReceiverI && i.rxTrigger

def setIdle (c : Config) (q : Regs) (i : Input) : Bool :=
  (out c q i).setIdleI && ctrlSignalUpd i

def txShiftEna (c : Config) (q : Regs) (i : Input) : Bool :=
  (out c q i).txShiftEnaI && i.isTransmitter

def bitErrEnable (c : Config) (q : Regs) (i : Input) : Bool :=
  !(out c q i).bitErrDisable && !((out c q i).bitErrDisableReceiver && i.isReceiver)

def switchToSsp (c : Config) (q : Regs) (i : Input) : Bool :=
  (out c q i).spControlSwitchData && i.isTransmitter && c.mrSspCfgSspSrc != .noSsp

def spControlD (c : Config) (q : Regs) (i : Input) : SpControl :=
  if (out c q i).spControlSwitchNominal then .nominalSample
  else if switchToSsp c q i then .secondarySample
  else if (out c q i).spControlSwitchData then .dataSample
  else q.spControlQ

def spControl (c : Config) (q : Regs) (i : Input) : SpControl :=
  if (out c q i).brShiftedI then spControlD c q i else q.spControlQ

def txtbClkEnD (c : Config) (q : Regs) (i : Input) : Bool :=
  q.txtbPtrQ != (out c q i).txtbPtrD &&
    !decide (txtbNumWordsGate (tranDataLength c i) < (out c q i).txtbPtrD)

/-! ## One clock cycle -/

def step (c : Config) (q : Regs) (i : Input) : Regs :=
  let o := out c q i
  let upd := ctrlSignalUpd i
  let rxCmd := (i.isReceiver || c.mrSettingsIlbp) && i.rxTrigger
  { currState := if o.tickStateReg && upd then nextState c q i else q.currState
    spControlQ :=
      if o.spControlSwitchNominal || o.spControlSwitchData then spControlD c q i
      else q.spControlQ
    mrCommandErcrstQ :=
      i.mrCommandErcrst || (q.mrCommandErcrstQ && !(i.rxTrigger && o.clrBusOffRstFlg))
    storeMetadata := rxCmd && o.storeMetadataD
    storeData := rxCmd && o.storeDataD
    recValid := rxCmd && o.recValidD
    recAbort := i.errFrmReq
    recLbpfQ := recLbpfD c q i
    recIvldQ := if i.rxTrigger then recIvldI q i else q.recIvldQ
    txtbHwCmdQ := if upd then o.txtbHwCmdD else {}
    stuffEnable := if upd then o.stuffEnableSet || (q.stuffEnable && !o.stuffEnableClear)
      else q.stuffEnable
    destuffEnable := if upd then o.destuffEnableSet || (q.destuffEnable && !o.destuffEnableClear)
      else q.destuffEnable
    txtbPtrQ := if txtbClkEnD c q i then o.txtbPtrD else q.txtbPtrQ
    txtbClkEnQ := txtbClkEnD c q i
    txFrameNoSofQ := if i.rxTrigger then o.txFrameNoSofD else q.txFrameNoSofQ
    rxDataNbsPrev := if i.rxTrigger then i.rxDataNbs else q.rxDataNbsPrev }

end ProtocolControl
