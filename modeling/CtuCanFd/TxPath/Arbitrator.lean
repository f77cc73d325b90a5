import CtuCanFd.Core.CanCore
import CtuCanFd.RxBuffer.Model
import CtuCanFd.TxPath.PriorityDecoder

/-!
# TX arbitrator

`tx_arbitrator` with its FSM. It reads the timestamp, the frame test word, the frame
format word and the identifier of the buffer the priority decoder selects, and
commits them together with the index of the buffer. The core locks the committed
buffer for a transmission. The comparison with the last buffer locked
(`txtb_changed`) is left out: only the retransmission counter reads it.
-/

namespace TxArbitrator

open CanCore (TranMeta)
open RxBuffer (Word)

/-- `t_tx_arb_state`. -/
inductive TxArbState where
  | idle
  | selLowTs
  | selUppTs
  | selFtw
  | selFfw
  | selIdw
  | validated
  | locked
deriving DecidableEq, Repr

/-- Inputs of `tx_arbitrator_fsm`. -/
structure FsmInput where
  selectBufAvail : Bool
  selectIndexChanged : Bool
  timestampValid : Bool
  txtbHwCmdLock : Bool
  txtbHwCmdUnlock : Bool
  txtbParityMismatchVld : Bool
  fsmWaitStateQ : Bool

def parityErrorVld (i : FsmInput) : Bool := i.txtbParityMismatchVld && !i.fsmWaitStateQ

/-- `tx_arb_fsm_proc`. -/
def nextState (i : FsmInput) : TxArbState → TxArbState
  | .idle => if i.selectBufAvail then .selLowTs else .idle
  | .selLowTs =>
    if i.txtbHwCmdLock then .locked
    else if !i.selectBufAvail || parityErrorVld i then .idle
    else if i.selectIndexChanged then .selLowTs
    else if !i.fsmWaitStateQ then .selUppTs
    else .selLowTs
  | .selUppTs =>
    if i.txtbHwCmdLock then .locked
    else if !i.selectBufAvail || parityErrorVld i then .idle
    else if i.selectIndexChanged then .selLowTs
    else if !i.fsmWaitStateQ && i.timestampValid then .selFtw
    else .selUppTs
  | .selFtw =>
    if i.txtbHwCmdLock then .locked
    else if !i.selectBufAvail then .idle
    else if i.selectIndexChanged then .selLowTs
    else if !i.fsmWaitStateQ then .selFfw
    else .selFtw
  | .selFfw =>
    if i.txtbHwCmdLock then .locked
    else if !i.selectBufAvail || parityErrorVld i then .idle
    else if i.selectIndexChanged then .selLowTs
    else if !i.fsmWaitStateQ then .selIdw
    else .selFfw
  | .selIdw =>
    if i.txtbHwCmdLock then .locked
    else if !i.selectBufAvail || parityErrorVld i then .idle
    else if i.selectIndexChanged then .selLowTs
    else if !i.fsmWaitStateQ then .validated
    else .selIdw
  | .validated =>
    if i.txtbHwCmdLock then .locked
    else if !i.selectBufAvail then .idle
    else if i.selectIndexChanged then .selLowTs
    else .validated
  | .locked => if i.txtbHwCmdUnlock then .idle else .locked

/-- Outputs of `tx_arb_fsm_out_proc`, inactive unless a state drives them. -/
structure Out where
  loadTsLwAddr : Bool := false
  loadTsUwAddr : Bool := false
  loadFfmtWAddr : Bool := false
  loadIdentWAddr : Bool := false
  loadFrameTestWAddr : Bool := false
  txtbMetaClkEn : Bool := false
  storeTsLW : Bool := false
  commitDblBufs : Bool := false
  bufferFrameTestW : Bool := false
  bufferMdW : Bool := false
  txArbLocked : Bool := false
  frameValidComSet : Bool := false
  frameValidComClear : Bool := false
  txArbParityCheckValid : Bool := false
  fsmWaitStateD : Bool := false

/-- Outputs of a state of the selection whatever happens in it. -/
def outHold : TxArbState → Out
  | .selLowTs | .selUppTs | .selFtw | .selFfw | .selIdw => { txtbMetaClkEn := true }
  | _ => {}

/-- Outputs of a state of the selection that reads its word. -/
def outRead (i : FsmInput) : TxArbState → Out
  | .selLowTs =>
    { txtbMetaClkEn := true
      fsmWaitStateD := true
      loadTsUwAddr := true
      storeTsLW := true
      txArbParityCheckValid := true }
  | .selUppTs =>
    { txtbMetaClkEn := true
      fsmWaitStateD := i.timestampValid
      loadFrameTestWAddr := i.timestampValid
      txArbParityCheckValid := true }
  | .selFtw =>
    { txtbMetaClkEn := true
      fsmWaitStateD := true
      bufferFrameTestW := true
      loadFfmtWAddr := true }
  | .selFfw =>
    { txtbMetaClkEn := true
      fsmWaitStateD := true
      loadIdentWAddr := true
      bufferMdW := true
      txArbParityCheckValid := true }
  | .selIdw =>
    { txtbMetaClkEn := true
      commitDblBufs := !parityErrorVld i
      frameValidComSet := !parityErrorVld i
      txArbParityCheckValid := true }
  | _ => {}

/-- Every state of the selection leaves a lock to the lock logic, gives up the frame
without a buffer, and starts over when another buffer is selected. -/
def outSelect (i : FsmInput) (st : TxArbState) : Out :=
  if i.txtbHwCmdLock then outHold st
  else if !i.selectBufAvail then { outHold st with frameValidComClear := true }
  else if i.selectIndexChanged then
    { outHold st with fsmWaitStateD := true, loadTsLwAddr := true }
  else if !i.fsmWaitStateQ then outRead i st
  else outHold st

def out (i : FsmInput) : TxArbState → Out
  | .idle => { fsmWaitStateD := i.selectBufAvail, loadTsLwAddr := i.selectBufAvail }
  | .locked => { txArbLocked := true, frameValidComClear := i.txtbHwCmdUnlock }
  | st => outSelect i st

/-! ## Registers -/

/-- Double buffer registers of the frame format word and the frame test word. -/
structure DblBuf where
  tranDlc : BitVec 4
  tranIsRtr : Bool
  tranIdentType : Bool
  tranFrameType : Bool
  tranBrs : Bool
  tranFrameTest : FrameTest
deriving DecidableEq, Repr

structure State where
  fsm : TxArbState
  fsmWaitStateQ : Bool
  tsLowInternal : Word
  dblBuf : DblBuf
  /-- Committed metadata, visible to the core. -/
  com : TranMeta
  tranFrameValidCom : Bool
  currTxtbIndex : Nat
  selectBufIndexReg : Nat
  txtbPointerMetaQ : Nat
  txtbClkEnQ : Bool
deriving DecidableEq, Repr

/-- Word addresses in a TXT buffer. -/
def frameFormatW : Nat := 0

def identifierW : Nat := 1

def timestampLW : Nat := 2

def timestampUW : Nat := 3

def frameTestW : Nat := 20

def noFrameTest : FrameTest := ⟨false, false, false, 0⟩

def reset : State where
  fsm := .idle
  fsmWaitStateQ := true
  tsLowInternal := 0
  dblBuf := ⟨0, false, false, false, false, noFrameTest⟩
  com := ⟨0, false, false, false, false, 0, noFrameTest⟩
  tranFrameValidCom := false
  currTxtbIndex := 0
  selectBufIndexReg := 0
  txtbPointerMetaQ := timestampLW
  txtbClkEnQ := false

structure Input where
  txtbPortBDataOut : Nat → Word
  txtbAvailable : Nat → Bool
  txtbParityMismatch : Nat → Bool
  txtbHwCmd : ProtocolControl.TxtbHwCmd
  txtbPtr : Nat
  txtbClkEn : Bool
  mrModeTttm : Bool
  mrModeTxbbm : Bool
  mrTxPriority : Nat → BitVec 3
  timestamp : BitVec 64

/-! ## Combinational signals -/

/-- `mr_tx_priority_txbbm`: a backup buffer has the priority of its original. -/
def mrTxPriorityTxbbm (i : Input) (k : Nat) : BitVec 3 :=
  if k % 2 == 1 && i.mrModeTxbbm then i.mrTxPriority (k - 1) else i.mrTxPriority k

def decoderInput (count : Nat) (i : Input) : Nat → PriorityDecoder.Entry :=
  PriorityDecoder.l0 count (mrTxPriorityTxbbm i) i.txtbAvailable

def selectBufAvail (count : Nat) (i : Input) : Bool :=
  PriorityDecoder.outputValid (decoderInput count i)

def selectBufIndex (count : Nat) (i : Input) : Nat :=
  PriorityDecoder.outputIndex count (decoderInput count i)

def txArbLocked (s : State) : Bool := s.fsm == .locked

/-- `txtb_index_muxed`. -/
def txtbIndexMuxed (count : Nat) (s : State) (i : Input) : Nat :=
  if txArbLocked s then s.currTxtbIndex else selectBufIndex count i

/-- `txtb_selected_input`, which is also `tran_word`. -/
def txtbSelectedInput (count : Nat) (s : State) (i : Input) : Word :=
  i.txtbPortBDataOut (txtbIndexMuxed count s i)

def txtbTimestamp (count : Nat) (s : State) (i : Input) : BitVec 64 :=
  txtbSelectedInput count s i ++ s.tsLowInternal

def timestampValid (count : Nat) (s : State) (i : Input) : Bool :=
  !i.mrModeTttm || decide (txtbTimestamp count s i < i.timestamp)

def txtbHwCmdUnlock (i : Input) : Bool :=
  i.txtbHwCmd.valid || i.txtbHwCmd.err || i.txtbHwCmd.arbl || i.txtbHwCmd.failed

def selectIndexChanged (count : Nat) (s : State) (i : Input) : Bool :=
  selectBufIndex count i != s.selectBufIndexReg

def fsmInput (count : Nat) (s : State) (i : Input) : FsmInput where
  selectBufAvail := selectBufAvail count i
  selectIndexChanged := selectIndexChanged count s i
  timestampValid := timestampValid count s i
  txtbHwCmdLock := i.txtbHwCmd.lock
  txtbHwCmdUnlock := txtbHwCmdUnlock i
  txtbParityMismatchVld := i.txtbParityMismatch (selectBufIndex count i)
  fsmWaitStateQ := s.fsmWaitStateQ

def fsmOut (count : Nat) (s : State) (i : Input) : Out := out (fsmInput count s i) s.fsm

def validatedBuffer (s : State) (i : Input) : Bool :=
  i.txtbAvailable s.currTxtbIndex && s.tranFrameValidCom

def tranFrameValid (s : State) (i : Input) : Bool := validatedBuffer s i || txArbLocked s

def tranFrameParityError (s : State) (i : Input) : Bool :=
  i.txtbParityMismatch s.currTxtbIndex && s.txtbClkEnQ

def txtbParityCheckValid (count : Nat) (s : State) (i : Input) : Bool :=
  if txArbLocked s then s.txtbClkEnQ else (fsmOut count s i).txArbParityCheckValid

def txtbPortBAddress (s : State) (i : Input) : Nat :=
  if txArbLocked s then i.txtbPtr else s.txtbPointerMetaQ

def txtbPortBClkEn (count : Nat) (s : State) (i : Input) : Bool :=
  if txArbLocked s then i.txtbClkEn else (fsmOut count s i).txtbMetaClkEn

/-- `txtb_is_bb`, given which buffers allow a backup. -/
def txtbIsBb (s : State) (i : Input) (allowBb : Nat → Bool) (k : Nat) : Bool :=
  k % 2 == 1 && i.mrModeTxbbm && s.currTxtbIndex == k - 1 && allowBb (k - 1)

/-! ## One clock cycle -/

/-- Fields of the frame format word. -/
def DblBuf.withFormat (b : DblBuf) (w : Word) : DblBuf :=
  { b with
    tranDlc := w.extractLsb' 0 4
    tranIsRtr := w.getLsbD 5
    tranIdentType := w.getLsbD 6
    tranFrameType := w.getLsbD 7
    tranBrs := w.getLsbD 9 }

/-- Fields of the frame test word. -/
def frameTestOf (w : Word) : FrameTest where
  fstc := w.getLsbD 0
  fcrc := w.getLsbD 1
  sdlc := w.getLsbD 2
  tprm := w.extractLsb' 8 5

def DblBuf.committed (b : DblBuf) (w : Word) : TranMeta where
  tranDlc := b.tranDlc
  tranIsRtr := b.tranIsRtr
  tranIdentType := b.tranIdentType
  tranFrameType := b.tranFrameType
  tranBrs := b.tranBrs
  tranIdentifier := w.extractLsb' 0 29
  tranFrameTest := b.tranFrameTest

def nextPointerMeta (o : Out) (s : State) : Nat :=
  if o.loadTsLwAddr then timestampLW
  else if o.loadTsUwAddr then timestampUW
  else if o.loadFfmtWAddr then frameFormatW
  else if o.loadIdentWAddr then identifierW
  else if o.loadFrameTestWAddr then frameTestW
  else s.txtbPointerMetaQ

def nextDblBuf (o : Out) (s : State) (w : Word) : DblBuf :=
  let b := if o.bufferMdW then s.dblBuf.withFormat w else s.dblBuf
  if o.bufferFrameTestW then { b with tranFrameTest := frameTestOf w } else b

def step (count : Nat) (s : State) (i : Input) : State :=
  let o := fsmOut count s i
  let w := txtbSelectedInput count s i
  { fsm := nextState (fsmInput count s i) s.fsm
    fsmWaitStateQ := o.fsmWaitStateD
    tsLowInternal := if o.storeTsLW then w else s.tsLowInternal
    dblBuf := nextDblBuf o s w
    com := if o.commitDblBufs then s.dblBuf.committed w else s.com
    tranFrameValidCom :=
      if o.frameValidComSet then true
      else if o.frameValidComClear then false
      else s.tranFrameValidCom
    currTxtbIndex := if o.commitDblBufs then selectBufIndex count i else s.currTxtbIndex
    selectBufIndexReg := selectBufIndex count i
    txtbPointerMetaQ := nextPointerMeta o s
    txtbClkEnQ := i.txtbClkEn }

end TxArbitrator
