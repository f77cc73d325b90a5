import CtuCanFd.Lib.SyncMachine
import CtuCanFd.Lib.FrameQueue
import CtuCanFd.RxBuffer.Model

/-!
# What the RX buffer is for

The buffer is a queue of frames. The monitor below follows the signals of the
model without driving them: it drives an abstract queue from the read, write,
commit and abort events, assembles the frame the core is presenting, and logs
the frames committed and the words returned since the last release.
-/

namespace RxBuffer

open FrameQueue SyncMachine

structure StoredFrame where
  format : Word
  identifier : Word
  tsLow : Word
  tsHigh : Word
  data : List Word
deriving DecidableEq

namespace StoredFrame

def blank : StoredFrame := ⟨0, 0, 0, 0, []⟩

/-- Layout of a frame in the buffer. -/
def words (f : StoredFrame) : List Word :=
  f.format :: f.identifier :: f.tsLow :: f.tsHigh :: f.data

/-- Take over the word the core or the timestamp register presents in this cycle. -/
def record (s : State) (i : Input) (f : StoredFrame) : StoredFrame :=
  match s.fsm with
  | .storeFrameFormat => { f with format := formatWord i false }
  | .storeErrFrameFormat => { f with format := formatWord i true }
  | .storeIdentifier | .storeErrIdentifier => { f with identifier := identWord i }
  | .storeData => if i.storeDataF then { f with data := f.data ++ [i.storeDataWord] } else f
  | .storeEndTsLow | .storeErrTsLow => { f with tsLow := tsLowWord s.timestampCapture }
  | .storeEndTsHigh | .storeErrTsHigh => { f with tsHigh := tsHighWord s.timestampCapture }
  | .idle | .skipTsLow | .skipTsHigh => f

end StoredFrame

structure Monitor where
  queue : Queue Word
  /-- The frame being stored. A frame that runs out of space, is aborted or is
  hit by a release is given up here and cannot come back. -/
  current : Option StoredFrame
  /-- Free words when the frame being stored started. -/
  room : Nat
  /-- Length of the frame being stored, known from its format word. -/
  need : Nat
  /-- A release hit the frame being stored. -/
  released : Bool
  committed : List StoredFrame
  returned : List Word
deriving DecidableEq

namespace Monitor

def start (g : Generics) : Monitor where
  queue := Queue.empty
  current := none
  room := g.size
  need := 0
  released := false
  committed := []
  returned := []

/-- Position of the back-filled timestamp words in their frame. -/
def tsPosition : RxBufState → Nat
  | .storeEndTsLow => 2
  | _ => 3

def editOf (s : State) (i : Input) : Queue.Edit Word :=
  if s.commitRxFrame then .commit
  else if writeRawOK s i then .push (writeData s i)
  else if rxbPortAWrite s i then .patch (tsPosition s.fsm) (writeData s i)
  else if i.recAbortF || s.commitOverrunAbort then .rollback
  else .keep

def nextQueue (m : Monitor) (s : State) (i : Input) : Queue Word :=
  if i.mrCommandRrb then Queue.empty else m.queue.cycle (readIncrement s i) (editOf s i)

/-- A frame starts with `store_metadata`, an error frame with an abort while
logging is on. An error frame that follows a frame already given up is given up
with it, since the overrun flag is cleared in idle only. -/
def nextCurrent (m : Monitor) (s : State) (i : Input) : Option StoredFrame :=
  if i.mrCommandRrb then none
  else if s.fsm = .idle then
    if i.storeMetadataF || (i.mrModeErfm && i.recAbortF) then some .blank else none
  else if overrunCondition s i then none
  else if i.recAbortF then
    if i.mrModeErfm then m.current.map fun _ => .blank else none
  else m.current.map (StoredFrame.record s i)

def watch (g : Generics) (m : Monitor) (s : State) (i : Input) : Monitor where
  queue := m.nextQueue s i
  current := m.nextCurrent s i
  room :=
    if s.fsm = .idle ∧ i.storeMetadataF then g.size - (m.nextQueue s i).unread.length
    else m.room
  need := if s.fsm = .storeFrameFormat then rwcntOf (formatWord i false) + 1 else m.need
  released := i.mrCommandRrb || (decide (s.fsm ≠ .idle) && m.released)
  committed :=
    if i.mrCommandRrb then []
    else if s.commitRxFrame then m.committed ++ m.current.toList
    else m.committed
  returned :=
    if i.mrCommandRrb then []
    else if readIncrement s i then m.returned ++ [rxbPortBDataOut s]
    else m.returned

end Monitor

/-- The buffer with its monitor. -/
def watchedStep (g : Generics) : State × Monitor → Input → State × Monitor :=
  watched (step g) (Monitor.watch g)

def watchedReset (g : Generics) (mem : Nat → Word) (dataOut : Word) : State × Monitor :=
  (reset g mem dataOut, Monitor.start g)

/-! ## Assumptions on the core -/

def OneHot (i : Input) : Prop :=
  ((i.storeMetadataF || i.storeDataF || i.recValidF) && i.recAbortF) = false ∧
  ((i.storeMetadataF || i.storeDataF) && i.recValidF) = false ∧
  (i.storeMetadataF && i.storeDataF) = false

instance (i : Input) : Decidable (OneHot i) := inferInstanceAs (Decidable (_ ∧ _))

/-- States in which `rx_buffer_fsm` accepts an abort. -/
def RxBufState.AbortAllowed (st : RxBufState) : Prop :=
  st = .idle ∨ st = .storeFrameFormat ∨ st = .storeData

instance (st : RxBufState) : Decidable st.AbortAllowed := inferInstanceAs (Decidable (_ ∨ _))

/-- The number of data words announced by RWCNT, minus those stored so far. -/
def dataWordsLeft (m : Monitor) : Option Nat :=
  m.current.map fun f => rwcntOf f.format - 3 - f.data.length

/-- Command protocol that `rx_buffer_fsm` and `rx_buffer` assert, with the
memory test access off. Data words are counted for frames not yet given up. -/
structure CoreProtocol (p : State × Monitor) (i : Input) : Prop where
  noTest : i.mrTstControlTmaena = false
  oneHot : OneHot i
  metadataInIdle : i.storeMetadataF = true → p.1.fsm = .idle
  dataWhileStoring : (i.storeDataF || i.recValidF) = true → p.1.fsm = .storeData
  abortAllowed : i.recAbortF = true → p.1.fsm.AbortAllowed
  dataExpected : i.storeDataF = true → dataWordsLeft p.2 ≠ some 0
  dataComplete : i.recValidF = true → ∀ n ∈ dataWordsLeft p.2, n = 0

instance (p : State × Monitor) (i : Input) : Decidable (CoreProtocol p i) :=
  decidable_of_iff
    (i.mrTstControlTmaena = false ∧ OneHot i ∧
      (i.storeMetadataF = true → p.1.fsm = .idle) ∧
      ((i.storeDataF || i.recValidF) = true → p.1.fsm = .storeData) ∧
      (i.recAbortF = true → p.1.fsm.AbortAllowed) ∧
      (i.storeDataF = true → dataWordsLeft p.2 ≠ some 0) ∧
      (i.recValidF = true → ∀ n ∈ dataWordsLeft p.2, n = 0))
    ⟨fun ⟨a, b, c, d, e, f, h⟩ => ⟨a, b, c, d, e, f, h⟩,
      fun ⟨a, b, c, d, e, f, h⟩ => ⟨a, b, c, d, e, f, h⟩⟩

end RxBuffer
