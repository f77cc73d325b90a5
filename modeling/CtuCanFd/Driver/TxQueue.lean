import CtuCanFd.Driver.InsertFrame
import CtuCanFd.Lib.SyncMachine
import CtuCanFd.TxPath.Completion
import Mathlib.Data.Fin.Basic

/-!
# Transmit queue of the driver

`ctucan_start_xmit` and `ctucan_tx_interrupt` with the four TXT buffers they drive. One
step is one register access of the driver together with the statements up to the next
one, or one change of the buffers by the controller. A driver function that waits for
`tx_lock` makes an empty step. The two functions and the controller interleave freely;
calls of `ctucan_start_xmit` do not overlap and start while the queue is awake.
-/

open ProtocolControl (TxtbHwCmd)
open TxtBuffer (TxtBufState)
open SyncMachine

namespace Driver

/-! ## Buffers as the driver sees them -/

/-- `txtb_state`: code of a buffer in TX_STATUS. -/
def txtbState : TxtBufState → BitVec 4
  | .ready => 0x1
  | .txProg => 0x2
  | .abProg => 0x3
  | .ok => 0x4
  | .failed => 0x6
  | .aborted => 0x7
  | .empty => 0x8
  | .parityErr => 0x9

def txStatus (bufs : Fin 4 → TxtBufState) : BitVec 32 :=
  0#16 ++ txtbState (bufs 3) ++ txtbState (bufs 2) ++ txtbState (bufs 1) ++ txtbState (bufs 0)

/-- `TXT_TOK`, `TXT_ERR` and `TXT_ABT` of `ctucan_tx_interrupt`. -/
def isFinished (status : BitVec 3) : Bool := status == 4 || status == 6 || status == 7

/-- STATUS[TXNF]. -/
def txnf (bufs : Fin 4 → TxtBufState) : Bool :=
  bufs 0 == .empty || bufs 1 == .empty || bufs 2 == .empty || bufs 3 == .empty

theorem getTxStatus_txStatus (bufs : Fin 4 → TxtBufState) (k : Fin 4) :
    getTxStatus (txStatus bufs) k = (txtbState (bufs k)).truncate 3 := by
  have hcode : ∀ b3 b2 b1 b0 : BitVec 4, ∀ k : Fin 4,
      getTxStatus (0#16 ++ b3 ++ b2 ++ b1 ++ b0) k = [b0, b1, b2, b3][k].truncate 3 := by
    intro b3 b2 b1 b0 k
    match k with
    | 0 | 1 | 2 | 3 => simp only [getTxStatus]; grind
  rw [txStatus, hcode]
  match k with
  | 0 | 1 | 2 | 3 => rfl

/-! ## Changes made by the controller -/

/-- What the controller does to its buffers in one cycle. -/
structure HwEvent where
  txtbHwCmd : TxtbHwCmd
  /-- Buffer the command is for. -/
  cs : Fin 4
  isBusOff : Bool
  mrSettingsTbfbo : Bool
  mrModeBmm : Bool
  mrModeRom : Bool
deriving DecidableEq, Repr

namespace HwEvent

def goToFailed (e : HwEvent) : Bool :=
  (e.isBusOff && e.mrSettingsTbfbo) || e.mrModeBmm || e.mrModeRom

/-- `txtb_hw_cmd_i` of a buffer. -/
def cmd (e : HwEvent) (k : Fin 4) : TxtbHwCmd := if k = e.cs then e.txtbHwCmd else {}

/-- State of a buffer that gets no command from software and checks no parity. -/
def next (e : HwEvent) (k : Fin 4) : TxtBufState → TxtBufState
  | .ready => if e.goToFailed then .failed else if (e.cmd k).lock then .txProg else .ready
  | .txProg =>
    if e.goToFailed then .failed
    else if (e.cmd k).failed then .failed
    else if (e.cmd k).valid then .ok
    else if (e.cmd k).err || (e.cmd k).arbl then .ready
    else .txProg
  | .abProg =>
    if e.goToFailed then .failed
    else if (e.cmd k).failed then .failed
    else if (e.cmd k).valid then .ok
    else if (e.cmd k).err || (e.cmd k).arbl then .aborted
    else .abProg
  | st => st

/-- `txtb_hw_cmd_int` of a buffer. -/
def hwCmdInt (e : HwEvent) (k : Fin 4) (st : TxtBufState) : Bool :=
  (e.cmd k).failed || (e.cmd k).valid || (((e.cmd k).arbl || (e.cmd k).err) && st == .abProg) ||
    (e.isBusOff && e.next k st == .failed && st.transient)

/-- State and interrupt are those of the TXT buffer, as long as no command of software, parity
check or backup buffer comes in. -/
theorem refines_buffer (e : HwEvent) (k : Fin 4) (g : TxtBuffer.Generics) (s : TxtBuffer.State)
    (i : TxtBuffer.Input) (htxce : TxtBuffer.txceValid s i = false)
    (htxcr : TxtBuffer.txcrValid s i = false) (htxca : TxtBuffer.abortApplied s i = false)
    (hpar : i.mrSettingsPchke = false) (hbb : i.txtbIsBb = false)
    (hcmd : TxtBuffer.hwCmd i = e.cmd k) (hfail : TxtBuffer.goToFailed i = e.goToFailed)
    (hoff : i.isBusOff = e.isBusOff) :
    TxtBuffer.nextState g s i = e.next k s.currState ∧
      TxtBuffer.txtbHwCmdInt g s i = e.hwCmdInt k s.currState := by
  have hnext : TxtBuffer.nextState g s i = e.next k s.currState := by
    cases hst : s.currState <;>
      simp [TxtBuffer.nextState, next, hst, TxtBuffer.setByCommand, htxce, htxcr, htxca,
        TxtBuffer.txtbParityErrorValid, TxtBuffer.parityMismatch, hpar, TxtBuffer.bufferSkipped, hbb,
        TxtBuffer.arblOrErr, hcmd, hfail]
  exact ⟨hnext, by rw [TxtBuffer.txtbHwCmdInt, hcmd, hnext, hoff, hwCmdInt]⟩

end HwEvent

/-! ## Driver and controller -/

/-- Next access of `ctucan_start_xmit`. -/
inductive XmitPc where
  /-- Not running; the next call reads TXNF. -/
  | idle
  /-- Reads the status of the buffer, and writes the frame into it. -/
  | insert
  /-- Takes the lock and sets the buffer ready. -/
  | setReady
  /-- Reads TXNF again and gives the lock back. -/
  | checkFull
deriving DecidableEq, Repr

/-- Next access of `ctucan_tx_interrupt`. -/
inductive IrqPc where
  | idle
  /-- Takes the lock. -/
  | enter
  /-- Reads the status of the buffer at the tail. -/
  | scan
  /-- Writes TX_PRIORITY. -/
  | rotate
  /-- Sets the buffer empty. -/
  | setEmpty
  /-- Clears the interrupt, if buffers were processed. -/
  | clear
  /-- Takes the lock and reads TXNF. -/
  | wake
deriving DecidableEq, Repr

/-- Frames are numbered in the order of their submission, which the driver does not see:
`echo` holds the numbers of the frames stored by `can_put_echo_skb`, `submitted` counts
the frames accepted, and `completed` lists those taken out again. -/
structure TxQueue where
  bufs : Fin 4 → TxtBufState
  txPriority : BitVec 32
  /-- INT_STAT[TXBHCI]. -/
  txbhci : Bool
  txbPrio : BitVec 32
  txbHead : BitVec 32
  txbTail : BitVec 32
  txLock : Bool
  queueAwake : Bool
  xmit : XmitPc
  cannotInsert : Bool
  irq : IrqPc
  first : Bool
  someBuffersProcessed : Bool
  txtbId : Fin 4
  echo : Fin 4 → Option Nat
  submitted : Nat
  completed : List (Option Nat)

namespace TxQueue

/-- State after `ctucan_chip_start`. -/
def init : TxQueue where
  bufs _ := .empty
  txPriority := 0x01234567
  txbhci := false
  txbPrio := 0x01234567
  txbHead := 0
  txbTail := 0
  txLock := false
  queueAwake := true
  xmit := .idle
  cannotInsert := false
  irq := .idle
  first := true
  someBuffersProcessed := false
  txtbId := 0
  echo _ := none
  submitted := 0
  completed := []

/-- Buffer of a counter value. -/
def slot (n : Nat) : Fin 4 := ⟨n % 4, Nat.mod_lt n (by decide)⟩

def headId (s : TxQueue) : Fin 4 := slot s.txbHead.toNat

def tailId (s : TxQueue) : Fin 4 := slot s.txbTail.toNat

/-- `(int)(priv->txb_head - priv->txb_tail) > 0`. -/
def outstanding (s : TxQueue) : Bool := decide (0 < (s.txbHead - s.txbTail).toInt)

/-- `ctucan_rotate_txb_prio` for four buffers. -/
def rotateTxbPrio (prio : BitVec 32) : BitVec 32 := prio <<< 4 ||| ((prio >>> 12) &&& 0xF)

/-- TXT_CMD_SET_READY and TXT_CMD_SET_EMPTY: a buffer that is ready or in progress ignores them,
and an empty buffer ignores the second one. -/
def setState (bufs : Fin 4 → TxtBufState) (k : Fin 4) (st : TxtBufState) : Fin 4 → TxtBufState :=
  if (bufs k).transient then bufs else Function.update bufs k st

/-- One access of `ctucan_start_xmit`. -/
def xmitStep (s : TxQueue) : TxQueue :=
  match s.xmit with
  | .idle =>
    if !s.queueAwake then s
    else if txnf s.bufs then { s with xmit := .insert }
    else { s with queueAwake := false }
  | .insert =>
    if isTxtBufWritable (txStatus s.bufs) s.headId then
      { s with xmit := .setReady, echo := Function.update s.echo s.headId (some s.submitted) }
    else { s with xmit := .idle, cannotInsert := true }
  | .setReady =>
    if s.txLock then s
    else
      { s with
        txLock := true
        bufs := setState s.bufs s.headId .ready
        txbHead := s.txbHead + 1
        submitted := s.submitted + 1
        xmit := .checkFull }
  | .checkFull =>
    { s with queueAwake := s.queueAwake && txnf s.bufs, txLock := false, xmit := .idle }

/-- One access of `ctucan_tx_interrupt`. -/
def irqStep (s : TxQueue) : TxQueue :=
  match s.irq with
  | .idle => { s with irq := .enter, first := true }
  | .enter =>
    if s.txLock then s
    else { s with txLock := true, someBuffersProcessed := false, irq := .scan }
  | .scan =>
    if s.outstanding then
      if isFinished (getTxStatus (txStatus s.bufs) s.tailId) then
        { s with
          txtbId := s.tailId
          completed := s.completed ++ [s.echo s.tailId]
          echo := Function.update s.echo s.tailId none
          irq := .rotate }
      else { s with txLock := false, irq := if s.first then .idle else .clear }
    else { s with txLock := false, irq := .clear }
  | .rotate =>
    { s with
      txbTail := s.txbTail + 1
      first := false
      someBuffersProcessed := true
      txbPrio := rotateTxbPrio s.txbPrio
      txPriority := rotateTxbPrio s.txbPrio
      irq := .setEmpty }
  | .setEmpty => { s with bufs := setState s.bufs s.txtbId .empty, irq := .scan }
  | .clear =>
    if s.someBuffersProcessed then { s with txbhci := false, irq := .enter }
    else { s with irq := .wake }
  | .wake =>
    if s.txLock then s else { s with queueAwake := s.queueAwake || txnf s.bufs, irq := .idle }

/-- One change by the controller; TXBHCI is not masked. -/
def hwStep (s : TxQueue) (e : HwEvent) : TxQueue :=
  { s with
    bufs := fun k => e.next k (s.bufs k)
    txbhci := s.txbhci || decide (∃ k, e.hwCmdInt k (s.bufs k) = true) }

inductive Event where
  | xmit
  | irq
  | hw (e : HwEvent)

def step (s : TxQueue) : Event → TxQueue
  | .xmit => s.xmitStep
  | .irq => s.irqStep
  | .hw e => s.hwStep e

/-! ## What a step changes -/

/-- Fields `ctucan_start_xmit` does not write. -/
theorem xmitStep_frame (s : TxQueue) :
    s.xmitStep.irq = s.irq ∧ s.xmitStep.txbTail = s.txbTail ∧ s.xmitStep.txbhci = s.txbhci ∧
      s.xmitStep.someBuffersProcessed = s.someBuffersProcessed ∧ s.xmitStep.first = s.first ∧
      s.xmitStep.txbPrio = s.txbPrio ∧ s.xmitStep.txPriority = s.txPriority ∧
      s.xmitStep.txtbId = s.txtbId ∧ s.xmitStep.completed = s.completed := by
  unfold xmitStep
  cases s.xmit <;> dsimp only <;> (try split_ifs) <;>
    exact ⟨rfl, rfl, rfl, rfl, rfl, rfl, rfl, rfl, rfl⟩

/-- `ctucan_start_xmit` submits a frame in one of its steps. -/
theorem xmitStep_cases (s : TxQueue) :
    (s.xmitStep.bufs = s.bufs ∧ s.xmitStep.txbHead = s.txbHead ∧
        s.xmitStep.submitted = s.submitted) ∨
      (s.xmit = .setReady ∧ s.txLock = false ∧
        s.xmitStep.bufs = setState s.bufs s.headId .ready ∧
        s.xmitStep.txbHead = s.txbHead + 1 ∧ s.xmitStep.submitted = s.submitted + 1) := by
  unfold xmitStep
  cases hx : s.xmit <;> dsimp only
  case setReady =>
    cases hl : s.txLock
    · exact .inr ⟨rfl, rfl, rfl, rfl, rfl⟩
    · exact .inl ⟨rfl, rfl, rfl⟩
  all_goals
    left
    (try split_ifs) <;> exact ⟨rfl, rfl, rfl⟩

/-! ## No completion is lost -/

theorem outstanding_iff (s : TxQueue) :
    s.outstanding = true ↔
      0 < (s.txbHead - s.txbTail).toNat ∧ (s.txbHead - s.txbTail).toNat < 2 ^ 31 := by
  simp only [outstanding, decide_eq_true_eq, BitVec.toInt_eq_toNat_cond]
  have := (s.txbHead - s.txbTail).isLt
  omega

theorem setState_of_ne {bufs : Fin 4 → TxtBufState} {k j : Fin 4} {st : TxtBufState} (h : j ≠ k) :
    setState bufs k st j = bufs j := by
  unfold setState
  split
  · rfl
  · rw [Function.update_of_ne h]

theorem setState_ready (bufs : Fin 4 → TxtBufState) (k : Fin 4) :
    (setState bufs k .ready k).transient = true := by
  unfold setState
  split
  · assumption
  · rw [Function.update_self]
    rfl

/-- States the driver takes a frame out in. -/
def finished (st : TxtBufState) : Bool := isFinished ((txtbState st).truncate 3)

theorem finished_iff {st : TxtBufState} :
    finished st = true ↔ st = .ok ∨ st = .failed ∨ st = .aborted := by
  cases st <;> decide

theorem not_finished_of_transient {st : TxtBufState} (h : st.transient = true) :
    ¬ finished st = true := by
  revert h
  cases st <;> decide

theorem tail_status (s : TxQueue) :
    isFinished (getTxStatus (txStatus s.bufs) s.tailId) = finished (s.bufs s.tailId) := by
  rw [getTxStatus_txStatus]
  rfl

/-- Number of buffers from the tail on that have finished one after the other. -/
def finishedInOrder (s : TxQueue) : Nat :=
  if s.outstanding then
    ((List.range (s.txbHead - s.txbTail).toNat).takeWhile fun i =>
      finished (s.bufs (slot (s.txbTail.toNat + i)))).length
  else 0

/-- The buffer at the tail waits for the driver. -/
def TailFinished (s : TxQueue) : Prop := s.outstanding = true ∧ finished (s.bufs s.tailId) = true

instance (s : TxQueue) : Decidable s.TailFinished := inferInstanceAs (Decidable (_ ∧ _))

theorem finishedInOrder_pos {s : TxQueue} (h : s.finishedInOrder ≠ 0) : s.TailFinished := by
  unfold finishedInOrder at h
  split at h
  · rename_i hout
    refine ⟨hout, ?_⟩
    cases hn : (s.txbHead - s.txbTail).toNat with
    | zero => simp [hn] at h
    | succ n =>
      rw [hn, List.range_succ_eq_map, List.takeWhile_cons] at h
      split at h
      · assumption
      · exact absurd rfl h
  · exact absurd rfl h

/-- Every completion raises the interrupt. -/
def Reported (s : TxQueue) : Event → Prop
  | .hw e => ∀ k, finished (s.bufs k) = false → finished (e.next k (s.bufs k)) = true →
      e.hwCmdInt k (s.bufs k) = true
  | _ => True

instance (s : TxQueue) : (e : Event) → Decidable (s.Reported e)
  | .hw _ => inferInstanceAs (Decidable (∀ _, _))
  | .xmit | .irq => .isTrue trivial

/-- The controller reports all completions unless a mode keeps it from sending. -/
theorem reported_of_modes (s : TxQueue) (e : HwEvent) (hbmm : e.mrModeBmm = false)
    (hrom : e.mrModeRom = false) : s.Reported (.hw e) := by
  intro k hk hk'
  have hfail : e.goToFailed = true → e.isBusOff = true := by
    simp only [HwEvent.goToFailed, hbmm, hrom, Bool.or_false, Bool.and_eq_true]
    exact And.left
  cases hst : s.bufs k <;> rw [hst] at hk hk' <;>
    simp only [HwEvent.next, HwEvent.hwCmdInt] at hk' ⊢ <;>
    first | exact absurd (hk.symm.trans hk') (by decide) | skip
  all_goals
    simp only [finished_iff] at hk'
    cases hf : e.goToFailed
    · simp only [hf, Bool.false_eq_true, if_false] at hk'
      grind
    · simp [hfail hf, TxtBufState.transient]

/-- While the driver will not look at the tail again, a finished buffer there is pending. -/
def Accounted (s : TxQueue) : Prop :=
  s.irq = .idle ∨ s.irq = .wake ∨ (s.irq = .clear ∧ s.someBuffersProcessed = false) →
    s.TailFinished → s.txbhci = true

theorem accounted_init : init.Accounted := by
  rintro - ⟨h, -⟩
  exact absurd h (by decide)

/-- A new frame does not finish the buffer at the tail. -/
theorem xmitStep_tailFinished {s : TxQueue} (h : s.xmitStep.TailFinished) : s.TailFinished := by
  obtain ⟨hout, hfin⟩ := h
  have htail : s.xmitStep.txbTail = s.txbTail := (xmitStep_frame s).2.1
  have hid : s.xmitStep.tailId = s.tailId := by rw [tailId, tailId, htail]
  rcases xmitStep_cases s with ⟨hb, hh, -⟩ | ⟨-, -, hb, hh, -⟩
  · rw [outstanding_iff, hh, htail] at hout
    rw [hid, hb] at hfin
    exact ⟨(outstanding_iff s).mpr hout, hfin⟩
  · rw [outstanding_iff, hh, htail] at hout
    rw [hid, hb] at hfin
    have hne : s.tailId ≠ s.headId := by
      intro heq
      have ht := setState_ready s.bufs s.headId
      rw [heq] at hfin
      exact not_finished_of_transient ht hfin
    refine ⟨(outstanding_iff s).mpr ?_, ?_⟩
    · have hcount : s.txbHead ≠ s.txbTail := fun heq => hne (by rw [tailId, headId, heq])
      bv_omega
    · rwa [setState_of_ne hne] at hfin

theorem step_accounted {s : TxQueue} {e : Event} (h : s.Accounted) (hok : s.Reported e) :
    (s.step e).Accounted := by
  cases e with
  | xmit =>
    intro hirq hfin
    obtain ⟨hi, -, hint, hp, -⟩ := xmitStep_frame s
    rw [show (s.step .xmit).irq = s.irq from hi,
      show (s.step .xmit).someBuffersProcessed = s.someBuffersProcessed from hp] at hirq
    exact hint.trans (h hirq (xmitStep_tailFinished hfin))
  | irq =>
    simp only [Accounted, step, irqStep]
    cases hi : s.irq <;> dsimp only
    case idle => simp
    case enter => cases s.txLock <;> simp [hi]
    case scan =>
      rw [tail_status]
      cases ho : s.outstanding
      · rintro - ⟨ho', -⟩
        exact absurd (ho.symm.trans ho') (by decide)
      · cases hf : finished (s.bufs s.tailId)
        · rintro - ⟨-, hf'⟩
          exact absurd (hf.symm.trans hf') (by decide)
        · simp
    case rotate => simp
    case setEmpty => simp
    case clear =>
      cases hp : s.someBuffersProcessed
      · exact fun _ hfin => h (.inr (.inr ⟨hi, hp⟩)) hfin
      · simp
    case wake =>
      cases s.txLock <;> exact fun _ hfin => h (.inr (.inl hi)) hfin
  | hw e =>
    intro hirq ⟨hout, hfin⟩
    have hfin : finished (e.next s.tailId (s.bufs s.tailId)) = true := hfin
    cases hf : finished (s.bufs s.tailId)
    · have hint := hok s.tailId hf hfin
      exact Bool.or_eq_true_iff.mpr (.inr (decide_eq_true ⟨_, hint⟩))
    · exact Bool.or_eq_true_iff.mpr (.inl (h hirq ⟨hout, hf⟩))

/-- When `ctucan_tx_interrupt` is not running, every buffer that finished in order has been
processed, or the interrupt is pending. -/
theorem no_completion_lost (es : List Event)
    (h : Admits step Reported init es) (hidle : (run step init es).irq = .idle) :
    (run step init es).finishedInOrder = 0 ∨ (run step init es).txbhci = true := by
  have hacc : (run step init es).Accounted :=
    run_invariant step Reported Accounted (fun _ _ => step_accounted) accounted_init es h
  by_cases hn : (run step init es).finishedInOrder = 0
  · exact .inl hn
  · exact .inr (hacc (.inl hidle) (finishedInOrder_pos hn))

/-- The controller sends the frame of a buffer. -/
def sent (k : Fin 4) : List Event :=
  [.hw ⟨{ lock := true }, k, false, false, false, false⟩,
    .hw ⟨{ valid := true }, k, false, false, false, false⟩]

/-- The second of two frames is sent after the driver looked at its buffer for the last time. -/
def lateCompletion : List Event :=
  List.replicate 8 .xmit ++ sent 0 ++ List.replicate 9 .irq ++ sent 1 ++ List.replicate 2 .irq

theorem no_completion_lost_late :
    (run step init lateCompletion).irq = .idle ∧
      (run step init lateCompletion).finishedInOrder = 1 ∧
      (run step init lateCompletion).txbhci = true := by
  have hidle : (run step init lateCompletion).irq = .idle := by decide +kernel
  have hone : (run step init lateCompletion).finishedInOrder = 1 := by decide +kernel
  refine ⟨hidle, hone, (no_completion_lost lateCompletion (by decide +kernel) hidle).resolve_left ?_⟩
  rw [hone]
  decide

end TxQueue

end Driver
