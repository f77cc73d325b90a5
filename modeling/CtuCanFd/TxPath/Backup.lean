import CtuCanFd.Core.Locking
import CtuCanFd.TxPath.Restricted

/-!
# Backup buffers

In backup mode buffer `2p + 1` is the backup of buffer `2p`: commands for the
original are given to both, they share a priority, and the backup is skipped when the
frame of the original is done. It is meant to be sent from only after a parity error in
the original.
-/

open SyncMachine

/-! ## One buffer -/

namespace TxtBuffer

variable {g : Generics} {d : Nat} {s : State} {i : Input}

/-- A buffer is in progress from the lock command to a command that releases it. -/
theorem enter_inProgress (h : (step g d s i).currState.inProgress = true) :
    (s.currState.inProgress = true ∧ (hwCmd i).unlock = false) ∨
      (s.currState = .ready ∧ (hwCmd i).lock = true) := by
  simp only [step, nextState] at h
  cases hs : s.currState <;> simp only [hs] at h
  case ready =>
    refine .inr ⟨rfl, ?_⟩
    by_contra hl
    simp only [Bool.not_eq_true] at hl
    simp only [hl] at h
    split_ifs at h <;> first | exact absurd h (by decide) | contradiction
  case txProg | abProg =>
    refine .inl ⟨rfl, ?_⟩
    by_contra hu
    simp only [Bool.not_eq_false, ProtocolControl.TxtbHwCmd.unlock, Bool.or_eq_true] at hu
    simp only [arblOrErr, Bool.or_eq_true] at h
    split_ifs at h <;> first | exact absurd h (by decide) | simp_all
  case empty => split_ifs at h <;> cases h
  all_goals
    simp only [setByCommand] at h
    split_ifs at h <;> cases h

/-- Only software ends a parity error. -/
theorem parityErr_kept (h : s.currState = .parityErr) (hr : txcrValid s i = false)
    (he : txceValid s i = false) : (step g d s i).currState = .parityErr := by
  simp [step, nextState, h, setByCommand, hr, he]

theorem set_ready (h : s.currState.transient = false) (hr : txcrValid s i = true) :
    (step g d s i).currState = .ready := by
  cases hs : s.currState <;> rw [hs] at h <;>
    first | exact absurd h (by decide) | simp [step, nextState, hs, setByCommand, hr]

theorem enter_ok (h : s.currState ≠ .ok) (h' : (step g d s i).currState = .ok) :
    s.currState.inProgress = true := by
  simp only [step, nextState] at h'
  cases hs : s.currState <;> simp only [hs] at h h'
  case txProg | abProg => rfl
  case ok => exact absurd rfl h
  case empty | ready => split_ifs at h'
  all_goals
    simp only [setByCommand] at h'
    split_ifs at h'

/-- States of an original whose backup may still be needed. -/
def TxtBufState.backed : TxtBufState → Bool
  | .ready | .txProg | .parityErr => true
  | _ => false

/-- How a buffer that is no backup comes to be done with its frame. -/
theorem leave_backed (h : s.currState = .ready ∨ s.currState = .txProg)
    (hb : i.txtbIsBb = false) (h' : (step g d s i).currState.backed = false) :
    goToFailed i = true ∨ abortApplied s i = true ∨
      (s.currState = .txProg ∧ ((hwCmd i).failed || (hwCmd i).valid) = true) := by
  by_contra hn
  simp only [not_or, not_and, Bool.not_eq_true, Bool.or_eq_false_iff] at hn
  obtain ⟨hf, ha, hd⟩ := hn
  rcases h with h | h
  · simp only [step, nextState, h, hf, ha, bufferSkipped, hb] at h'
    split_ifs at h' <;> simp_all [TxtBufState.backed]
  · simp only [step, nextState, h, hf, ha, (hd h).1, (hd h).2] at h'
    split_ifs at h' <;> simp_all [TxtBufState.backed]

/-- A buffer that waits is given up unless it is locked in that cycle. -/
theorem ready_dropped (h : s.currState = .ready) (hl : (hwCmd i).lock = false)
    (hd : goToFailed i = true ∨ abortApplied s i = true ∨ bufferSkipped i = true) :
    (step g d s i).currState.transient = false := by
  simp only [step, nextState, h, hl, Bool.false_eq_true, if_false]
  split_ifs with hf hp hn
  · rfl
  · rfl
  · rfl
  · simp_all

end TxtBuffer

/-! ## The arbitrator -/

namespace TxArbitrator

variable {count : Nat} {s : State} {i : Input}

/-- Both buffers of a pair have one priority and the lower index goes first. -/
theorem backup_selected {p : Nat} (hm : i.mrModeTxbbm = true)
    (ha : selectBufAvail count i = true) (hs : selectBufIndex count i = 2 * p + 1) :
    i.txtbAvailable (2 * p) = false := by
  have hlt : selectBufIndex count i < count := (PriorityDecoder.outputIndex_valid ha).1
  have hprio : mrTxPriorityTxbbm i (2 * p) = mrTxPriorityTxbbm i (selectBufIndex count i) := by
    have hpar : (2 * p + 1) % 2 = 1 := by omega
    have hpar' : 2 * p % 2 = 0 := by omega
    simp [hs, mrTxPriorityTxbbm, hm, hpar, hpar']
  by_contra hav
  rw [Bool.not_eq_false] at hav
  have hle : selectBufIndex count i ≤ 2 * p :=
    PriorityDecoder.outputIndex_first (by omega) hav ha hprio
  omega

end TxArbitrator

namespace TxPath

open ProtocolControl (Config)
open TxtBuffer (TxtBufState)

/-! ## One buffer at a time is in progress -/

section Exclusive

variable {g : Generics} {c : Config} {s : State} {i : Input}

/-- A lock command releases nothing. -/
theorem lock_single (h : (txtbHwCmd (step g c s i)).lock = true) :
    (txtbHwCmd (step g c s i)).unlock = false := by
  simp only [txtbHwCmd, step, CanCore.step, ProtocolControl.step] at h ⊢
  split at h
  · rename_i hupd
    rw [if_pos hupd]
    rw [ProtocolControl.out_lock] at h
    obtain ⟨he, hq, -⟩ := ProtocolControl.out_setTransmitterI h
    rw [ProtocolControl.out_unlock he, Bool.or_eq_false_iff]
    constructor
    · by_contra hl
      simp only [Bool.not_eq_false] at hl
      have hst := (ProtocolControl.out_lost hl).1
      revert hq hst
      generalize ProtocolControl.Regs.currState _ = st
      cases st <;> decide
    · revert hq
      generalize ProtocolControl.Regs.currState _ = st
      cases st <;> first | decide | simp [ProtocolControl.PcState.inPause]
  · cases h

/-- Commands of protocol control are for the buffer committed last. -/
theorem hwCmd_current {k : Nat} (h : s.arb.currTxtbIndex = k) :
    TxtBuffer.hwCmd (txtbInput g c s i k) = txtbHwCmd s := by
  have hcs : (txtbInput g c s i k).txtbHwCmdCs = true := by
    simp [txtbInput, swInput, h]
  rw [TxtBuffer.hwCmd, if_pos hcs]
  rfl

theorem hwCmd_lock {k : Nat} (h : (TxtBuffer.hwCmd (txtbInput g c s i k)).lock = true) :
    s.arb.currTxtbIndex = k ∧ (txtbHwCmd s).lock = true := by
  have hcurr : s.arb.currTxtbIndex = k := by
    by_contra hne
    have hcs : ¬ (txtbInput g c s i k).txtbHwCmdCs = true := by
      simpa [txtbInput, swInput] using Ne.symm hne
    rw [TxtBuffer.hwCmd, if_neg hcs] at h
    cases h
  exact ⟨hcurr, hwCmd_current hcurr ▸ h⟩

/-- The arbitrator is locked on a buffer in progress. -/
structure Exclusive (s : State) : Prop where
  single : (txtbHwCmd s).lock = true → (txtbHwCmd s).unlock = false
  offered : (txtbHwCmd s).lock = true → s.arb.fsm = .idle ∨ s.arb.tranFrameValidCom = true
  locked : s.arb.fsm = .locked → s.arb.tranFrameValidCom = true
  held : ∀ k, (s.bufs k).currState.inProgress = true →
    s.arb.fsm = .locked ∧ s.arb.currTxtbIndex = k

namespace Exclusive

theorem of_reset (mem : Nat → Nat → RxBuffer.Word) (dataOut : Nat → RxBuffer.Word) :
    Exclusive (reset mem dataOut) where
  single h := nomatch h
  offered h := nomatch h
  locked h := nomatch h
  held _ h := nomatch h

theorem next_held (h : Exclusive s) (hf : (txtbHwCmd s).lock = true → s.arb.fsm ≠ .idle) {k : Nat}
    (hk : ((step g c s i).bufs k).currState.inProgress = true) :
    (step g c s i).arb.fsm = .locked ∧ (step g c s i).arb.currTxtbIndex = k := by
  have hlocked : (s.arb.fsm = .locked ∨ (s.arb.fsm ≠ .idle ∧ (txtbHwCmd s).lock = true)) ∧
      (txtbHwCmd s).unlock = false ∧ s.arb.currTxtbIndex = k := by
    rcases TxtBuffer.enter_inProgress hk with ⟨hp, hu⟩ | ⟨-, hl⟩
    · obtain ⟨hfsm, hcurr⟩ := h.held k hp
      exact ⟨.inl hfsm, hwCmd_current hcurr ▸ hu, hcurr⟩
    · obtain ⟨hcurr, hl⟩ := hwCmd_lock hl
      exact ⟨.inr ⟨hf hl, hl⟩, h.single hl, hcurr⟩
  obtain ⟨hst, hu, hcurr⟩ := hlocked
  have hnext : (step g c s i).arb.fsm = .locked := TxArbitrator.locked_next hst hu
  exact ⟨hnext, (TxArbitrator.commit_index (TxArbitrator.enter_locked hnext).2).trans hcurr⟩

theorem step (h : Exclusive s) (hf : (txtbHwCmd s).lock = true → s.arb.fsm ≠ .idle) :
    Exclusive (step g c s i) where
  single := lock_single
  offered hl := by
    have ht := lock_offered hl
    simp only [TxArbitrator.tranFrameValid, TxArbitrator.validatedBuffer, TxArbitrator.txArbLocked,
      Bool.or_eq_true, Bool.and_eq_true, beq_iff_eq] at ht
    exact TxArbitrator.valid_kept (ht.elim (·.2) h.locked)
  locked hl := by
    have hcom : s.arb.tranFrameValidCom = true := by
      rcases (TxArbitrator.enter_locked hl).1 with hlk | hlock
      · exact h.locked hlk
      · exact (h.offered hlock).resolve_left (hf hlock)
    refine (TxArbitrator.valid_kept hcom).resolve_left fun hidle => ?_
    exact absurd (hidle.symm.trans hl) (by decide)
  held _ hk := h.next_held hf hk

end Exclusive

end Exclusive

/-! ## A pair -/

/-- `mr_tx_command_txbi` of the memory registers. In backup mode a command for an
original is given to its backup, too. -/
def mrTxCommandTxbi (txbbm : Bool) (txb : Nat → Bool) (k : Nat) : Bool :=
  if k % 2 == 1 && txbbm then txb (k - 1) || txb k else txb k

/-- Inputs of a cycle, given the buffers that software addresses. -/
def mirrored (i : Input) : Input :=
  { i with mrTxCommandTxbi := mrTxCommandTxbi i.mrModeTxbbm i.mrTxCommandTxbi }

section Pair

variable (g : Generics) (c : Config) (p : Nat)

def setsReady (s : State) (i : Input) : Bool :=
  TxtBuffer.txcrValid (s.bufs (2 * p)) (swInput c s (mirrored i) (2 * p))

def setsEmpty (s : State) (i : Input) : Bool :=
  TxtBuffer.txceValid (s.bufs (2 * p)) (swInput c s (mirrored i) (2 * p))

def entersOk (before after : TxtBufState) : Nat := if before ≠ .ok ∧ after = .ok then 1 else 0

/-- How often a buffer of the pair got to OK since the pair was last set ready. -/
def watchOk (n : Nat) (s : State) (i : Input) : Nat :=
  let s' := step g c s (mirrored i)
  if setsReady c p s i then 0
  else n + entersOk (s.bufs (2 * p)).currState (s'.bufs (2 * p)).currState +
    entersOk (s.bufs (2 * p + 1)).currState (s'.bufs (2 * p + 1)).currState

def pairStep : State × Nat → Input → State × Nat :=
  watched (fun s i => step g c s (mirrored i)) (watchOk g c p)

/-- Backup mode is on, software addresses the original only, and sets the pair ready
only when neither buffer is ready or in progress. -/
structure Driven (s : State) (i : Input) : Prop where
  mode : i.mrModeTxbbm = true
  original : i.mrTxCommandTxbi (2 * p + 1) = false
  done : setsReady c p s i = true →
    (s.bufs (2 * p)).currState.transient = false ∧
      (s.bufs (2 * p + 1)).currState.transient = false

/-- No lock command meets an idle arbitrator, the pair is not set ready while its
backup is the buffer committed last and still offered, and it is not set empty while its
backup is ready or in progress. -/
structure Settled (s : State) (i : Input) : Prop where
  followed : (txtbHwCmd s).lock = true → s.arb.fsm ≠ .idle
  withdrawn : setsReady c p s i = true →
    ¬ (s.arb.currTxtbIndex = 2 * p + 1 ∧ s.arb.tranFrameValidCom = true)
  kept : setsEmpty c p s i = true → (s.bufs (2 * p + 1)).currState.transient = false

instance (s : State) (i : Input) : Decidable (Driven c p s i) :=
  decidable_of_iff (i.mrModeTxbbm = true ∧ i.mrTxCommandTxbi (2 * p + 1) = false ∧
      (setsReady c p s i = true → (s.bufs (2 * p)).currState.transient = false ∧
        (s.bufs (2 * p + 1)).currState.transient = false))
    ⟨fun h => ⟨h.1, h.2.1, h.2.2⟩, fun h => ⟨h.mode, h.original, h.done⟩⟩

instance (s : State) (i : Input) : Decidable (Settled c p s i) :=
  decidable_of_iff (((txtbHwCmd s).lock = true → s.arb.fsm ≠ .idle) ∧
      (setsReady c p s i = true →
        ¬ (s.arb.currTxtbIndex = 2 * p + 1 ∧ s.arb.tranFrameValidCom = true)) ∧
      (setsEmpty c p s i = true → (s.bufs (2 * p + 1)).currState.transient = false))
    ⟨fun h => ⟨h.1, h.2.1, h.2.2⟩, fun h => ⟨h.followed, h.withdrawn, h.kept⟩⟩

/-- A backup waits for its original or replaces it after a parity error. -/
structure Backed (s : State) (n : Nat) : Prop extends Exclusive s where
  same : (s.bufs (2 * p)).mrTxCommandTxcrQ = (s.bufs (2 * p + 1)).mrTxCommandTxcrQ ∧
    (s.bufs (2 * p)).mrTxCommandTxcaQ = (s.bufs (2 * p + 1)).mrTxCommandTxcaQ
  committed : s.arb.currTxtbIndex = 2 * p + 1 → s.arb.tranFrameValidCom = true →
    (s.bufs (2 * p + 1)).currState.transient = true → (s.bufs (2 * p)).currState = .parityErr
  backed : (s.bufs (2 * p + 1)).currState.transient = true →
    (s.bufs (2 * p)).currState.backed = true
  once : n ≤ 1
  ended : n = 1 → (s.bufs (2 * p)).currState.transient = false ∧
    (s.bufs (2 * p + 1)).currState.transient = false

end Pair

namespace Backed

variable {g : Generics} {c : Config} {p n : Nat} {s : State} {i : Input}

theorem of_reset (mem : Nat → Nat → RxBuffer.Word) (dataOut : Nat → RxBuffer.Word) :
    Backed p (reset mem dataOut) 0 where
  toExclusive := .of_reset mem dataOut
  same := ⟨rfl, rfl⟩
  committed _ h := nomatch h
  backed h := nomatch h
  once := Nat.zero_le 1
  ended h := nomatch h

/-- A backup in progress has taken the place of its original. -/
theorem replaced (h : Backed p s n) (hk : (s.bufs (2 * p + 1)).currState.inProgress = true) :
    (s.bufs (2 * p)).currState = .parityErr := by
  obtain ⟨hfsm, hcurr⟩ := h.held _ hk
  refine h.committed hcurr (h.locked hfsm) ?_
  cases hs : (s.bufs (2 * p + 1)).currState <;> rw [hs] at hk <;>
    first | rfl | exact absurd hk (by decide)

theorem not_both (h : Backed p s n) :
    ¬ ((s.bufs (2 * p)).currState.inProgress = true ∧
      (s.bufs (2 * p + 1)).currState.inProgress = true) := by
  rintro ⟨ho, hb⟩
  have := (h.held _ ho).2.symm.trans (h.held _ hb).2
  omega

/-! ### Commands for the pair -/

theorem addressed (hd : Driven c p s i) :
    (mirrored i).mrTxCommandTxbi (2 * p) = i.mrTxCommandTxbi (2 * p) ∧
      (mirrored i).mrTxCommandTxbi (2 * p + 1) = i.mrTxCommandTxbi (2 * p) := by
  have h0 : 2 * p % 2 = 0 := by omega
  have h1 : (2 * p + 1) % 2 = 1 := by omega
  simp [mirrored, mrTxCommandTxbi, hd.mode, hd.original, h0, h1]

theorem backup_txcr (h : Backed p s n) (hd : Driven c p s i) :
    TxtBuffer.txcrValid (s.bufs (2 * p + 1)) (txtbInput g c s (mirrored i) (2 * p + 1)) =
      setsReady c p s i := by
  obtain ⟨h0, h1⟩ := addressed hd
  simp [setsReady, TxtBuffer.txcrValid, txtbInput, swInput, h0, h1, h.same.1]

theorem backup_abort (h : Backed p s n) (hd : Driven c p s i) :
    TxtBuffer.abortApplied (s.bufs (2 * p + 1)) (txtbInput g c s (mirrored i) (2 * p + 1)) =
      TxtBuffer.abortApplied (s.bufs (2 * p)) (txtbInput g c s (mirrored i) (2 * p)) := by
  obtain ⟨h0, h1⟩ := addressed hd
  simp [TxtBuffer.abortApplied, txtbInput, swInput, h0, h1, h.same.2]

/-- While the backup is ready or in progress, the original stays in parity error. -/
theorem parityErr_stays (hd : Driven c p s i) (hs : Settled c p s i)
    (hb : (s.bufs (2 * p + 1)).currState.transient = true)
    (ho : (s.bufs (2 * p)).currState = .parityErr) :
    ((step g c s (mirrored i)).bufs (2 * p)).currState = .parityErr := by
  refine TxtBuffer.parityErr_kept ho ?_ ?_
  · refine Bool.eq_false_iff.mpr fun hr => ?_
    exact absurd (hb.symm.trans (hd.done hr).2) (by decide)
  · refine Bool.eq_false_iff.mpr fun he => ?_
    exact absurd (hb.symm.trans (hs.kept he)) (by decide)

/-! ### The offer -/

/-- The backup is committed only when its original is in parity error. -/
theorem commit_parityErr (h : Backed p s n) (hd : Driven c p s i)
    (hc : (TxArbitrator.fsmOut g.count s.arb (arbInput g c s (mirrored i))).commitDblBufs = true)
    (hk : TxArbitrator.selectBufIndex g.count (arbInput g c s (mirrored i)) = 2 * p + 1) :
    (s.bufs (2 * p + 1)).currState.transient = true ∧
      (s.bufs (2 * p)).currState = .parityErr := by
  obtain ⟨hfsm, -, hav, -, -⟩ := TxArbitrator.commit_cases hc
  have hb := TxArbitrator.selected_available hav
  rw [hk] at hb
  have ho : TxtBuffer.txtbAvailable (s.bufs (2 * p)) (swInput c s (mirrored i) (2 * p)) = false :=
    TxArbitrator.backup_selected hd.mode hav hk
  have hready : (s.bufs (2 * p + 1)).currState = .ready := TxtBuffer.available_ready hb
  have htr := TxtBuffer.ready_transient hready
  refine ⟨htr, ?_⟩
  have hst := h.backed htr
  cases hs : (s.bufs (2 * p)).currState <;> rw [hs] at hst <;> first | rfl | cases hst
  case ready =>
    -- the backup would be aborted with it
    have hab : TxtBuffer.abortApplied (s.bufs (2 * p)) (swInput c s (mirrored i) (2 * p)) =
        true := by
      simpa [TxtBuffer.txtbAvailable, hs] using ho
    have hab' := (h.backup_abort (g := g) hd).trans hab
    have hna : TxtBuffer.abortApplied (s.bufs (2 * p + 1))
        (swInput c s (mirrored i) (2 * p + 1)) = false := by
      simpa [arbInput, TxtBuffer.txtbAvailable, hready] using hb
    exact absurd (hna.symm.trans hab') (by decide)
  case txProg =>
    have hlk := (h.held (2 * p) (by rw [hs]; rfl)).1
    rw [hfsm] at hlk
    cases hlk

theorem next_committed (h : Backed p s n) (hd : Driven c p s i) (hs : Settled c p s i)
    (hk : (step g c s (mirrored i)).arb.currTxtbIndex = 2 * p + 1)
    (hv : (step g c s (mirrored i)).arb.tranFrameValidCom = true)
    (hb : ((step g c s (mirrored i)).bufs (2 * p + 1)).currState.transient = true) :
    ((step g c s (mirrored i)).bufs (2 * p)).currState = .parityErr := by
  cases hc : (TxArbitrator.fsmOut g.count s.arb (arbInput g c s (mirrored i))).commitDblBufs
  · have hcurr : s.arb.currTxtbIndex = 2 * p + 1 := (TxArbitrator.commit_index hc).symm.trans hk
    have hcom : s.arb.tranFrameValidCom = true :=
      (TxArbitrator.valid_cases hv).resolve_left (by simp [hc])
    cases htr : (s.bufs (2 * p + 1)).currState.transient
    · have hr := TxtBuffer.enter_transient htr hb
      rw [h.backup_txcr hd] at hr
      exact absurd ⟨hcurr, hcom⟩ (hs.withdrawn hr)
    · exact parityErr_stays hd hs htr (h.committed hcurr hcom htr)
  · have hsel : TxArbitrator.selectBufIndex g.count (arbInput g c s (mirrored i)) = 2 * p + 1 := by
      simpa [step, TxArbitrator.step, hc] using hk
    obtain ⟨htr, ho⟩ := h.commit_parityErr hd hc hsel
    exact parityErr_stays hd hs htr ho

/-! ### The original -/

/-- A backup that is locked has been committed. -/
theorem backup_unlocked (h : Backed p s n) (hs : Settled c p s i)
    (hb : (s.bufs (2 * p + 1)).currState.transient = true)
    (ho : (s.bufs (2 * p)).currState ≠ .parityErr) :
    (TxtBuffer.hwCmd (txtbInput g c s (mirrored i) (2 * p + 1))).lock = false := by
  refine Bool.eq_false_iff.mpr fun hl => ho ?_
  obtain ⟨hcurr, hl⟩ := hwCmd_lock hl
  exact h.committed hcurr ((h.offered hl).resolve_left (hs.followed hl)) hb

/-- When the original is done with the frame, so is a backup that waits. -/
theorem dropped_together (h : Backed p s n) (hd : Driven c p s i)
    (ho : (s.bufs (2 * p)).currState = .ready ∨ (s.bufs (2 * p)).currState = .txProg)
    (hdone : ((step g c s (mirrored i)).bufs (2 * p)).currState.backed = false) :
    TxtBuffer.goToFailed (txtbInput g c s (mirrored i) (2 * p + 1)) = true ∨
      TxtBuffer.abortApplied (s.bufs (2 * p + 1)) (txtbInput g c s (mirrored i) (2 * p + 1)) =
        true ∨
      TxtBuffer.bufferSkipped (txtbInput g c s (mirrored i) (2 * p + 1)) = true := by
  have h0 : 2 * p % 2 = 0 := by omega
  have h1 : (2 * p + 1) % 2 = 1 := by omega
  have hbb : (txtbInput g c s (mirrored i) (2 * p)).txtbIsBb = false := by
    simp [txtbInput, TxArbitrator.txtbIsBb, h0]
  rcases TxtBuffer.leave_backed ho hbb hdone with hf | ha | ⟨hst, hcmd⟩
  · exact .inl hf
  · exact .inr (.inl ((h.backup_abort hd).trans ha))
  · obtain ⟨-, hcurr⟩ := h.held (2 * p) (by rw [hst]; rfl)
    rw [hwCmd_current hcurr] at hcmd
    have hmode : (mirrored i).mrModeTxbbm = true := hd.mode
    have hskip : (txtbInput g c s (mirrored i) (2 * p + 1)).txtbIsBb = true := by
      simp [txtbInput, TxArbitrator.txtbIsBb, arbInput, h1, hcurr, hst, hmode,
        TxtBufState.transient]
    exact .inr (.inr (by rw [TxtBuffer.bufferSkipped, hskip, Bool.and_true]; exact hcmd))

theorem next_backed (h : Backed p s n) (hd : Driven c p s i) (hs : Settled c p s i)
    (hb : ((step g c s (mirrored i)).bufs (2 * p + 1)).currState.transient = true) :
    ((step g c s (mirrored i)).bufs (2 * p)).currState.backed = true := by
  cases htr : (s.bufs (2 * p + 1)).currState.transient
  · have hr := TxtBuffer.enter_transient htr hb
    rw [h.backup_txcr hd] at hr
    have hready : ((step g c s (mirrored i)).bufs (2 * p)).currState = .ready :=
      TxtBuffer.set_ready (hd.done hr).1 hr
    rw [hready]
    rfl
  · by_cases hpe : (s.bufs (2 * p)).currState = .parityErr
    · rw [parityErr_stays hd hs htr hpe]
      rfl
    · have ho : (s.bufs (2 * p)).currState = .ready ∨ (s.bufs (2 * p)).currState = .txProg := by
        have := h.backed htr
        cases hst : (s.bufs (2 * p)).currState <;> simp_all [TxtBufState.backed]
      have hready : (s.bufs (2 * p + 1)).currState = .ready := by
        have := fun hk => hpe (h.replaced hk)
        cases hst : (s.bufs (2 * p + 1)).currState <;>
          simp_all [TxtBufState.transient, TxtBufState.inProgress]
      by_contra hdone
      simp only [Bool.not_eq_true] at hdone
      have hdrop := TxtBuffer.ready_dropped (g := g.txtb) (d := 2 * p + 1) hready
        (h.backup_unlocked hs htr hpe) (h.dropped_together hd ho hdone)
      exact absurd (hb.symm.trans hdrop) (by decide)

/-! ### At most one buffer gets to OK -/

theorem inProgress_transient {st : TxtBufState} (h : st.inProgress = true) :
    st.transient = true := by
  cases st <;> first | rfl | exact absurd h (by decide)

theorem count_zero (h : Backed p s n)
    (htr : (s.bufs (2 * p)).currState.transient = true ∨
      (s.bufs (2 * p + 1)).currState.transient = true) : n = 0 := by
  by_contra hn
  obtain ⟨ho, hb⟩ := h.ended (by have := h.once; omega)
  rw [ho, hb] at htr
  simp at htr

/-- The pair is done after one of its buffers got to OK. -/
theorem next_over (h : Backed p s n) (hd : Driven c p s i) (hs : Settled c p s i)
    (hr : setsReady c p s i = false) :
    watchOk g c p n s i = 0 ∨ (watchOk g c p n s i = 1 ∧
      ((step g c s (mirrored i)).bufs (2 * p)).currState.transient = false ∧
      ((step g c s (mirrored i)).bufs (2 * p + 1)).currState.transient = false) := by
  simp only [watchOk, hr, entersOk]
  by_cases ho : (s.bufs (2 * p)).currState ≠ .ok ∧
      ((step g c s (mirrored i)).bufs (2 * p)).currState = .ok
  · have hprog : (s.bufs (2 * p)).currState.inProgress = true := TxtBuffer.enter_ok ho.1 ho.2
    have hb : ¬ ((s.bufs (2 * p + 1)).currState ≠ .ok ∧
        ((step g c s (mirrored i)).bufs (2 * p + 1)).currState = .ok) :=
      fun hb => h.not_both ⟨hprog, TxtBuffer.enter_ok hb.1 hb.2⟩
    rw [if_pos ho, if_neg hb, h.count_zero (.inl (inProgress_transient hprog)), ho.2]
    refine .inr ⟨rfl, rfl, Bool.eq_false_iff.mpr fun htr => ?_⟩
    have := h.next_backed (g := g) hd hs htr
    rw [ho.2] at this
    cases this
  · by_cases hb : (s.bufs (2 * p + 1)).currState ≠ .ok ∧
        ((step g c s (mirrored i)).bufs (2 * p + 1)).currState = .ok
    · have hprog : (s.bufs (2 * p + 1)).currState.inProgress = true :=
        TxtBuffer.enter_ok hb.1 hb.2
      have htr := inProgress_transient hprog
      rw [if_neg ho, if_pos hb, h.count_zero (.inr htr), hb.2,
        parityErr_stays hd hs htr (h.replaced hprog)]
      exact .inr ⟨rfl, rfl, rfl⟩
    · rw [if_neg ho, if_neg hb]
      rcases Nat.eq_zero_or_pos n with rfl | hn
      · exact .inl rfl
      · obtain rfl : n = 1 := by have := h.once; omega
        obtain ⟨ho, hb⟩ := h.ended rfl
        refine .inr ⟨rfl, Bool.eq_false_iff.mpr fun htr => ?_, Bool.eq_false_iff.mpr fun htr => ?_⟩
        · have hset := TxtBuffer.enter_transient ho htr
          exact absurd (hr.symm.trans hset) (by decide)
        · have hset := TxtBuffer.enter_transient hb htr
          rw [h.backup_txcr hd] at hset
          exact absurd (hr.symm.trans hset) (by decide)

theorem step (h : Backed p s n) (hd : Driven c p s i) (hs : Settled c p s i) :
    Backed p (step g c s (mirrored i)) (watchOk g c p n s i) where
  toExclusive := h.toExclusive.step hs.followed
  same := ⟨rfl, rfl⟩
  committed := h.next_committed hd hs
  backed := h.next_backed hd hs
  once := by
    cases hr : setsReady c p s i
    · rcases h.next_over (g := g) hd hs hr with hn | ⟨hn, -⟩ <;> omega
    · simp [watchOk, hr]
  ended hn := by
    cases hr : setsReady c p s i
    · rcases h.next_over (g := g) hd hs hr with hz | ⟨-, hdone⟩
      · omega
      · exact hdone
    · simp [watchOk, hr] at hn

end Backed

/-- What a pair is for: one buffer at a time, the backup after a parity error only, and
one frame sent for each command. -/
structure PairSafe (p : Nat) (q : State × Nat) : Prop where
  exclusive : ¬ ((q.1.bufs (2 * p)).currState.inProgress = true ∧
    (q.1.bufs (2 * p + 1)).currState.inProgress = true)
  replaced : (q.1.bufs (2 * p + 1)).currState.inProgress = true →
    (q.1.bufs (2 * p)).currState = .parityErr
  once : q.2 ≤ 1

theorem backup_pair_safe (g : Generics) (c : Config) (mem : Nat → Nat → RxBuffer.Word)
    (dataOut : Nat → RxBuffer.Word) (p : Nat) (is : List Input)
    (h : Admits (pairStep g c p) (fun q i => Driven c p q.1 i ∧ Settled c p q.1 i)
      (reset mem dataOut, 0) is) :
    PairSafe p (run (pairStep g c p) (reset mem dataOut, 0) is) := by
  have hinv := run_invariant (pairStep g c p) _ (fun q => Backed p q.1 q.2)
    (fun _ _ hq hok => hq.step hok.1 hok.2) (Backed.of_reset mem dataOut) is h
  exact ⟨hinv.not_both, hinv.replaced, hinv.once⟩

/-! ### Runs of four buffers -/

def fourBuffers : Generics := ⟨4, by decide, by decide, ⟨.fpga, true⟩⟩

/-- Every word has the parity of the bit stored for it. -/
def soundRam : State := reset (fun _ _ => 1) fun _ => 0

def backupCycle (i : Input) : Input :=
  { i with mrModeTxbbm := true, mrSettingsPchke := true, mrModeTttm := false }

def setEmpty (k : Nat) : List Input :=
  [{ quietCycle with mrTxCommandTxce := true, mrTxCommandTxbi := (· == k) },
    { quietCycle with mrTxCommandTxbi := (· == k) }]

/-- A fault in the low word of the timestamp of buffer 2. -/
def faultTwo : Input :=
  { quietCycle with ramFault := fun k => if k == 2 then some (2, 2) else none }

/-- Eleven recessive bits, then buffer 2 is set ready and its backup is committed. -/
def replaceTwo : List Input :=
  (List.replicate 11 true).flatMap (bitTime true) ++ faultTwo :: setReady 2 ++
    List.replicate 15 quietCycle

theorem backup_pair_safe_replaced :
    let q := run (pairStep fourBuffers nominalConfig 1) (soundRam, 0)
      ((replaceTwo ++ bitTime true true).map backupCycle)
    (q.1.bufs 3).currState = .txProg ∧ PairSafe 1 q := by
  have hend : (fun q : State × Nat => (q.1.bufs 3).currState = .txProg)
      (run (pairStep fourBuffers nominalConfig 1) (soundRam, 0)
        ((replaceTwo ++ bitTime true true).map backupCycle)) := by
    rw [pairStep, step_eq_tabled]
    decide +kernel
  have hrun : Admits (pairStep fourBuffers nominalConfig 1)
      (fun q i => Driven nominalConfig 1 q.1 i ∧ Settled nominalConfig 1 q.1 i) (soundRam, 0)
      ((replaceTwo ++ bitTime true true).map backupCycle) := by
    rw [pairStep, step_eq_tabled]
    decide +kernel
  exact ⟨hend, backup_pair_safe _ _ _ _ _ _ hrun⟩

/-- The pair of buffer 2 is set empty before its backup is locked. -/
def emptied : List Input := replaceTwo ++ setEmpty 2 ++ bitTime true true

/-- Buffer 0 is ready, too. The pair of buffer 2 is aborted when its backup is committed
and set ready again before another frame is. -/
def refilled : List Input :=
  (List.replicate 11 true).flatMap (bitTime true) ++ faultTwo :: setReady 0 ++ setReady 2 ++
    List.replicate 18 quietCycle ++ setAbort 2 ++ setReady 2 ++ bitTime true true

/-- Buffer 0 is committed and protocol control takes its frame in the cycle in which
the selection meets the fault of buffer 2. Buffer 2 is aborted, the frame is destroyed,
and after the error frame and the intermission another one is taken. -/
def overtaken : List Input :=
  (List.replicate 11 true).flatMap (bitTime true) ++ faultTwo :: setReady 0 ++
    List.replicate 12 quietCycle ++ setReady 2 ++
    [quietCycle, sampleCycle true true, quietCycle, quietCycle] ++ setAbort 2 ++
    List.replicate 10 quietCycle ++ sendCycle true true :: bitTime true true ++
    (List.replicate 6 false ++ List.replicate 11 true).flatMap (bitTime true)

/-- A run that software drives as it should, and the states of the buffers after it. -/
def Reaches (is : List Input) (states : List TxtBufState) : Prop :=
  Admits (fun s i => step fourBuffers nominalConfig s (mirrored i))
    (fun s i => ∀ p < 2, Driven nominalConfig p s i) soundRam (is.map backupCycle) ∧
  (List.range 4).map (fun k => ((run (fun s i => step fourBuffers nominalConfig s (mirrored i))
    soundRam (is.map backupCycle)).bufs k).currState) = states

/-- A backup is locked while its original is empty or ready again, and both buffers of
a pair are in progress. -/
theorem backup_pair_broken :
    Reaches emptied [.empty, .empty, .empty, .txProg] ∧
      Reaches refilled [.ready, .ready, .ready, .txProg] ∧
      Reaches overtaken [.txProg, .txProg, .parityErr, .aborted] := by
  unfold Reaches
  rw [step_eq_tabled]
  decide +kernel

end TxPath
