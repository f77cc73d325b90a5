import CtuCanFd.Lib.SyncMachine
import CtuCanFd.TxPath.Parity

/-!
# Completion interrupt of a TXT buffer

The interrupt is decoded from the command of the core and the state the buffer is in,
apart from the next state. A buffer in transmission that meets an error or a lost
arbitration in the cycle in which software aborts it is aborted without an interrupt.
-/

open SyncMachine

namespace TxtBuffer

variable {g : Generics} {id : Nat} {s : State} {i : Input}

/-- `txtb_hw_cmd_int`. -/
def txtbHwCmdInt (g : Generics) (s : State) (i : Input) : Bool :=
  ((hwCmd i).failed || (hwCmd i).valid ||
      (((hwCmd i).arbl || (hwCmd i).err) && s.currState == .abProg)) ||
    (i.isBusOff && nextState g s i == .failed && s.currState.transient)

/-- The states in which the driver takes a frame back. -/
def TxtBufState.finished : TxtBufState → Bool
  | .ok | .failed | .aborted => true
  | _ => false

/-- The core gives a command to the buffer. -/
def commanded (i : Input) : Bool :=
  (hwCmd i).lock || (hwCmd i).valid || (hwCmd i).err || (hwCmd i).arbl || (hwCmd i).failed

/-- The transmission from the buffer ends in this cycle, by a command of the core. -/
def completes (g : Generics) (s : State) (i : Input) : Bool :=
  s.currState.inProgress && (nextState g s i).finished && commanded i

/-- The modes that reject every transmission are constant. -/
def ModesAre (bmm rom : Bool) (i : Input) : Prop := i.mrModeBmm = bmm ∧ i.mrModeRom = rom

instance (bmm rom : Bool) (i : Input) : Decidable (ModesAre bmm rom i) :=
  inferInstanceAs (Decidable (_ ∧ _))

/-- Software aborts the transmission in the cycle in which it meets an error or loses the
arbitration. -/
def abortMeetsError (s : State) (i : Input) : Bool :=
  s.currState == .txProg && arblOrErr i && abortApplied s i

/-! ## One cycle -/

/-- With one of the modes on, a ready buffer is failed before it can be locked. -/
theorem next_not_inProgress {bmm rom : Bool} (hmode : (bmm || rom) = true)
    (h : s.currState.inProgress = false) (hi : ModesAre bmm rom i) :
    (nextState g s i).inProgress = false := by
  have hfail : goToFailed i = true := by
    rw [goToFailed, hi.1, hi.2, Bool.or_assoc, hmode, Bool.or_true]
  cases hst : s.currState with
  | txProg | abProg => rw [hst] at h; cases h
  | ready => simp [nextState, hst, hfail, TxtBufState.inProgress]
  | empty =>
    simp only [nextState, hst]
    split <;> rfl
  | failed | aborted | ok | parityErr =>
    simp only [nextState, hst, setByCommand]
    split_ifs <;> rfl

/-- Transitions out of a transmission into a final state. -/
theorem completes_cases (h : completes g s i = true) :
    goToFailed i = true ∧ nextState g s i = .failed ∨
      (hwCmd i).failed = true ∨ (hwCmd i).valid = true ∨
      arblOrErr i = true ∧ (s.currState = .abProg ∨ abortMeetsError s i = true) := by
  simp only [completes, Bool.and_eq_true] at h
  obtain ⟨⟨hprog, hfin⟩, -⟩ := h
  by_cases hf : goToFailed i = true
  · cases hst : s.currState <;> rw [hst] at hprog <;>
      simp [TxtBufState.inProgress, nextState, hst, hf] at hprog ⊢
  · cases hst : s.currState with
    | txProg =>
      simp only [nextState, hst, hf] at hfin
      simp only [abortMeetsError, hst]
      split_ifs at hfin <;> simp_all [TxtBufState.finished]
    | abProg =>
      simp only [nextState, hst, hf] at hfin
      split_ifs at hfin <;> simp_all [TxtBufState.finished]
    | empty | ready | ok | failed | aborted | parityErr => rw [hst] at hprog; cases hprog

/-- The transition is reported unless an abort meets an error, or a mode was switched on during
the transmission. -/
theorem completes_reported (hmode : (i.mrModeBmm || i.mrModeRom) = false)
    (habort : abortMeetsError s i = false) (h : completes g s i = true) :
    txtbHwCmdInt g s i = true := by
  rcases completes_cases h with ⟨hf, hn⟩ | hf | hv | ⟨he, hab | hme⟩
  · have hoff : i.isBusOff = true := by
      simp only [goToFailed, Bool.or_assoc, hmode, Bool.or_false, Bool.and_eq_true] at hf
      exact hf.1
    have htr : s.currState.transient = true := by
      simp only [completes, Bool.and_eq_true] at h
      cases hst : s.currState <;> simp_all [TxtBufState.inProgress, TxtBufState.transient]
    simp [txtbHwCmdInt, hoff, hn, htr]
  · simp [txtbHwCmdInt, hf]
  · simp [txtbHwCmdInt, hv]
  · rw [arblOrErr, Bool.or_comm] at he
    simp [txtbHwCmdInt, he, hab]
  · rw [habort] at hme
    cases hme

/-! ## Runs -/

/-- A mode that rejects transmissions keeps the buffer out of transmission in every run. -/
theorem run_inProgress {bmm rom : Bool} {is : List Input} (hmode : (bmm || rom) = true)
    (hs : s.currState.inProgress = false)
    (h : Admits (step g id) (fun _ i => ModesAre bmm rom i) s is) :
    (run (step g id) s is).currState.inProgress = false :=
  run_invariant (step g id) _ (fun s => s.currState.inProgress = false)
    (fun _ _ hs hi => next_not_inProgress hmode hs hi) hs is h

/-- What a run from reset does in each of its cycles, with the abort of software kept apart from
errors. -/
def Orderly (bmm rom : Bool) (s : State) (i : Input) : Prop :=
  ModesAre bmm rom i ∧ abortMeetsError s i = false

instance (bmm rom : Bool) (s : State) (i : Input) : Decidable (Orderly bmm rom s i) :=
  inferInstanceAs (Decidable (_ ∧ _))

theorem Orderly.modes {bmm rom : Bool} {is : List Input}
    (h : Admits (step g id) (Orderly bmm rom) s is) :
    Admits (step g id) (fun _ i => ModesAre bmm rom i) s is := by
  induction is generalizing s with
  | nil => trivial
  | cons i is ih => exact ⟨h.1.1, ih h.2⟩

/-- Every end of a transmission in a cycle with a command of the core raises the interrupt. -/
theorem completion_interrupt (g : Generics) (id : Nat) (mem : Nat → RxBuffer.Word)
    (dataOut : RxBuffer.Word) (bmm rom : Bool) (is : List Input) (i : Input)
    (h : Admits (step g id) (Orderly bmm rom) (reset mem dataOut) (is ++ [i]))
    (hend : completes g (run (step g id) (reset mem dataOut) is) i = true) :
    txtbHwCmdInt g (run (step g id) (reset mem dataOut) is) i = true := by
  obtain ⟨hpast, ⟨⟨hbmm, hrom⟩, habort⟩, -⟩ := (admits_append _ _ _ _ _).mp h
  have hmode : (bmm || rom) = false := by
    by_contra hon
    have hidle := run_inProgress (Bool.not_eq_false _ ▸ hon) rfl (Orderly.modes hpast)
    simp [completes, hidle] at hend
  exact completes_reported (by rw [hbmm, hrom, hmode]) habort hend

/-! ## An abort that meets an error -/

/-- Software and the core address this buffer. -/
def selected : Input := { quiet with mrTxCommandTxbi := true, txtbHwCmdCs := true }

/-- Set ready, locked, and an abort by software in its first cycle. -/
def abortRun : List Input :=
  [{ selected with mrTxCommandTxcr := true }, selected,
    { selected with txtbHwCmd := { lock := true } }, { selected with mrTxCommandTxca := true }]

/-- The core reports an error. -/
def errorCycle : Input := { selected with txtbHwCmd := { err := true } }

def fpgaBuffer : Generics := ⟨.fpga, false⟩

/-- The buffer is aborted without an interrupt. -/
theorem aborted_without_interrupt :
    Admits (step fpgaBuffer 0) (fun _ i => ModesAre false false i)
        (reset (fun _ => 0) 0) (abortRun ++ [errorCycle]) ∧
      completes fpgaBuffer (run (step fpgaBuffer 0) (reset (fun _ => 0) 0) abortRun) errorCycle =
        true ∧
      nextState fpgaBuffer (run (step fpgaBuffer 0) (reset (fun _ => 0) 0) abortRun) errorCycle =
        .aborted ∧
      txtbHwCmdInt fpgaBuffer (run (step fpgaBuffer 0) (reset (fun _ => 0) 0) abortRun)
        errorCycle = false := by
  decide

/-- One cycle later the abort is pending when the error comes, and the interrupt is raised. -/
theorem abort_then_error_interrupts :
    nextState fpgaBuffer (run (step fpgaBuffer 0) (reset (fun _ => 0) 0) (abortRun ++ [selected]))
        errorCycle = .aborted ∧
      txtbHwCmdInt fpgaBuffer
        (run (step fpgaBuffer 0) (reset (fun _ => 0) 0) (abortRun ++ [selected])) errorCycle = true :=
  ⟨by decide, completion_interrupt fpgaBuffer 0 _ _ false false (abortRun ++ [selected]) errorCycle
    (by decide) (by decide)⟩

end TxtBuffer
