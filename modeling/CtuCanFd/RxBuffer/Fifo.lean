import CtuCanFd.RxBuffer.Refinement

/-!
# Contents and accounting of the RX buffer

With error-frame logging off, what software reads is what the core committed,
and every counter shown to software is a count of the abstract queue. The
asserted command protocol is not enough for this: it allows an abort in the
cycle that commits a frame, one cycle after the FSM has returned to idle, and
that abort sends the raw pointer back behind the frame just committed.
-/

namespace RxBuffer

open FrameQueue SyncMachine

/-- The core protocol with error-frame logging off. -/
structure LoggingOff (p : State × Monitor) (i : Input) : Prop extends CoreProtocol p i where
  noErrorFrames : i.mrModeErfm = false

instance (p : State × Monitor) (i : Input) : Decidable (LoggingOff p i) :=
  decidable_of_iff (CoreProtocol p i ∧ i.mrModeErfm = false)
    ⟨fun ⟨a, b⟩ => ⟨a, b⟩, fun h => ⟨h.toCoreProtocol, h.2⟩⟩

/-- The same without an abort in the cycle that commits. -/
structure QuietCommit (p : State × Monitor) (i : Input) : Prop extends LoggingOff p i where
  noAbortInCommit : p.1.commitRxFrame = true → i.recAbortF = false

instance (p : State × Monitor) (i : Input) : Decidable (QuietCommit p i) :=
  decidable_of_iff (LoggingOff p i ∧ (p.1.commitRxFrame = true → i.recAbortF = false))
    ⟨fun ⟨a, b⟩ => ⟨a, b⟩, fun h => ⟨h.toLoggingOff, h.2⟩⟩

namespace RxBufState

/-- An error frame is being stored. -/
def logging : RxBufState → Bool
  | storeErrFrameFormat | storeErrIdentifier | storeErrTsLow | storeErrTsHigh => true
  | _ => false

theorem logging_nextState {st : RxBufState} {i : Input} (off : i.mrModeErfm = false)
    (h : st.logging = false) : (st.nextState i).logging = false := by
  cases st <;> simp only [nextState, off, Bool.false_and, Bool.false_eq_true, if_false] <;>
    repeat' split
  all_goals first | rfl | exact h

end RxBufState

theorem QuietCommit.orderly {p : State × Monitor} {i : Input} (h : QuietCommit p i)
    (hlog : p.1.fsm.logging = false) : Orderly p i := by
  refine ⟨h.toCoreProtocol, h.noAbortInCommit, fun hst _ => ?_⟩
  simp [hst, RxBufState.logging] at hlog

theorem refines_run_loggingOff (g : Generics) (mem : Nat → Word) (dataOut : Word)
    (is : List Input)
    (ok : Admits (watchedStep g) QuietCommit (watchedReset g mem dataOut) is) :
    Refines g (run (watchedStep g) (watchedReset g mem dataOut) is) := by
  have hinv := run_invariant (watchedStep g) QuietCommit
    (fun p => Refines g p ∧ p.1.fsm.logging = false)
    (fun p i h hok => ⟨h.1.step_watched (hok.orderly h.2),
      RxBufState.logging_nextState hok.noErrorFrames h.2⟩)
    ⟨refines_reset g mem dataOut, rfl⟩ is ok
  exact hinv.1

/-! ## Frames in, words out -/

/-- Words of the frames committed since the last release, in commit order. -/
def committedWords (m : Monitor) : List Word := (m.committed.map StoredFrame.words).flatten

/-- The words returned so far are the committed ones in order, those not yet
returned are the words the buffer reports as taken, and an empty buffer has
returned everything. -/
def Delivers (g : Generics) (p : State × Monitor) : Prop :=
  p.2.returned <+: committedWords p.2 ∧
  (committedWords p.2).length = p.2.returned.length + (g.size - p.1.ptrs.rxMemFree) ∧
  (rxEmpty p.1 = true → p.2.returned = committedWords p.2)

instance (g : Generics) (p : State × Monitor) : Decidable (Delivers g p) :=
  inferInstanceAs (Decidable (_ ∧ _ ∧ _))

theorem Refines.delivers {g : Generics} {p : State × Monitor} (h : Refines g p) :
    Delivers g p := by
  have hlog : p.2.returned ++ p.2.queue.unread = committedWords p.2 := h.log
  have hfree := h.data.rxMemFree
  refine ⟨⟨_, hlog⟩, ?_, fun hempty => ?_⟩
  · rw [← hlog, List.length_append]
    omega
  · have hzero : p.2.queue.frameCount = 0 := by
      rw [← h.data.frameCount]
      simpa [rxEmpty] using hempty
    simpa [p.2.queue.unread_eq_nil_of_frameCount hzero] using hlog

/-- The FIFO keeps its promise over every run, for every size, with gated and
ungated RAM clock, whatever the RAM held before. -/
theorem fifo_refinement (g : Generics) (mem : Nat → Word) (dataOut : Word) (is : List Input)
    (ok : Admits (watchedStep g) QuietCommit (watchedReset g mem dataOut) is) :
    Delivers g (run (watchedStep g) (watchedReset g mem dataOut) is) :=
  (refines_run_loggingOff g mem dataOut is ok).delivers

/-! ### Runs of a 32 word buffer -/

def quiet : Input where
  recIdent := 0
  recDlc := 0
  recIdentType := false
  recFrameType := false
  recLbpf := false
  recIsRtr := true
  recBrs := false
  recEsi := false
  recIvld := true
  storeMetadataF := false
  storeDataF := false
  storeDataWord := 0
  recValidF := false
  recAbortF := false
  sofPulse := false
  errCaptErrType := 0
  errCaptErrPos := 0
  errCaptErrErp := false
  timestamp := 0
  currTxtbIndex := 0
  mrModeRxbam := true
  mrCommandCdo := false
  mrCommandCrxpe := false
  mrCommandRrb := false
  mrCommandRxrpmv := false
  mrRxDataRead := false
  mrRxSettingsRtsop := false
  mrSettingsPchke := false
  mrModeErfm := false
  mrTstControlTmaena := false
  mrTstControlTwrstb := false
  mrTstDestTstAddr := 0
  mrTstDestTstMtgt := 0
  mrTstWdataTstWdata := 0

def smallest : Generics := ⟨5, by decide, by decide, .asic, true⟩

/-- Storage of a remote frame up to its commit, which follows in the next cycle. -/
def remoteFrame (ident : BitVec 29) : List Input :=
  [{ quiet with storeMetadataF := true }, quiet, { quiet with recIdent := ident }, quiet, quiet,
    { quiet with recValidF := true, timestamp := 7 }, quiet, quiet]

def readWords (n : Nat) : List Input := List.replicate n { quiet with mrRxDataRead := true }

/-- Nine frames, each read while the next one is stored: the pointers wrap. -/
def wrappingRun : List Input :=
  quiet :: (List.range 9).flatMap fun k => remoteFrame (BitVec.ofNat 29 k) ++ quiet :: readWords 4

theorem fifo_refinement_wrapping :
    (run (watchedStep smallest) (watchedReset smallest (fun _ => 0) 0) wrappingRun).2.returned.length
      = 36 ∧
    Delivers smallest
      (run (watchedStep smallest) (watchedReset smallest (fun _ => 0) 0) wrappingRun) :=
  ⟨by decide +kernel, fifo_refinement smallest (fun _ => 0) 0 wrappingRun (by decide +kernel)⟩

/-- An abort in the commit cycle. After the first frame is read, the second one
is stored behind the read pointer and stale words are returned for it. -/
def abortInCommitRun : List Input :=
  quiet :: remoteFrame 1 ++ { quiet with recAbortF := true } :: readWords 4 ++
    remoteFrame 2 ++ quiet :: readWords 2

theorem abort_in_commit_loses_frame :
    Admits (watchedStep smallest) LoggingOff (watchedReset smallest (fun _ => 0) 0)
      abortInCommitRun ∧
    ¬ Delivers smallest
      (run (watchedStep smallest) (watchedReset smallest (fun _ => 0) 0) abortInCommitRun) := by
  decide +kernel

/-! ## Counters -/

/-- Every count the buffer keeps is a count of its queue. -/
structure Accounts (g : Generics) (p : State × Monitor) : Prop where
  free : p.1.ptrs.rxMemFree = g.size - p.2.queue.unread.length
  freeRaw : p.1.ptrs.rxMemFreeRaw =
    g.size - (p.2.queue.unread.length + p.2.queue.pending.length)
  occupied : p.2.queue.unread.length + p.2.queue.pending.length ≤ g.size
  permitted : isFreeWord p.1 = true ↔
    p.2.queue.unread.length + p.2.queue.pending.length < g.size
  frames : p.1.frameCount = p.2.queue.frameCount
  noWrap : p.2.queue.frameCount < 2 ^ g.frameCntWidth
  toRead : p.1.readCounter = p.2.queue.reading.length

theorem Refines.accounts {g : Generics} {p : State × Monitor} (h : Refines g p) :
    Accounts g p := by
  have hfree := h.data.rxMemFree
  have hraw := h.data.rxMemFreeRaw
  exact ⟨by omega, by omega, h.data.occupancy, h.data.isFreeWord_iff, h.data.frameCount,
    h.data.frameCount_lt, h.data.readCounter⟩

/-- The accounting holds in every state of every run with any mix of stored,
dropped and aborted frames, releases, overrun clears and reads. -/
theorem accounting_exact (g : Generics) (mem : Nat → Word) (dataOut : Word) (is : List Input)
    (ok : Admits (watchedStep g) QuietCommit (watchedReset g mem dataOut) is) :
    Accounts g (run (watchedStep g) (watchedReset g mem dataOut) is) :=
  (refines_run_loggingOff g mem dataOut is ok).accounts

/-- Frames, a release in the middle of one, and a partial read. -/
def releaseRun : List Input :=
  quiet :: remoteFrame 1 ++ quiet :: (remoteFrame 2).take 4 ++
    { quiet with mrCommandRrb := true } :: { quiet with recValidF := true } :: quiet :: quiet ::
    quiet :: remoteFrame 3 ++ quiet :: readWords 2

theorem accounting_exact_release :
    (run (watchedStep smallest) (watchedReset smallest (fun _ => 0) 0) releaseRun).1.readCounter
      = 2 ∧
    Accounts smallest
      (run (watchedStep smallest) (watchedReset smallest (fun _ => 0) 0) releaseRun) :=
  ⟨by decide +kernel, accounting_exact smallest (fun _ => 0) 0 releaseRun (by decide +kernel)⟩

/-- With an abort in the commit cycle the raw free count forgets the committed frame. -/
theorem abort_in_commit_miscounts :
    Admits (watchedStep smallest) LoggingOff (watchedReset smallest (fun _ => 0) 0)
      (abortInCommitRun.take 10) ∧
    ¬ Accounts smallest (run (watchedStep smallest) (watchedReset smallest (fun _ => 0) 0)
      (abortInCommitRun.take 10)) := by
  refine ⟨by decide +kernel, fun h => absurd h.freeRaw ?_⟩
  decide +kernel

end RxBuffer
