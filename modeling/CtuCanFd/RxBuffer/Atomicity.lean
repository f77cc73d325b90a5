import CtuCanFd.RxBuffer.Room
import CtuCanFd.RxBuffer.Fifo

/-!
# Frames are stored whole or not at all

A frame that runs out of space, is aborted or is hit by a release leaves the
readable contents alone, and the next frame that fits is stored. Error-frame
logging breaks this at one point: the last word of an error frame is written in
the cycle that decides on the commit, so an overrun met there comes too late
for `commit_proc`, which looks at the registered flag. And a frame given up for
an overrun is taken back one cycle after its end, so that the next frame must
not start in that very cycle.
-/

namespace RxBuffer

open FrameQueue SyncMachine RingSlots

/-- The words software would read, as the registers of the buffer delimit them. -/
def contents (g : Generics) (s : State) : List Word :=
  slots g.size s.ram.mem s.ptrs.readPointer (g.size - s.ptrs.rxMemFree)

/-- What a read in this cycle leaves of the readable words. -/
def afterTake (s : State) (i : Input) (l : List Word) : List Word :=
  if readIncrement s i then l.tail else l

/-- An orderly cycle, in which no frame starts while the raw side is still to be
taken back. -/
def Spaced (p : State × Monitor) (i : Input) : Prop :=
  Orderly p i ∧ (i.storeMetadataF = true → p.1.commitOverrunAbort = false)

instance (p : State × Monitor) (i : Input) : Decidable (Spaced p i) :=
  inferInstanceAs (Decidable (_ ∧ _))

/-- One cycle of an orderly run, from any state it reaches. -/
structure Atomic (g : Generics) (p : State × Monitor) (i : Input) : Prop where
  /-- Only frames never given up become readable. -/
  readable : p.2.returned ++ contents g p.1 = committedWords p.2
  commits : p.1.commitRxFrame = true → p.2.current ≠ none
  /-- Overrun and abort change nothing readable and give the frame up; with
  logging on, an error frame starts in its place. -/
  struck : i.mrCommandRrb = false → p.1.fsm ≠ .idle →
    (overrunCondition p.1 i || i.recAbortF) = true →
    contents g (step g p.1 i) = afterTake p.1 i (contents g p.1) ∧
    (step g p.1 i).frameCount + (readIncrement p.1 i && p.1.readCounter == 1).toNat =
      p.1.frameCount ∧
    (p.2.watch g p.1 i).committed = p.2.committed ∧
    ((p.2.watch g p.1 i).current = none ∨ (i.mrModeErfm = true ∧ i.recAbortF = true ∧
      (p.2.watch g p.1 i).current = some .blank))
  /-- A release clears the buffer and gives the frame up. -/
  released : i.mrCommandRrb = true → contents g (step g p.1 i) = [] ∧
    (step g p.1 i).frameCount = 0 ∧ (p.2.watch g p.1 i).current = none
  /-- When `store_metadata` comes, the raw side is at the committed one, unless the
  frame before is committed in this cycle. -/
  rolledBack : i.storeMetadataF = true → p.1.commitRxFrame = false →
    p.1.ptrs.writePointerRaw = p.1.ptrs.writePointer ∧
    p.1.ptrs.rxMemFreeRaw = p.1.ptrs.rxMemFree
  /-- The edge that takes `store_metadata` leaves it there in any case. -/
  started : i.storeMetadataF = true →
    (step g p.1 i).ptrs.writePointerRaw = (step g p.1 i).ptrs.writePointer ∧
    (step g p.1 i).ptrs.rxMemFreeRaw = (step g p.1 i).ptrs.rxMemFree
  /-- A frame that fits is committed, whole, in the cycle after its last word. -/
  fitting : i.mrCommandRrb = false → p.1.fsm = .storeEndTsHigh → p.2.released = false →
    p.2.need ≤ p.2.room → ∃ f, (p.2.watch g p.1 i).current = some f ∧
      f.words.length = p.2.need ∧ (step g p.1 i).commitRxFrame = true ∧
      ∀ j, Orderly (watchedStep g p i) j → j.mrCommandRrb = false →
        contents g (step g (step g p.1 i) j) =
          afterTake (step g p.1 i) j (contents g (step g p.1 i)) ++ f.words

section Step

variable {g : Generics} {s : State} {m : Monitor} {i : Input}

theorem Refines.contents_eq {p : State × Monitor} (h : Refines g p) :
    contents g p.1 = p.2.queue.unread := by
  have hfree := h.data.rxMemFree
  have hcont := h.data.contents
  have htake := slots_take g.size p.1.ram.mem p.1.ptrs.readPointer
    (show p.2.queue.unread.length ≤ p.2.queue.unread.length + p.2.queue.pending.length by omega)
  rw [hcont, List.take_left] at htake
  rw [contents, ← htake]
  congr 1
  omega

/-- Readable words after a cycle: what is left, and the frame it commits. -/
theorem Refines.contents_step (h : Refines g (s, m)) (ok : Orderly (s, m) i)
    (noRrb : i.mrCommandRrb = false) :
    contents g (step g s i) = afterTake s i (contents g s) ++
      if s.commitRxFrame then m.queue.pending else [] := by
  have hnext : contents g (step g s i) = (m.nextQueue s i).unread :=
    (h.step_watched ok).contents_eq
  have hnow : contents g s = m.queue.unread := h.contents_eq
  have hread : (afterRead s i m.queue).unread = afterTake s i m.queue.unread :=
    h.data.unread_afterRead
  have hedit := (h.stage.effect ok).unread_edit (afterRead s i m.queue)
  rw [hnext, hnow, ← hread]
  simp only [Monitor.nextQueue, noRrb, Bool.false_eq_true, if_false]
  change ((afterRead s i m.queue).edit (Monitor.editOf s i)).unread = _
  rw [hedit, pending_afterRead]
  cases s.commitRxFrame <;> simp

theorem Refines.frameCount_step (h : Refines g (s, m)) (ok : Orderly (s, m) i)
    (noRrb : i.mrCommandRrb = false) (noCommit : s.commitRxFrame = false) :
    (step g s i).frameCount + (readIncrement s i && s.readCounter == 1).toNat =
      s.frameCount := by
  have hnext : (step g s i).frameCount = (m.nextQueue s i).frameCount :=
    (h.step_watched ok).data.frameCount
  have hread : (afterRead s i m.queue).frameCount +
      (readIncrement s i && s.readCounter == 1).toNat = s.frameCount :=
    h.data.frameCount_afterRead
  have hedit := (h.stage.effect ok).frameCount_edit (afterRead s i m.queue)
  rw [hnext, ← hread]
  simp only [Monitor.nextQueue, noRrb, Bool.false_eq_true, if_false]
  change ((afterRead s i m.queue).edit (Monitor.editOf s i)).frameCount + _ = _
  simp [hedit, noCommit]

theorem struck_givenUp (noRrb : i.mrCommandRrb = false) (notIdle : s.fsm ≠ .idle)
    (strike : (overrunCondition s i || i.recAbortF) = true) :
    (m.watch g s i).current = none ∨ (i.mrModeErfm = true ∧ i.recAbortF = true ∧
      (m.watch g s i).current = some .blank) := by
  change m.nextCurrent s i = none ∨ (_ ∧ _ ∧ m.nextCurrent s i = some .blank)
  rw [nextCurrent_storing notIdle noRrb]
  cases hover : overrunCondition s i with
  | true => exact Or.inl (by simp)
  | false =>
    have habort : i.recAbortF = true := by simpa [hover] using strike
    cases herfm : i.mrModeErfm with
    | false => exact Or.inl (by simp [habort])
    | true =>
      cases hcur : m.current with
      | none => exact Or.inl (by simp [habort])
      | some f => exact Or.inr ⟨rfl, habort, by simp [habort]⟩

/-- Equal queue positions are equal pointers. -/
theorem Refines.rolledBack_of_empty {p : State × Monitor} (h : Refines g p)
    (hnil : p.2.queue.pending = []) :
    p.1.ptrs.writePointerRaw = p.1.ptrs.writePointer ∧
    p.1.ptrs.rxMemFreeRaw = p.1.ptrs.rxMemFree := by
  have hraw := h.data.writePointerRaw
  have hfree := h.data.rxMemFree
  have hfreeRaw := h.data.rxMemFreeRaw
  simp only [hnil, List.length_nil, Nat.add_zero] at hraw hfreeRaw
  exact ⟨hraw.trans h.data.writePointer.symm, by omega⟩

/-- In idle, nothing is left of a frame that was given up and taken back. -/
theorem Stage.idle_empty (h : Stage g s m) (hidle : s.fsm = .idle)
    (noCommit : s.commitRxFrame = false) (noAbort : s.commitOverrunAbort = false) :
    m.queue.pending = [] := by
  cases hcur : m.current with
  | none => exact ((h.givenUp hcur).2 hidle).2 noAbort
  | some f =>
    have hflag := ((h.opened f hcur).committing hidle).1
    simp [noCommit] at hflag

theorem Refines.metadata_pending (h : Refines g (s, m)) (ok : Orderly (s, m) i)
    (hmeta : i.storeMetadataF = true) : (m.nextQueue s i).pending = [] := by
  cases rrb : i.mrCommandRrb with
  | true => simp [Monitor.nextQueue, rrb, Queue.empty]
  | false => exact h.stage.idle_pending (ok.metadataInIdle hmeta) rrb

/-- A fitting frame is still open at its last word. -/
theorem Room.still_open (hr : Room g s m) (hst : s.fsm = .storeEndTsHigh)
    (hrel : m.released = false) (fits : m.need ≤ m.room) : ∃ f, m.current = some f := by
  cases hcur : m.current with
  | some f => exact ⟨f, rfl⟩
  | none =>
    have hlost := (hr.lost (by simp [hst, RxBufState.receiving]) hcur hrel).2
    omega

end Step

theorem Refines.resN_of_open {g : Generics} {p : State × Monitor} (h : Refines g p)
    {f : StoredFrame} (hcur : p.2.current = some f) : p.1.resN = true := by
  cases hres : p.1.resN with
  | true => rfl
  | false =>
    have hnone := (h.inReset hres).2.1
    simp [hcur] at hnone

theorem Refines.fitting_commits {g : Generics} {s : State} {m : Monitor} {i : Input}
    (h : Refines g (s, m)) (hr : Room g s m) (ok : Orderly (s, m) i)
    (noRrb : i.mrCommandRrb = false) (hst : s.fsm = .storeEndTsHigh)
    (hrel : m.released = false) (fits : m.need ≤ m.room) :
    ∃ f, (m.watch g s i).current = some f ∧ f.words.length = m.need ∧
      (step g s i).commitRxFrame = true ∧
      ∀ j, Orderly (watchedStep g (s, m) i) j → j.mrCommandRrb = false →
        contents g (step g (step g s i) j) =
          afterTake (step g s i) j (contents g (step g s i)) ++ f.words := by
  obtain ⟨f, hcur⟩ := hr.still_open hst hrel fits
  have hopen := h.stage.opened f hcur
  have hcount : f.Counted .storeEndTsHigh := by
    have hc : f.Counted s.fsm := hopen.counted
    rwa [hst] at hc
  have hdor : s.dataOverrun = false := hopen.noOverrun
  have hne : s.fsm ≠ .idle := by simp [hst]
  have hover : overrunCondition s i = false := by
    simp [overrunCondition, writeRawIntent, RxBufState.writeRawIntent, hst]
  have habort : i.recAbortF = false := by
    cases hab : i.recAbortF with
    | false => rfl
    | true => rcases ok.abort_state hne hab with h' | h' <;> simp [hst] at h'
  have hnext : (m.watch g s i).current = some (f.record s i) := by
    change m.nextCurrent s i = _
    simp [nextCurrent_storing hne noRrb, hover, habort, hcur]
  have hcommit : (step g s i).commitRxFrame = true := by
    have hresN : s.resN = true := h.resN_of_open hcur
    simp [step_flags h.stage hresN noRrb, hst, RxBufState.commitIntent, hdor]
  have hstep := h.step_watched ok
  have hpend : (m.watch g s i).queue.pending = (f.record s i).words := by
    have hw := (hstep.stage.opened _ hnext).written
    change (m.watch g s i).queue.pending = (f.record s i).stored (s.fsm.nextState i) at hw
    simpa [hst, RxBufState.nextState, StoredFrame.stored] using hw
  refine ⟨f.record s i, hnext, ?_, hcommit, fun j okj noRrbj => ?_⟩
  · have hneed := hr.need f hcur (by simp [hst, RxBufState.formatKnown])
    obtain ⟨hlen, _⟩ := hcount
    simp only [hneed, hlen, StoredFrame.words, StoredFrame.record, hst, List.length_cons]
  · have hcont := hstep.contents_step okj noRrbj
    simpa [hcommit, hpend] using hcont

/-- In every orderly run, storing a frame is all or nothing. -/
theorem store_atomicity (g : Generics) (mem : Nat → Word) (dataOut : Word) (is : List Input)
    (ok : Admits (watchedStep g) Orderly (watchedReset g mem dataOut) is) (i : Input)
    (spaced : Spaced (run (watchedStep g) (watchedReset g mem dataOut) is) i) :
    Atomic g (run (watchedStep g) (watchedReset g mem dataOut) is) i := by
  obtain ⟨h, hr⟩ := run_invariant (watchedStep g) Orderly
    (fun p => Refines g p ∧ Room g p.1 p.2)
    (fun p i h hok => ⟨h.1.step_watched hok, h.2.step_watched h.1 hok⟩)
    ⟨refines_reset g mem dataOut, ⟨by simp [watchedReset, reset, RxBufState.receiving],
      by simp [watchedReset, reset, RxBufState.receiving], by simp [watchedReset, Monitor.start]⟩⟩
    is ok
  generalize run (watchedStep g) (watchedReset g mem dataOut) is = p at *
  obtain ⟨s, m⟩ := p
  obtain ⟨oki, hspace⟩ := spaced
  refine ⟨?_, fun hc hnone => ?_, fun rrb hne strike => ?_, fun rrb => ?_, fun hmeta hc => ?_,
    fun hmeta => ?_, fun rrb hst hrel fits => h.fitting_commits hr oki rrb hst hrel fits⟩
  · rw [h.contents_eq]
    exact h.log
  · have hidle : s.fsm = .idle := by
      by_contra hne
      have hno : s.commitRxFrame = false := (h.stage.flagsIdle hne).1
      simp [hno] at hc
    have hno : s.commitRxFrame = false := ((h.stage.givenUp hnone).2 hidle).1
    simp [hno] at hc
  · have hc : s.commitRxFrame = false := (h.stage.flagsIdle hne).1
    refine ⟨?_, h.frameCount_step oki rrb hc, by simp [Monitor.watch, rrb, hc],
      struck_givenUp rrb hne strike⟩
    simpa [hc] using h.contents_step oki rrb
  · refine ⟨?_, by simp [step, rrb], by simp [Monitor.watch, Monitor.nextCurrent, rrb]⟩
    have hcont : contents g (step g s i) = (m.nextQueue s i).unread :=
      (h.step_watched oki).contents_eq
    simp [hcont, Monitor.nextQueue, rrb]
  · exact h.rolledBack_of_empty
      (h.stage.idle_empty (oki.metadataInIdle hmeta) hc (hspace hmeta))
  · exact (h.step_watched oki).rolledBack_of_empty (h.metadata_pending oki hmeta)

/-! ### Runs into a full buffer -/

/-- A CAN FD frame with `n` data words, up to its commit. -/
def fdFrame (dlc : BitVec 4) (n : Nat) : List Input :=
  let q := { quiet with recFrameType := true, recIsRtr := false, recDlc := dlc }
  [{ q with storeMetadataF := true }, q, q, q, q] ++
    List.replicate n { q with storeDataF := true, storeDataWord := 5 } ++
    [{ q with recValidF := true }, q, q]

/-- Twenty and nine words: three of 32 are left. -/
def nearlyFull : List Input := quiet :: fdFrame 15 16 ++ quiet :: fdFrame 11 5 ++ [quiet]

/-- The fourth word of a remote frame finds no space. -/
def overrunRun : List Input := nearlyFull ++ (remoteFrame 1).take 4

theorem store_atomicity_overrun :
    overrunCondition
      (run (watchedStep smallest) (watchedReset smallest (fun _ => 0) 0) overrunRun).1 quiet
      = true ∧
    Atomic smallest
      (run (watchedStep smallest) (watchedReset smallest (fun _ => 0) 0) overrunRun) quiet :=
  ⟨by decide +kernel, store_atomicity smallest (fun _ => 0) 0 overrunRun (by decide +kernel) quiet
    (by decide +kernel)⟩

/-- The protocol of the core, with the commit cycle spared. -/
def ProtocolQuietCommit (p : State × Monitor) (i : Input) : Prop :=
  CoreProtocol p i ∧ (p.1.commitRxFrame = true → i.recAbortF = false)

instance (p : State × Monitor) (i : Input) : Decidable (ProtocolQuietCommit p i) :=
  inferInstanceAs (Decidable (_ ∧ _))

/-- An error frame with logging on, up to the cycle of its last word. -/
def errorFrameRun : List Input :=
  nearlyFull ++ [{ quiet with mrModeErfm := true, recAbortF := true },
    { quiet with mrModeErfm := true }, { quiet with mrModeErfm := true },
    { quiet with mrModeErfm := true }]

/-- A remote frame that finds no space, up to the cycle in which it would be taken back. -/
def givenUpRun : List Input := nearlyFull ++ (remoteFrame 1).take 8

/-- The last word of an error frame finds the buffer full, and the frame is
committed all the same: the count rises and three words become readable. And the
raw side of a frame that was given up is still ahead when the next frame may start. -/
theorem store_atomicity_broken :
    (let p := run (watchedStep smallest) (watchedReset smallest (fun _ => 0) 0) errorFrameRun
      let q := { quiet with mrModeErfm := true }
      Admits (watchedStep smallest) ProtocolQuietCommit (watchedReset smallest (fun _ => 0) 0)
        (errorFrameRun ++ [q, q]) ∧
      p.1.fsm = .storeErrTsHigh ∧ overrunCondition p.1 q = true ∧
      (step smallest (step smallest p.1 q) q).frameCount = p.1.frameCount + 1 ∧
      (contents smallest (step smallest (step smallest p.1 q) q)).length =
        (contents smallest p.1).length + 3) ∧
    let p := run (watchedStep smallest) (watchedReset smallest (fun _ => 0) 0) givenUpRun
    Admits (watchedStep smallest) ProtocolQuietCommit (watchedReset smallest (fun _ => 0) 0)
      (givenUpRun ++ [{ quiet with storeMetadataF := true }]) ∧
    p.2.current = none ∧
    (p.1.ptrs.writePointerRaw, p.1.ptrs.rxMemFreeRaw) = (0, 0) ∧
    (p.1.ptrs.writePointer, p.1.ptrs.rxMemFree) = (29, 3) := by
  decide +kernel

end RxBuffer
