import CtuCanFd.RxBuffer.Atomicity

/-!
# Logging of error frames

With `ERFM` set, an abort makes the FSM write four words: frame format, identifier and both
halves of the timestamp. The error frame may start in the middle of the frame that was aborted,
and it shares with it the raw pointer and the internal overrun flag, so it is lost with a frame
that has met an overrun before.
-/

namespace RxBuffer

open FrameQueue SyncMachine

/-- The abort that an error frame is stored for. -/
def startsLogging (i : Input) : Bool := i.mrModeErfm && i.recAbortF

/-- An orderly cycle in which software does not release the buffer under an error frame and does
not clear the report of its overrun. The overrun of a frame that an error frame follows has been
reported and is not cleared either. -/
structure Undisturbed (p : State × Monitor) (i : Input) : Prop extends Orderly p i where
  noRelease : p.1.fsm.logging = true ∨ startsLogging i = true → i.mrCommandRrb = false
  noClear : p.1.fsm.logging = true → i.mrCommandCdo = false
  reported : startsLogging i = true → p.1.fsm ≠ .idle → p.1.dataOverrun = true →
    p.1.dataOverrunFlg = true ∧ i.mrCommandCdo = false

instance (p : State × Monitor) (i : Input) : Decidable (Undisturbed p i) :=
  decidable_of_iff
    (Orderly p i ∧
      (p.1.fsm.logging = true ∨ startsLogging i = true → i.mrCommandRrb = false) ∧
      (p.1.fsm.logging = true → i.mrCommandCdo = false) ∧
      (startsLogging i = true → p.1.fsm ≠ .idle → p.1.dataOverrun = true →
        p.1.dataOverrunFlg = true ∧ i.mrCommandCdo = false))
    ⟨fun ⟨a, b, c, d⟩ => ⟨a, b, c, d⟩, fun h => ⟨h.toOrderly, h.2, h.3, h.4⟩⟩

/-- Words software has read and words it can still read. -/
def readable (g : Generics) (p : State × Monitor) : List Word := p.2.returned ++ contents g p.1

/-- Words written at the raw pointer. -/
def writtenWords (g : Generics) : State × Monitor → List Input → List Word
  | _, [] => []
  | p, i :: is =>
    (if writeRawOK p.1 i then [writeData p.1 i] else []) ++ writtenWords g (watchedStep g p i) is

/-- Words of the error frame whose logging starts in a state. -/
def errorWords (g : Generics) (p : State × Monitor) (i₀ i₁ i₂ : Input) : List Word :=
  [formatWord i₀ true, identWord i₁,
    tsLowWord (run (watchedStep g) p [i₀, i₁]).1.timestampCapture,
    tsHighWord (run (watchedStep g) p [i₀, i₁, i₂]).1.timestampCapture]

/-- The error frame written in the first four of five cycles is committed in the fifth with all
its words, or it adds nothing to the readable words and an overrun is reported. -/
def AllOrNothing (g : Generics) (p : State × Monitor) (i₀ i₁ i₂ i₃ i₄ : Input) : Prop :=
  ((run (watchedStep g) p [i₀, i₁, i₂, i₃]).1.commitRxFrame = true →
    writtenWords g p [i₀, i₁, i₂, i₃] = errorWords g p i₀ i₁ i₂ ∧
    readable g (run (watchedStep g) p [i₀, i₁, i₂, i₃, i₄]) =
      readable g p ++ errorWords g p i₀ i₁ i₂) ∧
  ((run (watchedStep g) p [i₀, i₁, i₂, i₃]).1.commitRxFrame = false →
    readable g (run (watchedStep g) p [i₀, i₁, i₂, i₃, i₄]) = readable g p ∧
    (run (watchedStep g) p [i₀, i₁, i₂, i₃]).1.dataOverrunFlg = true)

instance (g : Generics) (p : State × Monitor) (i₀ i₁ i₂ i₃ i₄ : Input) :
    Decidable (AllOrNothing g p i₀ i₁ i₂ i₃ i₄) :=
  inferInstanceAs (Decidable ((_ → _ ∧ _) ∧ (_ → _ ∧ _)))

/-! ## The overrun status -/

/-- An error frame that has met an overrun, or was started after one, has been reported. -/
structure Reported (s : State) : Prop where
  running : s.fsm.logging = true → s.resN = true
  told : s.fsm.logging = true → s.dataOverrun = true → s.dataOverrunFlg = true
  shown : s.dataOverrunFlg = true → s.resN = true

section Step

variable {g : Generics} {s : State} {m : Monitor} {i : Input}

/-- Logging goes on, or it starts with an abort. -/
theorem logging_from (hnext : (s.fsm.nextState i).logging = true) :
    s.fsm.logging = true ∨ (startsLogging i = true ∧ s.fsm.logging = false) := by
  cases hlog : s.fsm.logging with
  | true => exact .inl rfl
  | false =>
    refine .inr ⟨?_, rfl⟩
    cases hst : s.fsm <;> simp only [hst, RxBufState.nextState] at hnext hlog <;>
      (try split_ifs at hnext) <;> simp_all [RxBufState.logging, startsLogging]

theorem logging_ne_idle (hlog : s.fsm.logging = true) : s.fsm ≠ .idle := by
  rintro hidle
  simp [hidle, RxBufState.logging] at hlog

theorem dataOverrunFlg_step (hrun : s.resN = true) (hrrb : i.mrCommandRrb = false)
    (hcdo : i.mrCommandCdo = false) :
    (step g s i).dataOverrunFlg = (overrunCondition s i || s.dataOverrunFlg) := by
  simp [RxBuffer.step, hrun, hrrb, hcdo]

theorem Reported.told_step (h : Reported s) (ok : Undisturbed (s, m) i)
    (hnext : (step g s i).fsm.logging = true) (hdor : (step g s i).dataOverrun = true) :
    (step g s i).dataOverrunFlg = true := by
  rcases logging_from (s := s) hnext with hlog | ⟨hstart, hlog⟩
  · have hrrb := ok.noRelease (.inl hlog)
    have hcdo : i.mrCommandCdo = false := ok.noClear hlog
    rw [dataOverrunFlg_step (h.running hlog) hrrb hcdo]
    rw [step_dataOverrun hrrb, Bool.or_eq_true, Bool.and_eq_true] at hdor
    rcases hdor with hover | ⟨-, hold⟩
    · rw [hover, Bool.true_or]
    · rw [h.told hlog hold, Bool.or_true]
  · have hrrb := ok.noRelease (.inr hstart)
    have habort : i.recAbortF = true := (Bool.and_eq_true_iff.mp hstart).2
    by_cases hidle : s.fsm = .idle
    · -- the internal flag is cleared in idle
      simp [step_dataOverrun hrrb, overrunCondition, writeRawIntent, RxBufState.writeRawIntent,
        RxBufState.resetOverrunFlag, hidle] at hdor
    · have hover : overrunCondition s i = false := by
        simp [overrunCondition, ok.toOrderly.abort_intent hidle habort]
      rw [step_dataOverrun hrrb, hover, Bool.false_or, Bool.and_eq_true] at hdor
      obtain ⟨hflg, hcdo⟩ := ok.reported hstart hidle hdor.2
      rw [dataOverrunFlg_step (h.shown hflg) hrrb hcdo]
      exact Bool.or_eq_true_iff.mpr (.inr hflg)

theorem Reported.step (h : Reported s) (ok : Undisturbed (s, m) i) : Reported (step g s i) := by
  refine ⟨fun hnext => ?_, fun hnext hdor => h.told_step ok hnext hdor, fun hflg => ?_⟩
  · have hrrb : i.mrCommandRrb = false :=
      ok.noRelease ((logging_from (s := s) hnext).imp_right (·.1))
    simp [RxBuffer.step, hrrb]
  · simp only [RxBuffer.step, Bool.and_eq_true, Bool.not_eq_true'] at hflg ⊢
    exact hflg.1.1.2

/-! ## One word of the error frame -/

theorem Orderly.noAbort_logging (ok : Orderly (s, m) i) (hlog : s.fsm.logging = true) :
    i.recAbortF = false := by
  cases hab : i.recAbortF with
  | false => rfl
  | true =>
    rcases ok.abort_state (logging_ne_idle hlog) hab with hst | hst <;>
      simp [hst, RxBufState.logging] at hlog

theorem writeRawIntent_logging (hlog : s.fsm.logging = true) : writeRawIntent s i = true := by
  cases hst : s.fsm <;> simp_all [RxBufState.logging, writeRawIntent, RxBufState.writeRawIntent]

/-- A cycle of an undisturbed run, in a given state of the storage FSM. -/
structure CycleIn (st : RxBufState) (g : Generics) (p : State × Monitor) (i : Input) : Prop where
  refines : Refines g p
  undisturbed : Undisturbed p i
  state : p.1.fsm = st

theorem CycleIn.next {st : RxBufState} {p : State × Monitor} (h : CycleIn st g p i) :
    Refines g (watchedStep g p i) ∧ (watchedStep g p i).1.fsm = st.nextState i :=
  ⟨h.refines.step_watched h.undisturbed.toOrderly, congrArg (·.nextState i) h.state⟩

/-- An error frame that is not given up in a cycle has its next word written in it. -/
theorem CycleIn.word_logged {st : RxBufState} {p : State × Monitor} (h : CycleIn st g p i)
    (hst : st.logging = true) {f' : StoredFrame}
    (hnext : (watchedStep g p i).2.current = some f') :
    writeRawOK p.1 i = true ∧ ∃ f, p.2.current = some f ∧ f' = f.record p.1 i := by
  obtain ⟨s, m⟩ := p
  have hlog : s.fsm.logging = true := (congrArg RxBufState.logging h.state).trans hst
  have hne := logging_ne_idle hlog
  have habort : i.recAbortF = false := h.undisturbed.toOrderly.noAbort_logging hlog
  change m.nextCurrent s i = some f' at hnext
  simp only [nextCurrent_storing hne (h.undisturbed.noRelease (.inl hlog)), habort,
    Bool.false_eq_true, if_false] at hnext
  split_ifs at hnext with hover
  cases hcur : m.current with
  | none => simp [hcur] at hnext
  | some f =>
    have hdor : s.dataOverrun = false := (h.refines.stage.opened f hcur).noOverrun
    refine ⟨?_, f, rfl, ?_⟩
    · rw [writeRawOK_open hdor (eq_false_of_ne_true hover)]
      exact writeRawIntent_logging hlog
    · simpa [hcur] using hnext.symm

/-- Nothing is committed while the words of an error frame are written. -/
theorem CycleIn.committed_logging {st : RxBufState} {p : State × Monitor}
    (h : CycleIn st g p i) (hst : st.logging = true) :
    (watchedStep g p i).2.committed = p.2.committed := by
  have hlog : p.1.fsm.logging = true := (congrArg RxBufState.logging h.state).trans hst
  have hne := logging_ne_idle hlog
  have hrrb : i.mrCommandRrb = false := h.undisturbed.noRelease (.inl hlog)
  have hc : p.1.commitRxFrame = false := (h.refines.stage.flagsIdle hne).1
  simp [watchedStep, watched, Monitor.watch, hrrb, hc]

/-- After its last word an error frame is given up only if it was before. -/
theorem CycleIn.lost_before {p : State × Monitor} (h : CycleIn .storeErrTsHigh g p i)
    (hnext : (watchedStep g p i).2.current = none) : p.2.current = none := by
  obtain ⟨s, m⟩ := p
  have hlog : s.fsm.logging = true := congrArg RxBufState.logging h.state
  have hne := logging_ne_idle hlog
  have habort : i.recAbortF = false := h.undisturbed.toOrderly.noAbort_logging hlog
  cases hcur : m.current with
  | none => rfl
  | some f =>
    have hdor : s.dataOverrun = false := (h.refines.stage.opened f hcur).noOverrun
    have hfits : overrunCondition s i = false := h.undisturbed.errorFrameFits h.state hdor
    change m.nextCurrent s i = none at hnext
    simp [nextCurrent_storing hne (h.undisturbed.noRelease (.inl hlog)), habort, hfits, hcur]
      at hnext

theorem Refines.readable_eq {p : State × Monitor} (h : Refines g p) :
    readable g p = committedWords p.2 := by
  rw [readable, h.contents_eq]
  exact h.log

end Step

/-! ## The whole error frame -/

section Frame

variable {g : Generics} {p : State × Monitor} {i₀ i₁ i₂ i₃ i₄ : Input}

/-- The four cycles of an error frame. -/
structure Logged (g : Generics) (p : State × Monitor) (i₀ i₁ i₂ i₃ : Input) : Prop where
  format : CycleIn .storeErrFrameFormat g p i₀
  identifier : CycleIn .storeErrIdentifier g (watchedStep g p i₀) i₁
  tsLow : CycleIn .storeErrTsLow g (run (watchedStep g) p [i₀, i₁]) i₂
  tsHigh : CycleIn .storeErrTsHigh g (run (watchedStep g) p [i₀, i₁, i₂]) i₃

theorem Refines.logged (h : Refines g p) (start : p.1.fsm = .storeErrFrameFormat)
    (ok : Admits (watchedStep g) Undisturbed p [i₀, i₁, i₂, i₃]) : Logged g p i₀ i₁ i₂ i₃ := by
  obtain ⟨ok₀, ok₁, ok₂, ok₃, -⟩ := ok
  have c₀ : CycleIn .storeErrFrameFormat g p i₀ := ⟨h, ok₀, start⟩
  have c₁ : CycleIn .storeErrIdentifier g (watchedStep g p i₀) i₁ := ⟨c₀.next.1, ok₁, c₀.next.2⟩
  have c₂ : CycleIn .storeErrTsLow g (run (watchedStep g) p [i₀, i₁]) i₂ :=
    ⟨c₁.next.1, ok₂, c₁.next.2⟩
  exact ⟨c₀, c₁, c₂, c₂.next.1, ok₃, c₂.next.2⟩

namespace Logged

/-- An error frame that has not been given up after its last word has all of them. -/
theorem words (h : Logged g p i₀ i₁ i₂ i₃) {f : StoredFrame}
    (hcur : (run (watchedStep g) p [i₀, i₁, i₂, i₃]).2.current = some f) :
    writtenWords g p [i₀, i₁, i₂, i₃] = errorWords g p i₀ i₁ i₂ ∧
      f.words = errorWords g p i₀ i₁ i₂ := by
  obtain ⟨w₃, f₃, hcur₃, rfl⟩ := h.tsHigh.word_logged rfl hcur
  obtain ⟨w₂, f₂, hcur₂, rfl⟩ := h.tsLow.word_logged rfl hcur₃
  obtain ⟨w₁, f₁, hcur₁, rfl⟩ := h.identifier.word_logged rfl hcur₂
  obtain ⟨w₀, f₀, hcur₀, rfl⟩ := h.format.word_logged rfl hcur₁
  have st₀ := h.format.state
  have st₁ := h.identifier.state
  have st₂ := h.tsLow.state
  have st₃ := h.tsHigh.state
  have hdata : f₀.data = [] := by
    have hcount := (h.format.refines.stage.opened f₀ hcur₀).counted
    rwa [st₀] at hcount
  simp only [run] at st₂ st₃ w₂ w₃
  constructor
  · simp only [writtenWords, w₀, w₁, w₂, w₃, if_true, writeData, st₀, st₁, st₂, st₃]
    rfl
  · simp only [StoredFrame.words, StoredFrame.record, run, st₀, st₁, st₂, st₃, hdata]
    rfl

theorem committed (h : Logged g p i₀ i₁ i₂ i₃) :
    (run (watchedStep g) p [i₀, i₁, i₂, i₃]).2.committed = p.2.committed :=
  calc (run (watchedStep g) p [i₀, i₁, i₂, i₃]).2.committed
      = (run (watchedStep g) p [i₀, i₁, i₂]).2.committed := h.tsHigh.committed_logging rfl
    _ = (run (watchedStep g) p [i₀, i₁]).2.committed := h.tsLow.committed_logging rfl
    _ = (watchedStep g p i₀).2.committed := h.identifier.committed_logging rfl
    _ = p.2.committed := h.format.committed_logging rfl

/-- A lost error frame is reported. -/
theorem reported (h : Logged g p i₀ i₁ i₂ i₃) (hrep : Reported p.1)
    (hcur : (run (watchedStep g) p [i₀, i₁, i₂, i₃]).2.current = none) :
    (run (watchedStep g) p [i₀, i₁, i₂, i₃]).1.dataOverrunFlg = true := by
  have hrep₃ : Reported (run (watchedStep g) p [i₀, i₁, i₂]).1 :=
    ((hrep.step h.format.undisturbed).step h.identifier.undisturbed).step h.tsLow.undisturbed
  have hlog : (run (watchedStep g) p [i₀, i₁, i₂]).1.fsm.logging = true :=
    congrArg RxBufState.logging h.tsHigh.state
  have hdor := (h.tsHigh.refines.stage.givenUp (h.tsHigh.lost_before hcur)).1
    (logging_ne_idle hlog)
  have hflag := dataOverrunFlg_step (g := g) (hrep₃.running hlog)
    (h.tsHigh.undisturbed.noRelease (.inl hlog)) (h.tsHigh.undisturbed.noClear hlog)
  rw [hrep₃.told hlog hdor, Bool.or_true] at hflag
  exact hflag

end Logged

end Frame

/-- In every undisturbed run, logging an error frame is all or nothing. -/
theorem error_logging_all_or_nothing (g : Generics) (mem : Nat → Word) (dataOut : Word)
    (is : List Input) (i₀ i₁ i₂ i₃ i₄ : Input)
    (ok : Admits (watchedStep g) Undisturbed (watchedReset g mem dataOut)
      (is ++ [i₀, i₁, i₂, i₃, i₄]))
    (start : (run (watchedStep g) (watchedReset g mem dataOut) is).1.fsm = .storeErrFrameFormat)
    (kept : i₄.mrCommandRrb = false) :
    AllOrNothing g (run (watchedStep g) (watchedReset g mem dataOut) is) i₀ i₁ i₂ i₃ i₄ := by
  rw [admits_append] at ok
  obtain ⟨hpast, ok₀, ok₁, ok₂, ok₃, ok₄, -⟩ := ok
  obtain ⟨h, hrep⟩ := run_invariant (watchedStep g) Undisturbed
    (fun p => Refines g p ∧ Reported p.1)
    (fun p i h hok => ⟨h.1.step_watched hok.toOrderly, h.2.step hok⟩)
    ⟨refines_reset g mem dataOut, ⟨nofun, nofun, nofun⟩⟩ is hpast
  generalize run (watchedStep g) (watchedReset g mem dataOut) is = p at *
  have hl : Logged g p i₀ i₁ i₂ i₃ := h.logged start ⟨ok₀, ok₁, ok₂, ok₃, trivial⟩
  have h₄ : Refines g (run (watchedStep g) p [i₀, i₁, i₂, i₃]) := hl.tsHigh.next.1
  have hidle : (run (watchedStep g) p [i₀, i₁, i₂, i₃]).1.fsm = .idle := hl.tsHigh.next.2
  have h₅ : Refines g (run (watchedStep g) p [i₀, i₁, i₂, i₃, i₄]) :=
    h₄.step_watched ok₄.toOrderly
  have hsame := hl.committed
  have hcommit : (run (watchedStep g) p [i₀, i₁, i₂, i₃, i₄]).2.committed =
      if (run (watchedStep g) p [i₀, i₁, i₂, i₃]).1.commitRxFrame then
        p.2.committed ++ (run (watchedStep g) p [i₀, i₁, i₂, i₃]).2.current.toList
      else p.2.committed := by
    rw [← hsame]
    change (if i₄.mrCommandRrb then [] else _) = _
    rw [kept]
    rfl
  rw [AllOrNothing, h₅.readable_eq, h.readable_eq, committedWords, hcommit]
  cases hcur : (run (watchedStep g) p [i₀, i₁, i₂, i₃]).2.current with
  | none =>
    have hno := ((h₄.stage.givenUp hcur).2 hidle).1
    refine ⟨fun hc => ?_, fun _ => ⟨by rw [hno]; rfl, hl.reported hrep hcur⟩⟩
    rw [hno] at hc
    cases hc
  | some f =>
    have hyes := ((h₄.stage.opened f hcur).committing hidle).1
    obtain ⟨hwritten, hwords⟩ := hl.words hcur
    refine ⟨fun _ => ⟨hwritten, ?_⟩, fun hc => ?_⟩
    · simp [hyes, committedWords, hwords]
    · rw [hyes] at hc
      cases hc

/-- A cycle with error-frame logging on. -/
def erfmCycle : Input := { quiet with mrModeErfm := true }

/-- A frame is aborted after its identifier was stored. -/
def abortedRun : List Input := quiet :: (remoteFrame 1).take 5 ++ [{ erfmCycle with recAbortF := true }]

/-- The error frame takes the place of the aborted frame. -/
theorem error_logging_aborted :
    (run (watchedStep smallest) (watchedReset smallest (fun _ => 0) 0)
        (abortedRun ++ List.replicate 4 erfmCycle)).1.commitRxFrame = true ∧
      AllOrNothing smallest
        (run (watchedStep smallest) (watchedReset smallest (fun _ => 0) 0) abortedRun)
        erfmCycle erfmCycle erfmCycle erfmCycle erfmCycle :=
  ⟨by decide +kernel,
    error_logging_all_or_nothing smallest (fun _ => 0) 0 abortedRun erfmCycle erfmCycle erfmCycle
      erfmCycle erfmCycle (by decide +kernel) (by decide +kernel) rfl⟩

/-- Two frames that leave three words, and an abort, with error-frame logging on throughout. -/
def abortNearlyFull : List Input :=
  (nearlyFull.map fun i => { i with mrModeErfm := true }) ++ [{ erfmCycle with recAbortF := true }]

/-- With three words left, the error frame is committed without its last word. -/
theorem error_logging_short :
    Admits (watchedStep smallest) ProtocolQuietCommit (watchedReset smallest (fun _ => 0) 0)
        (abortNearlyFull ++ List.replicate 5 erfmCycle) ∧
      (∀ i ∈ abortNearlyFull ++ List.replicate 5 erfmCycle,
        i.mrModeErfm = true ∧ i.mrCommandRrb = false ∧ i.mrCommandCdo = false) ∧
      (run (watchedStep smallest) (watchedReset smallest (fun _ => 0) 0)
        abortNearlyFull).1.fsm = .storeErrFrameFormat ∧
      ¬ AllOrNothing smallest
        (run (watchedStep smallest) (watchedReset smallest (fun _ => 0) 0) abortNearlyFull)
        erfmCycle erfmCycle erfmCycle erfmCycle erfmCycle := by
  decide +kernel

end RxBuffer
