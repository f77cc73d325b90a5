import CtuCanFd.RxBuffer.Datapath

/-!
# The RX buffer refines a queue of frames

`Stage` relates the storage FSM to the open frame of the queue: in every state
the words already written are a fixed part of the frame the core presents, or
the frame has been given up and the overrun flag is set. Together with
`Datapath` it is kept by every cycle the core protocol allows.
-/

namespace RxBuffer

open FrameQueue SyncMachine

/-! ## The format word -/

theorem rwcntOf_formatWord (i : Input) (recErf : Bool) :
    rwcntOf (formatWord i recErf) = (rwcnt i recErf).toNat := by
  rw [rwcntOf]
  congr 1
  apply BitVec.eq_of_getLsbD_eq
  intro k hk
  simp only [formatWord, frameFormW, BitVec.getLsbD_extractLsb', BitVec.getLsbD_append]
  have hcases : k = 0 ∨ k = 1 ∨ k = 2 ∨ k = 3 ∨ k = 4 := by omega
  rcases hcases with rfl | rfl | rfl | rfl | rfl <;> simp

theorem rwcntCom_bounds (d : BitVec 4) : 3 ≤ rwcntCom d ∧ rwcntCom d ≤ 19 := by
  unfold rwcntCom
  split <;> omega

theorem rwcnt_bounds (i : Input) (recErf : Bool) :
    3 ≤ (rwcnt i recErf).toNat ∧ (rwcnt i recErf).toNat ≤ 19 := by
  have hcom := rwcntCom_bounds i.recDlc
  unfold rwcnt
  split
  · decide
  · split
    · decide
    · rw [BitVec.toNat_ofNat, Nat.mod_eq_of_lt (by omega)]
      exact hcom

theorem rwcnt_errorFrame (i : Input) : (rwcnt i true).toNat = 3 := by
  simp [rwcnt]

/-! ## The open frame by storage state -/

namespace StoredFrame

/-- Words of the frame that stand in the RAM at the start of a cycle. -/
def stored (f : StoredFrame) : RxBufState → List Word
  | .storeFrameFormat | .storeErrFrameFormat => []
  | .storeIdentifier | .storeErrIdentifier => [f.format]
  | .skipTsLow | .storeErrTsLow => [f.format, f.identifier]
  | .skipTsHigh => [f.format, f.identifier, 0]
  | .storeData | .storeEndTsLow => f.format :: f.identifier :: 0 :: 0 :: f.data
  | .storeEndTsHigh => f.format :: f.identifier :: f.tsLow :: 0 :: f.data
  | .storeErrTsHigh => [f.format, f.identifier, f.tsLow]
  | .idle => f.words

def rwcnt (f : StoredFrame) : Nat := rwcntOf f.format

/-- How far the data words have come against RWCNT. -/
def Counted (f : StoredFrame) : RxBufState → Prop
  | .storeFrameFormat | .storeErrFrameFormat => f.data = []
  | .storeIdentifier | .skipTsLow | .skipTsHigh => f.data = [] ∧ 3 ≤ f.rwcnt ∧ f.rwcnt ≤ 19
  | .storeData => f.data.length + 3 ≤ f.rwcnt ∧ f.rwcnt ≤ 19
  | .storeErrIdentifier | .storeErrTsLow | .storeErrTsHigh => f.data = [] ∧ f.rwcnt = 3
  | .storeEndTsLow | .storeEndTsHigh | .idle => f.rwcnt = f.data.length + 3 ∧ f.rwcnt ≤ 19

theorem shape_words {f : StoredFrame} (h : f.Counted .idle) : FrameShape f.words := by
  obtain ⟨hcount, hle⟩ := h
  refine ⟨f.format, f.identifier :: f.tsLow :: f.tsHigh :: f.data, rfl, ?_, ?_, ?_⟩
  · simpa [rwcnt] using hcount
  · simp
  · simp only [List.length_cons]
    omega

end StoredFrame

/-- Position of the timestamp pointer relative to the committed write pointer. -/
def TsPointer (g : Generics) (s : State) : Prop :=
  match s.fsm with
  | .skipTsHigh | .storeData | .storeEndTsLow =>
    s.ptrs.writePointerTs = (s.ptrs.writePointer + 2) % g.size
  | .storeEndTsHigh => s.ptrs.writePointerTs = (s.ptrs.writePointer + 3) % g.size
  | _ => True

/-- A frame that has not been given up; in idle it is about to be committed. -/
structure OpenFrame (g : Generics) (s : State) (pending : List Word) (f : StoredFrame) :
    Prop where
  noOverrun : s.dataOverrun = false
  written : pending = f.stored s.fsm
  counted : f.Counted s.fsm
  tsPointer : TsPointer g s
  committing : s.fsm = .idle → s.commitRxFrame = true ∧ s.commitOverrunAbort = false

structure Stage (g : Generics) (s : State) (m : Monitor) : Prop where
  flagsIdle : s.fsm ≠ .idle → s.commitRxFrame = false ∧ s.commitOverrunAbort = false
  opened : ∀ f ∈ m.current, OpenFrame g s m.queue.pending f
  givenUp : m.current = none → (s.fsm ≠ .idle → s.dataOverrun = true) ∧
    (s.fsm = .idle → s.commitRxFrame = false ∧
      (s.commitOverrunAbort = false → m.queue.pending = []))

structure Refines (g : Generics) (p : State × Monitor) : Prop where
  data : Datapath g p.1 p.2.queue
  stage : Stage g p.1 p.2
  inReset : p.1.resN = false → p.2.queue = Queue.empty ∧ p.2.current = none ∧
    p.1.commitRxFrame = false ∧ p.1.commitOverrunAbort = false
  log : p.2.returned ++ p.2.queue.unread = (p.2.committed.map StoredFrame.words).flatten

/-- Conditions under which the buffer keeps its promises: the core protocol, no
abort in the cycle that commits, and no error frame whose last word finds the
buffer full. -/
structure Orderly (p : State × Monitor) (i : Input) : Prop extends CoreProtocol p i where
  noAbortInCommit : p.1.commitRxFrame = true → i.recAbortF = false
  errorFrameFits : p.1.fsm = .storeErrTsHigh → p.1.dataOverrun = false →
    overrunCondition p.1 i = false

instance (p : State × Monitor) (i : Input) : Decidable (Orderly p i) :=
  decidable_of_iff
    (CoreProtocol p i ∧ (p.1.commitRxFrame = true → i.recAbortF = false) ∧
      (p.1.fsm = .storeErrTsHigh → p.1.dataOverrun = false → overrunCondition p.1 i = false))
    ⟨fun ⟨a, b, c⟩ => ⟨a, b, c⟩, fun h => ⟨h.toCoreProtocol, h.2, h.3⟩⟩

section Step

variable {g : Generics} {s : State} {m : Monitor} {i : Input}

/-! ## What the writing side does -/

theorem portAWrite_overrun (h : s.dataOverrun = true) : rxbPortAWrite s i = false := by
  simp [rxbPortAWrite, writeRawOK, h]

/-- States that write at the raw pointer only. -/
theorem portAWrite_raw (h : s.fsm.selectTsWptr = false) :
    rxbPortAWrite s i = writeRawOK s i := by
  simp [rxbPortAWrite, h]

theorem writeRawOK_open (h : s.dataOverrun = false) (free : overrunCondition s i = false) :
    writeRawOK s i = writeRawIntent s i := by
  simp [writeRawOK, h, free]

theorem effect_quiet (q : Queue Word) (noCommit : s.commitRxFrame = false)
    (noWrite : rxbPortAWrite s i = false) : Effect g s i q (Monitor.editOf s i) := by
  have hok := writeRawOK_of_portA noWrite
  cases habort : (i.recAbortF || s.commitOverrunAbort) with
  | false =>
    simp only [Monitor.editOf, noCommit, hok, noWrite, habort, Bool.false_eq_true, if_false]
    exact .keep noCommit habort noWrite
  | true =>
    simp only [Monitor.editOf, noCommit, hok, noWrite, habort, Bool.false_eq_true, if_false,
      if_true]
    exact .rollback noCommit habort noWrite

theorem effect_push (q : Queue Word) (noCommit : s.commitRxFrame = false)
    (noAbort : (i.recAbortF || s.commitOverrunAbort) = false) (write : writeRawOK s i = true)
    (raw : s.fsm.selectTsWptr = false) (short : q.pending.length < 20) :
    Effect g s i q (Monitor.editOf s i) := by
  simp only [Monitor.editOf, noCommit, write, Bool.false_eq_true, if_false, if_true]
  exact .push noCommit noAbort write raw short

/-- Only the last data word can be the twentieth word of a frame. -/
theorem stored_length_lt {f : StoredFrame} (h : f.Counted s.fsm)
    (raw : s.fsm.selectTsWptr = false) (notIdle : s.fsm ≠ .idle)
    (room : s.fsm = .storeData → f.data.length + 3 < f.rwcnt) :
    (f.stored s.fsm).length < 20 := by
  cases hst : s.fsm <;>
    simp_all [StoredFrame.stored, StoredFrame.Counted, RxBufState.selectTsWptr]
  omega

theorem Stage.effect (hs : Stage g s m) (ok : Orderly (s, m) i) :
    Effect g s i m.queue (Monitor.editOf s i) := by
  by_cases hidle : s.fsm = .idle
  · have hraw : s.fsm.selectTsWptr = false := by simp [hidle, RxBufState.selectTsWptr]
    have hno : rxbPortAWrite s i = false := by
      rw [portAWrite_raw hraw]
      simp [writeRawOK, writeRawIntent, RxBufState.writeRawIntent, hidle]
    cases hc : s.commitRxFrame with
    | false => exact effect_quiet m.queue hc hno
    | true =>
      cases hcur : m.current with
      | none =>
        have := ((hs.givenUp hcur).2 hidle).1
        simp [hc] at this
      | some f =>
        obtain ⟨_, hpend, hcount, _, hflag⟩ := hs.opened f hcur
        have habort : (i.recAbortF || s.commitOverrunAbort) = false := by
          simp [ok.noAbortInCommit hc, (hflag hidle).2]
        rw [hidle] at hpend hcount
        simp only [Monitor.editOf, hc, if_true]
        exact .commit hc habort hno (hpend ▸ StoredFrame.shape_words hcount)
  · obtain ⟨hc, hcoa⟩ := hs.flagsIdle hidle
    cases hcur : m.current with
    | none => exact effect_quiet m.queue hc (portAWrite_overrun ((hs.givenUp hcur).1 hidle))
    | some f =>
      obtain ⟨hdor, hpend, hcount, hts, _⟩ := hs.opened f hcur
      cases hsel : s.fsm.selectTsWptr with
      | false =>
        cases hok : writeRawOK s i with
        | false => exact effect_quiet m.queue hc (by rw [portAWrite_raw hsel, hok])
        | true =>
          have hintent : s.fsm.writeRawIntent i = true := by
            simp only [writeRawOK, writeRawIntent, Bool.and_eq_true] at hok
            exact hok.1.1
          have habort : i.recAbortF = false := by
            have hone := ok.oneHot.1
            have hallow := ok.abortAllowed
            cases hb : i.recAbortF with
            | false => rfl
            | true =>
              rcases hallow hb with h | h | h <;>
                simp_all [RxBufState.writeRawIntent]
          refine effect_push m.queue hc (by simp [habort, hcoa]) hok hsel ?_
          rw [hpend]
          apply stored_length_lt hcount hsel hidle
          intro hst
          have hdata : i.storeDataF = true := by
            simpa [hst, RxBufState.writeRawIntent] using hintent
          have hleft := ok.dataExpected hdata
          have hcount' := hcount
          rw [hst] at hcount'
          simp only [dataWordsLeft, hcur, Option.map_some, ne_eq, Option.some.injEq] at hleft
          simp only [StoredFrame.Counted, StoredFrame.rwcnt] at hcount' ⊢
          omega
      | true =>
        -- the back-filled timestamp words
        have hst : s.fsm = .storeEndTsLow ∨ s.fsm = .storeEndTsHigh := by
          cases h : s.fsm <;> simp_all [RxBufState.selectTsWptr]
        have hintent : writeRawIntent s i = false := by
          rcases hst with h | h <;> simp [writeRawIntent, RxBufState.writeRawIntent, h]
        have hok : writeRawOK s i = false := by simp [writeRawOK, hintent]
        have hwrite : rxbPortAWrite s i = true := by
          simp [rxbPortAWrite, hsel, hdor, overrunCondition, hintent]
        have habort : i.recAbortF = false := by
          cases hb : i.recAbortF with
          | false => rfl
          | true =>
            rcases ok.abortAllowed hb with h | h | h <;> rcases hst with h' | h' <;> simp_all
        have hpatch : Monitor.editOf s i =
            .patch (Monitor.tsPosition s.fsm) (writeData s i) := by
          simp [Monitor.editOf, hc, hok, hwrite]
        rw [hpatch]
        refine .patch _ hc (by simp [habort, hcoa]) hok hwrite ?_ ?_ ?_
        · rcases hst with h | h <;> simp [h, Monitor.tsPosition]
        · rw [hpend]
          rcases hst with h | h <;> simp [h, Monitor.tsPosition, StoredFrame.stored]
        · rcases hst with h | h <;>
            simpa [rxbPortAAddress, RxBufState.selectTsWptr, Monitor.tsPosition, TsPointer, h]
              using hts

/-! ## The storage FSM against the open frame -/

theorem nextQueue_pending (noRrb : i.mrCommandRrb = false) :
    (m.nextQueue s i).pending = (m.queue.edit (Monitor.editOf s i)).pending := by
  simp [Monitor.nextQueue, noRrb, Queue.pending_cycle]

/-- Idle leaves no words of an old frame behind. -/
theorem Stage.idle_pending (hs : Stage g s m) (hidle : s.fsm = .idle)
    (noRrb : i.mrCommandRrb = false) : (m.nextQueue s i).pending = [] := by
  rw [nextQueue_pending noRrb]
  have hno : writeRawOK s i = false := by
    simp [writeRawOK, writeRawIntent, RxBufState.writeRawIntent, hidle]
  have hnoA : rxbPortAWrite s i = false := by
    simp [rxbPortAWrite, hno, hidle, RxBufState.selectTsWptr]
  cases hc : s.commitRxFrame with
  | true => simp [Monitor.editOf, hc, Queue.edit]
  | false =>
    cases hab : (i.recAbortF || s.commitOverrunAbort) with
    | true => simp only [Monitor.editOf, hc, hno, hnoA, hab, Bool.false_eq_true, if_false,
        if_true, Queue.edit]
    | false =>
      have hcur : m.current = none := by
        cases hcur : m.current with
        | none => rfl
        | some f =>
          have hflag := ((hs.opened f hcur).committing hidle).1
          simp [hc] at hflag
      have hcoa : s.commitOverrunAbort = false := by
        simp only [Bool.or_eq_false_iff] at hab
        exact hab.2
      simp only [Monitor.editOf, hc, hno, hnoA, hab, Bool.false_eq_true, if_false, Queue.edit]
      exact ((hs.givenUp hcur).2 hidle).2 hcoa

/-- A storage cycle without overrun and abort writes the next word of the frame. -/
theorem Stage.next_stored (hs : Stage g s m) (ok : Orderly (s, m) i) {f : StoredFrame}
    (hcur : m.current = some f) (notIdle : s.fsm ≠ .idle) (noRrb : i.mrCommandRrb = false)
    (free : overrunCondition s i = false) (noAbort : i.recAbortF = false) :
    (m.nextQueue s i).pending = (f.record s i).stored (s.fsm.nextState i) := by
  obtain ⟨hc, hcoa⟩ := hs.flagsIdle notIdle
  obtain ⟨hdor, hpend, hcount, _, _⟩ := hs.opened f hcur
  have hok := writeRawOK_open hdor free
  have hvalid : i.recValidF = true → i.storeDataF = false := by
    intro hv
    have := ok.oneHot.2.1
    simp [hv] at this
    exact this.2
  rw [nextQueue_pending noRrb]
  cases hst : s.fsm <;> rw [hst] at hpend hcount
  case idle => exact absurd hst notIdle
  case storeData =>
    cases hd : i.storeDataF with
    | true =>
      have hv : i.recValidF = false := by
        cases hv : i.recValidF with
        | false => rfl
        | true => simp [hvalid hv] at hd
      simp [Monitor.editOf, hc, hok, writeRawIntent, RxBufState.writeRawIntent, hst, hd, hv,
        noAbort, Queue.edit, hpend, StoredFrame.stored, StoredFrame.record,
        RxBufState.nextState, writeData]
    | false =>
      have hnext : s.fsm.nextState i = .storeData ∨ s.fsm.nextState i = .storeEndTsLow := by
        cases hv : i.recValidF <;> simp [hst, RxBufState.nextState, noAbort, hv]
      rw [hst] at hnext
      rcases hnext with hn | hn <;>
        simp [Monitor.editOf, hc, hcoa, hok, writeRawIntent, RxBufState.writeRawIntent, hst, hd,
          noAbort, Queue.edit, hpend, StoredFrame.stored, StoredFrame.record, hn, rxbPortAWrite,
          RxBufState.selectTsWptr]
  case storeEndTsLow =>
    simp [Monitor.editOf, hc, hok, writeRawIntent, RxBufState.writeRawIntent, hst, free, hdor,
      rxbPortAWrite, RxBufState.selectTsWptr, Queue.edit, hpend, StoredFrame.stored,
      StoredFrame.record, RxBufState.nextState, writeData, Monitor.tsPosition]
  case storeEndTsHigh =>
    simp [Monitor.editOf, hc, hok, writeRawIntent, RxBufState.writeRawIntent, hst, free, hdor,
      rxbPortAWrite, RxBufState.selectTsWptr, Queue.edit, hpend, StoredFrame.stored,
      StoredFrame.record, RxBufState.nextState, writeData, Monitor.tsPosition,
      StoredFrame.words]
  case skipTsHigh =>
    have hnil : f.data = [] := hcount.1
    simp [Monitor.editOf, hc, hok, writeRawIntent, RxBufState.writeRawIntent, hst,
      Queue.edit, hpend, StoredFrame.stored, StoredFrame.record, RxBufState.nextState,
      writeData, hnil]
  case storeErrTsHigh =>
    have hnil : f.data = [] := hcount.1
    simp [Monitor.editOf, hc, hok, writeRawIntent, RxBufState.writeRawIntent, hst,
      Queue.edit, hpend, StoredFrame.stored, StoredFrame.record, RxBufState.nextState,
      writeData, StoredFrame.words, hnil]
  all_goals
    simp [Monitor.editOf, hc, hok, writeRawIntent, RxBufState.writeRawIntent, hst, noAbort,
      Queue.edit, hpend, StoredFrame.stored, StoredFrame.record, RxBufState.nextState,
      writeData]

theorem Stage.next_counted (hs : Stage g s m) (ok : Orderly (s, m) i) {f : StoredFrame}
    (hcur : m.current = some f) (notIdle : s.fsm ≠ .idle) (noAbort : i.recAbortF = false) :
    (f.record s i).Counted (s.fsm.nextState i) := by
  obtain ⟨_, _, hcount, _, _⟩ := hs.opened f hcur
  have hfmt := rwcnt_bounds i false
  cases hst : s.fsm <;> rw [hst] at hcount
  case idle => exact absurd hst notIdle
  case storeFrameFormat =>
    have hnil : f.data = [] := hcount
    simp [RxBufState.nextState, noAbort, StoredFrame.Counted, StoredFrame.record, hst,
      StoredFrame.rwcnt, rwcntOf_formatWord, hnil, hfmt]
  case storeErrFrameFormat =>
    have hnil : f.data = [] := hcount
    simp [RxBufState.nextState, StoredFrame.Counted, StoredFrame.record, hst,
      StoredFrame.rwcnt, rwcntOf_formatWord, rwcnt_errorFrame, hnil]
  case skipTsHigh =>
    obtain ⟨hnil, hlo, hhi⟩ := hcount
    simp [RxBufState.nextState, StoredFrame.Counted, StoredFrame.record, hst, hnil, hlo, hhi]
  case storeErrTsHigh =>
    obtain ⟨hnil, hthree⟩ := hcount
    have hthree' : rwcntOf f.format = 3 := hthree
    simp [RxBufState.nextState, StoredFrame.Counted, StoredFrame.record, hst, hnil,
      StoredFrame.rwcnt, hthree']
  case storeData =>
    have hleft := ok.dataExpected
    have hdone := ok.dataComplete
    have hone := ok.oneHot
    simp only [dataWordsLeft, hcur, Option.map_some, ne_eq, Option.some.injEq,
      Option.mem_some_iff, forall_eq'] at hleft hdone
    simp only [StoredFrame.Counted, StoredFrame.rwcnt] at hcount
    cases hv : i.recValidF <;> cases hd : i.storeDataF <;>
      simp only [RxBufState.nextState, noAbort, hv, hd, StoredFrame.Counted, StoredFrame.record,
        hst, StoredFrame.rwcnt, Bool.false_eq_true, if_false, if_true, List.length_append,
        List.length_singleton]
    · exact hcount
    · have := hleft hd
      omega
    · have := hdone hv
      omega
    · simp [OneHot, hv, hd] at hone
  all_goals
    simpa [RxBufState.nextState, StoredFrame.Counted, StoredFrame.record, hst,
      StoredFrame.rwcnt] using hcount

theorem Stage.next_tsPointer (h : Datapath g s m.queue) (hs : Stage g s m) {f : StoredFrame}
    (hcur : m.current = some f) (notIdle : s.fsm ≠ .idle) (resN : s.resN = true)
    (noRrb : i.mrCommandRrb = false) (noAbort : i.recAbortF = false) :
    TsPointer g (step g s i) := by
  obtain ⟨hc, _⟩ := hs.flagsIdle notIdle
  obtain ⟨_, hpend, _, hts, _⟩ := hs.opened f hcur
  have hptrs := (step_running (g := g) resN noRrb).1
  have hwp : (step g s i).ptrs.writePointer = s.ptrs.writePointer := by
    simp [hptrs, nextPointers, hc]
  have hnext : (step g s i).fsm = s.fsm.nextState i := rfl
  unfold TsPointer
  rw [hnext, hwp, hptrs]
  change match s.fsm.nextState i with
    | .skipTsHigh | .storeData | .storeEndTsLow => s.ptrs.nextTs g s.fsm.storeTsWrPtr
        s.fsm.incTsWrPtr = (s.ptrs.writePointer + 2) % g.size
    | .storeEndTsHigh => s.ptrs.nextTs g s.fsm.storeTsWrPtr s.fsm.incTsWrPtr =
        (s.ptrs.writePointer + 3) % g.size
    | _ => True
  cases hst : s.fsm
  case skipTsLow =>
    -- the raw pointer stands two words past the committed one
    have hraw := h.writePointerRaw
    simp only [hpend, hst, StoredFrame.stored, List.length_cons, List.length_nil] at hraw
    simp only [RxBufState.nextState, Pointers.nextTs, RxBufState.storeTsWrPtr, if_true]
    rw [hraw, h.writePointer, Nat.mod_add_mod]
    congr 1
  case skipTsHigh =>
    simpa [TsPointer, hst, RxBufState.nextState, Pointers.nextTs, RxBufState.storeTsWrPtr,
      RxBufState.incTsWrPtr] using hts
  case storeData =>
    simp only [TsPointer, hst] at hts
    cases hv : i.recValidF <;>
      simpa [RxBufState.nextState, noAbort, hv, Pointers.nextTs, RxBufState.storeTsWrPtr,
        RxBufState.incTsWrPtr] using hts
  case storeEndTsLow =>
    simp only [TsPointer, hst] at hts
    simp [RxBufState.nextState, Pointers.nextTs, RxBufState.storeTsWrPtr,
      RxBufState.incTsWrPtr, inc_eq, hts, Nat.add_assoc]
  case storeFrameFormat => simp [RxBufState.nextState, noAbort]
  case idle => exact absurd hst notIdle
  all_goals simp [RxBufState.nextState]

theorem step_flags (hs : Stage g s m) (resN : s.resN = true) (noRrb : i.mrCommandRrb = false) :
    (step g s i).commitRxFrame = (s.fsm.commitIntent && !s.dataOverrun) ∧
    (step g s i).commitOverrunAbort = (s.fsm.commitIntent && s.dataOverrun) := by
  by_cases hci : s.fsm.commitIntent = true
  · have hne : s.fsm ≠ .idle := by
      intro h
      simp [h, RxBufState.commitIntent] at hci
    obtain ⟨hc, hcoa⟩ := hs.flagsIdle hne
    simp [step, resN, noRrb, hci, hc, hcoa]
  · simp [step, hci]

theorem commitIntent_states (h : s.fsm.commitIntent = true) :
    s.fsm = .storeEndTsHigh ∨ s.fsm = .storeErrTsHigh := by
  cases hst : s.fsm <;> simp [hst, RxBufState.commitIntent] at h ⊢

/-- Commits are decided on the way back to idle. -/
theorem commitIntent_next (h : s.fsm.commitIntent = true) : s.fsm.nextState i = .idle := by
  cases hst : s.fsm <;> simp_all [RxBufState.commitIntent, RxBufState.nextState]

theorem Orderly.abort_state (ok : Orderly (s, m) i) (notIdle : s.fsm ≠ .idle)
    (abort : i.recAbortF = true) : s.fsm = .storeFrameFormat ∨ s.fsm = .storeData := by
  rcases ok.abortAllowed abort with h | h
  · exact absurd h notIdle
  · exact h

theorem Orderly.abort_intent (ok : Orderly (s, m) i) (notIdle : s.fsm ≠ .idle)
    (abort : i.recAbortF = true) : writeRawIntent s i = false := by
  have hone : i.storeDataF = false := by
    have h := ok.oneHot.1
    simp only [abort, Bool.and_true, Bool.or_eq_false_iff] at h
    exact h.1.2
  rcases ok.abort_state notIdle abort with h | h <;>
    simp [writeRawIntent, RxBufState.writeRawIntent, h, abort, hone]

/-- An abort writes nothing and takes the open frame back. -/
theorem Stage.abort_pending (hs : Stage g s m) (ok : Orderly (s, m) i) (notIdle : s.fsm ≠ .idle)
    (noRrb : i.mrCommandRrb = false) (abort : i.recAbortF = true) :
    overrunCondition s i = false ∧ s.fsm.commitIntent = false ∧
      (m.nextQueue s i).pending = [] := by
  obtain ⟨hc, _⟩ := hs.flagsIdle notIdle
  have hintent := ok.abort_intent notIdle abort
  have hsel : s.fsm.selectTsWptr = false ∧ s.fsm.commitIntent = false := by
    rcases ok.abort_state notIdle abort with h | h <;>
      simp [h, RxBufState.selectTsWptr, RxBufState.commitIntent]
  refine ⟨by simp [overrunCondition, hintent], hsel.2, ?_⟩
  rw [nextQueue_pending noRrb]
  simp [Monitor.editOf, hc, writeRawOK, rxbPortAWrite, hintent, hsel.1, abort, Queue.edit]

theorem Orderly.abort_next (ok : Orderly (s, m) i) (notIdle : s.fsm ≠ .idle)
    (abort : i.recAbortF = true) :
    s.fsm.nextState i = if i.mrModeErfm then .storeErrFrameFormat else .idle := by
  rcases ok.abort_state notIdle abort with h | h <;>
    simp [h, RxBufState.nextState, abort]

theorem nextState_idle (notIdle : s.fsm ≠ .idle) (noAbort : i.recAbortF = false)
    (h : s.fsm.nextState i = .idle) : s.fsm.commitIntent = true := by
  cases hst : s.fsm <;> simp_all [RxBufState.nextState, RxBufState.commitIntent]
  cases hv : i.recValidF <;> simp_all

theorem step_dataOverrun (noRrb : i.mrCommandRrb = false) :
    (step g s i).dataOverrun =
      (overrunCondition s i || (!s.fsm.resetOverrunFlag && s.dataOverrun)) := by
  simp [step, noRrb]

theorem resetOverrunFlag_eq (notIdle : s.fsm ≠ .idle) : s.fsm.resetOverrunFlag = false := by
  cases h : s.fsm <;> simp_all [RxBufState.resetOverrunFlag]

theorem nextCurrent_idle (hidle : s.fsm = .idle) (noRrb : i.mrCommandRrb = false) :
    m.nextCurrent s i = if s.fsm.nextState i = .idle then none else some .blank := by
  cases hsm : i.storeMetadataF <;> cases herr : (i.mrModeErfm && i.recAbortF) <;>
    simp [Monitor.nextCurrent, noRrb, hidle, RxBufState.nextState, hsm, herr]

theorem nextCurrent_storing (notIdle : s.fsm ≠ .idle) (noRrb : i.mrCommandRrb = false) :
    m.nextCurrent s i =
      if overrunCondition s i then none
      else if i.recAbortF then
        if i.mrModeErfm then m.current.map fun _ => .blank else none
      else m.current.map (StoredFrame.record s i) := by
  simp [Monitor.nextCurrent, noRrb, notIdle]

/-- A frame or an error frame starts in a state that has written nothing. -/
theorem openFrame_blank {s' : State} (noOverrun : s'.dataOverrun = false)
    (start : s'.fsm = .storeFrameFormat ∨ s'.fsm = .storeErrFrameFormat) :
    OpenFrame g s' [] .blank := by
  rcases start with h | h <;>
    exact ⟨noOverrun, by simp [h, StoredFrame.stored],
      by simp [h, StoredFrame.Counted, StoredFrame.blank], by simp [h, TsPointer],
      by simp [h]⟩

theorem Stage.next_idle_opened (hs : Stage g s m) (hidle : s.fsm = .idle)
    (noRrb : i.mrCommandRrb = false) :
    ∀ f ∈ m.nextCurrent s i, OpenFrame g (step g s i) (m.nextQueue s i).pending f := by
  intro f' hf'
  have hfsm : (step g s i).fsm = s.fsm.nextState i := rfl
  rw [nextCurrent_idle hidle noRrb] at hf'
  split at hf'
  · cases hf'
  · rename_i hne
    cases Option.mem_some_iff.mp hf'
    rw [hs.idle_pending hidle noRrb]
    apply openFrame_blank
    · simp [step_dataOverrun noRrb, hidle, RxBufState.resetOverrunFlag, overrunCondition,
        writeRawIntent, RxBufState.writeRawIntent]
    · rw [hfsm]
      rw [hidle] at hne ⊢
      simp only [RxBufState.nextState] at hne ⊢
      split
      · exact Or.inl rfl
      · split
        · exact Or.inr rfl
        · simp_all

theorem Stage.next_opened (h : Datapath g s m.queue) (hs : Stage g s m)
    (ok : Orderly (s, m) i) (resN : s.resN = true) (noRrb : i.mrCommandRrb = false) :
    ∀ f ∈ m.nextCurrent s i, OpenFrame g (step g s i) (m.nextQueue s i).pending f := by
  intro f' hf'
  have hfsm : (step g s i).fsm = s.fsm.nextState i := rfl
  by_cases hidle : s.fsm = .idle
  · exact hs.next_idle_opened hidle noRrb f' hf'
  · have hreset := resetOverrunFlag_eq hidle
    rw [nextCurrent_storing hidle noRrb] at hf'
    cases habort : i.recAbortF with
    | true =>
      -- the error frame takes the place of the aborted one
      obtain ⟨hover, _, hpend⟩ := hs.abort_pending ok hidle noRrb habort
      cases herfm : i.mrModeErfm with
      | false => simp [hover, habort, herfm] at hf'
      | true =>
        simp only [hover, habort, herfm, Bool.false_eq_true, if_false, if_true,
          Option.mem_def, Option.map_eq_some_iff] at hf'
        obtain ⟨f, hcur, rfl⟩ := hf'
        rw [hpend]
        apply openFrame_blank
        · simp [step_dataOverrun noRrb, hover, hreset, (hs.opened f hcur).noOverrun]
        · rw [hfsm, ok.abort_next hidle habort, herfm]
          exact Or.inr rfl
    | false =>
      cases hover : overrunCondition s i with
      | true => simp [hover] at hf'
      | false =>
        simp only [hover, habort, Bool.false_eq_true, if_false, Option.mem_def,
          Option.map_eq_some_iff] at hf'
        obtain ⟨f, hcur, rfl⟩ := hf'
        have hold := (hs.opened f hcur).noOverrun
        refine ⟨by simp [step_dataOverrun noRrb, hover, hold],
          hs.next_stored ok hcur hidle noRrb hover habort,
          hs.next_counted ok hcur hidle habort,
          hs.next_tsPointer h hcur hidle resN noRrb habort, ?_⟩
        intro hnext
        have hci := nextState_idle hidle habort (hfsm.symm.trans hnext)
        simp [step_flags hs resN noRrb, hci, hold]

theorem Stage.next_givenUp (hs : Stage g s m) (ok : Orderly (s, m) i) (resN : s.resN = true)
    (noRrb : i.mrCommandRrb = false) (hnone : m.nextCurrent s i = none) :
    ((step g s i).fsm ≠ .idle → (step g s i).dataOverrun = true) ∧
    ((step g s i).fsm = .idle → (step g s i).commitRxFrame = false ∧
      ((step g s i).commitOverrunAbort = false → (m.nextQueue s i).pending = [])) := by
  obtain ⟨hflag, hflagAbort⟩ := step_flags hs resN noRrb
  have hfsm : (step g s i).fsm = s.fsm.nextState i := rfl
  by_cases hidle : s.fsm = .idle
  · have hstay : s.fsm.nextState i = .idle := by
      rw [nextCurrent_idle hidle noRrb] at hnone
      by_contra hne
      simp [hne] at hnone
    refine ⟨fun hne => absurd (hfsm.trans hstay) hne, fun _ => ⟨?_, fun _ => ?_⟩⟩
    · simp [hflag, hidle, RxBufState.commitIntent]
    · exact hs.idle_pending hidle noRrb
  · have hreset := resetOverrunFlag_eq hidle
    rw [nextCurrent_storing hidle noRrb] at hnone
    cases habort : i.recAbortF with
    | true =>
      obtain ⟨hover, hci, hpend⟩ := hs.abort_pending ok hidle noRrb habort
      have hnext := ok.abort_next hidle habort
      cases herfm : i.mrModeErfm with
      | false =>
        refine ⟨fun hne => absurd (by simp [hfsm, hnext, herfm]) hne, fun _ => ⟨?_, fun _ => hpend⟩⟩
        simp [hflag, hci]
      | true =>
        have hcur : m.current = none := by
          simpa [hover, habort, herfm] using hnone
        refine ⟨fun _ => ?_, fun h => ?_⟩
        · simp [step_dataOverrun noRrb, hreset, (hs.givenUp hcur).1 hidle]
        · simp [hfsm, hnext, herfm] at h
    | false =>
      -- a commit is intended with the overrun flag set, or not at all
      have hflagged : overrunCondition s i = true ∨ s.dataOverrun = true := by
        cases hover : overrunCondition s i with
        | true => exact Or.inl rfl
        | false =>
          have hcur : m.current = none := by simpa [hover, habort] using hnone
          exact Or.inr ((hs.givenUp hcur).1 hidle)
      refine ⟨fun _ => ?_, fun h => ?_⟩
      · rcases hflagged with h | h <;> simp [step_dataOverrun noRrb, hreset, h]
      · have hci := nextState_idle hidle habort (hfsm.symm.trans h)
        have hdor : s.dataOverrun = true := by
          rcases hflagged with hover | hdor
          · cases hdor : s.dataOverrun with
            | true => rfl
            | false =>
              rcases commitIntent_states hci with hst | hst
              · simp [overrunCondition, writeRawIntent, RxBufState.writeRawIntent, hst] at hover
              · have hfits := ok.errorFrameFits hst hdor
                simp [hover] at hfits
          · exact hdor
        simp [hflag, hflagAbort, hci, hdor]

theorem Stage.step_running (h : Datapath g s m.queue) (hs : Stage g s m)
    (ok : Orderly (s, m) i) (resN : s.resN = true) (noRrb : i.mrCommandRrb = false) :
    Stage g (step g s i) (m.watch g s i) := by
  refine ⟨?_, hs.next_opened h ok resN noRrb, hs.next_givenUp ok resN noRrb⟩
  intro hne
  have hci : s.fsm.commitIntent = false := by
    cases hci : s.fsm.commitIntent with
    | false => rfl
    | true => exact absurd (commitIntent_next hci) hne
  simp [step_flags hs resN noRrb, hci]

/-- A release empties the queue and gives the frame being stored up. -/
theorem Stage.of_release (rrb : i.mrCommandRrb = true) :
    Stage g (step g s i) (m.watch g s i) := by
  have hcur : (m.watch g s i).current = none := by
    simp [Monitor.watch, Monitor.nextCurrent, rrb]
  refine ⟨fun _ => by simp [step, rrb], fun f hf => by simp [hcur] at hf,
    fun _ => ⟨fun _ => ?_, fun _ => ⟨?_, fun _ => ?_⟩⟩⟩
  · simp [step, rrb]
  · simp [step, rrb]
  · simp [Monitor.watch, Monitor.nextQueue, rrb, Queue.empty]

/-! ## The cycle after a release or a reset -/

theorem Refines.inReset_quiet (h : Refines g (s, m)) (resN : s.resN = false)
    (noRrb : i.mrCommandRrb = false) : m.nextQueue s i = Queue.empty := by
  obtain ⟨hq, hcur, hc, _⟩ := h.inReset resN
  have hrd : readIncrement s i = false := by
    have hfc : s.frameCount = 0 := by rw [h.data.frameCount, hq]; rfl
    simp [readIncrement, rxEmpty, hfc]
  have hno : rxbPortAWrite s i = false := by
    by_cases hidle : s.fsm = .idle
    · simp [rxbPortAWrite, writeRawOK, writeRawIntent, RxBufState.writeRawIntent, hidle,
        RxBufState.selectTsWptr]
    · exact portAWrite_overrun ((h.stage.givenUp hcur).1 hidle)
  have hok := writeRawOK_of_portA hno
  simp only at hq hc
  cases hab : (i.recAbortF || s.commitOverrunAbort) <;>
    simp [Monitor.nextQueue, noRrb, Queue.cycle, hrd, Monitor.editOf, hc, hok, hno, hab, hq,
      Queue.edit, Queue.empty]

theorem Refines.inReset_stage (h : Refines g (s, m)) (resN : s.resN = false)
    (noRrb : i.mrCommandRrb = false) : Stage g (step g s i) (m.watch g s i) := by
  obtain ⟨_, hcur, _, _⟩ := h.inReset resN
  have hqueue : (m.watch g s i).queue = Queue.empty := h.inReset_quiet resN noRrb
  have hflags : (step g s i).commitRxFrame = false ∧
      (step g s i).commitOverrunAbort = false := by simp [step, resN]
  have hfsm : (step g s i).fsm = s.fsm.nextState i := rfl
  have hcurr : (m.watch g s i).current = m.nextCurrent s i := rfl
  refine ⟨fun _ => hflags, ?_, ?_⟩
  · rw [hqueue, hcurr]
    intro f hf
    by_cases hidle : s.fsm = .idle
    · have hopen := h.stage.next_idle_opened (i := i) hidle noRrb f hf
      rwa [h.stage.idle_pending hidle noRrb] at hopen
    · rw [nextCurrent_storing hidle noRrb] at hf
      simp only at hcur
      simp [hcur] at hf
  · intro hnone
    refine ⟨fun hne => ?_, fun _ => ⟨hflags.1, fun _ => by rw [hqueue]; rfl⟩⟩
    by_cases hidle : s.fsm = .idle
    · rw [hcurr, nextCurrent_idle hidle noRrb] at hnone
      rw [hfsm] at hne
      simp [hne] at hnone
    · have hdor := (h.stage.givenUp hcur).1 hidle
      simp only at hdor
      simp [step_dataOverrun noRrb, resetOverrunFlag_eq hidle, hdor]

/-! ## Frames in, words out -/

theorem Datapath.returned_word {q : Queue Word} (h : Datapath g s q)
    (rd : readIncrement s i = true) : q.unread = rxbPortBDataOut s :: q.unread.tail := by
  have hpos := h.readIncrement_pos rd
  have hunread := h.unread_pos hpos
  have hne : rxEmpty s = false := by
    simp only [readIncrement, Bool.and_eq_true, Bool.not_eq_true'] at rd
    exact rd.2
  obtain ⟨w, rest, hq⟩ := List.exists_cons_of_length_pos hunread
  simp [rxbPortBDataOut, hne, h.output (Or.inl hpos), h.head_word hq, hq]

/-- Words returned and words unread are the committed frames, before and after. -/
theorem Refines.log_step (h : Refines g (s, m)) (ok : Orderly (s, m) i)
    (noRrb : i.mrCommandRrb = false) :
    (m.watch g s i).returned ++ (m.watch g s i).queue.unread =
      ((m.watch g s i).committed.map StoredFrame.words).flatten := by
  have hlog := h.log
  have heff := h.stage.effect ok
  have hqueue : (m.watch g s i).queue.unread =
      ((afterRead s i m.queue).edit (Monitor.editOf s i)).unread := by
    simp [Monitor.watch, Monitor.nextQueue, noRrb, Queue.cycle, afterRead]
  have hread : (m.watch g s i).returned ++ (afterRead s i m.queue).unread =
      m.returned ++ m.queue.unread := by
    rw [h.data.unread_afterRead]
    cases rd : readIncrement s i with
    | false => simp [Monitor.watch, noRrb, rd]
    | true =>
      rw [h.data.returned_word rd]
      simp [Monitor.watch, noRrb, rd]
  rw [hqueue, heff.unread_edit]
  cases hc : s.commitRxFrame with
  | false => simpa [Monitor.watch, noRrb, hc] using hread.trans hlog
  | true =>
    have hidle : s.fsm = .idle := by
      by_contra hne
      have hno : s.commitRxFrame = false := (h.stage.flagsIdle hne).1
      simp [hc] at hno
    cases hcur : m.current with
    | none =>
      have hno : s.commitRxFrame = false := ((h.stage.givenUp hcur).2 hidle).1
      simp [hc] at hno
    | some f =>
      have hwords : m.queue.pending = f.words := by
        simpa [hidle, StoredFrame.stored] using (h.stage.opened f hcur).written
      have hlog' : m.returned ++ m.queue.unread =
          (m.committed.map StoredFrame.words).flatten := hlog
      rw [if_pos rfl, ← List.append_assoc, hread, hlog', pending_afterRead, hwords]
      simp [Monitor.watch, noRrb, hc, hcur]

theorem Refines.step_watched (h : Refines g (s, m)) (ok : Orderly (s, m) i) :
    Refines g (watchedStep g (s, m) i) := by
  change Refines g (step g s i, m.watch g s i)
  cases rrb : i.mrCommandRrb with
  | true =>
    have hqueue : (m.watch g s i).queue = Queue.empty := by
      simp [Monitor.watch, Monitor.nextQueue, rrb]
    refine ⟨?_, Stage.of_release rrb, ?_, ?_⟩
    · rw [hqueue]
      exact Datapath.of_reset (by simp [step, rrb]) (by simp [step, rrb]) (by simp [step, rrb])
    · intro _
      refine ⟨hqueue, ?_, by simp [step, rrb], by simp [step, rrb]⟩
      simp [Monitor.watch, Monitor.nextCurrent, rrb]
    · simp only [hqueue]
      simp [Monitor.watch, rrb]
  | false =>
    have hresN : (step g s i).resN = true := by simp [step, rrb]
    have hlog := h.log_step ok rrb
    cases resN : s.resN with
    | false =>
      have hqueue : (m.watch g s i).queue = Queue.empty := h.inReset_quiet resN rrb
      refine ⟨?_, h.inReset_stage resN rrb, by simp [hresN], hlog⟩
      rw [hqueue]
      exact Datapath.of_reset (by simp [step, resN]) (by simp [step, resN])
        (by simp [step, resN])
    | true =>
      refine ⟨?_, h.stage.step_running h.data ok resN rrb, by simp [hresN], hlog⟩
      have hcycle := h.data.step_cycle resN rrb ok.noTest (h.stage.effect ok)
      simpa [Monitor.watch, Monitor.nextQueue, rrb] using hcycle

theorem refines_reset (g : Generics) (mem : Nat → Word) (dataOut : Word) :
    Refines g (watchedReset g mem dataOut) := by
  refine ⟨Datapath.of_reset rfl rfl rfl, ?_, ?_, ?_⟩
  · refine ⟨fun h => absurd rfl h, fun f hf => ?_,
      fun _ => ⟨fun h => absurd rfl h, fun _ => ⟨rfl, fun _ => rfl⟩⟩⟩
    cases hf
  · intro _
    exact ⟨rfl, rfl, rfl, rfl⟩
  · rfl

/-- In every orderly run the buffer represents its queue. -/
theorem refines_run (g : Generics) (mem : Nat → Word) (dataOut : Word) (is : List Input)
    (ok : Admits (watchedStep g) Orderly (watchedReset g mem dataOut) is) :
    Refines g (run (watchedStep g) (watchedReset g mem dataOut) is) :=
  run_invariant (watchedStep g) Orderly (Refines g) (fun _ _ h hok => h.step_watched hok)
    (refines_reset g mem dataOut)
    is ok

end Step

end RxBuffer
