import CtuCanFd.RxBuffer.Refinement

/-!
# Received frames that fit

The monitor notes the free words at the start of a received frame and, from its
format word, the words it needs. A frame is given up for lack of space only if
it needs more words than there were.
-/

namespace RxBuffer

open FrameQueue SyncMachine

namespace RxBufState

/-- A frame started by `store_metadata` is being stored. -/
def receiving : RxBufState → Bool
  | storeFrameFormat | storeIdentifier | skipTsLow | skipTsHigh | storeData | storeEndTsLow
  | storeEndTsHigh => true
  | _ => false

/-- Its format word has been presented. -/
def formatKnown : RxBufState → Bool
  | storeIdentifier | skipTsLow | skipTsHigh | storeData | storeEndTsLow
  | storeEndTsHigh => true
  | _ => false

end RxBufState

structure Room (g : Generics) (s : State) (m : Monitor) : Prop where
  reserved : s.fsm.receiving = true → m.room + m.queue.unread.length ≤ g.size
  lost : s.fsm.receiving = true → m.current = none → m.released = false →
    s.fsm.formatKnown = true ∧ m.room < m.need
  need : ∀ f ∈ m.current, s.fsm.formatKnown = true → m.need = f.rwcnt + 1

section Step

variable {g : Generics} {s : State} {m : Monitor} {i : Input}

/-- A receiving state is entered from idle by `store_metadata`, or from another
one without an abort. -/
theorem receiving_next (h : (s.fsm.nextState i).receiving = true) :
    (s.fsm = .idle ∧ i.storeMetadataF = true ∧ s.fsm.nextState i = .storeFrameFormat) ∨
    (s.fsm ≠ .idle ∧ s.fsm.receiving = true ∧ (s.fsm.nextState i).formatKnown = true ∧
      (s.fsm = .storeFrameFormat ∨ s.fsm.formatKnown = true) ∧
      (s.fsm = .storeFrameFormat ∨ s.fsm = .storeData → i.recAbortF = false)) := by
  cases hst : s.fsm <;> rw [hst] at h <;>
    simp only [RxBufState.nextState] at h ⊢ <;> repeat' split at h
  all_goals simp_all [RxBufState.receiving, RxBufState.formatKnown]

theorem Orderly.noAbort_receiving (ok : Orderly (s, m) i) (notIdle : s.fsm ≠ .idle)
    (h : s.fsm = .storeFrameFormat ∨ s.fsm = .storeData → i.recAbortF = false) :
    i.recAbortF = false := by
  cases hab : i.recAbortF with
  | false => rfl
  | true => exact hab.symm.trans (h (ok.abort_state notIdle hab))

theorem Refines.unread_step_le (h : Refines g (s, m)) (ok : Orderly (s, m) i)
    (notIdle : s.fsm ≠ .idle) :
    (m.nextQueue s i).unread.length ≤ m.queue.unread.length := by
  unfold Monitor.nextQueue
  split
  · simp
  · have hc : s.commitRxFrame = false := (h.stage.flagsIdle notIdle).1
    have hlen : (afterRead s i m.queue).unread.length + (readIncrement s i).toNat =
        m.queue.unread.length := h.data.unread_afterRead_length
    have hunread := (h.stage.effect ok).unread_edit (afterRead s i m.queue)
    simp only [hc, Bool.false_eq_true, if_false] at hunread
    change ((afterRead s i m.queue).edit (Monitor.editOf s i)).unread.length ≤ _
    rw [hunread]
    omega

theorem Refines.unread_le (h : Refines g (s, m)) : m.queue.unread.length ≤ g.size := by
  have hocc : m.queue.unread.length + m.queue.pending.length ≤ g.size := h.data.occupancy
  omega

theorem Refines.overrun_full (h : Refines g (s, m)) (hover : overrunCondition s i = true) :
    g.size ≤ m.queue.unread.length + m.queue.pending.length := by
  by_contra hroom
  have hfree : isFreeWord s = true := h.data.isFreeWord_iff.mpr (by simpa using hroom)
  simp [overrunCondition, hfree] at hover

/-- A frame that wants another word has stored fewer than its format word announces. -/
theorem Refines.pending_lt_need (h : Refines g (s, m)) (hr : Room g s m)
    (ok : Orderly (s, m) i) {f : StoredFrame} (hcur : m.current = some f)
    (recv : s.fsm.receiving = true) (want : writeRawIntent s i = true) :
    m.queue.pending.length < (m.watch g s i).need := by
  have hopen := h.stage.opened f hcur
  have hcount : f.Counted s.fsm := hopen.counted
  have hpend : m.queue.pending = f.stored s.fsm := hopen.written
  have hneed := hr.need f hcur
  rw [hpend]
  cases hst : s.fsm <;> rw [hst] at hcount hneed recv <;>
    simp only [RxBufState.receiving, Bool.false_eq_true] at recv
  case storeFrameFormat => simp [StoredFrame.stored, Monitor.watch, hst]
  case storeData =>
    have hdata : i.storeDataF = true := by
      simpa [writeRawIntent, RxBufState.writeRawIntent, hst] using want
    have hleft := ok.dataExpected hdata
    simp only [dataWordsLeft, hcur, Option.map_some, ne_eq, Option.some.injEq] at hleft
    simp only [StoredFrame.Counted, StoredFrame.rwcnt] at hcount hneed
    simp only [StoredFrame.stored, Monitor.watch, hst, List.length_cons, reduceCtorEq, if_false,
      hneed rfl]
    omega
  case storeEndTsLow => simp [writeRawIntent, RxBufState.writeRawIntent, hst] at want
  case storeEndTsHigh => simp [writeRawIntent, RxBufState.writeRawIntent, hst] at want
  all_goals
    obtain ⟨_, hlo, _⟩ := hcount
    simp only [StoredFrame.stored, Monitor.watch, hst, List.length_cons, List.length_nil,
      reduceCtorEq, if_false, hneed rfl]
    omega

theorem Room.step_watched (h : Refines g (s, m)) (hr : Room g s m) (ok : Orderly (s, m) i) :
    Room g (step g s i) (m.watch g s i) := by
  have hle : (m.nextQueue s i).unread.length ≤ g.size := (h.step_watched ok).unread_le
  refine ⟨fun recv => ?_, fun recv hnone hrel => ?_, fun f' hf' known => ?_⟩
  · rcases receiving_next recv with ⟨hidle, hmeta, _⟩ | ⟨hne, hrecv, _⟩
    · simp only [Monitor.watch, hidle, hmeta]
      simp only [and_self, if_true]
      omega
    · have hold := hr.reserved hrecv
      have hmono := h.unread_step_le ok hne
      simp only [Monitor.watch, hne, false_and, if_false]
      omega
  · have hrrb : i.mrCommandRrb = false := by
      simp only [Monitor.watch, Bool.or_eq_false_iff] at hrel
      exact hrel.1
    rcases receiving_next recv with ⟨hidle, _, hnext⟩ | ⟨hne, hrecv, hknown, hfrom, hab⟩
    · have hcur : m.nextCurrent s i = none := hnone
      rw [nextCurrent_idle hidle hrrb, hnext] at hcur
      simp at hcur
    · refine ⟨hknown, ?_⟩
      have hrel' : m.released = false := by
        simpa [Monitor.watch, hrrb, hne] using hrel
      have hnoAbort := ok.noAbort_receiving hne hab
      have hcur : m.nextCurrent s i = none := hnone
      rw [nextCurrent_storing hne hrrb, hnoAbort] at hcur
      have hroom : (m.watch g s i).room = m.room := by simp [Monitor.watch, hne]
      rw [hroom]
      cases hm : m.current with
      | none =>
        obtain ⟨hk, hlt⟩ := hr.lost hrecv hm hrel'
        have hnf : s.fsm ≠ .storeFrameFormat := by
          intro hst
          simp [hst, RxBufState.formatKnown] at hk
        simpa [Monitor.watch, hnf] using hlt
      | some f =>
        have hover : overrunCondition s i = true := by
          by_contra hno
          simp [hno, hm] at hcur
        have hwant : writeRawIntent s i = true := by
          simp only [overrunCondition, Bool.and_eq_true] at hover
          exact hover.1
        have hshort := h.pending_lt_need hr ok hm hrecv hwant
        have hfull := h.overrun_full hover
        have hres := hr.reserved hrecv
        omega
  · have hknown : (s.fsm.nextState i).formatKnown = true := known
    have hrecv : (s.fsm.nextState i).receiving = true := by
      revert hknown
      cases s.fsm.nextState i <;> simp [RxBufState.formatKnown, RxBufState.receiving]
    rcases receiving_next hrecv with ⟨_, _, hnext⟩ | ⟨hne, hrecv', _, hfrom, hab⟩
    · rw [hnext] at hknown
      simp [RxBufState.formatKnown] at hknown
    · have hcur : f' ∈ m.nextCurrent s i := hf'
      have hrrb : i.mrCommandRrb = false := by
        cases hrrb : i.mrCommandRrb with
        | false => rfl
        | true => simp [Monitor.nextCurrent, hrrb] at hcur
      rw [nextCurrent_storing hne hrrb, ok.noAbort_receiving hne hab] at hcur
      cases hover : overrunCondition s i with
      | true => simp [hover] at hcur
      | false =>
        simp only [hover, Bool.false_eq_true, if_false, Option.mem_def,
          Option.map_eq_some_iff] at hcur
        obtain ⟨f, hm, rfl⟩ := hcur
        have hneed := hr.need f hm
        rcases hfrom with hst | hk
        · simp [Monitor.watch, hst, StoredFrame.record, StoredFrame.rwcnt]
        · have hsame : (f.record s i).rwcnt = f.rwcnt := by
            revert hk
            cases hst : s.fsm <;>
              simp [RxBufState.formatKnown, StoredFrame.record, hst, StoredFrame.rwcnt]
            split <;> rfl
          have hnf : s.fsm ≠ .storeFrameFormat := by
            intro hst
            simp [hst, RxBufState.formatKnown] at hk
          rw [hsame, ← hneed hk]
          simp [Monitor.watch, hnf]

end Step

end RxBuffer
