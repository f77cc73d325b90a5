import CtuCanFd.RxPath.Ordering

/-!
# What becomes of the commands of a frame

Protocol control asks for a command, `rx_buf_cmds_proc` issues it when the node
is receiver or internal loopback is on, and the frame filters let it pass or
drop it. Both decisions are taken from the registers in force at that cycle. The
ledger of a frame lists every request with what became of it; it starts anew
while the header of the next frame comes in.
-/

namespace RxPath

open ProtocolControl (PcState)

inductive Command where
  | storeMetadata
  | storeData
  | recValid
  | recAbort
deriving DecidableEq, Repr

/-- One request, the settings it met and what became of it. -/
structure Outcome where
  command : Command
  settings : Settings
  /-- Protocol control put the command on its port. -/
  issued : Bool
  /-- `ident_valid_q` in the cycle the command is on the port. -/
  accepted : Bool

def requested (f : Settings) (s : State) (i : Input) : Command → Bool
  | .storeMetadata =>
    (CanCore.pcOut f.core s.core (coreInput s i)).storeMetadataD && CanCore.pcRxTrigger s.core
  | .storeData =>
    (CanCore.pcOut f.core s.core (coreInput s i)).storeDataD && CanCore.pcRxTrigger s.core
  | .recValid =>
    (CanCore.pcOut f.core s.core (coreInput s i)).recValidD && CanCore.pcRxTrigger s.core
  | .recAbort => s.core.err.errFrmReq

def port (s : State) : Command → Bool
  | .storeMetadata => s.core.pc.storeMetadata
  | .storeData => s.core.pc.storeData
  | .recValid => s.core.pc.recValid
  | .recAbort => s.core.pc.recAbort

def outcome (g : Generics) (f : Settings) (s : State) (i : Input) (k : Command) : Outcome where
  command := k
  settings := f
  issued := port (step g f s i) k
  accepted := (step g f s i).identValidQ

/-- Entries of the frame in progress. -/
def carried (s : State) (log : List Outcome) : List Outcome :=
  if s.core.pc.currState.inHeader then [] else log

def record (g : Generics) (f : Settings) (log : List Outcome) (s : State) (i : Input) :
    List Outcome :=
  carried s log ++
    ([Command.storeMetadata, .storeData, .recValid, .recAbort].filter (requested f s i)).map
      (outcome g f s i)

/-- The settings decide on a command due in this cycle as they did on the
commands of the frame before it. -/
structure Consistent (g : Generics) (f : Settings) (log : List Outcome) (s : State) (i : Input) :
    Prop where
  loopback : storeDue f s i = true → ∀ o ∈ carried s log, o.command ≠ .recAbort →
    (CanCore.isReceiver s.core || f.core.mrSettingsIlbp) =
      (CanCore.isReceiver s.core || o.settings.core.mrSettingsIlbp)
  filters : s.core.err.errFrmReq = true ∨ (storeDue f s i = true ∧
      (CanCore.isReceiver s.core || f.core.mrSettingsIlbp) = true) →
    ∀ o ∈ carried s log, o.issued = true →
      FrameFilters.identValidD g.filters f.filters s.core.rxs.view =
        FrameFilters.identValidD g.filters o.settings.filters s.core.rxs.view

instance (g : Generics) (f : Settings) (log : List Outcome) (s : State) (i : Input) :
    Decidable (Consistent g f log s i) :=
  decidable_of_iff
    ((storeDue f s i = true → ∀ o ∈ carried s log, o.command ≠ .recAbort →
        (CanCore.isReceiver s.core || f.core.mrSettingsIlbp) =
          (CanCore.isReceiver s.core || o.settings.core.mrSettingsIlbp)) ∧
      (s.core.err.errFrmReq = true ∨ (storeDue f s i = true ∧
          (CanCore.isReceiver s.core || f.core.mrSettingsIlbp) = true) →
        ∀ o ∈ carried s log, o.issued = true →
          FrameFilters.identValidD g.filters f.filters s.core.rxs.view =
            FrameFilters.identValidD g.filters o.settings.filters s.core.rxs.view))
    ⟨fun ⟨a, b⟩ => ⟨a, b⟩, fun ⟨a, b⟩ => ⟨a, b⟩⟩

section Requests

variable {g : Generics} {f : Settings} {s : State} {i : Input} {since : Nat} {k : Command}
  {log : List Outcome} {o : Outcome}

theorem mem_record :
    o ∈ record g f log s i ↔
      o ∈ carried s log ∨ ∃ k, requested f s i k = true ∧ outcome g f s i k = o := by
  simp only [record, List.mem_append, List.mem_map, List.mem_filter]
  constructor
  · rintro (h | ⟨k, ⟨-, hk⟩, rfl⟩)
    · exact .inl h
    · exact .inr ⟨k, hk, rfl⟩
  · rintro (h | ⟨k, hk, rfl⟩)
    · exact .inl h
    · exact .inr ⟨k, ⟨by cases k <;> decide, hk⟩, rfl⟩

theorem mem_carried (h : o ∈ carried s log) :
    s.core.pc.currState.inHeader = false ∧ o ∈ log := by
  simp only [carried] at h
  split at h
  · cases h
  · rename_i hq
    exact ⟨by simpa using hq, h⟩

theorem carried_eq (hq : s.core.pc.currState.inHeader = false) : carried s log = log := by
  simp [carried, hq]

/-- A store command is issued to a receiver, or with internal loopback on. -/
theorem issued_store (hk : requested f s i k = true) (ha : k ≠ .recAbort) :
    (outcome g f s i k).issued = (CanCore.isReceiver s.core || f.core.mrSettingsIlbp) := by
  cases k <;> first | exact absurd rfl ha | skip
  all_goals
    simp only [requested, Bool.and_eq_true] at hk
    obtain ⟨hd, ht⟩ := hk
    simp only [CanCore.pcOut] at hd
    simp [outcome, port, step, CanCore.step, ProtocolControl.step, hd, ht]

theorem accepted_eq :
    (outcome g f s i k).accepted =
      FrameFilters.identValidD g.filters f.filters s.core.rxs.view := rfl

/-- Requests come from the last DLC bit, from the data field, from the last bit
before a frame is valid, and from errors. -/
theorem requested_state (hk : requested f s i k = true) :
    (k = .storeMetadata ∧ s.core.pc.currState = .dlc) ∨
      (storeDue f s i = true ∧ live s) ∨ (k = .recAbort ∧ s.core.err.errFrmReq = true) := by
  cases k
  · refine .inl ⟨rfl, ?_⟩
    simp [requested, CanCore.pcOut, ProtocolControl.out_storeMetadataD] at hk
    exact hk.1.1.2
  · simp only [requested, Bool.and_eq_true] at hk
    obtain ⟨-, hq⟩ := ProtocolControl.out_storeDataD hk.1
    exact .inr (.inl ⟨by simp [storeDue, hk.1, hk.2], .inl (by simp [hq, PcState.inTail])⟩)
  · simp only [requested, Bool.and_eq_true] at hk
    have hd := hk.1
    simp [CanCore.pcOut, ProtocolControl.out_recValidD, ControlCounter.ctrlCtrOne] at hd
    refine .inr (.inl ⟨by simp [storeDue, hk.1, hk.2], .inr ⟨hd.1.1.2, ?_⟩⟩)
    simp [ControlCounter.ctrlCtrZero, hd.1.2]
  · exact .inr (.inr ⟨rfl, hk⟩)

theorem storeDue_live (h : storeDue f s i = true) : live s := by
  have hk : requested f s i .storeData = true ∨ requested f s i .recValid = true := by
    simpa [requested, storeDue, or_and_right] using h
  rcases hk with hk | hk
  all_goals
    rcases requested_state hk with ⟨hk, -⟩ | ⟨-, hl⟩ | ⟨hk, -⟩
    · cases hk
    · exact hl
    · cases hk

theorem live_noHeader (h : live s) : s.core.pc.currState.inHeader = false := by
  have htail : ∀ st : PcState, st.inTail → st.inHeader = false := by decide
  rcases h with h | ⟨h, -⟩
  · exact htail _ h
  · simp [h, PcState.inHeader]

end Requests

/-! ## Protocol control around an open frame -/

section Frames

variable {g : Generics} {f : Settings} {s : State} {i : Input} {since : Nat}

/-- The decision of given filters does not move while the identifier is held. -/
theorem identValidD_step (r : FrameFilters.Registers)
    (h : s.core.err.errFrmReq = true ∨ s.core.pc.currState = .dlc ∨
      (s.core.pc.currState.inHeader = false ∧
        (step g f s i).core.pc.currState.inHeader = false)) :
    FrameFilters.identValidD g.filters r (step g f s i).core.rxs.view =
      FrameFilters.identValidD g.filters r s.core.rxs.view := by
  obtain ⟨hid, hty, hrtr, hft⟩ := CanCore.view_identQuiet (c := f.core) (i := coreInput s i) h
  simp only [step, FrameFilters.identValidD, FrameFilters.filterResult, FrameFilters.dropRtrFrame,
    FrameFilters.FilterControl.enable, RxFields.recIsRtr, hid, hty, hrtr, hft]

theorem open_noHeader (h : Ordered s since) (ho : frameOpen s = true) :
    s.core.pc.currState.inHeader = false := by
  have htail : ∀ st : PcState, st.inTail ∨ st.afterError ∨ st = .eof → st.inHeader = false := by
    decide
  refine htail _ ?_
  simp only [frameOpen, Bool.or_eq_true] at ho
  rcases ho with hs | hm
  · rcases h.open_state hs with ha | hq | ⟨hq, -⟩
    · exact .inr (.inl (h.paced.abort_afterError ha))
    · exact .inl hq
    · exact .inr (.inr hq)
  · simp only [storeMetadataF, Bool.and_eq_true] at hm
    exact .inl (h.metadata_tail hm.1)

theorem live_noErr (h' : live (step g f s i)) : s.core.err.errFrmReq = false := by
  have hdis : ∀ st : PcState, st.afterError → st.inTail = false ∧ st ≠ .eof := by decide
  by_contra he
  obtain ⟨ht, hq⟩ := hdis _ (ProtocolControl.step_err (c := f.core) (q := s.core.pc)
    (i := CanCore.pcInput f.core s.core (coreInput s i)) (by simpa using he))
  rcases h' with h' | ⟨h', -⟩
  · exact absurd (ht.symm.trans h') (by decide)
  · exact hq h'

/-- Protocol control gets between DLC and validity from the DLC only. -/
theorem enter_live (h : ¬ live s) (h' : live (step g f s i)) :
    s.core.pc.currState = .dlc ∧ s.core.ctr.ctrlCtrZero = true ∧
      CanCore.pcRxTrigger s.core = true := by
  have he := live_noErr h'
  have hnt : s.core.pc.currState.inTail = false := by
    by_contra ht
    exact h (.inl (by simpa using ht))
  rcases h' with h' | ⟨hq', hz'⟩
  · obtain ⟨hq, hz, ht, -⟩ := ProtocolControl.enter_tail hnt h'
    exact ⟨hq, hz, ht⟩
  · exfalso
    rcases (ProtocolControl.enter_eof hq').2 with hq | ⟨hq, -⟩
    · have hz : s.core.ctr.ctrlCtrQ = 0 := by
        by_contra hz
        exact h (.inr ⟨hq, by simp [ControlCounter.ctrlCtrZero, hz]⟩)
      have := CanCore.ctr_eof_zero (c := f.core) (i := coreInput s i) he hq hz hq'
      simp [ControlCounter.ctrlCtrZero, step, this] at hz'
    · simp [hq, PcState.inTail] at hnt

theorem live_isReceiver (h' : live (step g f s i)) :
    CanCore.isReceiver (step g f s i).core = CanCore.isReceiver s.core := by
  refine CanCore.isReceiver_step (c := f.core) (live_noErr h') ?_
  by_cases h : live s
  · exact .inr h
  · exact .inl (enter_live h h').1

/-- An open frame stays open as long as it is neither valid nor in error. -/
theorem open_stays (h : Ordered s since) (ho : frameOpen s = true) (hl : live s) :
    frameOpen (step g f s i) = true := by
  have hnext : (step g f s i).rxb.fsm = s.rxb.fsm.nextState (rxbInput f s i) := rfl
  have hdis : ∀ st : PcState, st.inTail → st.afterError = false := by decide
  have ha : recAbortF s = false := h.abort_quiet (by
    rcases hl with hl | ⟨hl, -⟩
    · exact hdis _ hl
    · simp [hl, PcState.afterError])
  have hv : recValidF s = false := by
    by_contra hv
    simp only [recValidF, Bool.not_eq_false, Bool.and_eq_true] at hv
    obtain ⟨-, hq, hz⟩ := h.valid_end hv.1
    rcases hl with hl | ⟨-, hl⟩
    · simp [hq, PcState.inTail] at hl
    · rw [hz] at hl
      cases hl
  simp only [frameOpen, Bool.or_eq_true] at ho ⊢
  refine .inl ?_
  rw [hnext]
  rcases ho with hs | hm
  · exact storing_next hs ha hv
  · have hmi : (rxbInput f s i).storeMetadataF = true := hm
    simp [h.metadata_idle hm, RxBuffer.RxBufState.nextState, hmi, storing]

end Frames

/-! ## The ledger of a run -/

/-- The ledger agrees with the fields held, and its entries agree with each other. -/
structure Logged (g : Generics) (s : State) (log : List Outcome) : Prop where
  decided : s.core.pc.currState.inHeader = false → ∀ o ∈ log,
    o.accepted = FrameFilters.identValidD g.filters o.settings.filters s.core.rxs.view
  offered : live s → ∀ o ∈ log, o.command ≠ .recAbort →
    o.issued = (CanCore.isReceiver s.core || o.settings.core.mrSettingsIlbp)
  sameIssue : ∀ o ∈ log, ∀ o' ∈ log, o.command ≠ .recAbort → o'.command ≠ .recAbort →
    o.issued = o'.issued
  samePass : ∀ o ∈ log, ∀ o' ∈ log, o.issued = true → o'.issued = true →
    o.accepted = o'.accepted
  opened : frameOpen s = true → ∃ o ∈ log,
    o.command ≠ .recAbort ∧ o.issued = true ∧ o.accepted = true
  closed : live s → frameOpen s = false → ∃ o ∈ log,
    o.command ≠ .recAbort ∧ (o.issued && o.accepted) = false

namespace Logged

variable {g : Generics} {f : Settings} {s : State} {i : Input} {since : Nat}
  {log : List Outcome}

theorem of_reset (g : Generics) (mem : Nat → RxBuffer.Word) (dataOut : RxBuffer.Word) :
    Logged g (reset g mem dataOut) [] := by
  constructor <;>
    simp [frameOpen, storing, storeMetadataF, live, reset, CanCore.reset, ProtocolControl.reset,
      RxBuffer.reset, PcState.inTail]

theorem steady (h : Logged g s log) (ho : Ordered s since) (hc : Consistent g f log s i) :
    Steady g f s i where
  store hdue := by
    have hl := storeDue_live hdue
    have hq := live_noHeader hl
    have hcmd : ∀ o ∈ log, o.command ≠ .recAbort →
        (CanCore.isReceiver s.core || f.core.mrSettingsIlbp) = o.issued := fun o hm hk =>
      (hc.loopback hdue o (by rwa [carried_eq hq]) hk).trans (h.offered hl o hm hk).symm
    have hfil : ∀ o ∈ log, o.command ≠ .recAbort → o.issued = true →
        FrameFilters.identValidD g.filters f.filters s.core.rxs.view = o.accepted :=
      fun o hm hk hi =>
        (hc.filters (.inr ⟨hdue, (hcmd o hm hk).trans hi⟩) o (by rwa [carried_eq hq]) hi).trans
          (h.decided hq o hm).symm
    cases hopen : frameOpen s
    · obtain ⟨o, hm, hk, hno⟩ := h.closed hl hopen
      rw [accepting, hcmd o hm hk]
      cases hi : o.issued
      · rfl
      · rw [hfil o hm hk hi, Bool.true_and]
        simpa [hi] using hno
    · obtain ⟨o, hm, hk, hi, ha⟩ := h.opened hopen
      rw [accepting, hcmd o hm hk, hfil o hm hk hi, hi, ha]
      rfl
  abort he hopen := by
    obtain ⟨o, hm, hk, hi, ha⟩ := h.opened hopen
    have hq := open_noHeader ho hopen
    exact (hc.filters (.inl he) o (by rwa [carried_eq hq]) hi).trans
      ((h.decided hq o hm).symm.trans ha)

theorem next_decided (h : Logged g s log)
    (hq' : (step g f s i).core.pc.currState.inHeader = false) :
    ∀ o ∈ record g f log s i, o.accepted =
      FrameFilters.identValidD g.filters o.settings.filters (step g f s i).core.rxs.view := by
  intro o hm
  rcases mem_record.mp hm with hm | ⟨k, hk, rfl⟩
  · obtain ⟨hq, hm⟩ := mem_carried hm
    rw [identValidD_step _ (.inr (.inr ⟨hq, hq'⟩))]
    exact h.decided hq o hm
  · rw [accepted_eq, outcome, identValidD_step]
    rcases requested_state hk with ⟨-, hq⟩ | ⟨-, hl⟩ | ⟨-, he⟩
    · exact .inr (.inl hq)
    · exact .inr (.inr ⟨live_noHeader hl, hq'⟩)
    · exact .inl he

theorem next_offered (h : Logged g s log) (hl' : live (step g f s i)) :
    ∀ o ∈ record g f log s i, o.command ≠ .recAbort →
      o.issued = (CanCore.isReceiver (step g f s i).core || o.settings.core.mrSettingsIlbp) := by
  intro o hm ha
  rw [live_isReceiver hl']
  rcases mem_record.mp hm with hm | ⟨k, hk, rfl⟩
  · obtain ⟨hq, hm⟩ := mem_carried hm
    by_cases hl : live s
    · exact h.offered hl o hm ha
    · rw [(enter_live hl hl').1] at hq
      cases hq
  · exact issued_store hk ha

/-- A request due in this cycle meets the decisions taken before. -/
theorem request_agrees (h : Logged g s log) (hc : Consistent g f log s i) {k : Command}
    (hk : requested f s i k = true) {o : Outcome} (hm : o ∈ carried s log) :
    (k ≠ .recAbort → o.command ≠ .recAbort → (outcome g f s i k).issued = o.issued) ∧
      ((outcome g f s i k).issued = true → o.issued = true →
        (outcome g f s i k).accepted = o.accepted) := by
  obtain ⟨hq, hlog⟩ := mem_carried hm
  rcases requested_state hk with ⟨-, hd⟩ | ⟨hdue, hl⟩ | ⟨rfl, he⟩
  · rw [hd] at hq
    cases hq
  · refine ⟨fun ha ho => ?_, fun hi ho => ?_⟩
    · rw [issued_store hk ha, hc.loopback hdue o hm ho]
      exact (h.offered hl o hlog ho).symm
    · rw [accepted_eq, h.decided hq o hlog]
      refine hc.filters ?_ o hm ho
      by_cases ha : k = .recAbort
      · subst ha
        exact .inl hk
      · exact .inr ⟨hdue, (issued_store hk ha).symm.trans hi⟩
  · refine ⟨fun ha => absurd rfl ha, fun _ ho => ?_⟩
    rw [accepted_eq, h.decided hq o hlog]
    exact hc.filters (.inl he) o hm ho

theorem next_sameIssue (h : Logged g s log) (hc : Consistent g f log s i) :
    ∀ o ∈ record g f log s i, ∀ o' ∈ record g f log s i, o.command ≠ .recAbort →
      o'.command ≠ .recAbort → o.issued = o'.issued := by
  intro o hm o' hm' ha ha'
  rcases mem_record.mp hm with hm | ⟨k, hk, rfl⟩ <;>
    rcases mem_record.mp hm' with hm' | ⟨k', hk', rfl⟩
  · exact h.sameIssue o (mem_carried hm).2 o' (mem_carried hm').2 ha ha'
  · exact ((h.request_agrees hc hk' hm).1 ha' ha).symm
  · exact (h.request_agrees hc hk hm').1 ha ha'
  · rw [issued_store hk ha, issued_store hk' ha']

theorem next_samePass (h : Logged g s log) (hc : Consistent g f log s i) :
    ∀ o ∈ record g f log s i, ∀ o' ∈ record g f log s i, o.issued = true →
      o'.issued = true → o.accepted = o'.accepted := by
  intro o hm o' hm' hi hi'
  rcases mem_record.mp hm with hm | ⟨k, hk, rfl⟩ <;>
    rcases mem_record.mp hm' with hm' | ⟨k', hk', rfl⟩
  · exact h.samePass o (mem_carried hm).2 o' (mem_carried hm').2 hi hi'
  · exact ((h.request_agrees hc hk' hm).2 hi' hi).symm
  · exact (h.request_agrees hc hk hm').2 hi hi'
  · rfl

/-- The metadata that opened a frame is on record. -/
theorem next_opened (h : Logged g s log) (ho : Ordered s since)
    (hopen : frameOpen (step g f s i) = true) :
    ∃ o ∈ record g f log s i, o.command ≠ .recAbort ∧ o.issued = true ∧ o.accepted = true := by
  simp only [frameOpen, Bool.or_eq_true] at hopen
  rcases hopen with hs | hm
  · have hb := (ho.open_before hs).1
    obtain ⟨o, hmem, hk⟩ := h.opened hb
    refine ⟨o, mem_record.mpr (.inl ?_), hk⟩
    rwa [carried_eq (open_noHeader ho hb)]
  · simp only [storeMetadataF, Bool.and_eq_true] at hm
    obtain ⟨he, hq, hz, ht⟩ := Ordered.metadata_dlc hm.1
    have hk : requested f s i .storeMetadata = true := by
      simp [requested, CanCore.pcOut, ProtocolControl.out_storeMetadataD, he, hq, hz, ht]
    exact ⟨_, mem_record.mpr (.inr ⟨_, hk, rfl⟩), (by decide : Command.storeMetadata ≠ .recAbort),
      hm.1, hm.2⟩

theorem next_closed (h : Logged g s log) (ho : Ordered s since) (hl' : live (step g f s i))
    (hopen : frameOpen (step g f s i) = false) :
    ∃ o ∈ record g f log s i, o.command ≠ .recAbort ∧ (o.issued && o.accepted) = false := by
  by_cases hl : live s
  · have hb : frameOpen s = false := by
      by_contra hb
      rw [open_stays ho (by simpa using hb) hl] at hopen
      cases hopen
    obtain ⟨o, hmem, hk⟩ := h.closed hl hb
    refine ⟨o, mem_record.mpr (.inl ?_), hk⟩
    rwa [carried_eq (live_noHeader hl)]
  · obtain ⟨hq, hz, ht⟩ := enter_live hl hl'
    have hk : requested f s i .storeMetadata = true := by
      simp [requested, CanCore.pcOut, ProtocolControl.out_storeMetadataD, live_noErr hl', hq, hz,
        ht]
    simp only [frameOpen, Bool.or_eq_false_iff] at hopen
    exact ⟨_, mem_record.mpr (.inr ⟨_, hk, rfl⟩), (by decide : Command.storeMetadata ≠ .recAbort),
      hopen.2⟩

theorem step_logged (h : Logged g s log) (ho : Ordered s since) (hc : Consistent g f log s i) :
    Logged g (step g f s i) (record g f log s i) where
  decided := h.next_decided
  offered := h.next_offered
  sameIssue := h.next_sameIssue hc
  samePass := h.next_samePass hc
  opened := h.next_opened ho
  closed := h.next_closed ho

end Logged

end RxPath
