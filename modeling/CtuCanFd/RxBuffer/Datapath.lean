import CtuCanFd.Lib.RingSlots
import CtuCanFd.RxBuffer.Monitor

/-!
# Pointers, counters and RAM against the abstract queue

`Datapath g s q` says that the registers of `s` represent the queue `q`. The
queue's words stand in the RAM from the read pointer on, first the unread
committed ones and then those of the open frame. A cycle out of reset is one
`Queue.cycle` step; `Effect` lists what the writing side may do in it.
-/

namespace RxBuffer

open FrameQueue RingSlots

/-- A committed frame announces its own length in its first word. -/
def FrameShape (f : List Word) : Prop :=
  ∃ w rest, f = w :: rest ∧ rwcntOf w = rest.length ∧ 3 ≤ rest.length ∧ rest.length ≤ 19

theorem FrameShape.length_ge {f : List Word} (h : FrameShape f) : 4 ≤ f.length := by
  obtain ⟨w, rest, rfl, _, hlo, _⟩ := h
  simpa using hlo

theorem FrameShape.ne_nil {f : List Word} (h : FrameShape f) : f ≠ [] := by
  obtain ⟨w, rest, rfl, _⟩ := h
  exact List.cons_ne_nil w rest

structure Datapath (g : Generics) (s : State) (q : Queue Word) : Prop where
  shapes : ∀ f ∈ q.whole, FrameShape f
  readingLe : q.reading.length ≤ 19
  occupancy : q.unread.length + q.pending.length ≤ g.size
  pendingLe : q.pending.length ≤ 20
  readPointer_lt : s.ptrs.readPointer < g.size
  writePointer : s.ptrs.writePointer = (s.ptrs.readPointer + q.unread.length) % g.size
  writePointerRaw : s.ptrs.writePointerRaw =
    (s.ptrs.readPointer + (q.unread.length + q.pending.length)) % g.size
  contents : slots g.size s.ram.mem s.ptrs.readPointer (q.unread.length + q.pending.length) =
    q.unread ++ q.pending
  rxMemFree : s.ptrs.rxMemFree + q.unread.length = g.size
  rxMemFreeRaw : s.ptrs.rxMemFreeRaw + (q.unread.length + q.pending.length) = g.size
  frameCount : s.frameCount = q.frameCount
  readCounter : s.readCounter = q.reading.length
  /-- The registered RAM output shows the word to be read next. An open frame
  needs its second write to bring its first word there. -/
  output : 0 < q.frameCount ∨ 2 ≤ q.pending.length →
    s.ram.dataOut = s.ram.mem s.ptrs.readPointer

/-- What the writing side does to the queue in one cycle. -/
inductive Effect (g : Generics) (s : State) (i : Input) (q : Queue Word) :
    Queue.Edit Word → Prop
  | keep (noCommit : s.commitRxFrame = false)
      (noAbort : (i.recAbortF || s.commitOverrunAbort) = false)
      (noWrite : rxbPortAWrite s i = false) : Effect g s i q .keep
  | push (noCommit : s.commitRxFrame = false)
      (noAbort : (i.recAbortF || s.commitOverrunAbort) = false)
      (write : writeRawOK s i = true) (raw : s.fsm.selectTsWptr = false)
      (short : q.pending.length < 20) : Effect g s i q (.push (writeData s i))
  | patch (k : Nat) (noCommit : s.commitRxFrame = false)
      (noAbort : (i.recAbortF || s.commitOverrunAbort) = false)
      (noRaw : writeRawOK s i = false) (write : rxbPortAWrite s i = true)
      (pos : 0 < k) (inside : k < q.pending.length)
      (address : rxbPortAAddress s = (s.ptrs.writePointer + k) % g.size) :
      Effect g s i q (.patch k (writeData s i))
  | commit (isCommit : s.commitRxFrame = true)
      (noAbort : (i.recAbortF || s.commitOverrunAbort) = false)
      (noWrite : rxbPortAWrite s i = false) (shape : FrameShape q.pending) :
      Effect g s i q .commit
  | rollback (noCommit : s.commitRxFrame = false)
      (abort : (i.recAbortF || s.commitOverrunAbort) = true)
      (noWrite : rxbPortAWrite s i = false) : Effect g s i q .rollback

section Sizes

variable (g : Generics)

theorem Generics.size_ge : 32 ≤ g.size := by
  have h : 2 ^ 5 ≤ 2 ^ g.ptrWidth := Nat.pow_le_pow_right (by omega) g.ptrWidth_ge
  simpa [Generics.size] using h

theorem Generics.size_eq : g.size = 4 * 2 ^ (g.ptrWidth - 2) := by
  have h := g.ptrWidth_ge
  rw [Generics.size, show g.ptrWidth = (g.ptrWidth - 2) + 2 by omega, Nat.pow_add]
  simp [Nat.mul_comm]

theorem Generics.frameCnt_range : 2 ^ g.frameCntWidth = 2 * 2 ^ (g.ptrWidth - 2) := by
  have h := g.ptrWidth_ge
  rw [Generics.frameCntWidth, show g.ptrWidth - 1 = (g.ptrWidth - 2) + 1 by omega, Nat.pow_succ]
  omega

theorem inc_eq (n : Nat) : inc g.ptrWidth n = (n + 1) % g.size := rfl

/-- The free counters have one bit more than the pointers and never wrap. -/
theorem inc_free {n : Nat} (h : n < g.size) : inc (g.ptrWidth + 1) n = n + 1 := by
  rw [inc, Nat.pow_succ]
  apply Nat.mod_eq_of_lt
  have : n + 1 ≤ 2 ^ g.ptrWidth := h
  have := g.size_ge
  simp only [Generics.size] at this
  omega

theorem dec_free {n : Nat} (hpos : 0 < n) (h : n ≤ g.size) : dec (g.ptrWidth + 1) n = n - 1 := by
  rw [dec, Nat.pow_succ]
  have hle : n ≤ 2 ^ g.ptrWidth := h
  rw [show n + 2 ^ g.ptrWidth * 2 - 1 = (n - 1) + 2 ^ g.ptrWidth * 2 by omega,
    Nat.add_mod_right, Nat.mod_eq_of_lt (by omega)]

end Sizes

section Step

variable {g : Generics} {s : State} {i : Input} {q : Queue Word}

theorem Datapath.nonempty_frames (h : Datapath g s q) : ∀ f ∈ q.whole, f ≠ [] :=
  fun f hf => (h.shapes f hf).ne_nil

theorem Datapath.unread_pos (h : Datapath g s q) (hpos : 0 < q.frameCount) :
    0 < q.unread.length :=
  List.length_pos_of_ne_nil (q.unread_ne_nil_of_frameCount h.nonempty_frames hpos)

/-- The first unread word stands at the read pointer. -/
theorem Datapath.head_word (h : Datapath g s q) {w : Word} {rest : List Word}
    (hq : q.unread = w :: rest) : s.ram.mem s.ptrs.readPointer = w := by
  have hfst := congrArg (fun l => l[0]?) h.contents
  simp only [slots_getElem?, hq] at hfst
  simpa [Nat.mod_eq_of_lt h.readPointer_lt] using hfst

theorem Datapath.frameCount_lt (h : Datapath g s q) :
    q.frameCount < 2 ^ g.frameCntWidth := by
  have hbound := q.whole_length_bound 4 fun f hf => (h.shapes f hf).length_ge
  have hocc := h.occupancy
  have hsize := g.size_eq
  have hrange := g.frameCnt_range
  have hge := g.size_ge
  simp only [Queue.frameCount]
  omega

/-- A write is refused exactly when the words in the ring fill it. -/
theorem Datapath.isFreeWord_iff (h : Datapath g s q) :
    isFreeWord s = true ↔ q.unread.length + q.pending.length < g.size := by
  have hsize := g.size_ge
  have hocc := h.occupancy
  have hpend := h.pendingLe
  have hlt := h.readPointer_lt
  rw [isFreeWord, h.writePointerRaw, h.frameCount]
  constructor
  · intro free
    by_contra hfull
    have heq : q.unread.length + q.pending.length = g.size := by omega
    have hcount : 0 < q.frameCount := by
      by_contra hzero
      have hnil := q.unread_eq_nil_of_frameCount (by omega)
      rw [hnil] at heq
      simp only [List.length_nil] at heq
      omega
    rw [heq, Nat.add_mod_right, Nat.mod_eq_of_lt hlt] at free
    simp [hcount] at free
  · intro hroom
    by_contra hfull
    simp only [Bool.not_eq_true, Bool.not_eq_false', Bool.and_eq_true, beq_iff_eq,
      decide_eq_true_eq] at hfull
    obtain ⟨hptr, hcount⟩ := hfull
    have hzero : q.unread.length + q.pending.length = 0 := by
      have hsame : (s.ptrs.readPointer + (q.unread.length + q.pending.length)) % g.size =
          (s.ptrs.readPointer + 0) % g.size := by
        rw [Nat.add_zero, Nat.mod_eq_of_lt hlt]
        exact hptr.symm
      exact offset_injective hroom (by omega) hsame
    have hunread := h.unread_pos hcount
    omega

/-! ### The reading side -/

/-- The queue after the read of this cycle, if there is one. -/
def afterRead (s : State) (i : Input) (q : Queue Word) : Queue Word :=
  if readIncrement s i then q.pop else q

theorem pending_afterRead : (afterRead s i q).pending = q.pending := by
  unfold afterRead
  split
  · exact Queue.pending_pop q
  · rfl

theorem Datapath.readIncrement_pos (h : Datapath g s q) (rd : readIncrement s i = true) :
    0 < q.frameCount := by
  simp only [readIncrement, rxEmpty, h.frameCount, Bool.and_eq_true, Bool.not_eq_true',
    beq_eq_false_iff_ne] at rd
  omega

theorem Datapath.shapes_afterRead (h : Datapath g s q) :
    ∀ f ∈ (afterRead s i q).whole, FrameShape f := by
  intro f hf
  unfold afterRead at hf
  split at hf
  · exact h.shapes f (q.whole_pop_subset hf)
  · exact h.shapes f hf

theorem Datapath.unread_afterRead (h : Datapath g s q) :
    (afterRead s i q).unread = if readIncrement s i then q.unread.tail else q.unread := by
  unfold afterRead
  split
  · exact q.unread_pop h.nonempty_frames
  · rfl

theorem Datapath.unread_afterRead_length (h : Datapath g s q) :
    (afterRead s i q).unread.length + (readIncrement s i).toNat = q.unread.length := by
  rw [h.unread_afterRead]
  cases rd : readIncrement s i with
  | false => simp
  | true =>
    have := h.unread_pos (h.readIncrement_pos rd)
    simp only [if_true, List.length_tail, Bool.toNat_true]
    omega

theorem nextPointers_readPointer (hlt : s.ptrs.readPointer < g.size) :
    (nextPointers g s i).readPointer =
      (s.ptrs.readPointer + (readIncrement s i).toNat) % g.size := by
  cases rd : readIncrement s i with
  | false => simp [nextPointers, rd, Nat.mod_eq_of_lt hlt]
  | true => simp [nextPointers, rd, inc_eq]

/-- Offsets from the new read pointer. -/
theorem Datapath.offset_afterRead (h : Datapath g s q) (k : Nat) :
    ((nextPointers g s i).readPointer + ((afterRead s i q).unread.length + k)) % g.size =
      (s.ptrs.readPointer + (q.unread.length + k)) % g.size := by
  rw [nextPointers_readPointer h.readPointer_lt, Nat.mod_add_mod]
  have := h.unread_afterRead_length (i := i)
  congr 1
  omega

theorem Datapath.contents_afterRead (h : Datapath g s q) :
    slots g.size s.ram.mem (nextPointers g s i).readPointer
        ((afterRead s i q).unread.length + q.pending.length) =
      (afterRead s i q).unread ++ q.pending := by
  have hlen := h.unread_afterRead_length (i := i)
  rw [nextPointers_readPointer h.readPointer_lt, slots_mod_start, h.unread_afterRead]
  rw [h.unread_afterRead] at hlen
  cases rd : readIncrement s i with
  | false => simpa [rd] using h.contents
  | true =>
    simp only [rd, if_true, Bool.toNat_true] at hlen ⊢
    have hne : q.unread ≠ [] := by
      intro hnil
      simp [hnil] at hlen
    rw [slots_tail, ← List.tail_append_of_ne_nil hne, ← h.contents]
    congr 2
    omega

theorem Datapath.readCounter_afterRead (h : Datapath g s q) :
    nextReadCounter s i = (afterRead s i q).reading.length := by
  unfold nextReadCounter afterRead
  cases rd : readIncrement s i with
  | false => simpa using h.readCounter
  | true =>
    have hpos := h.readIncrement_pos rd
    have hout := h.output (Or.inl hpos)
    have hcount := h.readCounter
    obtain ⟨reading, whole, pending⟩ := q
    simp only [if_true]
    cases reading with
    | cons a rest => simp [Queue.pop, hcount]
    | nil =>
      cases whole with
      | nil => simp [Queue.frameCount] at hpos
      | cons f fs =>
        -- the word to be read is the format word of the next frame
        obtain ⟨w, rest, rfl, hrw, _, _⟩ := h.shapes f List.mem_cons_self
        have hw : s.ram.mem s.ptrs.readPointer = w :=
          h.head_word (show _ = w :: (rest ++ fs.flatten) from rfl)
        simp [Queue.pop, hcount, hout, hw, hrw]

theorem Datapath.readingLe_afterRead (h : Datapath g s q) :
    (afterRead s i q).reading.length ≤ 19 := by
  have hle := h.readingLe
  have hshape := h.shapes
  unfold afterRead
  obtain ⟨reading, whole, pending⟩ := q
  split
  · cases reading with
    | cons a rest =>
      simp only [List.length_cons] at hle
      simp only [Queue.pop]
      omega
    | nil =>
      cases whole with
      | nil => simp [Queue.pop]
      | cons f fs =>
        obtain ⟨w, rest, rfl, _, _, hhi⟩ := hshape f List.mem_cons_self
        simpa [Queue.pop] using hhi
  · exact hle

/-- The frame counter gives up a frame with its last word, and only then. -/
theorem Datapath.frameCount_afterRead (h : Datapath g s q) :
    (afterRead s i q).frameCount + (readIncrement s i && s.readCounter == 1).toNat =
      s.frameCount := by
  have long : ∀ f ∈ q.whole, 2 ≤ f.length := fun f hf => by
    have := (h.shapes f hf).length_ge
    omega
  rw [h.frameCount, h.readCounter]
  unfold afterRead
  cases rd : readIncrement s i with
  | false => simp
  | true =>
    by_cases hlast : q.reading.length = 1
    · simpa [hlast] using q.frameCount_pop_last hlast
    · have hne : (q.reading.length == 1) = false := by simpa using hlast
      simpa [hne] using q.frameCount_pop_inner long hlast

/-! ### The writing side -/

/-- The registers of a cycle out of reset. -/
theorem step_running (resN : s.resN = true) (noRrb : i.mrCommandRrb = false) :
    (step g s i).ptrs = nextPointers g s i ∧
    (step g s i).readCounter = nextReadCounter s i ∧
    (step g s i).frameCount = nextFrameCount g s i := by
  simp [step, resN, noRrb]

theorem nextRam_mem (noTest : i.mrTstControlTmaena = false) :
    (nextRam g s i).mem = if rxbPortAWrite s i
      then Function.update s.ram.mem (rxbPortAAddress s) (writeData s i) else s.ram.mem := by
  cases hw : rxbPortAWrite s i with
  | false =>
    simp only [nextRam, tstEna, noTest, hw]
    split <;> simp
  | true => simp [nextRam, tstEna, noTest, hw, ramClkEn]

/-- The RAM clock is gated in a cycle without a write and without a read. -/
theorem ramClkEn_off (h : ramClkEn g s i = false) :
    rxbPortAWrite s i = false ∧ readIncrement s i = false := by
  simp only [ramClkEn, Bool.or_eq_false_iff] at h
  obtain ⟨⟨⟨-, hw⟩, hrd⟩, -⟩ := h
  exact ⟨hw, by simp [readIncrement, hrd]⟩

/-- The RAM output is refreshed at the new read pointer, or the RAM clock is
gated and neither a read nor a write took place. -/
theorem nextRam_dataOut (noTest : i.mrTstControlTmaena = false) :
    (nextRam g s i).dataOut = s.ram.mem (nextPointers g s i).readPointer ∨
    ((nextRam g s i).dataOut = s.ram.dataOut ∧ rxbPortAWrite s i = false ∧
      readIncrement s i = false) := by
  cases hclk : ramClkEn g s i with
  | true =>
    left
    simp [nextRam, tstEna, noTest, hclk, rxbPortBAddress, nextPointers]
  | false =>
    right
    refine ⟨?_, ramClkEn_off hclk⟩
    simp [nextRam, hclk]

theorem writeRawOK_portA (h : writeRawOK s i = true) : rxbPortAWrite s i = true := by
  simp [rxbPortAWrite, h]

theorem writeRawOK_of_portA (h : rxbPortAWrite s i = false) : writeRawOK s i = false := by
  simp only [rxbPortAWrite, Bool.or_eq_false_iff] at h
  exact h.1

theorem writeRawOK_free (h : writeRawOK s i = true) : isFreeWord s = true := by
  simp only [writeRawOK, overrunCondition, Bool.and_eq_true, Bool.not_eq_true'] at h
  cases hfree : isFreeWord s with
  | true => rfl
  | false => simp [h.1.1, hfree] at h

/-- Nothing but the commit moves words over to the reading side. -/
theorem Effect.unread_edit {e : Queue.Edit Word} (h : Effect g s i q e) (q' : Queue Word) :
    (q'.edit e).unread = if s.commitRxFrame then q'.unread ++ q'.pending else q'.unread := by
  cases h with
  | keep noCommit => simp [noCommit, Queue.edit]
  | push noCommit => simp [noCommit, Queue.edit, Queue.unread]
  | patch k noCommit => simp [noCommit, Queue.edit, Queue.unread]
  | commit isCommit => simp [isCommit, Queue.unread_commit]
  | rollback noCommit => simp [noCommit, Queue.edit, Queue.unread]

theorem Effect.reading_edit {e : Queue.Edit Word} (h : Effect g s i q e) (q' : Queue Word) :
    (q'.edit e).reading = q'.reading := by
  cases h <;> rfl

theorem Effect.frameCount_edit {e : Queue.Edit Word} (h : Effect g s i q e)
    (q' : Queue Word) :
    (q'.edit e).frameCount = q'.frameCount + s.commitRxFrame.toNat := by
  cases h with
  | keep noCommit => simp [noCommit, Queue.edit]
  | push noCommit => simp [noCommit, Queue.edit, Queue.frameCount]
  | patch k noCommit => simp [noCommit, Queue.edit, Queue.frameCount]
  | commit isCommit => simp [isCommit, Queue.frameCount_commit]
  | rollback noCommit => simp [noCommit, Queue.edit, Queue.frameCount]

theorem Effect.shapes_edit {e : Queue.Edit Word} {q' : Queue Word} (h : Effect g s i q e)
    (same : q'.pending = q.pending) (shapes : ∀ f ∈ q'.whole, FrameShape f) :
    ∀ f ∈ (q'.edit e).whole, FrameShape f := by
  cases h with
  | keep => exact shapes
  | push => exact shapes
  | patch => exact shapes
  | rollback => exact shapes
  | commit _ _ _ shape =>
    intro f hf
    rcases List.mem_append.mp hf with hold | hnew
    · exact shapes f hold
    · rw [List.mem_singleton.mp hnew, same]
      exact shape

theorem Effect.occupancy_edit {e : Queue.Edit Word} (h : Datapath g s q)
    (he : Effect g s i q e) :
    ((afterRead s i q).edit e).unread.length + ((afterRead s i q).edit e).pending.length ≤
      g.size ∧ ((afterRead s i q).edit e).pending.length ≤ 20 := by
  have hlen := h.unread_afterRead_length (i := i)
  have hpend := pending_afterRead (s := s) (i := i) (q := q)
  have hocc := h.occupancy
  have hle := h.pendingLe
  rw [he.unread_edit]
  cases he with
  | keep noCommit =>
    simp only [Queue.edit, noCommit, hpend, Bool.false_eq_true, if_false]
    omega
  | push noCommit _ write _ short =>
    have hroom := h.isFreeWord_iff.mp (writeRawOK_free write)
    simp only [Queue.edit, noCommit, hpend, Bool.false_eq_true, if_false, List.length_append,
      List.length_singleton]
    omega
  | patch k noCommit =>
    simp only [Queue.edit, noCommit, hpend, Bool.false_eq_true, if_false, List.length_set]
    omega
  | commit isCommit =>
    simp only [Queue.edit, isCommit, hpend, if_true, List.length_append, List.length_nil]
    omega
  | rollback noCommit =>
    simp only [Queue.edit, noCommit, Bool.false_eq_true, if_false, List.length_nil]
    omega

theorem Effect.writePointer_next {e : Queue.Edit Word} (h : Datapath g s q)
    (he : Effect g s i q e) :
    (nextPointers g s i).writePointer = ((nextPointers g s i).readPointer +
      ((afterRead s i q).edit e).unread.length) % g.size := by
  rw [he.unread_edit]
  cases hc : s.commitRxFrame with
  | false =>
    have hoff := h.offset_afterRead (i := i) 0
    simp only [Nat.add_zero] at hoff
    simp only [Bool.false_eq_true, if_false, hoff, ← h.writePointer]
    simp [nextPointers, hc]
  | true =>
    simp only [if_true, List.length_append, pending_afterRead, h.offset_afterRead,
      ← h.writePointerRaw]
    simp [nextPointers, hc]

theorem Effect.writePointerRaw_next {e : Queue.Edit Word} (h : Datapath g s q)
    (he : Effect g s i q e) :
    (nextPointers g s i).writePointerRaw = ((nextPointers g s i).readPointer +
      (((afterRead s i q).edit e).unread.length +
        ((afterRead s i q).edit e).pending.length)) % g.size := by
  have hraw : s.ptrs.writePointerRaw = ((nextPointers g s i).readPointer +
      ((afterRead s i q).unread.length + q.pending.length)) % g.size := by
    rw [h.offset_afterRead, ← h.writePointerRaw]
  rw [he.unread_edit]
  change s.ptrs.nextRaw g (writeRawOK s i) i.recAbortF s.commitOverrunAbort = _
  unfold Pointers.nextRaw
  cases he with
  | keep noCommit noAbort noWrite =>
    simp only [writeRawOK_of_portA noWrite, noAbort, noCommit, Queue.edit, pending_afterRead,
      Bool.false_eq_true, if_false, hraw]
  | push noCommit _ write =>
    simp only [write, noCommit, Queue.edit, pending_afterRead, Bool.false_eq_true, if_false,
      if_true, hraw, inc_eq, List.length_append, List.length_singleton, Nat.mod_add_mod,
      Nat.add_assoc]
  | patch k noCommit noAbort noRaw =>
    simp only [noRaw, noAbort, noCommit, Queue.edit, pending_afterRead, List.length_set,
      Bool.false_eq_true, if_false, hraw]
  | commit isCommit noAbort noWrite =>
    simp only [writeRawOK_of_portA noWrite, noAbort, isCommit, Queue.edit, pending_afterRead,
      Bool.false_eq_true, if_false, if_true, hraw, List.length_append, List.length_nil,
      Nat.add_zero]
  | rollback noCommit abort noWrite =>
    have hoff := h.offset_afterRead (i := i) 0
    simp only [Nat.add_zero] at hoff
    simp only [writeRawOK_of_portA noWrite, abort, noCommit, Queue.edit, Bool.false_eq_true,
      if_false, if_true, List.length_nil, Nat.add_zero, hoff, h.writePointer]

theorem Effect.contents_next {e : Queue.Edit Word} (h : Datapath g s q)
    (he : Effect g s i q e) (noTest : i.mrTstControlTmaena = false) :
    slots g.size (nextRam g s i).mem (nextPointers g s i).readPointer
        (((afterRead s i q).edit e).unread.length +
          ((afterRead s i q).edit e).pending.length) =
      ((afterRead s i q).edit e).unread ++ ((afterRead s i q).edit e).pending := by
  have hcont := h.contents_afterRead (i := i)
  have hlen := h.unread_afterRead_length (i := i)
  have hpend := pending_afterRead (s := s) (i := i) (q := q)
  have hocc := h.occupancy
  rw [nextRam_mem noTest, he.unread_edit]
  cases he with
  | keep noCommit noAbort noWrite =>
    simpa [noWrite, noCommit, Queue.edit, hpend] using hcont
  | push noCommit noAbort write raw short =>
    have hroom := h.isFreeWord_iff.mp (writeRawOK_free write)
    have haddr : rxbPortAAddress s = ((nextPointers g s i).readPointer +
        ((afterRead s i q).unread.length + q.pending.length)) % g.size := by
      rw [h.offset_afterRead, ← h.writePointerRaw]
      simp [rxbPortAAddress, raw]
    have hnext := slots_update_next g.size s.ram.mem (nextPointers g s i).readPointer
      (n := (afterRead s i q).unread.length + q.pending.length) (by omega) (writeData s i)
    rw [← haddr, hcont] at hnext
    simpa [writeRawOK_portA write, noCommit, Queue.edit, hpend, Nat.add_assoc] using hnext
  | patch k noCommit noAbort noRaw write pos inside address =>
    have haddr : rxbPortAAddress s = ((nextPointers g s i).readPointer +
        ((afterRead s i q).unread.length + k)) % g.size := by
      rw [address, h.writePointer, Nat.mod_add_mod, Nat.add_assoc, h.offset_afterRead]
    have hupd := slots_update g.size s.ram.mem (nextPointers g s i).readPointer
      (n := (afterRead s i q).unread.length + q.pending.length)
      (k := (afterRead s i q).unread.length + k) (by omega) (by omega) (writeData s i)
    rw [← haddr, hcont, List.set_append_right _ _ (by omega)] at hupd
    simpa [write, noCommit, Queue.edit, hpend] using hupd
  | commit isCommit noAbort noWrite =>
    simpa [noWrite, isCommit, Queue.edit, hpend] using hcont
  | rollback noCommit abort noWrite =>
    have htake := slots_take g.size s.ram.mem (nextPointers g s i).readPointer
      (show (afterRead s i q).unread.length ≤
        (afterRead s i q).unread.length + q.pending.length by omega)
    rw [hcont, List.take_left] at htake
    simpa [noWrite, noCommit, Queue.edit] using htake

theorem Effect.rxMemFree_next {e : Queue.Edit Word} (h : Datapath g s q)
    (he : Effect g s i q e) :
    (nextPointers g s i).rxMemFree + ((afterRead s i q).edit e).unread.length = g.size := by
  have hlen := h.unread_afterRead_length (i := i)
  have hpend := pending_afterRead (s := s) (i := i) (q := q)
  have hfree := h.rxMemFree
  have hraw := h.rxMemFreeRaw
  have hinc := inc_free g (n := s.ptrs.rxMemFree)
  have hincRaw := inc_free g (n := s.ptrs.rxMemFreeRaw)
  rw [he.unread_edit]
  change s.ptrs.nextFree g (readIncrement s i) s.commitRxFrame + _ = _
  unfold Pointers.nextFree
  cases hc : s.commitRxFrame <;> cases rd : readIncrement s i <;>
    simp only [rd, hpend, Bool.false_eq_true, if_false, if_true, Bool.toNat_true,
      Bool.toNat_false, List.length_append] at hlen ⊢
  · omega
  · rw [hinc (by omega)]
    omega
  · omega
  · rw [hincRaw (by omega)]
    omega

theorem Effect.rxMemFreeRaw_next {e : Queue.Edit Word} (h : Datapath g s q)
    (he : Effect g s i q e) :
    (nextPointers g s i).rxMemFreeRaw + (((afterRead s i q).edit e).unread.length +
      ((afterRead s i q).edit e).pending.length) = g.size := by
  have hlen := h.unread_afterRead_length (i := i)
  have hpend := pending_afterRead (s := s) (i := i) (q := q)
  have hfree := h.rxMemFree
  have hraw := h.rxMemFreeRaw
  have hinc := inc_free g (n := s.ptrs.rxMemFree)
  have hincRaw := inc_free g (n := s.ptrs.rxMemFreeRaw)
  rw [he.unread_edit]
  change s.ptrs.nextFreeRaw g (readIncrement s i) (writeRawOK s i)
    (i.recAbortF || s.commitOverrunAbort) + _ = _
  unfold Pointers.nextFreeRaw
  -- the counter takes back the words of the open frame on a rollback, and one
  -- word per read; a push takes one word
  have hquiet : (i.recAbortF || s.commitOverrunAbort) = false → writeRawOK s i = false →
      (if readIncrement s i then inc (g.ptrWidth + 1) s.ptrs.rxMemFreeRaw
        else s.ptrs.rxMemFreeRaw) + ((afterRead s i q).unread.length + q.pending.length) =
        g.size := by
    intro _ _
    cases rd : readIncrement s i <;>
      simp only [rd, Bool.false_eq_true, if_false, if_true, Bool.toNat_true,
        Bool.toNat_false] at hlen ⊢
    · omega
    · rw [hincRaw (by omega)]
      omega
  cases he with
  | keep noCommit noAbort noWrite =>
    have hok := writeRawOK_of_portA noWrite
    have := hquiet noAbort hok
    simp only [noAbort, hok, noCommit, Queue.edit, hpend, Bool.false_eq_true, if_false,
      Bool.not_false, if_true]
    exact this
  | patch k noCommit noAbort noRaw =>
    have := hquiet noAbort noRaw
    simp only [noAbort, noRaw, noCommit, Queue.edit, hpend, Bool.false_eq_true, if_false,
      Bool.not_false, if_true, List.length_set]
    exact this
  | commit isCommit noAbort noWrite =>
    have hok := writeRawOK_of_portA noWrite
    have := hquiet noAbort hok
    simp only [noAbort, hok, isCommit, Queue.edit, hpend, Bool.false_eq_true, if_false,
      Bool.not_false, if_true, List.length_append, List.length_nil, Nat.add_zero]
    exact this
  | push noCommit noAbort write =>
    have hroom := h.isFreeWord_iff.mp (writeRawOK_free write)
    have hdec := dec_free g (n := s.ptrs.rxMemFreeRaw) (by omega) (by omega)
    cases rd : readIncrement s i <;>
      simp only [rd, noAbort, write, noCommit, Queue.edit, hpend, Bool.false_eq_true, if_false,
        if_true, Bool.not_true, Bool.toNat_true, Bool.toNat_false, List.length_append,
        List.length_singleton, hdec] at hlen ⊢
    · omega
    · omega
  | rollback noCommit abort noWrite =>
    cases rd : readIncrement s i <;>
      simp only [rd, abort, noCommit, Queue.edit, Bool.false_eq_true, if_false, if_true,
        Bool.toNat_true, Bool.toNat_false, List.length_nil, Nat.add_zero] at hlen ⊢
    · omega
    · rw [hinc (by omega)]
      omega

theorem Effect.frameCount_next {e : Queue.Edit Word} (h : Datapath g s q)
    (he : Effect g s i q e) (bound : ((afterRead s i q).edit e).frameCount <
      2 ^ g.frameCntWidth) :
    nextFrameCount g s i = ((afterRead s i q).edit e).frameCount := by
  have hread := h.frameCount_afterRead (i := i)
  have hlt := h.frameCount_lt
  rw [← h.frameCount] at hlt
  rw [he.frameCount_edit] at bound ⊢
  unfold nextFrameCount
  cases hc : s.commitRxFrame <;>
    cases hl : (readIncrement s i && s.readCounter == 1) <;>
    simp only [hc, hl, Bool.false_eq_true, if_false, if_true, Bool.toNat_true,
      Bool.toNat_false, Nat.add_zero] at hread bound ⊢
  · exact hread.symm
  · rw [dec, show s.frameCount + 2 ^ g.frameCntWidth - 1 =
      (s.frameCount - 1) + 2 ^ g.frameCntWidth by omega, Nat.add_mod_right,
      Nat.mod_eq_of_lt (by omega)]
    omega
  · rw [inc, Nat.mod_eq_of_lt (by omega), hread]
  · omega

/-- A register that is loaded from the word at the new read pointer whenever a read or a write
takes place shows the word to be read next. -/
theorem Effect.fetched_next {β : Type} {f : Word → β} {out out' : β} {e : Queue.Edit Word}
    (h : Datapath g s q) (he : Effect g s i q e) (noTest : i.mrTstControlTmaena = false)
    (held : 0 < q.frameCount ∨ 2 ≤ q.pending.length → out = f (s.ram.mem s.ptrs.readPointer))
    (loaded : out' = f (s.ram.mem (nextPointers g s i).readPointer) ∨
      (out' = out ∧ rxbPortAWrite s i = false ∧ readIncrement s i = false))
    (shows : 0 < ((afterRead s i q).edit e).frameCount ∨
      2 ≤ ((afterRead s i q).edit e).pending.length) :
    out' = f ((nextRam g s i).mem (nextPointers g s i).readPointer) := by
  have hpend := pending_afterRead (s := s) (i := i) (q := q)
  have hlen := h.unread_afterRead_length (i := i)
  have hsize := g.size_ge
  have hrp : (nextPointers g s i).readPointer < g.size := by
    rw [nextPointers_readPointer h.readPointer_lt]
    exact Nat.mod_lt _ (by omega)
  rw [nextRam_mem noTest]
  rcases loaded with hout | ⟨hout, hw, rd⟩
  · rw [hout]
    cases hw : rxbPortAWrite s i with
    | false => simp
    | true =>
      -- a write never hits the word just fetched, except the first word of an
      -- open frame in an otherwise empty buffer, which nothing shows yet
      obtain ⟨k, hk, hpos, haddr⟩ : ∃ k, k < g.size ∧ 0 < k ∧
          rxbPortAAddress s = ((nextPointers g s i).readPointer + k) % g.size := by
        cases he with
        | keep _ _ noWrite => simp [noWrite] at hw
        | commit _ _ noWrite => simp [noWrite] at hw
        | rollback _ _ noWrite => simp [noWrite] at hw
        | push noCommit noAbort write raw short =>
          have hroom := h.isFreeWord_iff.mp (writeRawOK_free write)
          refine ⟨(afterRead s i q).unread.length + q.pending.length, by omega, ?_, ?_⟩
          · by_contra hzero
            rcases shows with hcount | hlong
            · have hfc : 0 < (afterRead s i q).frameCount := hcount
              have hne := (afterRead s i q).unread_ne_nil_of_frameCount
                (fun f hf => (h.shapes_afterRead f hf).ne_nil) hfc
              have := List.length_pos_of_ne_nil hne
              omega
            · simp only [Queue.edit, hpend, List.length_append, List.length_singleton] at hlong
              omega
          · rw [h.offset_afterRead, ← h.writePointerRaw]
            simp [rxbPortAAddress, raw]
        | patch k noCommit noAbort noRaw write pos inside address =>
          have hocc := h.occupancy
          refine ⟨(afterRead s i q).unread.length + k, by omega, by omega, ?_⟩
          rw [address, h.writePointer, Nat.mod_add_mod, Nat.add_assoc, h.offset_afterRead]
      have hne : (nextPointers g s i).readPointer ≠ rxbPortAAddress s := by
        intro heq
        rw [haddr] at heq
        have hsame : ((nextPointers g s i).readPointer + 0) % g.size =
            ((nextPointers g s i).readPointer + k) % g.size := by
          rw [Nat.add_zero, Nat.mod_eq_of_lt hrp]
          exact heq
        have := offset_injective (by omega) hk hsame
        omega
      simp [hne]
  · have hold : 0 < q.frameCount ∨ 2 ≤ q.pending.length := by
      have hsame : afterRead s i q = q := by simp [afterRead, rd]
      rw [hsame] at shows
      cases he with
      | keep => exact shows
      | push _ _ write => simp [writeRawOK_portA write] at hw
      | patch _ _ _ _ write => simp [write] at hw
      | commit _ _ _ shape =>
        have := shape.length_ge
        exact Or.inr (by omega)
      | rollback => exact Or.inl (by simpa [Queue.edit, Queue.frameCount] using shows)
    rw [hout, held hold, hw]
    simp [nextPointers, rd]

theorem Effect.output_next {e : Queue.Edit Word} (h : Datapath g s q)
    (he : Effect g s i q e) (noTest : i.mrTstControlTmaena = false)
    (shows : 0 < ((afterRead s i q).edit e).frameCount ∨
      2 ≤ ((afterRead s i q).edit e).pending.length) :
    (nextRam g s i).dataOut = (nextRam g s i).mem (nextPointers g s i).readPointer :=
  he.fetched_next (f := id) h noTest h.output (nextRam_dataOut noTest) shows

/-- One cycle out of reset is one cycle of the abstract queue. -/
theorem Datapath.step_cycle {e : Queue.Edit Word} (h : Datapath g s q)
    (resN : s.resN = true) (noRrb : i.mrCommandRrb = false)
    (noTest : i.mrTstControlTmaena = false) (he : Effect g s i q e) :
    Datapath g (step g s i) (q.cycle (readIncrement s i) e) := by
  obtain ⟨hptrs, hrc, hfc⟩ := step_running (g := g) resN noRrb
  have hcycle : q.cycle (readIncrement s i) e = (afterRead s i q).edit e := rfl
  have hram : (step g s i).ram = nextRam g s i := rfl
  have hsize := g.size_ge
  have hocc := he.occupancy_edit h
  have shapes := he.shapes_edit (pending_afterRead (i := i)) h.shapes_afterRead
  have bound : ((afterRead s i q).edit e).frameCount < 2 ^ g.frameCntWidth := by
    have hbound := ((afterRead s i q).edit e).whole_length_bound 4
      fun f hf => (shapes f hf).length_ge
    have hsz := g.size_eq
    have hrange := g.frameCnt_range
    simp only [Queue.frameCount]
    omega
  rw [hcycle]
  constructor
  · exact shapes
  · rw [he.reading_edit]
    exact h.readingLe_afterRead
  · exact hocc.1
  · exact hocc.2
  · rw [hptrs, nextPointers_readPointer h.readPointer_lt]
    exact Nat.mod_lt _ (by omega)
  · rw [hptrs]
    exact he.writePointer_next h
  · rw [hptrs]
    exact he.writePointerRaw_next h
  · rw [hptrs, hram]
    exact he.contents_next h noTest
  · rw [hptrs]
    exact he.rxMemFree_next h
  · rw [hptrs]
    exact he.rxMemFreeRaw_next h
  · rw [hfc]
    exact he.frameCount_next h bound
  · rw [hrc, he.reading_edit]
    exact h.readCounter_afterRead
  · rw [hptrs, hram]
    exact he.output_next h noTest

/-- The reset values represent the empty queue, whatever the RAM holds. -/
theorem Datapath.of_reset (ptrs : s.ptrs = resetPointers g) (readCounter : s.readCounter = 0)
    (frameCount : s.frameCount = 0) : Datapath g s Queue.empty := by
  have hsize := g.size_ge
  constructor <;>
    simp [ptrs, readCounter, frameCount, resetPointers, Queue.empty, Queue.unread,
      Queue.frameCount]
  omega

end Step

end RxBuffer
