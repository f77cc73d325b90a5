import CtuCanFd.RxBuffer.Fifo

/-!
# The RX parity flag

Port A writes every word together with its parity bit, and port B fetches both at once. The
parity bits of words never written keep their reset value, which need not fit the RAM, and
`parity_flag_proc` looks at every read attempt, also at one that finds the buffer empty. The
memory test port writes words without their parity bits.

A run with test accesses is compared with its twin, the same run without them: until a read
delivers a frame format word with another word count, both differ in the RAM and in the words
delivered only, and each parity bit is that of the word the twin holds at its address.
-/

namespace RxBuffer

open FrameQueue SyncMachine

/-- The same cycle without the memory test access. -/
def Input.untested (i : Input) : Input := { i with mrTstControlTmaena := false }

/-- A cycle of an orderly run, with or without a memory test access, in which software does not
read from the empty buffer. -/
structure ReadsStored (p : State × Monitor) (i : Input) : Prop where
  orderly : Orderly p i.untested
  stored : readAttempt i = true → rxEmpty p.1 = false

instance (p : State × Monitor) (i : Input) : Decidable (ReadsStored p i) :=
  decidable_of_iff (Orderly p i.untested ∧ (readAttempt i = true → rxEmpty p.1 = false))
    ⟨fun ⟨a, b⟩ => ⟨a, b⟩, fun h => ⟨h.1, h.2⟩⟩

/-- A read removes a word from the buffer and delivers another one than was written there. -/
def Misdelivers (p : State × Monitor) (i : Input) : Prop :=
  readIncrement p.1 i = true ∧ ∃ w ∈ p.2.queue.unread.head?, rxbPortBDataOut p.1 ≠ w

/-- A read takes a frame format word from the buffer with another word count than was written
there, so that the reader loses the ends of the frames. -/
def Miscounts (p : State × Monitor) (i : Input) : Prop :=
  readIncrement p.1 i = true ∧ p.1.readCounter = 0 ∧
    ∃ w ∈ p.2.queue.unread.head?, rwcntOf (rxbPortBDataOut p.1) ≠ rwcntOf w

/-- A read sets the parity error status. -/
def SetsParityError (g : Generics) (p : State × Monitor) (i : Input) : Prop :=
  readAttempt i = true ∧ (step g p.1 i).rxParityError = true ∧
    (p.1.rxParityError = true → i.mrCommandCrxpe = true)

/-- The twin of a state reached with test accesses. -/
structure Twin (g : Generics) (p t : State × Monitor) : Prop where
  registers : p.1 = { t.1 with ram := p.1.ram, rxParityError := p.1.rxParityError }
  monitor : p.2 = { t.2 with returned := p.2.returned }
  refines : Refines g t
  written : g.supParity = true → ∀ a, p.1.ram.parityWord a = parity (t.1.ram.mem a)
  fetched : g.supParity = true → 0 < t.2.queue.frameCount ∨ 2 ≤ t.2.queue.pending.length →
    p.1.ram.parityReadExp = parity (t.1.ram.mem t.1.ptrs.readPointer)

section Step

variable {g : Generics} {s t : State} {m k : Monitor} {i : Input}

theorem nextRam_parityWord (sup : g.supParity = true) :
    (nextRam g s i).parityWord = if rxbPortAWrite s i
      then Function.update s.ram.parityWord (rxbPortAAddress s) (parity (writeData s i))
      else s.ram.parityWord := by
  cases hw : rxbPortAWrite s i with
  | false =>
    simp only [nextRam, hw]
    split <;> simp
  | true => simp [nextRam, hw, ramClkEn, sup]

/-- The parity bit is fetched whenever the word is. -/
theorem nextRam_parityReadExp (sup : g.supParity = true) :
    (nextRam g s i).parityReadExp = s.ram.parityWord (nextPointers g s i).readPointer ∨
    ((nextRam g s i).parityReadExp = s.ram.parityReadExp ∧ rxbPortAWrite s i = false ∧
      readIncrement s i = false) := by
  cases hclk : ramClkEn g s i with
  | true =>
    left
    simp [nextRam, hclk, sup, rxbPortBAddress, nextPointers]
  | false =>
    right
    refine ⟨?_, ramClkEn_off hclk⟩
    simp [nextRam, hclk]

namespace Twin

/-- The next word of the buffer is the one the twin delivers. -/
theorem next_word (h : Twin g (s, m) (t, k)) (rd : readIncrement s i = true) :
    rxbPortBDataOut s = s.ram.dataOut ∧ m.queue.unread.head? = some t.ram.dataOut := by
  have hreg : s = { t with ram := s.ram, rxParityError := s.rxParityError } := h.registers
  have hmon : m = { k with returned := m.returned } := h.monitor
  have hempty : rxEmpty s = false := by
    simp only [readIncrement, Bool.and_eq_true, Bool.not_eq_true'] at rd
    exact rd.2
  have hcount : s.frameCount = t.frameCount := by rw [hreg]
  have htempty : rxEmpty t = false := by rwa [rxEmpty, hcount] at hempty
  have hrd : readIncrement t i = true := by rwa [readIncrement, htempty, ← hempty]
  have hhead : k.queue.unread = rxbPortBDataOut t :: k.queue.unread.tail :=
    h.refines.data.returned_word hrd
  refine ⟨by simp [rxbPortBDataOut, hempty], ?_⟩
  rw [hmon, hhead]
  simp [rxbPortBDataOut, htempty]

/-- A read that does not deliver a wrong word delivers the word of the twin. -/
theorem delivered (h : Twin g (s, m) (t, k)) (right : ¬ Misdelivers (s, m) i)
    (rd : readIncrement s i = true) : s.ram.dataOut = t.ram.dataOut := by
  obtain ⟨hout, hhead⟩ := h.next_word rd
  by_contra hne
  exact right ⟨rd, t.ram.dataOut, hhead, hout.trans_ne hne⟩

theorem orderly (h : Twin g (s, m) (t, k)) (ok : Orderly (s, m) i) : Orderly (t, k) i := by
  have hreg : s = { t with ram := s.ram, rxParityError := s.rxParityError } := h.registers
  have hmon : m = { k with returned := m.returned } := h.monitor
  rw [hreg, hmon] at ok
  exact ⟨⟨ok.noTest, ok.oneHot, ok.metadataInIdle, ok.dataWhileStoring, ok.abortAllowed,
    ok.dataExpected, ok.dataComplete⟩, ok.noAbortInCommit, ok.errorFrameFits⟩

/-- The word count of a frame format word is all that the registers take from the RAM. -/
theorem readCounter_step (h : Twin g (s, m) (t, k)) (right : ¬ Miscounts (s, m) i) :
    nextReadCounter s i = nextReadCounter t i.untested := by
  have hword := h.next_word (i := i)
  obtain ⟨r, e, rfl⟩ : ∃ r e, s = { t with ram := r, rxParityError := e } :=
    ⟨_, _, h.registers⟩
  cases rd : readIncrement { t with ram := r, rxParityError := e } i with
  | false =>
    have hrd : readIncrement t i.untested = false := rd
    simp [nextReadCounter, rd, hrd]
  | true =>
    have hrd : readIncrement t i.untested = true := rd
    obtain ⟨hout, hhead⟩ := hword rd
    by_cases hpos : 0 < t.readCounter
    · simp [nextReadCounter, rd, hrd, hpos]
    · have hcount : rwcntOf r.dataOut = rwcntOf t.ram.dataOut := by
        by_contra hne
        refine right ⟨rd, Nat.eq_zero_of_not_pos hpos, t.ram.dataOut, hhead, ?_⟩
        rwa [hout]
      simp [nextReadCounter, rd, hrd, hpos, hcount]

theorem registers_step (h : Twin g (s, m) (t, k)) (right : ¬ Miscounts (s, m) i) :
    step g s i = { step g t i.untested with
      ram := nextRam g s i, rxParityError := (step g s i).rxParityError } := by
  have hrc := h.readCounter_step right
  obtain ⟨r, e, rfl⟩ : ∃ r e, s = { t with ram := r, rxParityError := e } :=
    ⟨_, _, h.registers⟩
  simp only [step, hrc]
  rfl

theorem monitor_step (h : Twin g (s, m) (t, k)) :
    m.watch g s i = { k.watch g t i.untested with returned := (m.watch g s i).returned } := by
  obtain ⟨r, e, rfl⟩ : ∃ r e, s = { t with ram := r, rxParityError := e } :=
    ⟨_, _, h.registers⟩
  obtain ⟨ws, rfl⟩ : ∃ ws, m = { k with returned := ws } := ⟨_, h.monitor⟩
  rfl

theorem written_step (h : Twin g (s, m) (t, k)) (sup : g.supParity = true) (a : Nat) :
    (nextRam g s i).parityWord a = parity ((nextRam g t i.untested).mem a) := by
  have hold := h.written sup
  obtain ⟨r, e, rfl⟩ : ∃ r e, s = { t with ram := r, rxParityError := e } :=
    ⟨_, _, h.registers⟩
  rw [nextRam_parityWord sup, nextRam_mem rfl]
  cases hw : rxbPortAWrite { t with ram := r, rxParityError := e } i with
  | false =>
    have hwt : rxbPortAWrite t i.untested = false := hw
    simpa [hwt] using hold a
  | true =>
    have hwt : rxbPortAWrite t i.untested = true := hw
    by_cases ha : a = rxbPortAAddress t
    · subst ha
      simp only [hwt, if_true, Function.update_self]
      exact Function.update_self ..
    · simp only [hwt, if_true, Function.update_of_ne ha]
      exact (Function.update_of_ne ha ..).trans (hold a)

theorem fetched_step (h : Twin g (s, m) (t, k)) (ok : Orderly (t, k) i.untested)
    (sup : g.supParity = true)
    (shows : 0 < (k.watch g t i.untested).queue.frameCount ∨
      2 ≤ (k.watch g t i.untested).queue.pending.length) :
    (nextRam g s i).parityReadExp =
      parity ((nextRam g t i.untested).mem (step g t i.untested).ptrs.readPointer) := by
  have hwritten := h.written sup
  have hheld := h.fetched sup
  obtain ⟨r, e, rfl⟩ : ∃ r e, s = { t with ram := r, rxParityError := e } :=
    ⟨_, _, h.registers⟩
  have hempty : (k.watch g t i.untested).queue ≠ Queue.empty := by
    intro hq
    simp [hq, Queue.empty, Queue.frameCount] at shows
  cases rrb : i.untested.mrCommandRrb with
  | true => exact absurd (by simp [Monitor.watch, Monitor.nextQueue, rrb]) hempty
  | false =>
    cases resN : t.resN with
    | false => exact absurd (h.refines.inReset_quiet resN rrb) hempty
    | true =>
      rw [(step_running resN rrb).1]
      have hshows : 0 < ((afterRead t i.untested k.queue).edit
            (Monitor.editOf t i.untested)).frameCount ∨
          2 ≤ ((afterRead t i.untested k.queue).edit
            (Monitor.editOf t i.untested)).pending.length := by
        simp only [Monitor.watch, Monitor.nextQueue, rrb, Bool.false_eq_true, if_false] at shows
        exact shows
      refine (h.refines.stage.effect ok).fetched_next (f := parity) h.refines.data rfl hheld ?_
        hshows
      rcases nextRam_parityReadExp (s := { t with ram := r, rxParityError := e }) (i := i) sup with
        hnew | hold
      · exact .inl (hnew.trans (hwritten _))
      · exact .inr hold

/-- A read of a stored word that is delivered as it was written has the parity that was stored
with it. -/
theorem parity_fits (h : Twin g (s, m) (t, k)) (ok : ReadsStored (s, m) i)
    (right : ¬ Misdelivers (s, m) i) (hatt : readAttempt i = true) :
    parityMismatch g s = false := by
  have hempty : rxEmpty s = false := ok.stored hatt
  have rd : readIncrement s i = true := by simp [readIncrement, hatt, hempty]
  cases sup : g.supParity with
  | false => simp [parityMismatch, sup]
  | true =>
    have hcount : s.frameCount = t.frameCount := by rw [show s = _ from h.registers]
    have hpos : 0 < k.queue.frameCount := by
      rw [← h.refines.data.frameCount, ← hcount]
      simpa [rxEmpty, Nat.pos_iff_ne_zero] using hempty
    have hexp : s.ram.parityReadExp = parity (t.ram.mem t.ptrs.readPointer) :=
      h.fetched sup (.inl hpos)
    have hout : t.ram.dataOut = t.ram.mem t.ptrs.readPointer :=
      h.refines.data.output (.inl hpos)
    simp [parityMismatch, hexp, h.delivered right rd, hout]

theorem step_watched (h : Twin g (s, m) (t, k)) (ok : ReadsStored (s, m) i)
    (right : ¬ Miscounts (s, m) i) :
    Twin g (watchedStep g (s, m) i) (watchedStep g (t, k) i.untested) := by
  have hok := h.orderly ok.orderly
  exact ⟨h.registers_step right, h.monitor_step, h.refines.step_watched hok,
    fun sup a => h.written_step sup a, fun sup shows => h.fetched_step hok sup shows⟩

end Twin

theorem step_parityError : (step g s i).rxParityError =
    ((readAttempt i && parityMismatch g s && i.mrSettingsPchke) ||
      (!i.mrCommandCrxpe && s.rxParityError)) := rfl

/-- The read that sets the status delivers a wrong word. -/
theorem Twin.misdelivers (h : Twin g (s, m) (t, k)) (ok : ReadsStored (s, m) i)
    (sets : SetsParityError g (s, m) i) : Misdelivers (s, m) i := by
  obtain ⟨hatt, hflag, hold⟩ := sets
  by_contra right
  rw [step_parityError, h.parity_fits ok right hatt] at hflag
  simp only [Bool.and_false, Bool.false_and, Bool.false_or, Bool.and_eq_true,
    Bool.not_eq_true'] at hflag
  exact absurd (hflag.1.symm.trans (hold hflag.2)) (by decide)

/-- A status that was not set before is set by a read. -/
theorem sets_of_flag (hold : s.rxParityError = false)
    (hflag : (step g s i).rxParityError = true) : SetsParityError g (s, m) i := by
  refine ⟨?_, hflag, fun hset => absurd (hold.symm.trans hset) (by decide)⟩
  rw [step_parityError, hold, Bool.and_false, Bool.or_false, Bool.and_eq_true,
    Bool.and_eq_true] at hflag
  exact hflag.1.1

end Step

theorem twin_reset (g : Generics) (mem : Nat → Word) (dataOut : Word) :
    Twin g (watchedReset g mem dataOut) (watchedReset g (fun _ => 1) 1) where
  registers := rfl
  monitor := rfl
  refines := refines_reset g _ _
  -- the parity bits of the reset fit words with an odd number of ones
  written _ _ := (by decide : false = parity 1)
  fetched _ _ := (by decide : false = parity 1)

/-- In every orderly run in which software reads stored words only, a set RX parity error status
was set by a read that delivered another word than was written, unless an earlier read has
delivered a frame format word with a wrong word count. -/
theorem parity_flag_sound (g : Generics) (mem : Nat → Word) (dataOut : Word) (is : List Input)
    (ok : Admits (watchedStep g) ReadsStored (watchedReset g mem dataOut) is)
    (flag : (run (watchedStep g) (watchedReset g mem dataOut) is).1.rxParityError = true) :
    ∃ past i rest, is = past ++ i :: rest ∧
      SetsParityError g (run (watchedStep g) (watchedReset g mem dataOut) past) i ∧
      (Misdelivers (run (watchedStep g) (watchedReset g mem dataOut) past) i ∨
        ∃ past' j rest', past = past' ++ j :: rest' ∧
          Miscounts (run (watchedStep g) (watchedReset g mem dataOut) past') j) := by
  rcases run_invariant_or_event (watchedStep g) ReadsStored (SetsParityError g)
    (fun p => p.1.rxParityError = false)
    (fun p i hp _ hno => Bool.eq_false_iff.mpr fun hflag => hno (sets_of_flag hp hflag))
    rfl is ok with hclear | ⟨past, i, rest, rfl, hsets⟩
  · rw [hclear] at flag
    cases flag
  · obtain ⟨hpast, hok, -⟩ := (admits_append _ _ _ _ _).mp ok
    refine ⟨past, i, rest, rfl, hsets, ?_⟩
    rcases run_invariant_or_event (watchedStep g) ReadsStored Miscounts
      (fun p => ∃ t, Twin g p t)
      (fun _ _ ⟨_, h⟩ hok hright => ⟨_, h.step_watched hok hright⟩)
      ⟨_, twin_reset g mem dataOut⟩ past hpast with ⟨t, h⟩ | hev
    · exact .inl (h.misdelivers hok hsets)
    · exact .inr hev

/-- Parity checking on, and the same with a read. -/
def checkedCycle : Input := { quiet with mrSettingsPchke := true }

def checkedRead : Input := { checkedCycle with mrRxDataRead := true }

/-- A frame, one bit of its identifier word changed by the test port, and two reads. -/
def corruptedRun : List Input :=
  quiet :: remoteFrame 1 ++
    [checkedCycle,
      { checkedCycle with
        mrTstControlTmaena := true, mrTstControlTwrstb := true, mrTstDestTstAddr := 1
        mrTstDestTstMtgt := 1, mrTstWdataTstWdata := 3 },
      { checkedCycle with mrTstControlTmaena := true }, checkedRead, checkedRead]

/-- The flag reports the changed word. -/
theorem parity_flag_sound_corrupted :
    ∃ past i rest, corruptedRun = past ++ i :: rest ∧
      SetsParityError smallest
        (run (watchedStep smallest) (watchedReset smallest (fun _ => 0) 0) past) i ∧
      (Misdelivers (run (watchedStep smallest) (watchedReset smallest (fun _ => 0) 0) past) i ∨
        ∃ past' j rest', past = past' ++ j :: rest' ∧
          Miscounts (run (watchedStep smallest) (watchedReset smallest (fun _ => 0) 0) past') j) :=
  parity_flag_sound smallest (fun _ => 0) 0 corruptedRun (by decide +kernel) (by decide +kernel)

/-- An orderly cycle that takes no word from the buffer. -/
def TakesNothing (p : State × Monitor) (i : Input) : Prop :=
  Orderly p i ∧ readIncrement p.1 i = false

instance (p : State × Monitor) (i : Input) : Decidable (TakesNothing p i) :=
  inferInstanceAs (Decidable (_ ∧ _))

/-- A read of the buffer that has been empty since reset sets the flag. -/
theorem empty_read_sets_parity_flag :
    Admits (watchedStep smallest) TakesNothing (watchedReset smallest (fun _ => 0) 0)
        [checkedCycle, checkedRead] ∧
      (run (watchedStep smallest) (watchedReset smallest (fun _ => 0) 0)
        [checkedCycle, checkedRead]).1.rxParityError = true := by
  decide +kernel

end RxBuffer
