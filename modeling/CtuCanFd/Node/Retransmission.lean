import CtuCanFd.Node.Accounting

/-!
# Retransmission limit

The retransmit counter stands for the attempts of one TXT buffer. It is incremented with
the end of an attempt, at most once until the next intermission, cleared with a frame that
is valid or failed, and cleared when a lock finds another buffer than the last one did.
The limit is reached when counter and limit are equal.
-/

namespace Node

open ProtocolControl SyncMachine

/-! ## `retransmitt_counter` and the registers around it -/

structure Retr where
  retrCtrQ : Nat
  /-- `last_txtb_index` of the TX arbitrator. -/
  lastTxtbIndex : Nat
deriving DecidableEq, Repr

def Retr.reset : Retr := ⟨0, 0⟩

structure RetrInput where
  node : Input
  /-- `curr_txtb_index` of the TX arbitrator. -/
  currTxtbIndex : Nat
  /-- The arbitrator FSM is in a state that takes the lock, so that it raises
  `store_last_txtb_index` with it. -/
  takesLock : Bool

def retrLimitReached (rtrth : Nat) (r : Retr) : Bool := r.retrCtrQ == rtrth

/-- The inputs of the node, with the answer of the counter. -/
def closed (rtrth : Nat) (r : Retr) (i : RetrInput) : Input :=
  { i.node with core := { i.node.core with retrLimitReached := retrLimitReached rtrth r } }

def hwCmd (f : Settings) (s : State) (i : Input) : TxtbHwCmd :=
  (out f.core s.core.pc (pcInput f s i)).txtbHwCmdD

def retrCtrClear (f : Settings) (s : State) (i : Input) : Bool :=
  ProtocolControl.retrCtrClear f.core s.core.pc (pcInput f s i)

def retrCtrAdd (f : Settings) (s : State) (i : Input) : Bool :=
  ProtocolControl.retrCtrAdd f.core s.core.pc s.flags (pcInput f s i)

def storeLastTxtbIndex (s : State) (i : RetrInput) : Bool :=
  i.takesLock && s.core.pc.txtbHwCmdQ.lock

def txtbChanged (s : State) (r : Retr) (i : RetrInput) : Bool :=
  r.lastTxtbIndex != i.currTxtbIndex && storeLastTxtbIndex s i

def Retr.next (f : Settings) (rtrth : Nat) (r : Retr) (s : State) (i : RetrInput) : Retr where
  retrCtrQ :=
    if retrCtrAdd f s (closed rtrth r i) then (r.retrCtrQ + 1) % 16
    else if retrCtrClear f s (closed rtrth r i) || txtbChanged s r i then 0
    else r.retrCtrQ
  lastTxtbIndex := if storeLastTxtbIndex s i then i.currTxtbIndex else r.lastTxtbIndex

/-! ## Attempts -/

/-- Locks of the same buffer since its last frame was valid or failed. A lock of another
buffer starts over. -/
structure Attempts where
  index : Nat
  count : Nat
deriving DecidableEq, Repr

def Attempts.next (a : Attempts) (s : State) (i : RetrInput) : Attempts :=
  if s.core.pc.txtbHwCmdQ.lock then
    ⟨i.currTxtbIndex, if i.currTxtbIndex = a.index then a.count + 1 else 1⟩
  else if s.core.pc.txtbHwCmdQ.valid || s.core.pc.txtbHwCmdQ.failed then ⟨a.index, 0⟩
  else a

structure Limited where
  node : State
  watch : Watch
  retr : Retr
  attempts : Attempts

def limitedStep (f : Settings) (rtrth : Nat) (p : Limited) (i : RetrInput) : Limited where
  node := step f p.node (closed rtrth p.retr i)
  watch := p.watch.next p.node (closed rtrth p.retr i)
  retr := p.retr.next f rtrth p.node i
  attempts := p.attempts.next p.node i

def limitedReset : Limited := ⟨timedReset.1, timedReset.2, .reset, ⟨0, 0⟩⟩

/-- What the counter relies on: an attempt starts with the block released, a lock is taken
by the arbitrator, and a node that holds no buffer signals no error that would be
counted. -/
structure Spared (rtrth : Nat) (p : Limited) (i : RetrInput) : Prop where
  clocked : Clocked p.watch p.node (closed rtrth p.retr i)
  fresh : p.node.core.pc.txtbHwCmdQ.lock = true → p.node.flags.retrCtrAddBlock = false
  taken : p.node.core.pc.txtbHwCmdQ.lock = true → i.takesLock = true
  once : p.node.core.err.errFrmReq = true →
    CanCore.lockedNow p.node.core p.watch.locked = false →
    CanCore.isReceiver p.node.core = true ∨ p.node.flags.retrCtrAddBlock = true

instance (rtrth : Nat) (p : Limited) (i : RetrInput) : Decidable (Spared rtrth p i) :=
  decidable_of_iff
    (Clocked p.watch p.node (closed rtrth p.retr i) ∧
      (p.node.core.pc.txtbHwCmdQ.lock = true → p.node.flags.retrCtrAddBlock = false) ∧
      (p.node.core.pc.txtbHwCmdQ.lock = true → i.takesLock = true) ∧
      (p.node.core.err.errFrmReq = true →
        CanCore.lockedNow p.node.core p.watch.locked = false →
        CanCore.isReceiver p.node.core = true ∨ p.node.flags.retrCtrAddBlock = true))
    ⟨fun ⟨a, b, c, d⟩ => ⟨a, b, c, d⟩, fun ⟨a, b, c, d⟩ => ⟨a, b, c, d⟩⟩

/-! ## The end of an attempt -/

section Commands

variable {c : Config} {q : Regs} {i : ProtocolControl.Input}

theorem out_endCmd (he : i.errFrmReq = false) :
    (out c q i).txtbHwCmdD.failed = ((out c q i).arbitrationLostI && txFailed c i) ∧
      (out c q i).txtbHwCmdD.valid =
        (q.currState == .eof && i.ctrlCtrZero && i.rxDataNbs && i.isTransmitter) := by
  rw [out_noErr he]
  cases hq : q.currState <;> first | exact ⟨rfl, rfl⟩ | skip
  case off =>
    cases hena : c.mrSettingsEna <;> simp [outState, outOff, hena]

theorem out_errorCmd (he : i.errFrmReq = true) : (out c q i).txtbHwCmdD = errorCmd c q i := by
  rw [out_err he]
  rfl

end Commands

section Step

variable {f : Settings} {s : State} {i : Input}

/-- The end of an attempt clears the counter, with a command that ends the transmission
for good, or counts it. -/
inductive AttemptStep (f : Settings) (s : State) (i : Input) : Prop
  | goesOn (add : retrCtrAdd f s i = false) (clear : retrCtrClear f s i = false)
      (unlock : (step f s i).core.pc.txtbHwCmdQ.unlock = false)
  | done (add : retrCtrAdd f s i = false) (clear : retrCtrClear f s i = true)
      (cmd : ((step f s i).core.pc.txtbHwCmdQ.valid ||
        (step f s i).core.pc.txtbHwCmdQ.failed) = true)
  | counted (add : retrCtrAdd f s i = true) (limit : i.core.retrLimitReached = false)
      (unlock : (step f s i).core.pc.txtbHwCmdQ.unlock = true)

theorem txtbHwCmdQ_step : (step f s i).core.pc.txtbHwCmdQ =
    if ctrlSignalUpd (pcInput f s i) then hwCmd f s i else {} := rfl

theorem retrCtrClear_eq : retrCtrClear f s i =
    (((hwCmd f s i).valid && CanCore.pcRxTrigger s.core) || (hwCmd f s i).failed) := rfl

theorem txFailed_limit (hlim : f.core.mrSettingsRtrle = true) :
    txFailed f.core (pcInput f s i) = i.core.retrLimitReached := by
  rw [txFailed, hlim]
  rfl

section Attempt

variable (hlim : f.core.mrSettingsRtrle = true) (hx : CanCore.isTransmitter s.core = true)
  (hb : s.flags.retrCtrAddBlock = false)

include hlim hx hb

theorem retrCtrAdd_transmitter : retrCtrAdd f s i = (!retrCtrClear f s i &&
    (((out f.core s.core.pc (pcInput f s i)).arbitrationLostI && CanCore.pcRxTrigger s.core) ||
      s.core.err.errFrmReq)) := by
  have hr : (pcInput f s i).isReceiver = false := by
    have hr : CanCore.isReceiver s.core = false := by
      simp only [CanCore.isTransmitter, beq_iff_eq] at hx
      simp [CanCore.isReceiver, hx]
    exact hr
  rw [retrCtrAdd, ProtocolControl.retrCtrAdd, hlim, hr, hb]
  simp [retrCtrClear, pcInput]

/-- Between sample points there is no command. -/
theorem attempt_between (he : s.core.err.errFrmReq = false)
    (ht : CanCore.pcRxTrigger s.core = false) :
    AttemptStep f s i := by
  have hlost : (out f.core s.core.pc (pcInput f s i)).arbitrationLostI = false :=
    CanCore.arbitrationLostI_trigger (c := f.core) (i := coreInput s i) he ht
  have hupd : ctrlSignalUpd (pcInput f s i) = false := by simp [ctrlSignalUpd, pcInput, ht, he]
  have hfailed := (out_endCmd (c := f.core) (q := s.core.pc) (i := pcInput f s i) he).1
  rw [hlost] at hfailed
  refine .goesOn ?_ ?_ ?_
  · simp [retrCtrAdd_transmitter hlim hx hb, he, ht]
  · simp [retrCtrClear_eq, hwCmd, hfailed, ht]
  · simp [txtbHwCmdQ_step, hupd, TxtbHwCmd.unlock]

/-- A bit that does not lose arbitration ends the attempt if it is the last one of the frame. -/
theorem attempt_bit (he : s.core.err.errFrmReq = false)
    (ht : CanCore.pcRxTrigger s.core = true)
    (hlost : (out f.core s.core.pc (pcInput f s i)).arbitrationLostI = false) :
    AttemptStep f s i := by
  obtain ⟨hfailed, hvalid⟩ := out_endCmd (c := f.core) (q := s.core.pc) (i := pcInput f s i) he
  have hunlock := out_unlock (c := f.core) (q := s.core.pc) (i := pcInput f s i) he
  have hupd : ctrlSignalUpd (pcInput f s i) = true := by simp [ctrlSignalUpd, pcInput, ht]
  have hadd : retrCtrAdd f s i = false := by
    simp [retrCtrAdd_transmitter hlim hx hb, he, hlost]
  rw [hlost] at hfailed hunlock
  cases hv : (hwCmd f s i).valid
  · refine .goesOn hadd ?_ ?_
    · have hfailed : (hwCmd f s i).failed = false := hfailed
      simp [retrCtrClear_eq, hv, hfailed]
    · have hv : (out f.core s.core.pc (pcInput f s i)).txtbHwCmdD.valid = false := hv
      rw [txtbHwCmdQ_step, hupd, if_pos rfl, hwCmd, hunlock, ← hvalid, hv]
      rfl
  · exact .done hadd (by simp [retrCtrClear_eq, hv, ht]) (by simp [txtbHwCmdQ_step, hupd, hv])

/-- Arbitration is lost in a field that is not the end of frame. -/
theorem attempt_lost (he : s.core.err.errFrmReq = false)
    (ht : CanCore.pcRxTrigger s.core = true)
    (hlost : (out f.core s.core.pc (pcInput f s i)).arbitrationLostI = true) :
    AttemptStep f s i := by
  obtain ⟨hfailed, hvalid⟩ := out_endCmd (c := f.core) (q := s.core.pc) (i := pcInput f s i) he
  have hunlock := out_unlock (c := f.core) (q := s.core.pc) (i := pcInput f s i) he
  have hupd : ctrlSignalUpd (pcInput f s i) = true := by simp [ctrlSignalUpd, pcInput, ht]
  have hadd := retrCtrAdd_transmitter (i := i) hlim hx hb
  have heof : (s.core.pc.currState == .eof) = false := by
    by_contra heof
    rw [Bool.not_eq_false, beq_iff_eq] at heof
    have hst := (out_lost hlost).1
    rw [heof] at hst
    cases hst
  rw [heof] at hvalid
  rw [hlost, txFailed_limit hlim] at hfailed
  rw [hlost] at hunlock
  cases hl : i.core.retrLimitReached <;> rw [hl] at hfailed
  · refine .counted ?_ hl ?_
    · simp [hadd, retrCtrClear_eq, hwCmd, hfailed, hvalid, hlost, ht]
    · simp [txtbHwCmdQ_step, hupd, hwCmd, hunlock]
  · have hfailed : (hwCmd f s i).failed = true := hfailed
    have hclear : retrCtrClear f s i = true := by simp [retrCtrClear_eq, hfailed]
    exact .done (by simp [hadd, hclear]) hclear (by simp [txtbHwCmdQ_step, hupd, hfailed])

theorem attempt_error (he : s.core.err.errFrmReq = true)
    (hq : blockTxtbUnlock s.core.pc.currState = false) : AttemptStep f s i := by
  have hupd : ctrlSignalUpd (pcInput f s i) = true := by simp [ctrlSignalUpd, pcInput, he]
  have hadd := retrCtrAdd_transmitter (i := i) hlim hx hb
  have hcmd : hwCmd f s i = errorCmd f.core s.core.pc (pcInput f s i) :=
    out_errorCmd (c := f.core) (q := s.core.pc) (i := pcInput f s i) he
  have hfailed : (hwCmd f s i).failed = i.core.retrLimitReached := by
    simp [hcmd, errorCmd, hx, hq, txFailed_limit hlim]
  cases hl : i.core.retrLimitReached <;> rw [hl] at hfailed
  · have hvalid : (hwCmd f s i).valid = false := by
      rw [hcmd]
      rfl
    have hunlock : (hwCmd f s i).unlock = true := by
      rw [hcmd, errorCmd_unlock.1]
      simp [hx, hq]
    refine .counted ?_ hl ?_
    · simp [hadd, retrCtrClear_eq, hfailed, hvalid, he]
    · simp [txtbHwCmdQ_step, hupd, hunlock]
  · have hclear : retrCtrClear f s i = true := by simp [retrCtrClear_eq, hfailed]
    exact .done (by simp [hadd, hclear]) hclear (by simp [txtbHwCmdQ_step, hupd, hfailed])

theorem attempt_cases
    (hq : s.core.err.errFrmReq = true → blockTxtbUnlock s.core.pc.currState = false) :
    AttemptStep f s i := by
  cases he : s.core.err.errFrmReq
  · cases ht : CanCore.pcRxTrigger s.core
    · exact attempt_between hlim hx hb he ht
    · cases hlost : (out f.core s.core.pc (pcInput f s i)).arbitrationLostI
      · exact attempt_bit hlim hx hb he ht hlost
      · exact attempt_lost hlim hx hb he ht hlost
  · exact attempt_error hlim hx hb he (hq he)

end Attempt

theorem clear_unlock (h : retrCtrClear f s i = true) :
    (step f s i).core.pc.txtbHwCmdQ.unlock = true := by
  rw [retrCtrClear_eq] at h
  have hupd : ctrlSignalUpd (pcInput f s i) = true := by
    by_contra hupd
    simp only [ctrlSignalUpd, pcInput, CanCore.pcInput, Bool.or_eq_true, not_or,
      Bool.not_eq_true] at hupd
    obtain ⟨ht, he⟩ := hupd
    have hlost := CanCore.arbitrationLostI_trigger (c := f.core) (i := coreInput s i) he ht
    have hlost : (out f.core s.core.pc (pcInput f s i)).arbitrationLostI = false := hlost
    have hfailed := (out_endCmd (c := f.core) (q := s.core.pc) (i := pcInput f s i) he).1
    rw [hlost] at hfailed
    simp [hwCmd, ht, hfailed] at h
  rw [txtbHwCmdQ_step, hupd, if_pos rfl]
  simp only [Bool.or_eq_true, Bool.and_eq_true] at h
  rcases h with h | h
  · simp [TxtbHwCmd.unlock, h.1]
  · simp [TxtbHwCmd.unlock, h]

theorem lock_decided (h : (step f s i).core.pc.txtbHwCmdQ.lock = true) :
    s.core.err.errFrmReq = false ∧ s.core.pc.currState.inPause = true := by
  rw [txtbHwCmdQ_step] at h
  split at h
  · rw [hwCmd, out_lock] at h
    obtain ⟨he, hq, -⟩ := out_setTransmitterI h
    exact ⟨he, hq⟩
  · cases h

end Step

/-! ## Invariant -/

/-- The counter holds the attempts that have ended; one more may be under way. -/
structure Counted (f : Settings) (rtrth : Nat) (p : Limited) : Prop where
  accounted : Accounted f p.watch p.node
  le : p.retr.retrCtrQ ≤ rtrth
  last : p.retr.lastTxtbIndex = p.attempts.index
  bound : p.attempts.count ≤ rtrth + 1
  underway : p.watch.locked = true → p.node.core.pc.txtbHwCmdQ.unlock = false →
    p.node.flags.retrCtrAddBlock = false ∧ p.attempts.count ≤ p.retr.retrCtrQ + 1
  ended : p.watch.locked = false ∨ p.node.core.pc.txtbHwCmdQ.unlock = true →
    (p.node.core.pc.txtbHwCmdQ.valid || p.node.core.pc.txtbHwCmdQ.failed) = true ∨
      p.attempts.count ≤ p.retr.retrCtrQ
  started : p.node.core.pc.txtbHwCmdQ.lock = true → p.attempts.count ≤ p.retr.retrCtrQ

namespace Counted

variable {f : Settings} {rtrth : Nat} {p : Limited} {i : RetrInput}

theorem of_reset (f : Settings) (rtrth : Nat) : Counted f rtrth limitedReset where
  accounted := .of_reset f
  le := Nat.zero_le _
  last := rfl
  bound := Nat.zero_le _
  underway := nofun
  ended _ := .inr (Nat.zero_le _)
  started := nofun

theorem last_next (h : Counted f rtrth p) (hok : Spared rtrth p i) :
    (limitedStep f rtrth p i).retr.lastTxtbIndex = (limitedStep f rtrth p i).attempts.index := by
  by_cases hl : p.node.core.pc.txtbHwCmdQ.lock = true
  · simp [limitedStep, Retr.next, storeLastTxtbIndex, Attempts.next, hl, hok.taken hl]
  · have hidx : (p.attempts.next p.node i).index = p.attempts.index := by
      rw [Attempts.next, if_neg hl]
      split <;> rfl
    show (p.retr.next f rtrth p.node i).lastTxtbIndex = (p.attempts.next p.node i).index
    simp [Retr.next, storeLastTxtbIndex, hl, hidx, h.last]

theorem locked_before (hnow : CanCore.lockedNow p.node.core p.watch.locked = true)
    (hl : ¬ p.node.core.pc.txtbHwCmdQ.lock = true) :
    p.watch.locked = true ∧ p.node.core.pc.txtbHwCmdQ.unlock = false := by
  rw [CanCore.lockedNow, if_neg hl] at hnow
  split at hnow
  · cases hnow
  · rename_i hu
    exact ⟨hnow, by simpa using hu⟩

theorem block_locked (h : Counted f rtrth p) (hok : Spared rtrth p i)
    (hnow : CanCore.lockedNow p.node.core p.watch.locked = true) :
    p.node.flags.retrCtrAddBlock = false := by
  by_cases hl : p.node.core.pc.txtbHwCmdQ.lock = true
  · exact hok.fresh hl
  · obtain ⟨hw, hu⟩ := locked_before hnow hl
    exact (h.underway hw hu).1

/-- A lock of another buffer clears the counter, and its attempts start over. -/
theorem attempts_locked (h : Counted f rtrth p) (hok : Spared rtrth p i)
    (hnow : CanCore.lockedNow p.node.core p.watch.locked = true) :
    (p.attempts.next p.node i).count ≤
      (if txtbChanged p.node p.retr i then 0 else p.retr.retrCtrQ) + 1 := by
  by_cases hl : p.node.core.pc.txtbHwCmdQ.lock = true
  · have hle := h.started hl
    have hchg : txtbChanged p.node p.retr i = (p.attempts.index != i.currTxtbIndex) := by
      simp [txtbChanged, storeLastTxtbIndex, hl, hok.taken hl, h.last]
    simp only [Attempts.next, hl, if_true, hchg]
    by_cases hi : i.currTxtbIndex = p.attempts.index
    · simp [hi, hle]
    · simp [hi]
  · obtain ⟨hw, hu⟩ := locked_before hnow hl
    have hchg : txtbChanged p.node p.retr i = false := by
      simp [txtbChanged, storeLastTxtbIndex, hl]
    simp only [TxtbHwCmd.unlock, Bool.or_eq_false_iff] at hu
    have hsame : p.attempts.next p.node i = p.attempts := by
      simp [Attempts.next, hl, hu]
    rw [hsame, hchg]
    exact (h.underway hw (by simp [TxtbHwCmd.unlock, hu])).2

/-- While a buffer is locked. -/
theorem step_locked (h : Counted f rtrth p) (hena : f.core.mrSettingsEna = true)
    (hrom : f.core.mrModeRom = false) (hlim : f.core.mrSettingsRtrle = true) (h15 : rtrth ≤ 15)
    (hok : Spared rtrth p i)
    (hnow : CanCore.lockedNow p.node.core p.watch.locked = true) :
    Counted f rtrth (limitedStep f rtrth p i) := by
  have ht := h.accounted.locking.locked.symm.trans hnow
  simp only [CanCore.transmitting, Bool.and_eq_true, Bool.or_eq_true, beq_iff_eq] at ht
  obtain ⟨hx, hst⟩ := ht
  have hq : p.node.core.err.errFrmReq = true →
      blockTxtbUnlock p.node.core.pc.currState = false := by
    intro _
    have hdis : ∀ st : PcState, st.inFrame = true ∨ st = .integrating →
        blockTxtbUnlock st = false := by decide
    exact hdis _ (hst.imp_right And.right)
  have hb := h.block_locked hok hnow
  have hlock : (limitedStep f rtrth p i).node.core.pc.txtbHwCmdQ.lock = false := by
    by_contra hl
    obtain ⟨he, hpause⟩ := lock_decided (Bool.of_not_eq_false hl)
    rcases hst with hst | ⟨he', -⟩
    · revert hst hpause
      cases p.node.core.pc.currState <;> decide
    · exact absurd (he.symm.trans he') (by decide)
  have hle := h.le
  have hw : (limitedStep f rtrth p i).watch.locked = true := hnow
  have hcount : (limitedStep f rtrth p i).attempts.count ≤
      (if txtbChanged p.node p.retr i then 0 else p.retr.retrCtrQ) + 1 :=
    h.attempts_locked hok hnow
  have hctr : (if txtbChanged p.node p.retr i then 0 else p.retr.retrCtrQ) ≤ p.retr.retrCtrQ := by
    split <;> omega
  have hbound : (limitedStep f rtrth p i).attempts.count ≤ rtrth + 1 := by omega
  have hacc := h.accounted.step_accounted hena hrom hok.clocked
  cases attempt_cases (s := p.node) (i := closed rtrth p.retr i) hlim hx hb hq with
  | goesOn hadd hclr hun =>
    have hr : (limitedStep f rtrth p i).retr.retrCtrQ =
        if txtbChanged p.node p.retr i then 0 else p.retr.retrCtrQ := by
      simp [limitedStep, Retr.next, hadd, hclr]
    refine ⟨hacc, by omega, h.last_next hok, hbound, fun _ _ => ⟨?_, by rw [hr]; exact hcount⟩,
      ?_, by simp [hlock]⟩
    · have hadd : ProtocolControl.retrCtrAdd f.core p.node.core.pc p.node.flags
          (pcInput f p.node (closed rtrth p.retr i)) = false := hadd
      simp [limitedStep, step, FaultFlags.step, hadd, hb]
    · rintro (hw' | hu)
      · exact absurd (hw.symm.trans hw') (by decide)
      · exact absurd (hun.symm.trans hu) (by decide)
  | done hadd hclr hend =>
    have hr : (limitedStep f rtrth p i).retr.retrCtrQ = 0 := by
      simp [limitedStep, Retr.next, hadd, hclr]
    refine ⟨hacc, by omega, h.last_next hok, hbound, fun _ hu => ?_, fun _ => .inl hend,
      by simp [hlock]⟩
    exact absurd (hu.symm.trans (clear_unlock hclr)) (by decide)
  | counted hadd hl hun =>
    have hne : p.retr.retrCtrQ ≠ rtrth := by
      have hl : (p.retr.retrCtrQ == rtrth) = false := hl
      simpa using hl
    have hr : (limitedStep f rtrth p i).retr.retrCtrQ = p.retr.retrCtrQ + 1 := by
      have hmod : (p.retr.retrCtrQ + 1) % 16 = p.retr.retrCtrQ + 1 := by omega
      simp [limitedStep, Retr.next, hadd, hmod]
    refine ⟨hacc, by omega, h.last_next hok, hbound, fun _ hu => ?_, fun _ => .inr (by omega),
      by simp [hlock]⟩
    exact absurd (hu.symm.trans hun) (by decide)

theorem clear_unlocked (h : Counted f rtrth p)
    (hnow : CanCore.lockedNow p.node.core p.watch.locked = false) :
    retrCtrClear f p.node (closed rtrth p.retr i) = false := by
  by_contra hclr
  have := h.accounted.locking.next_released (clear_unlock (by simpa using hclr))
  exact absurd (hnow.symm.trans this) (by decide)

theorem add_unlocked (h : Counted f rtrth p) (hok : Spared rtrth p i)
    (hnow : CanCore.lockedNow p.node.core p.watch.locked = false) :
    retrCtrAdd f p.node (closed rtrth p.retr i) = false := by
  by_contra hadd
  rw [Bool.not_eq_false, retrCtrAdd, ProtocolControl.retrCtrAdd, Bool.and_eq_true,
    Bool.not_eq_true', Bool.or_eq_false_iff, Bool.or_eq_false_iff] at hadd
  obtain ⟨⟨⟨-, hr⟩, hb⟩, hend⟩ := hadd
  have hnt := h.accounted.locking.locked.symm.trans hnow
  rcases Bool.or_eq_true_iff.mp hend with hlost | he
  · obtain ⟨hst, hx⟩ := out_lost (Bool.and_eq_true_iff.mp hlost).1
    have hx : CanCore.isTransmitter p.node.core = true := hx
    have hfr : ∀ st : PcState, st.inStuffed = true → st.inFrame = true := by decide
    simp [CanCore.transmitting, hx, hfr _ hst] at hnt
  · rcases hok.once he hnow with hr' | hb'
    · exact absurd (hr.symm.trans hr') (by decide)
    · exact absurd (hb.symm.trans hb') (by decide)

/-- While no buffer is locked. -/
theorem step_unlocked (h : Counted f rtrth p) (hena : f.core.mrSettingsEna = true)
    (hrom : f.core.mrModeRom = false) (hok : Spared rtrth p i)
    (hnow : CanCore.lockedNow p.node.core p.watch.locked = false) :
    Counted f rtrth (limitedStep f rtrth p i) := by
  have hl : p.node.core.pc.txtbHwCmdQ.lock = false := by
    by_contra hl
    simp [CanCore.lockedNow, hl] at hnow
  have hfree : p.watch.locked = false ∨ p.node.core.pc.txtbHwCmdQ.unlock = true := by
    cases hu : p.node.core.pc.txtbHwCmdQ.unlock
    · left
      simpa [CanCore.lockedNow, hl, hu] using hnow
    · exact .inr rfl
  have hcount : (p.attempts.next p.node i).count ≤ p.retr.retrCtrQ := by
    rcases h.ended hfree with hend | hle
    · simp [Attempts.next, hl, hend]
    · simp only [Attempts.next, hl]
      split
      · contradiction
      · split
        · exact Nat.zero_le _
        · exact hle
  have hclr := h.clear_unlocked (i := i) hnow
  have hadd := h.add_unlocked hok hnow
  have hchg : txtbChanged p.node p.retr i = false := by simp [txtbChanged, storeLastTxtbIndex, hl]
  have hr : (limitedStep f rtrth p i).retr.retrCtrQ = p.retr.retrCtrQ := by
    simp [limitedStep, Retr.next, hadd, hclr, hchg]
  have hle := h.le
  have hw : (limitedStep f rtrth p i).watch.locked = false := hnow
  refine ⟨h.accounted.step_accounted hena hrom hok.clocked, by omega, h.last_next hok, ?_,
    fun hw' => absurd (hw.symm.trans hw') (by decide), fun _ => .inr ?_, fun _ => ?_⟩
  · show (p.attempts.next p.node i).count ≤ rtrth + 1
    omega
  · rw [hr]
    exact hcount
  · rw [hr]
    exact hcount

end Counted

/-- With limiting enabled and a constant limit a buffer is locked at most once more than
the limit says, until its frame is valid or failed or another buffer is locked. -/
theorem retransmissions_limited (f : Settings) (hena : f.core.mrSettingsEna = true)
    (hrom : f.core.mrModeRom = false) (hlim : f.core.mrSettingsRtrle = true) (rtrth : Nat)
    (h15 : rtrth ≤ 15) (is : List RetrInput)
    (h : Admits (limitedStep f rtrth) (Spared rtrth) limitedReset is) :
    (run (limitedStep f rtrth) limitedReset is).attempts.count ≤ rtrth + 1 := by
  have hinv := run_invariant (limitedStep f rtrth) (Spared rtrth) (Counted f rtrth)
    (fun p i hp hok => by
      cases hnow : CanCore.lockedNow p.node.core p.watch.locked
      · exact hp.step_unlocked hena hrom hok hnow
      · exact hp.step_locked hena hrom hlim h15 hok hnow)
    (Counted.of_reset f rtrth) is h
  exact hinv.bound

def limitedSettings : Settings :=
  { classicSettings with core := { classicSettings.core with mrSettingsRtrle := true } }

/-- The arbitrator always offers buffer 0. -/
def onlyBuffer (i : Input) : RetrInput := ⟨i, 0, true⟩

def onlyBufferBits (bits : List Bool) : List RetrInput := (frameBits bits).map onlyBuffer

/-- A SOF that is not seen, an error flag, and the rest up to the third bit of
intermission. -/
def failedSof : List Bool := [true] ++ List.replicate 6 false ++ List.replicate 11 true

/-- The first attempt is counted, and the second one is the last that the limit 1 allows. -/
theorem retransmissions_limited_once :
    let p := run (limitedStep limitedSettings 1) limitedReset
      (onlyBufferBits (List.replicate 12 true ++ failedSof))
    p.attempts.count = 2 ∧ p.attempts.count ≤ 1 + 1 := by
  refine ⟨by decide +kernel, ?_⟩
  exact retransmissions_limited limitedSettings rfl rfl rfl 1 (by decide)
    (onlyBufferBits (List.replicate 12 true ++ failedSof)) (by decide +kernel)

/-- The only attempt that the limit 0 allows fails, and the first bit of its error flag is
not seen either; then the next frame of the buffer. -/
def flagErrors : List RetrInput :=
  onlyBufferBits (List.replicate 12 true ++ [true, true] ++ List.replicate 6 false ++
    List.replicate 11 true ++ failedSof)

/-- A frame whose identifier starts with a recessive bit. -/
def losing (i : Input) : Input :=
  { offering i with
    core :=
      { (offering i).core with
        tranMeta := { i.core.tranMeta with tranIdentifier := 0b1#1 ++ 0#28 } } }

/-- The node loses arbitration to a CAN FD frame with a recessive reserved bit, and integrates
after it. -/
def lostToFd : List Bool :=
  [false] ++ [false, true, false, true, false, true, false, true, false, true, false] ++
    [false, false, true, true] ++ List.replicate 12 true

def exceptionSettings : Settings :=
  { limitedSettings with core := { limitedSettings.core with mrSettingsPex := true } }

/-- Three frames lost like this, in bits of three cycles, and the start of a fourth one. -/
def lostThrice : List RetrInput :=
  ((List.replicate 12 true ++ (List.replicate 3 lostToFd).flatten).flatMap fun b =>
    [sampled (losing (busCycle b)), losing (busCycle b), transmitted (losing (busCycle b))]).map
      onlyBuffer

/-- Three attempts of buffer 1, of which the arbitrator does not take the first lock. -/
def lockMissed : List RetrInput :=
  (frameBits (List.replicate 12 true ++ failedSof ++ failedSof)).zipIdx.map fun (i, k) =>
    ⟨i, 1, decide (100 ≤ k)⟩

/-- What the counter relies on is needed. An error in the error flag is counted after the counter
was cleared, so that the limit 0 is not met any more and the next frame of the buffer is locked a
second time. A protocol exception leaves the block set, so that lost arbitrations are not counted.
A lock that is not taken clears the counter with the next one. -/
theorem limit_exceeded :
    (Admits (limitedStep limitedSettings 0)
        (fun p i => Clocked p.watch p.node (closed 0 p.retr i) ∧
          (p.node.core.pc.txtbHwCmdQ.lock = true →
            p.node.flags.retrCtrAddBlock = false ∧ i.takesLock = true)) limitedReset flagErrors ∧
      (run (limitedStep limitedSettings 0) limitedReset flagErrors).attempts.count = 0 + 2) ∧
    (Admits (limitedStep exceptionSettings 2)
        (fun p i => Clocked p.watch p.node (closed 2 p.retr i) ∧
          (p.node.core.pc.txtbHwCmdQ.lock = true → i.takesLock = true) ∧
          (p.node.core.err.errFrmReq = true →
            CanCore.lockedNow p.node.core p.watch.locked = false →
            CanCore.isReceiver p.node.core = true ∨ p.node.flags.retrCtrAddBlock = true))
        limitedReset lostThrice ∧
      (run (limitedStep exceptionSettings 2) limitedReset lostThrice).attempts.count = 2 + 2) ∧
    (Admits (limitedStep limitedSettings 1)
        (fun p i => Clocked p.watch p.node (closed 1 p.retr i) ∧
          (p.node.core.pc.txtbHwCmdQ.lock = true → p.node.flags.retrCtrAddBlock = false) ∧
          (p.node.core.err.errFrmReq = true →
            CanCore.lockedNow p.node.core p.watch.locked = false →
            CanCore.isReceiver p.node.core = true ∨ p.node.flags.retrCtrAddBlock = true))
        limitedReset lockMissed ∧
      (run (limitedStep limitedSettings 1) limitedReset lockMissed).attempts.count = 1 + 2) := by
  refine ⟨?_, ?_, ?_⟩ <;> decide +kernel

end Node
