import CtuCanFd.Driver.TxOrder

/-!
# Interrupt handler of the driver

`ctucan_interrupt` in a device that stays quiet: the loop reads INT_STAT and serves what
it finds until nothing is pending, and gives up after 10000 passes. The status bits are
those of `int_manager`; TXBHCI is the one of the transmit queue.
-/

open TxtBuffer (TxtBufState)
open SyncMachine

namespace Driver

namespace TxQueue

variable {s : TxQueue} {t : Nat}

/-! ## A pending TXBHCI belongs to the tail -/

/-- TXBHCI is pending for a finished buffer at the tail, or for one just processed. -/
structure Pending (s : TxQueue) : Prop where
  tail : s.txbhci = true → s.TailFinished ∨ s.irq = .rotate ∨
    (s.someBuffersProcessed = true ∧ (s.irq = .scan ∨ s.irq = .setEmpty ∨ s.irq = .clear))
  first : s.irq = .scan → s.first = true → s.someBuffersProcessed = false
  moved : s.irq = .setEmpty → s.someBuffersProcessed = true ∧ s.first = false

theorem Ordered.tailFinished_iff (h : Ordered s t) :
    s.TailFinished ↔ t < s.submitted ∧ finished (s.bufs (slot t)) = true := by
  rw [TailFinished, h.outstanding_eq, h.tailId_eq]

/-- If any frame of the queue has finished, so has the one at the tail. -/
theorem Ordered.tailFinished_of {n : Nat} (h : Ordered s t) (hn : t ≤ n) (hn' : n < s.submitted)
    (hf : finished (s.bufs (slot n)) = true) : s.TailFinished := by
  rw [h.tailFinished_iff]
  refine ⟨by omega, ?_⟩
  by_cases ht : n = t
  · rw [← ht]
    exact hf
  · rcases h.fifo t n (Nat.le_refl t) (by omega) hn' with hr | hr
    · rw [hr] at hf
      exact absurd hf (by decide)
    · exact hr

theorem Ordered.tailFinished_xmit (h : Ordered s t) (hl : Exclusive s) (hf : s.TailFinished) :
    s.xmitStep.TailFinished := by
  have h' := h.step_xmit hl
  rw [h.tailFinished_iff] at hf
  rw [h'.tailFinished_iff]
  rcases xmitStep_cases s with ⟨hb, -, hs⟩ | ⟨hx, -, hb, -, hs⟩
  · rw [hb, hs]
    exact hf
  · have hspace := h.space (.inr hx)
    rw [hb, hs, h.set_ready hx, Function.update_of_ne (slot_ne hf.1 (by omega))]
    exact ⟨by omega, hf.2⟩

/-- What raises the interrupt finishes a buffer that was ready or in progress. -/
theorem hwCmdInt_finishes {e : HwEvent} {k : Fin 4} (hok : s.Selects (.hw e))
    (hint : e.hwCmdInt k (s.bufs k) = true) :
    (s.bufs k).transient = true ∧ finished (e.next k (s.bufs k)) = true := by
  by_cases hcmd : (e.cmd k).failed = true ∨ (e.cmd k).valid = true ∨ (e.cmd k).arbl = true ∨
      (e.cmd k).err = true
  · have hk : k = e.cs := by
      by_contra hk
      simp [HwEvent.cmd, hk] at hcmd
    have hprog : s.bufs k = .txProg := by
      rw [HwEvent.cmd, if_pos hk] at hcmd
      rw [hk]
      exact hok.2 (by tauto)
    rw [hprog] at hint ⊢
    refine ⟨rfl, ?_⟩
    simp only [HwEvent.hwCmdInt, HwEvent.next] at hint ⊢
    split_ifs at hint ⊢ <;> simp_all [finished_iff]
  · simp only [not_or, Bool.not_eq_true] at hcmd
    simp only [HwEvent.hwCmdInt, hcmd, Bool.false_or, Bool.false_and, Bool.and_eq_true,
      beq_iff_eq] at hint
    exact ⟨hint.2, finished_iff.mpr (.inr (.inl hint.1.2))⟩

theorem Ordered.tailFinished_int {e : HwEvent} {k : Fin 4} (h : Ordered s t) (hp : Rotated s t)
    (hok : s.Selects (.hw e)) (hint : e.hwCmdInt k (s.bufs k) = true) :
    (s.hwStep e).TailFinished := by
  obtain ⟨htr, hfin⟩ := hwCmdInt_finishes hok hint
  obtain ⟨n, hn, hn', rfl⟩ := h.queued_of_transient htr
  exact (h.step_hw hp hok).tailFinished_of hn hn' hfin

theorem Pending.step_xmit (h : Pending s) (ho : InOrder s t) : Pending (s.step .xmit) := by
  obtain ⟨hi, -, hint, hp, hf, -⟩ := xmitStep_frame s
  constructor
  · intro hset
    rw [show (s.step .xmit).irq = s.irq from hi,
      show (s.step .xmit).someBuffersProcessed = s.someBuffersProcessed from hp]
    exact (h.tail (hint.symm.trans hset)).imp_left (ho.ordered.tailFinished_xmit ho.exclusive)
  · intro hi' hf'
    exact hp.trans (h.first (hi.symm.trans hi') (hf.symm.trans hf'))
  · intro hi'
    obtain ⟨hp', hf'⟩ := h.moved (hi.symm.trans hi')
    exact ⟨hp.trans hp', hf.trans hf'⟩

theorem Pending.step_irq (h : Pending s) : Pending (s.step .irq) := by
  have hclear : s.irq = .idle ∨ s.irq = .enter ∨ s.irq = .wake → s.txbhci = true →
      s.TailFinished := fun hi hset => by
    rcases h.tail hset with hf | hr | ⟨-, hr⟩
    · exact hf
    · simp [hr] at hi
    · rcases hr with hr | hr | hr <;> simp [hr] at hi
  cases hi : s.irq <;> simp only [step, irqStep, hi]
  case idle => exact ⟨fun hset => .inl (hclear (.inl hi) hset), by simp, by simp⟩
  case enter =>
    split_ifs
    · exact h
    · exact ⟨fun hset => .inl (hclear (.inr (.inl hi)) hset), fun _ _ => rfl, by simp⟩
  case scan =>
    rw [tail_status]
    cases hout : s.outstanding
    · refine ⟨fun hset => ?_, by simp, by simp⟩
      rcases h.tail hset with hf | hr | ⟨hp, -⟩
      · exact absurd (hout.symm.trans hf.1) (by decide)
      · exact absurd (hi.symm.trans hr) (by decide)
      · exact .inr (.inr ⟨hp, .inr (.inr rfl)⟩)
    cases hfin : finished (s.bufs s.tailId)
    · simp only [if_true, Bool.false_eq_true, if_false]
      refine ⟨fun hset => ?_, ?_, ?_⟩
      · rcases h.tail hset with hf | hr | ⟨hp, -⟩
        · exact absurd (hfin.symm.trans hf.2) (by decide)
        · exact absurd (hi.symm.trans hr) (by decide)
        · cases hfirst : s.first
          · exact .inr (.inr ⟨hp, .inr (.inr rfl)⟩)
          · exact absurd ((h.first hi hfirst).symm.trans hp) (by decide)
      · cases s.first <;> simp
      · cases s.first <;> simp
    · exact ⟨fun _ => .inr (.inl rfl), by simp, by simp⟩
  case rotate => exact ⟨fun _ => .inr (.inr ⟨rfl, .inr (.inl rfl)⟩), by simp, fun _ => ⟨rfl, rfl⟩⟩
  case setEmpty =>
    obtain ⟨hp, hf⟩ := h.moved hi
    exact ⟨fun _ => .inr (.inr ⟨hp, .inl rfl⟩),
      fun _ hf' => absurd (hf.symm.trans hf') (by decide), by simp⟩
  case clear =>
    cases hp : s.someBuffersProcessed
    · refine ⟨fun hset => ?_, by simp, by simp⟩
      rcases h.tail hset with hf | hr | ⟨hp', -⟩
      · exact .inl hf
      · exact absurd (hi.symm.trans hr) (by decide)
      · exact absurd (hp.symm.trans hp') (by decide)
    · exact ⟨by simp, by simp, by simp⟩
  case wake =>
    split_ifs
    · exact h
    · exact ⟨fun hset => .inl (hclear (.inr (.inr hi)) hset), by simp, by simp⟩

theorem Pending.step_hw {e : HwEvent} (h : Pending s) (ho : InOrder s t)
    (hok : s.Selects (.hw e)) : Pending (s.step (.hw e)) := by
  refine ⟨fun hset => ?_, h.first, h.moved⟩
  rcases Bool.or_eq_true_iff.mp hset with hset | hset
  · refine (h.tail hset).imp_left fun hf => ?_
    rw [ho.ordered.tailFinished_iff] at hf
    exact (ho.ordered.step_hw ho.rotated hok).tailFinished_of (Nat.le_refl t) hf.1
      ((congrArg finished (Ordered.next_finished hf.2)).trans hf.2)
  · obtain ⟨k, hk⟩ := of_decide_eq_true hset
    exact .inl (ho.ordered.tailFinished_int ho.rotated hok hk)

theorem Pending.step_pending {e : Event} (h : Pending s) (ho : InOrder s t) (hok : s.Selects e) :
    Pending (s.step e) := by
  cases e with
  | xmit => exact h.step_xmit ho
  | irq => exact h.step_irq
  | hw e => exact h.step_hw ho hok

theorem run_pending (es : List Event) (h : Admits step Selects init es) :
    ∃ t, InOrder (run step init es) t ∧ Pending (run step init es) :=
  run_invariant step Selects (fun s => ∃ t, InOrder s t ∧ Pending s)
    (fun _ _ ⟨_, ho, hp⟩ hok =>
      (ho.step_inOrder hok).imp fun _ ho' => ⟨ho', hp.step_pending ho hok⟩)
    ⟨0, .of_init, ⟨nofun, nofun, nofun⟩⟩ es h

/-! ## `ctucan_tx_interrupt` in a quiet device -/

/-- The accesses of one call, up to a number that is larger than any call needs. -/
def runIrq : Nat → TxQueue → TxQueue
  | 0, s => s
  | n + 1, s => if s.irqStep.irq = .idle then s.irqStep else runIrq n s.irqStep

def txInterrupt (s : TxQueue) : TxQueue := runIrq 100 s

/-- Steps left, if nothing else changes the buffers. -/
def stepsLeft (s : TxQueue) : Nat :=
  16 * (s.txbHead - s.txbTail).toNat +
    match s.irq with
    | .idle => 8
    | .enter => 4
    | .scan => if s.someBuffersProcessed then 6 else 3
    | .rotate => 0
    | .setEmpty => 7
    | .clear => if s.someBuffersProcessed then 5 else 2
    | .wake => 1

/-- The lock is not taken elsewhere, and the tail was found unfinished. -/
structure Quiet (s : TxQueue) : Prop where
  alone : s.txLock = true → s.irq = .scan ∨ s.irq = .rotate ∨ s.irq = .setEmpty
  drained : s.irq = .clear ∨ s.irq = .wake → ¬ s.TailFinished

theorem Quiet.step_quiet (h : Quiet s) :
    Quiet s.irqStep ∧ (s.irqStep.irq = .idle → ¬ s.irqStep.TailFinished) := by
  have hfree : s.irq = .idle ∨ s.irq = .enter ∨ s.irq = .clear ∨ s.irq = .wake →
      s.txLock = false := fun hi => by
    by_contra hl
    rcases h.alone (by simpa using hl) with hr | hr | hr <;> simp [hr] at hi
  cases hi : s.irq <;> simp only [irqStep, hi]
  case idle =>
    exact ⟨⟨fun hl => absurd ((hfree (.inl hi)).symm.trans hl) (by decide), by simp⟩, by simp⟩
  case enter =>
    simp only [hfree (.inr (.inl hi)), Bool.false_eq_true, if_false]
    exact ⟨⟨fun _ => .inl rfl, by simp⟩, by simp⟩
  case scan =>
    rw [tail_status]
    cases hout : s.outstanding
    · have hnot : ¬ s.TailFinished := fun hf => absurd (hout.symm.trans hf.1) (by decide)
      exact ⟨⟨by simp, fun _ => hnot⟩, by simp⟩
    cases hfin : finished (s.bufs s.tailId)
    · have hnot : ¬ s.TailFinished := fun hf => absurd (hfin.symm.trans hf.2) (by decide)
      exact ⟨⟨by simp, fun _ => hnot⟩, fun _ => hnot⟩
    · exact ⟨⟨fun _ => .inr (.inl rfl), by simp⟩, by simp⟩
  case rotate => exact ⟨⟨fun _ => .inr (.inr rfl), by simp⟩, by simp⟩
  case setEmpty => exact ⟨⟨fun _ => .inl rfl, by simp⟩, by simp⟩
  case clear =>
    have hl := hfree (.inr (.inr (.inl hi)))
    cases s.someBuffersProcessed
    · exact ⟨⟨fun hl' => absurd (hl.symm.trans hl') (by decide), fun _ => h.drained (.inl hi)⟩, by simp⟩
    · exact ⟨⟨fun hl' => absurd (hl.symm.trans hl') (by decide), by simp⟩, by simp⟩
  case wake =>
    have hl := hfree (.inr (.inr (.inr hi)))
    simp only [hl, Bool.false_eq_true, if_false]
    exact ⟨⟨by simp, by simp⟩, fun _ => h.drained (.inr hi)⟩

/-- Every step comes closer to the return. -/
theorem Quiet.progress (h : Quiet s) (ho : Ordered s t) :
    s.irqStep.irq = .idle ∨ s.irqStep.stepsLeft < s.stepsLeft := by
  have hfree : s.irq = .enter ∨ s.irq = .wake → s.txLock = false := fun hi => by
    by_contra hl
    rcases h.alone (by simpa using hl) with hr | hr | hr <;> simp [hr] at hi
  cases hi : s.irq with
  | idle => exact .inr (by simp [stepsLeft, irqStep, hi])
  | enter => exact .inr (by simp [stepsLeft, irqStep, hi, hfree (.inl hi)])
  | scan =>
    simp only [irqStep, hi]
    split_ifs
    · exact .inr (by cases hp : s.someBuffersProcessed <;> simp [stepsLeft, hi, hp])
    · exact .inl rfl
    all_goals exact .inr (by cases hp : s.someBuffersProcessed <;> simp [stepsLeft, hi, hp])
  | rotate =>
    right
    have hcount := (ho.advance hi).count_eq
    have hlt := (ho.rotating hi).1
    have hsub : s.irqStep.submitted = s.submitted := by simp [irqStep, hi]
    simp only [stepsLeft, hcount, ho.count_eq, hi, hsub]
    simp only [irqStep, hi]
    omega
  | setEmpty => exact .inr (by cases hp : s.someBuffersProcessed <;> simp [stepsLeft, irqStep, hi, hp])
  | clear => exact .inr (by cases hp : s.someBuffersProcessed <;> simp [stepsLeft, irqStep, hi, hp])
  | wake => exact .inl (by simp [irqStep, hi, hfree (.inr hi)])

theorem stepsLeft_le (ho : Ordered s t) : s.stepsLeft ≤ 72 := by
  have hroom := ho.room
  have hconst : s.stepsLeft ≤ 16 * (s.txbHead - s.txbTail).toNat + 8 := by
    unfold stepsLeft
    cases s.irq <;> dsimp only <;> (try split) <;> omega
  rw [ho.count_eq] at hconst
  omega

/-- A call alone returns, and leaves no TXBHCI pending. -/
theorem runIrq_returns {n : Nat} (h : Quiet s) (ho : InOrder s t) (hp : Pending s)
    (hn : s.stepsLeft < n) : (runIrq n s).irq = .idle ∧ (runIrq n s).txbhci = false := by
  induction n generalizing s t with
  | zero => omega
  | succ n ih =>
    obtain ⟨t', ho'⟩ := ho.step_inOrder (e := .irq) trivial
    have hp' := hp.step_pending (e := .irq) ho trivial
    obtain ⟨hq', hnot⟩ := h.step_quiet
    rw [runIrq]
    split_ifs with hi
    · refine ⟨hi, Bool.of_not_eq_true fun hset => ?_⟩
      have hi' : (s.step .irq).irq = .idle := hi
      rcases hp'.tail hset with hf | hr | ⟨-, hr⟩
      · exact hnot hi hf
      · exact absurd (hi'.symm.trans hr) (by decide)
      · rcases hr with hr | hr | hr <;> exact absurd (hi'.symm.trans hr) (by decide)
    · have hless := (h.progress ho.ordered).resolve_left hi
      exact ih hq' ho' hp' (by omega)

theorem txInterrupt_returns (hi : s.irq = .idle) (hl : s.txLock = false) (ho : InOrder s t)
    (hp : Pending s) : (txInterrupt s).irq = .idle ∧ (txInterrupt s).txbhci = false := by
  have hq : Quiet s := ⟨fun hl' => absurd (hl.symm.trans hl') (by decide), by simp [hi]⟩
  have := stepsLeft_le ho.ordered
  exact runIrq_returns hq ho hp (by omega)

end TxQueue

/-! ## `ctucan_interrupt` -/

/-- Bits of INT_STAT, INT_ENA and INT_MASK. -/
abbrev IntVect := Fin 12 → Bool

namespace Int

/-- Positions the driver uses. -/
def ewli : Fin 12 := 2

def fcsi : Fin 12 := 4

def ali : Fin 12 := 5

def bei : Fin 12 := 6

def rbnei : Fin 12 := 10

def txbhci : Fin 12 := 11

end Int

/-- The controller as the handler sees it. Of the inputs of the interrupt manager only
`not rx_empty` is a level; without further events the others are inactive. -/
structure Device where
  tx : TxQueue
  intStat : IntVect
  intMask : IntVect
  intEna : IntVect
  rxEmpty : Bool

namespace Device

/-- INT_STAT as read; its last bit is that of the transmit queue. -/
def isr (d : Device) : IntVect := fun k => if k = Int.txbhci then d.tx.txbhci else d.intStat k

/-- `int_input_active` of a quiet device. -/
def inputActive (d : Device) : IntVect := fun k => k = Int.rbnei && !d.rxEmpty

/-- `int_stat_proc` when INT_STAT is written. -/
def writeIntStat (d : Device) (icr : IntVect) : Device :=
  { d with
    intStat := fun k =>
      if d.inputActive k && !d.intMask k then true else if icr k then false else d.intStat k }

def writeIntMaskSet (d : Device) (mask : IntVect) : Device :=
  { d with intMask := fun k => d.intMask k || mask k }

def writeIntEnaClr (d : Device) (ena : IntVect) : Device :=
  { d with intEna := fun k => d.intEna k && !ena k }

/-- `REG_INT_STAT_EWLI | REG_INT_STAT_FCSI | REG_INT_STAT_ALI`. -/
def errInts : IntVect := fun k => k = Int.ewli || k = Int.fcsi || k = Int.ali

/-- The three branches of a pass. `napi_schedule` and `ctucan_err_interrupt` write no register
modelled here. -/
def serveRx (isr : IntVect) (d : Device) : Device :=
  if isr Int.rbnei then
    (d.writeIntMaskSet fun k => k = Int.rbnei).writeIntStat fun k => k = Int.rbnei
  else d

def serveTx (isr : IntVect) (d : Device) : Device :=
  if isr Int.txbhci then { d with tx := d.tx.txInterrupt } else d

def serveErr (isr : IntVect) (d : Device) : Device :=
  if isr Int.ewli || isr Int.fcsi || isr Int.ali then d.writeIntStat fun k => isr k && errInts k
  else d

def pass (d : Device) : Device := serveErr d.isr (serveTx d.isr (serveRx d.isr d))

/-- How the handler returns: `IRQ_NONE`, `IRQ_HANDLED`, or `IRQ_HANDLED` after it has given up. -/
inductive Return where
  | none
  | handled
  | stuck
deriving DecidableEq, Repr

/-- The loop, with the number of passes left and whether one was made. -/
def loop : Nat → Bool → Device → Return × Device
  | 0, _, d => (.stuck, (d.writeIntEnaClr fun _ => true).writeIntMaskSet fun _ => true)
  | n + 1, looped, d =>
    if ∀ k, d.isr k = false then (if looped then .handled else .none, d)
    else loop n true d.pass

def interrupt (d : Device) : Return × Device := loop 10000 false d

/-- Interrupts `ctucan_chip_start` enables, by the control mode. -/
def chipStartEna (ctrlmode : BitVec 32) : IntVect := fun k =>
  k = Int.rbnei || k = Int.txbhci || k = Int.ewli || k = Int.fcsi ||
    -- CAN_CTRLMODE_BERR_REPORTING
    (ctrlmode.getLsbD 4 && (k = Int.ali || k = Int.bei))

/-- Only enabled interrupts are pending, and no event is on its way to the status bits. -/
structure Settled (ctrlmode : BitVec 32) (d : Device) : Prop where
  enabled : ∀ k, d.isr k = true → chipStartEna ctrlmode k = true
  level : d.isr Int.rbnei = false → d.rxEmpty = true ∨ d.intMask Int.rbnei = true

variable {d : Device} {ctrlmode : BitVec 32}

/-- A write to INT_STAT, where the receive interrupt is masked or has no cause. -/
theorem writeIntStat_quiet (hq : d.rxEmpty = true ∨ d.intMask Int.rbnei = true) (icr : IntVect)
    (k : Fin 12) : (d.writeIntStat icr).intStat k = (d.intStat k && !icr k) := by
  have hinput : (d.inputActive k && !d.intMask k) = false := by
    by_cases hk : k = Int.rbnei
    · rcases hq with hq | hq <;> simp [inputActive, hk, hq]
    · simp [inputActive, hk]
  simp only [writeIntStat, hinput]
  cases icr k <;> simp

/-- After the first branch the receive interrupt is masked or has no cause. -/
theorem serveRx_quiet (h : Settled ctrlmode d) :
    ((serveRx d.isr d).rxEmpty = true ∨ (serveRx d.isr d).intMask Int.rbnei = true) ∧
      (serveRx d.isr d).tx = d.tx ∧
      ∀ k, (serveRx d.isr d).intStat k = (d.intStat k && !(k = Int.rbnei)) := by
  cases hr : d.isr Int.rbnei
  · have hs : serveRx d.isr d = d := by simp [serveRx, hr]
    rw [hs]
    refine ⟨h.level hr, rfl, fun k => ?_⟩
    by_cases hk : k = Int.rbnei
    · have hstat : d.intStat Int.rbnei = false := hr
      simp [hk, hstat]
    · simp [hk]
  · have hmask : (d.writeIntMaskSet fun k => k = Int.rbnei).intMask Int.rbnei = true := by
      simp [writeIntMaskSet]
    simp only [serveRx, hr, if_true]
    refine ⟨.inr hmask, rfl, fun k => ?_⟩
    rw [writeIntStat_quiet (.inr hmask)]
    rfl

/-- A pass without a bus error leaves nothing pending. -/
theorem pass_clears {t : Nat} (h : Settled ctrlmode d) (hbei : d.isr Int.bei = false)
    (hi : d.tx.irq = .idle) (hl : d.tx.txLock = false) (ho : d.tx.InOrder t)
    (hp : d.tx.Pending) (k : Fin 12) : d.pass.isr k = false := by
  obtain ⟨hq, htx, hstat⟩ := serveRx_quiet h
  have htx' : (serveTx d.isr (serveRx d.isr d)).tx.txbhci = false := by
    cases hset : d.isr Int.txbhci
    · simp only [serveTx, hset, Bool.false_eq_true, if_false, htx]
      exact hset
    · simp only [serveTx, hset, if_true, htx]
      exact (TxQueue.txInterrupt_returns hi hl ho hp).2
  have hkeep : (serveTx d.isr (serveRx d.isr d)).intStat = (serveRx d.isr d).intStat ∧
      (serveTx d.isr (serveRx d.isr d)).intMask = (serveRx d.isr d).intMask ∧
      (serveTx d.isr (serveRx d.isr d)).rxEmpty = (serveRx d.isr d).rxEmpty := by
    unfold serveTx
    split <;> exact ⟨rfl, rfl, rfl⟩
  rw [← hkeep.1] at hstat
  rw [← hkeep.2.1, ← hkeep.2.2] at hq
  by_cases hk : k = Int.txbhci
  · rw [isr, if_pos hk, pass, serveErr]
    split <;> exact htx'
  rw [isr, if_neg hk, pass, serveErr]
  -- what was pending is an enabled interrupt and served by one of the branches
  have hseen : d.intStat k = true → k = Int.rbnei ∨ errInts k = true := fun hset => by
    have hisr : d.isr k = true := by rw [isr, if_neg hk]; exact hset
    have hena := h.enabled k hisr
    have hnb : k ≠ Int.bei := by
      rintro rfl
      exact absurd (hbei.symm.trans hisr) (by decide)
    simp only [chipStartEna, errInts, Bool.or_eq_true, Bool.and_eq_true, decide_eq_true_eq] at hena ⊢
    tauto
  split
  · rw [writeIntStat_quiet hq, hstat, isr, if_neg hk]
    cases hset : d.intStat k
    · rfl
    · rcases hseen hset with hr | he <;> simp [*]
  · rename_i herr
    rw [hstat]
    cases hset : d.intStat k
    · rfl
    · rcases hseen hset with hr | he
      · simp [hr]
      · have hisr : d.isr k = true := by rw [isr, if_neg hk]; exact hset
        simp only [errInts, Bool.or_eq_true, decide_eq_true_eq] at he
        rcases he with (rfl | rfl) | rfl <;> simp [hisr] at herr

theorem pass_intEna (d : Device) : d.pass.intEna = d.intEna := by
  unfold pass serveErr serveTx serveRx
  split_ifs <;> rfl

/-- A device whose transmit queue was driven by the driver from its start. -/
structure Reachable (d : Device) : Prop where
  queue : ∃ es, Admits TxQueue.step TxQueue.Selects .init es ∧ d.tx = run TxQueue.step .init es
  idle : d.tx.irq = .idle
  free : d.tx.txLock = false

/-- A pass clears all that it saw; the handler returns in the next one at the latest and leaves the
enabled interrupts as they are. -/
structure Settles (d : Device) : Prop where
  clears : ∀ k, d.isr k = true → d.pass.isr k = false
  returns : ∀ n, (loop (n + 2) false d).1 ≠ .stuck ∧ (loop (n + 2) false d).2.intEna = d.intEna
  handled : (interrupt d).1 ≠ .stuck

/-- No branch of a pass clears a bus error. -/
theorem pass_busError (h : d.isr Int.bei = true) : d.pass.isr Int.bei = true := by
  have hkeep : ∀ (e : Device) (icr : IntVect), e.isr Int.bei = true → icr Int.bei = false →
      (e.writeIntStat icr).isr Int.bei = true := fun e icr he hicr => by
    have hbit : e.intStat Int.bei = true := he
    show (e.writeIntStat icr).intStat Int.bei = true
    simp only [writeIntStat, hicr, hbit]
    split <;> rfl
  have hrx : (serveRx d.isr d).isr Int.bei = true := by
    unfold serveRx
    split
    · exact hkeep _ _ h rfl
    · exact h
  have htx : (serveTx d.isr (serveRx d.isr d)).isr Int.bei = true := by
    unfold serveTx
    split <;> exact hrx
  unfold pass serveErr
  split
  · exact hkeep _ _ htx (Bool.and_false _)
  · exact htx

/-- With a bus error pending, the loop uses up all its passes and disables all interrupts. -/
theorem loop_busError (n : Nat) (looped : Bool) (h : d.isr Int.bei = true) :
    (loop n looped d).1 = .stuck ∧ ∀ k, (loop n looped d).2.intEna k = false := by
  induction n generalizing d looped with
  | zero => exact ⟨rfl, fun k => by simp [loop, writeIntMaskSet, writeIntEnaClr]⟩
  | succ n ih =>
    rw [loop, if_neg fun hnone => absurd ((hnone Int.bei).symm.trans h) (by decide)]
    exact ih true (pass_busError h)

/-- What holds for any number of passes holds for the handler. -/
theorem interrupt_of_loop {P : Return × Device → Prop} (h : ∀ n, P (loop n false d)) :
    P (interrupt d) :=
  h 10000

theorem interrupt_busError (h : d.isr Int.bei = true) :
    (interrupt d).1 = .stuck ∧ ∀ k, (interrupt d).2.intEna k = false :=
  interrupt_of_loop (P := fun r => r.1 = .stuck ∧ ∀ k, r.2.intEna k = false)
    (loop_busError · false h)

theorem settles_of_clears (hclear : ∀ k, d.pass.isr k = false) : Settles d := by
  have hloop : ∀ n, (loop (n + 2) false d).1 ≠ .stuck ∧
      (loop (n + 2) false d).2.intEna = d.intEna := by
    intro n
    by_cases hnone : ∀ k, d.isr k = false
    · rw [loop, if_pos hnone]
      exact ⟨nofun, rfl⟩
    · rw [loop, if_neg hnone, loop, if_pos hclear]
      exact ⟨nofun, pass_intEna d⟩
  exact ⟨fun k _ => hclear k, hloop, (hloop 9998).1⟩

/-- The handler settles exactly if no bus error is pending, and else it disables all
interrupts. -/
theorem handler_settles (ctrlmode : BitVec 32) (d : Device) (hr : Reachable d)
    (h : Settled ctrlmode d) :
    (Settles d ↔ d.isr Int.bei = false) ∧
      (d.isr Int.bei = true → (interrupt d).1 = .stuck ∧ ∀ k, (interrupt d).2.intEna k = false) := by
  refine ⟨⟨fun hs => ?_, fun hbei => ?_⟩, interrupt_busError⟩
  · rw [← Bool.not_eq_true]
    exact fun hset => hs.handled (interrupt_busError hset).1
  · obtain ⟨es, hes, htx⟩ := hr.queue
    obtain ⟨t, ho, hp⟩ := TxQueue.run_pending es hes
    rw [← htx] at ho hp
    exact settles_of_clears (pass_clears h hbei hr.idle hr.free ho hp)

/-- A frame was sent, one was received, and the fault confinement state has changed. -/
def busyDevice : Device where
  tx := run TxQueue.step .init (List.replicate 4 .xmit ++ TxQueue.sent (TxQueue.slot 0))
  intStat k := k = Int.rbnei || k = Int.fcsi
  intMask _ := false
  intEna := chipStartEna 0
  rxEmpty := false

theorem handler_settles_busy :
    (∀ k, busyDevice.isr k = true ↔ k = Int.rbnei ∨ k = Int.txbhci ∨ k = Int.fcsi) ∧
      Settles busyDevice := by
  have hreach : Reachable busyDevice :=
    ⟨⟨List.replicate 4 .xmit ++ TxQueue.sent (TxQueue.slot 0), by decide +kernel, rfl⟩,
      by decide +kernel,
      by decide +kernel⟩
  have hset : Settled 0 busyDevice := ⟨by decide +kernel, by decide +kernel⟩
  exact ⟨by decide +kernel, (handler_settles 0 busyDevice hreach hset).1.mpr (by decide +kernel)⟩

/-- Bus errors are reported, and one is pending. -/
def busErrorDevice : Device where
  tx := .init
  intStat k := k = Int.bei
  intMask k := !chipStartEna 0x10 k
  intEna := chipStartEna 0x10
  rxEmpty := true

/-- A pending bus error is never cleared, and the handler disables all interrupts. -/
theorem bus_error_stuck :
    Reachable busErrorDevice ∧ Settled 0x10 busErrorDevice ∧
      busErrorDevice.pass.isr Int.bei = true ∧ (interrupt busErrorDevice).1 = .stuck ∧
      ∀ k, (interrupt busErrorDevice).2.intEna k = false := by
  exact ⟨⟨⟨[], trivial, rfl⟩, rfl, rfl⟩, ⟨by decide, fun _ => .inl rfl⟩, by decide,
    interrupt_busError (by decide)⟩

end Device

end Driver
