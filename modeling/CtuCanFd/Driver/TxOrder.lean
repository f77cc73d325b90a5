import CtuCanFd.Driver.TxQueue
import CtuCanFd.TxPath.PriorityDecoder
import Mathlib.Tactic.IntervalCases

/-!
# Order of the transmit queue

The frames between tail and head sit in consecutive buffers, and the priority word is
rotated with the tail, so the priority decoder always picks the oldest frame that waits.
Counters of frames are natural numbers here; the driver's counters are their remainders.
-/

open TxtBuffer (TxtBufState)
open SyncMachine

namespace Driver.TxQueue

variable {s : TxQueue} {t : Nat}

/-! ## Slots -/

theorem slot_eq_iff {m n : Nat} : slot m = slot n ↔ m % 4 = n % 4 := by
  simp [slot]

theorem slot_ofNat (n : Nat) : slot (BitVec.ofNat 32 n).toNat = slot n := by
  rw [slot_eq_iff, BitVec.toNat_ofNat]
  omega

theorem slot_val (k : Fin 4) : slot k = k := by
  ext
  simp only [slot]
  omega

/-- Different frames of the queue are in different buffers. -/
theorem slot_ne {m n : Nat} (hmn : m < n) (hn : n < m + 4) : slot m ≠ slot n := by
  rw [ne_eq, slot_eq_iff]
  omega

theorem exists_slot (t : Nat) (k : Fin 4) : ∃ i, i < 4 ∧ k = slot (t + i) := by
  refine ⟨(k + 4 - t % 4) % 4, Nat.mod_lt _ (by decide), ?_⟩
  ext
  simp only [slot]
  omega

theorem slot_add (t : Nat) (i : Fin 4) : slot (t + i) = slot t + i := by
  ext
  simp only [slot, Fin.val_add]
  omega

/-! ## Priorities -/

/-- TX_PRIORITY: priority of a buffer. -/
def hwPriority (s : TxQueue) (k : Nat) : BitVec 3 := (s.txPriority >>> (4 * k)).truncate 3

/-- The lower half of the priority word when the tail is at a buffer. -/
def prioWord (k : Fin 4) : BitVec 16 := [0x4567#16, 0x5674#16, 0x6745#16, 0x7456#16][k]

theorem rotateTxbPrio_low (prio : BitVec 32) :
    (rotateTxbPrio prio).setWidth 16 =
      (prio.setWidth 16 <<< 4) ||| (prio.setWidth 16 >>> 12) := by
  ext k hk
  interval_cases k <;> simp [rotateTxbPrio]

theorem hwPriority_low (s : TxQueue) (k : Fin 4) :
    s.hwPriority k = ((s.txPriority.setWidth 16) >>> (4 * k.val)).truncate 3 := by
  ext j hj
  simp [hwPriority]
  omega

/-- The priority word has been rotated as often as the tail has moved. -/
structure Rotated (s : TxQueue) (t : Nat) : Prop where
  register : s.txPriority = s.txbPrio
  word : s.txbPrio.setWidth 16 = prioWord (slot t)

theorem Rotated.rotate (h : Rotated s t) :
    (rotateTxbPrio s.txbPrio).setWidth 16 = prioWord (slot (t + 1)) := by
  have hall : ∀ k : Fin 4, (prioWord k <<< 4) ||| (prioWord k >>> 12) = prioWord (k + 1) := by
    decide
  rw [rotateTxbPrio_low, h.word, hall, show slot (t + 1) = slot t + 1 from slot_add t 1]

/-- From the tail on, the buffers have priorities seven to four. -/
theorem Rotated.priority (h : Rotated s t) (i : Fin 4) :
    s.hwPriority (slot (t + i)) = 7 - BitVec.ofNat 3 i := by
  have hall : ∀ k i : Fin 4,
      ((prioWord k) >>> (4 * (k + i).val)).truncate 3 = 7 - BitVec.ofNat 3 i.val := by decide
  rw [hwPriority_low, h.register, h.word, slot_add, hall]

/-! ## The lock -/

/-- Who holds `tx_lock`. -/
structure Exclusive (s : TxQueue) : Prop where
  irq : s.irq = .scan ∨ s.irq = .rotate ∨ s.irq = .setEmpty →
    s.txLock = true ∧ s.xmit ≠ .checkFull
  xmit : s.xmit = .checkFull → s.txLock = true

theorem Exclusive.step_exclusive (h : Exclusive s) (e : Event) : Exclusive (s.step e) := by
  obtain ⟨hi, hx⟩ := h
  cases e with
  | hw e => exact ⟨hi, hx⟩
  | xmit =>
    constructor <;> simp only [step, xmitStep] <;> cases hp : s.xmit <;> dsimp only <;>
      (try split_ifs) <;> simp_all
  | irq =>
    constructor <;> simp only [step, irqStep] <;> cases hp : s.irq <;> dsimp only <;>
      (try split_ifs) <;> simp_all

/-! ## The frames between tail and head -/

/-- States of a buffer that holds a frame of the queue. -/
def waiting : TxtBufState → Bool
  | .ready | .txProg | .ok | .failed => true
  | _ => false

/-- A buffer behind the tail is not yet set empty. -/
def emptying (s : TxQueue) : Nat := if s.irq = .setEmpty then 1 else 0

/-- `t` frames have been passed by the tail. -/
structure Ordered (s : TxQueue) (t : Nat) : Prop where
  head : s.txbHead = BitVec.ofNat 32 s.submitted
  tail : s.txbTail = BitVec.ofNat 32 t
  le : t ≤ s.submitted
  room : s.submitted + s.emptying ≤ t + 4
  space : s.xmit = .insert ∨ s.xmit = .setReady → s.submitted + s.emptying < t + 4
  queued : ∀ n, t ≤ n → n < s.submitted → waiting (s.bufs (slot n)) = true
  free : ∀ n, s.submitted ≤ n → n + s.emptying < t + 4 → s.bufs (slot n) = .empty
  emptied : s.irq = .setEmpty →
    finished (s.bufs s.txtbId) = true ∧ s.txtbId = slot (t + 3)
  rotating : s.irq = .rotate →
    t < s.submitted ∧ s.txtbId = slot t ∧ finished (s.bufs (slot t)) = true
  fifo : ∀ m n, t ≤ m → m < n → n < s.submitted →
    s.bufs (slot n) = .ready ∨ finished (s.bufs (slot m)) = true

namespace Ordered

theorem headId_eq (h : Ordered s t) : s.headId = slot s.submitted := by
  rw [headId, h.head, slot_ofNat]

theorem tailId_eq (h : Ordered s t) : s.tailId = slot t := by
  rw [tailId, h.tail, slot_ofNat]

theorem count_eq (h : Ordered s t) : (s.txbHead - s.txbTail).toNat = s.submitted - t := by
  have h1 := h.le
  have h2 := h.room
  rw [h.head, h.tail]
  simp only [BitVec.toNat_sub, BitVec.toNat_ofNat]
  omega

theorem outstanding_eq (h : Ordered s t) : s.outstanding = true ↔ t < s.submitted := by
  have h2 := h.room
  rw [outstanding_iff, h.count_eq]
  omega

/-- If TXNF is set, the buffer at the head is empty. -/
theorem space_of_txnf (h : Ordered s t) (hf : txnf s.bufs = true) :
    s.submitted + s.emptying < t + 4 := by
  have hk : ∃ k, s.bufs k = .empty := by
    simp only [txnf, Bool.or_eq_true, beq_iff_eq] at hf
    rcases hf with ((hf | hf) | hf) | hf <;> exact ⟨_, hf⟩
  obtain ⟨k, hk⟩ := hk
  obtain ⟨i, hi, rfl⟩ := exists_slot t k
  have hfree : s.submitted ≤ t + i := by
    by_contra hlt
    have := h.queued (t + i) (by omega) (by omega)
    rw [hk] at this
    cases this
  by_cases he : s.irq = .setEmpty
  · obtain ⟨hfin, hid⟩ := h.emptied he
    have hne : i ≠ 3 := by
      rintro rfl
      rw [hid, hk] at hfin
      exact absurd hfin (by decide)
    simp only [emptying, he, if_true]
    omega
  · simp only [emptying, he, if_false]
    omega

/-- A buffer that is ready or in progress holds a frame of the queue. -/
theorem queued_of_transient (h : Ordered s t) {k : Fin 4}
    (hk : (s.bufs k).transient = true) : ∃ n, t ≤ n ∧ n < s.submitted ∧ k = slot n := by
  obtain ⟨i, hi, rfl⟩ := exists_slot t k
  refine ⟨t + i, by omega, ?_, rfl⟩
  by_contra hge
  by_cases h3 : s.irq = .setEmpty ∧ i = 3
  · obtain ⟨hfin, hid⟩ := h.emptied h3.1
    rw [hid, ← h3.2] at hfin
    exact not_finished_of_transient hk hfin
  · have hfree := h.free (t + i) (by omega) (by simp only [emptying]; split <;> grind)
    rw [hfree] at hk
    cases hk

theorem headId_empty (h : Ordered s t) (hx : s.xmit = .insert ∨ s.xmit = .setReady) :
    s.bufs s.headId = .empty := by
  have hspace := h.space hx
  rw [h.headId_eq]
  exact h.free s.submitted (Nat.le_refl _) hspace

theorem writable (h : Ordered s t) (hx : s.xmit = .insert) :
    isTxtBufWritable (txStatus s.bufs) s.headId = true := by
  rw [isTxtBufWritable, getTxStatus_txStatus, h.headId_empty (.inl hx)]
  decide

/-! ### `ctucan_start_xmit` -/

theorem set_ready (h : Ordered s t) (hx : s.xmit = .setReady) :
    setState s.bufs s.headId .ready = Function.update s.bufs (slot s.submitted) .ready := by
  rw [setState, h.headId_empty (.inr hx), h.headId_eq]
  rfl

/-- The frame goes to the end of the queue. -/
theorem submit (h : Ordered s t) (hl : Exclusive s) (hx : s.xmit = .setReady)
    (hlock : s.txLock = false) :
    Ordered
      { s with
        txLock := true
        bufs := setState s.bufs s.headId .ready
        txbHead := s.txbHead + 1
        submitted := s.submitted + 1
        xmit := .checkFull } t := by
  have hnot : ¬ (s.irq = .scan ∨ s.irq = .rotate ∨ s.irq = .setEmpty) := fun hi =>
    absurd ((hl.irq hi).1.symm.trans hlock) (by decide)
  have hempty : s.emptying = 0 := if_neg fun hi => hnot (.inr (.inr hi))
  have hspace := h.space (.inr hx)
  have hle := h.le
  have hold : ∀ n, n ≠ s.submitted → t ≤ n → n < t + 4 →
      setState s.bufs s.headId .ready (slot n) = s.bufs (slot n) := by
    intro n hn h1 h2
    rw [h.set_ready hx, Function.update_of_ne]
    rw [ne_eq, slot_eq_iff]
    omega
  have hnew : setState s.bufs s.headId .ready (slot s.submitted) = .ready := by
    rw [h.set_ready hx, Function.update_self]
  exact
    { head := by simp [h.head, BitVec.ofNat_add]
      tail := h.tail
      le := by show t ≤ s.submitted + 1; omega
      room := by show s.submitted + 1 + s.emptying ≤ t + 4; omega
      space := nofun
      queued := fun n hn hn' => by
        have hn' : n < s.submitted + 1 := hn'
        by_cases hs : n = s.submitted
        · rw [hs]
          exact (congrArg waiting hnew).trans rfl
        · exact (congrArg waiting (hold n hs hn (by omega))).trans (h.queued n hn (by omega))
      free := fun n hn hn' => by
        have hn : s.submitted + 1 ≤ n := hn
        have hn' : n + s.emptying < t + 4 := hn'
        exact (hold n (by omega) (by omega) (by omega)).trans (h.free n (by omega) hn')
      emptied := fun hi => absurd (.inr (.inr hi)) hnot
      rotating := fun hi => absurd (.inr (.inl hi)) hnot
      fifo := fun m n hm hmn hn => by
        have hn : n < s.submitted + 1 := hn
        by_cases hs : n = s.submitted
        · rw [hs]
          exact .inl hnew
        · have hold' := h.fifo m n hm hmn (by omega)
          rw [← hold n hs (by omega) (by omega), ← hold m (by omega) hm (by omega)] at hold'
          exact hold' }

theorem step_xmit (h : Ordered s t) (hl : Exclusive s) : Ordered s.xmitStep t := by
  cases hx : s.xmit with
  | idle =>
    simp only [xmitStep, hx]
    split_ifs with ha hf
    · exact h
    · exact { h with space := fun _ => h.space_of_txnf hf }
    · exact { h with space := nofun }
  | insert =>
    simp only [xmitStep, hx, h.writable hx, if_true]
    exact { h with space := fun _ => h.space (.inl hx) }
  | setReady =>
    simp only [xmitStep, hx]
    split_ifs with hlock
    · exact h
    · exact h.submit hl hx (by simpa using hlock)
  | checkFull =>
    simp only [xmitStep, hx]
    exact { h with space := nofun }

/-! ### `ctucan_tx_interrupt` -/

/-- The tail moves on; its buffer is still to be set empty. -/
theorem advance (h : Ordered s t) (hi : s.irq = .rotate) : Ordered s.irqStep (t + 1) := by
  obtain ⟨hlt, hid, hfin⟩ := h.rotating hi
  have hroom := h.room
  have hempty : s.emptying = 0 := by simp [emptying, hi]
  simp only [irqStep, hi]
  exact
    { head := h.head
      tail := by simp [h.tail, BitVec.ofNat_add]
      le := hlt
      room := by show s.submitted + 1 ≤ t + 1 + 4; omega
      space := fun hx => by
        have := h.space hx
        show s.submitted + 1 < t + 1 + 4
        omega
      queued := fun n hn hn' => h.queued n (by omega) hn'
      free := fun n hn hn' => by
        have hn' : n + 1 < t + 1 + 4 := hn'
        exact h.free n hn (by omega)
      emptied := fun _ => ⟨hid ▸ hfin, by
        show s.txtbId = slot (t + 1 + 3)
        rw [hid, slot_eq_iff]
        omega⟩
      rotating := by simp
      fifo := fun m n hm hmn hn => h.fifo m n (by omega) hmn hn }

theorem set_empty (h : Ordered s t) (hi : s.irq = .setEmpty) : Ordered s.irqStep t := by
  obtain ⟨hfin, hid⟩ := h.emptied hi
  have hroom := h.room
  have hempty : s.emptying = 1 := by simp [emptying, hi]
  have hset : setState s.bufs s.txtbId .empty = Function.update s.bufs (slot (t + 3)) .empty := by
    rw [setState, if_neg (fun ht => not_finished_of_transient ht hfin), hid]
  have hold : ∀ n, t ≤ n → n < t + 3 →
      setState s.bufs s.txtbId .empty (slot n) = s.bufs (slot n) := by
    intro n h1 h2
    rw [hset, Function.update_of_ne (slot_ne (by omega) (by omega))]
  simp only [irqStep, hi]
  exact
    { head := h.head
      tail := h.tail
      le := h.le
      room := by show s.submitted + 0 ≤ t + 4; omega
      space := fun hx => by
        have := h.space hx
        show s.submitted + 0 < t + 4
        omega
      queued := fun n hn hn' => by
        have hn' : n < s.submitted := hn'
        exact (congrArg waiting (hold n hn (by omega))).trans (h.queued n hn hn')
      free := fun n hn hn' => by
        have hn : s.submitted ≤ n := hn
        have hn' : n + 0 < t + 4 := hn'
        have hle := h.le
        by_cases h3 : n = t + 3
        · rw [h3]
          exact (congrFun hset _).trans (Function.update_self _ _ _)
        · exact (hold n (by omega) (by omega)).trans (h.free n hn (by omega))
      emptied := by simp
      rotating := by simp
      fifo := fun m n hm hmn hn => by
        have hn : n < s.submitted := hn
        have hold' := h.fifo m n hm hmn hn
        rw [← hold n (by omega) (by omega), ← hold m hm (by omega)] at hold'
        exact hold' }

/-- A step that neither moves the tail nor writes a buffer. -/
theorem of_same {s' : TxQueue} (h : Ordered s t) (he : s.irq ≠ .setEmpty)
    (hq : s'.bufs = s.bufs ∧ s'.txbHead = s.txbHead ∧ s'.txbTail = s.txbTail ∧
      s'.submitted = s.submitted ∧ s'.xmit = s.xmit)
    (he' : s'.irq ≠ .setEmpty)
    (hr : s'.irq = .rotate →
      t < s.submitted ∧ s'.txtbId = slot t ∧ finished (s.bufs (slot t)) = true) : Ordered s' t := by
  obtain ⟨hb, hh, ht, hs, hx⟩ := hq
  have h0 : s.emptying = 0 := if_neg he
  have h0' : s'.emptying = 0 := if_neg he'
  refine ⟨?_, ?_, ?_, ?_, ?_, ?_, ?_, fun hi => absurd hi he', ?_, ?_⟩ <;>
    simp only [hb, hh, ht, hs, hx, h0'] <;> first | exact hr | skip
  · exact h.head
  · exact h.tail
  · exact h.le
  · exact h0 ▸ h.room
  · exact h0 ▸ h.space
  · exact h.queued
  · exact h0 ▸ h.free
  · exact h.fifo

theorem step_irq (h : Ordered s t) (hr : s.irq ≠ .rotate) : Ordered s.irqStep t := by
  cases hi : s.irq with
  | idle =>
    simp only [irqStep, hi]
    exact h.of_same (by simp [hi]) ⟨rfl, rfl, rfl, rfl, rfl⟩ (by simp) (by simp)
  | enter | clear | wake =>
    simp only [irqStep, hi]
    split_ifs
    all_goals first | exact h | exact h.of_same (by simp [hi]) ⟨rfl, rfl, rfl, rfl, rfl⟩ (by simp) (by simp)
  | scan =>
    simp only [irqStep, hi, tail_status]
    split_ifs with ho hf
    · refine h.of_same (by simp [hi]) ⟨rfl, rfl, rfl, rfl, rfl⟩ (by simp) fun _ => ?_
      rw [h.tailId_eq] at hf
      exact ⟨h.outstanding_eq.mp ho, h.tailId_eq, hf⟩
    all_goals
      exact h.of_same (by simp [hi]) ⟨rfl, rfl, rfl, rfl, rfl⟩ (by simp) (by simp)
  | rotate => exact absurd hi hr
  | setEmpty => exact h.set_empty hi

end Ordered

/-! ### The controller -/

/-- Buffers the priority decoder chooses from. -/
def selection (s : TxQueue) : Nat → PriorityDecoder.Entry :=
  PriorityDecoder.l0 4 s.hwPriority fun k => s.bufs (slot k) == .ready

/-- The core locks the buffer the priority decoder selects, while none is in progress, and
unlocks the one in progress. -/
def Selects (s : TxQueue) : Event → Prop
  | .hw e =>
    (e.txtbHwCmd.lock = true → PriorityDecoder.outputValid s.selection = true ∧
        e.cs = slot (PriorityDecoder.outputIndex 4 s.selection) ∧ ∀ k, s.bufs k ≠ .txProg) ∧
      (e.txtbHwCmd.valid = true ∨ e.txtbHwCmd.failed = true ∨ e.txtbHwCmd.err = true ∨
        e.txtbHwCmd.arbl = true → s.bufs e.cs = .txProg)
  | _ => True

instance (s : TxQueue) : (e : Event) → Decidable (s.Selects e)
  | .hw _ => inferInstanceAs (Decidable (_ ∧ _))
  | .xmit | .irq => .isTrue trivial

namespace Ordered

variable {e : HwEvent}

/-- The frame that is locked is the oldest one that has not finished. -/
theorem selected (h : Ordered s t) (hp : Rotated s t) (hok : s.Selects (.hw e))
    (hlock : e.txtbHwCmd.lock = true) :
    ∃ n, t ≤ n ∧ n < s.submitted ∧ e.cs = slot n ∧ s.bufs (slot n) = .ready ∧
      ∀ m, t ≤ m → m < n → finished (s.bufs (slot m)) = true := by
  obtain ⟨hv, hcs, hprog⟩ := hok.1 hlock
  obtain ⟨hlt, hready⟩ := PriorityDecoder.outputIndex_valid hv
  rw [← selection] at hlt hready
  have hidx : PriorityDecoder.outputIndex 4 s.selection = e.cs := by
    rw [hcs]
    exact (Nat.mod_eq_of_lt hlt).symm
  rw [← hcs] at hready
  have hready : s.bufs e.cs = .ready := by simpa using hready
  obtain ⟨n, htn, hn, hcs'⟩ := h.queued_of_transient (k := e.cs) (by rw [hready]; rfl)
  obtain ⟨i, rfl⟩ := Nat.exists_eq_add_of_le htn
  have hroom := h.room
  have hi : i < 4 := by omega
  refine ⟨t + i, by omega, hn, hcs', hcs' ▸ hready, fun m hm hmi => ?_⟩
  have hw := h.queued m hm (by omega)
  have hnp := hprog (slot m)
  cases hst : s.bufs (slot m) <;> rw [hst] at hw hnp <;>
    first | exact absurd hw (by decide) | exact absurd rfl hnp | decide | skip
  -- an older frame that is ready would have a higher priority
  obtain ⟨j, rfl⟩ := Nat.exists_eq_add_of_le hm
  have hmax := (@PriorityDecoder.outputIndex_max 4 s.hwPriority
    (fun k => s.bufs (slot k) == .ready) _ (by decide) (slot (t + j)).isLt
    (by rw [slot_val, hst]; rfl)).2
  rw [← selection, hidx, hcs', hp.priority ⟨i, hi⟩, hp.priority ⟨j, by omega⟩] at hmax
  have hlower : ∀ i j : Fin 4, j < i → ¬ 7 - BitVec.ofNat 3 j ≤ 7 - BitVec.ofNat 3 i := by decide
  exact absurd hmax (hlower ⟨i, hi⟩ ⟨j, by omega⟩ (Fin.mk_lt_mk.mpr (by omega)))

/-! ### What the controller leaves alone -/

theorem next_waiting {k : Fin 4} {st : TxtBufState} (h : waiting st = true) :
    waiting (e.next k st) = true := by
  cases st <;> simp only [HwEvent.next] <;> (try split_ifs) <;> first | rfl | cases h

theorem next_finished {k : Fin 4} {st : TxtBufState} (h : finished st = true) :
    e.next k st = st := by
  cases st <;> first | rfl | exact absurd h (by decide)

/-- A buffer that stops being ready has been locked, or all buffers fail. -/
theorem next_ready {k : Fin 4} (h : e.next k .ready ≠ .ready) :
    e.goToFailed = true ∨ (e.txtbHwCmd.lock = true ∧ k = e.cs) := by
  cases hf : e.goToFailed
  · right
    by_contra hn
    have hcmd : (e.cmd k).lock = false := by
      rw [HwEvent.cmd]
      split
      · rename_i hk
        exact Bool.of_not_eq_true fun hl => hn ⟨hl, hk⟩
      · rfl
    simp [HwEvent.next, hf, hcmd] at h
  · exact .inl rfl

theorem next_failed {k : Fin 4} {st : TxtBufState} (hw : waiting st = true)
    (h : e.goToFailed = true) : finished (e.next k st) = true := by
  cases st <;> simp only [HwEvent.next, h, if_true] <;> first | rfl | cases hw

theorem step_hw (h : Ordered s t) (hp : Rotated s t) (hok : s.Selects (.hw e)) :
    Ordered (s.hwStep e) t where
  head := h.head
  tail := h.tail
  le := h.le
  room := h.room
  space := h.space
  queued n hn hn' := next_waiting (h.queued n hn hn')
  free n hn hn' := (congrArg (e.next _) (h.free n hn hn')).trans rfl
  emptied hi := by
    obtain ⟨hfin, hid⟩ := h.emptied hi
    exact ⟨(congrArg finished (next_finished hfin)).trans hfin, hid⟩
  rotating hi := by
    obtain ⟨hlt, hid, hfin⟩ := h.rotating hi
    exact ⟨hlt, hid, (congrArg finished (next_finished hfin)).trans hfin⟩
  fifo m n hm hmn hn := by
    have hroom := h.room
    have hn : n < s.submitted := hn
    show e.next (slot n) (s.bufs (slot n)) = .ready ∨
      finished (e.next (slot m) (s.bufs (slot m))) = true
    rcases h.fifo m n hm hmn hn with hr | hf
    · rw [hr]
      by_cases hk : e.next (slot n) .ready = .ready
      · exact .inl hk
      right
      rcases next_ready hk with hfail | ⟨hlock, hcs⟩
      · exact next_failed (h.queued m hm (by omega)) hfail
      · obtain ⟨n', hn1, hn2, hcs', -, hold⟩ := h.selected hp hok hlock
        have heq : n = n' := by
          have := slot_eq_iff.mp (hcs.trans hcs')
          omega
        have hf := hold m hm (heq ▸ hmn)
        rw [next_finished hf]
        exact hf
    · rw [next_finished hf]
      exact .inr hf

end Ordered

/-! ## Frames taken out again -/

/-- The frame at the tail is taken out and the tail has not moved yet. -/
def logged (s : TxQueue) : Nat := if s.irq = .rotate then 1 else 0

/-- The frames were completed one after the other, and the others are stored. -/
structure Logged (s : TxQueue) (t : Nat) : Prop where
  completed : s.completed = (List.range (t + s.logged)).map some
  echo : ∀ n, t + s.logged ≤ n → n < s.submitted → s.echo (slot n) = some n
  echoNew : s.xmit = .setReady → s.echo (slot s.submitted) = some s.submitted
  insert : s.cannotInsert = false

namespace Logged

theorem step_xmit (h : Logged s t) (ho : Ordered s t) : Logged s.xmitStep t := by
  cases hx : s.xmit with
  | idle =>
    simp only [xmitStep, hx]
    split_ifs
    · exact h
    · exact { h with echoNew := nofun }
    · exact { h with echoNew := nofun }
  | insert =>
    have hspace := ho.space (.inl hx)
    simp only [xmitStep, hx, ho.writable hx, if_true]
    rw [ho.headId_eq]
    exact
      { h with
        echo := fun n hn hn' => by
          have hn' : n < s.submitted := hn'
          refine (Function.update_of_ne ?_ _ _).trans (h.echo n hn hn')
          exact slot_ne hn' (by omega)
        echoNew := fun _ => Function.update_self _ _ _ }
  | setReady =>
    simp only [xmitStep, hx]
    split_ifs
    · exact h
    · exact
        { h with
          echo := fun n hn hn' => by
            have hn' : n < s.submitted + 1 := hn'
            by_cases hs : n = s.submitted
            · rw [hs]
              exact h.echoNew hx
            · exact h.echo n hn (by omega)
          echoNew := nofun }
  | checkFull =>
    simp only [xmitStep, hx]
    exact { h with echoNew := nofun }

/-- The frame at the tail is taken out. -/
theorem take (h : Logged s t) (ho : Ordered s t) (hi : s.irq = .scan) (hlt : t < s.submitted) :
    Logged
      { s with
        txtbId := s.tailId
        completed := s.completed ++ [s.echo s.tailId]
        echo := Function.update s.echo s.tailId none
        irq := .rotate } t := by
  have h0 : s.logged = 0 := by simp [logged, hi]
  have hroom := ho.room
  have hkeep : ∀ n, t < n → n < t + 4 →
      Function.update s.echo s.tailId none (slot n) = s.echo (slot n) := by
    intro n h1 h2
    rw [ho.tailId_eq, Function.update_of_ne (slot_ne h1 h2).symm]
  exact
    { completed := by
        show s.completed ++ [s.echo s.tailId] = (List.range (t + 1)).map some
        rw [h.completed, h0, ho.tailId_eq, h.echo t (by omega) hlt, List.range_succ,
          List.map_append]
        rfl
      echo := fun n hn hn' => by
        have hn : t + 1 ≤ n := hn
        have hn' : n < s.submitted := hn'
        exact (hkeep n hn (by omega)).trans (h.echo n (by omega) hn')
      echoNew := fun hx => by
        have hspace := ho.space (.inr hx)
        exact (hkeep s.submitted hlt (by omega)).trans (h.echoNew hx)
      insert := h.insert }

/-- Steps that take out nothing. -/
theorem of_same {s' : TxQueue} {t' : Nat} (h : Logged s t)
    (hq : s'.completed = s.completed ∧ s'.echo = s.echo ∧ s'.submitted = s.submitted ∧
      s'.xmit = s.xmit ∧ s'.cannotInsert = s.cannotInsert)
    (ht : t' + s'.logged = t + s.logged) : Logged s' t' := by
  obtain ⟨hc, he, hs, hx, hi⟩ := hq
  refine ⟨?_, ?_, ?_, ?_⟩ <;> simp only [hc, he, hs, hx, hi, ht]
  · exact h.completed
  · exact h.echo
  · exact h.echoNew
  · exact h.insert

theorem advance (h : Logged s t) (hi : s.irq = .rotate) : Logged s.irqStep (t + 1) := by
  simp only [irqStep, hi]
  exact h.of_same ⟨rfl, rfl, rfl, rfl, rfl⟩ (by simp [logged, hi])

theorem step_irq (h : Logged s t) (ho : Ordered s t) (hr : s.irq ≠ .rotate) :
    Logged s.irqStep t := by
  have h0 : s.logged = 0 := if_neg hr
  cases hi : s.irq with
  | idle | setEmpty =>
    simp only [irqStep, hi]
    exact h.of_same ⟨rfl, rfl, rfl, rfl, rfl⟩ (by rw [h0]; rfl)
  | enter | clear | wake =>
    simp only [irqStep, hi]
    split_ifs
    all_goals first | exact h | exact h.of_same ⟨rfl, rfl, rfl, rfl, rfl⟩ (by rw [h0]; rfl)
  | scan =>
    simp only [irqStep, hi]
    split_ifs with hout
    · exact h.take ho hi (ho.outstanding_eq.mp hout)
    all_goals exact h.of_same ⟨rfl, rfl, rfl, rfl, rfl⟩ (by rw [h0]; rfl)
  | rotate => exact absurd hi hr

end Logged

/-! ## Every run -/

structure InOrder (s : TxQueue) (t : Nat) : Prop where
  exclusive : Exclusive s
  ordered : Ordered s t
  rotated : Rotated s t
  logged : Logged s t

theorem InOrder.of_init : InOrder init 0 where
  exclusive := ⟨by decide, by decide⟩
  ordered :=
    { head := rfl
      tail := rfl
      le := Nat.le_refl 0
      room := by decide
      space := by decide
      queued := fun n _ hn => absurd hn (Nat.not_lt_zero n)
      free := fun _ _ _ => rfl
      emptied := by decide
      rotating := by decide
      fifo := fun _ n _ _ hn => absurd hn (Nat.not_lt_zero n) }
  rotated := ⟨rfl, by decide⟩
  logged := ⟨rfl, fun n _ hn => absurd hn (Nat.not_lt_zero n), by decide, rfl⟩

theorem InOrder.step_inOrder {e : Event} (h : InOrder s t) (hok : s.Selects e) :
    ∃ t', InOrder (s.step e) t' := by
  have hl := h.exclusive.step_exclusive e
  cases e with
  | xmit =>
    obtain ⟨-, -, -, -, -, hp, hq, -⟩ := xmitStep_frame s
    exact ⟨t, hl, h.ordered.step_xmit h.exclusive,
      ⟨hq.trans (h.rotated.register.trans hp.symm), (congrArg _ hp).trans h.rotated.word⟩,
      h.logged.step_xmit h.ordered⟩
  | irq =>
    by_cases hr : s.irq = .rotate
    · refine ⟨t + 1, hl, h.ordered.advance hr, ?_, h.logged.advance hr⟩
      simp only [step, irqStep, hr]
      exact ⟨rfl, h.rotated.rotate⟩
    · refine ⟨t, hl, h.ordered.step_irq hr, ?_, h.logged.step_irq h.ordered hr⟩
      have hkeep : s.irqStep.txPriority = s.txPriority ∧ s.irqStep.txbPrio = s.txbPrio := by
        unfold irqStep
        cases hi : s.irq <;> dsimp only <;> (try split_ifs) <;>
          first | exact ⟨rfl, rfl⟩ | exact absurd hi hr
      exact ⟨hkeep.1.trans (h.rotated.register.trans hkeep.2.symm),
        (congrArg _ hkeep.2).trans h.rotated.word⟩
  | hw e =>
    exact ⟨t, hl, h.ordered.step_hw h.rotated hok, ⟨h.rotated.register, h.rotated.word⟩,
      h.logged.of_same ⟨rfl, rfl, rfl, rfl, rfl⟩ rfl⟩

theorem run_inOrder (es : List Event) (h : Admits step Selects init es) :
    ∃ t, InOrder (run step init es) t :=
  run_invariant step Selects (fun s => ∃ t, InOrder s t)
    (fun _ _ ⟨_, ht⟩ hok => ht.step_inOrder hok) ⟨0, .of_init⟩ es h

/-- The frame was taken out, or its buffer has finished. -/
def Done (s : TxQueue) (n : Nat) : Prop :=
  some n ∈ s.completed ∨ ∃ k, s.echo k = some n ∧ finished (s.bufs k) = true

theorem InOrder.done_of_finished {n : Nat} (h : InOrder s t) (hn : n < s.submitted)
    (hf : t ≤ n → finished (s.bufs (slot n)) = true) : s.Done n := by
  by_cases hlog : n < t + s.logged
  · left
    rw [h.logged.completed]
    exact List.mem_map_of_mem (List.mem_range.mpr hlog)
  · exact .inr ⟨slot n, h.logged.echo n (by omega) hn, hf (by omega)⟩

/-- Five frames, of which the first is sent and taken out before the last is submitted. -/
def fiveFrames : List Event :=
  List.replicate 16 .xmit ++ sent (slot 0) ++ List.replicate 11 .irq ++ List.replicate 4 .xmit

end Driver.TxQueue
