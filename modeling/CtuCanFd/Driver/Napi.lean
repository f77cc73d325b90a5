import CtuCanFd.Driver.RxPoll
import CtuCanFd.Lib.SyncMachine

/-!
# Polls and the RX interrupt

The interrupt handler masks RBNEI and schedules a poll. The network stack polls again when a
call returns its quota; when it returns less, the call must have completed the poll and
unmasked RBNEI, which is set as long as there is a frame in the buffer.
-/

namespace Driver

open SyncMachine
open RxBuffer (Word rwcntOf FrameShape)
open FrameQueue (Queue)

/-! ## What a poll finds -/

namespace RxSide

/-- Frames that are going to arrive. -/
def arriving (h : RxSide) : List (List Word) := h.arrivals.flatMap (·.frames)

/-- What is to be read: the rest of the frame that is open, the frames in the buffer and those
that are going to arrive. -/
def upcoming (h : RxSide) : List (List Word) :=
  (if h.queue.reading = [] then [] else [h.queue.reading]) ++ h.queue.whole ++ h.arriving

/-- Register accesses of a poll up to its reading of the frame count after `n` frames. -/
def accesses (h : RxSide) (n : Nat) : Nat := 1 + ((h.upcoming.take n).map (·.length + 1)).sum

/-- Frames that the buffer has had by then, the `n` frames included. -/
def present (h : RxSide) (n : Nat) : Nat :=
  h.queue.frameCount + ((h.arrivals.take (h.accesses n)).flatMap (·.frames)).length

/-- `h'` is the buffer `k` accesses later. -/
structure Later (h : RxSide) (k : Nat) (h' : RxSide) : Prop where
  arrivals : h'.arrivals = h.arrivals.drop k
  stored : h'.stored = h.stored ++ (h.arrivals.take k).flatMap (·.frames)

section Later

variable {h h' h'' : RxSide} {k k' : Nat}

theorem later_zero (h : RxSide) : Later h 0 h := ⟨rfl, by simp⟩

theorem later_access (h : RxSide) : Later h 1 h.access := by
  unfold access
  cases ha : h.arrivals <;> constructor <;> simp [ha]

theorem later_read (h : RxSide) : Later h 1 h.readRxData.2 :=
  ⟨h.later_access.arrivals, h.later_access.stored⟩

theorem Later.trans (h1 : Later h k h') (h2 : Later h' k' h'') : Later h (k + k') h'' := by
  refine ⟨?_, ?_⟩
  · rw [h2.arrivals, h1.arrivals, List.drop_drop]
  · rw [h2.stored, h1.stored, h1.arrivals, List.take_add, List.flatMap_append, List.append_assoc]

/-- All frames, stored or to come, stay the same. -/
theorem Later.frames (h1 : Later h k h') : h'.stored ++ h'.arriving = h.stored ++ h.arriving := by
  rw [h1.stored, arriving, h1.arrivals, arriving, List.append_assoc, ← List.flatMap_append,
    List.take_append_drop]

theorem later_skip (n : Nat) (h : RxSide) : Later h n (skipWords n h) := by
  induction n generalizing h with
  | zero => exact h.later_zero
  | succ n ih =>
    have hnext := h.later_read.trans (ih h.readRxData.2)
    rwa [Nat.add_comm 1 n] at hnext

theorem later_data (n i : Nat) (cf : CanfdFrame) (h : RxSide) :
    Later h n (readData n i cf h).2 := by
  induction n generalizing i cf h with
  | zero => exact h.later_zero
  | succ n ih =>
    have hnext := h.later_read.trans (ih (i + 4) (cf.setWord i h.readRxData.1) h.readRxData.2)
    rwa [Nat.add_comm 1 n] at hnext

/-- A frame whose first word has been read takes one access for each of its other words. -/
theorem later_frame {ffw : Word} {rest : List Word} (hshape : FrameShape (ffw :: rest))
    (cf : CanfdFrame) (h : RxSide) : Later h rest.length (readRxFrame cf ffw h).2 := by
  obtain ⟨w, ws, heq, hcnt, hmin, hmax⟩ := hshape
  obtain ⟨rfl, rfl⟩ := List.cons.inj heq
  have hwords : rwcntOf ffw = rest.length - 3 + 3 := by omega
  have hreads := reads_add hwords (by omega)
  have hall : rest.length = 1 + (2 + (dataReads ffw + padReads ffw)) := by omega
  rw [hall]
  exact h.later_read.trans ((later_skip 2 _).trans ((later_data _ 0 _ _).trans (later_skip _ _)))

end Later

end RxSide

namespace Framed

variable {p : RxPriv} {done : List (List Word)}

theorem words_left {w : Word} {rest : List Word} (h : FrameShape (w :: rest)) : rest ≠ [] := by
  obtain ⟨v, ws, heq, -, hmin, -⟩ := h
  obtain ⟨-, rfl⟩ := List.cons.inj heq
  rintro rfl
  simp at hmin

theorem upcoming_between (h : Framed p done) (hf : p.firstWord = none) :
    p.dev.upcoming = (p.dev.stored ++ p.dev.arriving).drop done.length := by
  have hc := h.between hf
  simp [RxSide.upcoming, hc.reading, hc.stored]

/-- Behind the next frame nothing has been read. -/
theorem upcoming_tail (h : Framed p done) :
    p.dev.upcoming.tail = (p.dev.stored ++ p.dev.arriving).drop (done.length + 1) := by
  cases hf : p.firstWord with
  | none => rw [h.upcoming_between hf, List.tail_drop]
  | some w =>
    obtain ⟨rest, hshape, hc⟩ := h.begun w hf
    have hrest := words_left hshape
    have hall : p.dev.stored ++ p.dev.arriving =
        (done ++ [w :: rest]) ++ (p.dev.queue.whole ++ p.dev.arriving) := by
      simp [hc.stored]
    have hlen : done.length + 1 = (done ++ [w :: rest]).length := by simp
    rw [hall, hlen, List.drop_left]
    simp [RxSide.upcoming, hc.reading, hrest]

/-- Reading the first word, or taking it from where it was kept. -/
theorem upcoming_first (h : Framed p done) (hcnt : 0 < p.dev.access.queue.frameCount) :
    ∃ rest k f us, FrameShape (p.takeFirstWord.1 :: rest) ∧
      Cursor p.takeFirstWord.2.dev done [p.takeFirstWord.1] rest ∧
      p.dev.Later k p.takeFirstWord.2.dev ∧ p.dev.upcoming = f :: us ∧
      f.length = k + rest.length := by
  obtain ⟨rest, hshape, hc, -⟩ := h.takeFirstWord hcnt
  cases hf : p.firstWord with
  | some w =>
    have hdev : p.takeFirstWord.2.dev = p.dev := by simp [RxPriv.takeFirstWord, hf]
    have hrest := words_left hshape
    refine ⟨rest, 0, rest, p.dev.queue.whole ++ p.dev.arriving, hshape, hc,
      hdev ▸ p.dev.later_zero, ?_, by omega⟩
    rw [hdev] at hc
    simp [RxSide.upcoming, hc.reading, hrest]
  | none =>
    have hlater : p.dev.Later 1 p.takeFirstWord.2.dev := by
      simpa [RxPriv.takeFirstWord, hf] using p.dev.later_read
    refine ⟨rest, 1, p.takeFirstWord.1 :: rest,
      p.takeFirstWord.2.dev.queue.whole ++ p.takeFirstWord.2.dev.arriving, hshape, hc, hlater, ?_,
      by rw [List.length_cons, Nat.add_comm]⟩
    rw [h.upcoming_between hf, ← hlater.frames, hc.stored]
    simp

/-- A frame that is passed on takes the accesses for what is left of it. -/
theorem rx_passed (h : Framed p done) (hcnt : 0 < p.dev.access.queue.frameCount)
    (hok : p.allocs.headD true = true) :
    p.rx.1 = .passed ∧ p.rx.2.allocs = p.allocs.tail ∧
      ∃ f us g, p.dev.upcoming = f :: us ∧ p.rx.2.dev.upcoming = us ∧
        p.dev.Later f.length p.rx.2.dev ∧ Framed p.rx.2 (done ++ [g]) := by
  obtain ⟨rest, k, f, us, hshape, hc, hlater, hup, hlen⟩ := h.upcoming_first hcnt
  obtain ⟨-, -, -, hdel, hallocs, hfirst⟩ := h.takeFirstWord hcnt
  have hrwcnt : rwcntOf p.takeFirstWord.1 ≠ 0 := by
    obtain ⟨w, ws, heq, hcnt, hmin, -⟩ := hshape
    rw [(List.cons.inj heq).1]
    omega
  have halloc : p.takeFirstWord.2.alloc =
      (true, { p.takeFirstWord.2 with allocs := p.allocs.tail }) := by
    unfold RxPriv.alloc
    rw [hallocs]
    cases ha : p.allocs with
    | nil =>
      have hnil : [] = p.takeFirstWord.2.allocs := (hallocs.trans ha).symm
      exact congrArg (Prod.mk true) (by rw [List.tail_nil, hnil])
    | cons b bs =>
      rw [ha] at hok
      simpa using hok
  have hrx : p.rx = (.passed,
      { p.takeFirstWord.2 with allocs := p.allocs.tail }.deliver p.takeFirstWord.1) := by
    simp only [RxPriv.rx, if_neg hrwcnt, halloc, if_true]
  have hframed : Framed p.rx.2 (done ++ [p.takeFirstWord.1 :: rest]) := by
    rw [hrx]
    exact deliver hshape hc hfirst (hdel.trans h.delivered)
  have hlater' : p.dev.Later f.length p.rx.2.dev := by
    rw [hrx, hlen]
    exact hlater.trans (RxSide.later_frame hshape _ _)
  refine ⟨by rw [hrx], by rw [hrx]; rfl, f, us, _, hup, ?_, hlater', hframed⟩
  have hnone : p.rx.2.firstWord = none := by
    rw [hrx]
    exact hfirst
  rw [hframed.upcoming_between hnone, hlater'.frames, List.length_append, List.length_singleton,
    ← h.upcoming_tail, hup, List.tail_cons]

end Framed

/-! ## The contract -/

/-- The condition on a poll, in terms of the frames and allocations it finds. No allocation fails
before the one for the frame that uses up the quota, and if that one succeeds, another frame is in
the buffer after it. -/
structure Serves (quota : Nat) (p : RxPriv) : Prop where
  allocates : ∀ n < quota - 1, (∀ m ≤ n, m < p.dev.present m) → p.allocs.getD n true = true
  last : (∀ m < quota, m < p.dev.present m) → p.allocs.getD (quota - 1) true = true →
    quota < p.dev.present quota

instance (quota : Nat) (p : RxPriv) : Decidable (Serves quota p) :=
  decidable_of_iff ((∀ n < quota - 1, (∀ m ≤ n, m < p.dev.present m) →
        p.allocs.getD n true = true) ∧
      ((∀ m < quota, m < p.dev.present m) → p.allocs.getD (quota - 1) true = true →
        quota < p.dev.present quota))
    ⟨fun h => ⟨h.1, h.2⟩, fun h => ⟨h.allocates, h.last⟩⟩

namespace PollLoop

/-- The loop variables after `n` passes. -/
def after (p : RxPriv) (n : Nat) : PollLoop := body^[n] (start p)

theorem after_succ (p : RxPriv) (n : Nat) : after p (n + 1) = (after p n).body :=
  Function.iterate_succ_apply' body n (start p)

/-- `n` frames have been passed on. -/
structure Passed (p : RxPriv) (done : List (List Word)) (n : Nat) : Prop where
  valid : ∃ more, more.length = n ∧ Valid (after p n) (done ++ more)
  res : (after p n).res = .passed
  workDone : (after p n).workDone = n
  allocs : (after p n).priv.allocs = p.allocs.drop n
  later : p.dev.Later (p.dev.accesses n) (after p n).priv.dev
  upcoming : (after p n).priv.dev.upcoming = p.dev.upcoming.drop n

section Passed

variable {p : RxPriv} {done : List (List Word)} {n : Nat}

theorem Passed.framecnt (hp : Passed p done n) (h : Framed p done) :
    (after p n).framecnt + n = p.dev.present n := by
  obtain ⟨more, hlen, hv⟩ := hp.valid
  have hcount := hv.framed.frameCount
  have hbefore := h.frameCount
  rw [hp.later.stored, List.length_append, List.length_append, hlen, ← hv.framecnt] at hcount
  rw [RxSide.present]
  omega

theorem Passed.nextAlloc (hp : Passed p done n) :
    (after p n).priv.allocs.headD true = p.allocs.getD n true := by
  rw [hp.allocs, List.headD_eq_head?_getD, List.head?_drop]
  simp

theorem upcoming_access (h : RxSide) : h.access.upcoming = h.upcoming := by
  unfold RxSide.access
  cases ha : h.arrivals <;> simp [RxSide.upcoming, RxSide.arriving, ha]

theorem passed_zero (h : Framed p done) : Passed p done 0 where
  valid := ⟨[], rfl, by simpa [after] using valid_start h⟩
  res := rfl
  workDone := rfl
  allocs := rfl
  later := p.dev.later_access
  upcoming := upcoming_access p.dev

/-- One more pass, with a frame in the buffer and a socket buffer for it. -/
theorem Passed.next (hp : Passed p done n) (h : Framed p done) (hcnt : n < p.dev.present n)
    (hok : p.allocs.getD n true = true) : Passed p done (n + 1) := by
  obtain ⟨more, hlen, hv⟩ := hp.valid
  have hframes := hp.framecnt h
  have hpos : 0 < (after p n).priv.dev.access.queue.frameCount := by
    have := access_frameCount (after p n).priv.dev
    have := hv.framecnt
    omega
  obtain ⟨hres, hallocs, f, us, g, hup, hus, hlater, hf⟩ :=
    hv.framed.rx_passed hpos (hp.nextAlloc.trans hok)
  rw [hp.upcoming] at hup
  have haccess : p.dev.accesses n + (f.length + 1) = p.dev.accesses (n + 1) := by
    rw [RxSide.accesses, RxSide.accesses, List.take_add, hup]
    simp
    omega
  refine ⟨⟨more ++ [g], by simp [hlen], ?_⟩, ?_, ?_, ?_, ?_, ?_⟩ <;> rw [after_succ]
  · rw [← List.append_assoc]
    refine ⟨hf.withDev fun _ _ hc => hc.access, rfl, ?_⟩
    rw [show (after p n).body.res = (after p n).priv.rx.1 from rfl, hres]
    decide
  · exact hres
  · exact congrArg (· + 1) hp.workDone
  · rw [← List.tail_drop, ← hp.allocs]
    exact hallocs
  · rw [← haccess]
    exact hp.later.trans (hlater.trans (RxSide.later_access _))
  · rw [← List.tail_drop, hup, List.tail_cons, ← hus]
    exact upcoming_access _

end Passed

/-- The passes up to some point are made, if each finds a frame and a socket buffer. -/
theorem passed_of {p : RxPriv} {done : List (List Word)} (h : Framed p done) (n : Nat)
    (hall : ∀ m < n, m < p.dev.present m ∧ p.allocs.getD m true = true) : Passed p done n := by
  induction n with
  | zero => exact passed_zero h
  | succ n ih =>
    have hlast := hall n n.lt_succ_self
    exact (ih fun m hm => hall m (Nat.lt_succ_of_lt hm)).next h hlast.1 hlast.2

theorem run_stop {l : PollLoop} (k : Nat) (h : ¬ (l.framecnt ≠ 0 ∧ l.res = .passed)) :
    run k l = l := by
  cases k with
  | zero => rfl
  | succ k => rw [run, if_neg h]

/-- The loop makes as many passes as find a frame and a socket buffer. -/
theorem run_after {p : RxPriv} {done : List (List Word)} (h : Framed p done) {n : Nat} (k : Nat)
    (hall : ∀ m < n, m < p.dev.present m ∧ p.allocs.getD m true = true) :
    run (n + k) (start p) = run k (after p n) := by
  induction n generalizing k with
  | zero => rw [Nat.zero_add]; rfl
  | succ n ih =>
    have hbefore := fun m (hm : m < n) => hall m (Nat.lt_succ_of_lt hm)
    have hp := passed_of h n hbefore
    have hcnt := hp.framecnt h
    have hlast := (hall n n.lt_succ_self).1
    rw [Nat.add_assoc, Nat.add_comm 1 k, ih (k + 1) hbefore, run, if_pos ⟨by omega, hp.res⟩,
      after_succ]

end PollLoop

section Contract

variable {p : RxPriv} {done : List (List Word)} {quota : Nat} {ok : Bool}

/-- A poll returns less than its quota exactly if it has completed. -/
def Contract (quota : Nat) (ok : Bool) (p : RxPriv) : Prop :=
  (rxPoll quota ok p).workDone < quota ↔ (rxPoll quota ok p).completed = true

theorem rxPoll_completed (quota : Nat) (ok : Bool) (p : RxPriv) :
    (rxPoll quota ok p).completed = true ↔
      (PollLoop.run quota (PollLoop.start p)).framecnt = 0 ∧
        (PollLoop.run quota (PollLoop.start p)).res ≠ .noSkb := by
  unfold rxPoll
  simp only
  split_ifs with hc <;> simp [hc]

theorem alloc_fst (p : RxPriv) : p.alloc.1 = p.allocs.headD true := by
  unfold RxPriv.alloc
  split <;> simp [*]

/-- Every pass up to the quota is made. -/
theorem contract_full (h : Framed p done)
    (hall : ∀ m < quota, m < p.dev.present m ∧ p.allocs.getD m true = true) :
    Contract quota ok p ↔ quota < p.dev.present quota := by
  have hp := PollLoop.passed_of h quota hall
  have hcnt := hp.framecnt h
  have hrun : PollLoop.run quota (PollLoop.start p) = PollLoop.after p quota :=
    PollLoop.run_after h 0 hall
  rw [Contract, rxPoll_completed, (rxPoll_delivered quota ok p).2, hrun, hp.workDone, hp.res]
  simp only [ne_eq, reduceCtorEq, not_false_eq_true, and_true]
  omega

/-- No frame is left for a pass. -/
theorem contract_drained (h : Framed p done) {n : Nat} (hn : n < quota)
    (hall : ∀ m < n, m < p.dev.present m ∧ p.allocs.getD m true = true)
    (hnone : ¬ n < p.dev.present n) : Contract quota ok p := by
  have hp := PollLoop.passed_of h n hall
  have hcnt := hp.framecnt h
  have hzero : (PollLoop.after p n).framecnt = 0 := by omega
  have hrun : PollLoop.run quota (PollLoop.start p) = PollLoop.after p n := by
    obtain ⟨k, rfl⟩ := Nat.exists_eq_add_of_le hn.le
    rw [PollLoop.run_after h k hall, PollLoop.run_stop k fun hgo => hgo.1 hzero]
  rw [Contract, rxPoll_completed, (rxPoll_delivered quota ok p).2, hrun, hp.workDone, hp.res]
  simp [hn, hzero]

/-- There is no socket buffer for the frame of a pass. -/
theorem contract_failed (h : Framed p done) {n : Nat} (hn : n < quota)
    (hall : ∀ m < n, m < p.dev.present m ∧ p.allocs.getD m true = true)
    (hsome : n < p.dev.present n) (hno : p.allocs.getD n true = false) :
    Contract quota ok p ↔ n + 1 = quota := by
  have hp := PollLoop.passed_of h n hall
  have hcnt := hp.framecnt h
  obtain ⟨more, -, hv⟩ := hp.valid
  have halloc : (PollLoop.after p n).priv.alloc.1 = false := by
    rw [alloc_fst, hp.nextAlloc, hno]
  rcases PollLoop.valid_body hv (by omega) with ⟨hok, -⟩ | ⟨-, hres, -⟩
  · rw [halloc] at hok
    cases hok
  have hrun : PollLoop.run quota (PollLoop.start p) = (PollLoop.after p n).body := by
    obtain ⟨k, rfl⟩ := Nat.exists_eq_add_of_le (show n + 1 ≤ quota from hn)
    rw [Nat.add_assoc, Nat.add_comm 1 k, PollLoop.run_after h (k + 1) hall, PollLoop.run,
      if_pos ⟨by omega, hp.res⟩, PollLoop.run_stop k (by simp [hres])]
  have hwork : (PollLoop.after p n).body.workDone = n + 1 := congrArg (· + 1) hp.workDone
  rw [Contract, rxPoll_completed, (rxPoll_delivered quota ok p).2, hrun, hwork, hres]
  simp only [ne_eq, not_true_eq_false, and_false, iff_false]
  omega

/-- A poll keeps the contract exactly if it finds what the condition says. -/
theorem contract_iff (h : Framed p done) (hq : 1 ≤ quota) :
    Contract quota ok p ↔ Serves quota p := by
  by_cases hall : ∀ m < quota, m < p.dev.present m ∧ p.allocs.getD m true = true
  · rw [contract_full h hall]
    exact ⟨fun hmore => ⟨fun n hn _ => (hall n (by omega)).2, fun _ _ => hmore⟩,
      fun hs => hs.last (fun m hm => (hall m hm).1) (hall (quota - 1) (by omega)).2⟩
  · -- the first pass that finds no frame or no socket buffer
    simp only [not_forall] at hall
    obtain ⟨hn, hbad⟩ := Nat.find_spec hall
    have hbefore : ∀ m < Nat.find hall, m < p.dev.present m ∧ p.allocs.getD m true = true :=
      fun m hm => by
        by_contra hgood
        exact Nat.find_min hall hm ⟨hm.trans hn, hgood⟩
    generalize Nat.find hall = n at hn hbad hbefore
    by_cases hsome : n < p.dev.present n
    · have hno : p.allocs.getD n true = false :=
        Bool.eq_false_iff.mpr fun hok => hbad ⟨hsome, hok⟩
      rw [contract_failed h hn hbefore hsome hno]
      constructor
      · rintro rfl
        exact ⟨fun m hm _ => (hbefore m (by omega)).2,
          fun _ hlast => absurd (hno.symm.trans hlast) (by decide)⟩
      · intro hs
        by_contra hne
        have hok := hs.allocates n (by omega) fun m hm => by
          rcases Nat.lt_or_eq_of_le hm with hm | rfl
          · exact (hbefore m hm).1
          · exact hsome
        exact absurd (hno.symm.trans hok) (by decide)
    · refine iff_of_true (contract_drained h hn hbefore hsome) ⟨fun m hm hpres => ?_, ?_⟩
      · by_cases hmn : m < n
        · exact (hbefore m hmn).2
        · exact absurd (hpres n (by omega)) hsome
      · exact fun hpres _ => absurd (hpres n hn) hsome

end Contract

/-! ## Interrupts and polls -/

/-- `scheduled`: the network stack is going to poll. -/
structure Napi where
  priv : RxPriv
  scheduled : Bool

/-- RBNEI part of `ctucan_interrupt`. -/
def RxPriv.rbneiInterrupt (p : RxPriv) : RxPriv :=
  { p with dev := p.dev.access.access, rbneiMasked := true }

inductive NapiEvent where
  | interrupt
  | poll (quota : Nat) (done : Bool)
deriving DecidableEq, Repr

namespace Napi

/-- RBNEI is set and not masked. -/
def rbnei (s : Napi) : Bool := !s.priv.rbneiMasked && decide (0 < s.priv.dev.queue.frameCount)

/-- The network stack takes a result below the quota for a completed poll. A completion that
is refused schedules the poll again. -/
def step (s : Napi) : NapiEvent → Napi
  | .interrupt => if s.rbnei then ⟨s.priv.rbneiInterrupt, true⟩ else s
  | .poll quota done =>
    if s.scheduled then
      let r := rxPoll quota done s.priv
      ⟨r.priv, if r.workDone < quota then r.completed && !done else true⟩
    else s

/-- A poll meets the condition. -/
def Served (s : Napi) : NapiEvent → Prop
  | .interrupt => True
  | .poll quota _ => 1 ≤ quota ∧ Serves quota s.priv

instance (s : Napi) (e : NapiEvent) : Decidable (Served s e) :=
  match e with
  | .interrupt => .isTrue trivial
  | .poll quota _ => inferInstanceAs (Decidable (1 ≤ quota ∧ Serves quota s.priv))

section Poll

variable {p : RxPriv} {quota : Nat}

theorem unmasked_of_completed (hc : (rxPoll quota true p).completed = true) :
    (rxPoll quota true p).priv.rbneiMasked = false := by
  unfold rxPoll at hc ⊢
  simp only [if_true] at hc ⊢
  split_ifs at hc ⊢
  rfl

end Poll

/-- There is a poll to come or the interrupt is armed. -/
structure Attended (s : Napi) : Prop where
  framed : ∃ done, Framed s.priv done
  armed : s.scheduled = true ∨ s.priv.rbneiMasked = false

theorem attended_step {s : Napi} {e : NapiEvent} (h : Attended s) (he : Served s e) :
    Attended (s.step e) := by
  obtain ⟨done, hf⟩ := h.framed
  cases e with
  | interrupt =>
    simp only [step]
    split_ifs
    · have hdev : Framed { s.priv with dev := s.priv.dev.access.access } done :=
        hf.withDev fun _ _ hc => hc.access.access
      exact ⟨⟨done, hdev.delivered, hdev.between, hdev.begun⟩, .inl rfl⟩
    · exact h
  | poll quota ok =>
    simp only [step]
    split_ifs with hsch hlt
    · obtain ⟨more, hf'⟩ := hf.rxPoll quota ok
      have hc : (rxPoll quota ok s.priv).completed = true :=
        ((contract_iff hf he.1).mpr he.2).mp hlt
      refine ⟨⟨done ++ more, hf'⟩, ?_⟩
      cases ok
      · exact .inl (by simp [hc])
      · exact .inr (unmasked_of_completed hc)
    · obtain ⟨more, hf'⟩ := hf.rxPoll quota ok
      exact ⟨⟨done ++ more, hf'⟩, .inl rfl⟩
    · exact h

/-- In every run in which all polls meet the condition, there is a poll to come or the interrupt
is armed. In every state of such a run, a poll returns less than its quota exactly if it has
completed, if and only if it meets the condition, and one that has completed has unmasked the
interrupt unless a new poll has been scheduled. -/
theorem poll_contract (s : Napi) (h : Fresh s.priv)
    (hs : s.scheduled = true ∨ s.priv.rbneiMasked = false) (es : List NapiEvent)
    (hes : Admits step Served s es) :
    ((run step s es).scheduled = true ∨ (run step s es).priv.rbneiMasked = false) ∧
      ∀ quota ok, 1 ≤ quota →
        (((rxPoll quota ok (run step s es).priv).workDone < quota ↔
            (rxPoll quota ok (run step s es).priv).completed = true) ↔
          Serves quota (run step s es).priv) ∧
        ((rxPoll quota ok (run step s es).priv).completed = true → ok = true →
          (rxPoll quota ok (run step s es).priv).priv.rbneiMasked = false) := by
  have hend := run_invariant step Served Attended (fun _ _ hs he => attended_step hs he)
    ⟨⟨[], h.framed⟩, hs⟩ es hes
  refine ⟨hend.armed, ?_⟩
  obtain ⟨done, hf⟩ := hend.framed
  intro quota ok hq
  refine ⟨contract_iff hf hq, ?_⟩
  rintro hc rfl
  exact unmasked_of_completed hc

/-- A poll of one frame without a socket buffer, one of both frames with a larger quota, then an
interrupt without a frame. -/
theorem poll_contract_drained :
    (run step ⟨waiting [false], true⟩ [.poll 1 true, .poll 4 true, .interrupt]).priv.rbneiMasked =
        false ∧
      (run step ⟨waiting [false], true⟩ [.poll 1 true, .poll 4 true, .interrupt]).scheduled =
        false := by
  have h := (poll_contract ⟨waiting [false], true⟩ (fresh_waiting [false]) (.inl rfl)
    [.poll 1 true, .poll 4 true, .interrupt] (by decide +kernel)).1
  have hsch : (run step ⟨waiting [false], true⟩
      [.poll 1 true, .poll 4 true, .interrupt]).scheduled = false := by
    decide +kernel
  rw [hsch] at h
  exact ⟨h.resolve_left (by decide), hsch⟩

/-- Two frames and a failed allocation. -/
def stuck : Napi := run step ⟨waiting [false], true⟩ [.poll 4 true]

/-- If the first allocation fails, the frames stay without a poll and with the interrupt masked.
If the quota is used up by the last frame, the poll completes and returns the quota. -/
theorem poll_contract_broken :
    ((rxPoll 4 true (waiting [false])).workDone = 1 ∧
      (rxPoll 4 true (waiting [false])).completed = false ∧
      stuck.scheduled = false ∧ stuck.priv.rbneiMasked = true ∧
      stuck.priv.dev.queue.frameCount = 2) ∧
    (rxPoll 2 true (waiting [])).workDone = 2 ∧ (rxPoll 2 true (waiting [])).completed = true := by
  decide +kernel

end Napi

end Driver
