import CtuCanFd.Lib.SyncMachine
import CtuCanFd.Prescaler.SegmentEnd
import Mathlib.Data.List.Chain

/-!
# TX triggers and sample triggers

An edge may end TSEG2 in the clock cycle after the sample point. The TX trigger then
meets the second of the two sample triggers and is put off by one cycle, into the first
cycle of TSEG1. With three quanta, of which synchronisation takes one, TSEG1 does not
end in that cycle, for either bit time.
-/

namespace Prescaler

open SyncMachine

variable {b : Btr} {s : State} {i : Input}

/-- Once it has started the prescaler is not disabled. -/
def StaysEnabled (s : State) (i : Input) : Prop := s.bitTime = .reset ∨ i.mrSettingsEna = true

instance (s : State) (i : Input) : Decidable (StaysEnabled s i) :=
  inferInstanceAs (Decidable (_ ∨ _))

structure Disciplined (s : State) : Prop where
  tseg1 : ∀ r, 3 ≤ (s.rate r).tseg1 ∧ (s.rate r).tseg1 < 2 ^ (widths r).exp
  ena : s.bitTime ≠ .reset → s.mrSettingsEnaReg = true
  ena2 : s.bitTime = .tseg2 → s.mrSettingsEnaReg2 = true
  sampled : s.rxTrigReqQ = true → s.bitTime = .tseg2
  -- a TX trigger that was put off finds TSEG1 in its first cycle
  putOff : s.txTrigReqFlagQ = true → s.bitTime = .tseg1 ∧
    ∀ r, cnt s r = 0 ∧ 2 ≤ len s r ∧ len s r < 2 ^ (widths r).exp

/-! ## Requests -/

theorem rxTrigReq_iff : rxTrigReq b s i = true ↔ s.bitTime = .tseg1 ∧ segmEnd b s i = true := by
  simp [rxTrigReq, isTseg1]

theorem txTrigReq_iff : txTrigReq b s i = true ↔
    (s.bitTime = .reset ∧ i.mrSettingsEna = true) ∨ (s.bitTime = .tseg2 ∧ segmEnd b s i = true) := by
  simp [txTrigReq, isTseg2]

/-- The expected length of a TSEG1 that has just started. -/
theorem len_bitStart {r : BitRate} (hst : startEdge s = false) (ht : s.bitTime = .tseg2)
    (he : segmEnd b s i = true) (h1 : 1 ≤ (s.rate r).tseg1)
    (hf : (s.rate r).tseg1 < 2 ^ (widths r).exp) :
    len (step b s i) r = (s.rate r).tseg1 ∨ len (step b s i) r = (s.rate r).tseg1 - 1 := by
  rw [len, rate_step]
  by_cases hx : hSyncValid b s i = true ∨
      BitSegmentMeter.shortenTseg1AfterTseg2 (widths r) (meterInput b s i r) = true
  · exact .inr (len_restart hst h1 hf hx)
  · simp only [not_or, Bool.not_eq_true] at hx
    rw [len_end hst he hx.1 hx.2, if_pos ht]
    exact .inl rfl

namespace Disciplined

/-- The first cycle of TSEG1 is not the last one. -/
theorem putOff_noSample (h : Disciplined s) (hf : s.txTrigReqFlagQ = true) :
    rxTrigReq b s i = false := by
  obtain ⟨ht, hr⟩ := h.putOff hf
  obtain ⟨hc, hl, hw⟩ := hr (rateOf i.spControl)
  have hexit : exitSegmReq b s i (rateOf i.spControl) = false := by
    rw [exitReq_tseg1 ht (by omega) hw, hc]
    have hlong : ¬ len s (rateOf i.spControl) ≤ 0 + 1 := by omega
    simp [hlong]
  by_contra hx
  have hend := (rxTrigReq_iff.mp (Bool.of_not_eq_false hx)).2
  rw [segmEnd_tseg1 rfl ht, hexit] at hend
  simp at hend

theorem putOff_noRequest (h : Disciplined s) (hf : s.txTrigReqFlagQ = true) :
    txTrigReq b s i = false := by
  by_contra hx
  obtain ⟨ht, -⟩ := h.putOff hf
  rcases txTrigReq_iff.mp (Bool.of_not_eq_false hx) with ⟨hb, -⟩ | ⟨hb, -⟩ <;>
    exact absurd (ht.symm.trans hb) (by decide)

theorem putOff_free (h : Disciplined s) (hf : s.txTrigReqFlagQ = true) :
    s.rxTrigReqQ = false := by
  by_contra hx
  exact absurd ((h.putOff hf).1.symm.trans (h.sampled (Bool.of_not_eq_false hx))) (by decide)

theorem step_disciplined (h1 : ∀ r, 3 ≤ b.tseg1 r) (h : Disciplined s) (hok : StaysEnabled s i) :
    Disciplined (step b s i) where
  tseg1 r := by
    have hw : b.tseg1 r < 2 ^ (widths r).exp := by
      have := (length_fits b r).1
      have := exp_double r
      omega
    rw [rate_step]
    show 3 ≤ (if capture s i then b.tseg1 r else (s.rate r).tseg1) ∧
      (if capture s i then b.tseg1 r else (s.rate r).tseg1) < _
    split
    · exact ⟨h1 r, hw⟩
    · exact h.tseg1 r
  ena hb := by
    show i.mrSettingsEna = true
    by_contra hx
    exact hb (by simp [step, nextBitTime, hx])
  ena2 hb := by
    apply h.ena
    intro hr
    have hb : nextBitTime b s i = .tseg2 := hb
    rw [nextBitTime, hr] at hb
    split at hb <;> cases hb
  sampled hq := by
    obtain ⟨ht, he⟩ := rxTrigReq_iff.mp hq
    have hena : i.mrSettingsEna = true := hok.resolve_left (by simp [ht])
    simp [step, nextBitTime, hena, ht, he]
  putOff hq := by
    have hq : s.rxTrigReqQ = true ∧ (txTrigReq b s i = true ∨ s.txTrigReqFlagQ = true) := by
      have hset : (if s.rxTrigReqQ && txTrigReq b s i then true
          else if !s.rxTrigReqQ then false else s.txTrigReqFlagQ) = true := hq
      cases hr : s.rxTrigReqQ
      · simp [hr] at hset
      · exact ⟨rfl, by simpa [hr] using hset⟩
    have ht2 := h.sampled hq.1
    have hreq : txTrigReq b s i = true := by
      refine hq.2.resolve_right fun hf => ?_
      exact absurd (hq.1.symm.trans (h.putOff_free hf)) (by decide)
    have he : segmEnd b s i = true := by
      rcases txTrigReq_iff.mp hreq with ⟨hb, -⟩ | ⟨-, he⟩
      · exact absurd (ht2.symm.trans hb) (by decide)
      · exact he
    have hena : i.mrSettingsEna = true := hok.resolve_left (by simp [ht2])
    refine ⟨by simp [step, nextBitTime, hena, ht2, he], fun r => ?_⟩
    obtain ⟨h3, hw⟩ := h.tseg1 r
    have hst : startEdge s = false := by simp [startEdge, h.ena2 ht2]
    refine ⟨cnt_clear (by simp [btCtrClear, he]), ?_⟩
    rcases len_bitStart hst ht2 he (by omega) hw with hl | hl <;> rw [hl] <;> omega

theorem of_reset : Disciplined reset where
  tseg1 r := by cases r <;> decide
  ena h := absurd rfl h
  ena2 h := absurd h (by decide)
  sampled h := absurd h (by decide)
  putOff h := absurd h (by decide)

end Disciplined

/-! ## Whole runs -/

inductive Event where
  | transmit
  | sample
deriving DecidableEq, Repr

/-- The triggers of one cycle, the sample trigger being `rx_triggers(1)`. -/
def events (b : Btr) (s : State) (i : Input) : List Event :=
  (if txTrigger b s i then [.transmit] else []) ++ (if rxTrigReq b s i then [.sample] else [])

/-- The TX triggers asked for, and the triggers given. -/
structure Ledger where
  requests : Nat
  log : List Event
deriving DecidableEq, Repr

def Ledger.next (b : Btr) (l : Ledger) (s : State) (i : Input) : Ledger where
  requests := l.requests + (txTrigReq b s i).toNat
  log := l.log ++ events b s i

def ledgered (b : Btr) : State × Ledger → Input → State × Ledger := watched (step b) (Ledger.next b)

/-- The trigger given last, from where the prescaler is. -/
def lastEvent (s : State) : Option Event :=
  match s.bitTime with
  | .reset => none
  | .tseg1 => if s.txTrigReqFlagQ then some .sample else some .transmit
  | .tseg2 => some .sample

structure Kept (p : State × Ledger) : Prop where
  disciplined : Disciplined p.1
  alternate : p.2.log.IsChain (· ≠ ·)
  last : p.2.log.getLast? = lastEvent p.1
  served : p.2.requests = p.2.log.count .transmit + p.1.txTrigReqFlagQ.toNat

namespace Disciplined

theorem txTrigger_alone (h : Disciplined s) (ht : txTrigger b s i = true) :
    rxTrigReq b s i = false ∧ s.rxTrigReqQ = false := by
  have hq : s.rxTrigReqQ = false := by
    by_contra hq
    simp [txTrigger, hq] at ht
  refine ⟨?_, hq⟩
  have ht : txTrigReq b s i = true ∨ s.txTrigReqFlagQ = true := by simpa [txTrigger, hq] using ht
  rcases ht with ht | hf
  · by_contra hx
    have h1 := (rxTrigReq_iff.mp (Bool.of_not_eq_false hx)).1
    rcases txTrigReq_iff.mp ht with ⟨hb, -⟩ | ⟨hb, -⟩ <;>
      exact absurd (h1.symm.trans hb) (by decide)
  · exact h.putOff_noSample hf

/-- A request is put off by the second sample trigger, and not for longer. -/
theorem flag_step (h : Disciplined s) :
    (step b s i).txTrigReqFlagQ = (s.rxTrigReqQ && txTrigReq b s i) := by
  have hf : s.rxTrigReqQ = true → s.txTrigReqFlagQ = false := by
    intro hq
    by_contra hf
    exact absurd (hq.symm.trans (h.putOff_free (Bool.of_not_eq_false hf))) (by decide)
  show (if s.rxTrigReqQ && txTrigReq b s i then true
    else if !s.rxTrigReqQ then false else s.txTrigReqFlagQ) = _
  cases hq : s.rxTrigReqQ
  · simp
  · simp [hf hq]

theorem txTrigger_eq (s : State) : txTrigger b s i =
    (!s.rxTrigReqQ && (txTrigReq b s i || s.txTrigReqFlagQ)) := by
  cases hq : s.rxTrigReqQ <;> simp [txTrigger, hq]

/-- Requests and triggers of one cycle. -/
theorem served_step (h : Disciplined s) :
    s.txTrigReqFlagQ.toNat + (txTrigReq b s i).toNat =
      (txTrigger b s i).toNat + (step b s i).txTrigReqFlagQ.toNat := by
  rw [h.flag_step, txTrigger_eq]
  cases hf : s.txTrigReqFlagQ
  · cases s.rxTrigReqQ <;> simp
  · simp [h.putOff_free hf, h.putOff_noRequest hf]

theorem lastEvent_transmit (h : Disciplined s) (hok : StaysEnabled s i)
    (ht : txTrigger b s i = true) :
    lastEvent s ≠ some .transmit ∧ lastEvent (step b s i) = some .transmit := by
  obtain ⟨hsample, hq⟩ := h.txTrigger_alone ht
  have hflag : (step b s i).txTrigReqFlagQ = false := by rw [h.flag_step, hq, Bool.false_and]
  have hstart : (step b s i).bitTime = .tseg1 → lastEvent (step b s i) = some .transmit := by
    intro hb
    simp [lastEvent, hb, hflag]
  rw [txTrigger_eq, hq, Bool.not_false, Bool.true_and, Bool.or_eq_true] at ht
  rcases ht with ht | hf
  · rcases txTrigReq_iff.mp ht with ⟨hb, hena⟩ | ⟨hb, he⟩
    · refine ⟨by simp [lastEvent, hb], hstart ?_⟩
      simp [step, nextBitTime, hena, hb]
    · have hena : i.mrSettingsEna = true := hok.resolve_left (by simp [hb])
      refine ⟨by simp [lastEvent, hb], hstart ?_⟩
      simp [step, nextBitTime, hena, hb, he]
  · have hb := (h.putOff hf).1
    have he : segmEnd b s i = false := by
      by_contra he
      have := rxTrigReq_iff.mpr ⟨hb, Bool.of_not_eq_false he⟩
      exact absurd (hsample.symm.trans this) (by decide)
    have hena : i.mrSettingsEna = true := hok.resolve_left (by simp [hb])
    exact ⟨by simp [lastEvent, hb, hf], hstart ((bitTime_hold hena (by simp [hb]) he).trans hb)⟩

theorem lastEvent_sample (h : Disciplined s) (hok : StaysEnabled s i)
    (hr : rxTrigReq b s i = true) :
    lastEvent s = some .transmit ∧ lastEvent (step b s i) = some .sample := by
  obtain ⟨hb, he⟩ := rxTrigReq_iff.mp hr
  have hf : s.txTrigReqFlagQ = false := by
    by_contra hf
    exact absurd (hr.symm.trans (h.putOff_noSample (Bool.of_not_eq_false hf))) (by decide)
  have hena : i.mrSettingsEna = true := hok.resolve_left (by simp [hb])
  have hb' : (step b s i).bitTime = .tseg2 := by simp [step, nextBitTime, hena, hb, he]
  exact ⟨by simp [lastEvent, hb, hf], by simp [lastEvent, hb']⟩

theorem lastEvent_none (h : Disciplined s) (hok : StaysEnabled s i)
    (ht : txTrigger b s i = false) (hr : rxTrigReq b s i = false) :
    lastEvent (step b s i) = lastEvent s := by
  have hflag := h.flag_step (b := b) (i := i)
  rw [txTrigger_eq] at ht
  cases hb : s.bitTime with
  | reset =>
    have hq : s.rxTrigReqQ = false := by
      by_contra hq
      exact absurd (hb.symm.trans (h.sampled (Bool.of_not_eq_false hq))) (by decide)
    have hreq : txTrigReq b s i = false := by
      by_contra hx
      simp [hq, hx] at ht
    have hena : i.mrSettingsEna = false := by
      by_contra hena
      exact absurd (hreq.symm.trans (txTrigReq_iff.mpr (.inl ⟨hb, Bool.of_not_eq_false hena⟩)))
        (by decide)
    have hb' : (step b s i).bitTime = .reset := by simp [step, nextBitTime, hena]
    simp [lastEvent, hb, hb']
  | tseg1 =>
    have hena : i.mrSettingsEna = true := hok.resolve_left (by simp [hb])
    have hq : s.rxTrigReqQ = false := by
      by_contra hq
      exact absurd (hb.symm.trans (h.sampled (Bool.of_not_eq_false hq))) (by decide)
    have hf : s.txTrigReqFlagQ = false := by
      by_contra hf
      simp [hq, hf] at ht
    have he : segmEnd b s i = false := by
      by_contra he
      exact absurd (hr.symm.trans (rxTrigReq_iff.mpr ⟨hb, Bool.of_not_eq_false he⟩)) (by decide)
    have hb' := (bitTime_hold hena (by simp [hb]) he).trans hb
    simp [lastEvent, hb, hb', hf, hflag, hq]
  | tseg2 =>
    have hena : i.mrSettingsEna = true := hok.resolve_left (by simp [hb])
    cases he : segmEnd b s i
    · have hb' := (bitTime_hold hena (by simp [hb]) he).trans hb
      simp [lastEvent, hb, hb']
    -- the end of TSEG2 meets the second sample trigger
    · have hreq : txTrigReq b s i = true := txTrigReq_iff.mpr (.inr ⟨hb, he⟩)
      have hq : s.rxTrigReqQ = true := by simpa [hreq] using ht
      have hb' : (step b s i).bitTime = .tseg1 := by simp [step, nextBitTime, hena, hb, he]
      simp [lastEvent, hb, hb', hflag, hq, hreq]

end Disciplined

namespace Kept

variable {p : State × Ledger}

theorem alternate_append (h : Kept p) {e : Event} (he : lastEvent p.1 ≠ some e) :
    (p.2.log ++ [e]).IsChain (· ≠ ·) := by
  refine List.isChain_append.mpr ⟨h.alternate, List.isChain_singleton e, ?_⟩
  intro x hx y hy hxy
  rw [h.last, Option.mem_def] at hx
  rw [List.head?_cons, Option.mem_some_iff] at hy
  exact he (hx.trans (congrArg some (hxy.trans hy.symm)))

theorem step_kept (h1 : ∀ r, 3 ≤ b.tseg1 r) (h : Kept p) (hok : StaysEnabled p.1 i) :
    Kept (ledgered b p i) := by
  have hd := h.disciplined
  have hserved := hd.served_step (b := b) (i := i)
  have hreq : (ledgered b p i).2.requests = p.2.requests + (txTrigReq b p.1 i).toNat := rfl
  have hlog : (ledgered b p i).2.log = p.2.log ++ events b p.1 i := rfl
  have hstate : (ledgered b p i).1 = step b p.1 i := rfl
  have hold := h.served
  have hd' := hd.step_disciplined h1 hok
  by_cases ht : txTrigger b p.1 i = true
  · have hev : events b p.1 i = [.transmit] := by
      simp [events, ht, (hd.txTrigger_alone ht).1]
    obtain ⟨hne, hlast⟩ := hd.lastEvent_transmit hok ht
    rw [hev] at hlog
    rw [ht, Bool.toNat_true] at hserved
    refine ⟨hd', ?_, ?_, ?_⟩ <;> rw [hlog]
    · exact h.alternate_append hne
    · rw [List.getLast?_concat, hstate, hlast]
    · rw [hreq, List.count_append, List.count_singleton_self, hstate]
      omega
  · have ht : txTrigger b p.1 i = false := by simpa using ht
    rw [ht, Bool.toNat_false] at hserved
    by_cases hr : rxTrigReq b p.1 i = true
    · have hev : events b p.1 i = [.sample] := by simp [events, ht, hr]
      obtain ⟨hprev, hlast⟩ := hd.lastEvent_sample hok hr
      rw [hev] at hlog
      refine ⟨hd', ?_, ?_, ?_⟩ <;> rw [hlog]
      · exact h.alternate_append (by rw [hprev]; decide)
      · rw [List.getLast?_concat, hstate, hlast]
      · rw [hreq, List.count_append, hstate, show [Event.sample].count .transmit = 0 from rfl]
        omega
    · have hr : rxTrigReq b p.1 i = false := by simpa using hr
      have hev : events b p.1 i = [] := by simp [events, ht, hr]
      rw [hev, List.append_nil] at hlog
      refine ⟨hd', ?_, ?_, ?_⟩ <;> rw [hlog]
      · exact h.alternate
      · rw [h.last, hstate, hd.lastEvent_none hok ht hr]
      · rw [hreq, hstate]
        omega

theorem of_reset : Kept (reset, ⟨0, []⟩) :=
  ⟨.of_reset, .nil, rfl, rfl⟩

end Kept

/-- In every run of a prescaler that is not disabled again, with at least three quanta
in both TSEG1 and whatever edges: TX triggers and sample triggers take turns; every
request but one that is put off in this cycle has had its TX trigger; a TX trigger comes
with neither of the sample triggers; a request without a TX trigger in its cycle has it
in the next one, and no TX trigger comes without a request of its own. -/
theorem trigger_discipline (b : Btr) (h1 : ∀ r, 3 ≤ b.tseg1 r) (is : List Input) (i j : Input)
    (h : Admits (ledgered b) (fun p i => StaysEnabled p.1 i) (reset, ⟨0, []⟩) (is ++ [i, j])) :
    let p := run (ledgered b) (reset, ⟨0, []⟩) is
    let s := p.1
    let s' := step b s i
    p.2.log.IsChain (· ≠ ·) ∧
      p.2.requests = p.2.log.count .transmit + s.txTrigReqFlagQ.toNat ∧
      (txTrigger b s i = true → rxTrigReq b s i = false ∧ s.rxTrigReqQ = false) ∧
      (txTrigReq b s i = true → txTrigger b s i = true ∨
        (txTrigger b s' j = true ∧ txTrigReq b s' j = false)) ∧
      (txTrigger b s' j = true → txTrigReq b s' j = true ∨
        (txTrigReq b s i = true ∧ txTrigger b s i = false)) := by
  intro p s s'
  obtain ⟨hrun, hi, -, -⟩ := (admits_append _ _ _ _ _).mp h
  have hk : Kept p := run_invariant (ledgered b) (fun p i => StaysEnabled p.1 i) Kept
    (fun _ _ hp hok => hp.step_kept h1 hok) .of_reset is hrun
  have hd : Disciplined s := hk.disciplined
  have hd' : Disciplined s' := hd.step_disciplined h1 hi
  have hflag : s'.txTrigReqFlagQ = (s.rxTrigReqQ && txTrigReq b s i) := hd.flag_step
  refine ⟨hk.alternate, hk.served, hd.txTrigger_alone, ?_, ?_⟩
  · intro hreq
    cases hq : s.rxTrigReqQ
    · exact .inl (by simp [Disciplined.txTrigger_eq, hq, hreq])
    · have hf : s'.txTrigReqFlagQ = true := by simp [hflag, hq, hreq]
      refine .inr ⟨?_, hd'.putOff_noRequest hf⟩
      simp [Disciplined.txTrigger_eq, hd'.putOff_free hf, hf]
  · intro ht
    rw [Disciplined.txTrigger_eq, Bool.and_eq_true, Bool.or_eq_true] at ht
    refine ht.2.imp_right fun hf => ?_
    rw [hflag, Bool.and_eq_true] at hf
    exact ⟨hf.2, by simp [txTrigger, hf.1]⟩

/-- TSEG1 of three quanta and TSEG2 of two, one clock cycle each. -/
def tightBtr : Btr where
  prop := 2
  ph1 := 0
  ph2 := 2
  brp := 1
  sjw := 2
  propFd := 2
  ph1Fd := 0
  ph2Fd := 2
  brpFd := 1
  sjwFd := 1

/-- The first bit, and the second one up to its sample point. -/
def twoBits : List Input := List.replicate 8 (nominalCycle false .reSync)

/-- The edge ends TSEG2 in the cycle after the sample point, and the TX trigger is put
off by one cycle. -/
theorem trigger_discipline_putOff :
    let s := (run (ledgered tightBtr) (reset, ⟨0, []⟩) twoBits).1
    let s' := step tightBtr s (nominalCycle true .reSync)
    s.rxTrigReqQ = true ∧ txTrigReq tightBtr s (nominalCycle true .reSync) = true ∧
      txTrigger tightBtr s (nominalCycle true .reSync) = false ∧
      txTrigger tightBtr s' (nominalCycle false .reSync) = true := by
  have h := trigger_discipline tightBtr (fun r => by cases r <;> decide) twoBits
    (nominalCycle true .reSync) (nominalCycle false .reSync) (by decide +kernel)
  refine ⟨by decide +kernel, by decide +kernel, by decide +kernel, ?_⟩
  exact ((h.2.2.2.1 (by decide +kernel)).resolve_left (by decide +kernel)).1

end Prescaler
