import CtuCanFd.Prescaler.Segments

/-!
# Every segment ends

The bit rate may change with a new segment, as the sample control does after a
sample point; inside a segment it is held. Edges are not restricted at all: the
bound does not need them to be aligned to time quanta. With a TSEG1 of a single
quantum the bound is lost, since a restarted TSEG1 has one quantum less.
-/

namespace Prescaler

variable {b : Btr} {s : State} {i : Input} {r : BitRate}

/-! ## Counters -/

/-- The limits the prescaler asserts. -/
structure MinLengths (b : Btr) (r : BitRate) : Prop where
  tseg1 : 2 < b.tseg1 r * b.brpOf r
  tseg2 : 1 < b.tseg2 r * b.brpOf r

theorem MinLengths.brp_pos (h : MinLengths b r) : 1 ≤ b.brpOf r := by
  rcases Nat.eq_zero_or_pos (b.brpOf r) with h0 | h0
  · have := h.tseg1
    rw [h0] at this
    omega
  · exact h0

theorem MinLengths.tseg2_pos (h : MinLengths b r) : 1 ≤ b.tseg2 r := by
  rcases Nat.eq_zero_or_pos (b.tseg2 r) with h0 | h0
  · have := h.tseg2
    rw [h0] at this
    omega
  · exact h0

theorem cnt_clear (h : btCtrClear b s i = true) : cnt (step b s i) r = 0 := by
  simp [cnt, stepRate, BitTimeCounters.step, h]

theorem tq_clear (h : btCtrClear b s i = true) (hen : i.ctrsEn r = true) :
    tq (step b s i) r = 1 := by
  simp [tq, stepRate, BitTimeCounters.step, h, hen]

/-- The time quanta counter stays between one and the prescaler. -/
theorem tq_step (h : 1 ≤ tq s r ∧ tq s r ≤ b.brpOf r) :
    1 ≤ tq (step b s i) r ∧ tq (step b s i) r ≤ b.brpOf r := by
  have hf := (length_fits b r).2.2.2
  have hq : tq (step b s i) r = if i.ctrsEn r then
      (if (s.rate r).ctrs.tqEdge (b.brpOf r) || btCtrClear b s i then 1
        else (tq s r + 1) % 2 ^ brpWidth) else tq s r := by
    rw [tq, rate_step]
    rfl
  rw [hq]
  cases i.ctrsEn r
  · exact h
  · by_cases hx : ((s.rate r).ctrs.tqEdge (b.brpOf r) || btCtrClear b s i) = true
    · simpa [hx] using h.1.trans h.2
    · have hne : tq s r ≠ b.brpOf r := by
        simp only [Bool.or_eq_true, BitTimeCounters.tqEdge, beq_iff_eq, not_or] at hx
        exact hx.1
      rw [if_pos rfl, if_neg hx, Nat.mod_eq_of_lt (by omega)]
      omega

/-- One cycle of a running segment: a quantum goes on or the next one starts. -/
theorem ctrs_tick (hc : btCtrClear b s i = false) (hen : i.ctrsEn r = true)
    (ht : 1 ≤ tq s r ∧ tq s r ≤ b.brpOf r) (hw : cnt s r + 1 < 2 ^ (widths r).bt) :
    (tq s r = b.brpOf r ∧ cnt (step b s i) r = cnt s r + 1 ∧ tq (step b s i) r = 1) ∨
      (tq s r < b.brpOf r ∧ cnt (step b s i) r = cnt s r ∧
        tq (step b s i) r = tq s r + 1) := by
  have hf := (length_fits b r).2.2.2
  by_cases hq : tq s r = b.brpOf r
  · left
    have he : (s.rate r).ctrs.tqEdge (b.brpOf r) = true := beq_iff_eq.mpr hq
    refine ⟨hq, ?_, ?_⟩
    · simpa [cnt, stepRate, BitTimeCounters.step, hc, hen, he] using Nat.mod_eq_of_lt hw
    · simp [tq, stepRate, BitTimeCounters.step, hen, he]
  · right
    have he : (s.rate r).ctrs.tqEdge (b.brpOf r) = false := beq_eq_false_iff_ne.mpr hq
    have hm : (tq s r + 1) % 2 ^ brpWidth = tq s r + 1 := Nat.mod_eq_of_lt (by omega)
    refine ⟨by omega, ?_, ?_⟩
    · simp [cnt, stepRate, BitTimeCounters.step, hc, he]
    · simpa [tq, stepRate, BitTimeCounters.step, hc, hen, he] using hm

/-- Cycles since the counters were cleared, read off the counters. -/
theorem elapsed_tick (hc : btCtrClear b s i = false) (hen : i.ctrsEn r = true)
    (ht : 1 ≤ tq s r ∧ tq s r ≤ b.brpOf r) (hw : cnt s r + 1 < 2 ^ (widths r).bt) :
    cnt (step b s i) r * b.brpOf r + tq (step b s i) r = cnt s r * b.brpOf r + tq s r + 1 := by
  rcases ctrs_tick hc hen ht hw with ⟨h1, h2, h3⟩ | ⟨-, h2, h3⟩
  · rw [h2, h3, h1, Nat.succ_mul]
  · rw [h2, h3, Nat.add_assoc]

/-! ## Invariant -/

/-- What holds of every run after its first cycle. -/
structure Running (b : Btr) (s : State) (r : BitRate) : Prop where
  bitTime : s.bitTime ≠ .reset
  ena : s.mrSettingsEnaReg = true
  tseg1 : (s.rate r).tseg1 = b.tseg1 r
  tq : 1 ≤ tq s r ∧ tq s r ≤ b.brpOf r

theorem Running.step (h : Running b s r) (hena : i.mrSettingsEna = true) :
    Running b (step b s i) r where
  bitTime := by
    have := h.bitTime
    simp only [Prescaler.step, nextBitTime, hena]
    cases hb : s.bitTime <;> simp_all <;> split <;> simp
  ena := hena
  tseg1 := by simp [stepRate, capture, h.ena, h.tseg1]
  tq := tq_step h.tq

theorem Running.startEdge_eq (h : Running b s r) : startEdge s = !s.mrSettingsEnaReg2 := by
  simp [startEdge, h.ena]

theorem Running.startEdge_off (h : Running b s r) (h2 : s.mrSettingsEnaReg2 = true) :
    startEdge s = false := by
  rw [h.startEdge_eq, h2]
  rfl

/-- The first TSEG1 cycle, in which its length is not loaded yet. -/
structure Starting (b : Btr) (s : State) (r : BitRate) : Prop where
  bitTime : s.bitTime = .tseg1
  ena2 : s.mrSettingsEnaReg2 = false
  elapsed : cnt s r * b.brpOf r + tq s r ≤ 2
  len_ge : 3 ≤ len s r
  len_lt : len s r < 2 ^ (widths r).exp

structure InTseg1 (b : Btr) (s : State) (r : BitRate) : Prop where
  bitTime : s.bitTime = .tseg1
  ena2 : s.mrSettingsEnaReg2 = true
  counting : cnt s r + 1 ≤ len s r
  len_le : len s r ≤ b.tseg1 r + b.sjwOf r
  basic : s.syncFlag = false → len s r = b.tseg1 r

structure InTseg2 (b : Btr) (s : State) (r : BitRate) : Prop where
  bitTime : s.bitTime = .tseg2
  ena2 : s.mrSettingsEnaReg2 = true
  cnt_lt : cnt s r + 1 ≤ b.tseg2 r
  len_pos : 1 ≤ len s r
  len_lt : len s r < 2 ^ (widths r).exp
  -- a remembered end request stands for the expected length
  counting : (s.rate r).segmEndReqCaptQ = true ∨ (cnt s r + 1 ≤ len s r ∧ len s r ≤ b.tseg2 r)
  basic : s.syncFlag = false → len s r = b.tseg2 r

def Metered (b : Btr) (s : State) (r : BitRate) : Prop :=
  Starting b s r ∨ InTseg1 b s r ∨ InTseg2 b s r

theorem exp_double (r : BitRate) : 2 ^ (widths r).exp = 2 * 2 ^ (widths r).bt := by
  rw [widths_exp]
  ring

theorem Starting.cnt_le (h : Starting b s r) (hq : 1 ≤ tq s r) (hb : 1 ≤ b.brpOf r) :
    cnt s r ≤ 1 := by
  have := h.elapsed
  have := Nat.le_mul_of_pos_right (cnt s r) hb
  omega

theorem Metered.cnt_lt (h : Metered b s r) (hb : 1 ≤ b.brpOf r) (hq : 1 ≤ tq s r) :
    cnt s r + 1 < 2 ^ (widths r).bt := by
  have hf := length_fits b r
  rcases h with h | h | h
  · have := h.cnt_le hq hb
    have : 4 ≤ 2 ^ (widths r).bt := by cases r <;> decide
    omega
  · have := h.counting
    have := h.len_le
    omega
  · have := h.cnt_lt
    omega

/-- In TSEG1 the end is asked for in the last quantum, unless an edge lengthens the segment. -/
theorem exitReq_tseg1 (ht : s.bitTime = .tseg1) (h1 : 1 ≤ len s r)
    (hl : len s r < 2 ^ (widths r).exp) :
    exitSegmReq b s i r =
      (!(resyncEdgeValid s i && decide (0 < b.sjwOf r)) && decide (len s r ≤ cnt s r + 1)) := by
  have ht1 : (meterInput b s i r).isTseg1 = true := (inTseg1 ht).1
  have ht2 : (meterInput b s i r).isTseg2 = false := (inTseg1 ht).2
  have hv : (meterInput b s i r).resyncEdgeValid = resyncEdgeValid s i := rfl
  have hj : (meterInput b s i r).sjw = b.sjwOf r := rfl
  rw [exitSegmReq, BitSegmentMeter.exitSegmReq, exitImmediate_tseg1 ht,
    BitSegmentMeter.exitSegmRegularTseg1, BitSegmentMeter.exitSegmRegularTseg2,
    exitRegular_eq h1 hl, ht1, ht2, hv, hj]
  cases resyncEdgeValid s i <;> cases decide (0 < b.sjwOf r) <;> simp

theorem bitTime_hold (hena : i.mrSettingsEna = true) (hb : s.bitTime ≠ .reset)
    (he : segmEnd b s i = false) : (step b s i).bitTime = s.bitTime := by
  simp only [step, nextBitTime, hena, he]
  cases h : s.bitTime <;> simp_all

theorem syncFlag_hold (he : segmEnd b s i = false) (h : (step b s i).syncFlag = false) :
    s.syncFlag = false := by
  simp only [step, nextSyncFlag, he] at h
  split at h <;> simp_all

section Step

variable (hm : MinLengths b r) (h1 : 2 ≤ b.tseg1 r) (hrun : Running b s r)
  (hena : i.mrSettingsEna = true) (hr : rateOf i.spControl = r)

include hm h1 hrun hena hr

omit h1 hr in
theorem Starting.tick (h : Starting b s r) (hc : btCtrClear b s i = false)
    (hen : i.ctrsEn r = true) : InTseg1 b (step b s i) r := by
  have he : segmEnd b s i = false := (Bool.or_eq_false_iff.mp hc).1
  have hst : startEdge s = true := by rw [hrun.startEdge_eq, h.ena2]; rfl
  have hlen : len (step b s i) r = b.tseg1 r := by
    rw [len, rate_step, len_start hst, hrun.tseg1]
  have hel := elapsed_tick hc hen (hrun.tq)
    (Metered.cnt_lt (.inl h) hm.brp_pos hrun.tq.1)
  have hq := (hrun.step hena (i := i)).tq
  -- at most two cycles have been counted, less than the asserted length of TSEG1
  have hlt : cnt (step b s i) r < b.tseg1 r := by
    have h2 := h.elapsed
    have h3 := hm.tseg1
    exact Nat.lt_of_mul_lt_mul_right (a := b.brpOf r) (by omega)
  exact
    { bitTime := (bitTime_hold hena hrun.bitTime he).trans h.bitTime
      ena2 := hrun.ena
      counting := by rw [hlen]; exact hlt
      len_le := by rw [hlen]; exact Nat.le_add_right ..
      basic := fun _ => hlen }

theorem InTseg1.tick (h : InTseg1 b s r) (hc : btCtrClear b s i = false)
    (hen : i.ctrsEn r = true) : InTseg1 b (step b s i) r := by
  obtain ⟨he, hh⟩ := Bool.or_eq_false_iff.mp hc
  have hf := length_fits b r
  have hp := exp_double r
  have hcount := h.counting
  have hle := h.len_le
  have hst := hrun.startEdge_off h.ena2
  have htick := ctrs_tick hc hen (hrun.tq)
    (Metered.cnt_lt (.inr (.inl h)) hm.brp_pos hrun.tq.1)
  have hend := segmEnd_tseg1 (b := b) hr h.bitTime
  rw [he, hh, exitReq_tseg1 h.bitTime (by omega) (by omega)] at hend
  have hbt := (bitTime_hold hena hrun.bitTime he).trans h.bitTime
  cases hv : resyncEdgeValid s i
  · have hlen : len (step b s i) r = len s r := by
      rw [len, rate_step, len_hold hst he (by simp [edgeUsed, hv, hh])]
    refine ⟨hbt, hrun.ena, ?_, by rw [hlen]; exact hle, fun hfl => ?_⟩
    · rw [hlen]
      rcases htick with ⟨hq, h2, -⟩ | ⟨-, h2, -⟩
      · simp [hv, BitTimeCounters.tqEdge, hq] at hend
        omega
      · omega
    · rw [hlen]
      exact h.basic (syncFlag_hold he hfl)
  · have hflag : s.syncFlag = false := by
      simp only [resyncEdgeValid, Bool.and_eq_true, Bool.not_eq_true'] at hv
      exact hv.1.2
    have hL := h.basic hflag
    have hlen : len (step b s i) r = b.tseg1 r + min (cnt s r) (b.sjwOf r) := by
      rw [len, rate_step, len_late hst h.bitTime hv he (hrun.tseg1)]
    refine ⟨hbt, hrun.ena, ?_, by rw [hlen]; omega, fun hfl => ?_⟩
    · rw [hlen]
      rcases htick with ⟨hq, h2, -⟩ | ⟨-, h2, -⟩
      · -- the last quantum: without a jump width the segment would have ended
        simp [hv, BitTimeCounters.tqEdge, hq] at hend
        omega
      · omega
    · rw [syncFlag_of_used (by simp [edgeUsed, hv])] at hfl
      cases hfl

omit hm h1 hrun hena in
/-- In the last cycle of a quantum of TSEG2 that goes on nothing asks for its end. -/
theorem InTseg2.unasked (h : InTseg2 b s r) (hc : btCtrClear b s i = false)
    (hq : tq s r = b.brpOf r) :
    exitSegmReq b s i r = false ∧ (s.rate r).segmEndReqCaptQ = false := by
  obtain ⟨he, hh⟩ := Bool.or_eq_false_iff.mp hc
  have hend := segmEnd_tseg2 (b := b) hr h.bitTime
  rw [he, hh] at hend
  simpa [BitTimeCounters.tqEdge, hq] using hend

omit h1 in
theorem InTseg2.tick_quiet (h : InTseg2 b s r) (hc : btCtrClear b s i = false)
    (hen : i.ctrsEn r = true) (hv : resyncEdgeValid s i = false) :
    InTseg2 b (step b s i) r := by
  obtain ⟨he, hh⟩ := Bool.or_eq_false_iff.mp hc
  have hlt := h.cnt_lt
  have htick := ctrs_tick hc hen hrun.tq (Metered.cnt_lt (.inr (.inr h)) hm.brp_pos hrun.tq.1)
  have hlen : len (step b s i) r = len s r := by
    rw [len, rate_step, len_hold (hrun.startEdge_off h.ena2) he (by simp [edgeUsed, hv, hh])]
  have hreq := exitReq_of_no_resync (b := b) hv hrun.bitTime h.len_pos h.len_lt
  have hnext : ((step b s i).rate r).segmEndReqCaptQ = true ∨
      (cnt (step b s i) r + 1 ≤ len s r ∧ len s r ≤ b.tseg2 r) := by
    rcases h.counting with hx | ⟨hx, hy⟩
    · left
      simp [stepRate, he, hx]
    · right
      rcases htick with ⟨hq, h2, -⟩ | ⟨-, h2, -⟩
      · have := (h.unasked hr hc hq).1
        rw [hreq, decide_eq_false_iff_not] at this
        omega
      · omega
  refine ⟨(bitTime_hold hena hrun.bitTime he).trans h.bitTime, hrun.ena, ?_,
    by rw [hlen]; exact h.len_pos, by rw [hlen]; exact h.len_lt, by rw [hlen]; exact hnext,
    fun hfl => by rw [hlen]; exact h.basic (syncFlag_hold he hfl)⟩
  rcases htick with ⟨hq, h2, -⟩ | ⟨-, h2, -⟩
  · obtain ⟨hx, hy⟩ := h.unasked hr hc hq
    rw [hreq, decide_eq_false_iff_not] at hx
    rcases h.counting with hz | ⟨-, hz⟩
    · rw [hy] at hz
      cases hz
    · omega
  · omega

theorem InTseg2.tick_edge (h : InTseg2 b s r) (hc : btCtrClear b s i = false)
    (hen : i.ctrsEn r = true) (hv : resyncEdgeValid s i = true) :
    InTseg2 b (step b s i) r := by
  obtain ⟨he, -⟩ := Bool.or_eq_false_iff.mp hc
  have hf := length_fits b r
  have hp := exp_double r
  have hlt := h.cnt_lt
  have hst := hrun.startEdge_off h.ena2
  have htick := ctrs_tick hc hen hrun.tq (Metered.cnt_lt (.inr (.inr h)) hm.brp_pos hrun.tq.1)
  have hbt := (bitTime_hold hena hrun.bitTime he).trans h.bitTime
  have hflag : ¬ (step b s i).syncFlag = false := by
    rw [syncFlag_of_used (by simp [edgeUsed, hv])]
    decide
  have hx := exitImmediate_tseg2 (b := b) h.bitTime hv (r := r) (by omega)
  by_cases hj : b.tseg2 r - cnt s r ≤ b.sjwOf r + 1
  · -- the request is remembered until the quantum ends
    have hreq : exitSegmReq b s i r = true := by
      simp [exitSegmReq, BitSegmentMeter.exitSegmReq, hx, hj]
    have hcnt : cnt (step b s i) r = cnt s r := by
      rcases htick with ⟨hq, -, -⟩ | ⟨-, h2, -⟩
      · rw [(h.unasked hr hc hq).1] at hreq
        cases hreq
      · exact h2
    have hlen : 1 ≤ len (step b s i) r ∧ len (step b s i) r < 2 ^ (widths r).exp := by
      by_cases hs : b.tseg2 r - cnt s r ≤ b.sjwOf r
      · rw [len, rate_step, len_restart hst (by rw [hrun.tseg1]; omega)
          (by rw [hrun.tseg1]; omega)
          (.inr (by rw [shorten_tseg2 h.bitTime hv (by omega), decide_eq_true hs])),
          hrun.tseg1]
        omega
      · rw [len, rate_step, len_early hst h.bitTime hv he (by omega) (by omega)]
        omega
    exact ⟨hbt, hrun.ena, by omega, hlen.1, hlen.2, .inl (by simp [stepRate, he, hreq]),
      fun hfl => absurd hfl hflag⟩
  · have hlen : len (step b s i) r = b.tseg2 r - b.sjwOf r := by
      rw [len, rate_step, len_early hst h.bitTime hv he (by omega) (by omega)]
    have hcnt : cnt (step b s i) r ≤ cnt s r + 1 := by
      rcases htick with ⟨-, h2, -⟩ | ⟨-, h2, -⟩ <;> omega
    exact ⟨hbt, hrun.ena, by omega, by omega, by omega, .inr (by omega),
      fun hfl => absurd hfl hflag⟩

theorem InTseg2.tick (h : InTseg2 b s r) (hc : btCtrClear b s i = false)
    (hen : i.ctrsEn r = true) : InTseg2 b (step b s i) r := by
  cases hv : resyncEdgeValid s i
  · exact h.tick_quiet hm hrun hena hr hc hen hv
  · exact h.tick_edge hm h1 hrun hena hr hc hen hv

omit h1 hena in
/-- The first TSEG1 cycle is too early for an end. -/
theorem Starting.no_end (h : Starting b s r) : segmEnd b s i = false := by
  have hc := h.cnt_le hrun.tq.1 hm.brp_pos
  have hl := h.len_ge
  have hn : ¬ len s r ≤ cnt s r + 1 := by omega
  simp [segmEnd_tseg1 hr h.bitTime, exitReq_tseg1 h.bitTime (by omega) h.len_lt, hn]

end Step

section Clear

variable (hm : ∀ r, MinLengths b r) (h1 : ∀ r, 2 ≤ b.tseg1 r) (hrun : ∀ r, Running b s r)
  (hena : i.mrSettingsEna = true) (hr : rateOf i.spControl = r) (h : Metered b s r)

include hm h1 hrun hena hr h

omit h1 in
/-- At the end of TSEG1 both meters load their TSEG2. -/
theorem metered_sample (he : segmEnd b s i = true) (ht : s.bitTime = .tseg1) (r' : BitRate) :
    InTseg2 b (step b s i) r' := by
  have hf := length_fits b r'
  have hp := exp_double r'
  have h2 := (hm r').tseg2_pos
  have hena2 : s.mrSettingsEnaReg2 = true := by
    rcases h with h | h | h
    · rw [h.no_end (hm r) (hrun r) hr] at he
      cases he
    · exact h.ena2
    · exact h.ena2
  have hst := (hrun r).startEdge_off hena2
  have hh : hSyncValid b s i = false := by
    rw [segmEnd_tseg1 hr ht] at he
    simpa using (Bool.and_eq_true_iff.mp he).2
  have hlen : len (step b s i) r' = b.tseg2 r' := by
    rw [len, rate_step, len_end hst he hh (shorten_of_no_exit (exitImmediate_tseg1 ht)), ht]
    rfl
  have hcnt : cnt (step b s i) r' = 0 := cnt_clear (by simp [btCtrClear, he])
  have hbt : (step b s i).bitTime = .tseg2 := by simp [step, nextBitTime, hena, ht, he]
  exact ⟨hbt, (hrun r).ena, by omega, by omega, by omega, .inr (by omega), fun _ => hlen⟩

omit hm h in
/-- At the end of TSEG2 and at a hard synchronisation both meters load their TSEG1. -/
theorem metered_restart (hc : btCtrClear b s i = true)
    (ht : s.bitTime = .tseg2 ∨ hSyncValid b s i = true) (r' : BitRate) :
    InTseg1 b (step b s i) r' := by
  have hf := length_fits b r'
  have hp := exp_double r'
  have h2 := h1 r'
  have hcnt : cnt (step b s i) r' = 0 := cnt_clear hc
  have hbt : (step b s i).bitTime = .tseg1 := by
    have hb := (hrun r).bitTime
    simp only [btCtrClear, Bool.or_eq_true] at hc
    simp only [step, nextBitTime, hena]
    cases hbt : s.bitTime
    · exact absurd hbt hb
    · have hh : hSyncValid b s i = true := ht.resolve_left (by rw [hbt]; decide)
      simp [segmEnd_tseg1 hr hbt, hh]
    · have he : segmEnd b s i = true := by
        rcases hc with hc | hc
        · exact hc
        · rw [segmEnd_tseg2 hr hbt, hc, Bool.or_true]
      simp [he]
  -- the length of TSEG1, one quantum less after an edge
  have hlen : len (step b s i) r' = b.tseg1 r' ∨
      (len (step b s i) r' = b.tseg1 r' - 1 ∧ edgeUsed b s i = true) := by
    rw [len, rate_step, ← (hrun r').tseg1]
    cases hst : startEdge s
    · by_cases hx : hSyncValid b s i = true ∨
          BitSegmentMeter.shortenTseg1AfterTseg2 (widths r') (meterInput b s i r') = true
      · right
        refine ⟨len_restart hst (by rw [(hrun r').tseg1]; omega) (by rw [(hrun r').tseg1]; omega) hx,
          ?_⟩
        rcases hx with hx | hx
        · simp [edgeUsed, hx]
        · simp only [BitSegmentMeter.shortenTseg1AfterTseg2, BitSegmentMeter.exitPh2Immediate,
            Bool.and_eq_true] at hx
          simp only [edgeUsed, Bool.or_eq_true]
          exact .inl hx.1.2
      · simp only [not_or, Bool.not_eq_true] at hx
        have hb2 : s.bitTime = .tseg2 := ht.resolve_right (by rw [hx.1]; decide)
        have he : segmEnd b s i = true := by
          simpa [btCtrClear, hx.1] using hc
        left
        rw [len_end hst he hx.1 hx.2, if_pos hb2]
    · exact .inl (len_start hst)
  refine ⟨hbt, (hrun r).ena, ?_, ?_, fun hfl => ?_⟩
  · rcases hlen with hlen | ⟨hlen, -⟩ <;> omega
  · rcases hlen with hlen | ⟨hlen, -⟩ <;> omega
  · rcases hlen with hlen | ⟨-, hu⟩
    · exact hlen
    · rw [syncFlag_of_used hu] at hfl
      cases hfl

theorem metered_clear (hc : btCtrClear b s i = true) (r' : BitRate) :
    Metered b (step b s i) r' := by
  cases hh : hSyncValid b s i
  · have he : segmEnd b s i = true := by simpa [btCtrClear, hh] using hc
    cases hbt : s.bitTime
    · exact absurd hbt (hrun r).bitTime
    · exact .inr (.inr (metered_sample hm hrun hena hr h he hbt r'))
    · exact .inr (.inl (metered_restart h1 hrun hena hr hc (.inl hbt) r'))
  · exact .inr (.inl (metered_restart h1 hrun hena hr hc (.inr hh) r'))

end Clear

theorem Metered.tick (hm : MinLengths b r) (h1 : 2 ≤ b.tseg1 r) (hrun : Running b s r)
    (hena : i.mrSettingsEna = true) (hr : rateOf i.spControl = r) (h : Metered b s r)
    (hc : btCtrClear b s i = false) (hen : i.ctrsEn r = true) : Metered b (step b s i) r := by
  rcases h with h | h | h
  · exact .inr (.inl (h.tick hm hrun hena hc hen))
  · exact .inr (.inl (h.tick hm h1 hrun hena hr hc hen))
  · exact .inr (.inr (h.tick hm h1 hrun hena hr hc hen))

/-! ## The first cycle -/

theorem first_running (hp : 1 ≤ b.brpOf r) (hena : i.mrSettingsEna = true) :
    Running b (step b reset i) r where
  bitTime := by simp [step, nextBitTime, hena, reset]
  ena := hena
  tseg1 := by
    rw [rate_step]
    simp [stepRate, capture, hena, reset]
  tq := tq_step ⟨by cases r <;> decide, by cases r <;> exact hp⟩

theorem first_len (r : BitRate) :
    3 ≤ len (step b reset i) r ∧ len (step b reset i) r < 2 ^ (widths r).exp := by
  have hst : startEdge reset = false := rfl
  rw [len, rate_step]
  cases hh : hSyncValid b reset i
  · have hv : resyncEdgeValid reset i = false := by
      simp [resyncEdgeValid, isTseg1, isTseg2, reset]
    have hu : edgeUsed b reset i = false := by simp [edgeUsed, hh, hv]
    rw [len_hold hst (segmEnd_reset rfl) hu]
    cases r <;> decide
  · rw [len_restart hst (by cases r <;> decide) (by cases r <;> decide) (.inl hh)]
    cases r <;> decide

theorem first_starting (hp : 1 ≤ b.brpOf r) (hena : i.mrSettingsEna = true) :
    Starting b (step b reset i) r where
  bitTime := by simp [step, nextBitTime, hena, reset]
  ena2 := rfl
  elapsed := by
    have hq : tq reset r = 1 := by cases r <;> rfl
    have hc : cnt reset r = 0 := by cases r <;> rfl
    cases hx : btCtrClear b reset i
    · cases hen : i.ctrsEn r
      · have h1 : tq (step b reset i) r = 1 := by
          rw [tq, rate_step, ← hq]
          simp [stepRate, BitTimeCounters.step, hen]
        have h2 : cnt (step b reset i) r = 0 := by
          rw [cnt, rate_step, ← hc]
          simp [stepRate, BitTimeCounters.step, hen, hx]
        simp [h1, h2]
      · have := elapsed_tick hx hen ⟨hq.ge, by omega⟩
          (by rw [hc]; cases r <;> decide)
        rw [hq, hc] at this
        omega
    · have h2 : cnt (step b reset i) r = 0 := cnt_clear hx
      have h1 : tq (step b reset i) r = 1 := by
        rw [tq, rate_step]
        simp [stepRate, BitTimeCounters.step, hx]
        intro _
        cases r <;> rfl
      simp [h1, h2]
  len_ge := (first_len r).1
  len_lt := (first_len r).2

/-! ## Runs -/

/-- The bit rate the current segment has been measured with, none in its first
cycle, and the cycles since the segment started or was restarted. -/
structure Segment where
  rate : Option BitRate
  age : Nat
deriving DecidableEq, Repr

def Segment.watch (b : Btr) (g : Segment) (s : State) (i : Input) : Segment where
  rate := if btCtrClear b s i then none else some (rateOf i.spControl)
  age := if btCtrClear b s i then 0 else g.age + 1

/-- An enabled node: the counters of the bit rate in use run, and the bit rate
changes with a new segment only. -/
def InUse (p : State × Segment) (i : Input) : Prop :=
  i.mrSettingsEna = true ∧ i.ctrsEn (rateOf i.spControl) = true ∧
    (p.2.rate = none ∨ p.2.rate = some (rateOf i.spControl))

instance (p : State × Segment) (i : Input) : Decidable (InUse p i) :=
  inferInstanceAs (Decidable (_ ∧ _))

def measured (b : Btr) : State × Segment → Input → State × Segment :=
  SyncMachine.watched (step b) (Segment.watch b)

def measuredReset : State × Segment := (reset, ⟨none, 0⟩)

def Measured (b : Btr) (p : State × Segment) : Prop :=
  p = measuredReset ∨ ((∀ r, Running b p.1 r) ∧ ∀ r, (p.2.rate = none ∨ p.2.rate = some r) →
    Metered b p.1 r ∧ p.2.age + 1 ≤ cnt p.1 r * b.brpOf r + tq p.1 r)

section

variable (hm : ∀ r, MinLengths b r) (h1 : ∀ r, 2 ≤ b.tseg1 r)

include hm h1

theorem measured_step (p : State × Segment) (i : Input) (h : Measured b p) (hok : InUse p i) :
    Measured b (measured b p i) := by
  obtain ⟨s, g⟩ := p
  obtain ⟨hena, hen, hrate⟩ := hok
  right
  rcases h with h | ⟨hrun, h⟩
  · obtain ⟨rfl, rfl⟩ := Prod.mk.inj h
    refine ⟨fun r => first_running (hm r).brp_pos hena,
      fun r hg => ⟨.inl (first_starting (hm r).brp_pos hena), ?_⟩⟩
    change (Segment.watch b ⟨none, 0⟩ reset i).age + 1 ≤
      cnt (step b reset i) r * b.brpOf r + tq (step b reset i) r
    cases hc : btCtrClear b reset i
    · have hr : rateOf i.spControl = r := by
        simpa [measured, SyncMachine.watched, Segment.watch, hc] using hg
      have hq : tq reset r = 1 := by cases r <;> rfl
      have hc0 : cnt reset r = 0 := by cases r <;> rfl
      have hel := elapsed_tick hc (hr ▸ hen) ⟨hq.ge, by have := (hm r).brp_pos; omega⟩
        (by rw [hc0]; cases r <;> decide)
      simp only [Segment.watch, hc]
      rw [hq, hc0] at hel
      exact (show 0 + 1 + 1 ≤ _ by omega)
    · have hq := (first_running (hm r).brp_pos hena).tq.1
      simp only [Segment.watch, hc, if_true]
      exact le_add_left hq
  · refine ⟨fun r => (hrun r).step hena, fun r hg => ?_⟩
    have hused := h _ hrate
    change Metered b (step b s i) r ∧ (Segment.watch b g s i).age + 1 ≤
      cnt (step b s i) r * b.brpOf r + tq (step b s i) r
    cases hc : btCtrClear b s i
    · have hr : rateOf i.spControl = r := by
        simpa [measured, SyncMachine.watched, Segment.watch, hc] using hg
      rw [hr] at hused
      refine ⟨hused.1.tick (hm r) (h1 r) (hrun r) hena hr hc (hr ▸ hen), ?_⟩
      have hel := elapsed_tick hc (hr ▸ hen) (hrun r).tq
        (hused.1.cnt_lt (hm r).brp_pos (hrun r).tq.1)
      have hage : g.age + 1 ≤ cnt s r * b.brpOf r + tq s r := hused.2
      simp only [Segment.watch, hc]
      exact (show g.age + 1 + 1 ≤ _ by omega)
    · refine ⟨metered_clear hm h1 hrun hena rfl hused.1 hc r, ?_⟩
      have hq := ((hrun r).step hena (i := i)).tq.1
      simp only [Segment.watch, hc, if_true]
      exact le_add_left hq

theorem run_measured (is : List Input)
    (h : SyncMachine.Admits (measured b) InUse measuredReset is) :
    Measured b (SyncMachine.run (measured b) measuredReset is) :=
  SyncMachine.run_invariant (measured b) InUse (Measured b) (measured_step hm h1) (.inl rfl) is h

end

/-! ## The bound -/

def basicLength (b : Btr) (s : State) (r : BitRate) : Nat :=
  if s.bitTime = .tseg2 then b.tseg2 r else b.tseg1 r

/-- The expected length is loaded with a difference in this cycle. -/
def loadsDifference (b : Btr) (s : State) (i : Input) (r : BitRate) : Bool :=
  BitSegmentMeter.expSegLengthCe (meterInput b s i r) (segmEnd b s i) (hSyncValid b s i) &&
    !BitSegmentMeter.useBasicSegmLength (widths r) (meterInput b s i r) (segmEnd b s i)
      (hSyncValid b s i) &&
    BitSegmentMeter.selSub (widths r) (meterInput b s i r) (hSyncValid b s i)

/-- The meter of bit rate `r` in a cycle, `age` cycles after the last restart:
the operands of its subtractions, the counter and the distance to the end. -/
structure Bounded (b : Btr) (s : State) (i : Input) (r : BitRate) (age : Nat) : Prop where
  length_pos : len s r ≠ 0
  no_underflow : loadsDifference b s i r = true →
    BitSegmentMeter.segmExtension (widths r) (meterInput b s i r) (hSyncValid b s i) ≤
      BitSegmentMeter.basicSegmLength (widths r) (meterInput b s i r) (segmEnd b s i)
        (hSyncValid b s i)
  phase_err : s.bitTime = .tseg2 → cnt s r ≤ b.tseg2 r
  no_wrap : cnt s r + 1 < 2 ^ (widths r).bt
  age_lt : age < (basicLength b s r + b.sjwOf r) * b.brpOf r

/-- A difference is loaded at a restart, with one, or after an early edge, with
the jump width. -/
theorem difference_le (h1 : 1 ≤ (s.rate r).tseg1)
    (hc : s.bitTime = .tseg2 → cnt s r ≤ b.tseg2 r)
    (hd : loadsDifference b s i r = true) :
    BitSegmentMeter.segmExtension (widths r) (meterInput b s i r) (hSyncValid b s i) ≤
      BitSegmentMeter.basicSegmLength (widths r) (meterInput b s i r) (segmEnd b s i)
        (hSyncValid b s i) := by
  simp only [loadsDifference, Bool.and_eq_true, Bool.not_eq_true'] at hd
  obtain ⟨⟨hce, hbas⟩, hsub⟩ := hd
  by_cases hx : (hSyncValid b s i ||
      BitSegmentMeter.shortenTseg1AfterTseg2 (widths r) (meterInput b s i r)) = true
  · have hsel : BitSegmentMeter.selTseg1 (widths r) (meterInput b s i r) (segmEnd b s i)
        (hSyncValid b s i) = true := by
      rcases Bool.or_eq_true_iff.mp hx with hx | hx <;> simp [BitSegmentMeter.selTseg1, hx]
    rw [BitSegmentMeter.segmExtension, hx, BitSegmentMeter.basicSegmLength, hsel]
    exact h1
  · simp only [Bool.not_eq_true, Bool.or_eq_false_iff] at hx
    obtain ⟨hh, hs⟩ := hx
    -- neither restarted: an edge in TSEG2, beyond the jump width
    have hparts : (meterInput b s i r).startEdge = false ∧ segmEnd b s i = false := by
      simpa [BitSegmentMeter.useBasicSegmLength, hh, hs] using hbas
    have hv : resyncEdgeValid s i = true := by
      have hm : (meterInput b s i r).resyncEdgeValid = resyncEdgeValid s i := rfl
      simpa [BitSegmentMeter.expSegLengthCe, hparts.1, hparts.2, hh, hm] using hce
    have ht : s.bitTime = .tseg2 := by
      rw [BitSegmentMeter.selSub, hh, BitSegmentMeter.exitPh2Immediate] at hsub
      have h2 : (meterInput b s i r).isTseg2 = true := by
        cases h2 : (meterInput b s i r).isTseg2
        · simp [h2] at hsub
        · rfl
      exact beq_iff_eq.mp h2
    have hle := hc ht
    rw [shorten_tseg2 ht hv hle, decide_eq_false_iff_not] at hs
    have hm : BitSegmentMeter.phaseErrMtSjw (widths r) (meterInput b s i r) = true := by
      rw [BitSegmentMeter.phaseErrMtSjw, phaseErr_tseg2 ht hle]
      exact decide_eq_true (not_le.mp hs)
    have hs' : BitSegmentMeter.shortenTseg1AfterTseg2 (widths r) (meterInput b s i r) = false := by
      rw [shorten_tseg2 ht hv hle, decide_eq_false hs]
    have ht1 : (meterInput b s i r).isTseg1 = false := (inTseg2 ht).1
    have hext : BitSegmentMeter.segmExtension (widths r) (meterInput b s i r)
        (hSyncValid b s i) = b.sjwOf r := by
      rw [BitSegmentMeter.segmExtension, hh, hs', hm]
      rfl
    have hsel : BitSegmentMeter.selTseg1 (widths r) (meterInput b s i r) (segmEnd b s i)
        (hSyncValid b s i) = false := by
      simp [BitSegmentMeter.selTseg1, hh, hs', ht1, hparts.1, hparts.2]
    rw [hext, BitSegmentMeter.basicSegmLength, hsel]
    exact (show b.sjwOf r ≤ b.tseg2 r by omega)

theorem Metered.bounded (hm : MinLengths b r) (h1 : 2 ≤ b.tseg1 r) (hrun : Running b s r)
    (h : Metered b s r) {age : Nat} (hage : age + 1 ≤ cnt s r * b.brpOf r + tq s r) :
    Bounded b s i r age := by
  have hq := hrun.tq
  have hc2 : s.bitTime = .tseg2 → cnt s r ≤ b.tseg2 r := by
    intro ht
    rcases h with h | h | h
    · rw [h.bitTime] at ht
      cases ht
    · rw [h.bitTime] at ht
      cases ht
    · exact (Nat.le_succ _).trans h.cnt_lt
  have hlen : len s r ≠ 0 := by
    rcases h with h | h | h
    · have := h.len_ge
      omega
    · have := h.counting
      omega
    · have := h.len_pos
      omega
  have hcl : cnt s r + 1 ≤ basicLength b s r + b.sjwOf r := by
    rw [basicLength]
    rcases h with h | h | h
    · have := h.cnt_le hq.1 hm.brp_pos
      rw [if_neg (by rw [h.bitTime]; decide)]
      omega
    · have := h.counting
      have := h.len_le
      rw [if_neg (by rw [h.bitTime]; decide)]
      omega
    · have := h.cnt_lt
      rw [if_pos h.bitTime]
      omega
  refine ⟨hlen, difference_le (by rw [hrun.tseg1]; omega) hc2, hc2,
    h.cnt_lt hm.brp_pos hq.1, ?_⟩
  have hmul := Nat.mul_le_mul_right (b.brpOf r) hcl
  rw [Nat.succ_mul] at hmul
  omega

/-- In every run and for every sequence of edges the meter in use has an
expected length other than zero, its subtractions do not underflow, its counter
does not wrap and the segment is younger than its basic length and the jump
width together, in clock cycles since its last restart. -/
theorem segments_end (b : Btr) (hm : ∀ r, MinLengths b r) (h1 : ∀ r, 2 ≤ b.tseg1 r)
    (is : List Input) (h : SyncMachine.Admits (measured b) InUse measuredReset is) (i : Input)
    (hi : InUse (SyncMachine.run (measured b) measuredReset is) i) :
    Bounded b (SyncMachine.run (measured b) measuredReset is).1 i (rateOf i.spControl)
      (SyncMachine.run (measured b) measuredReset is).2.age := by
  rcases run_measured hm h1 is h with hs | ⟨hrun, hs⟩
  · rw [hs]
    have hr1 : 1 ≤ (reset.rate (rateOf i.spControl)).tseg1 := by
      cases rateOf i.spControl <;> decide
    refine ⟨by cases rateOf i.spControl <;> decide, difference_le hr1 (fun ht => nomatch ht),
      (fun ht => nomatch ht), by cases rateOf i.spControl <;> decide, ?_⟩
    have hp := (hm (rateOf i.spControl)).brp_pos
    have ht := h1 (rateOf i.spControl)
    exact Nat.mul_pos (by rw [basicLength, if_neg nofun]; omega) hp
  · obtain ⟨hmet, hage⟩ := hs _ hi.2.2
    exact hmet.bounded (hm _) (h1 _) (hrun _) hage

/-- One nominal cycle with the counters running. -/
def nominalCycle (syncEdge : Bool) (syncControl : SyncControl) : Input where
  mrSettingsEna := true
  syncEdge := syncEdge
  spControl := .nominalSample
  syncControl := syncControl
  noPosResync := false
  nbtCtrsEn := true
  dbtCtrsEn := false

/-- TSEG1 of two quanta and TSEG2 of one, two clock cycles each. -/
def shortBtr : Btr where
  prop := 1
  ph1 := 0
  ph2 := 1
  brp := 2
  sjw := 1
  propFd := 1
  ph1Fd := 0
  ph2Fd := 1
  brpFd := 2
  sjwFd := 1

/-- Three cycles of start-up, a hard synchronisation, a sample point and an early edge. -/
def shortRun : List Input :=
  [nominalCycle false .hardSync, nominalCycle false .hardSync, nominalCycle false .hardSync,
    nominalCycle true .hardSync, nominalCycle false .reSync, nominalCycle false .reSync,
    nominalCycle false .reSync, nominalCycle true .reSync]

theorem segments_end_short :
    len (SyncMachine.run (measured shortBtr) measuredReset shortRun).1 .nominal = 1 ∧
      Bounded shortBtr (SyncMachine.run (measured shortBtr) measuredReset shortRun).1
        (nominalCycle true .reSync) .nominal
        (SyncMachine.run (measured shortBtr) measuredReset shortRun).2.age :=
  ⟨by decide +kernel, segments_end shortBtr (fun r => by cases r <;> exact ⟨by decide, by decide⟩)
    (fun r => by cases r <;> decide) shortRun (by decide +kernel) (nominalCycle true .reSync)
    (by decide +kernel)⟩

/-! ## A TSEG1 of one quantum -/

/-- One quantum of three clock cycles for TSEG1 and for TSEG2: both asserted
limits are met. -/
def singleBtr : Btr where
  prop := 0
  ph1 := 0
  ph2 := 1
  brp := 3
  sjw := 1
  propFd := 0
  ph1Fd := 0
  ph2Fd := 1
  brpFd := 3
  sjwFd := 1

/-- A hard synchronisation in the third cycle, then a quiet bus. -/
def hardSyncRun (n : Nat) : List Input :=
  [nominalCycle false .hardSync, nominalCycle false .hardSync, nominalCycle true .hardSync] ++
    List.replicate n (nominalCycle false .reSync)

/-- The expected length is zero; its predecessor is out of reach of the counter. -/
structure Stuck (p : State × Segment) (n : Nat) : Prop where
  bitTime : p.1.bitTime = .tseg1
  ena : p.1.mrSettingsEnaReg = true
  ena2 : p.1.mrSettingsEnaReg2 = true
  length : len p.1 .nominal = 0
  cnt_lt : cnt p.1 .nominal < 2 ^ 8
  rate : p.2.rate = none ∨ p.2.rate = some .nominal
  age : p.2.age = n

theorem Stuck.quiet {p : State × Segment} {n : Nat} (h : Stuck p n) :
    edgeUsed b p.1 (nominalCycle false .reSync) = false ∧
      btCtrClear b p.1 (nominalCycle false .reSync) = false := by
  have hv : resyncEdgeValid p.1 (nominalCycle false .reSync) = false := rfl
  have hh : hSyncValid b p.1 (nominalCycle false .reSync) = false := by
    simp [hSyncValid, hSyncEdgeValid, hSyncEdge, nominalCycle]
  have hreq : exitSegmReq b p.1 (nominalCycle false .reSync) .nominal = false := by
    have hlt := h.cnt_lt
    have hlen : (p.1.rate .nominal).expSegLengthQ = 0 := h.length
    have hreg : BitSegmentMeter.exitSegmRegular (widths .nominal) 0
        (meterInput b p.1 (nominalCycle false .reSync) .nominal) = false := by
      refine decide_eq_false (not_le.mpr ?_)
      exact (show cnt p.1 .nominal < 511 by omega)
    rw [exitSegmReq, hlen, BitSegmentMeter.exitSegmReq, exitImmediate_of_no_resync hv,
      BitSegmentMeter.exitSegmRegularTseg1, BitSegmentMeter.exitSegmRegularTseg2, hreg]
    simp
  have he : segmEnd b p.1 (nominalCycle false .reSync) = false := by
    rw [segmEnd_tseg1 (r := .nominal) rfl h.bitTime, hreq]
    rfl
  exact ⟨by simp [edgeUsed, hv, hh], by simp [btCtrClear, he, hh]⟩

theorem Stuck.step {p : State × Segment} {n : Nat} (h : Stuck p n) :
    Stuck (measured b p (nominalCycle false .reSync)) (n + 1) := by
  obtain ⟨hu, hc⟩ := h.quiet (b := b)
  have he := (Bool.or_eq_false_iff.mp hc).1
  have hbt : p.1.bitTime ≠ .reset := by rw [h.bitTime]; decide
  refine ⟨(bitTime_hold rfl hbt he).trans h.bitTime, rfl, h.ena,
    (len_hold (by simp [startEdge, h.ena2]) he hu).trans h.length, ?_, .inr ?_, ?_⟩
  · change (if btCtrClear b p.1 _ then 0 else if _ then _ % 2 ^ 8 else _) < 2 ^ 8
    rw [hc, if_neg Bool.false_ne_true]
    split
    · exact Nat.mod_lt _ (Nat.two_pow_pos 8)
    · exact h.cnt_lt
  · simp [measured, SyncMachine.watched, Segment.watch, hc]
    rfl
  · simp [measured, SyncMachine.watched, Segment.watch, hc, h.age]

theorem stuck_hardSync :
    Stuck (SyncMachine.run (measured singleBtr) measuredReset (hardSyncRun 0)) 0 :=
  ⟨by decide +kernel, by decide +kernel, by decide +kernel, by decide +kernel, by decide +kernel,
    by decide +kernel, by decide +kernel⟩

theorem Stuck.idle {p : State × Segment} {m : Nat} (h : Stuck p m) (n : Nat) :
    SyncMachine.Admits (measured b) InUse p (List.replicate n (nominalCycle false .reSync)) ∧
      Stuck (SyncMachine.run (measured b) p (List.replicate n (nominalCycle false .reSync)))
        (m + n) := by
  induction n generalizing p m with
  | zero => exact ⟨trivial, h⟩
  | succ n ih =>
    obtain ⟨hok, hs⟩ := ih (h.step (b := b))
    refine ⟨⟨⟨rfl, rfl, h.rate⟩, hok⟩, ?_⟩
    rw [show m + (n + 1) = m + 1 + n by omega]
    exact hs

/-- Both asserted limits hold, but after a hard synchronisation the expected
length is zero and the segment does not end any more, however long the bus is
quiet. -/
theorem single_quantum_stuck :
    (∀ r, MinLengths singleBtr r) ∧ ∀ n,
      SyncMachine.Admits (measured singleBtr) InUse measuredReset (hardSyncRun n) ∧
      len (SyncMachine.run (measured singleBtr) measuredReset (hardSyncRun n)).1 .nominal = 0 ∧
      (SyncMachine.run (measured singleBtr) measuredReset (hardSyncRun n)).2.age = n ∧
      segmEnd singleBtr (SyncMachine.run (measured singleBtr) measuredReset (hardSyncRun n)).1
        (nominalCycle false .reSync) = false := by
  refine ⟨fun r => by cases r <;> exact ⟨by decide, by decide⟩, fun n => ?_⟩
  obtain ⟨hok, hs⟩ := stuck_hardSync.idle (b := singleBtr) n
  have hrun : SyncMachine.run (measured singleBtr) measuredReset (hardSyncRun n) =
      SyncMachine.run (measured singleBtr)
        (SyncMachine.run (measured singleBtr) measuredReset (hardSyncRun 0))
        (List.replicate n (nominalCycle false .reSync)) := by
    rw [hardSyncRun, SyncMachine.run_append]
    rfl
  rw [Nat.zero_add] at hs
  rw [hrun]
  refine ⟨?_, hs.length, hs.age, (Bool.or_eq_false_iff.mp hs.quiet.2).1⟩
  rw [hardSyncRun, SyncMachine.admits_append]
  exact ⟨by decide +kernel, hok⟩

end Prescaler
