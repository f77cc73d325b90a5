import CtuCanFd.Lib.Forecast
import CtuCanFd.Prescaler.SegmentEnd

/-!
# Counting down a segment

The registers of the bit time in use determine how many cycles the segment
still takes. Without an edge that number falls by one every cycle and the
segment ends when it has run out; the lemmas below say what it is after a
segment end, a hard synchronisation and an early or a late edge.
-/

namespace Prescaler

variable {b : Btr} {s : State} {i : Input} {r : BitRate} {seg : BitTime} {l n : Nat}

/-- What the prescaler requests in a cycle. -/
inductive Trigger where
  | none
  | sample
  | bitStart
deriving DecidableEq, Repr

def trigger (b : Btr) (s : State) (i : Input) : Trigger :=
  if rxTrigReq b s i then .sample else if txTrigReq b s i then .bitStart else .none

theorem trigger_none (hb : s.bitTime ≠ .reset) (he : segmEnd b s i = false) :
    trigger b s i = .none := by
  simp [trigger, rxTrigReq, txTrigReq, he, hb]

theorem trigger_sample (ht : s.bitTime = .tseg1) (he : segmEnd b s i = true) :
    trigger b s i = .sample := by
  simp [trigger, rxTrigReq, (inTseg1 ht).1, he]

theorem trigger_bitStart (ht : s.bitTime = .tseg2) (he : segmEnd b s i = true) :
    trigger b s i = .bitStart := by
  simp [trigger, rxTrigReq, txTrigReq, inTseg2 ht, he]

/-- A segment of `l` quanta that ends after `n` more cycles. -/
structure Counting (b : Btr) (r : BitRate) (seg : BitTime) (l n : Nat) (s : State) : Prop where
  bitTime : s.bitTime = seg
  ena2 : s.mrSettingsEnaReg2 = true
  running : Running b s r
  length : len s r = l
  fits : l + 1 ≤ 2 ^ (widths r).bt
  elapsed : cnt s r * b.brpOf r + tq s r + n = l * b.brpOf r
  capt : seg = .tseg2 → (s.rate r).segmEndReqCaptQ = true → cnt s r + 1 = l

namespace Counting

theorem brp_pos (h : Counting b r seg l n s) : 1 ≤ b.brpOf r :=
  h.running.tq.1.trans h.running.tq.2

theorem startEdge_eq (h : Counting b r seg l n s) : startEdge s = false :=
  h.running.startEdge_off h.ena2

theorem cnt_lt (h : Counting b r seg l n s) : cnt s r + 1 ≤ l := by
  have h1 := h.elapsed
  have h2 := h.running.tq.1
  exact Nat.lt_of_mul_lt_mul_right (a := b.brpOf r) (by omega)

/-- The last cycle is the end of the last quantum. -/
theorem last (h : Counting b r seg l 0 s) : cnt s r + 1 = l ∧ tq s r = b.brpOf r := by
  have h1 := h.elapsed
  have h2 := h.running.tq
  have h3 := h.cnt_lt
  have h4 : l ≤ cnt s r + 1 := by
    refine Nat.le_of_mul_le_mul_right ?_ (h.brp_pos (b := b))
    rw [Nat.succ_mul]
    omega
  have h5 : cnt s r + 1 = l := by omega
  rw [← h5, Nat.succ_mul] at h1
  exact ⟨h5, by omega⟩

theorem not_last (h : Counting b r seg l (n + 1) s) (hq : tq s r = b.brpOf r) :
    cnt s r + 1 < l := by
  have h1 := h.elapsed
  refine Nat.lt_of_mul_lt_mul_right (a := b.brpOf r) ?_
  rw [Nat.succ_mul]
  omega

theorem fits_exp (h : Counting b r seg l n s) : len s r < 2 ^ (widths r).exp := by
  have := h.fits
  have := exp_double r
  rw [h.length]
  omega

theorem exitReq (h : Counting b r seg l n s) (hv : resyncEdgeValid s i = false) :
    exitSegmReq b s i r = decide (l ≤ cnt s r + 1) := by
  have hl := h.cnt_lt
  rw [exitReq_of_no_resync hv h.running.bitTime (by rw [h.length]; omega) h.fits_exp, h.length]

/-- Without an edge the segment ends in its last cycle. -/
theorem ends (h : Counting b r seg l 0 s) (hr : rateOf i.spControl = r)
    (hu : edgeUsed b s i = false) : segmEnd b s i = true := by
  obtain ⟨hv, hh⟩ := Bool.or_eq_false_iff.mp hu
  obtain ⟨hc, hq⟩ := h.last
  have hreq : exitSegmReq b s i r = true := by
    rw [h.exitReq hv]
    exact decide_eq_true hc.ge
  have hedge : (s.rate r).ctrs.tqEdge (b.brpOf r) = true := beq_iff_eq.mpr hq
  cases hb : s.bitTime
  · exact absurd hb h.running.bitTime
  · simp [segmEnd_tseg1 hr hb, hreq, hedge, hh]
  · simp [segmEnd_tseg2 hr hb, hreq, hedge]

theorem no_end (h : Counting b r seg l (n + 1) s) (hr : rateOf i.spControl = r)
    (hu : edgeUsed b s i = false) : segmEnd b s i = false := by
  obtain ⟨hv, hh⟩ := Bool.or_eq_false_iff.mp hu
  by_cases hq : tq s r = b.brpOf r
  · have hlt := h.not_last hq
    have hreq : exitSegmReq b s i r = false := by
      rw [h.exitReq hv]
      exact decide_eq_false (by omega)
    cases hb : s.bitTime
    · exact segmEnd_reset hb
    · simp [segmEnd_tseg1 hr hb, hreq]
    · have hcapt : (s.rate r).segmEndReqCaptQ = false := by
        by_contra hx
        have := h.capt (h.bitTime.symm.trans hb) (by simpa using hx)
        omega
      simp [segmEnd_tseg2 hr hb, hreq, hcapt, hh]
  · have hedge : (s.rate r).ctrs.tqEdge (b.brpOf r) = false := beq_eq_false_iff_ne.mpr hq
    cases hb : s.bitTime
    · exact segmEnd_reset hb
    · simp [segmEnd_tseg1 hr hb, hedge]
    · simp [segmEnd_tseg2 hr hb, hedge, hh]

section Cycle

variable (hena : i.mrSettingsEna = true) (hr : rateOf i.spControl = r) (hen : i.ctrsEn r = true)

include hena hr hen

theorem tick (h : Counting b r seg l (n + 1) s) (hu : edgeUsed b s i = false) :
    trigger b s i = .none ∧ Counting b r seg l n (step b s i) := by
  obtain ⟨hv, hh⟩ := Bool.or_eq_false_iff.mp hu
  have he := h.no_end hr hu
  have hclr : btCtrClear b s i = false := by simp [btCtrClear, he, hh]
  have hfits := h.fits
  have hlt := h.cnt_lt
  have htq := h.running.tq
  have htick := elapsed_tick hclr hen htq (by omega)
  refine ⟨trigger_none h.running.bitTime he, ?_⟩
  refine ⟨(bitTime_hold hena h.running.bitTime he).trans h.bitTime, h.running.ena,
    h.running.step hena, ?_, hfits, ?_, fun hseg hcapt => ?_⟩
  · rw [len, rate_step, len_hold h.startEdge_eq he hu, ← h.length]
  · have := h.elapsed
    omega
  · -- a request of the last quantum stays, an earlier one does not exist
    have hlast : cnt s r + 1 = l := by
      have hx : (exitSegmReq b s i r || (s.rate r).segmEndReqCaptQ) = true := by
        simpa [stepRate, he] using hcapt
      rcases Bool.or_eq_true_iff.mp hx with hx | hx
      · rw [h.exitReq hv, decide_eq_true_eq] at hx
        omega
      · exact h.capt hseg hx
    rcases ctrs_tick hclr hen htq (by omega) with ⟨hq, -, -⟩ | ⟨-, h2, -⟩
    · have := h.not_last hq
      omega
    · omega

end Cycle

/-- A segment that has just been loaded. -/
theorem loaded (hrun : Running b (step b s i) r) (hena2 : s.mrSettingsEnaReg = true)
    (hseg : (step b s i).bitTime = seg) (hc : btCtrClear b s i = true) (hen : i.ctrsEn r = true)
    (hlen : len (step b s i) r = l) (h1 : 1 ≤ l) (hfits : l + 1 ≤ 2 ^ (widths r).bt)
    (hcapt : seg = .tseg2 → segmEnd b s i = true) :
    Counting b r seg l (l * b.brpOf r - 1) (step b s i) := by
  have hb : 1 ≤ b.brpOf r := hrun.tq.1.trans hrun.tq.2
  have hmul : 1 ≤ l * b.brpOf r := Nat.mul_pos h1 hb
  refine ⟨hseg, hena2, hrun, hlen, hfits, ?_, fun hs hx => ?_⟩
  · rw [cnt_clear hc, tq_clear hc hen]
    omega
  · simp [stepRate, hcapt hs] at hx

end Counting

/-! ## Segment ends and edges -/

section Load

variable (hrun : Running b s r) (hena2 : s.mrSettingsEnaReg2 = true)
  (hena : i.mrSettingsEna = true) (hr : rateOf i.spControl = r)

theorem startEdge_of_ena2 (hena2 : s.mrSettingsEnaReg2 = true) : startEdge s = false := by
  simp [startEdge, hena2]

include hrun hena2 hena hr

/-- After the sample point TSEG2 is counted with the bit rate whose counters run. -/
theorem counting_sample {r' : BitRate} (hrun' : Running b s r') (h2 : 1 ≤ b.tseg2 r')
    (hen : i.ctrsEn r' = true) (ht : s.bitTime = .tseg1) (he : segmEnd b s i = true) :
    Counting b r' .tseg2 (b.tseg2 r') (b.tseg2 r' * b.brpOf r' - 1) (step b s i) := by
  have hf := length_fits b r'
  have hst := startEdge_of_ena2 hena2
  have hh : hSyncValid b s i = false := by
    rw [segmEnd_tseg1 hr ht] at he
    simpa using (Bool.and_eq_true_iff.mp he).2
  refine .loaded (hrun'.step hena) hrun.ena ?_ (by simp [btCtrClear, he]) hen ?_ h2 (by omega)
    fun _ => he
  · simp [step, nextBitTime, hena, ht, he]
  · rw [len, rate_step, len_end hst he hh (shorten_of_no_exit (exitImmediate_tseg1 ht)), ht]
    rfl

omit hr in
/-- After a bit without an edge TSEG1 is counted in full. -/
theorem counting_bitStart (h1 : 1 ≤ b.tseg1 r) (hen : i.ctrsEn r = true)
    (ht : s.bitTime = .tseg2) (he : segmEnd b s i = true) (hu : edgeUsed b s i = false) :
    Counting b r .tseg1 (b.tseg1 r) (b.tseg1 r * b.brpOf r - 1) (step b s i) := by
  obtain ⟨hv, hh⟩ := Bool.or_eq_false_iff.mp hu
  have hf := length_fits b r
  have hst := startEdge_of_ena2 hena2
  refine .loaded (hrun.step hena) hrun.ena ?_ (by simp [btCtrClear, he]) hen ?_ h1 (by omega)
    nofun
  · simp [step, nextBitTime, hena, ht, he]
  · rw [len, rate_step, len_end hst he hh (shorten_of_no_exit (exitImmediate_of_no_resync hv)),
      if_pos ht, hrun.tseg1]

/-- A hard synchronisation restarts TSEG1; the quantum of the edge is its first. -/
theorem counting_hardSync (h1 : 2 ≤ b.tseg1 r) (hen : i.ctrsEn r = true)
    (hh : hSyncValid b s i = true) :
    Counting b r .tseg1 (b.tseg1 r - 1) ((b.tseg1 r - 1) * b.brpOf r - 1) (step b s i) := by
  have hf := length_fits b r
  have hp := exp_double r
  have hst := startEdge_of_ena2 hena2
  refine .loaded (hrun.step hena) hrun.ena ?_ (by simp [btCtrClear, hh]) hen ?_ (by omega)
    (by omega) nofun
  · simp only [step, nextBitTime, hena]
    cases hb : s.bitTime
    · exact absurd hb hrun.bitTime
    · simp [segmEnd_tseg1 hr hb, hh]
    · simp [segmEnd_tseg2 hr hb, hh]
  · rw [len, rate_step, len_restart hst (by rw [hrun.tseg1]; omega)
      (by rw [hrun.tseg1]; omega) (.inl hh), hrun.tseg1]

end Load

section Edge

variable (hena : i.mrSettingsEna = true) (hr : rateOf i.spControl = r) (hen : i.ctrsEn r = true)
  (hv : resyncEdgeValid s i = true) (hq : tq s r = b.brpOf r) (hj : 1 ≤ b.sjwOf r)

include hena hr hen hv hq hj

/-- An edge in quantum `cnt` of TSEG1 adds the phase error, at most the jump width. -/
theorem Counting.late (h : Counting b r .tseg1 (b.tseg1 r) n s) (h1 : 2 ≤ b.tseg1 r) :
    trigger b s i = .none ∧ ∃ m, n + min (cnt s r) (b.sjwOf r) * b.brpOf r = m + 1 ∧
      Counting b r .tseg1 (b.tseg1 r + min (cnt s r) (b.sjwOf r)) m (step b s i) := by
  have hf := length_fits b r
  have hlt := h.cnt_lt
  have hh := resync_hSync (b := b) hv
  have he : segmEnd b s i = false := by
    rw [segmEnd_tseg1 hr h.bitTime, exitReq_late h.bitTime hv hj]
    rfl
  have hclr : btCtrClear b s i = false := by simp [btCtrClear, he, hh]
  have htick := elapsed_tick hclr hen h.running.tq (by omega)
  have hel := h.elapsed
  -- in the last quantum the extension is at least one quantum
  have hpos : 1 ≤ n + min (cnt s r) (b.sjwOf r) * b.brpOf r := by
    by_cases hn : n = 0
    · subst hn
      have hx : 1 ≤ min (cnt s r) (b.sjwOf r) := by
        have := h.last.1
        omega
      have := Nat.mul_pos hx h.brp_pos
      omega
    · omega
  obtain ⟨m, hm⟩ := Nat.exists_eq_add_of_le hpos
  refine ⟨trigger_none h.running.bitTime he, m, by omega, ?_⟩
  refine ⟨(bitTime_hold hena h.running.bitTime he).trans h.bitTime, h.running.ena,
    h.running.step hena, ?_, by omega, ?_, by simp⟩
  · rw [len, rate_step, len_late h.startEdge_eq h.bitTime hv he h.running.tseg1]
  · rw [Nat.add_mul]
    omega

/-- An edge in quantum `cnt` of TSEG2 brings the next sample point nearer by the
phase error, at most by the jump width: TSEG2 ends at once, with the quantum of
the edge as the first of TSEG1 unless the error is larger than the jump width, or
it is shortened. -/
theorem Counting.early (h : Counting b r .tseg2 (b.tseg2 r) n s) (h1 : 2 ≤ b.tseg1 r) :
    (b.tseg2 r - cnt s r ≤ b.sjwOf r ∧ trigger b s i = .bitStart ∧
        Counting b r .tseg1 (b.tseg1 r - 1) ((b.tseg1 r - 1) * b.brpOf r - 1) (step b s i)) ∨
      (b.tseg2 r - cnt s r = b.sjwOf r + 1 ∧ trigger b s i = .bitStart ∧
        Counting b r .tseg1 (b.tseg1 r) (b.tseg1 r * b.brpOf r - 1) (step b s i)) ∨
      (b.sjwOf r + 1 < b.tseg2 r - cnt s r ∧ trigger b s i = .none ∧
        ∃ m, n = m + 1 + b.sjwOf r * b.brpOf r ∧
          Counting b r .tseg2 (b.tseg2 r - b.sjwOf r) m (step b s i)) := by
  have hf := length_fits b r
  have hp := exp_double r
  have hlt := h.cnt_lt
  have hh := resync_hSync (b := b) hv
  have hst := h.startEdge_eq
  have hedge : (s.rate r).ctrs.tqEdge (b.brpOf r) = true := beq_iff_eq.mpr hq
  have himm := exitImmediate_tseg2 (b := b) h.bitTime hv (r := r) (by omega)
  have hsh := shorten_tseg2 (b := b) h.bitTime hv (r := r) (by omega)
  have hends : b.tseg2 r - cnt s r ≤ b.sjwOf r + 1 → segmEnd b s i = true := by
    intro hle
    have hreq : exitSegmReq b s i r = true := by
      simp [exitSegmReq, BitSegmentMeter.exitSegmReq, himm, hle]
    simp [segmEnd_tseg2 hr h.bitTime, hreq, hedge]
  have hnext : segmEnd b s i = true → (step b s i).bitTime = .tseg1 := by
    intro he
    simp [step, nextBitTime, hena, h.bitTime, he]
  rcases lt_trichotomy (b.tseg2 r - cnt s r) (b.sjwOf r + 1) with hlt' | heq | hgt
  · have he := hends (by omega)
    refine .inl ⟨by omega, trigger_bitStart h.bitTime he, ?_⟩
    refine .loaded (h.running.step hena) h.running.ena (hnext he) (by simp [btCtrClear, he]) hen
      ?_ (by omega) (by omega) (by simp)
    rw [len, rate_step, len_restart hst (by rw [h.running.tseg1]; omega)
      (by rw [h.running.tseg1]; omega) (.inr (by rw [hsh]; exact decide_eq_true (by omega))),
      h.running.tseg1]
  · have he := hends (by omega)
    refine .inr (.inl ⟨heq, trigger_bitStart h.bitTime he, ?_⟩)
    refine .loaded (h.running.step hena) h.running.ena (hnext he) (by simp [btCtrClear, he]) hen
      ?_ (by omega) (by omega) (by simp)
    rw [len, rate_step, len_end hst he hh (by rw [hsh]; exact decide_eq_false (by omega)),
      if_pos h.bitTime, h.running.tseg1]
  · have hl : len s r = b.tseg2 r := h.length
    have hearly : ¬ len s r ≤ cnt s r + 1 := by omega
    have hreq : exitSegmReq b s i r = false := by
      rw [exitSegmReq, BitSegmentMeter.exitSegmReq, himm, decide_eq_false (by omega),
        BitSegmentMeter.exitSegmRegularTseg1, BitSegmentMeter.exitSegmRegularTseg2,
        exitRegular_eq (by omega) h.fits_exp, decide_eq_false hearly]
      simp
    have hcapt : (s.rate r).segmEndReqCaptQ = false := by
      by_contra hx
      have := h.capt rfl (by simpa using hx)
      omega
    have he : segmEnd b s i = false := by
      simp [segmEnd_tseg2 hr h.bitTime, hreq, hcapt, hh]
    have hclr : btCtrClear b s i = false := by simp [btCtrClear, he, hh]
    have htick := elapsed_tick hclr hen h.running.tq (by omega)
    have hel := h.elapsed
    have hlen : len (step b s i) r = b.tseg2 r - b.sjwOf r := by
      rw [len, rate_step, len_early hst h.bitTime hv he (by omega) (by omega)]
    -- what is left of TSEG2 is more than the jump width
    obtain ⟨d, hd⟩ := Nat.exists_eq_add_of_le (show cnt s r + b.sjwOf r + 2 ≤ b.tseg2 r by omega)
    have hsub : b.tseg2 r - b.sjwOf r = cnt s r + 2 + d := by omega
    have hbp := h.brp_pos
    have hexp : b.tseg2 r * b.brpOf r =
        cnt s r * b.brpOf r + b.sjwOf r * b.brpOf r + 2 * b.brpOf r + d * b.brpOf r := by
      rw [hd]
      ring
    have hexp' : (b.tseg2 r - b.sjwOf r) * b.brpOf r =
        cnt s r * b.brpOf r + 2 * b.brpOf r + d * b.brpOf r := by
      rw [hsub]
      ring
    refine .inr (.inr ⟨hgt, trigger_none h.running.bitTime he, n - 1 - b.sjwOf r * b.brpOf r,
      by omega, ?_⟩)
    refine ⟨(bitTime_hold hena h.running.bitTime he).trans h.bitTime, h.running.ena,
      h.running.step hena, hlen, by omega, ?_, fun _ hx => ?_⟩
    · rw [hexp']
      omega
    · simp [stepRate, he, hreq, hcapt] at hx

end Edge

end Prescaler
