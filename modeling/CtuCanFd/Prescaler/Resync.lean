import CtuCanFd.Prescaler.Countdown

/-!
# Resynchronisation

Windows of a run at one bit rate, with the edges aligned to time quanta as bus
sampling does. Outside the windows nothing is assumed of the inputs. A bit
starts with the cycle after its start was requested; cycles are counted from
there, so a cycle `n` lies in quantum `n / BRP` of the bit.
-/

open SyncMachine (Forecast Admits run trace)

namespace Prescaler

variable {b : Btr} {s : State} {i : Input} {r : BitRate} {l n : Nat}

/-! ## Windows -/

/-- A cycle at bit rate `r`: an edge comes with the end of a quantum, and not
before the input synchroniser has left its reset value. -/
def Steady (b : Btr) (r : BitRate) (s : State) (i : Input) : Prop :=
  i.mrSettingsEna = true ∧ rateOf i.spControl = r ∧ i.ctrsEn r = true ∧
    (i.syncEdge = true → tqEdge b s i = true ∧ s.mrSettingsEnaReg2 = true)

instance : Decidable (Steady b r s i) := inferInstanceAs (Decidable (_ ∧ _))

/-- No edge is used in the cycle. -/
def Quiet (b : Btr) (r : BitRate) (s : State) (i : Input) : Prop :=
  Steady b r s i ∧ edgeUsed b s i = false

instance : Decidable (Quiet b r s i) := inferInstanceAs (Decidable (_ ∧ _))

theorem Steady.tq (h : Steady b r s i) (hv : resyncEdgeValid s i = true) :
    tq s r = b.brpOf r := by
  obtain ⟨-, hr, -, he⟩ := h
  simp only [resyncEdgeValid, resyncEdge, Bool.and_eq_true] at hv
  have := (he hv.1.1.1).1
  rw [tqEdge, hr] at this
  exact beq_iff_eq.mp this

/-- A bit with `m` cycles to its sample point and `n` cycles after it. -/
def bitShape (m n : Nat) : List Trigger :=
  List.replicate (m - 1) .none ++ .sample :: (List.replicate (n - 1) .none ++ [.bitStart])

/-! ## Segments without an edge -/

/-- The rest of a segment up to its last cycle. -/
theorem forecast_quiet {seg : BitTime} (h : Counting b r seg l n s) :
    Forecast (step b) (Quiet b r) (trigger b) (List.replicate n .none)
      (Counting b r seg l 0) s := by
  refine Forecast.countdown (P := fun n => Counting b r seg l n) ?_ h
  rintro n t i ht ⟨⟨hena, hr, hen, -⟩, hu⟩
  exact ht.tick hena hr hen hu

/-- The rest of a TSEG1. -/
theorem forecast_tseg1 (h2 : 1 ≤ b.tseg2 r) (h : Counting b r .tseg1 l n s) :
    Forecast (step b) (Quiet b r) (trigger b) (List.replicate n .none ++ [.sample])
      (Counting b r .tseg2 (b.tseg2 r) (b.tseg2 r * b.brpOf r - 1)) s := by
  refine (forecast_quiet h).append fun t ht => .cons ?_
  rintro i ⟨⟨hena, hr, hen, -⟩, hu⟩
  have he := ht.ends hr hu
  exact ⟨trigger_sample ht.bitTime he, .nil (counting_sample ht.running ht.ena2 hena hr
    ht.running h2 hen ht.bitTime he)⟩

/-- The rest of a TSEG2. -/
theorem forecast_tseg2 (h1 : 1 ≤ b.tseg1 r) (h : Counting b r .tseg2 l n s) :
    Forecast (step b) (Quiet b r) (trigger b) (List.replicate n .none ++ [.bitStart])
      (Counting b r .tseg1 (b.tseg1 r) (b.tseg1 r * b.brpOf r - 1)) s := by
  refine (forecast_quiet h).append fun t ht => .cons ?_
  rintro i ⟨⟨hena, hr, hen, -⟩, hu⟩
  have he := ht.ends hr hu
  exact ⟨trigger_bitStart ht.bitTime he, .nil (counting_bitStart ht.running ht.ena2 hena
    h1 hen ht.bitTime he hu)⟩

/-- The rest of a bit from TSEG1 on. -/
theorem forecast_bit (h1 : 1 ≤ b.tseg1 r) (h2 : 1 ≤ b.tseg2 r) (h : Counting b r .tseg1 l n s) :
    Forecast (step b) (Quiet b r) (trigger b) (bitShape (n + 1) (b.tseg2 r * b.brpOf r))
      (Counting b r .tseg1 (b.tseg1 r) (b.tseg1 r * b.brpOf r - 1)) s := by
  have := (forecast_tseg1 h2 h).append fun t ht => forecast_tseg2 h1 ht
  rwa [List.append_assoc] at this

/-- Some cycles of a segment without an edge. -/
theorem counting_quiet {seg : BitTime} {m : Nat} (h : Counting b r seg l (m + n) s)
    (js : List Input) (hlen : js.length = m) (hok : Admits (step b) (Quiet b r) s js) :
    trace (step b) (trigger b) s js = List.replicate m .none ∧
      Counting b r seg l n (run (step b) s js) := by
  have hf : Forecast (step b) (Quiet b r) (trigger b) (List.replicate m .none)
      (fun t => Counting b r seg l (0 + n) t) s := by
    refine Forecast.countdown (P := fun k t => Counting b r seg l (k + n) t) ?_ h
    rintro k t i ht ⟨⟨hena, hr, hen, -⟩, hu⟩
    rw [Nat.add_right_comm] at ht
    exact ht.tick hena hr hen hu
  rw [Nat.zero_add] at hf
  exact hf js (by simpa using hlen) hok

/-! ## After an edge -/

theorem syncFlag_kept (hf : s.syncFlag = true) (ht : rxTrigReq b s i = false) :
    (step b s i).syncFlag = true := by
  rw [rxTrigReq, Bool.and_comm] at ht
  simp [step, nextSyncFlag, ht, hf]

theorem Trigger.not_sample (h : trigger b s i ≠ .sample) : rxTrigReq b s i = false := by
  by_contra hx
  exact h (by simp [trigger, show rxTrigReq b s i = true by simpa using hx])

/-- After an edge has been used, the rest of a segment goes on whatever other edges there are. -/
theorem forecast_synced {seg : BitTime} (h : Counting b r seg l n s) (hf : s.syncFlag = true) :
    Forecast (step b) (Steady b r) (trigger b) (List.replicate n .none)
      (fun t => Counting b r seg l 0 t ∧ t.syncFlag = true) s := by
  refine Forecast.countdown (P := fun n t => Counting b r seg l n t ∧ t.syncFlag = true) ?_ ⟨h, hf⟩
  rintro n t i ⟨ht, hf⟩ ⟨hena, hr, hen, -⟩
  have hstep := ht.tick hena hr hen (not_used_of_syncFlag hf)
  exact ⟨hstep.1, hstep.2, syncFlag_kept hf (Trigger.not_sample (by rw [hstep.1]; decide))⟩

/-- One edge has been used since the last sample point, so no other one can be
before the next. -/
theorem forecast_synced1 (h : Counting b r .tseg1 l n s) (hf : s.syncFlag = true) :
    Forecast (step b) (Steady b r) (trigger b) (List.replicate n .none ++ [.sample])
      (fun _ => True) s := by
  refine (forecast_synced h hf).append fun t ht => .cons ?_
  rintro i ⟨hena, hr, hen, -⟩
  have he := ht.1.ends hr (not_used_of_syncFlag ht.2)
  exact ⟨trigger_sample ht.1.bitTime he, .nil trivial⟩

theorem forecast_synced2 (h1 : 1 ≤ b.tseg1 r) (h : Counting b r .tseg2 l n s)
    (hf : s.syncFlag = true) :
    Forecast (step b) (Steady b r) (trigger b)
      (List.replicate n .none ++ .bitStart ::
        (List.replicate (b.tseg1 r * b.brpOf r - 1) .none ++ [.sample])) (fun _ => True) s := by
  refine (forecast_synced h hf).append ?_
  rintro t ⟨ht, hf⟩
  refine .cons ?_
  rintro i ⟨hena, hr, hen, -⟩
  have hu := not_used_of_syncFlag (b := b) (i := i) hf
  have htr := trigger_bitStart ht.bitTime (ht.ends hr hu)
  exact ⟨htr, forecast_synced1 (counting_bitStart ht.running ht.ena2 hena h1 hen ht.bitTime
    (ht.ends hr hu) hu) (syncFlag_kept hf (Trigger.not_sample (by rw [htr]; decide)))⟩

/-! ## Reached states -/

def Enabled (_ : State) (i : Input) : Prop := i.mrSettingsEna = true

def Up (b : Btr) (r : BitRate) (s : State) : Prop :=
  s = reset ∨ (Running b s r ∧ (s.mrSettingsEnaReg2 = true ∨ Starting b s r))

theorem run_up (hp : 1 ≤ b.brpOf r) (is : List Input) (h : Admits (step b) Enabled reset is) :
    Up b r (run (step b) reset is) := by
  refine SyncMachine.run_invariant (step b) Enabled (Up b r) ?_ (.inl rfl) is h
  rintro s i (rfl | ⟨hrun, -⟩) hena
  · exact .inr ⟨first_running hp hena, .inr (first_starting hp hena)⟩
  · exact .inr ⟨hrun.step hena, .inl hrun.ena⟩

theorem Up.running (h : Up b r s) (hb : s.bitTime ≠ .reset) : Running b s r := by
  rcases h with rfl | ⟨h, -⟩
  · exact absurd rfl hb
  · exact h

/-- Limits of the driver. -/
structure Limits (b : Btr) (r : BitRate) : Prop where
  tseg1 : 3 ≤ b.tseg1 r
  tseg2 : 1 ≤ b.tseg2 r
  sjw : 1 ≤ b.sjwOf r
  brp : 1 ≤ b.brpOf r

/-- The quantum of an edge, from the cycles since the segment started. -/
theorem quantum_eq {c m p : Nat} (hp : 1 ≤ p) (h : c * p + p = m + 1) : m / p = c := by
  rw [show m = c * p + (p - 1) by omega, Nat.mul_comm, Nat.mul_add_div hp,
    Nat.div_eq_of_lt (by omega), Nat.add_zero]

/-- The laws of bit timing, from a reached state `s`. -/
structure ResyncLaw (b : Btr) (r : BitRate) (s : State) : Prop where
  /-- A bit without an edge. -/
  free : ∀ i, Quiet b r s i → s.bitTime = .tseg2 → trigger b s i = .bitStart →
    Forecast (step b) (Quiet b r) (trigger b)
      (bitShape (b.tseg1 r * b.brpOf r) (b.tseg2 r * b.brpOf r)) (fun _ => True) (step b s i)
  /-- An edge before the sample point, in the cycle after `js`. -/
  late : ∀ i js j, Quiet b r s i → s.bitTime = .tseg2 → trigger b s i = .bitStart →
    js.length < b.tseg1 r * b.brpOf r → Admits (step b) (Quiet b r) (step b s i) js →
    Steady b r (run (step b) (step b s i) js) j →
    resyncEdgeValid (run (step b) (step b s i) js) j = true →
    trace (step b) (trigger b) (step b s i) (js ++ [j]) =
        List.replicate (js.length + 1) .none ∧
      Forecast (step b) (Quiet b r) (trigger b)
        (bitShape ((b.tseg1 r + min (js.length / b.brpOf r) (b.sjwOf r)) * b.brpOf r -
          (js.length + 1)) (b.tseg2 r * b.brpOf r)) (fun _ => True)
        (step b (run (step b) (step b s i) js) j)
  /-- An edge after the sample point: the next one comes in the cycle after `js`,
  the edge and `os`. -/
  early : ∀ i js j, Steady b r s i → trigger b s i = .sample →
    js.length < b.tseg2 r * b.brpOf r → Admits (step b) (Quiet b r) (step b s i) js →
    Steady b r (run (step b) (step b s i) js) j →
    resyncEdgeValid (run (step b) (step b s i) js) j = true →
    .sample ∉ trace (step b) (trigger b) (step b s i) (js ++ [j]) ∧
      ∃ os, .sample ∉ os ∧
        js.length + 1 + (os.length + 1) + min (b.tseg2 r - js.length / b.brpOf r) (b.sjwOf r) *
          b.brpOf r = (b.tseg1 r + b.tseg2 r) * b.brpOf r ∧
        Forecast (step b) (Steady b r) (trigger b) (os ++ [.sample]) (fun _ => True)
          (step b (run (step b) (step b s i) js) j)
  /-- A hard synchronisation. -/
  hard : ∀ i, Steady b r s i → hSyncValid b s i = true →
    Forecast (step b) (Steady b r) (trigger b)
      (List.replicate ((b.tseg1 r - 1) * b.brpOf r - 1) .none ++ [.sample]) (fun _ => True)
      (step b s i)
  /-- After a used edge none is used up to the next sample point. -/
  once : ∀ i js j, edgeUsed b s i = true →
    .sample ∉ trace (step b) (trigger b) (step b s i) js →
    edgeUsed b (run (step b) (step b s i) js) j = false

section Laws

variable (hl : Limits b r)

include hl

omit hl in
theorem Up.ena2_of_tseg2 (h : Up b r s) (ht : s.bitTime = .tseg2) :
    Running b s r ∧ s.mrSettingsEnaReg2 = true := by
  refine ⟨h.running (by rw [ht]; decide), ?_⟩
  rcases h with rfl | ⟨-, h | h⟩
  · cases ht
  · exact h
  · rw [h.bitTime] at ht
    cases ht

theorem counting_of_bitStart (hup : Up b r s) (hi : Quiet b r s i) (ht : s.bitTime = .tseg2)
    (htr : trigger b s i = .bitStart) :
    Counting b r .tseg1 (b.tseg1 r) (b.tseg1 r * b.brpOf r - 1) (step b s i) := by
  obtain ⟨hrun, hena2⟩ := hup.ena2_of_tseg2 ht
  have he : segmEnd b s i = true := by
    by_contra he
    rw [trigger_none hrun.bitTime (by simpa using he)] at htr
    cases htr
  exact counting_bitStart hrun hena2 hi.1.1 (by have := hl.tseg1; omega) hi.1.2.2.1 ht he hi.2

theorem free_law (hup : Up b r s) (hi : Quiet b r s i) (ht : s.bitTime = .tseg2)
    (htr : trigger b s i = .bitStart) :
    Forecast (step b) (Quiet b r) (trigger b)
      (bitShape (b.tseg1 r * b.brpOf r) (b.tseg2 r * b.brpOf r)) (fun _ => True)
      (step b s i) := by
  have h1 := hl.tseg1
  have hpos := Nat.mul_pos (show 0 < b.tseg1 r by omega) hl.brp
  have hf := forecast_bit (by omega) hl.tseg2 (counting_of_bitStart hl hup hi ht htr)
  rw [Nat.sub_add_cancel hpos] at hf
  exact hf.mono (fun _ _ h => h) fun _ _ => trivial

theorem late_law (hup : Up b r s) (js : List Input) (j : Input) (hi : Quiet b r s i)
    (ht : s.bitTime = .tseg2) (htr : trigger b s i = .bitStart)
    (hlt : js.length < b.tseg1 r * b.brpOf r)
    (hjs : Admits (step b) (Quiet b r) (step b s i) js)
    (hj : Steady b r (run (step b) (step b s i) js) j)
    (hv : resyncEdgeValid (run (step b) (step b s i) js) j = true) :
    trace (step b) (trigger b) (step b s i) (js ++ [j]) =
        List.replicate (js.length + 1) .none ∧
      Forecast (step b) (Quiet b r) (trigger b)
        (bitShape ((b.tseg1 r + min (js.length / b.brpOf r) (b.sjwOf r)) * b.brpOf r -
          (js.length + 1)) (b.tseg2 r * b.brpOf r)) (fun _ => True)
        (step b (run (step b) (step b s i) js) j) := by
  have h1 := hl.tseg1
  have hcnt := counting_of_bitStart hl hup hi ht htr
  rw [show b.tseg1 r * b.brpOf r - 1 =
    js.length + (b.tseg1 r * b.brpOf r - 1 - js.length) by omega] at hcnt
  obtain ⟨htrace, hc⟩ := counting_quiet hcnt js rfl hjs
  have hq := hj.tq hv
  obtain ⟨hnone, m, hm, hlate⟩ := hc.late hj.1 hj.2.1 hj.2.2.1 hv hq hl.sjw (by omega)
  -- the counter is the number of whole quanta before the edge
  have hphase : js.length / b.brpOf r = cnt (run (step b) (step b s i) js) r := by
    refine quantum_eq hl.brp ?_
    have := hc.elapsed
    rw [hq] at this
    omega
  refine ⟨?_, ?_⟩
  · rw [SyncMachine.trace_append, htrace, List.replicate_succ']
    exact congrArg _ (congrArg (· :: []) hnone)
  · have hf := forecast_bit (by omega) hl.tseg2 hlate
    rw [hphase, Nat.add_mul]
    rw [← hm] at hf
    rw [show b.tseg1 r * b.brpOf r + min (cnt (run (step b) (step b s i) js) r) (b.sjwOf r) *
      b.brpOf r - (js.length + 1) = b.tseg1 r * b.brpOf r - 1 - js.length +
      min (cnt (run (step b) (step b s i) js) r) (b.sjwOf r) * b.brpOf r by omega]
    exact hf.mono (fun _ _ h => h) fun _ _ => trivial

theorem counting_of_sample (hup : Up b r s) (hi : Steady b r s i)
    (htr : trigger b s i = .sample) :
    Counting b r .tseg2 (b.tseg2 r) (b.tseg2 r * b.brpOf r - 1) (step b s i) := by
  obtain ⟨hena, hr, hen, -⟩ := hi
  have hreq : rxTrigReq b s i = true := by
    by_contra hx
    simp only [trigger, if_neg hx] at htr
    split at htr <;> cases htr
  obtain ⟨ht, he⟩ := Bool.and_eq_true_iff.mp hreq
  have ht : s.bitTime = .tseg1 := beq_iff_eq.mp ht
  have hrun := hup.running (by rw [ht]; decide)
  have hena2 : s.mrSettingsEnaReg2 = true := by
    rcases hup with rfl | ⟨-, h | h⟩
    · cases ht
    · exact h
    · have hq := hrun.tq
      have hc := h.cnt_le hq.1 hl.brp
      have hge := h.len_ge
      have hn : ¬ len s r ≤ cnt s r + 1 := by omega
      simp [segmEnd_tseg1 hr h.bitTime, exitReq_tseg1 h.bitTime (by omega) h.len_lt, hn] at he
  exact counting_sample hrun hena2 hena hr hrun hl.tseg2 hen ht he

theorem early_law (hup : Up b r s) (js : List Input) (j : Input) (hi : Steady b r s i)
    (htr : trigger b s i = .sample) (hlt : js.length < b.tseg2 r * b.brpOf r)
    (hjs : Admits (step b) (Quiet b r) (step b s i) js)
    (hj : Steady b r (run (step b) (step b s i) js) j)
    (hv : resyncEdgeValid (run (step b) (step b s i) js) j = true) :
    .sample ∉ trace (step b) (trigger b) (step b s i) (js ++ [j]) ∧
      ∃ os, .sample ∉ os ∧
        js.length + 1 + (os.length + 1) + min (b.tseg2 r - js.length / b.brpOf r) (b.sjwOf r) *
          b.brpOf r = (b.tseg1 r + b.tseg2 r) * b.brpOf r ∧
        Forecast (step b) (Steady b r) (trigger b) (os ++ [.sample]) (fun _ => True)
          (step b (run (step b) (step b s i) js) j) := by
  have h1 := hl.tseg1
  have hp := hl.brp
  have hcnt := counting_of_sample hl hup hi htr
  rw [show b.tseg2 r * b.brpOf r - 1 =
    js.length + (b.tseg2 r * b.brpOf r - 1 - js.length) by omega] at hcnt
  obtain ⟨htrace, hc⟩ := counting_quiet hcnt js rfl hjs
  have hq := hj.tq hv
  have hel := hc.elapsed
  rw [hq] at hel
  have hcl := hc.cnt_lt
  have hphase : js.length / b.brpOf r = cnt (run (step b) (step b s i) js) r :=
    quantum_eq hp (by omega)
  have hflag : (step b (run (step b) (step b s i) js) j).syncFlag = true :=
    syncFlag_of_used (by simp [edgeUsed, hv])
  have hnone : trigger b (run (step b) (step b s i) js) j ≠ .sample →
      .sample ∉ trace (step b) (trigger b) (step b s i) (js ++ [j]) := by
    intro hne
    rw [SyncMachine.trace_append, htrace]
    simpa [trace] using hne.symm
  obtain ⟨d, hd⟩ := Nat.exists_eq_add_of_le hcl
  rw [hphase, show b.tseg2 r - cnt (run (step b) (step b s i) js) r = d + 1 by omega]
  -- `d + 1` quanta were left when the quantum of the edge began
  have hT2 : b.tseg2 r * b.brpOf r = cnt (run (step b) (step b s i) js) r * b.brpOf r +
      b.brpOf r + d * b.brpOf r := by
    rw [hd]
    ring
  have hT1 : (b.tseg1 r - 1) * b.brpOf r + b.brpOf r = b.tseg1 r * b.brpOf r := by
    rw [← Nat.succ_mul, Nat.succ_eq_add_one, Nat.sub_add_cancel (by omega)]
  have hpos : 1 ≤ (b.tseg1 r - 1) * b.brpOf r := Nat.mul_pos (by omega) hp
  rw [Nat.add_mul]
  rcases hc.early hj.1 hj.2.1 hj.2.2.1 hv hq hl.sjw (by omega) with
    ⟨hle, htr', hc'⟩ | ⟨heq, htr', hc'⟩ | ⟨hgt, htr', m, hm, hc'⟩
  · refine ⟨hnone (by rw [htr']; decide), List.replicate ((b.tseg1 r - 1) * b.brpOf r - 1) .none,
      by simp, ?_, forecast_synced1 hc' hflag⟩
    rw [List.length_replicate, min_eq_left (by omega), Nat.succ_mul]
    omega
  · refine ⟨hnone (by rw [htr']; decide), List.replicate (b.tseg1 r * b.brpOf r - 1) .none,
      by simp, ?_, forecast_synced1 hc' hflag⟩
    rw [List.length_replicate, min_eq_right (by omega), show b.sjwOf r = d by omega]
    omega
  · refine ⟨hnone (by rw [htr']; decide),
      List.replicate m .none ++ .bitStart :: List.replicate (b.tseg1 r * b.brpOf r - 1) .none,
      by simp, ?_, ?_⟩
    · simp only [List.length_append, List.length_replicate, List.length_cons]
      rw [min_eq_right (by omega)]
      omega
    · rw [List.append_assoc]
      exact forecast_synced2 (by omega) hc' hflag

theorem hard_law (hup : Up b r s) (hi : Steady b r s i) (hh : hSyncValid b s i = true) :
    Forecast (step b) (Steady b r) (trigger b)
      (List.replicate ((b.tseg1 r - 1) * b.brpOf r - 1) .none ++ [.sample]) (fun _ => True)
      (step b s i) := by
  obtain ⟨hena, hr, hen, hedge⟩ := hi
  have h1 := hl.tseg1
  have hsync : i.syncEdge = true := by
    simp only [hSyncValid, hSyncEdgeValid, Bool.and_eq_true] at hh
    have := hh.1
    split at this
    · cases this
    · simp only [hSyncEdge, Bool.and_eq_true] at this
      exact this.1.1
  have hena2 := (hedge hsync).2
  have hrun : Running b s r := by
    rcases hup with rfl | ⟨h, -⟩
    · cases hena2
    · exact h
  exact forecast_synced1 (counting_hardSync hrun hena2 hena hr (by omega) hen hh)
    (syncFlag_of_used (by simp [edgeUsed, hh]))

end Laws

theorem once_law (js : List Input) (j : Input) (hu : edgeUsed b s i = true)
    (hjs : .sample ∉ trace (step b) (trigger b) (step b s i) js) :
    edgeUsed b (run (step b) (step b s i) js) j = false := by
  have hflag : ∀ t : State, t.syncFlag = true → .sample ∉ trace (step b) (trigger b) t js →
      (run (step b) t js).syncFlag = true := by
    clear hjs
    induction js with
    | nil => exact fun t ht _ => ht
    | cons k ks ih =>
      intro t ht hks
      simp only [trace, List.mem_cons, not_or] at hks
      exact ih _ (syncFlag_kept ht (Trigger.not_sample (Ne.symm hks.1))) hks.2
  exact not_used_of_syncFlag (hflag _ (syncFlag_of_used hu) hjs)

/-! ## The first bit -/

section First

variable (hl : Limits b r) (hm : MinLengths b r)

include hl hm

/-- The first bit starts with the first enabled cycle: two cycles of TSEG1 are
over when its length has been loaded. -/
theorem counting_start {j : Input} (hi : Quiet b r reset i)
    (hj : Quiet b r (step b reset i) j) :
    trigger b (step b reset i) j = .none ∧
      Counting b r .tseg1 (b.tseg1 r) (b.tseg1 r * b.brpOf r - 3)
        (step b (step b reset i) j) := by
  have hf := length_fits b r
  have hst := first_starting (b := b) hl.brp hi.1.1
  have hrun := first_running (b := b) hl.brp hi.1.1
  have hel0 : cnt (step b reset i) r * b.brpOf r + tq (step b reset i) r = 2 := by
    have hclr : btCtrClear b reset i = false := by
      simp [btCtrClear, segmEnd_reset (b := b) (i := i) (s := reset) rfl,
        (Bool.or_eq_false_iff.mp hi.2).2]
    have hq : tq reset r = 1 := by cases r <;> rfl
    have hc : cnt reset r = 0 := by cases r <;> rfl
    have := elapsed_tick hclr hi.1.2.2.1 ⟨hq.ge, hq.le.trans hl.brp⟩
      (by rw [hc]; cases r <;> decide)
    rw [hq, hc] at this
    omega
  have he := hst.no_end hm hrun hj.1.2.1
  have hclr : btCtrClear b (step b reset i) j = false := by
    simp [btCtrClear, he, (Bool.or_eq_false_iff.mp hj.2).2]
  have hel := elapsed_tick hclr hj.1.2.2.1 hrun.tq
    (Metered.cnt_lt (.inl hst) hl.brp hrun.tq.1)
  have hT1 := hm.tseg1
  refine ⟨trigger_none hrun.bitTime he, ?_⟩
  refine ⟨(bitTime_hold hj.1.1 hrun.bitTime he).trans hst.bitTime, hrun.ena, hrun.step hj.1.1,
    ?_, by omega, by omega, by simp⟩
  rw [len, rate_step, len_start (by rw [hrun.startEdge_eq, hst.ena2]; rfl), hrun.tseg1]

theorem first_law : Forecast (step b) (Quiet b r) (trigger b)
    (.bitStart :: bitShape (b.tseg1 r * b.brpOf r - 1) (b.tseg2 r * b.brpOf r)) (fun _ => True)
    reset := by
  have h1 := hl.tseg1
  have hT1 := hm.tseg1
  have hshape : bitShape (b.tseg1 r * b.brpOf r - 1) (b.tseg2 r * b.brpOf r) =
      .none :: bitShape (b.tseg1 r * b.brpOf r - 3 + 1) (b.tseg2 r * b.brpOf r) := by
    rw [bitShape, bitShape, show b.tseg1 r * b.brpOf r - 1 - 1 =
      b.tseg1 r * b.brpOf r - 3 + 1 - 1 + 1 by omega, List.replicate_succ]
    rfl
  rw [hshape]
  refine .cons fun i hi => ⟨?_, .cons fun j hj => ?_⟩
  · simp [trigger, rxTrigReq, txTrigReq, segmEnd_reset (b := b) (i := i) (s := reset) rfl,
      hi.1.1]
    rfl
  · obtain ⟨htr, hc⟩ := counting_start hl hm hi hj
    exact ⟨htr, (forecast_bit (by omega) hl.tseg2 hc).mono (fun _ _ h => h) fun _ _ => trivial⟩

end First

/-- Bit timing at one bit rate. The first bit after enabling starts with the
first enabled cycle; the laws hold in every state reached by any run. -/
theorem resynchronisation (b : Btr) (r : BitRate) (hl : Limits b r) (hm : MinLengths b r) :
    Forecast (step b) (Quiet b r) (trigger b)
        (.bitStart :: bitShape (b.tseg1 r * b.brpOf r - 1) (b.tseg2 r * b.brpOf r))
        (fun _ => True) reset ∧
      ∀ is, Admits (step b) Enabled reset is → ResyncLaw b r (run (step b) reset is) := by
  refine ⟨first_law hl hm, fun is his => ?_⟩
  have hup := run_up hl.brp is his
  exact
    { free := fun i => free_law hl hup
      late := fun i => late_law hl hup
      early := fun i => early_law hl hup
      hard := fun i => hard_law hl hup
      once := fun i => once_law }

/-- Bits of five clock cycles, the shortest the limits allow with a jump width of one. -/
def fastBtr : Btr where
  prop := 1
  ph1 := 1
  ph2 := 2
  brp := 1
  sjw := 1
  propFd := 1
  ph1Fd := 1
  ph2Fd := 2
  brpFd := 1
  sjwFd := 1

/-- The edge in the last quantum of TSEG1, two quanta late, adds one quantum. -/
theorem resynchronisation_fast :
    trace (step fastBtr) (trigger fastBtr)
        (run (step fastBtr) reset (List.replicate 5 (nominalCycle false .reSync)))
        [nominalCycle false .reSync, nominalCycle false .reSync, nominalCycle true .reSync] =
      [.none, .none, .none] ∧
    Forecast (step fastBtr) (Quiet fastBtr .nominal) (trigger fastBtr)
      [.sample, .none, .bitStart] (fun _ => True)
      (run (step fastBtr) reset (List.replicate 7 (nominalCycle false .reSync) ++
        [nominalCycle true .reSync])) :=
  ((resynchronisation fastBtr .nominal ⟨by decide, by decide, by decide, by decide⟩
    ⟨by decide, by decide⟩).2 (List.replicate 4 (nominalCycle false .reSync))
    ⟨rfl, rfl, rfl, rfl, trivial⟩).late (nominalCycle false .reSync)
    [nominalCycle false .reSync, nominalCycle false .reSync] (nominalCycle true .reSync)
    (by decide +kernel) (by decide +kernel) (by decide +kernel) (by decide +kernel)
    (by decide +kernel) (by decide +kernel) (by decide +kernel)

/-! ## Bus sampling -/

/-- The input synchroniser and the register of the edge detector. -/
structure Sampler where
  rff : Bool
  dataRxSynced : Bool
  rxDataSyncPrev : Bool

namespace Sampler

def reset : Sampler := ⟨true, true, true⟩

structure Input where
  canRx : Bool
  prevRxSample : Bool
  ctrl : Prescaler.Input

def syncEdge (q : Sampler) (prevRxSample tqEdge : Bool) : Bool :=
  q.rxDataSyncPrev != q.dataRxSynced && q.rxDataSyncPrev && prevRxSample != q.dataRxSynced &&
    tqEdge

/-- The prescaler is given the edge of the detector. -/
def prescalerInput (b : Btr) (p : State × Sampler) (w : Input) : Prescaler.Input :=
  { w.ctrl with syncEdge := p.2.syncEdge w.prevRxSample (tqEdge b p.1 w.ctrl) }

def step (b : Btr) (p : State × Sampler) (w : Input) : State × Sampler :=
  (Prescaler.step b p.1 (prescalerInput b p w),
    { rff := w.canRx
      dataRxSynced := p.2.rff
      rxDataSyncPrev := if tqEdge b p.1 w.ctrl then p.2.dataRxSynced else p.2.rxDataSyncPrev })

/-- The synchroniser shows its reset value until the length of TSEG1 is loaded. -/
def Synced (p : State × Sampler) : Prop :=
  (p.1.mrSettingsEnaReg2 = false → p.2.dataRxSynced = true) ∧
    (p.1.mrSettingsEnaReg = false → p.2.rff = true)

theorem synced_step (p : State × Sampler) (w : Input) (h : Synced p)
    (hena : w.ctrl.mrSettingsEna = true) : Synced (step b p w) := by
  refine ⟨fun he => h.2 he, fun he => ?_⟩
  change w.ctrl.mrSettingsEna = false at he
  rw [hena] at he
  cases he

/-- Bus sampling aligns the edges as the laws assume. -/
theorem edges_aligned (ws : List Input)
    (h : Admits (step b) (fun _ w => w.ctrl.mrSettingsEna = true) (Prescaler.reset, reset) ws)
    (w : Input)
    (he : (prescalerInput b (run (step b) (Prescaler.reset, reset) ws) w).syncEdge = true) :
    tqEdge b (run (step b) (Prescaler.reset, reset) ws).1
        (prescalerInput b (run (step b) (Prescaler.reset, reset) ws) w) = true ∧
      (run (step b) (Prescaler.reset, reset) ws).1.mrSettingsEnaReg2 = true := by
  have hs : Synced (run (step b) (Prescaler.reset, reset) ws) :=
    SyncMachine.run_invariant (step b) _ Synced synced_step ⟨fun _ => rfl, fun _ => rfl⟩ ws h
  simp only [prescalerInput, syncEdge, Bool.and_eq_true] at he
  refine ⟨he.2, ?_⟩
  by_contra hx
  have := hs.1 (by simpa using hx)
  simp [this, he.1.1.2] at he

end Sampler

end Prescaler
