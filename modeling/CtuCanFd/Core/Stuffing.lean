import CtuCanFd.Core.Blocks

/-!
# Stuffing and destuffing in lockstep

A transmitter stuffs the bit it sends at the TX trigger and destuffs the same bit
at the next sample point. With regular stuffing the two circuits hold the same
run of equal bits whenever every bit sent was sampled, and stuffing is one bit
ahead between the two triggers.
-/

namespace BitStuffing

variable {t : BitStuffing} {i : Input}

/-- Enabled, with regular stuffing. -/
structure Regular (i : Input) : Prop where
  enabled : i.stuffEnable = true
  regular : i.fixedStuff = false

theorem step_quiet (hr : Regular i) (ht : i.bstTrigger = false) (hp : t.enablePrev = true)
    (hn : i.txFrameNoSof = false) :
    (t.step i).sameBitsQ = t.sameBitsQ ∧ (t.step i).dataOut = t.dataOut ∧
      (t.step i).dataHaltQ = t.dataHaltQ := by
  simp [step, sameBitsD, sameBitsRst, dataHalt, hr.enabled, ht, hp, hn]

/-- In a start without SOF the counter is preset in every cycle from the next bit. -/
theorem step_noSof (hr : Regular i) (hn : i.txFrameNoSof = true) :
    (t.step i).sameBitsQ = if i.dataIn then 1 else 2 := by
  cases hd : i.dataIn <;> simp [step, sameBitsD, hr.enabled, hn, hd]

theorem insertStuffBit_regular (hr : Regular i) :
    t.insertStuffBit i = (t.sameBitsQ == 5) := by
  simp [insertStuffBit, nonFixToFixChng, stuffLvlReached, hr.regular]

theorem dataHalt_send (hr : Regular i) (ht : i.bstTrigger = true) (hp : t.enablePrev = true) :
    t.dataHalt i = (t.sameBitsQ == 5) := by
  simp [dataHalt, insertStuffBit_regular hr, hr.enabled, ht, hp]

theorem dataHalt_low (hr : Regular i) (ht : i.bstTrigger = true) (h5 : t.sameBitsQ ≠ 5) :
    t.dataHalt i = false := by
  simp [dataHalt, insertStuffBit_regular hr, ht, h5]

/-- What a TX trigger sends below the stuff level. -/
theorem dataOut_low (hr : Regular i) (ht : i.bstTrigger = true) (h5 : t.sameBitsQ ≠ 5) :
    (t.step i).dataOut = i.dataIn := by
  simp [step, insertStuffBit_regular hr, ht, h5]

end BitStuffing

namespace BitDestuffing

variable {d : BitDestuffing} {j : Input}

/-- Enabled, with regular stuffing. -/
structure Regular (j : Input) : Prop where
  enabled : j.destuffEnable = true
  regular : j.fixedStuff = false

theorem step_quiet (hr : Regular j) (ht : j.bdsTrigger = false)
    (hp : d.enablePrev = true ∨ d.sameBitsQ = 1) :
    (d.step j).sameBitsQ = d.sameBitsQ ∧ (d.step j).prevValQ = d.prevValQ ∧
      (d.step j).dataOut = d.dataOut := by
  rcases hp with hp | hp <;> simp [step, sameBitsErase, hr.enabled, ht, hp]

theorem discardStuffBit_regular (hr : Regular j) :
    d.discardStuffBit j = (d.sameBitsQ == 5) := by
  simp [discardStuffBit, nonFixToFixChng, stuffLvlReached, hr.regular]

/-- What a sample point does to the run of equal bits. -/
theorem step_sample (hr : Regular j) (ht : j.bdsTrigger = true) (hp : d.enablePrev = true)
    (h5 : d.sameBitsQ ≤ 5) :
    (d.step j).sameBitsQ =
        (if d.sameBitsQ = 5 ∨ j.dataIn ≠ d.prevValQ then 1 else d.sameBitsQ + 1) ∧
      (d.step j).prevValQ = j.dataIn ∧ (d.step j).dataOut = j.dataIn ∧
      (d.step j).destuffedQ = (d.sameBitsQ == 5) ∧
      (d.step j).stuffErrQ = ((d.sameBitsQ == 5) && d.prevValQ == j.dataIn) := by
  refine ⟨?_, ?_, ?_, ?_, ?_⟩
  · simp only [step, sameBitsErase, hr.enabled, ht, hp, discardStuffBit_regular hr, hr.regular]
    by_cases h : d.sameBitsQ = 5
    · simp [h]
    · have hlt : (d.sameBitsQ + 1) % 8 = d.sameBitsQ + 1 := by omega
      simp [h, hlt]
  · simp [step, ht, nonFixToFixChng, hr.regular]
  · simp [step, ht]
  · simp [step, ht, hr.enabled, discardStuffBit_regular hr]
  · simp [step, ht, stuffRuleViolate, hr.enabled, discardStuffBit_regular hr]

end BitDestuffing

/-- Every bit sent has been sampled. -/
structure StuffLevel (t : BitStuffing) (d : BitDestuffing) : Prop where
  sameBits : t.sameBitsQ = d.sameBitsQ
  value : t.dataOut = d.prevValQ

/-- One bit has been sent that is still to be sampled; it is a stuff bit when the
run of sampled bits is complete. -/
structure StuffAhead (t : BitStuffing) (d : BitDestuffing) : Prop where
  halt : t.dataHaltQ = (d.sameBitsQ == 5)
  stuff : d.sameBitsQ = 5 → t.dataOut = !d.prevValQ
  sameBits : t.sameBitsQ =
    if d.sameBitsQ = 5 ∨ t.dataOut ≠ d.prevValQ then 1 else d.sameBitsQ + 1

section Lockstep

variable {t : BitStuffing} {d : BitDestuffing} {i : BitStuffing.Input} {j : BitDestuffing.Input}

/-- A TX trigger sends one bit ahead. The two counters may differ as long as
neither has reached the stuff level and the bit ends the run; stuffing may then
also be in its first cycle. -/
theorem StuffAhead.of_send (hr : BitStuffing.Regular i) (ht : i.bstTrigger = true)
    (hn : i.txFrameNoSof = false)
    (hp : t.enablePrev = true ∨ (t.sameBitsQ ≠ 5 ∧ i.dataIn ≠ t.dataOut)) (h5 : d.sameBitsQ ≤ 5)
    (hv : t.dataOut = d.prevValQ) (hs : t.sameBitsQ = 5 ↔ d.sameBitsQ = 5)
    (heq : i.dataIn = t.dataOut → t.sameBitsQ = d.sameBitsQ) :
    StuffAhead (t.step i) d := by
  by_cases h : d.sameBitsQ = 5
  · have h' := hs.mpr h
    have hp : t.enablePrev = true := hp.resolve_right fun hne => hne.1 h'
    have hout : (t.step i).dataOut = !t.dataOut := by
      simp [BitStuffing.step, BitStuffing.insertStuffBit_regular hr, hr.enabled, ht, h']
    have hhalt : (t.step i).dataHaltQ = true := by
      have : (t.step i).dataHaltQ = t.dataHalt i := rfl
      rw [this, BitStuffing.dataHalt_send hr ht hp, h']
      rfl
    refine ⟨by rw [hhalt, h]; rfl, fun _ => by rw [hout, hv], ?_⟩
    simp [BitStuffing.step, BitStuffing.sameBitsD, BitStuffing.sameBitsRst, hr.enabled, hn, ht,
      BitStuffing.stuffLvlReached, h', h]
  · have h' : t.sameBitsQ ≠ 5 := fun ht5 => h (hs.mp ht5)
    have hout := BitStuffing.dataOut_low (t := t) hr ht h'
    have hhalt : (t.step i).dataHaltQ = false := BitStuffing.dataHalt_low hr ht h'
    refine ⟨by rw [hhalt, beq_eq_false_iff_ne.mpr h], fun h5 => absurd h5 h, ?_⟩
    rw [hout, ← hv]
    simp only [BitStuffing.step, BitStuffing.sameBitsD, BitStuffing.sameBitsRst, hr.enabled, hn, ht,
      BitStuffing.stuffLvlReached, BitStuffing.nonFixToFixChng, hr.regular]
    by_cases hd : i.dataIn = t.dataOut
    · have hp : t.enablePrev = true := hp.resolve_right fun hne => hne.2 hd
      have hlt : (d.sameBitsQ + 1) % 8 = d.sameBitsQ + 1 := by omega
      simp [h, heq hd, hd, hlt, hp]
    · simp [hd, h]

/-- Sampling the bit sent brings the circuits level again. -/
theorem StuffAhead.level (h : StuffAhead t d) (hr : BitDestuffing.Regular j)
    (ht : j.bdsTrigger = true) (hp : d.enablePrev = true) (h5 : d.sameBitsQ ≤ 5)
    (hin : j.dataIn = t.dataOut) : StuffLevel t (d.step j) := by
  obtain ⟨hs, hv, -, -, -⟩ := BitDestuffing.step_sample (d := d) hr ht hp h5
  refine ⟨?_, by rw [hv, hin]⟩
  rw [hs, h.sameBits, hin]

/-- A stuff bit that is sampled wrong is a stuff error. -/
theorem StuffAhead.violation (h : StuffAhead t d) (hr : BitDestuffing.Regular j)
    (ht : j.bdsTrigger = true) (hp : d.enablePrev = true) (h5 : d.sameBitsQ ≤ 5)
    (hin : j.dataIn ≠ t.dataOut) (hh : t.dataHaltQ = true) : (d.step j).stuffErrQ = true := by
  obtain ⟨-, -, -, -, he⟩ := BitDestuffing.step_sample (d := d) hr ht hp h5
  have hfull : d.sameBitsQ = 5 := by simpa [hh] using h.halt
  have hval := h.stuff hfull
  rw [he, hfull]
  cases hd : j.dataIn <;> cases ho : t.dataOut <;> simp_all

end Lockstep
