import CtuCanFd.Core.HeaderFields

/-!
# Counting stuff bits

In an ISO CAN FD frame the transmitter sends the number of stuff bits before the CRC, and a
receiver compares it with its own count. `bit_destuffing` counts the stuff bits of the fields
with regular stuffing only, and keeps the count through the fields with fixed stuffing, where
the run of bits it follows only says where the next fixed stuff bit is.
-/

open ProtocolControl SyncMachine

namespace CanCore

/-- Stuff bits outside fixed stuffing. -/
def regularStuff (v : List FrameBit) : Nat := v.countP fun b => b.stuff && !b.fixed

theorem regularStuff_concat (v : List FrameBit) (b : FrameBit) :
    regularStuff (v ++ [b]) = regularStuff v + if b.stuff && !b.fixed then 1 else 0 := by
  cases h : b.stuff && !b.fixed <;> simp [regularStuff, h]

/-! ## Regular stuffing -/

/-- The counter is cleared in the cycle after destuffing is switched on. -/
structure Tallies (d : BitDestuffing) (v : List FrameBit) : Prop where
  count : d.enablePrev = true → d.dstCtrQ = regularStuff v % 8
  fresh : d.enablePrev = false → regularStuff v = 0

section Tallies

variable {d : BitDestuffing} {b : BitDestuffing.Input} {v : List FrameBit}

theorem Tallies.quiet (h : Tallies d v) (ht : b.bdsTrigger = false)
    (he : b.destuffEnable = true) : Tallies (d.step b) v where
  count _ := by
    cases hp : d.enablePrev
    · simp [BitDestuffing.step, he, hp, h.fresh hp]
    · simpa [BitDestuffing.step, he, hp, ht] using h.count hp
  fresh hp := by simp [BitDestuffing.step, he] at hp

theorem Tallies.sample (h : Tallies d v) {u : BitRun} (hu : Tracks d u) (ht : b.bdsTrigger = true)
    (he : b.destuffEnable = true) (hp : d.enablePrev = true) :
    Tallies (d.step b) (v ++ [⟨b.dataIn, u.stuffDue b.fixedStuff, b.fixedStuff⟩]) where
  count _ := by
    have hlvl : d.stuffLvlReached = (u.length == 5) := by
      simp [BitDestuffing.stuffLvlReached, hu.length]
    have hctr := h.count hp
    rw [regularStuff_concat]
    cases hb : b.fixedStuff <;> cases hl : u.length == 5 <;>
      simp [BitDestuffing.step, he, hp, ht, hlvl, hl, hb, BitRun.stuffDue, hctr]
  fresh hp' := by simp [BitDestuffing.step, he] at hp'

end Tallies

section Core

variable {c : Config} {k : Clock} {s : State} {i : Input} {v : List FrameBit}

/-- The bit sampled is a stuff bit where the rules put one. -/
theorem upTo_sample (hm : Marks c k s v) (hf : Following c k s) (hok : Bench k s i)
    (he : s.err.errFrmReq = false) (hq : s.pc.currState.inCovered = true)
    (hrx : i.rxTrigReq = true) :
    upTo (k.next s i) (step c s i) (seen c v s i) =
      v ++ [⟨(bdsInput c s i).dataIn, (bitRun v).stuffDue (bdsInput c s i).fixedStuff,
        (bdsInput c s i).fixedStuff⟩] := by
  have hk := (hok.sample hrx).2
  have h0 : k.since ≠ 0 := by omega
  obtain ⟨-, htr, hfx⟩ := hm.tracks hq he
  obtain ⟨hen, hprev⟩ := hm.enabled hq he
  have hs := (kept_between (c := c) (i := i) he (.inl (inStuffed_of_inCovered hq))
    (hf.paced.noTrigger h0)).state
  have hz : (k.next s i).since = 0 := by simp [Clock.next, sinceSample, hrx]
  have hin : (bdsInput c s i).fixedStuff = (s.pc.currState == .stuffCount) :=
    fixedStuff_covered he hq
  rw [upTo_between h0] at htr hfx
  have hdest : (step c s i).bds.destuffedQ = _ :=
    (htr.sample (b := bdsInput c s i) hrx hen (hprev (by omega))
      fun hu => by rw [hin, hfx hu]; rfl).1
  have hout : (step c s i).bds.dataOut = (bdsInput c s i).dataIn := by
    have hb : (bdsInput c s i).bdsTrigger = true := hrx
    simp [step, BitDestuffing.step, hb]
  rw [seen_between hf.paced (.inr h0) (.inr h0), upTo, if_pos hz, hout, hdest, hs, hin]

/-- Up to the stuff count the counter follows the frame. -/
theorem tallies_next (h : s.pc.currState.inCovered = true → s.err.errFrmReq = false →
      Tallies s.bds (upTo k s v)) (hm : Marks c k s v) (hf : Following c k s) (hok : Bench k s i)
    (h' : (step c s i).pc.currState.inCovered = true) :
    Tallies (step c s i).bds (upTo (k.next s i) (step c s i) (seen c v s i)) := by
  obtain ⟨he, hq | ⟨hq, ht, hp'⟩⟩ := enter_covered h'
  · obtain ⟨hen, hprev⟩ := hm.enabled hq he
    have htl := h hq he
    cases hrx : i.rxTrigReq
    · have h1 : (k.next s i).since ≠ 0 := by simp [Clock.next, sinceSample, hrx]
      rw [upTo_between h1, Marks.seen_upTo hf he hq]
      exact htl.quiet (b := bdsInput c s i) hrx hen
    · have hk := (hok.sample hrx).2
      have h0 : k.since ≠ 0 := by omega
      have htr := (hm.tracks hq he).2.1
      rw [upTo_sample hm hf hok he hq hrx]
      rw [upTo_between h0] at htl htr
      exact htl.sample htr (b := bdsInput c s i) hrx hen (hprev (by omega))
  · have h0 := hf.paced.pcRxTrigger_since ht
    have h1 : (k.next s i).since ≠ 0 := by rw [(hf.next_take hok h0).1]; decide
    have hden := (hf.pause_off hq).2
    have hprev : (step c s i).bds.enablePrev = false := hden
    have hcov := inCovered_of_inPause hq
    rw [upTo_between h1]
    refine ⟨fun hp => absurd (hprev.symm.trans hp) (by decide), fun _ => ?_⟩
    obtain ⟨-, -, -, hst⟩ := start_bit he hq ht hp'
    rcases hst with ⟨hst, -⟩ | ⟨hst, -⟩ <;> simp [seen, he, hcov, hq, ht, hst, regularStuff]

end Core

/-! ## Fixed stuffing -/

/-- After `m` bits of the fields with fixed stuffing: a stuff bit comes first, and one after
every fourth bit. -/
structure FixedRun (m : Nat) (d : BitDestuffing) : Prop where
  first : d.fixedPrevQ = false → m = 0
  run : d.fixedPrevQ = true →
    d.sameBitsQ = 1 + m % 4 ∨ (d.sameBitsQ = 5 ∧ m % 4 = 0 ∧ m ≠ 0)

section FixedRun

variable {m : Nat} {d : BitDestuffing} {b : BitDestuffing.Input}

theorem FixedRun.sample (h : FixedRun m d) (ht : b.bdsTrigger = true)
    (he : b.destuffEnable = true) (hp : d.enablePrev = true) (hf : b.fixedStuff = true) :
    FixedRun (if (d.step b).destuffedQ then m else m + 1) (d.step b) ∧
      (d.step b).dstCtrQ = d.dstCtrQ := by
  have hfix : (d.step b).fixedPrevQ = true := by simp [BitDestuffing.step, he, hp, ht, hf]
  have hctr : (d.step b).dstCtrQ = d.dstCtrQ := by simp [BitDestuffing.step, he, hp, hf]
  have hdest : (d.step b).destuffedQ = (!d.fixedPrevQ || d.sameBitsQ == 5) := by
    simp [BitDestuffing.step, he, ht, BitDestuffing.discardStuffBit,
      BitDestuffing.nonFixToFixChng, BitDestuffing.stuffLvlReached, hf]
  have hsame : (d.step b).sameBitsQ =
      if (d.step b).destuffedQ then 1 else (d.sameBitsQ + 1) % 8 := by
    rw [hdest]
    simp [BitDestuffing.step, BitDestuffing.sameBitsErase, he, hp, ht, hf,
      BitDestuffing.discardStuffBit, BitDestuffing.nonFixToFixChng,
      BitDestuffing.stuffLvlReached]
  refine ⟨⟨fun hx => absurd (hfix.symm.trans hx) (by decide), fun _ => ?_⟩, hctr⟩
  rw [hsame]
  cases hd : (d.step b).destuffedQ
  · -- a bit of the field
    rw [hdest, Bool.or_eq_false_iff, Bool.not_eq_false', beq_eq_false_iff_ne] at hd
    rcases h.run hd.1 with hs | ⟨hs, -⟩
    · simp only [Bool.false_eq_true, if_false, hs]
      omega
    · exact absurd hs hd.2
  · left
    simp only [if_true]
    rw [hdest, Bool.or_eq_true, Bool.not_eq_true', beq_iff_eq] at hd
    cases hfx : d.fixedPrevQ
    · rw [h.first hfx]
    · rcases h.run hfx with hs | ⟨-, hs, -⟩
      · have h5 : d.sameBitsQ = 5 := by simpa [hfx] using hd
        omega
      · omega

theorem FixedRun.quiet (h : FixedRun m d) (ht : b.bdsTrigger = false)
    (he : b.destuffEnable = true) (hp : d.enablePrev = true) : FixedRun m (d.step b) := by
  rw [StuffLink.destuffing_quiet ht he hp]
  exact ⟨h.first, h.run⟩

end FixedRun

end CanCore
