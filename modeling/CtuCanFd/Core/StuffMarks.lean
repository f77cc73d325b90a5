import CtuCanFd.Core.Coverage
import CtuCanFd.Core.DataWords

/-!
# The stuff bits of a frame

The stuff bits of a frame are a function of its bits and of where fixed stuffing starts: a
stuff bit follows five equal bits, and in a field with fixed stuffing it comes first and after
every fourth bit. Every node marks its bits by these rules, and its CRC covers the frame so
marked.
-/

open ProtocolControl SyncMachine

namespace CanCore

/-! ## The stuffing rules -/

/-- What the bits so far say about the next one: the length of the run they end with (since
the last stuff bit in a field with fixed stuffing), and the last bit with its field. -/
structure BitRun where
  length : Nat
  last : Bool
  fixed : Bool
deriving DecidableEq, Repr

namespace BitRun

/-- SOF comes after a recessive bit. -/
def beforeSof : BitRun := ⟨1, true, false⟩

/-- A stuff bit is the first bit of a new run. -/
def next (u : BitRun) (b : FrameBit) : BitRun where
  length := if b.stuff || (!b.fixed && b.bit != u.last) then 1 else u.length + 1
  last := b.bit
  fixed := b.fixed

def stuffDue (u : BitRun) (fixed : Bool) : Bool := fixed && !u.fixed || u.length == 5

end BitRun

/-- The stuff bits among bits that are given with their fields. -/
def mark : BitRun → List (Bool × Bool) → List FrameBit
  | _, [] => []
  | u, (bit, fixed) :: bits =>
    ⟨bit, u.stuffDue fixed, fixed⟩ :: mark (u.next ⟨bit, u.stuffDue fixed, fixed⟩) bits

def raw (v : List FrameBit) : List (Bool × Bool) := v.map fun b => (b.bit, b.fixed)

/-- The stuff bits are where the stuffing rules put them. -/
def Marked (v : List FrameBit) : Prop := mark .beforeSof (raw v) = v

def bitRun (v : List FrameBit) : BitRun := v.foldl BitRun.next .beforeSof

theorem mark_concat (u : BitRun) (v : List FrameBit) (b : FrameBit)
    (hv : mark u (raw v) = v) (hb : b.stuff = (v.foldl BitRun.next u).stuffDue b.fixed) :
    mark u (raw (v ++ [b])) = v ++ [b] := by
  induction v generalizing u with
  | nil =>
    obtain ⟨bit, stuff, fixed⟩ := b
    simp only [List.foldl_nil] at hb
    simp [raw, mark, hb]
  | cons a v ih =>
    obtain ⟨bit, stuff, fixed⟩ := a
    simp only [raw, List.map_cons, mark, List.cons.injEq, FrameBit.mk.injEq, true_and,
      and_true] at hv
    obtain ⟨rfl, hv⟩ := hv
    have := ih _ hv hb
    simpa [raw, mark] using this

theorem Marked.concat {v : List FrameBit} {b : FrameBit} (h : Marked v)
    (hb : b.stuff = (bitRun v).stuffDue b.fixed) : Marked (v ++ [b]) :=
  mark_concat _ _ _ h hb

/-! ## Destuffing keeps to the rules -/

/-- `bit_destuffing` knows the run of the bits it took. Before it is enabled, that is the one
bit before the frame or its SOF. -/
structure Tracks (d : BitDestuffing) (u : BitRun) : Prop where
  length : d.sameBitsQ = u.length
  low : u.length ≤ 5
  last : u.fixed = false → d.prevValQ = u.last
  fixed : d.enablePrev = true → d.fixedPrevQ = u.fixed
  fresh : d.enablePrev = false → u.length = 1 ∧ u.fixed = false

section Tracks

variable {d : BitDestuffing} {u : BitRun} {b : BitDestuffing.Input}

theorem Tracks.quiet (h : Tracks d u) (ht : b.bdsTrigger = false) (he : b.destuffEnable = true) :
    Tracks (d.step b) u := by
  cases hp : d.enablePrev
  · obtain ⟨h1, hf⟩ := h.fresh hp
    refine ⟨?_, h.low, fun hu => ?_, fun _ => ?_, fun hp' => ?_⟩
    · simp [BitDestuffing.step, BitDestuffing.sameBitsErase, hp, h1]
    · simpa [BitDestuffing.step, ht] using h.last hu
    · simp [BitDestuffing.step, he, hp, hf]
    · simp [BitDestuffing.step, he] at hp'
  · rw [StuffLink.destuffing_quiet ht he hp]
    exact ⟨h.length, h.low, h.last, h.fixed, h.fresh⟩

/-- A sampled bit is destuffed exactly when the rules say so. -/
theorem Tracks.sample (h : Tracks d u) (ht : b.bdsTrigger = true) (he : b.destuffEnable = true)
    (hp : d.enablePrev = true) (hf : u.fixed = true → b.fixedStuff = true) :
    (d.step b).destuffedQ = u.stuffDue b.fixedStuff ∧
      Tracks (d.step b) (u.next ⟨b.dataIn, u.stuffDue b.fixedStuff, b.fixedStuff⟩) := by
  have hdis : d.discardStuffBit b = u.stuffDue b.fixedStuff := by
    simp [BitDestuffing.discardStuffBit, BitDestuffing.nonFixToFixChng,
      BitDestuffing.stuffLvlReached, BitRun.stuffDue, h.length, h.fixed hp]
  have hlow := h.low
  have hlt : (u.length + 1) % 8 = u.length + 1 := by omega
  refine ⟨by simp [BitDestuffing.step, he, ht, hdis], ⟨?_, ?_, fun hfx => ?_, fun _ => ?_,
    fun hp' => ?_⟩⟩
  · -- the bit before counts only where no field with fixed stuffing is involved
    have herase : d.sameBitsErase b =
        (u.stuffDue b.fixedStuff || (!b.fixedStuff && b.dataIn != u.last)) := by
      cases hb : b.fixedStuff
      · have hu : u.fixed = false := by
          by_contra hu
          simp [hf (by simpa using hu)] at hb
        simp [BitDestuffing.sameBitsErase, he, hp, ht, hdis, hb, h.last hu]
      · simp [BitDestuffing.sameBitsErase, he, hp, ht, hdis, hb]
    simp [BitDestuffing.step, herase, ht, BitRun.next, h.length, hlt]
  · simp only [BitRun.next]
    split
    · decide
    · rename_i hn
      have h5 : u.length ≠ 5 := by
        intro h5
        simp [BitRun.stuffDue, h5] at hn
      omega
  · have hfx : b.fixedStuff = false := hfx
    simp [BitDestuffing.step, ht, BitDestuffing.nonFixToFixChng, hfx, BitRun.next]
  · simp [BitDestuffing.step, he, hp, ht, BitRun.next]
  · simp [BitDestuffing.step, he] at hp'

end Tracks

/-! ## Invariant -/

section Marks

variable {c : Config} {k : Clock} {s : State} {i : Input} {v : List FrameBit}

/-- A frame starts with a dominant SOF. -/
def Started (v : List FrameBit) : Prop := ∃ w, v = ⟨false, false, false⟩ :: w

/-- With the bit that was sampled last, which protocol control takes in this cycle. -/
def upTo (k : Clock) (s : State) (v : List FrameBit) : List FrameBit :=
  if k.since = 0 then
    v ++ [⟨s.bds.dataOut, s.bds.destuffedQ, s.pc.currState == .stuffCount⟩]
  else v

structure Marks (c : Config) (k : Clock) (s : State) (v : List FrameBit) : Prop where
  exception : s.pc.currState = .r0Fd → c.mrSettingsPex = true → c.mrModeFde = true
  enabled : s.pc.currState.inCovered = true → s.err.errFrmReq = false →
    s.pc.destuffEnable = true ∧ (k.since ≠ 1 → s.bds.enablePrev = true)
  tracks : s.pc.currState.inCovered = true → s.err.errFrmReq = false →
    Marked (upTo k s v) ∧ Tracks s.bds (bitRun (upTo k s v)) ∧
      ((bitRun (upTo k s v)).fixed = true → s.pc.currState = .stuffCount)
  sof : s.pc.currState.inCovered = true → s.err.errFrmReq = false →
    (v = [] ∧ s.pc.currState = .sof) ∨ Started v
  done : s.pc.currState.behindCovered = true → s.err.errFrmReq = false → Marked v ∧ Started v

theorem upTo_between (h0 : k.since ≠ 0) : upTo k s v = v := if_neg h0

/-- Destuffing is switched on where a frame starts. -/
theorem destuff_start (hf : Following c k s) (he : s.err.errFrmReq = false)
    (hq : s.pc.currState.inPause = true) (ht : pcRxTrigger s = true)
    (h' : (step c s i).pc.currState.inPlain = true) :
    (step c s i).pc.destuffEnable = true := by
  have hu : ctrlSignalUpd (pcInput c s i) = true := by simp [ctrlSignalUpd, ht]
  have hset : (out c s.pc (pcInput c s i)).destuffEnableSet = true := by
    cases hset : (out c s.pc (pcInput c s i)).setTransmitterI
    · obtain ⟨hr, -⟩ := start_receiver (c := c) (q := s.pc) (i := pcInput c s i) he hq ht h' hset
      rw [out_state he] at hr ⊢
      cases hs : s.pc.currState <;> rw [hs] at hq hr <;> first | exact absurd hq (by decide) | skip
      all_goals
        simp [outState, outIntermission, outSuspend, outIdle, frameStart] at hr ⊢
        grind
    · obtain ⟨-, -, -, hd, -⟩ := start_transmitter (c := c) (q := s.pc) (i := pcInput c s i) he ht
        (fun hq => hf.idle_role hq) hset
      exact hd
  simp [step, ProtocolControl.step, hu, hset]

/-- Only a protocol exception switches it off again before the CRC. -/
theorem destuff_kept (he : s.err.errFrmReq = false) (hq : s.pc.currState.inCovered = true)
    (hr : s.pc.currState = .r0Fd → c.mrSettingsPex = true → c.mrModeFde = true)
    (h' : (step c s i).pc.currState ≠ .integrating) :
    (step c s i).pc.destuffEnable = s.pc.destuffEnable := by
  cases ht : pcRxTrigger s
  · exact (kept_between he (.inl (inStuffed_of_inCovered hq)) ht).destuffEnable
  · have hn : (step c s i).pc.currState = nextState c s.pc (pcInput c s i) := by
      refine step_sample ht he fun hst => ?_
      rcases hst with ⟨hst, -⟩ | ⟨hst, -⟩ <;> rw [hst] at hq <;> cases hq
    rw [hn] at h'
    have hu : ctrlSignalUpd (pcInput c s i) = true := by simp [ctrlSignalUpd, ht]
    have hout : (out c s.pc (pcInput c s i)).destuffEnableSet = false ∧
        (out c s.pc (pcInput c s i)).destuffEnableClear = false := by
      rw [out_state he]
      simp only [nextState, he, pcInput_errFrmReq] at h'
      cases hs : s.pc.currState <;> rw [hs] at hq h' <;>
        first | exact absurd hq (by decide) | exact ⟨rfl, rfl⟩ | skip
      all_goals
        simp [outState, outEdlR1, outEdlR0, outR0Fd, pexOnFdfEnable, pexOnResEnable] at h' ⊢
        grind
    simp [step, ProtocolControl.step, hu, hout.1, hout.2]

/-- With protocol exceptions on, only a CAN FD node gets to the bit after EDL. -/
theorem enter_r0Fd (h : s.pc.currState = .r0Fd → c.mrSettingsPex = true → c.mrModeFde = true)
    (he : s.err.errFrmReq = false) (h' : (step c s i).pc.currState = .r0Fd)
    (hpex : c.mrSettingsPex = true) : c.mrModeFde = true := by
  have hedge : ∀ st : PcState, .r0Fd ∈ st.successors → st = .edlR1 ∨ st = .edlR0 := by decide
  by_cases hq : s.pc.currState = .r0Fd
  · exact h hq hpex
  rcases state_cases (c := c) (i := i) he with hs | ⟨-, hs⟩
  · exact absurd (hs.symm.trans h') hq
  have hn : nextState c s.pc (pcInput c s i) = .r0Fd := hs.symm.trans h'
  have hmem := (nextState_flow (c := c) (q := s.pc) (i := pcInput c s i) he).resolve_left
    fun hst => hq (hst.symm.trans hn)
  rw [hn] at hmem
  rcases hedge _ hmem with hst | hst <;>
    simp [nextState, he, hst, pexOnFdfEnable, hpex] at hn <;> grind

namespace Marks

theorem next_enabled (h : Marks c k s v) (hf : Following c k s) (hok : Bench k s i)
    (h' : (step c s i).pc.currState.inCovered = true) :
    (step c s i).pc.destuffEnable = true ∧
      ((k.next s i).since ≠ 1 → (step c s i).bds.enablePrev = true) := by
  obtain ⟨he, hq | ⟨hq, ht, hp'⟩⟩ := enter_covered h'
  · have hen := (h.enabled hq he).1
    have hne : (step c s i).pc.currState ≠ .integrating := by
      intro hi
      rw [hi] at h'
      cases h'
    exact ⟨(destuff_kept he hq h.exception hne).trans hen, fun _ => bds_enablePrev hen⟩
  · have h0 := hf.paced.pcRxTrigger_since ht
    exact ⟨destuff_start hf he hq ht hp', fun h1 => absurd (hf.next_take hok h0).1 h1⟩

/-- The first bit of a frame. -/
theorem next_start (hf : Following c k s) (hok : Bench k s i) (he : s.err.errFrmReq = false)
    (hq : s.pc.currState.inPause = true) (ht : pcRxTrigger s = true)
    (h' : (step c s i).pc.currState.inPlain = true) :
    Marked (seen c v s i) ∧ Tracks (step c s i).bds (bitRun (seen c v s i)) ∧
      (bitRun (seen c v s i)).fixed = false ∧
      (seen c v s i = [] ∧ (step c s i).pc.currState = .sof ∨ Started (seen c v s i)) := by
  have h0 := hf.paced.pcRxTrigger_since ht
  obtain ⟨hrx, -⟩ := Following.quiet_take hok h0
  have hden := (hf.pause_off hq).2
  have hcov := inCovered_of_inPause hq
  have hrun : (step c s i).bds.sameBitsQ = 1 := by
    simp [step, BitDestuffing.step, BitDestuffing.sameBitsErase, bdsInput, hden]
  have hprev : (step c s i).bds.enablePrev = false := hden
  have hval : (step c s i).bds.prevValQ = s.bds.dataOut := by
    simpa [step, BitDestuffing.step, bdsInput, hrx] using hf.pause_value hq h0
  have htracks : ∀ b, s.bds.dataOut = b → Tracks (step c s i).bds ⟨1, b, false⟩ := fun b hb =>
    ⟨hrun, by simp, fun _ => hval.trans hb, fun hp => absurd (hprev.symm.trans hp) (by decide),
      fun _ => ⟨rfl, rfl⟩⟩
  obtain ⟨-, -, -, hst⟩ := start_bit he hq ht h'
  rcases hst with ⟨hst, hbit⟩ | ⟨hst, hbit⟩
  · have hseen : seen c v s i = [⟨false, false, false⟩] := by
      simp [seen, he, hcov, hq, ht, hst, hbit]
    rw [hseen]
    exact ⟨rfl, htracks false hbit, rfl, .inr ⟨[], rfl⟩⟩
  · have hseen : seen c v s i = [] := by simp [seen, he, hcov, hq, ht, hst]
    rw [hseen]
    exact ⟨rfl, htracks true hbit, rfl, .inl ⟨rfl, hst⟩⟩

theorem seen_upTo (hf : Following c k s) (he : s.err.errFrmReq = false)
    (hq : s.pc.currState.inCovered = true) : seen c v s i = upTo k s v := by
  by_cases h0 : k.since = 0
  · rw [seen_take (h0 ▸ hf.paced) he hq, upTo, if_pos h0]
  · rw [seen_between hf.paced (.inr h0) (.inr h0), upTo_between h0]

theorem next_tracks (h : Marks c k s v) (hf : Following c k s) (hok : Bench k s i)
    (h' : (step c s i).pc.currState.inCovered = true) :
    Marked (upTo (k.next s i) (step c s i) (seen c v s i)) ∧
      Tracks (step c s i).bds (bitRun (upTo (k.next s i) (step c s i) (seen c v s i))) ∧
      ((bitRun (upTo (k.next s i) (step c s i) (seen c v s i))).fixed = true →
        (step c s i).pc.currState = .stuffCount) := by
  obtain ⟨he, hq | ⟨hq, ht, hp'⟩⟩ := enter_covered h'
  · obtain ⟨hm, htr, hfx⟩ := h.tracks hq he
    obtain ⟨hen, hprev⟩ := h.enabled hq he
    -- fixed stuffing is not left within the covered fields
    have hstay : s.pc.currState = .stuffCount → (step c s i).pc.currState = .stuffCount := by
      intro hs
      have hedge : ∀ st : PcState, st ∈ PcState.successors .stuffCount → st.inCovered = false := by
        decide
      rcases state_flow (c := c) (i := i) he with hn | ⟨-, hn⟩
      · exact hn.trans hs
      · rw [hs] at hn
        exact absurd (h'.symm.trans (hedge _ hn)) (by decide)
    rw [seen_upTo hf he hq]
    cases hrx : i.rxTrigReq
    · have h1 : (k.next s i).since ≠ 0 := by simp [Clock.next, sinceSample, hrx]
      rw [upTo_between h1]
      exact ⟨hm, htr.quiet (b := bdsInput c s i) hrx hen, fun hu => hstay (hfx hu)⟩
    · have hk := (hok.sample hrx).2
      have h0 : k.since ≠ 0 := by omega
      have hs := (kept_between (c := c) (i := i) he (.inl (inStuffed_of_inCovered hq))
        (hf.paced.noTrigger h0)).state
      have hz : (k.next s i).since = 0 := by simp [Clock.next, sinceSample, hrx]
      rw [upTo_between h0] at hm htr hfx ⊢
      have hin : (bdsInput c s i).fixedStuff = (s.pc.currState == .stuffCount) :=
        fixedStuff_covered he hq
      obtain ⟨hdest, htr'⟩ := htr.sample (b := bdsInput c s i) hrx hen (hprev (by omega))
        fun hu => by rw [hin, hfx hu]; rfl
      have hout : (step c s i).bds.dataOut = (bdsInput c s i).dataIn := by
        have hb : (bdsInput c s i).bdsTrigger = true := hrx
        simp [step, BitDestuffing.step, hb]
      have hup : upTo (k.next s i) (step c s i) v =
          v ++ [⟨(bdsInput c s i).dataIn, (bitRun v).stuffDue (bdsInput c s i).fixedStuff,
            (bdsInput c s i).fixedStuff⟩] := by
        have hdest : (step c s i).bds.destuffedQ = _ := hdest
        rw [upTo, if_pos hz, hout, hdest, hs, hin]
      rw [hup]
      refine ⟨hm.concat rfl, ?_, fun hu => ?_⟩
      · have htr' : Tracks (step c s i).bds _ := htr'
        simpa [bitRun, List.foldl_append] using htr'
      · have hu : (bdsInput c s i).fixedStuff = true := by
          simpa [bitRun, List.foldl_append, BitRun.next] using hu
        rw [hs]
        simpa [hin] using hu
  · have h0 := hf.paced.pcRxTrigger_since ht
    have h1 : (k.next s i).since ≠ 0 := by rw [(hf.next_take hok h0).1]; decide
    obtain ⟨hm, htr, hfx, -⟩ := next_start (v := v) hf hok he hq ht hp'
    rw [upTo_between h1]
    exact ⟨hm, htr, fun hu => absurd (hfx.symm.trans hu) (by decide)⟩

/-- SOF is dominant, or it is a form error. -/
theorem next_sof (h : Marks c k s v) (hf : Following c k s) (he : s.err.errFrmReq = false)
    (hq : s.pc.currState.inCovered = true) (he' : (step c s i).err.errFrmReq = false) :
    (seen c v s i = [] ∧ (step c s i).pc.currState = .sof) ∨ Started (seen c v s i) := by
  rw [seen_upTo hf he hq]
  rcases h.sof hq he with ⟨hv, hs⟩ | ⟨w, hw⟩
  · by_cases h0 : k.since = 0
    · right
      have hm := (h.tracks hq he).1
      rw [upTo, if_pos h0, hv] at hm ⊢
      have hstuff : s.bds.destuffedQ = false := by
        rw [hs] at hm
        have hm : ((PcState.sof == .stuffCount) && true || false) = s.bds.destuffedQ := by
          simpa [raw, mark, BitRun.stuffDue, BitRun.beforeSof, Marked] using hm
        exact hm.symm
      have ht : pcRxTrigger s = true := by
        simp [pcRxTrigger, (h0 ▸ hf.paced : Paced s 0).trigger, hstuff]
      have hform := ((noErr_next he').2.2 ht).1
      rw [pcOut_noErr he, hs] at hform
      have hbit : s.bds.dataOut = false := hform
      exact ⟨[], by rw [hbit, hstuff, hs]; rfl⟩
    · rw [upTo_between h0]
      exact .inl ⟨hv, (step_hold (hf.paced.noTrigger h0) he).trans hs⟩
  · right
    by_cases h0 : k.since = 0
    · exact ⟨_, by rw [upTo, if_pos h0, hw]; rfl⟩
    · rw [upTo_between h0]
      exact ⟨w, hw⟩

theorem step_marks (h : Marks c k s v) (hf : Following c k s) (hok : Bench k s i) :
    Marks c (k.next s i) (step c s i) (seen c v s i) where
  exception hq hpex := by
    obtain ⟨he, -⟩ := enter_covered (c := c) (s := s) (i := i) (by rw [hq]; rfl)
    exact enter_r0Fd h.exception he hq hpex
  enabled hq _ := h.next_enabled hf hok hq
  tracks hq _ := h.next_tracks hf hok hq
  sof hq he' := by
    obtain ⟨he, hp | ⟨hp, ht, hp'⟩⟩ := enter_covered hq
    · exact h.next_sof hf he hp he'
    · exact (next_start (v := v) hf hok he hp ht hp').2.2.2
  done hq he' := by
    obtain ⟨he, hp | ⟨hp, ht⟩⟩ := enter_behind hq
    · have hdis : ∀ st : PcState, st.behindCovered → st.inCovered = false ∧ st.inPause = false := by
        decide
      rw [seen_between hf.paced (.inl (hdis _ hp).2) (.inl (hdis _ hp).1)]
      exact h.done hp he
    · refine ⟨?_, (h.next_sof hf he hp he').resolve_left ?_⟩
      · rw [seen_upTo hf he hp]
        exact (h.tracks hp he).1
      · rintro ⟨-, hs⟩
        rw [hs] at hq
        cases hq

theorem of_reset (c : Config) (sent : Bool) (v : List FrameBit) :
    Marks c ⟨4, sent, none⟩ reset v where
  exception h := by cases h
  enabled h := by cases h
  tracks h := by cases h
  sof h := by cases h
  done h := by cases h

end Marks

end Marks

/-! ## Every frame of a run -/

/-- What is recorded beside the core: its triggers, and the frame as it is sampled. -/
structure FrameWatch where
  clock : Clock
  frame : List FrameBit

def FrameWatch.next (c : Config) (w : FrameWatch) (p : CrcCore) (i : Input) : FrameWatch where
  clock := w.clock.next p.core (p.input c i)
  frame := seen c w.frame p.core (p.input c i)

def crcStep (c : Config) : CrcCore × FrameWatch → Input → CrcCore × FrameWatch :=
  watched (CrcCore.step c) (FrameWatch.next c)

def crcStart (sent : Bool) (v : List FrameBit) : CrcCore × FrameWatch :=
  (.reset, ⟨⟨4, sent, none⟩, v⟩)

def CrcBench (c : Config) (p : CrcCore × FrameWatch) (i : Input) : Prop :=
  Bench p.2.clock p.1.core (p.1.input c i)

instance (c : Config) (p : CrcCore × FrameWatch) (i : Input) : Decidable (CrcBench c p i) :=
  inferInstanceAs (Decidable (Bench _ _ _))

/-- The transmitter loads its CRC for sending, and requests no error for the bit it takes. -/
def LoadsCrc (c : Config) (p : CrcCore × FrameWatch) (i : Input) : Prop :=
  isTransmitter p.1.core = true ∧ pcRxTrigger p.1.core = true ∧
    (pcOut c p.1.core (p.1.input c i)).txLoadCrcI = true ∧
    (CrcCore.step c p.1 i).core.err.errFrmReq = false

instance (c : Config) (p : CrcCore × FrameWatch) (i : Input) : Decidable (LoadsCrc c p i) :=
  inferInstanceAs (Decidable (_ ∧ _))

/-- The CRC received is compared with the CRC calculated. -/
def ComparesCrc (c : Config) (p : CrcCore × FrameWatch) (i : Input) : Prop :=
  (pcOut c p.1.core (p.1.input c i)).crcCheck = true

instance (c : Config) (p : CrcCore × FrameWatch) (i : Input) : Decidable (ComparesCrc c p i) :=
  inferInstanceAs (Decidable (_ = _))

/-- The CRC registers cover the frame: from a dominant SOF on, CRC15 without stuff bits, CRC17
and CRC21 without fixed stuff bits. -/
structure CoversFrame (c : Config) (r : CanCrc) (v : List FrameBit) : Prop where
  marked : Marked v
  started : Started v
  holds : Holds c r (nbs v) (wbs v)

theorem txLoadCrcI_state {c : Config} {s : State} {i : Input}
    (h : (pcOut c s i).txLoadCrcI = true) :
    s.err.errFrmReq = false ∧
      (s.pc.currState = .dlc ∨ s.pc.currState = .data ∨ s.pc.currState = .stuffCount) := by
  cases he : s.err.errFrmReq
  · rw [pcOut_noErr he] at h
    refine ⟨rfl, ?_⟩
    cases hq : s.pc.currState <;> rw [hq] at h <;> first | cases h | simp
    simp [outState, outOff, apply_ite Out.txLoadCrcI] at h
  · rw [pcOut_err he] at h
    cases h

theorem crcCheck_state {c : Config} {s : State} {i : Input} (h : (pcOut c s i).crcCheck = true) :
    s.err.errFrmReq = false ∧ s.pc.currState = .crcDelim := by
  cases he : s.err.errFrmReq
  · rw [pcOut_noErr he] at h
    refine ⟨rfl, ?_⟩
    cases hq : s.pc.currState <;> rw [hq] at h <;> first | cases h | rfl | skip
    simp [outState, outOff, apply_ite Out.crcCheck] at h
  · rw [pcOut_err he] at h
    cases h

structure CrcInvariant (c : Config) (p : CrcCore × FrameWatch) : Prop where
  following : Following c p.2.clock p.1.core
  coverage : Coverage c p.2.clock p.1.core p.1.crc p.2.frame
  marks : Marks c p.2.clock p.1.core p.2.frame

theorem CrcInvariant.step_invariant {c : Config} {p : CrcCore × FrameWatch} {i : Input}
    (h : CrcInvariant c p) (hena : c.mrSettingsEna = true) (hok : CrcBench c p i) :
    CrcInvariant c (crcStep c p i) :=
  ⟨h.following.step_following hok hena, h.coverage.step_coverage h.following hok hena,
    h.marks.step_marks h.following hok⟩

theorem CrcInvariant.of_reset (c : Config) (sent : Bool) (v : List FrameBit) :
    CrcInvariant c (crcStart sent v) :=
  ⟨.of_reset sent, .of_reset c sent v, .of_reset c sent v⟩

theorem run_crcInvariant {c : Config} (hena : c.mrSettingsEna = true) (sent : Bool)
    (v : List FrameBit) (is : List Input)
    (h : Admits (crcStep c) (CrcBench c) (crcStart sent v) is) :
    CrcInvariant c (run (crcStep c) (crcStart sent v) is) :=
  run_invariant (crcStep c) (CrcBench c) (CrcInvariant c)
    (fun _ _ h hok => h.step_invariant hena hok) (.of_reset c sent v) is h

theorem CrcInvariant.loads {c : Config} {p : CrcCore × FrameWatch} {i : Input}
    (h : CrcInvariant c p) (hena : c.mrSettingsEna = true) (hok : CrcBench c p i)
    (hl : LoadsCrc c p i) : CoversFrame c p.1.crc (crcStep c p i).2.frame := by
  obtain ⟨hx, ht, hload, he'⟩ := hl
  obtain ⟨he, hq⟩ := txLoadCrcI_state hload
  have h0 := h.following.paced.pcRxTrigger_since ht
  have hcov : p.1.core.pc.currState.inCovered = true := by
    rcases hq with hq | hq | hq <;> rw [hq] <;> rfl
  have hown : ownBits p.2.clock p.1.core = true := by
    rcases hq with hq | hq | hq <;> simp [ownBits, hx, hq]
  refine ⟨?_, (h.marks.next_sof h.following he hcov he').resolve_left ?_,
    h.coverage.loaded h.following hok hena he hcov h0 hown he'⟩
  · have hm := (h.marks.tracks hcov he).1
    rw [← Marks.seen_upTo (c := c) (i := p.1.input c i) h.following he hcov] at hm
    exact hm
  · rintro ⟨-, hs⟩
    have hedge : ∀ st : PcState, .sof ∈ st.successors → st.inCovered = false := by decide
    rcases step_flow (c := c) (q := p.1.core.pc) (i := pcInput c p.1.core (p.1.input c i)) he with
      hn | ⟨-, hn⟩
    · rw [hn.symm.trans hs] at hq
      exact absurd hq (by decide)
    · have hn : (step c p.1.core (p.1.input c i)).pc.currState ∈ _ := hn
      rw [hs] at hn
      exact absurd (hcov.symm.trans (hedge _ hn)) (by decide)

theorem CrcInvariant.compares {c : Config} {p : CrcCore × FrameWatch} {i : Input}
    (h : CrcInvariant c p) (hc : ComparesCrc c p i) : CoversFrame c p.1.crc p.2.frame := by
  obtain ⟨he, hq⟩ := crcCheck_state hc
  have hb : p.1.core.pc.currState.behindCovered = true := by rw [hq]; rfl
  exact ⟨(h.marks.done hb he).1, (h.marks.done hb he).2, h.coverage.done hb he⟩

/-- A cycle of a node that has a base frame without data to send, or nothing. -/
def shortNode (valid busOff bit : Bool) : Input :=
  { listening busOff false bit with
    tranFrameValid := valid
    tranMeta := ⟨0, false, false, false, false, 0b10101010101#11 ++ 0#18,
      ⟨false, false, false, 0⟩⟩ }

/-- Integration, one recessive bit, and the bits of a frame; five cycles a bit. -/
def frameOnBus (valid : Bool) (bits : List Bool) : List Input :=
  (List.replicate 11 (bitCycles (shortNode valid true true))).flatten ++
    (true :: bits).flatMap fun b => bitCycles (shortNode valid false b)
where
  bitCycles (i : Input) : List Input :=
    [{ i with rxTrigReq := true }, i, { i with txTrigger := true }, i, i]

/-- From SOF to the DLC, with one stuff bit in the DLC. -/
def shortHeader : List Bool :=
  [false, true, false, true, false, true, false, true, false, true, false, true, false, false,
    false, false, false, true, false, false]

def shortCrc : List Bool :=
  [true, true, false, false, true, true, true, false, true, false, false, true, true, false, false]

end CanCore
