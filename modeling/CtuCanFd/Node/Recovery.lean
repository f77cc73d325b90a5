import CtuCanFd.Node.ErrorCounterReset

/-!
# Leaving integration and bus-off

A node that restarts integration with an edge gets idle with the last of eleven recessive bits
in a row, as long as the edge in front of every dominant bit falls between two sample points.
It leaves bus-off with such a bit after reset, and from then on only at the end of a
reintegration that has a command of its own.
-/

namespace Node

open SyncMachine ProtocolControl
open FaultConfinement (txErrCtr)

/-- The control counter counts recessive bits. -/
def counting (s : State) : Bool :=
  s.core.pc.currState == .integrating || s.core.pc.currState == .reintegrating

/-- What the node has sampled, and what became of it. -/
structure Trail where
  /-- Recessive bits in a row. -/
  recessive : Nat
  /-- There was a synchronisation edge since the last bit. -/
  edge : Bool
  /-- Groups of eleven recessive bits in a row since the reintegration started, counted as
  early as possible, and the bits of the group that is not complete. -/
  groups : Nat
  window : Nat
  /-- Reintegration commands given, and reintegrations completed. -/
  commands : Nat
  recoveries : Nat
  /-- The node has been on the bus before. -/
  active : Bool
deriving DecidableEq, Repr

def Trail.reset : Trail := ⟨0, false, 0, 0, 0, 0, false⟩

def Trail.next (t : Trail) (s : State) (i : Input) : Trail :=
  let bit := s.core.bds.dataOut
  let taken := CanCore.pcRxTrigger s.core
  let reintegrating := s.core.pc.currState == .reintegrating
  { recessive := if taken then (if bit then t.recessive + 1 else 0) else t.recessive
    edge := !taken && (t.edge || i.core.syncEdge)
    groups :=
      if !reintegrating then 0
      else if taken && bit && t.window == 10 then t.groups + 1 else t.groups
    window :=
      if !reintegrating then 0
      else if taken then (if t.window == 10 || !bit then 0 else t.window + 1)
      else t.window
    commands := t.commands + i.core.mrCommandErcrst.toNat
    recoveries := t.recoveries + (recovers s).toNat
    active := t.active || s.fc.currState != .busOff }

/-- A dominant bit behind a recessive one has an edge in front of it. -/
def Heard (s : State) (t : Trail) : Prop :=
  counting s = true → CanCore.pcRxTrigger s.core = true → s.core.bds.dataOut = false →
    t.recessive ≠ 0 → t.edge = true

instance (s : State) (t : Trail) : Decidable (Heard s t) :=
  inferInstanceAs (Decidable (_ → _ → _ → _ → _))

/-! ## Invariant -/

structure Trailing (s : State) (t : Trail) : Prop where
  ctr_lt : s.core.ctr.ctrlCtrQ < 512
  counted : counting s = true → 10 ≤ s.core.ctr.ctrlCtrQ + t.recessive
  edge : counting s = true → t.edge = true → s.core.ctr.ctrlCtrQ ≠ 0
  window : t.window ≤ 10
  expired : s.core.pc.currState = .reintegrating → s.reintegCtrQ ≤ 128
  groups : s.core.pc.currState = .reintegrating →
    s.reintegCtrQ < t.groups ∨
      (s.reintegCtrQ = t.groups ∧ 10 ≤ s.core.ctr.ctrlCtrQ + t.window)
  commands : t.recoveries + s.core.pc.mrCommandErcrstQ.toNat +
    (s.core.pc.currState == .reintegrating).toNat ≤ t.commands

namespace Trailing

variable {f : Settings} {s : State} {i : Input} {t : Trail}

theorem of_reset : Trailing reset .reset := by
  constructor <;> decide

/-- The bit that is taken with the counter at zero is recessive. -/
theorem last_recessive (h : Trailing s t) (hok : Heard s t) (hq : counting s = true)
    (ht : CanCore.pcRxTrigger s.core = true) (hz : s.core.ctr.ctrlCtrQ = 0) :
    s.core.bds.dataOut = true := by
  by_contra hb
  have hc := h.counted hq
  exact h.edge hq (hok hq ht (by simpa using hb) (by omega)) hz

/-- A bit taken while the node stays in integration or reintegration. -/
theorem counting_bit (h : Trailing s t) (hq : counting s = true)
    (hq' : counting (step f s i) = true) (he : s.core.err.errFrmReq = false)
    (ht : CanCore.pcRxTrigger s.core = true) :
    (step f s i).core.ctr.ctrlCtrQ =
      if s.core.ctr.ctrlCtrQ = 0 ∨ s.core.bds.dataOut = false then 10
      else s.core.ctr.ctrlCtrQ - 1 := by
  simp only [counting, Bool.or_eq_true, beq_iff_eq] at hq hq'
  rcases hq with hq | hq
  · have hz : s.core.ctr.ctrlCtrQ ≠ 0 := fun hz => by
      have hidle : (step f s i).core.pc.currState = .idle := integrating_zero hq he ht hz
      rw [hidle] at hq'
      simp at hq'
    have hc : (step f s i).core.ctr.ctrlCtrQ = _ := integrating_bit hq he ht hz h.ctr_lt
    rw [hc]
    cases s.core.bds.dataOut <;> simp [hz]
  · have hst : (step f s i).core.pc.currState = .reintegrating := by
      rcases hq' with hq' | hq'
      · rcases state_flow (f := f) (i := i) he with hs | ⟨-, hs⟩
        · exact hs.trans hq
        · rw [hq, hq'] at hs
          exact absurd hs (by decide)
      · exact hq'
    exact (reintegrating_bit (c := f.core) hq he ht h.ctr_lt hst).2

/-- Where the counting starts, or starts again with an error, the counter is loaded. -/
theorem counting_loaded (h' : counting (step f s i) = true)
    (hq : counting s = false ∨ s.core.err.errFrmReq = true) :
    (step f s i).core.ctr.ctrlCtrQ = 10 ∨
      ((step f s i).core.ctr.ctrlCtrQ = 9 ∧ CanCore.pcRxTrigger s.core = true ∧
        s.core.bds.dataOut = true) := by
  simp only [counting, Bool.or_eq_true, beq_iff_eq] at h'
  cases he : s.core.err.errFrmReq
  · have hq : counting s = false := hq.resolve_right (by simp [he])
    simp only [counting, Bool.or_eq_false_iff, beq_eq_false_iff_ne] at hq
    rcases h' with h' | h'
    · exact enter_integrating hq.1 h'
    · exact .inl (enter_reintegrating hq.2 h').2.2.2.2
  · rcases h' with h' | h'
    · exact .inl (error_integrating he h')
    · exact absurd (he.symm.trans (reintegrating_noErr h')) (by decide)

theorem next_counted (h : Trailing s t) (h' : counting (step f s i) = true) :
    10 ≤ (step f s i).core.ctr.ctrlCtrQ + (t.next s i).recessive := by
  by_cases hq : counting s = false ∨ s.core.err.errFrmReq = true
  · rcases counting_loaded h' hq with hc | ⟨hc, ht, hb⟩
    · omega
    · have hr : (t.next s i).recessive = t.recessive + 1 := by simp [Trail.next, ht, hb]
      omega
  · simp only [not_or, Bool.not_eq_false, Bool.not_eq_true] at hq
    obtain ⟨hq, he⟩ := hq
    have hi := h.counted hq
    cases ht : CanCore.pcRxTrigger s.core
    · have hr : (t.next s i).recessive = t.recessive := by simp [Trail.next, ht]
      have hc : (step f s i).core.ctr.ctrlCtrQ = _ :=
        counting_hold (c := f.core) (i := coreInput s i) (by simpa [counting] using hq) he ht
      split at hc <;> omega
    · have hc := h.counting_bit hq h' he ht
      cases hb : s.core.bds.dataOut
      · rw [if_pos (.inr hb)] at hc
        omega
      · have hr : (t.next s i).recessive = t.recessive + 1 := by simp [Trail.next, ht, hb]
        split at hc <;> omega

theorem next_edge (h : Trailing s t) (hedge : restartsOnEdge f.core = true)
    (h' : counting (step f s i) = true) (hs : (t.next s i).edge = true) :
    (step f s i).core.ctr.ctrlCtrQ ≠ 0 := by
  simp only [Trail.next, Bool.and_eq_true, Bool.not_eq_true', Bool.or_eq_true] at hs
  by_cases hq : counting s = false ∨ s.core.err.errFrmReq = true
  · rcases counting_loaded h' hq with hc | ⟨hc, -, -⟩ <;> omega
  · simp only [not_or, Bool.not_eq_false, Bool.not_eq_true] at hq
    have hc : (step f s i).core.ctr.ctrlCtrQ =
        if restartsOnEdge f.core && i.core.syncEdge then 10 else s.core.ctr.ctrlCtrQ :=
      counting_hold (c := f.core) (i := coreInput s i) (by simpa [counting] using hq.1) hq.2 hs.1
    rw [hc, hedge, Bool.true_and]
    split
    · decide
    · rename_i hno
      exact h.edge hq.1 (hs.2.resolve_right hno)

theorem next_window (h : Trailing s t) : (t.next s i).window ≤ 10 := by
  have hw := h.window
  simp only [Trail.next]
  split
  · omega
  · split
    · split
      · omega
      · rename_i hne
        simp only [Bool.or_eq_true, beq_iff_eq, not_or] at hne
        omega
    · exact hw

/-- A bit taken in the reintegration completes the group or belongs to it. -/
theorem next_group (hq : s.core.pc.currState = .reintegrating)
    (ht : CanCore.pcRxTrigger s.core = true) (hb : s.core.bds.dataOut = true) :
    (t.window = 10 ∧ (t.next s i).groups = t.groups + 1) ∨
      (t.window ≠ 10 ∧ (t.next s i).groups = t.groups ∧ (t.next s i).window = t.window + 1) := by
  by_cases hten : t.window = 10 <;> simp [Trail.next, hq, ht, hb, hten]

/-- A bit of the reintegration: with the last one of a group the counter is incremented, and a
dominant one starts the group over. -/
theorem groups_bit (h : Trailing s t) (hok : Heard s t) (he : s.core.err.errFrmReq = false)
    (hq : s.core.pc.currState = .reintegrating) (ht : CanCore.pcRxTrigger s.core = true)
    (h' : (step f s i).core.pc.currState = .reintegrating) :
    (step f s i).reintegCtrQ ≤ 128 ∧
      ((step f s i).reintegCtrQ < (t.next s i).groups ∨
        ((step f s i).reintegCtrQ = (t.next s i).groups ∧
          10 ≤ (step f s i).core.ctr.ctrlCtrQ + (t.next s i).window)) := by
  have hx := h.expired hq
  have hg := h.groups hq
  have hw := h.window
  have hcount : counting s = true := by simp [counting, hq]
  have hclr : reintegCtrClr s.core.pc (pcInput f s i) = false := by simp [reintegCtrClr, hq]
  have hena : reintegCtrEnable s.core.pc (pcInput f s i) = s.core.ctr.ctrlCtrZero := by
    simp [reintegCtrEnable, hq, pcInput, he]
  obtain ⟨hexp, hc⟩ := reintegrating_bit (c := f.core) hq he ht h.ctr_lt h'
  have hc : (step f s i).core.ctr.ctrlCtrQ =
    if s.core.ctr.ctrlCtrQ = 0 ∨ s.core.bds.dataOut = false then 10
    else s.core.ctr.ctrlCtrQ - 1 := hc
  by_cases hz : s.core.ctr.ctrlCtrQ = 0
  · have hne : s.reintegCtrQ ≠ 128 := by
      have := hexp hz
      simpa [coreInput, reintegCtrExpired] using this
    have hr : (step f s i).reintegCtrQ = s.reintegCtrQ + 1 := by
      simp [step, nextReintegCtr, hclr, hena, ht, ControlCounter.ctrlCtrZero, hz]
      omega
    have hb := h.last_recessive hok hcount ht hz
    rw [if_pos (.inl hz)] at hc
    have := next_group (t := t) (i := i) hq ht hb
    omega
  · have hr : (step f s i).reintegCtrQ = s.reintegCtrQ := by
      simp [step, nextReintegCtr, hclr, hena, ht, ControlCounter.ctrlCtrZero, hz]
    cases hb : s.core.bds.dataOut
    · have hgr : (t.next s i).groups = t.groups := by simp [Trail.next, hq, hb]
      rw [if_pos (.inr hb)] at hc
      omega
    · rw [if_neg (by simp [hz, hb])] at hc
      have := next_group (t := t) (i := i) hq ht hb
      omega

theorem next_groups (h : Trailing s t) (hok : Heard s t)
    (h' : (step f s i).core.pc.currState = .reintegrating) :
    (step f s i).reintegCtrQ ≤ 128 ∧
      ((step f s i).reintegCtrQ < (t.next s i).groups ∨
        ((step f s i).reintegCtrQ = (t.next s i).groups ∧
          10 ≤ (step f s i).core.ctr.ctrlCtrQ + (t.next s i).window)) := by
  have he := reintegrating_noErr h'
  by_cases hq : s.core.pc.currState = .reintegrating
  · cases ht : CanCore.pcRxTrigger s.core
    · have hx := h.expired hq
      have hg := h.groups hq
      have hr : (step f s i).reintegCtrQ = s.reintegCtrQ := by
        simp [step, nextReintegCtr, reintegCtrClr, hq, ht]
      have hgr : (t.next s i).groups = t.groups := by simp [Trail.next, hq, ht]
      have hwi : (t.next s i).window = t.window := by simp [Trail.next, hq, ht]
      have hc : (step f s i).core.ctr.ctrlCtrQ = _ :=
        counting_hold (c := f.core) (i := coreInput s i) (.inr hq) he ht
      split at hc <;> omega
    · exact h.groups_bit hok he hq ht h'
  · obtain ⟨-, -, hwait, hcmd, hc⟩ := enter_reintegrating hq h'
    have hc : (step f s i).core.ctr.ctrlCtrQ = 10 := hc
    have hr : (step f s i).reintegCtrQ = 0 := by
      simp [step, nextReintegCtr, reintegCtrClr, hwait, hcmd, pcInput, he]
    have hgr : (t.next s i).groups = 0 := by simp [Trail.next, hq]
    omega

theorem next_commands (h : Trailing s t) :
    (t.next s i).recoveries + (step f s i).core.pc.mrCommandErcrstQ.toNat +
      ((step f s i).core.pc.currState == .reintegrating).toNat ≤ (t.next s i).commands := by
  have hc := h.commands
  have hcom : (t.next s i).commands = t.commands + i.core.mrCommandErcrst.toNat := rfl
  have hrec : (t.next s i).recoveries = t.recoveries + (recovers s).toNat := rfl
  have hq : (step f s i).core.pc.mrCommandErcrstQ =
      (i.core.mrCommandErcrst || (s.core.pc.mrCommandErcrstQ &&
        !(CanCore.pcRxTrigger s.core && (out f.core s.core.pc (pcInput f s i)).clrBusOffRstFlg))) :=
    rfl
  have hle : (step f s i).core.pc.mrCommandErcrstQ.toNat ≤
      i.core.mrCommandErcrst.toNat + s.core.pc.mrCommandErcrstQ.toNat := by
    rw [hq]
    cases i.core.mrCommandErcrst <;> cases s.core.pc.mrCommandErcrstQ <;>
      simp [Bool.toNat_le]
  by_cases hst : s.core.pc.currState = .reintegrating
  · have h1 : (s.core.pc.currState == .reintegrating).toNat = 1 := by simp [hst]
    cases hr : recovers s
    · have := Bool.toNat_le ((step f s i).core.pc.currState == .reintegrating)
      rw [hr] at hrec
      simp only [Bool.toNat_false] at hrec
      omega
    · have h0 : ((step f s i).core.pc.currState == .reintegrating).toNat = 0 := by
        have hs := recovers_idle (f := f) (i := i) hr
        simp [hs]
      rw [hr] at hrec
      simp only [Bool.toNat_true] at hrec
      omega
  · have hr : recovers s = false := by simp [recovers, hst]
    have h1 : (s.core.pc.currState == .reintegrating).toNat = 0 := by simp [hst]
    rw [hr] at hrec
    simp only [Bool.toNat_false] at hrec
    by_cases h' : (step f s i).core.pc.currState = .reintegrating
    · obtain ⟨he, ht, hwait, hcmd, -⟩ := enter_reintegrating hst h'
      have hclr : (out f.core s.core.pc (pcInput f s i)).clrBusOffRstFlg = true := by
        rw [out_noErr he, hwait]
        simp [outState, outReintegratingWait, hcmd]
      have hq : (step f s i).core.pc.mrCommandErcrstQ = i.core.mrCommandErcrst := by
        rw [hq, hclr, ht]
        simp
      have := Bool.toNat_le ((step f s i).core.pc.currState == .reintegrating)
      rw [hq]
      rw [hcmd] at hc
      simp only [Bool.toNat_true] at hc
      omega
    · have h0 : ((step f s i).core.pc.currState == .reintegrating).toNat = 0 := by simp [h']
      omega

theorem step_trailing (h : Trailing s t) (hedge : restartsOnEdge f.core = true)
    (hok : Heard s t) : Trailing (step f s i) (t.next s i) where
  ctr_lt := CanCore.ctr_lt h.ctr_lt
  counted := h.next_counted
  edge := h.next_edge hedge
  window := h.next_window
  expired h' := (h.next_groups hok h').1
  groups h' := (h.next_groups hok h').2
  commands := h.next_commands

/-- With the last bit of the reintegration 129 groups are complete. -/
theorem recovered_groups (h : Trailing s t) (hok : Heard s t)
    (hq : s.core.pc.currState = .reintegrating) (ht : CanCore.pcRxTrigger s.core = true)
    (hz : s.core.ctr.ctrlCtrQ = 0) (hx : s.reintegCtrQ = 128) : 129 ≤ (t.next s i).groups := by
  have hb := h.last_recessive hok (by simp [counting, hq]) ht hz
  have hg := h.groups hq
  have hw := h.window
  have := next_group (t := t) (i := i) hq ht hb
  omega

end Trailing

/-! ## Every run -/

def trailedStep (f : Settings) :
    (State × CanCore.Last) × Trail → Input → (State × CanCore.Last) × Trail :=
  watched (orderedStep f) fun t p i => t.next p.1 i

def trailedReset : (State × CanCore.Last) × Trail := (orderedReset, .reset)

def HeardRun (f : Settings) (is : List Input) : Prop :=
  Admits (trailedStep f) (fun p _ => Heard p.1.1 p.2) trailedReset is

instance (f : Settings) (is : List Input) : Decidable (HeardRun f is) :=
  inferInstanceAs (Decidable (Admits _ _ _ _))

theorem run_trailing {f : Settings} (hedge : restartsOnEdge f.core = true) {is : List Input}
    (h : HeardRun f is) : Trailing (run (trailedStep f) trailedReset is).1.1
      (run (trailedStep f) trailedReset is).2 :=
  run_invariant (trailedStep f) (fun p _ => Heard p.1.1 p.2) (fun p => Trailing p.1.1 p.2)
    (fun _ _ h hok => h.step_trailing hedge hok) Trailing.of_reset is h

/-- A node that gets bus-off after it has been on the bus has its counter above 255. -/
theorem Confined.next_active {f : Settings} {l : CanCore.Last} {s : State} {i : Input} {t : Trail}
    (h : Confined f l s) (hx : s.fc.currState = .busOff → t.active = true → 255 < txErrCtr s.fc)
    (hb' : (step f s i).fc.currState = .busOff) (ha : (t.next s i).active = true) :
    255 < txErrCtr (step f s i).fc := by
  by_cases hb : s.fc.currState = .busOff
  · have ha : t.active = true := by simpa [Trail.next, hb] using ha
    exact Nat.lt_of_lt_of_le (hx hb ha) (h.ctr_kept (hx hb ha) (setErrActive_busOff hb hb'))
  · obtain ⟨-, hgt⟩ := enter_busOff hb hb'
    exact Nat.lt_of_lt_of_le hgt (h.ctr_kept hgt (h.setErrActive_crossing hb))

/-- Bus-off in the integrating state, the node has not been on the bus since reset. -/
theorem integrating_first {f : Settings} {is : List Input} (h : OrderedRun f is) :
    let p := run (trailedStep f) trailedReset is
    p.1.1.fc.currState = .busOff → p.1.1.core.pc.currState = .integrating →
      p.2.active = false := by
  intro p hb hq
  have hrun : Admits (trailedStep f) (fun p i => Ordered p.1.2 p.1.1 i) trailedReset is :=
    (admits_watched (orderedStep f) (fun p i => Ordered p.2 p.1 i) _ trailedReset is).mpr h
  have hinv := run_invariant (trailedStep f) (fun p i => Ordered p.1.2 p.1.1 i)
    (fun p => Confined f p.1.2 p.1.1 ∧
      (p.1.1.fc.currState = .busOff → p.2.active = true → 255 < txErrCtr p.1.1.fc))
    (fun _ _ hp hok => ⟨hp.1.step_confined hok, hp.1.next_active hp.2⟩)
    ⟨Confined.of_reset f _ rfl, fun _ ha => absurd ha (by decide)⟩ is hrun
  by_contra ha
  rcases (hinv.1.gone hb (hinv.2 hb (by simpa using ha))).state with ⟨hst, -⟩ | ⟨hst, -⟩ <;>
    rw [hq] at hst <;> cases hst

/-- A node that restarts integration with an edge, and hears the edge in front of every dominant
bit, leaves the integrating state for idle only with eleven recessive bits in a row. It leaves
bus-off for error active only with such bits out of the integrating state, in a run without
presets before it has been on the bus, or at the end of a reintegration that has a command of
its own and has seen 129 groups of eleven recessive bits in a row. -/
theorem integration_bits (f : Settings) (hedge : restartsOnEdge f.core = true) (is : List Input)
    (i : Input) (h : HeardRun f (is ++ [i])) :
    let p := run (trailedStep f) trailedReset is
    let s := p.1.1
    let t := p.2.next s i
    (s.core.pc.currState = .integrating → (step f s i).core.pc.currState = .idle →
      11 ≤ t.recessive) ∧
    (s.fc.currState = .busOff → (step f s i).fc.currState ≠ .busOff →
      (step f s i).fc.currState = .errActive ∧
        ((s.core.pc.currState = .integrating ∧ 11 ≤ t.recessive ∧
            (OrderedRun f is → p.2.active = false)) ∨
          (s.core.pc.currState = .reintegrating ∧ 129 ≤ t.groups ∧
            p.2.recoveries < p.2.commands))) := by
  intro p s t
  obtain ⟨hrun, hok, -⟩ := (admits_append _ _ _ _ _).mp h
  have hinv : Trailing s p.2 := run_trailing hedge hrun
  have heleven : s.core.pc.currState = .integrating → CanCore.pcRxTrigger s.core = true →
      s.core.ctr.ctrlCtrQ = 0 → 11 ≤ t.recessive := by
    intro hq ht hz
    have hcount : counting s = true := by simp [counting, hq]
    have hb := hinv.last_recessive hok hcount ht hz
    have hr : t.recessive = p.2.recessive + 1 := by simp [t, Trail.next, ht, hb]
    have := hinv.counted hcount
    omega
  refine ⟨fun hq h' => ?_, fun hoff h' => ?_⟩
  · obtain ⟨-, ht, hz⟩ := integrating_end hq h'
    exact heleven hq ht hz
  · have hset := Confined.busOff_left hoff h'
    have hact : (step f s i).fc.currState = .errActive := by
      simp [step, FaultConfinement.step, FaultConfinement.nextState, hoff, hset]
    simp only [fcInput, CanCore.fcInput, ProtocolControl.setErrActive, Bool.and_eq_true,
      Bool.or_eq_true, Bool.not_eq_true', beq_iff_eq] at hset
    obtain ⟨⟨⟨he, ht⟩, hz⟩, hcase⟩ := hset
    have hz : s.core.ctr.ctrlCtrQ = 0 := by simpa [ControlCounter.ctrlCtrZero] using hz
    refine ⟨hact, ?_⟩
    rcases hcase with ⟨hq, -⟩ | ⟨hq, hx⟩
    · exact .inl ⟨hq, heleven hq ht hz, fun hord => integrating_first hord hoff hq⟩
    · have hx : (s.reintegCtrQ == 128) = true := hx
      have hc := hinv.commands
      have h1 : (s.core.pc.currState == .reintegrating).toNat = 1 := by simp [hq]
      exact .inr ⟨hq, hinv.recovered_groups hok hq ht hz (by simpa using hx), by omega⟩

/-! ### A whole reintegration -/

section Groups

variable {f : Settings} {p : (State × CanCore.Last) × Trail} {i : Input} {k : Nat}

/-- The same with `k` groups more behind it. -/
def raised (k : Nat) (p : (State × CanCore.Last) × Trail) : (State × CanCore.Last) × Trail :=
  (({ p.1.1 with reintegCtrQ := p.1.1.reintegCtrQ + k }, p.1.2),
    { p.2 with recessive := p.2.recessive + 11 * k, groups := p.2.groups + k })

theorem raised_raised (k n : Nat) (p : (State × CanCore.Last) × Trail) :
    raised k (raised n p) = raised (k + n) p := by
  simp [raised, Nat.mul_add, Nat.add_assoc, Nat.add_comm n, Nat.add_comm (11 * n)]

/-- In the first group of a reintegration, with a recessive bus. -/
def FirstGroup (p : (State × CanCore.Last) × Trail) : Prop :=
  p.1.1.core.pc.currState = .reintegrating ∧ p.1.1.reintegCtrQ = 0 ∧
    p.1.1.core.bds.dataOut = true

instance (p : (State × CanCore.Last) × Trail) : Decidable (FirstGroup p) :=
  inferInstanceAs (Decidable (_ ∧ _))

theorem raised_step (h : FirstGroup p) (hk : k < 128) :
    trailedStep f (raised k p) i = raised k (trailedStep f p i) := by
  obtain ⟨hq, h0, hb⟩ := h
  have hx : reintegCtrExpired p.1.1 = false := by simp [reintegCtrExpired, h0]
  have hx' : reintegCtrExpired (raised k p).1.1 = false := by
    simp [reintegCtrExpired, raised, h0]
    omega
  have hin : coreInput (raised k p).1.1 i = coreInput p.1.1 i := by
    rw [coreInput, coreInput, hx, hx']
    rfl
  have hpc : pcInput f (raised k p).1.1 i = pcInput f p.1.1 i := by
    rw [pcInput, pcInput, hin]
    rfl
  have hfc : fcInput f (raised k p).1.1 i = fcInput f p.1.1 i := by
    rw [fcInput, fcInput, hin]
    rfl
  have hctr : nextReintegCtr f (raised k p).1.1 i = nextReintegCtr f p.1.1 i + k := by
    have hclr : reintegCtrClr p.1.1.core.pc (pcInput f p.1.1 i) = false := by
      simp [reintegCtrClr, hq]
    simp only [nextReintegCtr, hpc]
    simp only [raised, h0, hclr, Bool.false_eq_true, if_false]
    split <;> omega
  have hstep : step f (raised k p).1.1 i =
      { step f p.1.1 i with reintegCtrQ := (step f p.1.1 i).reintegCtrQ + k } := by
    simp only [step, hin, hpc, hfc, hctr]
    rfl
  have htrail : (raised k p).2.next (raised k p).1.1 i =
      { p.2.next p.1.1 i with
        recessive := (p.2.next p.1.1 i).recessive + 11 * k
        groups := (p.2.next p.1.1 i).groups + k } := by
    have hr : recovers (raised k p).1.1 = recovers p.1.1 := by
      rw [recovers, recovers, hx, hx']
      rfl
    simp only [Trail.next, hr]
    simp only [raised, hq, hb]
    cases CanCore.pcRxTrigger p.1.1.core <;> by_cases hw : p.2.window = 10 <;>
      simp [hw, Nat.add_right_comm]
  simp only [trailedStep, watched, orderedStep]
  rw [hstep, htrail, hin]
  rfl

theorem raised_run {is : List Input} (h : Admits (trailedStep f) (fun p _ => FirstGroup p) p is)
    (hk : k < 128) :
    run (trailedStep f) (raised k p) is = raised k (run (trailedStep f) p is) ∧
      Admits (trailedStep f) (fun p _ => Heard p.1.1 p.2) (raised k p) is := by
  induction is generalizing p with
  | nil => exact ⟨rfl, trivial⟩
  | cons i is ih =>
    obtain ⟨hp, hrest⟩ := h
    have hs := raised_step (f := f) (i := i) hp hk
    obtain ⟨hrun, hadm⟩ := ih hrest
    refine ⟨?_, fun _ _ hb => absurd (hp.2.2.symm.trans hb) (by decide), ?_⟩
    · rw [run, hs, hrun]
      rfl
    · rw [hs]
      exact hadm

/-- A group that leads back to its start with one more behind it can be repeated. -/
theorem raised_groups (group : List Input)
    (h : Admits (trailedStep f) (fun p _ => FirstGroup p) p group)
    (hone : run (trailedStep f) p group = raised 1 p) {n : Nat} (hn : n ≤ 128) :
    run (trailedStep f) p (List.replicate n group).flatten = raised n p ∧
      Admits (trailedStep f) (fun p _ => Heard p.1.1 p.2) p (List.replicate n group).flatten := by
  induction n with
  | zero => exact ⟨by simp [raised, run], trivial⟩
  | succ n ih =>
    obtain ⟨hrun, hadm⟩ := ih (by omega)
    obtain ⟨hlast, hheard⟩ := raised_run h (k := n) (by omega)
    rw [List.replicate_succ', List.flatten_append, List.flatten_singleton, run_append, hrun, hlast,
      hone, admits_append, hrun]
    exact ⟨raised_raised n 1 p, hadm, hheard⟩

end Groups

def quietBits (n : Nat) : List Input :=
  (List.replicate n [sampled (busCycle true), busCycle true]).flatten

/-- The run into bus-off, a command, and the bit with which the reintegration starts. -/
def intoReintegration : List Input :=
  intoBusOff ++ quietBits 12 ++ [(busCycle true).commanding true] ++ quietBits 1

/-- The node as it is then. -/
def reintegrationStart : (State × CanCore.Last) × Trail :=
  (({ reset with
      core :=
        { CanCore.reset with
          pc := { ProtocolControl.reset with currState := .reintegrating }
          ctr := ⟨10, 0⟩
          rxs := ⟨false, .cleared⟩ }
      fc :=
        { FaultConfinement.reset with
          txErrCtrQ := 256
          resErrCtrsQ := true
          errWarningLimitQ := true } }, ⟨false, false⟩),
    { Trail.reset with recessive := 13, commands := 1, active := true })

theorem run_intoReintegration :
    run (trailedStep highLimit) trailedReset intoReintegration = reintegrationStart := by
  decide +kernel

/-- 128 groups of eleven recessive bits, and of another one all but the cycle in which its last
bit is taken. -/
def reintegration : List Input :=
  intoReintegration ++ ((List.replicate 128 (quietBits 11)).flatten ++
    (quietBits 10 ++ [sampled (busCycle true)]))

theorem integration_bits_recovered :
    let p := run (trailedStep highLimit) trailedReset reintegration
    let s := p.1.1
    HeardRun highLimit (reintegration ++ [busCycle true]) ∧ s.fc.currState = .busOff ∧
      (step highLimit s (busCycle true)).fc.currState = .errActive ∧
      129 ≤ (p.2.next s (busCycle true)).groups ∧ p.2.recoveries < p.2.commands := by
  obtain ⟨hgroups, hheard⟩ :=
    raised_groups (f := highLimit) (p := reintegrationStart) (quietBits 11)
      (by decide +kernel) (by decide +kernel) (Nat.le_refl 128)
  have hrun : HeardRun highLimit (reintegration ++ [busCycle true]) := by
    rw [HeardRun, reintegration, List.append_assoc, List.append_assoc, admits_append,
      admits_append, run_intoReintegration, hgroups]
    exact ⟨by decide +kernel, hheard, by decide +kernel⟩
  have hleave := (integration_bits highLimit rfl reintegration (busCycle true) hrun).2
  have hp : run (trailedStep highLimit) trailedReset reintegration =
      run (trailedStep highLimit) (raised 128 reintegrationStart)
        (quietBits 10 ++ [sampled (busCycle true)]) := by
    rw [reintegration, run_append, run_append, run_intoReintegration, hgroups]
  generalize run (trailedStep highLimit) trailedReset reintegration = p at hp hleave ⊢
  have hend : p.1.1.fc.currState = .busOff ∧ p.1.1.core.pc.currState = .reintegrating ∧
      (step highLimit p.1.1 (busCycle true)).fc.currState ≠ .busOff := by
    rw [hp]
    decide +kernel
  obtain ⟨hoff, hq, hleft⟩ := hend
  obtain ⟨hact, ⟨hi, -⟩ | ⟨-, h129, hcmd⟩⟩ := hleave hoff hleft
  · exact absurd (hq.symm.trans hi) (by decide)
  · exact ⟨hrun, hoff, hact, h129, hcmd⟩

/-! ### A dominant eleventh bit -/

def synced (i : Input) : Input := { i with core := { i.core with syncEdge := true } }

/-- Ten recessive bits and the sample point of a dominant one, with an edge between the two. -/
def edgeBetween : List Input :=
  bitTimes (List.replicate 9 true) ++
    [sampled (busCycle true), busCycle true, transmitted (busCycle true), synced (busCycle false),
      busCycle false, sampled (busCycle false)]

/-- The same with the edge in the cycle in which the tenth bit is taken. -/
def edgeAtSample : List Input :=
  bitTimes (List.replicate 9 true) ++
    [sampled (busCycle true), synced (busCycle false), transmitted (busCycle false),
      busCycle false, busCycle false, sampled (busCycle false)]

/-- A node that does not restart integration with an edge. -/
def classicOnly : Settings :=
  { classicSettings with core := { classicSettings.core with mrModeFde := false } }

def exceptional : Settings :=
  { classicSettings with core := { classicSettings.core with mrSettingsPex := true } }

/-- The transmit error counter is preset to 256 in a CAN FD frame, of which the reserved bit is
recessive; then ten recessive bits and the sample point of another one. -/
def presetInFrame : List Input :=
  bitTimes (List.replicate 11 true ++ [false] ++
      [true, false, true, false, true, false, true, false, true, false, true]) ++
    [{ busCycle true with mrCtrPresPtx := true }, { busCycle true with mrCtrPresCtpv := 256 }] ++
    bitTimes ([false, false, true, true] ++ List.replicate 10 true) ++ [sampled (busCycle true)]

/-- A node that does not restart with an edge, and one whose edge falls in the cycle of the
sample point, get idle and error active with a dominant eleventh bit. A node whose counter is
preset in a frame gets bus-off in it and, after a protocol exception, error active without a
command. -/
theorem eleventh_bit_dominant :
    (let p := run (trailedStep classicOnly) trailedReset edgeBetween
      let s := p.1.1
      HeardRun classicOnly (edgeBetween ++ [busCycle false]) ∧ OrderedRun classicOnly edgeBetween ∧
      s.core.pc.currState = .integrating ∧ s.fc.currState = .busOff ∧
      (step classicOnly s (busCycle false)).core.pc.currState = .idle ∧
      (step classicOnly s (busCycle false)).fc.currState = .errActive ∧
      (p.2.next s (busCycle false)).recessive = 0) ∧
    (let p := run (trailedStep classicSettings) trailedReset edgeAtSample
      let s := p.1.1
      restartsOnEdge classicSettings.core = true ∧ OrderedRun classicSettings edgeAtSample ∧
      s.core.pc.currState = .integrating ∧ s.fc.currState = .busOff ∧
      (step classicSettings s (busCycle false)).core.pc.currState = .idle ∧
      (step classicSettings s (busCycle false)).fc.currState = .errActive ∧
      (p.2.next s (busCycle false)).recessive = 0) ∧
    (let p := run (trailedStep exceptional) trailedReset presetInFrame
      let s := p.1.1
      restartsOnEdge exceptional.core = true ∧
      HeardRun exceptional (presetInFrame ++ [busCycle true]) ∧
      s.core.pc.currState = .integrating ∧ s.fc.currState = .busOff ∧ p.2.active = true ∧
      (step exceptional s (busCycle true)).fc.currState = .errActive ∧ p.2.commands = 0) := by
  refine ⟨?_, ?_, ?_⟩ <;> decide +kernel

end Node
