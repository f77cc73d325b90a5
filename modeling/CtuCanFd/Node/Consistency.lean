import CtuCanFd.Node.Confinement

/-!
# Consistency of the three state machines

What the invariant of `Confinement` says about every run from reset in which software
does not preset the error counters: roles and stuffing fit the state of protocol
control, and the error counters stay within their range.
-/

open ProtocolControl SyncMachine

namespace FaultConfinement

variable {l : Limits} {s : State} {i : Input}

/-! ## Receive error counter -/

theorem rxErrCtr_lt (h : s.rxErrCtrQ < 512) : rxErrCtr s < 512 := by
  rw [rxErrCtr]
  split <;> omega

theorem rxErrCtrQ_lt (h : s.rxErrCtrQ < 512) : (step l s i).rxErrCtrQ < 512 := by
  have hv := rxErrCtr_lt h
  have hd : rxErrCtrD s i < 512 := by
    simp only [rxErrCtrD, rxErrCtrSat, rxErrCtrInc, rxErrCtrDec]
    have := i.mrCtrPresCtpv.isLt
    grind
  simp only [step]
  split
  · decide
  · split
    · exact hd
    · exact h

theorem rxErrCtr_step (hp : s.mrCtrPresPrxQ = false) :
    rxErrCtr (step l s i) =
      if i.setErrActive || !s.resErrCtrsQ then 0
      else if (incOne i || incEight i) && i.isReceiver then rxErrCtrSat s i
      else if decOne i && i.isReceiver then rxErrCtrDec s
      else rxErrCtr s := by
  cases hr : s.resErrCtrsQ <;> cases hs : i.setErrActive <;>
    simp [rxErrCtr, step, hr, hs, rxErrCtrCe, rxErrCtrD, hp]
  cases incOne i <;> cases incEight i <;> cases decOne i <;> cases i.isReceiver <;> simp

/-- An error does not make the receive error counter go down. -/
theorem rxErrCtr_up (h : s.rxErrCtrQ < 512) (hp : s.mrCtrPresPrxQ = false)
    (ha : i.setErrActive = false) (hi : incOne i = true ∨ incEight i = true) :
    rxErrCtr s ≤ rxErrCtr (step l s i) := by
  have hv := rxErrCtr_lt h
  have hinc : (incOne i || incEight i) = true := by simpa using hi
  have hsat : rxErrCtr s ≤ rxErrCtrSat s i := by
    rw [rxErrCtrSat]
    split <;> omega
  cases hr : s.resErrCtrsQ
  · simp [rxErrCtr, hr]
  · rw [rxErrCtr_step hp, ha, hr, hinc]
    cases i.isReceiver <;> simp [hsat]

theorem counters_cleared (ha : i.setErrActive = true) :
    txErrCtr (step l s i) = 0 ∧ rxErrCtr (step l s i) = 0 := by
  simp [txErrCtr, rxErrCtr, step, ha]

/-- Outside bus-off the state follows the counters within a cycle. -/
theorem errPassive_iff (hb : s.currState ≠ .busOff) (hb' : (step l s i).currState ≠ .busOff) :
    (step l s i).currState = .errPassive ↔
      l.mrErpErpLimit.toNat ≤ txErrCtr s ∨ l.mrErpErpLimit.toNat ≤ rxErrCtr s := by
  have hn : (step l s i).currState = nextState l s i := rfl
  rw [hn] at hb' ⊢
  cases hst : s.currState
  · by_cases ht : l.mrErpErpLimit.toNat ≤ txErrCtr s <;>
      by_cases hr : l.mrErpErpLimit.toNat ≤ rxErrCtr s <;>
      simp [nextState, hst, txErrCtrMtErp, rxErrCtrMtErp, ht, hr]
  · by_cases hc : 255 < txErrCtr s
    · exact absurd (by simp [nextState, hst, hc]) hb'
    · by_cases ht : l.mrErpErpLimit.toNat ≤ txErrCtr s <;>
        by_cases hr : l.mrErpErpLimit.toNat ≤ rxErrCtr s <;>
        simp [nextState, hst, txErrCtrMtErp, rxErrCtrMtErp, ht, hr, hc]
  · exact absurd hst hb

/-- A counter above 255 leads one state further. -/
theorem above_255 (hc : 255 < txErrCtr s) (hb : s.currState ≠ .busOff) :
    (step l s i).currState =
      match s.currState with
      | .errActive => .errPassive
      | _ => .busOff := by
  have hn : (step l s i).currState = nextState l s i := rfl
  have hlim : txErrCtrMtErp l s = true := by
    have := l.mrErpErpLimit.isLt
    simp [txErrCtrMtErp]
    omega
  rw [hn]
  cases hst : s.currState
  · simp [nextState, hst, hlim]
  · simp [nextState, hst, hc]
  · exact absurd hst hb

end FaultConfinement

namespace Node

open FaultConfinement (txErrCtr rxErrCtr)

def orderedStep (f : Settings) : State × CanCore.Last → Input → State × CanCore.Last :=
  watched (step f) fun _ s i => .next s.core (coreInput s i)

def orderedReset : State × CanCore.Last := (reset, ⟨false, false⟩)

/-- Every cycle of the run from reset is ordered. -/
def OrderedRun (f : Settings) (is : List Input) : Prop :=
  Admits (orderedStep f) (fun p i => Ordered p.2 p.1 i) orderedReset is

instance (f : Settings) (is : List Input) : Decidable (OrderedRun f is) :=
  inferInstanceAs (Decidable (Admits _ _ _ _))

theorem run_confined {f : Settings} {is : List Input} (h : OrderedRun f is) :
    Confined f (run (orderedStep f) orderedReset is).2 (run (orderedStep f) orderedReset is).1 :=
  run_invariant (orderedStep f) (fun p i => Ordered p.2 p.1 i) (fun p => Confined f p.2 p.1)
    (fun _ _ hp hok => hp.step_confined hok) (Confined.of_reset f _ rfl) is h

theorem run_rxErrCtrQ {f : Settings} {is : List Input} (h : OrderedRun f is) :
    (run (orderedStep f) orderedReset is).1.fc.rxErrCtrQ < 512 :=
  run_invariant (orderedStep f) (fun p i => Ordered p.2 p.1 i) (fun p => p.1.fc.rxErrCtrQ < 512)
    (fun _ _ hp _ => FaultConfinement.rxErrCtrQ_lt hp) (by decide) is h

/-! ## Roles -/

namespace Confined

variable {f : Settings} {l : CanCore.Last} {s : State} {i : Input}

/-- Bus-off, a node is off or about to be. -/
theorem busOff_role (h : Confined f l s) (hb : s.fc.currState = .busOff) :
    s.core.oc = .off ∨ s.core.oc = .transmitter := by
  by_cases hc : txErrCtr s.fc ≤ 255
  · exact .inl (h.starting hb hc).role
  · rcases (h.gone hb (by omega)).state with ⟨-, hx⟩ | ⟨-, hx⟩
    · exact hx
    · exact .inl hx

/-- Where protocol control of a bus-off node is. -/
theorem busOff_place (h : Confined f l s) (hb : s.fc.currState = .busOff) :
    s.core.pc.currState = .off ∨ s.core.pc.currState = .integrating ∨
      s.core.pc.currState.inFault = true ∨ s.core.pc.currState.inBusOff = true := by
  by_cases hc : txErrCtr s.fc ≤ 255
  · exact (h.starting hb hc).state.imp_right .inl
  · exact .inr (.inr ((h.gone hb (by omega)).state.imp And.left And.left))

/-- The sample point selected in this cycle already. -/
theorem spControl_role (h : Confined f l s)
    (hsp : spControl f.core s.core.pc (pcInput f s i) = .secondarySample) :
    s.core.oc ≠ .receiver := by
  intro hx
  have hxt : (pcInput f s i).isTransmitter = false := by simp [CanCore.isTransmitter, hx]
  have hq : s.core.pc.spControlQ ≠ .secondarySample := fun hq => h.secondary hq hx
  simp only [spControl, spControlD, switchToSsp, hxt] at hsp
  grind

theorem off_noRequest (h : Confined f l s) (hx : s.core.oc = .off) :
    setTransmitter f.core s.core.pc (pcInput f s i) = false ∧
      setReceiver f.core s.core.pc (pcInput f s i) = false := by
  have hb : s.fc.currState = .busOff := by
    by_contra hb
    exact h.role hb hx
  have hbus : FaultConfinement.isBusOff s.fc = true := by simp [FaultConfinement.isBusOff, hb]
  cases he : s.core.err.errFrmReq
  · have hout := out_state (f := f) (i := i) he
    have hst : CanCore.requesting s.core.pc.currState = false ∨
        s.core.pc.currState = .integrating ∨ s.core.pc.currState = .intermission ∨
        s.core.pc.currState = .reintegrating := by
      by_cases hc : txErrCtr s.fc ≤ 255
      · rcases (h.starting hb hc).state with hq | hq <;> simp [hq, CanCore.requesting]
      · have hdis : ∀ st : PcState, st.inFault = true ∨ st.inBusOff = true →
            CanCore.requesting st = false ∨ st = .integrating ∨ st = .intermission ∨
              st = .reintegrating := by decide
        exact hdis _ ((h.gone hb (by omega)).state.imp And.left And.left)
    rcases hst with hq | hq | hq | hq
    · have hreq : CanCore.NoRequest f.core s.core (coreInput s i) := .of_state he hq
      exact ⟨hreq.transmitter, hreq.receiver⟩
    · simp [setTransmitter, setReceiver, hout, hq, outState, outIntegrating]
    · have hreq : CanCore.NoRequest f.core s.core (coreInput s i) := .of_busOff he hq hbus
      exact ⟨hreq.transmitter, hreq.receiver⟩
    · simp [setTransmitter, setReceiver, hout, hq, outState, outReintegrating]
  · have hout := out_err (c := f.core) (q := s.core.pc) (i := pcInput f s i) he
    simp [setTransmitter, setReceiver, hout, outErrFrm]

/-- A counter above 255 makes the node bus-off within two cycles. -/
theorem busOff_within {l' : CanCore.Last} {j : Input} (h : Confined f l s)
    (h' : Confined f l' (step f s i)) (hgt : 255 < txErrCtr s.fc) (hb : s.fc.currState ≠ .busOff) :
    (step f (step f s i) j).fc.currState = .busOff := by
  have hkeep := h.ctr_kept hgt (h.setErrActive_crossing (i := i) hb)
  have hs := FaultConfinement.above_255 (l := f.limits) (i := fcInput f s i) hgt hb
  have hs : (step f s i).fc.currState = _ := hs
  by_cases hb' : (step f s i).fc.currState = .busOff
  · by_contra hleft
    have hoff := (h'.setErrActive_off (busOff_left hb' hleft) hb').1
    have hrole := crossing_role (i := i) (h.crossing hb hgt) hb
    exact absurd (hrole.symm.trans hoff) (by decide)
  · have hs' := FaultConfinement.above_255 (l := f.limits)
      (i := fcInput f (step f s i) j) (Nat.lt_of_lt_of_le hgt hkeep) hb'
    have hs' : (step f (step f s i) j).fc.currState = _ := hs'
    rw [hs']
    revert hb' hs
    cases s.fc.currState <;> cases (step f s i).fc.currState <;> simp

end Confined

/-- The SOF state is not occupied by a receiver, the secondary sample point is not
selected by a receiver, at the end of frame there is neither stuffing nor destuffing,
a node that is off is not asked to become transmitter or receiver, and a receiver is
not asked to turn off. -/
theorem roles_consistent (f : Settings) (is : List Input) (i : Input) (h : OrderedRun f is) :
    let s := (run (orderedStep f) orderedReset is).1
    (s.core.pc.currState = .sof → CanCore.isReceiver s.core = false) ∧
    (s.core.pc.spControlQ = .secondarySample ∨
        spControl f.core s.core.pc (pcInput f s i) = .secondarySample →
      CanCore.isReceiver s.core = false) ∧
    (s.core.pc.currState = .eof →
      s.core.pc.stuffEnable = false ∧ s.core.pc.destuffEnable = false) ∧
    (setTransmitter f.core s.core.pc (pcInput f s i) = true ∨
        setReceiver f.core s.core.pc (pcInput f s i) = true → s.core.oc ≠ .off) ∧
    (FaultConfinement.isBusOff s.fc = true → CanCore.isReceiver s.core = false) := by
  have hc := run_confined h
  generalize run (orderedStep f) orderedReset is = p at hc
  have hrec : p.1.core.oc ≠ .receiver → CanCore.isReceiver p.1.core = false := by
    simp [CanCore.isReceiver]
  refine ⟨fun hq => hrec ?_, fun hq => hrec ?_, fun hq => ⟨?_, ?_⟩, fun hq hx => ?_,
    fun hb => hrec ?_⟩
  · simp [hc.sof hq]
  · rcases hq with hq | hq
    · exact hc.secondary hq
    · exact hc.spControl_role hq
  · exact hc.stuffing (by rw [hq]; rfl)
  · by_contra hd
    have hs := hc.src.destuff (by simpa using hd)
    rw [hq] at hs
    cases hs
  · obtain ⟨h1, h2⟩ := hc.off_noRequest (i := i) hx
    rcases hq with hq | hq
    · exact absurd (h1.symm.trans hq) (by decide)
    · exact absurd (h2.symm.trans hq) (by decide)
  · rcases hc.busOff_role (by simpa [FaultConfinement.isBusOff] using hb) with hx | hx <;> simp [hx]

/-- A receiver at the end of frame, and a transmitter in SOF. -/
theorem roles_consistent_frame :
    let s := (run (orderedStep classicSettings) orderedReset frameReceived).1
    let t := (run (orderedStep highLimit) orderedReset (intoBusOff.take 60)).1
    (s.core.pc.currState = .eof ∧ CanCore.isReceiver s.core = true ∧
      s.core.pc.stuffEnable = false ∧ s.core.pc.destuffEnable = false) ∧
      t.core.pc.currState = .sof ∧ CanCore.isReceiver t.core = false := by
  have hs : (fun s : State => s.core.pc.currState = .eof ∧ CanCore.isReceiver s.core = true)
      (run (orderedStep classicSettings) orderedReset frameReceived).1 := by decide +kernel
  have ht : (run (orderedStep highLimit) orderedReset (intoBusOff.take 60)).1.core.pc.currState =
      .sof := by decide +kernel
  have hframe := roles_consistent classicSettings frameReceived (busCycle true) (by decide +kernel)
  have hsof := roles_consistent highLimit (intoBusOff.take 60) (busCycle true) (by decide +kernel)
  exact ⟨⟨hs.1, hs.2, hframe.2.2.1 hs.1⟩, ht, hsof.1 ht⟩

/-! ## Error counters -/

/-- No reachable increment of the transmit error counter wraps, the receive error
counter saturates; the state follows the counters; a counter above 255 makes the node
bus-off two cycles later, and at most one of the two cycles has a sample point; bus-off
is left with both counters cleared. -/
theorem error_counters_confined (f : Settings) (is : List Input) (i j : Input)
    (h : OrderedRun f (is ++ [i, j])) :
    let s := (run (orderedStep f) orderedReset is).1
    let s' := step f s i
    let s'' := step f s' j
    (txErrCtr s.fc ≤ 319 ∧
      (FaultConfinement.incEight (fcInput f s i) = true → CanCore.isTransmitter s.core = true →
        s.fc.resErrCtrsQ = true → (fcInput f s i).setErrActive = false →
        txErrCtr s'.fc = txErrCtr s.fc + 8)) ∧
    (rxErrCtr s.fc ≤ 511 ∧
      (FaultConfinement.incOne (fcInput f s i) = true ∨
          FaultConfinement.incEight (fcInput f s i) = true → (fcInput f s i).setErrActive = false →
        rxErrCtr s.fc ≤ rxErrCtr s'.fc)) ∧
    (s.fc.currState ≠ .busOff → s'.fc.currState ≠ .busOff →
      txErrCtr s'.fc = txErrCtr s.fc → rxErrCtr s'.fc = rxErrCtr s.fc →
      (s'.fc.currState = .errPassive ↔
        f.limits.mrErpErpLimit.toNat ≤ txErrCtr s'.fc ∨
          f.limits.mrErpErpLimit.toNat ≤ rxErrCtr s'.fc)) ∧
    (255 < txErrCtr s.fc → s.fc.currState ≠ .busOff →
      s''.fc.currState = .busOff ∧ ¬ (i.core.rxTrigReq = true ∧ j.core.rxTrigReq = true)) ∧
    (s.fc.currState = .busOff → s'.fc.currState ≠ .busOff →
      txErrCtr s'.fc = 0 ∧ rxErrCtr s'.fc = 0) := by
  obtain ⟨hrun, hi, hj, -⟩ := (admits_append _ _ _ _ _).mp h
  have hc := run_confined hrun
  have hrec := run_rxErrCtrQ hrun
  generalize run (orderedStep f) orderedReset is = p at hc hi hj hrec
  refine ⟨⟨hc.bound, fun hinc hx hres ha => ?_⟩, ⟨?_, fun hinc ha => ?_⟩,
    fun hb hb' htx hrx => ?_, fun hgt hb => ⟨?_, fun hs => ?_⟩, fun hb hb' => ?_⟩
  · have hle := hc.bound
    have hx : (fcInput f p.1 i).isTransmitter = true := hx
    have hstep := FaultConfinement.txErrCtr_step (l := f.limits) (i := fcInput f p.1 i) hc.presPtxQ
    simp only [ha, hres, hinc, hx, Bool.not_true, Bool.or_self, Bool.and_self, Bool.false_eq_true,
      if_false, if_true] at hstep
    have hmod : (txErrCtr p.1.fc + 8) % 512 = txErrCtr p.1.fc + 8 := by omega
    exact hstep.trans hmod
  · have := FaultConfinement.rxErrCtr_lt hrec
    omega
  · exact FaultConfinement.rxErrCtr_up hrec hc.presPrxQ ha hinc
  · have hiff := FaultConfinement.errPassive_iff (l := f.limits) (i := fcInput f p.1 i) hb hb'
    rw [htx, hrx]
    exact hiff
  · exact hc.busOff_within (hc.step_confined hi) hgt hb
  · have hq : (step f p.1 i).core.rxTrigReqQ = false := hj.core.apart hs.2
    exact absurd (hq.symm.trans hs.1) (by decide)
  · exact FaultConfinement.counters_cleared (Confined.busOff_left hb hb')

/-- The last error of the run into bus-off, and what follows the step over 255. -/
theorem error_counters_confined_busOff :
    let s := (run (orderedStep highLimit) orderedReset (intoBusOff.take 281)).1
    let t := (run (orderedStep highLimit) orderedReset (intoBusOff.take 282)).1
    let i := offering (busCycle false)
    (txErrCtr s.fc = 248 ∧ txErrCtr (step highLimit s i).fc = txErrCtr s.fc + 8) ∧
      (txErrCtr t.fc = 256 ∧ t.fc.currState = .errPassive ∧
        (step highLimit (step highLimit t (transmitted i)) i).fc.currState = .busOff) := by
  have hs : (fun s : State => txErrCtr s.fc = 248 ∧
      FaultConfinement.incEight (fcInput highLimit s (offering (busCycle false))) = true ∧
      CanCore.isTransmitter s.core = true ∧ s.fc.resErrCtrsQ = true ∧
      (fcInput highLimit s (offering (busCycle false))).setErrActive = false)
      (run (orderedStep highLimit) orderedReset (intoBusOff.take 281)).1 := by decide +kernel
  have ht : (fun s : State => txErrCtr s.fc = 256 ∧ s.fc.currState = .errPassive)
      (run (orderedStep highLimit) orderedReset (intoBusOff.take 282)).1 := by decide +kernel
  obtain ⟨hctr, hinc, hx, hres, hset⟩ := hs
  have hup := error_counters_confined highLimit (intoBusOff.take 281) (offering (busCycle false))
    (transmitted (offering (busCycle false))) (by decide +kernel)
  have hoff := error_counters_confined highLimit (intoBusOff.take 282)
    (transmitted (offering (busCycle false))) (offering (busCycle false)) (by decide +kernel)
  exact ⟨⟨hctr, hup.1.2 hinc hx hres hset⟩, ht.1, ht.2,
    (hoff.2.2.2.1 (by rw [ht.1]; decide) (by rw [ht.2]; decide)).1⟩

/-- With a limit of zero the counters reach it at zero. -/
def zeroLimit : Settings := { classicSettings with limits := ⟨0, 96⟩ }

/-- The first cycle outside bus-off is error active, although both counters have been
zero, and the limit with them, since reset. -/
theorem zero_limit_active :
    let s := (run (orderedStep zeroLimit) orderedReset tenRecessive).1
    let s' := step zeroLimit s (busCycle true)
    OrderedRun zeroLimit (tenRecessive ++ [busCycle true]) ∧
      zeroLimit.limits.mrErpErpLimit.toNat ≤ txErrCtr s'.fc ∧
      txErrCtr s'.fc = txErrCtr s.fc ∧ rxErrCtr s'.fc = rxErrCtr s.fc ∧
      s'.fc.currState = .errActive := by
  decide +kernel

end Node
