import CtuCanFd.Core.DataWords
import CtuCanFd.Prescaler.Resync

/-!
# Bit rate switch

The CAN core and the prescaler in a loop: the prescaler times the sample points
of the core, and the core selects the bit rate of the prescaler. The selection
changes in the first cycle of TSEG2, when protocol control takes the bit, so
TSEG2 of the BRS bit and of the CRC delimiter are measured in full with the new
bit rate. Edges and the synchronisation control are inputs.
-/

open SyncMachine (Forecast Admits run trace)

namespace ProtocolControl

variable {c : Config} {q : Regs} {i : Input}

/-- `nbt_ctrs_en`. -/
def nbtCtrsEn (c : Config) (q : Regs) (i : Input) : Bool :=
  i.errFrmReq || q.currState != .off || c.mrSettingsEna

/-- `dbt_ctrs_en`. -/
def dbtCtrsEn (q : Regs) (i : Input) : Bool :=
  i.errFrmReq ||
    match q.currState with
    | .brs | .esi | .crcDelim | .ack | .ackFd1 | .ackFd2 => true
    | .dlc | .data | .stuffCount | .crc => q.spControlQ != .nominalSample
    | _ => false

/-- Between sample points the bit rate is held. -/
theorem spControl_between (ht : i.rxTrigger = false) (he : i.errFrmReq = false) :
    spControl c q i = q.spControlQ ∧ (step c q i).spControlQ = q.spControlQ := by
  have hout : (out c q i).brShiftedI = false ∧ (out c q i).spControlSwitchData = false ∧
      (out c q i).spControlSwitchNominal = false := by
    rw [out_noErr he]
    cases hst : q.currState <;> first | exact ⟨rfl, rfl, rfl⟩ | skip
    · simp [outState, outOff, apply_ite Out.brShiftedI, apply_ite Out.spControlSwitchData,
        apply_ite Out.spControlSwitchNominal]
    · simp [outState, outBrs, ht]
    · simp [outState, outCrcDelim, ht]
  exact ⟨by simp [spControl, hout.1], by simp [step, hout.2.1, hout.2.2]⟩

/-- Only the BRS bit and the CRC delimiter switch it. -/
theorem spControl_elsewhere (he : i.errFrmReq = false) (hb : q.currState ≠ .brs)
    (hd : q.currState ≠ .crcDelim) :
    spControl c q i = q.spControlQ ∧ (step c q i).spControlQ = q.spControlQ := by
  obtain ⟨h1, h2⟩ := out_spControl (c := c) he hb hd
  refine ⟨?_, by simp [step, h1, h2]⟩
  simp [spControl, spControlD, switchToSsp, h1, h2]

theorem spControl_brs (ht : i.rxTrigger = true) (he : i.errFrmReq = false)
    (hq : q.currState = .brs) (hd : i.rxDataNbs = true) :
    spControl c q i ≠ .nominalSample ∧ (step c q i).spControlQ ≠ .nominalSample := by
  have ho : out c q i = outBrs i := by rw [out_noErr he, hq]; rfl
  simp only [spControl, step, spControlD, switchToSsp, ho, outBrs, hd, ht]
  constructor <;> simp <;> split <;> decide

theorem spControl_crcDelim (ht : i.rxTrigger = true) (he : i.errFrmReq = false)
    (hq : q.currState = .crcDelim) (hs : q.spControlQ ≠ .nominalSample) :
    spControl c q i = .nominalSample ∧ (step c q i).spControlQ = .nominalSample := by
  have ho : out c q i = outCrcDelim q i := by rw [out_noErr he, hq]; rfl
  have hsh : (q.spControlQ == .dataSample || q.spControlQ == .secondarySample) = true := by
    cases h : q.spControlQ
    · exact absurd h hs
    · rfl
    · rfl
  simp [spControl, step, spControlD, ho, outCrcDelim, ht, hsh]

theorem spControl_nominal (he : i.errFrmReq = false) (hb : q.currState ≠ .brs)
    (hs : q.spControlQ = .nominalSample) : spControl c q i = .nominalSample := by
  by_cases hd : q.currState = .crcDelim
  · have ho : out c q i = outCrcDelim q i := by rw [out_noErr he, hd]; rfl
    simp [spControl, ho, outCrcDelim, hs]
  · rw [(spControl_elsewhere he hb hd).1, hs]

theorem dbtCtrsEn_dataRate (h : q.currState.inDataRate = true)
    (hs : q.spControlQ ≠ .nominalSample) : dbtCtrsEn q i = true := by
  rw [dbtCtrsEn]
  cases hq : q.currState <;> rw [hq] at h <;>
    first | (exact absurd h (by decide)) | simp [hs]

end ProtocolControl

namespace BitRateSwitch

open Prescaler (Trigger Counting Quiet bitShape rateOf Up Running edgeUsed MinLengths)
open ProtocolControl (Config)

structure State where
  core : CanCore.State
  pre : Prescaler.State

def reset : State := ⟨CanCore.reset, Prescaler.reset⟩

/-- The triggers of `core` are not read: they come from the prescaler. -/
structure Input where
  core : CanCore.Input
  syncControl : SyncControl

def preInput (c : Config) (s : State) (i : Input) : Prescaler.Input where
  mrSettingsEna := c.mrSettingsEna
  syncEdge := i.core.syncEdge
  spControl := ProtocolControl.spControl c s.core.pc (CanCore.pcInput c s.core i.core)
  syncControl := i.syncControl
  noPosResync := !CanCore.txDataWbs c s.core
  nbtCtrsEn := ProtocolControl.nbtCtrsEn c s.core.pc (CanCore.pcInput c s.core i.core)
  dbtCtrsEn := ProtocolControl.dbtCtrsEn s.core.pc (CanCore.pcInput c s.core i.core)

def coreInput (c : Config) (b : Btr) (s : State) (i : Input) : CanCore.Input :=
  { i.core with
    rxTrigReq := Prescaler.rxTrigReq b s.pre (preInput c s i)
    txTrigger := Prescaler.txTrigger b s.pre (preInput c s i) }

def step (c : Config) (b : Btr) (s : State) (i : Input) : State where
  core := CanCore.step c s.core (coreInput c b s i)
  pre := Prescaler.step b s.pre (preInput c s i)

def trigger (c : Config) (b : Btr) (s : State) (i : Input) : Trigger :=
  Prescaler.trigger b s.pre (preInput c s i)

variable {c : Config} {b : Btr} {s : State} {i : Input}

/-- A cycle of a frame that no edge and no error frame disturbs. -/
def Undisturbed (s : State) (i : Input) : Prop :=
  i.core.syncEdge = false ∧ s.core.err.errFrmReq = false

instance : Decidable (Undisturbed s i) := inferInstanceAs (Decidable (_ ∧ _))

theorem not_used (h : Undisturbed s i) : edgeUsed b s.pre (preInput c s i) = false := by
  simp [edgeUsed, Prescaler.resyncEdgeValid, Prescaler.resyncEdge, Prescaler.hSyncValid,
    Prescaler.hSyncEdgeValid, Prescaler.hSyncEdge, preInput, h.1]

theorem pc_step : (step c b s i).core.pc =
    ProtocolControl.step c s.core.pc (CanCore.pcInput c s.core i.core) := rfl

theorem rxTrigReqQ_step :
    (step c b s i).core.rxTrigReqQ = Prescaler.rxTrigReq b s.pre (preInput c s i) := rfl

theorem rxTrigReqQ_of_trigger (h : trigger c b s i ≠ .sample) :
    (step c b s i).core.rxTrigReqQ = false := Prescaler.Trigger.not_sample h

theorem rxTrigReqQ_of_sample (h : trigger c b s i = .sample) :
    (step c b s i).core.rxTrigReqQ = true := by
  rw [rxTrigReqQ_step]
  by_contra hx
  simp only [trigger, Prescaler.trigger, if_neg hx] at h
  split at h <;> cases h

theorem nbt_en (hena : c.mrSettingsEna = true) : (preInput c s i).ctrsEn .nominal = true := by
  simp [Prescaler.Input.ctrsEn, preInput, ProtocolControl.nbtCtrsEn, hena]

/-! ## The selected bit rate -/

/-- The registers of protocol control do not move while no bit is taken. -/
theorem hold (h : Undisturbed s i) (ht : s.core.rxTrigReqQ = false) :
    (preInput c s i).spControl = s.core.pc.spControlQ ∧
      (step c b s i).core.pc.spControlQ = s.core.pc.spControlQ ∧
      (step c b s i).core.pc.currState = s.core.pc.currState := by
  have hrx : (CanCore.pcInput c s.core i.core).rxTrigger = false := by
    simp [CanCore.pcInput, CanCore.pcRxTrigger, ht]
  have herr : (CanCore.pcInput c s.core i.core).errFrmReq = false := h.2
  obtain ⟨h1, h2⟩ := ProtocolControl.spControl_between (c := c) (q := s.core.pc) hrx herr
  exact ⟨h1, h2, ProtocolControl.step_hold hrx herr⟩

theorem rateOf_nominal {sp : ProtocolControl.SpControl} (h : sp = .nominalSample) :
    rateOf sp = .nominal := by
  rw [h]
  rfl

theorem rateOf_data {sp : ProtocolControl.SpControl} (h : sp ≠ .nominalSample) :
    rateOf sp = .data := by
  cases sp
  · exact absurd rfl h
  · rfl
  · rfl

/-! ## Reached states -/

/-- The first cycle of TSEG2, in which protocol control takes the bit: nothing is
counted yet, by the data bit time neither if it may be selected now. -/
structure Sampled (b : Btr) (s : State) : Prop where
  nominal : Counting b .nominal .tseg2 (b.tseg2 .nominal)
    (b.tseg2 .nominal * b.brpOf .nominal - 1) s.pre
  data : s.core.pc.currState = .brs ∨ s.core.pc.spControlQ ≠ .nominalSample →
    Counting b .data .tseg2 (b.tseg2 .data) (b.tseg2 .data * b.brpOf .data - 1) s.pre

structure Reached (b : Btr) (s : State) : Prop where
  up : ∀ r, Up b r s.pre
  dataRate : s.core.pc.spControlQ ≠ .nominalSample → s.core.pc.currState.inDataRate = true
  sampled : s.core.rxTrigReqQ = true → Sampled b s

section Run

variable (hena : c.mrSettingsEna = true) (hm : ∀ r, MinLengths b r)

include hena hm

/-- The cycle of a sample point. -/
theorem sampled_step (h : Reached b s) (hs : trigger c b s i = .sample) :
    Sampled b (step c b s i) := by
  have hreq := rxTrigReqQ_of_sample hs
  obtain ⟨ht, he⟩ := Bool.and_eq_true_iff.mp hreq
  have ht : s.pre.bitTime = .tseg1 := beq_iff_eq.mp ht
  have hrun : ∀ r, Running b s.pre r := fun r => (h.up r).running (by rw [ht]; decide)
  have hena2 : s.pre.mrSettingsEnaReg2 = true := by
    rcases h.up (rateOf (preInput c s i).spControl) with hx | ⟨-, hx | hx⟩
    · rw [hx] at ht
      cases ht
    · exact hx
    · have he' : Prescaler.segmEnd b s.pre (preInput c s i) = false :=
        hx.no_end (hm _) (hrun _) rfl
      rw [he'] at he
      cases he
  have hcount : ∀ r, (preInput c s i).ctrsEn r = true →
      Counting b r .tseg2 (b.tseg2 r) (b.tseg2 r * b.brpOf r - 1) (step c b s i).pre :=
    fun r hen => Prescaler.counting_sample (hrun _) hena2 hena rfl (hrun r) (hm r).tseg2_pos hen
      ht he
  refine ⟨hcount .nominal (nbt_en hena), fun hd => hcount .data ?_⟩
  -- the state in which the sample point falls has the data counters enabled
  change ProtocolControl.dbtCtrsEn s.core.pc (CanCore.pcInput c s.core i.core) = true
  cases herr : s.core.err.errFrmReq
  · have hq : s.core.rxTrigReqQ = false := by
      by_contra hx
      have := (h.sampled (by simpa using hx)).nominal.bitTime
      rw [ht] at this
      cases this
    have hrx : (CanCore.pcInput c s.core i.core).rxTrigger = false := by
      simp [CanCore.pcInput, CanCore.pcRxTrigger, hq]
    obtain ⟨-, h2⟩ := ProtocolControl.spControl_between (c := c) (q := s.core.pc) hrx herr
    have h3 := ProtocolControl.step_hold (c := c) (q := s.core.pc) hrx herr
    rw [pc_step, h2, h3] at hd
    rcases hd with hd | hd
    · simp [ProtocolControl.dbtCtrsEn, hd]
    · exact ProtocolControl.dbtCtrsEn_dataRate (h.dataRate hd) hd
  · have herr' : (CanCore.pcInput c s.core i.core).errFrmReq = true := herr
    rw [ProtocolControl.dbtCtrsEn, herr', Bool.true_or]

theorem reached_step (h : Reached b s) : Reached b (step c b s i) where
  up r := by
    rcases h.up r with hx | ⟨hx, -⟩
    · have hs : (step c b s i).pre = Prescaler.step b Prescaler.reset (preInput c s i) := by
        rw [← hx]
        rfl
      rw [hs]
      exact .inr ⟨Prescaler.first_running (hm r).brp_pos hena,
        .inr (Prescaler.first_starting (hm r).brp_pos hena)⟩
    · exact .inr ⟨hx.step hena, .inl hx.ena⟩
  dataRate := ProtocolControl.spControl_step h.dataRate
  sampled hq := by
    refine sampled_step hena hm h ?_
    rw [rxTrigReqQ_step] at hq
    simp [trigger, Prescaler.trigger, hq]

theorem run_reached (is : List Input) : Reached b (run (step c b) reset is) := by
  refine SyncMachine.run_invariant (step c b) (fun _ _ => True) (Reached b)
    (fun _ _ h _ => reached_step hena hm h) ⟨fun _ => .inl rfl, fun h => absurd rfl h,
      fun h => absurd h (by decide)⟩ is
    (SyncMachine.admits_true _ _ _)

end Run

/-! ## Bits -/

theorem ctrsEn_of_selected (hena : c.mrSettingsEna = true) (h : Reached b s) {r : BitRate}
    (hr : rateOf s.core.pc.spControlQ = r) : (preInput c s i).ctrsEn r = true := by
  cases r
  · exact nbt_en hena
  · have hs : s.core.pc.spControlQ ≠ .nominalSample := by
      intro hs
      rw [hs] at hr
      cases hr
    exact ProtocolControl.dbtCtrsEn_dataRate (h.dataRate hs) hs

/-- A segment at bit rate `r` with protocol control in state `st`, after its bit
has been taken. -/
structure Held (b : Btr) (r : BitRate) (seg : BitTime) (l n : Nat) (st : ProtocolControl.PcState)
    (s : State) : Prop where
  reached : Reached b s
  counting : Counting b r seg l n s.pre
  taken : s.core.rxTrigReqQ = false
  state : s.core.pc.currState = st
  rate : rateOf s.core.pc.spControlQ = r

section Bits

variable (hena : c.mrSettingsEna = true) (hm : ∀ r, MinLengths b r) {r : BitRate} {seg : BitTime}
  {l n : Nat} {st : ProtocolControl.PcState}

include hena hm

theorem Held.tick (h : Held b r seg l (n + 1) st s) (hu : Undisturbed s i) :
    trigger c b s i = .none ∧ Held b r seg l n st (step c b s i) := by
  obtain ⟨h1, h2, h3⟩ := hold (b := b) (c := c) hu h.taken
  have htick := h.counting.tick (i := preInput c s i) hena (by rw [h1, h.rate])
    (ctrsEn_of_selected hena h.reached h.rate) (not_used hu)
  refine ⟨htick.1, reached_step hena hm h.reached, htick.2,
    rxTrigReqQ_of_trigger (by rw [trigger, htick.1]; decide), by rw [h3, h.state],
    by rw [h2, h.rate]⟩

omit hena hm in
theorem Held.ends (h : Held b r seg l 0 st s) (hu : Undisturbed s i) :
    Prescaler.segmEnd b s.pre (preInput c s i) = true := by
  obtain ⟨h1, -, -⟩ := hold (b := b) (c := c) hu h.taken
  exact h.counting.ends (by rw [h1, h.rate]) (not_used hu)

/-- Undisturbed cycles in which the bit is taken as `takes` says. -/
def Taking (takes : State → Prop) (s : State) (i : Input) : Prop :=
  Undisturbed s i ∧ (s.core.rxTrigReqQ = true → takes s)

instance {takes : State → Prop} [DecidablePred takes] : Decidable (Taking takes s i) :=
  inferInstanceAs (Decidable (_ ∧ (_ → _)))

/-- The rest of TSEG2, after the bit has been taken. -/
theorem forecast_tseg2 {takes : State → Prop} (h : Held b r .tseg2 l n st s) :
    Forecast (step c b) (Taking takes) (trigger c b) (List.replicate n .none ++ [.bitStart])
      (fun t => rateOf t.core.pc.spControlQ = r) s := by
  refine (Forecast.countdown (P := fun n t => Held b r .tseg2 l n st t)
    (fun n t i ht hi => ht.tick hena hm hi.1) h).append fun t ht => .cons fun i hi => ?_
  obtain ⟨-, h2, -⟩ := hold (b := b) (c := c) hi.1 ht.taken
  exact ⟨Prescaler.trigger_bitStart ht.counting.bitTime (ht.ends hi.1),
    .nil (by rw [h2, ht.rate])⟩

/-- The first cycle of TSEG2: protocol control takes the bit and selects bit rate `r`. -/
theorem take_bit (h : Reached b s) (hu : Undisturbed s i)
    (hcount : Counting b r .tseg2 (b.tseg2 r) (b.tseg2 r * b.brpOf r - 1) s.pre)
    (hr : rateOf (preInput c s i).spControl = r) (hen : (preInput c s i).ctrsEn r = true)
    (hnext : rateOf (step c b s i).core.pc.spControlQ = r) :
    trigger c b s i = .none ∧
      Held b r .tseg2 (b.tseg2 r) (b.tseg2 r * b.brpOf r - 2)
        (step c b s i).core.pc.currState (step c b s i) := by
  have h2 := (hm r).tseg2
  rw [show b.tseg2 r * b.brpOf r - 1 = b.tseg2 r * b.brpOf r - 2 + 1 by omega] at hcount
  have htick := hcount.tick (i := preInput c s i) hena hr hen (not_used hu)
  exact ⟨htick.1, reached_step hena hm h, htick.2,
    rxTrigReqQ_of_trigger (by rw [trigger, htick.1]; decide), rfl, hnext⟩

/-- A bit with TSEG1 at bit rate `r`, after which bit rate `r'` is selected. -/
theorem forecast_bit (takes : State → Prop) (r' : BitRate)
    (htake : ∀ t i, Reached b t → Sampled b t → t.core.pc.currState = st →
      rateOf t.core.pc.spControlQ = r → Undisturbed t i → t.core.rxTrigReqQ = true → takes t →
      Counting b r' .tseg2 (b.tseg2 r') (b.tseg2 r' * b.brpOf r' - 1) t.pre ∧
        rateOf (preInput c t i).spControl = r' ∧ (preInput c t i).ctrsEn r' = true ∧
        rateOf (step c b t i).core.pc.spControlQ = r')
    (h : Held b r .tseg1 l n st s) :
    Forecast (step c b) (Taking takes) (trigger c b)
      (bitShape (n + 1) (b.tseg2 r' * b.brpOf r'))
      (fun t => rateOf t.core.pc.spControlQ = r') s := by
  have h2 := (hm r').tseg2
  have hshape : bitShape (n + 1) (b.tseg2 r' * b.brpOf r') = List.replicate n .none ++
      .sample :: .none :: (List.replicate (b.tseg2 r' * b.brpOf r' - 2) .none ++ [.bitStart]) := by
    rw [bitShape, show b.tseg2 r' * b.brpOf r' - 1 = b.tseg2 r' * b.brpOf r' - 2 + 1 by omega,
      List.replicate_succ]
    rfl
  rw [hshape]
  refine (Forecast.countdown (P := fun n t => Held b r .tseg1 l n st t)
    (fun n t i ht hi => ht.tick hena hm hi.1) h).append fun t ht => .cons fun i hi => ?_
  have hs := Prescaler.trigger_sample ht.counting.bitTime (ht.ends (c := c) hi.1)
  obtain ⟨-, h2', h3'⟩ := hold (b := b) (c := c) hi.1 ht.taken
  refine ⟨hs, .cons fun j hj => ?_⟩
  have hreq := rxTrigReqQ_of_sample (c := c) (b := b) hs
  obtain ⟨hcount, hr, hen, hnext⟩ := htake (step c b t i) j (reached_step hena hm ht.reached)
    (sampled_step hena hm ht.reached hs) (by rw [h3', ht.state]) (by rw [h2', ht.rate]) hj.1 hreq
    (hj.2 hreq)
  obtain ⟨htr, hheld⟩ := take_bit hena hm (reached_step hena hm ht.reached) hj.1 hcount hr hen
    hnext
  exact ⟨htr, forecast_tseg2 hena hm hheld⟩

omit hena in
/-- A bit does not end in the cycle in which it is taken. -/
theorem taken_of_bitStart (h : Reached b s) (hu : Undisturbed s i) (ht : s.pre.bitTime = .tseg2)
    (htr : trigger c b s i = .bitStart) : s.core.rxTrigReqQ = false := by
  by_contra hx
  have hs := h.sampled (by simpa using hx)
  have hcount : Counting b (rateOf (preInput c s i).spControl) .tseg2
      (b.tseg2 (rateOf (preInput c s i).spControl))
      (b.tseg2 (rateOf (preInput c s i).spControl) *
        b.brpOf (rateOf (preInput c s i).spControl) - 1) s.pre := by
    by_cases hn : (preInput c s i).spControl = .nominalSample
    · rw [rateOf_nominal hn]
      exact hs.nominal
    · rw [rateOf_data hn]
      refine hs.data ?_
      by_contra hd
      simp only [not_or, not_not] at hd
      exact hn (ProtocolControl.spControl_nominal hu.2 hd.1 hd.2)
  have h2 := (hm (rateOf (preInput c s i).spControl)).tseg2
  rw [show b.tseg2 (rateOf (preInput c s i).spControl) *
    b.brpOf (rateOf (preInput c s i).spControl) - 1 =
    b.tseg2 (rateOf (preInput c s i).spControl) *
    b.brpOf (rateOf (preInput c s i).spControl) - 2 + 1 by omega] at hcount
  have he := hcount.no_end (i := preInput c s i) rfl (not_used hu)
  rw [trigger, Prescaler.trigger_none (by rw [ht]; decide) he] at htr
  cases htr

theorem held_of_bitStart (h : Reached b s) (hu : Undisturbed s i) (ht : s.pre.bitTime = .tseg2)
    (htr : trigger c b s i = .bitStart) (hr : rateOf (step c b s i).core.pc.spControlQ = r) :
    Held b r .tseg1 (b.tseg1 r) (b.tseg1 r * b.brpOf r - 1)
      (step c b s i).core.pc.currState (step c b s i) := by
  have htaken := taken_of_bitStart hm h hu ht htr
  obtain ⟨h1, h2, -⟩ := hold (b := b) (c := c) hu htaken
  have hr0 : rateOf s.core.pc.spControlQ = r := by rw [← h2, hr]
  have hrun := (h.up r).running (by rw [ht]; decide)
  have he : Prescaler.segmEnd b s.pre (preInput c s i) = true := by
    by_contra he
    rw [trigger, Prescaler.trigger_none hrun.bitTime (by simpa using he)] at htr
    cases htr
  have hT1 : 1 ≤ b.tseg1 r := by
    by_contra hx
    have := (hm r).tseg1
    rw [show b.tseg1 r = 0 by omega] at this
    omega
  exact ⟨reached_step hena hm h, Prescaler.counting_bitStart hrun ((h.up r).ena2_of_tseg2 ht).2
    hena hT1 (ctrsEn_of_selected hena h hr0) ht he (not_used hu),
    rxTrigReqQ_of_trigger (by rw [htr]; decide), rfl, hr⟩

end Bits

/-! ## The frame -/

/-- The sampled BRS bit is recessive. -/
def takesBrs (s : State) : Prop := s.core.bds.destuffedQ = false ∧ s.core.bds.dataOut = true

instance : DecidablePred takesBrs := fun _ => inferInstanceAs (Decidable (_ ∧ _))

/-- The bit is a stuff bit or belongs to a field before the CRC delimiter. -/
def takesData (s : State) : Prop :=
  s.core.pc.currState ≠ .crcDelim ∨ s.core.bds.destuffedQ = true

def takesCrcDelim (s : State) : Prop :=
  s.core.pc.currState = .crcDelim ∧ s.core.bds.destuffedQ = false

theorem rxTrigger_eq (h : s.core.rxTrigReqQ = true) :
    (CanCore.pcInput c s.core i.core).rxTrigger = !s.core.bds.destuffedQ := by
  simp [CanCore.pcInput, CanCore.pcRxTrigger, h]

/-- The lengths of the bits from BRS to the CRC delimiter, from a reached state
in which one of them starts. -/
structure SwitchLaw (c : Config) (b : Btr) (s : State) : Prop where
  brs : ∀ i, Undisturbed s i → s.pre.bitTime = .tseg2 → trigger c b s i = .bitStart →
    (step c b s i).core.pc.currState = .brs →
    Forecast (step c b) (Taking takesBrs) (trigger c b)
      (bitShape (b.tseg1 .nominal * b.brpOf .nominal) (b.tseg2 .data * b.brpOf .data))
      (fun t => t.core.pc.spControlQ ≠ .nominalSample) (step c b s i)
  data : ∀ i, Undisturbed s i → s.pre.bitTime = .tseg2 → trigger c b s i = .bitStart →
    (step c b s i).core.pc.spControlQ ≠ .nominalSample →
    Forecast (step c b) (Taking takesData) (trigger c b)
      (bitShape (b.tseg1 .data * b.brpOf .data) (b.tseg2 .data * b.brpOf .data))
      (fun t => t.core.pc.spControlQ ≠ .nominalSample) (step c b s i)
  crcDelim : ∀ i, Undisturbed s i → s.pre.bitTime = .tseg2 → trigger c b s i = .bitStart →
    (step c b s i).core.pc.spControlQ ≠ .nominalSample →
    Forecast (step c b) (Taking takesCrcDelim) (trigger c b)
      (bitShape (b.tseg1 .data * b.brpOf .data) (b.tseg2 .nominal * b.brpOf .nominal))
      (fun t => t.core.pc.spControlQ = .nominalSample) (step c b s i)

theorem dataRate_of_rateOf {sp : ProtocolControl.SpControl} (h : rateOf sp = .data) :
    sp ≠ .nominalSample := by
  rintro rfl
  cases h

theorem nominal_of_rateOf {sp : ProtocolControl.SpControl} (h : rateOf sp = .nominal) :
    sp = .nominalSample := by
  cases sp
  · rfl
  · cases h
  · cases h

section Laws

variable (hena : c.mrSettingsEna = true) (hm : ∀ r, MinLengths b r) (h : Reached b s)
  (hu : Undisturbed s i) (ht : s.pre.bitTime = .tseg2) (htr : trigger c b s i = .bitStart)

include hm in
theorem tseg1_pos (r : BitRate) : 1 ≤ b.tseg1 r * b.brpOf r := by
  have := (hm r).tseg1
  omega

include hena hm h hu ht htr

theorem brs_law (hst : (step c b s i).core.pc.currState = .brs) :
    Forecast (step c b) (Taking takesBrs) (trigger c b)
      (bitShape (b.tseg1 .nominal * b.brpOf .nominal) (b.tseg2 .data * b.brpOf .data))
      (fun t => t.core.pc.spControlQ ≠ .nominalSample) (step c b s i) := by
  have hn : (step c b s i).core.pc.spControlQ = .nominalSample := by
    by_contra hx
    have := (reached_step hena hm h).dataRate hx
    rw [hst] at this
    cases this
  have hheld := held_of_bitStart hena hm h hu ht htr (rateOf_nominal hn)
  have hf := forecast_bit hena hm takesBrs .data ?_ hheld
  · rw [Nat.sub_add_cancel (tseg1_pos hm .nominal)] at hf
    exact hf.mono (fun _ _ h => h) fun _ => dataRate_of_rateOf
  · intro t j htr hts hst' _ hj hq htakes
    rw [hst] at hst'
    have hrx : (CanCore.pcInput c t.core j.core).rxTrigger = true := by
      rw [rxTrigger_eq hq, htakes.1]
      rfl
    obtain ⟨h1, h2⟩ := ProtocolControl.spControl_brs (c := c) (q := t.core.pc) hrx hj.2 hst'
      htakes.2
    refine ⟨hts.data (.inl hst'), rateOf_data h1, ?_, rateOf_data h2⟩
    change ProtocolControl.dbtCtrsEn t.core.pc _ = true
    simp [ProtocolControl.dbtCtrsEn, hst']

theorem data_law (hsp : (step c b s i).core.pc.spControlQ ≠ .nominalSample) :
    Forecast (step c b) (Taking takesData) (trigger c b)
      (bitShape (b.tseg1 .data * b.brpOf .data) (b.tseg2 .data * b.brpOf .data))
      (fun t => t.core.pc.spControlQ ≠ .nominalSample) (step c b s i) := by
  have hheld := held_of_bitStart hena hm h hu ht htr (rateOf_data hsp)
  have hf := forecast_bit hena hm takesData .data ?_ hheld
  · rw [Nat.sub_add_cancel (tseg1_pos hm .data)] at hf
    exact hf.mono (fun _ _ h => h) fun _ => dataRate_of_rateOf
  · intro t j htr hts _ hrate hj hq htakes
    have hsp' := dataRate_of_rateOf hrate
    have hin := htr.dataRate hsp'
    have hkeep : ProtocolControl.spControl c t.core.pc (CanCore.pcInput c t.core j.core) =
          t.core.pc.spControlQ ∧
        (ProtocolControl.step c t.core.pc (CanCore.pcInput c t.core j.core)).spControlQ =
          t.core.pc.spControlQ := by
      rcases htakes with hx | hx
      · exact ProtocolControl.spControl_elsewhere hj.2 (fun hb => by rw [hb] at hin; cases hin) hx
      · exact ProtocolControl.spControl_between (by rw [rxTrigger_eq hq, hx]; rfl) hj.2
    exact ⟨hts.data (.inr hsp'), (congrArg rateOf hkeep.1).trans hrate,
      ProtocolControl.dbtCtrsEn_dataRate hin hsp', (congrArg rateOf hkeep.2).trans hrate⟩

theorem crcDelim_law (hsp : (step c b s i).core.pc.spControlQ ≠ .nominalSample) :
    Forecast (step c b) (Taking takesCrcDelim) (trigger c b)
      (bitShape (b.tseg1 .data * b.brpOf .data) (b.tseg2 .nominal * b.brpOf .nominal))
      (fun t => t.core.pc.spControlQ = .nominalSample) (step c b s i) := by
  have hheld := held_of_bitStart hena hm h hu ht htr (rateOf_data hsp)
  have hf := forecast_bit hena hm takesCrcDelim .nominal ?_ hheld
  · rw [Nat.sub_add_cancel (tseg1_pos hm .data)] at hf
    exact hf.mono (fun _ _ h => h) fun _ => nominal_of_rateOf
  · intro t j htr hts _ hrate hj hq htakes
    have hrx : (CanCore.pcInput c t.core j.core).rxTrigger = true := by
      rw [rxTrigger_eq hq, htakes.2]
      rfl
    obtain ⟨h1, h2⟩ := ProtocolControl.spControl_crcDelim (c := c) (q := t.core.pc) hrx hj.2
      htakes.1 (dataRate_of_rateOf hrate)
    exact ⟨hts.nominal, rateOf_nominal h1, nbt_en hena, rateOf_nominal h2⟩

end Laws

/-- In every run the BRS bit, the bits of the data phase and the CRC delimiter
have their exact lengths, for a transmitter as for a receiver. -/
theorem switch_exact (c : Config) (b : Btr) (hena : c.mrSettingsEna = true)
    (hm : ∀ r, MinLengths b r) (is : List Input) : SwitchLaw c b (run (step c b) reset is) := by
  have h := run_reached (c := c) hena hm is
  exact ⟨fun _ => brs_law hena hm h, fun _ => data_law hena hm h, fun _ => crcDelim_law hena hm h⟩

/-- Nominal bits of 3 and 2 clock cycles, data bits of 4 and 6. -/
def mixedBtr : Btr where
  prop := 1
  ph1 := 1
  ph2 := 2
  brp := 1
  sjw := 1
  propFd := 0
  ph1Fd := 1
  ph2Fd := 3
  brpFd := 2
  sjwFd := 1

/-- A nominal bit on the bus of a node with nothing to send. -/
def busBit (busOff bit : Bool) : List Input :=
  List.replicate 5 ⟨CanCore.listening busOff false bit, .reSync⟩

/-- Integration and an FD frame up to the last cycle of its r0 bit. -/
def brsRun : List Input :=
  ((List.replicate 11 (busBit true true)).flatten ++
    [false, true, false, true, false, true, false, true, false, true, false, true, false, false,
      true, false].flatMap (busBit false)).dropLast

/-- The BRS bit of the frame: three nominal cycles, six of the data bit time. -/
theorem switch_exact_received :
    Admits (step CanCore.listener mixedBtr) (Taking takesBrs)
        (step CanCore.listener mixedBtr (run (step CanCore.listener mixedBtr) reset brsRun)
          ⟨CanCore.listening false false false, .reSync⟩)
        (List.replicate 9 ⟨CanCore.listening false false true, .reSync⟩) ∧
      Forecast (step CanCore.listener mixedBtr) (Taking takesBrs)
        (trigger CanCore.listener mixedBtr)
        [.none, .none, .sample, .none, .none, .none, .none, .none, .bitStart]
        (fun t => t.core.pc.spControlQ ≠ .nominalSample)
        (step CanCore.listener mixedBtr (run (step CanCore.listener mixedBtr) reset brsRun)
          ⟨CanCore.listening false false false, .reSync⟩) :=
  ⟨by decide +kernel,
    (switch_exact CanCore.listener mixedBtr rfl
      (fun r => by cases r <;> exact ⟨by decide, by decide⟩) brsRun).brs
      ⟨CanCore.listening false false false, .reSync⟩ (by decide +kernel) (by decide +kernel)
      (by decide +kernel) (by decide +kernel)⟩

end BitRateSwitch
