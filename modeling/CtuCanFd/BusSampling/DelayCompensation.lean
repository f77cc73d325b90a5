import CtuCanFd.BusSampling.SecondarySample
import CtuCanFd.BusSampling.TransceiverDelay

/-!
# Transceiver delay compensation

The whole of `bus_sampling`: the input synchroniser, the edge detector, the measurement of the
transceiver delay, secondary sampling, bit error detection and the sample multiplexer. A run is
given by the inputs of every cycle.

In the data phase a transmitter compares each bit with what it receives a delay later, in the
secondary sample point. If the bus returns the transmitted bits after the delay that was measured
in the reserved bit, this is the same bit, and no bit error is reported.
-/

open SyncMachine
open ProtocolControl (SpControl)
open BusSampling (Generics Config DataEdgeDetector TrvDelayMeasurement)
open BusSampling.TrvDelayMeasurement

namespace BusSampler

structure Input where
  canRx : Bool
  txDataWbs : Bool
  txTrigger : Bool
  rxTrigger : Bool
  tqEdge : Bool
  bitErrEnable : Bool
  tranDelayMeas : Bool
  btmcReset : Bool
  dbtMeasureStart : Bool
  genFirstSsp : Bool
  sspReset : Bool
  spControl : SpControl

structure State where
  rff : Bool
  dataRxSynced : Bool
  edges : DataEdgeDetector
  trv : TrvDelayMeasurement
  sampling : BusSampling.State
  bed : BitErrDetector
  prevSampleQ : Bool

def reset : State where
  rff := true
  dataRxSynced := true
  edges := .reset
  trv := .reset
  sampling := BusSampling.reset
  bed := .reset
  prevSampleQ := true

def trvInput (s : State) (i : Input) : TrvDelayMeasurement.Input where
  edgeTxValid := s.edges.txEdge i.txDataWbs
  edgeRxValid := s.edges.rxEdge s.dataRxSynced
  tranDelayMeas := i.tranDelayMeas

def samplingInput (s : State) (i : Input) : BusSampling.Input where
  btmcReset := i.btmcReset
  dbtMeasureStart := i.dbtMeasureStart
  genFirstSsp := i.genFirstSsp
  sspReset := i.sspReset
  spControl := i.spControl
  sspDelay := s.trv.sspDelayShadowed
  txTrigger := i.txTrigger
  txDataWbs := i.txDataWbs

def sampleSec (g : Generics) (s : State) (i : Input) : Bool :=
  BusSampling.sampleSec g s.sampling (samplingInput s i)

def bedInput (g : Generics) (c : Config) (s : State) (i : Input) : BitErrDetector.Input where
  mrSettingsEna := c.mrSettingsEna
  bitErrEnable := i.bitErrEnable
  spControl := i.spControl
  rxTrigger := i.rxTrigger
  sampleSec := sampleSec g s i
  dataTx := i.txDataWbs
  dataTxDelayed := BusSampling.dataTxDelayed s.sampling
  dataRxSynced := s.dataRxSynced

/-- `sample_mux`. -/
def sample (g : Generics) (s : State) (i : Input) : Bool :=
  if i.spControl = .secondarySample then sampleSec g s i else i.rxTrigger

/-- Edge for the prescaler. -/
def syncEdge (s : State) (i : Input) : Bool :=
  s.edges.syncEdge s.dataRxSynced s.prevSampleQ i.tqEdge

def step (g : Generics) (c : Config) (s : State) (i : Input) : State where
  rff := i.canRx
  dataRxSynced := s.rff
  edges := s.edges.step i.txDataWbs s.dataRxSynced i.tqEdge
  trv := s.trv.step c (trvInput s i)
  sampling := BusSampling.step g s.sampling (samplingInput s i)
  bed := s.bed.step (bedInput g c s i)
  prevSampleQ := if c.mrSettingsEna && sample g s i then s.dataRxSynced else s.prevSampleQ

/-! ## What the registers of the input side show -/

section Signals

variable {g : Generics} {c : Config} {s : State} {sig : Nat → Input}

/-- The synchroniser takes two cycles. -/
theorem dataRxSynced_at (n : Nat) :
    (stateAt (step g c) s sig (n + 2)).dataRxSynced = (sig n).canRx := rfl

theorem txDataPrev_at (n : Nat) :
    (stateAt (step g c) s sig (n + 1)).edges.txDataPrev = (sig n).txDataWbs := rfl

theorem rxDataPrev_at (n : Nat) :
    (stateAt (step g c) s sig (n + 3)).edges.rxDataPrev = (sig n).canRx := rfl

theorem sampling_at (n : Nat) :
    (stateAt (step g c) s sig n).sampling =
      stateAt (BusSampling.step g) s.sampling
        (fun m => samplingInput (stateAt (step g c) s sig m) (sig m)) n :=
  stateAt_part State.sampling samplingInput (fun _ _ => rfl) s sig n

end Signals

/-! ## The measured delay -/

/-- The bus returns what is sent after `loop` cycles. -/
def Echoes (sig : Nat → Input) (loop : Nat) : Prop :=
  ∀ n, (sig (n + loop)).canRx = (sig n).txDataWbs

/-- A measurement starts in cycle `n + 1`. -/
def startsMeasurement (sig : Nat → Input) (n : Nat) : Bool :=
  (sig (n + 1)).tranDelayMeas && ((sig n).txDataWbs && !(sig (n + 1)).txDataWbs)

/-- The edge from the recessive FDF bit to the dominant reserved bit, with measurement enabled.
Both bits are longer than the delay, two cycles of which are those of the synchroniser. -/
structure ResEdge (sig : Nat → Input) (loop edge : Nat) : Prop where
  room : loop + 2 ≤ edge
  recessive : ∀ n, edge ≤ n + (loop + 2) → n < edge → (sig n).txDataWbs = true
  dominant : ∀ n, edge ≤ n → n < edge + (loop + 2) → (sig n).txDataWbs = false
  enabled : ∀ n, edge ≤ n → n < edge + (loop + 2) → (sig n).tranDelayMeas = true

section Measured

variable {g : Generics} {c : Config} {s : State} {sig : Nat → Input} {loop edge : Nat}

theorem edgeTxValid_at (n : Nat) :
    (trvInput (stateAt (step g c) s sig (n + 1)) (sig (n + 1))).edgeTxValid =
      ((sig n).txDataWbs && !(sig (n + 1)).txDataWbs) := by
  simp only [trvInput, DataEdgeDetector.txEdge, txDataPrev_at]
  cases (sig n).txDataWbs <;> cases (sig (n + 1)).txDataWbs <;> rfl

theorem edgeRxValid_at (n : Nat) :
    (trvInput (stateAt (step g c) s sig (n + 3)) (sig (n + 3))).edgeRxValid =
      ((sig n).canRx && !(sig (n + 1)).canRx) := by
  simp only [trvInput, DataEdgeDetector.rxEdge, rxDataPrev_at, dataRxSynced_at]
  cases (sig n).canRx <;> cases (sig (n + 1)).canRx <;> rfl

/-- The received edge is the transmitted one, a delay later. -/
theorem edgeRxValid_echo (h : Echoes sig loop) (n : Nat) :
    (trvInput (stateAt (step g c) s sig (n + 1 + (loop + 2)))
        (sig (n + 1 + (loop + 2)))).edgeRxValid =
      ((sig n).txDataWbs && !(sig (n + 1)).txDataWbs) := by
  have hn : n + 1 + (loop + 2) = n + loop + 3 := by omega
  have hnext : n + loop + 1 = n + 1 + loop := by omega
  rw [hn, edgeRxValid_at, hnext, h, h]

/-- While the edge is on its way. -/
theorem measuring_at (he : Echoes sig loop) (h : ResEdge sig loop edge) (k : Nat)
    (hk : k < loop + 2) : Measuring (stateAt (step g c) s sig (edge + k + 1)).trv (k + 1) := by
  have hroom := h.room
  induction k with
  | zero =>
    obtain ⟨n, rfl⟩ : ∃ n, edge = n + 1 := ⟨edge - 1, by omega⟩
    refine measuring_start (h.enabled _ (Nat.le_refl _) (by omega)) ?_
    rw [edgeTxValid_at, h.recessive n (by omega) (by omega),
      h.dominant (n + 1) (Nat.le_refl _) (by omega)]
    rfl
  | succ k ih =>
    refine (ih (by omega)).wait (h.enabled (edge + (k + 1)) (by omega) (by omega)) ?_ ?_
    · rw [← Nat.add_assoc, edgeTxValid_at, h.dominant (edge + k) (by omega) (by omega)]
      rfl
    · obtain ⟨n, hn⟩ : ∃ n, edge + k + 1 = n + 1 + (loop + 2) := ⟨edge + k - (loop + 2), by omega⟩
      rw [← Nat.add_assoc, hn, edgeRxValid_echo he, h.recessive (n + 1) (by omega) (by omega)]
      simp

theorem noStart_at {n : Nat} (h : startsMeasurement sig n = false) :
    ((trvInput (stateAt (step g c) s sig (n + 1)) (sig (n + 1))).tranDelayMeas &&
      (trvInput (stateAt (step g c) s sig (n + 1)) (sig (n + 1))).edgeTxValid) = false := by
  rw [edgeTxValid_at]
  exact h

/-- From the second cycle after the received edge on, until another measurement starts. -/
theorem measured_at (he : Echoes sig loop) (h : ResEdge sig loop edge) (n : Nat)
    (hq : ∀ m, edge ≤ m → m ≤ edge + loop + 2 + n → startsMeasurement sig m = false) :
    Measured c (stateAt (step g c) s sig (edge + loop + 4 + n)).trv (loop + 2) := by
  induction n with
  | zero =>
    obtain ⟨e, rfl⟩ : ∃ e, edge = e + 1 := ⟨edge - 1, by have := h.room; omega⟩
    have hstop :
        Stopped (stateAt (step g c) s sig (e + 1 + (loop + 1) + 1 + 1)).trv (loop + 2) := by
      refine (measuring_at he h (loop + 1) (by omega)).stop
        (noStart_at (hq _ (by omega) (by omega))) ?_
      rw [show e + 1 + (loop + 1) + 1 = e + 1 + (loop + 2) by omega, edgeRxValid_echo he,
        h.recessive e (by omega) (by omega), h.dominant (e + 1) (by omega) (by omega)]
      simp
    exact hstop.load (noStart_at (hq _ (by omega) (by omega)))
  | succ n ih =>
    have hn : edge + loop + 4 + n = edge + loop + 3 + n + 1 := by omega
    have hkept := ih fun m hm hle => hq m hm (by omega)
    rw [hn] at hkept
    rw [← Nat.add_assoc, hn]
    exact hkept.kept (noStart_at (hq _ (by omega) (by omega)))

end Measured

/-- Whatever the block did before: two cycles after the edge into the reserved bit is received, and
until another measurement starts, the shadow registers hold the delay from the transmitted to the
received edge, which counts at most to 127, and the secondary sample point that follows from it. -/
theorem delay_measured (g : Generics) (c : Config) (s : State) (sig : Nat → Input)
    (loop edge : Nat) (he : Echoes sig loop) (h : ResEdge sig loop edge) (n : Nat)
    (hn : edge + loop + 4 ≤ n)
    (hq : ∀ m, edge ≤ m → m + 2 ≤ n → startsMeasurement sig m = false) :
    let q := (stateAt (step g c) s sig n).trv
    q.trvDelayShadowed.toNat = min (loop + 2) 127 ∧
      q.sspDelayShadowed.toNat = sspPosition c (min (loop + 2) 127) := by
  obtain ⟨k, rfl⟩ := Nat.exists_eq_add_of_le hn
  have hm := measured_at (g := g) (c := c) (s := s) he h k fun m hm hle => hq m hm (by omega)
  exact ⟨hm.trv, hm.ssp⟩

/-- A transmitter on a bus that returns its bits after three cycles: the reserved bit is sent in
cycle 10 and the ESI bit in cycle 30, and the bits of the data phase have four cycles. -/
def echoed (n : Nat) : Input where
  canRx := level (n - 1)
  txDataWbs := level n
  txTrigger := decide (30 ≤ n ∧ n % 4 = 2)
  rxTrigger := decide (n = 27 ∨ (30 ≤ n ∧ n % 4 = 1))
  tqEdge := true
  bitErrEnable := true
  tranDelayMeas := decide (8 ≤ n ∧ n < 16)
  btmcReset := decide (24 ≤ n ∧ n < 29)
  dbtMeasureStart := decide (29 ≤ n ∧ n < 34)
  genFirstSsp := decide (29 ≤ n ∧ n < 34)
  sspReset := decide (6 ≤ n ∧ n < 8)
  spControl := if n < 29 then .nominalSample else .secondarySample
where
  level (n : Nat) : Bool := decide (n < 10 ∨ (30 < n ∧ (n - 31) / 4 % 3 = 0))

theorem echoed_echoes : Echoes echoed 1 := fun _ => rfl

theorem echoed_resEdge : ResEdge echoed 1 10 where
  room := by decide
  recessive n h h' := by
    simp [echoed, echoed.level]
    omega
  dominant n h h' := by
    simp [echoed, echoed.level]
    omega
  enabled n h h' := by
    simp [echoed]
    omega

theorem echoed_noStart (m : Nat) (h : 10 ≤ m) : startsMeasurement echoed m = false := by
  simp [startsMeasurement, echoed, echoed.level]
  omega

/-- Offset of two cycles. -/
def echoedConfig : Config := ⟨true, 2, .measNOffset⟩

theorem delay_measured_echoed :
    (stateAt (step BusSampling.canConfig echoedConfig) reset echoed 30).trv.trvDelayShadowed.toNat =
      3 :=
  (delay_measured BusSampling.canConfig echoedConfig reset echoed 1 10 echoed_echoes
    echoed_resEdge 30 (by decide) fun m hm _ => echoed_noStart m hm).1

/-! ## The data phase of a frame -/

/-- The control signals of a transmitted CAN FD frame with bit rate switch: the cache is reset in
cycle `edl`, the bit time measurement in the last cycle `brs` of the BRS bit, and both start with
the TX trigger of the ESI bit in cycle `start`. The transceiver delay was measured before. -/
structure Frame (sig : Nat → Input) (bitTime : Nat) where
  edl : Nat
  brs : Nat
  start : Nat
  finish : Nat
  edl_lt : edl < brs
  brs_lt : brs < start
  cacheReset : (sig edl).sspReset = true
  measureReset : (sig brs).btmcReset = true
  nominal : ∀ n, edl ≤ n → n < brs → (sig n).spControl ≠ .secondarySample ∧
    (sig n).genFirstSsp = false
  apart : ∀ n, n + 1 = brs → (sig n).txTrigger = false
  waiting : ∀ n, brs ≤ n → n < start → (sig n).txTrigger = false
  sampled : ∃ n, edl < n ∧ n < start ∧ (sig n).rxTrigger = true
  measured : ∀ n, brs ≤ n + 1 → n < finish → (sig n).tranDelayMeas = false
  selected : ∀ n, start ≤ n → n < finish → (sig n).spControl = .secondarySample ∧
    (sig n).btmcReset = false ∧ (sig n).sspReset = false
  triggers : ∀ k, start + k < finish → ((sig (start + k)).txTrigger = true ↔ bitTime ∣ k)
  started : (sig start).genFirstSsp = true ∧ (sig start).dbtMeasureStart = true
  once : ∀ k, 0 < k → start + k < finish → bitTime ∣ k →
    (sig (start + k)).genFirstSsp = false ∧ (sig (start + k)).dbtMeasureStart = false

namespace Frame

variable {g : Generics} {c : Config} {s : State} {sig : Nat → Input} {T d : Nat} (f : Frame sig T)

theorem cleared_at (n : Nat) (hn : f.edl < n) (hle : n ≤ f.brs) :
    BusSampling.Cleared (stateAt (step g c) s sig n).sampling := by
  induction n, hn using Nat.le_induction with
  | base =>
    obtain ⟨hs, hg⟩ := f.nominal f.edl (Nat.le_refl _) f.edl_lt
    exact BusSampling.cleared_reset f.cacheReset hs hg
  | succ n hn ih =>
    obtain ⟨hs, hg⟩ := f.nominal n (by omega) (by omega)
    refine BusSampling.cleared_step (ih (by omega)) ?_ ?_
    · simp [samplingInput, hg]
    · simp [BusSampling.txTriggerSsp, samplingInput, hs]

theorem armed_at (n : Nat) (hn : f.brs < n) (hle : n ≤ f.start) :
    BusSampling.Armed (stateAt (step g c) s sig n).sampling := by
  induction n, hn using Nat.le_induction with
  | base =>
    have hlt := f.edl_lt
    have hq : (stateAt (step g c) s sig f.brs).sampling.txTriggerQ = false := by
      obtain ⟨m, hm⟩ : ∃ m, f.brs = m + 1 := ⟨f.brs - 1, by omega⟩
      rw [hm]
      exact f.apart m hm.symm
    exact BusSampling.armed_brs (f.cleared_at f.brs hlt (Nat.le_refl _)) hq f.measureReset
      (f.waiting f.brs (Nat.le_refl _) f.brs_lt)
  | succ n hn ih => exact BusSampling.armed_step (ih (by omega)) (f.waiting n (by omega) (by omega))

/-- No secondary sample point before the data phase. -/
theorem sampleSec_before (n : Nat) (hn : f.edl < n) (hle : n ≤ f.start) :
    sampleSec g (stateAt (step g c) s sig n) (sig n) = false := by
  have hena : (stateAt (step g c) s sig n).sampling.ssp.sspcEnaQ = false := by
    rcases Nat.lt_or_ge f.brs n with h | h
    · exact (f.armed_at n h hle).ena
    · exact (f.cleared_at n hn h).ena
  simp [sampleSec, BusSampling.sampleSec, BusSampling.SspGenerator.sampleSec, hena]

/-- The inputs of secondary sampling over the data phase. -/
def phaseInputs (g : Generics) (c : Config) (s : State) : List BusSampling.Input :=
  (List.range (f.finish - f.start)).map fun k =>
    samplingInput (stateAt (step g c) s sig (f.start + k)) (sig (f.start + k))

theorem phaseInputs_get (k : Nat) (hk : f.start + k < f.finish) :
    (f.phaseInputs g c s)[k]? =
      some (samplingInput (stateAt (step g c) s sig (f.start + k)) (sig (f.start + k))) := by
  rw [phaseInputs, List.getElem?_map, List.getElem?_range (by omega)]
  rfl

theorem of_phaseInputs_get {k : Nat} {i : BusSampling.Input}
    (h : (f.phaseInputs g c s)[k]? = some i) : f.start + k < f.finish ∧
      i = samplingInput (stateAt (step g c) s sig (f.start + k)) (sig (f.start + k)) := by
  have hk : f.start + k < f.finish := by
    by_contra hge
    rw [phaseInputs, List.getElem?_eq_none (by simp; omega)] at h
    cases h
  rw [f.phaseInputs_get k hk] at h
  exact ⟨hk, (Option.some.inj h).symm⟩

theorem sampling_phase (k : Nat) (hk : f.start + k ≤ f.finish) :
    (stateAt (step g c) s sig (f.start + k)).sampling =
      run (BusSampling.step g) (stateAt (step g c) s sig f.start).sampling
        ((f.phaseInputs g c s).take k) := by
  rw [sampling_at, stateAt_add, ← sampling_at, phaseInputs, ← List.map_take, List.take_range,
    Nat.min_eq_left (by omega)]

/-- The delay of the data phase. -/
def sspDelay (g : Generics) (c : Config) (s : State) : BitVec 8 :=
  (stateAt (step g c) s sig f.start).trv.sspDelayShadowed

theorem progress_at (n : Nat) (hn : f.brs ≤ n) (hle : n ≤ f.finish) :
    (stateAt (step g c) s sig n).trv.trvMeasProgressQ = false := by
  have hlt := f.edl_lt
  obtain ⟨m, rfl⟩ : ∃ m, n = m + 1 := ⟨n - 1, by omega⟩
  simp [stateAt, step, TrvDelayMeasurement.step, trvInput, f.measured m hn (by omega)]

theorem sspDelayShadowed_at (k : Nat) (hk : f.start + k ≤ f.finish) :
    (stateAt (step g c) s sig (f.start + k)).trv.sspDelayShadowed = f.sspDelay g c s := by
  induction k with
  | zero => rfl
  | succ k ih =>
    have hbrs := f.brs_lt
    have hended : (stateAt (step g c) s sig (f.start + k)).trv.trvMeasProgressDel = false := by
      obtain ⟨m, hm⟩ : ∃ m, f.start + k = m + 1 := ⟨f.start + k - 1, by omega⟩
      rw [hm]
      exact f.progress_at m (by omega) (by omega)
    have hce : (stateAt (step g c) s sig (f.start + k)).trv.sspShadowCe = false := by
      rw [sspShadowCe, hended, Bool.false_and]
    rw [← ih (by omega)]
    exact if_neg (by rw [Bool.not_eq_true]; exact hce)

theorem dataPhase : BusSampling.DataPhase (f.sspDelay g c s) T (f.phaseInputs g c s) where
  selected i hi := by
    obtain ⟨k, hk⟩ := List.getElem?_of_mem hi
    obtain ⟨hlt, rfl⟩ := f.of_phaseInputs_get hk
    obtain ⟨hs, hb, hr⟩ := f.selected (f.start + k) (by omega) hlt
    exact ⟨hs, f.sspDelayShadowed_at k (by omega), hb, hr⟩
  triggers k i hi := by
    obtain ⟨hlt, rfl⟩ := f.of_phaseInputs_get hi
    exact f.triggers k hlt
  started i hi := by
    obtain ⟨-, rfl⟩ := f.of_phaseInputs_get hi
    exact f.started
  once k i hi hk hT := by
    obtain ⟨hlt, rfl⟩ := f.of_phaseInputs_get hi
    exact f.once k hk hlt hT

/-- What the counters and the cache can hold. -/
structure Fits (g : Generics) (d T : Nat) : Prop where
  bitTime : 0 < T
  delay : 2 ≤ d
  delayWidth : d < 2 ^ g.sspCtrsWidth
  timeWidth : T < 2 ^ g.sspCtrsWidth
  depth : 0 < g.txCacheDepth
  cache : d ≤ g.txCacheDepth * T

section Phase

variable (hd : (f.sspDelay g c s).toNat = d) (hf : Fits g d T)

include hd hf

theorem phase_at (k : Nat) (hk : f.start + k < f.finish) : ∃ sent written taken,
    BusSampling.Phase g d T (f.phaseInputs g c s) (k + 1) sent written taken
      (stateAt (step g c) s sig (f.start + (k + 1))).sampling := by
  rw [f.sampling_phase (k + 1) (by omega)]
  have hlen : k < (f.phaseInputs g c s).length := by
    rw [phaseInputs, List.length_map, List.length_range]
    omega
  subst hd
  exact BusSampling.phase_run f.dataPhase hf.bitTime hf.delay hf.depth hf.delayWidth
    hf.timeWidth (f.armed_at f.start f.brs_lt (Nat.le_refl _)) k hlen

/-- The `m`-th secondary sample point is a delay after the `m`-th bit was sent. -/
theorem sampleSec_at (k : Nat) (hk : f.start + k < f.finish) :
    sampleSec g (stateAt (step g c) s sig (f.start + k)) (sig (f.start + k)) = true ↔
      ∃ m, k = d + m * T := by
  have h2 := hf.delay
  cases k with
  | zero =>
    have hsec := f.sampleSec_before (g := g) (c := c) (s := s) f.start
      (Nat.lt_trans f.edl_lt f.brs_lt) (Nat.le_refl _)
    refine ⟨fun h => absurd (hsec.symm.trans h) (by decide), ?_⟩
    rintro ⟨m, hm⟩
    omega
  | succ k =>
    obtain ⟨sent, written, taken, h⟩ := f.phase_at hd hf k (by omega)
    have hdel : (stateAt (step g c) s sig (f.start + (k + 1))).trv.sspDelayShadowed.toNat = d := by
      rw [f.sspDelayShadowed_at (k + 1) (by omega), hd]
    exact (h.sampleSec_iff hdel h2 hf.delayWidth).trans h.due_iff.symm

/-- It finds that bit at the output of the cache. -/
theorem dataTxDelayed_at (m : Nat) (hm : f.start + (d + m * T) < f.finish) :
    BusSampling.dataTxDelayed (stateAt (step g c) s sig (f.start + (d + m * T))).sampling =
      (sig (f.start + (m * T + 1))).txDataWbs := by
  have h2 := hf.delay
  obtain ⟨k, hk⟩ : ∃ k, d + m * T = k + 1 := ⟨d + m * T - 1, by omega⟩
  obtain ⟨sent, written, taken, h⟩ := f.phase_at hd hf k (by omega)
  have hdue := h.due_iff.mp ⟨m, hk.symm⟩
  obtain rfl : m = taken := Nat.eq_of_mul_eq_mul_right hf.bitTime (by omega)
  have hwritten := h.due_written h2 hdue
  have hroom : written ≤ m + g.txCacheDepth := by
    obtain ⟨j, hj, h1, -⟩ := h.trigger
    have hlt : sent * T < (g.txCacheDepth + m + 1) * T := by
      have hcache := hf.cache
      rw [Nat.add_mul, Nat.add_mul, Nat.one_mul]
      omega
    have hsent := Nat.lt_of_mul_lt_mul_right hlt
    have hsum := h.sent
    omega
  rw [hk, BusSampling.dataTxDelayed, BusSampling.cache, if_pos h.running,
    BusSampling.TxDataCache.dataOut, h.read]
  exact h.mem m _ hwritten hroom (f.phaseInputs_get (m * T + 1) (by omega))

end Phase

/-! ## Bit errors -/

/-- The bus differs from the `m`-th bit of the data phase in its secondary sample point, two cycles
before it is at the output of the synchroniser, and bit errors are enabled at the point: a
difference that falls in the CRC delimiter, where protocol control disables them, is dropped. -/
def Differs (d : Nat) (m : Nat) : Prop :=
  (sig (f.start + (d + m * T))).bitErrEnable = true ∧
    (sig (f.start + (d + m * T) - 2)).canRx ≠ (sig (f.start + (m * T + 1))).txDataWbs

theorem bitErrSspCondition_at (hd : (f.sspDelay g c s).toNat = d) (hf : Fits g d T) (k : Nat)
    (hk : f.start + k < f.finish) :
    BitErrDetector.bitErrSspCondition
        (bedInput g c (stateAt (step g c) s sig (f.start + k)) (sig (f.start + k))) = true ↔
      ∃ m, k = d + m * T ∧ f.Differs d m := by
  have h2 := hf.delay
  have hsec := f.sampleSec_at hd hf k hk
  simp only [BitErrDetector.bitErrSspCondition, bedInput, Bool.and_eq_true, bne_iff_ne]
  rw [hsec]
  constructor
  · rintro ⟨⟨hne, m, rfl⟩, hena⟩
    refine ⟨m, rfl, hena, ?_⟩
    obtain ⟨n, hn⟩ : ∃ n, f.start + (d + m * T) = n + 2 :=
      ⟨f.start + (d + m * T) - 2, by omega⟩
    rw [f.dataTxDelayed_at hd hf m hk, hn, dataRxSynced_at] at hne
    rw [hn]
    exact hne.symm
  · rintro ⟨m, rfl, hena, hne⟩
    refine ⟨⟨?_, m, rfl⟩, hena⟩
    obtain ⟨n, hn⟩ : ∃ n, f.start + (d + m * T) = n + 2 :=
      ⟨f.start + (d + m * T) - 2, by omega⟩
    rw [f.dataTxDelayed_at hd hf m hk, hn, dataRxSynced_at]
    rw [hn] at hne
    exact hne.symm

/-- A sample point before the data phase clears what was captured. -/
theorem notCaptured_start :
    (stateAt (step g c) s sig f.start).bed.bitErrSspCaptQ = false := by
  obtain ⟨r, hedl, hr, ht⟩ := f.sampled
  have hclear : ∀ n, r < n → n ≤ f.start →
      (stateAt (step g c) s sig n).bed.bitErrSspCaptQ = false := by
    intro n hn
    induction n, hn using Nat.le_induction with
    | base =>
      intro _
      simp [stateAt, step, BitErrDetector.step, bedInput, ht]
    | succ n hn ih =>
      intro hle
      have hsec := f.sampleSec_before (g := g) (c := c) (s := s) n (by omega) (by omega)
      simp [stateAt, step, BitErrDetector.step, BitErrDetector.bitErrSspCondition, bedInput, hsec,
        ih (by omega)]
  exact hclear f.start hr (Nat.le_refl _)

/-- A difference that no sample point has reported yet. -/
def Pending (d : Nat) (n : Nat) : Prop :=
  ∃ m, f.start + (d + m * T) < n ∧ f.Differs d m ∧
    ∀ j, f.start + (d + m * T) ≤ j → j < n → (sig j).rxTrigger = false

theorem captured_at (hd : (f.sspDelay g c s).toNat = d) (hf : Fits g d T) (k : Nat)
    (hk : f.start + k ≤ f.finish) :
    (stateAt (step g c) s sig (f.start + k)).bed.bitErrSspCaptQ = true ↔
      f.Pending d (f.start + k) := by
  induction k with
  | zero =>
    have hn := f.notCaptured_start (g := g) (c := c) (s := s)
    refine ⟨fun h => absurd (hn.symm.trans h) (by decide), ?_⟩
    rintro ⟨m, hm, -⟩
    omega
  | succ k ih =>
    have hcond := f.bitErrSspCondition_at hd hf k (by omega)
    have hcapt : (stateAt (step g c) s sig (f.start + (k + 1))).bed.bitErrSspCaptQ = true ↔
        (sig (f.start + k)).rxTrigger = false ∧
          ((∃ m, k = d + m * T ∧ f.Differs d m) ∨ f.Pending d (f.start + k)) := by
      rw [← hcond, ← ih (by omega)]
      show (!(sig (f.start + k)).rxTrigger && (_ || _)) = true ↔ _
      rw [Bool.and_eq_true, Bool.or_eq_true, Bool.not_eq_true']
      exact Iff.rfl
    rw [hcapt]
    constructor
    · rintro ⟨ht, ⟨m, rfl, hdiff⟩ | ⟨m, hm, hdiff, hquiet⟩⟩
      · refine ⟨m, by omega, hdiff, fun j hj hlt => ?_⟩
        obtain rfl : j = f.start + (d + m * T) := by omega
        exact ht
      · refine ⟨m, by omega, hdiff, fun j hj hlt => ?_⟩
        rcases Nat.lt_or_ge j (f.start + k) with h | h
        · exact hquiet j hj h
        · obtain rfl : j = f.start + k := by omega
          exact ht
    · rintro ⟨m, hm, hdiff, hquiet⟩
      refine ⟨hquiet _ (by omega) (by omega), ?_⟩
      rcases Nat.lt_or_ge (d + m * T) k with h | h
      · exact .inr ⟨m, by omega, hdiff, fun j hj hlt => hquiet j hj (by omega)⟩
      · exact .inl ⟨m, by omega, hdiff⟩

/-- The bit error register over the data phase. -/
theorem bitErrQ_at (hena : c.mrSettingsEna = true) (hd : (f.sspDelay g c s).toNat = d)
    (hf : Fits g d T) (k : Nat) (hk : f.start + k < f.finish) :
    (stateAt (step g c) s sig (f.start + k + 1)).bed.bitErrQ = true ↔
      (sig (f.start + k)).rxTrigger = true ∧
        ((∃ m, k = d + m * T ∧ f.Differs d m) ∨ f.Pending d (f.start + k)) := by
  obtain ⟨hs, -⟩ := f.selected (f.start + k) (by omega) hk
  rw [← f.bitErrSspCondition_at hd hf k hk, ← f.captured_at hd hf k (by omega)]
  simp [stateAt, step, BitErrDetector.step, BitErrDetector.bitErrSspValid,
    BitErrDetector.bitErrNormValid, bedInput, hena, hs, or_comm]

end Frame

/-- In the data phase a bit error is reported exactly in the first sample point from a secondary
sample point on in which bit errors were enabled and the bus differed from the bit that was sent a
delay before. -/
theorem secondary_bit_errors (g : Generics) (c : Config) (hena : c.mrSettingsEna = true) (s : State)
    (sig : Nat → Input) (bitTime : Nat) (f : Frame sig bitTime)
    (hf : Frame.Fits g (f.sspDelay g c s).toNat bitTime) (n : Nat) (hn : f.start ≤ n)
    (hlt : n < f.finish) :
    (stateAt (step g c) s sig (n + 1)).bed.bitErrQ = true ↔
      (sig n).rxTrigger = true ∧ ∃ m,
        let ssp := f.start + ((f.sspDelay g c s).toNat + m * bitTime)
        ssp ≤ n ∧ f.Differs (f.sspDelay g c s).toNat m ∧
          ∀ j, ssp ≤ j → j < n → (sig j).rxTrigger = false := by
  obtain ⟨k, rfl⟩ := Nat.exists_eq_add_of_le hn
  rw [f.bitErrQ_at hena rfl hf k hlt]
  refine and_congr_right fun _ => ⟨?_, ?_⟩
  · rintro (⟨m, rfl, hdiff⟩ | ⟨m, hm, hdiff, hquiet⟩)
    · exact ⟨m, Nat.le_refl _, hdiff, fun j hj hlt => by omega⟩
    · exact ⟨m, by omega, hdiff, hquiet⟩
  · rintro ⟨m, hm, hdiff, hquiet⟩
    rcases Nat.lt_or_ge ((f.sspDelay g c s).toNat + m * bitTime) k with h | h
    · exact .inr ⟨m, by omega, hdiff, hquiet⟩
    · exact .inl ⟨m, by omega, hdiff⟩

def echoedFrame : Frame echoed 4 where
  edl := 7
  brs := 28
  start := 30
  finish := 70
  edl_lt := by decide
  brs_lt := by decide
  cacheReset := by decide
  measureReset := by decide
  nominal n h h' := by
    have hlt : n < 29 := by omega
    simp [echoed, hlt]
  apart n h := by
    simp [echoed]
    omega
  waiting n h h' := by
    simp [echoed]
    omega
  sampled := ⟨27, by decide⟩
  measured n h h' := by
    simp [echoed]
    omega
  selected n h h' := by
    simp [echoed]
    omega
  triggers k h := by
    simp [echoed]
    omega
  started := by decide
  once k h h' h'' := by
    simp [echoed]
    omega

/-- An offset longer than the bit: the first secondary sample point finds the second bit, and the
error is reported in the next sample point, in cycle 41. -/
theorem secondary_bit_errors_late :
    (stateAt (step BusSampling.canConfig ⟨true, 5, .measNOffset⟩) reset echoed 42).bed.bitErrQ =
      true := by
  have hd :
      (echoedFrame.sspDelay BusSampling.canConfig ⟨true, 5, .measNOffset⟩ reset).toNat = 8 := by
    decide +kernel
  have hf : Frame.Fits BusSampling.canConfig
      (echoedFrame.sspDelay BusSampling.canConfig ⟨true, 5, .measNOffset⟩ reset).toNat 4 := by
    rw [hd]
    exact ⟨by decide, by decide, by decide, by decide, by decide, by decide⟩
  refine (secondary_bit_errors BusSampling.canConfig ⟨true, 5, .measNOffset⟩ rfl reset echoed 4
    echoedFrame hf 41 (by decide) (by decide)).mpr ⟨by decide, 0, ?_⟩
  rw [hd]
  refine ⟨by decide, ⟨by decide, by decide⟩, fun j hj hlt => ?_⟩
  have hj : 38 ≤ j := hj
  simp only [echoed, decide_eq_false_iff_not]
  omega

/-! ## Compensation -/

/-- The bits of the data phase are stable from the cycle after their TX trigger to the next one. -/
def Stable {sig : Nat → Input} {bitTime : Nat} (f : Frame sig bitTime) : Prop :=
  ∀ m j, 1 ≤ j → j ≤ bitTime → f.start + (m * bitTime + j) < f.finish →
    (sig (f.start + (m * bitTime + j))).txDataWbs = (sig (f.start + (m * bitTime + 1))).txDataWbs

/-- With the delay of the bus and an offset within the bit, nothing differs. -/
theorem not_differs {sig : Nat → Input} {bitTime loop offset : Nat} {f : Frame sig bitTime}
    (he : Echoes sig loop) (hs : Stable f) (h1 : 1 ≤ offset) (hle : offset ≤ bitTime) (m : Nat)
    (hm : f.start + (loop + 2 + offset + m * bitTime) < f.finish) :
    ¬ f.Differs (loop + 2 + offset) m := by
  rintro ⟨-, hne⟩
  apply hne
  have hat : f.start + (loop + 2 + offset + m * bitTime) - 2 =
      f.start + (m * bitTime + offset) + loop := by omega
  rw [hat, he]
  exact hs m offset h1 hle (by omega)

/-- A bus that returns the transmitted bits after a constant delay causes no bit error in the data
phase: the delay is measured in the reserved bit, and every secondary sample point compares a bit
with itself, if the offset is at least one cycle and at most a bit time, and the delay within what
the counters and the cache can hold. -/
theorem delay_compensation (g : Generics) (hw : 8 ≤ g.sspCtrsWidth) (hD : 0 < g.txCacheDepth)
    (c : Config) (hena : c.mrSettingsEna = true) (hsrc : c.mrSspCfgSspSrc = .measNOffset)
    (s : State) (sig : Nat → Input) (loop edge bitTime : Nat) (he : Echoes sig loop)
    (hres : ResEdge sig loop edge) (f : Frame sig bitTime) (hstart : edge + loop + 4 ≤ f.start)
    (hq : ∀ m, edge ≤ m → m + 2 ≤ f.start → startsMeasurement sig m = false) (hs : Stable f)
    (hTw : bitTime < 2 ^ g.sspCtrsWidth) (h1 : 1 ≤ c.mrSspCfgSspOffset.toNat)
    (hle : c.mrSspCfgSspOffset.toNat ≤ bitTime) (hloop : loop + 2 ≤ 127)
    (hpos : loop + 2 + c.mrSspCfgSspOffset.toNat ≤ 255)
    (hcache : loop + 2 + c.mrSspCfgSspOffset.toNat ≤ g.txCacheDepth * bitTime) (n : Nat)
    (hn : f.start ≤ n) (hlt : n < f.finish) :
    (stateAt (step g c) s sig (n + 1)).bed.bitErrQ = false := by
  have hd : (f.sspDelay g c s).toNat = loop + 2 + c.mrSspCfgSspOffset.toNat := by
    obtain ⟨k, hk⟩ := Nat.exists_eq_add_of_le hstart
    have hm := measured_at (g := g) (c := c) (s := s) he hres k fun m hm hle => hq m hm (by omega)
    rw [Frame.sspDelay, hk, hm.ssp, sspPosition, hsrc]
    show min _ _ = _
    omega
  have hpow : 2 ^ 8 ≤ 2 ^ g.sspCtrsWidth := Nat.pow_le_pow_right (by decide) hw
  have hf : Frame.Fits g (loop + 2 + c.mrSspCfgSspOffset.toNat) bitTime :=
    ⟨by omega, by omega, by omega, hTw, hD, hcache⟩
  obtain ⟨k, rfl⟩ := Nat.exists_eq_add_of_le hn
  rw [← Bool.not_eq_true, f.bitErrQ_at hena hd hf k hlt]
  rintro ⟨-, ⟨m, rfl, hdiff⟩ | ⟨m, hm, hdiff, -⟩⟩
  · exact not_differs he hs h1 hle m hlt hdiff
  · exact not_differs he hs h1 hle m (by omega) hdiff

theorem echoed_stable : Stable echoedFrame := by
  intro m j h1 hj _
  show (echoed (30 + _)).txDataWbs = (echoed (30 + _)).txDataWbs
  have hbit : (30 + (m * 4 + j) - 31) / 4 = m := by omega
  have hfirst : (30 + (m * 4 + 1) - 31) / 4 = m := by omega
  simp only [echoed, echoed.level, hbit, hfirst]
  exact decide_eq_decide.mpr (by omega)

theorem delay_compensation_echoed :
    (stateAt (step BusSampling.canConfig echoedConfig) reset echoed 62).bed.bitErrQ = false :=
  delay_compensation BusSampling.canConfig (by decide) (by decide) echoedConfig rfl rfl reset echoed
    1 10 4 echoed_echoes echoed_resEdge echoedFrame (by decide)
    (fun m hm _ => echoed_noStart m hm) echoed_stable (by decide) (by decide) (by decide)
    (by decide) (by decide) (by decide) 61 (by decide) (by decide)

end BusSampler
