import CtuCanFd.BusSampling.Model
import CtuCanFd.Lib.RingSlots
import CtuCanFd.Lib.SyncMachine

/-!
# Secondary sample points and transmitted bits

Cycles are counted from the TX trigger of the ESI bit, and the bit time is that of the
data phase. The bit time counter is still running when the SSP counter starts to
compare with it; a first delay of two cycles is enough for it to stay ahead. The cache
is written one cycle after the TX trigger and read with the secondary sample point.
-/

open SyncMachine
open ProtocolControl (SpControl)

namespace BusSampling

/-! ## Up to the ESI bit -/

/-- Control signals from a cycle of the EDL bit to the TX trigger of the ESI bit: the
cache is reset in the EDL bit, the measurement still in the last cycle of the BRS bit.
Before that cycle secondary sampling is not selected. The TX trigger of the BRS bit is
not in the last cycle before it. -/
structure Prepared (edl : Input) (control : List Input) (brs : Input) (esi : List Input) :
    Prop where
  cacheReset : edl.sspReset = true
  measureReset : brs.btmcReset = true
  nominal : ∀ i ∈ edl :: control, i.spControl ≠ .secondarySample ∧ i.genFirstSsp = false ∧
    i.dbtMeasureStart = false
  apart : ((edl :: control).getLast (by simp)).txTrigger = false
  waiting : ∀ i ∈ brs :: esi, i.txTrigger = false

/-- No secondary sample point is generated and the cache is empty. -/
structure Cleared (s : State) : Prop where
  ena : s.ssp.sspcEnaQ = false
  write : (cache s).writePointerQ = 0
  read : (cache s).readPointerQ = 0

/-- Cleared, and the measurement can start. -/
structure Armed (s : State) : Prop extends Cleared s where
  running : s.ssp.btmcMeasRunningQ = false
  btmc : s.ssp.btmcQ = 0
  sspc : s.ssp.sspcQ = 1
  trigger : s.txTriggerQ = false

section Preparation

variable {g : Generics} {s : State} {i : Input}

theorem cleared_reset (hr : i.sspReset = true) (hs : i.spControl ≠ .secondarySample)
    (hg : i.genFirstSsp = false) : Cleared (step g s i) where
  ena := by simp [step, SspGenerator.step, hg, hs]
  write := by simp [cache, step, hr, TxDataCache.reset]
  read := by simp [cache, step, hr, TxDataCache.reset]

/-- Nothing is written and nothing is read. -/
theorem cleared_step (h : Cleared s) (hf : (i.genFirstSsp && i.txTrigger) = false)
    (hw : txTriggerSsp s i = false) : Cleared (step g s i) := by
  have hsec : sampleSec g s i = false := by simp [sampleSec, SspGenerator.sampleSec, h.ena]
  have hcache : cache (step g s i) = cache s ∨ cache (step g s i) = .reset := by
    cases hr : i.sspReset
    · left
      cases hq : s.shiftRegsResQ <;>
        simp [cache, step, hr, hq, hw, hsec, TxDataCache.step]
    · right
      simp [cache, step, hr]
  refine ⟨?_, ?_, ?_⟩
  · simp [step, SspGenerator.step, hf, h.ena]
  · rcases hcache with hc | hc <;> rw [hc]
    · exact h.write
    · rfl
  · rcases hcache with hc | hc <;> rw [hc]
    · exact h.read
    · rfl

theorem txTriggerQ_run (s : State) (is : List Input) (h : is ≠ []) :
    (run (step g) s is).txTriggerQ = (is.getLast h).txTrigger := by
  rcases List.eq_nil_or_concat' is with rfl | ⟨front, j, rfl⟩
  · exact absurd rfl h
  · simp [run_append, run, step]

/-- The last cycle of the BRS bit. -/
theorem armed_brs (h : Cleared s) (hq : s.txTriggerQ = false) (hr : i.btmcReset = true)
    (ht : i.txTrigger = false) : Armed (step g s i) where
  toCleared := cleared_step h (by simp [ht]) (by simp [txTriggerSsp, hq])
  running := by simp [step, SspGenerator.step, hr]
  btmc := by simp [step, SspGenerator.step, hr]
  sspc := by simp [step, SspGenerator.step, hr]
  trigger := ht

theorem armed_step (h : Armed s) (ht : i.txTrigger = false) : Armed (step g s i) where
  toCleared := cleared_step h.toCleared (by simp [ht]) (by simp [txTriggerSsp, h.trigger])
  running := by simp [step, SspGenerator.step, ht, h.running]
  btmc := by simp [step, SspGenerator.step, h.running, h.btmc]
  sspc := by simp [step, SspGenerator.step, h.ena, h.sspc]
  trigger := ht

/-- Whatever the block did before, it is ready for the TX trigger of the ESI bit. -/
theorem prepared_armed {edl brs : Input} {control esi : List Input}
    (h : Prepared edl control brs esi) (s : State) :
    Armed (run (step g) s (edl :: control ++ brs :: esi)) := by
  obtain ⟨hnominal, hgen, -⟩ := h.nominal edl (by simp)
  have hctl : Cleared (run (step g) s (edl :: control)) := by
    refine run_invariant (step g) (fun _ i => i ∈ control) Cleared ?_
      (cleared_reset h.cacheReset hnominal hgen) control ?_
    · intro s i hs hi
      obtain ⟨hn, hf, -⟩ := h.nominal i (List.mem_cons_of_mem _ hi)
      exact cleared_step hs (by simp [hf]) (by simp [txTriggerSsp, hn])
    · exact admits_of_forall (fun i hi _ => hi) _
  have hq := txTriggerQ_run (g := g) s (edl :: control) (by simp)
  rw [run_append]
  refine run_invariant (step g) (fun _ i => i.txTrigger = false) Armed
    (fun _ _ hs ht => armed_step hs ht)
    (armed_brs hctl (hq.trans h.apart) h.measureReset (h.waiting brs (by simp))) esi ?_
  exact admits_of_forall (fun i hi _ => h.waiting i (List.mem_cons_of_mem _ hi)) _

end Preparation

/-! ## The data phase -/

/-- The data phase from the TX trigger of the ESI bit on: secondary sampling is selected,
the TX triggers are `bitTime` cycles apart, and protocol control has left the ESI bit when
the second one comes. -/
structure DataPhase (sspDelay : BitVec 8) (bitTime : Nat) (is : List Input) : Prop where
  selected : ∀ i ∈ is, i.spControl = .secondarySample ∧ i.sspDelay = sspDelay ∧
    i.btmcReset = false ∧ i.sspReset = false
  triggers : ∀ c i, is[c]? = some i → (i.txTrigger = true ↔ bitTime ∣ c)
  started : ∀ i, is[0]? = some i → i.genFirstSsp = true ∧ i.dbtMeasureStart = true
  once : ∀ c i, is[c]? = some i → 0 < c → bitTime ∣ c →
    i.genFirstSsp = false ∧ i.dbtMeasureStart = false

/-- In cycle `c` of the data phase: `taken` secondary sample points and `sent` TX triggers
have passed, and `written` bits are in the cache. -/
structure Phase (g : Generics) (d T : Nat) (is : List Input) (c sent written taken : Nat)
    (s : State) : Prop where
  ena : s.ssp.sspcEnaQ = true
  -- the SSP counter counts to the delay, and then from one to the bit time
  point : (s.ssp.firstSspQ = true ∧ taken = 0 ∧ c ≤ d ∧ s.ssp.sspcQ = c) ∨
    (s.ssp.firstSspQ = false ∧ 1 ≤ taken ∧ c + T = d + taken * T + s.ssp.sspcQ ∧
      1 ≤ s.ssp.sspcQ ∧ s.ssp.sspcQ ≤ T)
  measure : (s.ssp.btmcMeasRunningQ = true ∧ c ≤ T ∧ s.ssp.btmcQ + 1 = c) ∨
    (s.ssp.btmcMeasRunningQ = false ∧ T < c ∧ s.ssp.btmcQ = T)
  trigger : ∃ j, c + T = sent * T + j ∧ 1 ≤ j ∧ j ≤ T ∧ s.txTriggerQ = decide (j = 1)
  count : (is.take c).countP (·.txTrigger) = sent
  sent : written + s.txTriggerQ.toNat = sent
  running : s.shiftRegsResQ = true
  write : s.cacheQ.writePointerQ = written % g.txCacheDepth
  read : s.cacheQ.readPointerQ = taken % g.txCacheDepth
  mem : ∀ m i, m < written → written ≤ m + g.txCacheDepth → is[m * T + 1]? = some i →
    s.cacheQ.txCacheMem (m % g.txCacheDepth) = i.txDataWbs

section Cycles

variable {g : Generics} {sspDelay : BitVec 8} {T : Nat} {is : List Input} {s : State} {i : Input}
  {c sent written taken : Nat}

theorem countP_take_succ {is : List Input} {c : Nat} {i : Input} (hi : is[c]? = some i) :
    (is.take (c + 1)).countP (·.txTrigger) =
      (is.take c).countP (·.txTrigger) + i.txTrigger.toNat := by
  rw [List.take_add_one, hi, List.countP_append]
  cases ht : i.txTrigger <;> simp [ht]

/-- `j` cycles after the last TX trigger. -/
theorem dvd_cycle {j : Nat} (hj : c + T = sent * T + j) (h1 : 1 ≤ j) (hT : j ≤ T) :
    T ∣ c ↔ j = T := by
  have hdvd : T ∣ c ↔ T ∣ j := by
    rw [← Nat.dvd_add_left (Nat.dvd_refl T), hj, Nat.dvd_add_right (Nat.dvd_mul_left T sent)]
  rw [hdvd]
  constructor
  · intro hd
    exact Nat.le_antisymm hT (Nat.le_of_dvd h1 hd)
  · rintro rfl
    exact Nat.dvd_refl _

/-- The cycle of the TX trigger. -/
theorem phase_start (h : DataPhase sspDelay T is) (hT : 0 < T) (hd : 2 ≤ sspDelay.toNat)
    (hs : Armed s) (hi : is[0]? = some i) :
    Phase g sspDelay.toNat T is 1 1 0 0 (step g s i) := by
  obtain ⟨hsp, -, hbr, hsr⟩ := h.selected i (List.mem_of_getElem? hi)
  have ht : i.txTrigger = true := (h.triggers 0 i hi).mpr (Nat.dvd_zero T)
  obtain ⟨hg, hm⟩ := h.started i hi
  have hsec : sampleSec g s i = false := by simp [sampleSec, SspGenerator.sampleSec, hs.ena]
  have hw : txTriggerSsp s i = false := by simp [txTriggerSsp, hs.trigger]
  have hcache : (step g s i).cacheQ = cache s := by
    cases hq : s.shiftRegsResQ <;> simp [cache, step, hq, hw, hsec, TxDataCache.step]
  exact {
    ena := by simp [step, SspGenerator.step, hg, ht]
    point := .inl ⟨by simp [step, SspGenerator.step, hg, ht], rfl, by omega,
      by simp [step, SspGenerator.step, hs.ena, hs.sspc]⟩
    measure := .inl ⟨by simp [step, SspGenerator.step, hbr, hm, ht], hT,
      by simp [step, SspGenerator.step, hs.running, hs.btmc]⟩
    trigger := ⟨1, by omega, Nat.le_refl 1, hT, ht⟩
    count := by rw [countP_take_succ hi, ht]; rfl
    sent := by simp [step, ht]
    running := by simp [step, hsr]
    write := by rw [hcache, hs.write, Nat.zero_mod]
    read := by rw [hcache, hs.read, Nat.zero_mod]
    mem := fun m j hm => absurd hm (Nat.not_lt_zero m) }

namespace Phase

variable {d : Nat}

/-- The next secondary sample point is due when the delay and a bit time for each one
before have passed. -/
theorem sampleSec_iff (h : Phase g d T is c sent written taken s) (hi : i.sspDelay.toNat = d)
    (hd : 2 ≤ d) (hdw : d < 2 ^ g.sspCtrsWidth) :
    sampleSec g s i = true ↔ c = d + taken * T := by
  have hexp : sampleSec g s i = decide (s.ssp.sspcThreshold g i ≤ s.ssp.sspcQ) := by
    simp [sampleSec, SspGenerator.sampleSec, SspGenerator.sspcExpired, h.ena]
  rw [hexp, decide_eq_true_iff]
  rcases h.point with ⟨hf, rfl, hle, hq⟩ | ⟨hf, htk, hq, h1, hqT⟩
  · rw [SspGenerator.sspcThreshold, if_pos hf, hi, Nat.mod_eq_of_lt hdw]
    omega
  · rw [SspGenerator.sspcThreshold, if_neg (by simp [hf])]
    have hmul : T ≤ taken * T := Nat.le_mul_of_pos_left T htk
    rcases h.measure with ⟨-, hc, hb⟩ | ⟨-, hc, hb⟩ <;> omega

/-- Only one number of bit times fits. -/
theorem due_iff (h : Phase g d T is c sent written taken s) :
    (∃ k, c = d + k * T) ↔ c = d + taken * T := by
  refine ⟨?_, fun hc => ⟨taken, hc⟩⟩
  rintro ⟨k, hk⟩
  rcases h.point with ⟨-, rfl, hle, -⟩ | ⟨-, -, hq, h1, hqT⟩
  · omega
  -- the SSP counter is between one and the bit time
  · have hle : k ≤ taken := by
      by_contra hlt
      have hmul := Nat.mul_le_mul_right T (show taken + 1 ≤ k by omega)
      rw [Nat.succ_mul] at hmul
      omega
    have hge : taken ≤ k := by
      by_contra hlt
      have hmul := Nat.mul_le_mul_right T (show k + 1 ≤ taken by omega)
      rw [Nat.succ_mul] at hmul
      omega
    rw [hk, Nat.le_antisymm hle hge]

/-- The SSP counter. -/
theorem step_point (h : Phase g d T is c sent written taken s) (hi : i.sspDelay.toNat = d)
    (hb : i.btmcReset = false) (hg : (i.genFirstSsp && i.txTrigger) = false) (h2 : 2 ≤ d)
    (hT : 0 < T) (hdw : d < 2 ^ g.sspCtrsWidth) (hTw : T < 2 ^ g.sspCtrsWidth) :
    let s' := step g s i
    let taken' := taken + (sampleSec g s i).toNat
    (s'.ssp.firstSspQ = true ∧ taken' = 0 ∧ c + 1 ≤ d ∧ s'.ssp.sspcQ = c + 1) ∨
      (s'.ssp.firstSspQ = false ∧ 1 ≤ taken' ∧ c + 1 + T = d + taken' * T + s'.ssp.sspcQ ∧
        1 ≤ s'.ssp.sspcQ ∧ s'.ssp.sspcQ ≤ T) := by
  intro s' taken'
  have hiff := h.sampleSec_iff hi h2 hdw
  have hexp : s.ssp.sspcExpired g i = sampleSec g s i := by
    simp [sampleSec, SspGenerator.sampleSec, h.ena]
  have hfirst : s'.ssp.firstSspQ = (if sampleSec g s i then false else s.ssp.firstSspQ) := by
    simp [s', step, SspGenerator.step, hg, hexp]
  have hsspc : s'.ssp.sspcQ =
      if sampleSec g s i then 1 else (s.ssp.sspcQ + 1) % 2 ^ g.sspCtrsWidth := by
    simp [s', step, SspGenerator.step, hb, hexp, h.ena]
  by_cases hsec : sampleSec g s i = true
  · have hc := hiff.mp hsec
    have htk : taken' = taken + 1 := by simp [taken', hsec]
    rw [if_pos hsec] at hfirst hsspc
    refine .inr ⟨hfirst, by omega, ?_, by omega, by omega⟩
    rw [htk, hsspc, Nat.succ_mul]
    omega
  · have hc : c ≠ d + taken * T := fun hc => hsec (hiff.mpr hc)
    have htk : taken' = taken := by simp [taken', hsec]
    rw [if_neg hsec] at hfirst hsspc
    rcases h.point with ⟨hf, rfl, hle, hq⟩ | ⟨hf, hpos, hq, h1, hqT⟩
    · have hsmall : s.ssp.sspcQ + 1 < 2 ^ g.sspCtrsWidth := by omega
      rw [Nat.mod_eq_of_lt hsmall] at hsspc
      exact .inl ⟨hfirst.trans hf, htk, by omega, by omega⟩
    · have hsmall : s.ssp.sspcQ + 1 < 2 ^ g.sspCtrsWidth := by omega
      rw [Nat.mod_eq_of_lt hsmall] at hsspc
      refine .inr ⟨hfirst.trans hf, by omega, ?_, by omega, by omega⟩
      rw [htk]
      omega

/-- The bit time counter stops with the second TX trigger. -/
theorem step_measure (h : Phase g d T is c sent written taken s) (hb : i.btmcReset = false)
    (hm : (i.dbtMeasureStart && i.txTrigger) = false) (ht : i.txTrigger = true ↔ T ∣ c)
    (hc : 0 < c) (hTw : T < 2 ^ g.sspCtrsWidth) :
    let s' := step g s i
    (s'.ssp.btmcMeasRunningQ = true ∧ c + 1 ≤ T ∧ s'.ssp.btmcQ + 1 = c + 1) ∨
      (s'.ssp.btmcMeasRunningQ = false ∧ T < c + 1 ∧ s'.ssp.btmcQ = T) := by
  intro s'
  have hrun : s'.ssp.btmcMeasRunningQ = (!i.txTrigger && s.ssp.btmcMeasRunningQ) := by
    simp only [s', step, SspGenerator.step, hb, hm]
    cases i.txTrigger <;> simp
  have hbtmc : s'.ssp.btmcQ =
      if s.ssp.btmcMeasRunningQ then (s.ssp.btmcQ + 1) % 2 ^ g.sspCtrsWidth else s.ssp.btmcQ := by
    simp [s', step, SspGenerator.step, hb]
  rcases h.measure with ⟨hr, hle, hq⟩ | ⟨hr, hlt, hq⟩
  · rw [if_pos hr, Nat.mod_eq_of_lt (by omega)] at hbtmc
    by_cases hcT : c = T
    · have ht : i.txTrigger = true := ht.mpr (hcT ▸ Nat.dvd_refl c)
      exact .inr ⟨by simp [hrun, ht], by omega, by omega⟩
    · have ht : i.txTrigger = false := by
        by_contra hx
        have := Nat.le_of_dvd hc (ht.mp (by simpa using hx))
        omega
      exact .inl ⟨by simp [hrun, ht, hr], by omega, by omega⟩
  · rw [if_neg (by simp [hr])] at hbtmc
    exact .inr ⟨by simp [hrun, hr], by omega, by omega⟩

/-- The bit of the last TX trigger is written behind the bits before it. -/
theorem step_mem (h : Phase g d T is c sent written taken s) (hD : 0 < g.txCacheDepth)
    (hi : is[c]? = some i) (hsp : i.spControl = .secondarySample) :
    let s' := step g s i
    let written' := written + s.txTriggerQ.toNat
    s'.cacheQ.writePointerQ = written' % g.txCacheDepth ∧
      s'.cacheQ.readPointerQ = (taken + (sampleSec g s i).toNat) % g.txCacheDepth ∧
      ∀ m j, m < written' → written' ≤ m + g.txCacheDepth → is[m * T + 1]? = some j →
        s'.cacheQ.txCacheMem (m % g.txCacheDepth) = j.txDataWbs := by
  intro s' written'
  have hw : txTriggerSsp s i = s.txTriggerQ := by simp [txTriggerSsp, hsp]
  have hcache : s'.cacheQ = s.cacheQ.step g s.txTriggerQ (sampleSec g s i) i.txDataWbs := by
    simp [s', step, h.running, hw]
  rw [hcache]
  refine ⟨?_, ?_, ?_⟩
  · cases hq : s.txTriggerQ <;> simp [TxDataCache.step, written', hq, h.write]
  · cases hq : sampleSec g s i <;> simp [TxDataCache.step, h.read]
  · intro m j hm hle hj
    by_cases hq : s.txTriggerQ = true
    · obtain ⟨k, hk, h1, hT, htrig⟩ := h.trigger
      have hk1 : k = 1 := by simpa [hq] using htrig
      have hsent : written + 1 = sent := by simpa [hq] using h.sent
      have hw' : written' = written + 1 := by simp [written', hq]
      have hcyc : c = written * T + 1 := by
        rw [← hsent, Nat.succ_mul] at hk
        omega
      simp only [TxDataCache.step, hq, if_true, h.write]
      by_cases hlast : m = written
      · subst hlast
        rw [Function.update_self]
        rw [hcyc] at hi
        exact congrArg Input.txDataWbs (Option.some.inj (hi.symm.trans hj))
      · have hne : m % g.txCacheDepth ≠ written % g.txCacheDepth := by
          intro he
          have hoff := @RingSlots.offset_injective g.txCacheDepth m 0 (written - m) hD
            (by omega) (by rw [Nat.add_zero, show m + (written - m) = written by omega, he])
          omega
        rw [Function.update_of_ne hne]
        exact h.mem m j (by omega) (by omega) hj
    · have hw' : written' = written := by simp [written', hq]
      simp only [TxDataCache.step, hq]
      exact h.mem m j (by omega) (by omega) hj

theorem step_phase (h : Phase g sspDelay.toNat T is c sent written taken s)
    (hp : DataPhase sspDelay T is) (hi : is[c]? = some i) (hc : 0 < c) (hT : 0 < T)
    (h2 : 2 ≤ sspDelay.toNat) (hD : 0 < g.txCacheDepth)
    (hdw : sspDelay.toNat < 2 ^ g.sspCtrsWidth) (hTw : T < 2 ^ g.sspCtrsWidth) :
    Phase g sspDelay.toNat T is (c + 1) (sent + i.txTrigger.toNat) (written + s.txTriggerQ.toNat)
      (taken + (sampleSec g s i).toNat) (step g s i) := by
  obtain ⟨hsp, hdel, hbr, hsr⟩ := hp.selected i (List.mem_of_getElem? hi)
  have ht := hp.triggers c i hi
  have honce : i.txTrigger = true → i.genFirstSsp = false ∧ i.dbtMeasureStart = false :=
    fun hx => hp.once c i hi hc (ht.mp hx)
  have hg : (i.genFirstSsp && i.txTrigger) = false := by
    cases hx : i.txTrigger
    · simp
    · simp [(honce hx).1]
  have hm : (i.dbtMeasureStart && i.txTrigger) = false := by
    cases hx : i.txTrigger
    · simp
    · simp [(honce hx).2]
  obtain ⟨hwrite, hread, hmem⟩ := h.step_mem hD hi hsp
  exact {
    ena := by simp [step, SspGenerator.step, hg, hsp, h.ena]
    point := h.step_point (by rw [hdel]) hbr hg h2 hT hdw hTw
    measure := h.step_measure hbr hm ht hc hTw
    trigger := by
      obtain ⟨j, hj, h1, hjT, -⟩ := h.trigger
      rw [dvd_cycle hj h1 hjT] at ht
      cases hx : i.txTrigger
      · have hne : j ≠ T := fun he => by simp [ht.mpr he] at hx
        exact ⟨j + 1, by simp; omega, by omega, by omega, by simp [step, hx]; omega⟩
      · have he : j = T := ht.mp hx
        refine ⟨1, ?_, Nat.le_refl 1, hT, by simp [step, hx]⟩
        rw [Bool.toNat_true, Nat.succ_mul]
        omega
    count := by rw [countP_take_succ hi, h.count]
    sent := by rw [h.sent]; rfl
    running := by simp [step, hsr]
    write := hwrite
    read := hread
    mem := hmem }

/-- The bit of the next secondary sample point has been written when the point is due. -/
theorem due_written (h : Phase g d T is c sent written taken s) (hd : 2 ≤ d)
    (hc : c = d + taken * T) : taken < written := by
  obtain ⟨j, hj, h1, hjT, htrig⟩ := h.trigger
  have hsent := h.sent
  by_cases hq : s.txTriggerQ = true
  · have hj1 : j = 1 := by simpa [hq] using htrig
    have hlt : (taken + 1) * T < sent * T := by
      rw [Nat.succ_mul]
      omega
    have := Nat.lt_of_mul_lt_mul_right hlt
    rw [hq, Bool.toNat_true] at hsent
    omega
  · have hlt : taken * T < sent * T := by omega
    have := Nat.lt_of_mul_lt_mul_right hlt
    simp only [Bool.not_eq_true] at hq
    rw [hq, Bool.toNat_false] at hsent
    omega

end Phase

theorem phase_run (hp : DataPhase sspDelay T is) (hT : 0 < T) (h2 : 2 ≤ sspDelay.toNat)
    (hD : 0 < g.txCacheDepth) (hdw : sspDelay.toNat < 2 ^ g.sspCtrsWidth)
    (hTw : T < 2 ^ g.sspCtrsWidth) (hs : Armed s) (c : Nat) (hc : c < is.length) :
    ∃ sent written taken,
      Phase g sspDelay.toNat T is (c + 1) sent written taken (run (step g) s (is.take (c + 1))) := by
  induction c with
  | zero =>
    obtain ⟨i, hi⟩ : ∃ i, is[0]? = some i := ⟨_, List.getElem?_eq_getElem hc⟩
    refine ⟨1, 0, 0, ?_⟩
    rw [List.take_add_one, hi]
    exact phase_start hp hT h2 hs hi
  | succ c ih =>
    obtain ⟨i, hi⟩ : ∃ i, is[c + 1]? = some i := ⟨_, List.getElem?_eq_getElem hc⟩
    obtain ⟨sent, written, taken, h⟩ := ih (by omega)
    rw [List.take_add_one, hi, run_append]
    exact ⟨_, _, _, h.step_phase hp hi (by omega) hT h2 hD hdw hTw⟩

end Cycles

/-- Whatever the block did before the EDL bit: with a delay of at least two cycles and a
constant bit time there is a secondary sample point in exactly the cycles delay plus a
multiple of the bit time after the TX trigger of the ESI bit. The `k`-th one finds the
bit of the `k`-th TX trigger at the output of the cache, unless more bits have been sent
since than the cache holds. -/
theorem secondary_sample_points (g : Generics) (hw : 8 ≤ g.sspCtrsWidth)
    (hD : 0 < g.txCacheDepth) (s : State) (edl brs : Input) (control esi is : List Input)
    (hprep : Prepared edl control brs esi) (sspDelay : BitVec 8) (h2 : 2 ≤ sspDelay.toNat)
    (bitTime : Nat) (hT : 0 < bitTime) (hTw : bitTime < 2 ^ g.sspCtrsWidth)
    (hp : DataPhase sspDelay bitTime is) (c : Nat) (i : Input) (hi : is[c]? = some i) :
    let q := run (step g) s (edl :: control ++ brs :: esi ++ is.take c)
    (sampleSec g q i = true ↔ ∃ k, c = sspDelay.toNat + k * bitTime) ∧
      ∀ k, c = sspDelay.toNat + k * bitTime →
        (is.take c).countP (·.txTrigger) ≤ k + g.txCacheDepth →
        ∃ j, is[k * bitTime + 1]? = some j ∧ dataTxDelayed q = j.txDataWbs := by
  intro q
  have hdw : sspDelay.toNat < 2 ^ g.sspCtrsWidth :=
    Nat.lt_of_lt_of_le sspDelay.isLt (Nat.pow_le_pow_right (by decide) hw)
  have harmed : Armed (run (step g) s (edl :: control ++ brs :: esi)) := prepared_armed hprep s
  have hlen : c < is.length := by
    by_contra hge
    rw [List.getElem?_eq_none (by omega)] at hi
    cases hi
  have hq : q = run (step g) (run (step g) s (edl :: control ++ brs :: esi)) (is.take c) :=
    run_append _ _ _ _
  cases c with
  | zero =>
    have hfalse : sampleSec g q i = false := by
      have hena : q.ssp.sspcEnaQ = false := by
        rw [hq]
        exact harmed.ena
      simp [sampleSec, SspGenerator.sampleSec, hena]
    refine ⟨⟨fun hx => absurd (hfalse.symm.trans hx) (by decide), ?_⟩, ?_⟩
    · rintro ⟨k, hk⟩
      omega
    · intro k hk
      omega
  | succ c =>
    obtain ⟨sent, written, taken, h⟩ :=
      phase_run hp hT h2 hD hdw hTw harmed c (by omega)
    rw [← hq] at h
    have hdel : i.sspDelay.toNat = sspDelay.toNat := by
      rw [(hp.selected i (List.mem_of_getElem? hi)).2.1]
    refine ⟨(h.sampleSec_iff hdel h2 hdw).trans h.due_iff.symm, ?_⟩
    intro k hk hfit
    have hdue := h.due_iff.mp ⟨k, hk⟩
    have hkt : k = taken := Nat.eq_of_mul_eq_mul_right hT (by omega)
    subst hkt
    have hwritten := h.due_written h2 hdue
    rw [h.count, ← h.sent] at hfit
    obtain ⟨j, hj⟩ : ∃ j, is[k * bitTime + 1]? = some j :=
      ⟨_, List.getElem?_eq_getElem (by omega)⟩
    refine ⟨j, hj, ?_⟩
    rw [dataTxDelayed, cache, if_pos h.running, TxDataCache.dataOut, h.read]
    exact h.mem k j hwritten (by omega) hj

/-! ### Phases of any length -/

/-- Cycle `c` of a data phase that sends `bits`. -/
def dataCycle (sspDelay : BitVec 8) (bitTime : Nat) (bits : Nat → Bool) (c : Nat) : Input where
  btmcReset := false
  dbtMeasureStart := decide (c < bitTime)
  genFirstSsp := decide (c < bitTime)
  sspReset := false
  spControl := .secondarySample
  sspDelay := sspDelay
  txTrigger := decide (bitTime ∣ c)
  txDataWbs := bits ((c - 1) / bitTime)

theorem dataPhase_cycles (sspDelay : BitVec 8) {bitTime : Nat} (hT : 0 < bitTime)
    (bits : Nat → Bool) (n : Nat) :
    DataPhase sspDelay bitTime ((List.range n).map (dataCycle sspDelay bitTime bits)) := by
  have hget : ∀ c i, ((List.range n).map (dataCycle sspDelay bitTime bits))[c]? = some i →
      i = dataCycle sspDelay bitTime bits c := by
    intro c i hi
    rw [List.getElem?_map, Option.map_eq_some_iff] at hi
    obtain ⟨k, hk, rfl⟩ := hi
    obtain ⟨hlt, hk⟩ := List.getElem?_eq_some_iff.mp hk
    rw [← hk, List.getElem_range]
  refine ⟨?_, ?_, ?_, ?_⟩
  · intro i hi
    obtain ⟨c, -, rfl⟩ := List.mem_map.mp hi
    exact ⟨rfl, rfl, rfl, rfl⟩
  · intro c i hi
    rw [hget c i hi]
    exact decide_eq_true_iff
  · intro i hi
    rw [hget 0 i hi]
    exact ⟨decide_eq_true hT, decide_eq_true hT⟩
  · intro c i hi hc hdvd
    have hle : ¬ c < bitTime := Nat.not_lt.mpr (Nat.le_of_dvd hc hdvd)
    rw [hget c i hi]
    exact ⟨decide_eq_false hle, decide_eq_false hle⟩

/-- A cycle of the control field, with the resets of the EDL and of the BRS bit. -/
def controlCycle (edl brs : Bool) (spControl : SpControl) : Input where
  btmcReset := brs
  dbtMeasureStart := false
  genFirstSsp := false
  sspReset := edl
  spControl := spControl
  sspDelay := 5
  txTrigger := false
  txDataWbs := true

/-- A delay of five cycles, bits of four cycles, the second secondary sample point. -/
theorem secondary_sample_points_second :
    let bits := fun k => k % 3 == 1
    let is := (List.range 12).map (dataCycle 5 4 bits)
    let q := run (step canConfig) reset
      (controlCycle true false .nominalSample :: [] ++
        controlCycle false true .secondarySample :: [] ++ is.take 9)
    sampleSec canConfig q (dataCycle 5 4 bits 9) = true ∧ dataTxDelayed q = bits 1 := by
  intro bits is q
  have h := secondary_sample_points canConfig (by decide) (by decide) reset
    (controlCycle true false .nominalSample) (controlCycle false true .secondarySample) [] [] is
    ⟨rfl, rfl, by simp [controlCycle], rfl, by simp [controlCycle]⟩ 5 (by decide) 4 (by decide)
    (by decide) (dataPhase_cycles 5 (by decide) bits 12) 9 (dataCycle 5 4 bits 9) rfl
  refine ⟨h.1.mpr ⟨1, by decide⟩, ?_⟩
  obtain ⟨j, hj, hout⟩ := h.2 1 (by decide) (by decide)
  rw [hout, ← Option.some.inj hj]
  rfl

end BusSampling
