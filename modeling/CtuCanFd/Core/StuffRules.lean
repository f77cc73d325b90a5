import CtuCanFd.Core.Blocks
import CtuCanFd.Lib.SyncMachine
import CtuCanFd.Lib.TrailingRun

/-!
# The stuffing rules

The rules are stated on the bits of a frame from SOF on, each of them with the kind of
stuffing of its field, without reference to a counter. `bit_destuffing` keeps one counter
and the bit before for both kinds of stuffing, and reports its first stuff error at the
first bit that breaks the rules.
-/

open TrailingRun

/-- A bit on the bus, and whether its field has fixed stuffing. -/
structure BusBit where
  bit : Bool
  fixed : Bool
deriving DecidableEq, Repr

namespace StuffRules

/-! ## Rules -/

def bits (past : List BusBit) : List Bool := past.map BusBit.bit

/-- Bits since the change to fixed stuffing. -/
def fixedCount (past : List BusBit) : Nat := past.countP BusBit.fixed

/-- The bits so far end with five equal bits. -/
def FiveEqual (past : List BusBit) : Prop := ∃ b, List.replicate 5 b <:+ bits past

/-- The next bit is a stuff bit: it comes after five equal bits or, with fixed stuffing, first
and after every four bits. -/
def StuffPosition (past : List BusBit) (fixed : Bool) : Prop :=
  if fixed then fixedCount past % 5 = 0 else FiveEqual past

/-- The next bit is the sixth equal one in a row, or a fixed stuff bit that equals the bit
before it. -/
def Violates (past : List BusBit) (x : BusBit) : Prop :=
  if x.fixed then fixedCount past % 5 = 0 ∧ (bits past).getLast? = some x.bit
  else List.replicate 5 x.bit <:+ bits past

instance (past : List BusBit) (x : BusBit) : Decidable (Violates past x) :=
  inferInstanceAs (Decidable (if x.fixed then
    fixedCount past % 5 = 0 ∧ (bits past).getLast? = some x.bit
    else List.replicate 5 x.bit <:+ bits past))

theorem violates_regular {past : List BusBit} {x : BusBit} (h : x.fixed = false) :
    Violates past x ↔ List.replicate 5 x.bit <:+ bits past := by
  simp [Violates, h]

theorem violates_fixed {past : List BusBit} {x : BusBit} (h : x.fixed = true) :
    Violates past x ↔ fixedCount past % 5 = 0 ∧ (bits past).getLast? = some x.bit := by
  simp [Violates, h]

/-- Fixed stuffing is not left again. -/
def Sorted (past : List BusBit) : Prop := past.Pairwise fun x y => x.fixed = true → y.fixed = true

instance (past : List BusBit) : Decidable (Sorted past) :=
  inferInstanceAs (Decidable (List.Pairwise _ _))

/-- A frame starts with a dominant SOF in the part with regular stuffing. -/
def StartsWithSof (past : List BusBit) : Prop := ∀ x, past.head? = some x → x = ⟨false, false⟩

theorem bits_concat (past : List BusBit) (x : BusBit) :
    bits (past ++ [x]) = bits past ++ [x.bit] := by
  simp [bits]

theorem fixedCount_concat (past : List BusBit) (x : BusBit) :
    fixedCount (past ++ [x]) = fixedCount past + if x.fixed then 1 else 0 := by
  simp [fixedCount, List.countP_append]

/-- The run of equal bits at the end; before SOF the bus was recessive. -/
def busRun (past : List BusBit) : Nat × Bool := trailing (1, true) (bits past)

theorem busRun_concat (past : List BusBit) (x : BusBit) :
    busRun (past ++ [x]) = next (busRun past) x.bit := by
  rw [busRun, bits_concat, trailing_concat, busRun]

theorem replicate_suffix_bits {past : List BusBit} (hsof : StartsWithSof past) {k : Nat}
    {b : Bool} (hne : past ≠ []) :
    List.replicate (k + 1) b <:+ bits past ↔ b = (busRun past).2 ∧ k < (busRun past).1 := by
  refine replicate_suffix_iff (by simpa [bits] using hne) ?_
  intro x hx
  cases past with
  | nil => cases hx
  | cons y ys =>
    rw [hsof y rfl] at hx
    obtain rfl : false = x := by simpa [bits] using hx
    decide

/-- Five equal bits, read off the run. -/
theorem five_suffix_iff {past : List BusBit} (hsof : StartsWithSof past) {b : Bool}
    (hrun : (busRun past).1 ≤ 5) :
    List.replicate 5 b <:+ bits past ↔ b = (busRun past).2 ∧ (busRun past).1 = 5 := by
  by_cases hne : past = []
  · subst hne
    simp [bits, busRun, trailing]
  · rw [replicate_suffix_bits hsof hne]
    constructor
    · rintro ⟨hb, hlt⟩
      exact ⟨hb, by omega⟩
    · rintro ⟨hb, heq⟩
      exact ⟨hb, by omega⟩

theorem fiveEqual_iff {past : List BusBit} (hsof : StartsWithSof past)
    (hrun : (busRun past).1 ≤ 5) : FiveEqual past ↔ (busRun past).1 = 5 := by
  constructor
  · rintro ⟨b, hb⟩
    exact ((five_suffix_iff hsof hrun).mp hb).2
  · intro h
    exact ⟨(busRun past).2, (five_suffix_iff hsof hrun).mpr ⟨rfl, h⟩⟩

/-! ## Destuffing -/

/-- The registers of `bit_destuffing` after the bits of a frame that kept to the rules. After the
stuff bit of the change to fixed stuffing the bit before is not kept. -/
structure Follows (d : BitDestuffing) (past : List BusBit) : Prop where
  enabled : d.enablePrev = true
  change : d.fixedPrevQ = decide (fixedCount past ≠ 0)
  regular : fixedCount past = 0 → (d.sameBitsQ, d.prevValQ) = busRun past ∧ d.sameBitsQ ≤ 5
  position : fixedCount past ≠ 0 → d.sameBitsQ = (fixedCount past - 1) % 5 + 1
  before : fixedCount past ≠ 0 → d.sameBitsQ ≠ 1 → (bits past).getLast? = some d.prevValQ

section Follows

variable {d : BitDestuffing} {i : BitDestuffing.Input} {past : List BusBit}

/-- The bit a sample point takes. -/
def taken (i : BitDestuffing.Input) : BusBit := ⟨i.dataIn, i.fixedStuff⟩

theorem getLast?_busRun (hne : past ≠ []) : (bits past).getLast? = some (busRun past).2 := by
  obtain rfl | ⟨front, x, rfl⟩ := List.eq_nil_or_concat' past
  · exact absurd rfl hne
  · rw [bits_concat, List.getLast?_concat, busRun_concat, next]
    split <;> rfl

theorem StartsWithSof.of_concat {x : BusBit} (h : StartsWithSof (past ++ [x])) :
    StartsWithSof past := by
  cases past with
  | nil => exact nofun
  | cons y ys => exact h

theorem StartsWithSof.concat {x : BusBit} (h : StartsWithSof past) (hne : past ≠ []) :
    StartsWithSof (past ++ [x]) := by
  cases past with
  | nil => exact absurd rfl hne
  | cons y ys => exact h

/-- The first bit is SOF. -/
theorem StartsWithSof.ne_nil {x : BusBit} (h : StartsWithSof (past ++ [x]))
    (hx : x.fixed = true) : past ≠ [] := by
  rintro rfl
  rw [h x rfl] at hx
  cases hx

theorem Follows.discard (h : Follows d past) (hsof : StartsWithSof past)
    (hfix : fixedCount past ≠ 0 → i.fixedStuff = true) :
    d.discardStuffBit i = true ↔ StuffPosition past i.fixedStuff := by
  simp only [BitDestuffing.discardStuffBit, BitDestuffing.nonFixToFixChng,
    BitDestuffing.stuffLvlReached, h.change, StuffPosition]
  by_cases hm : fixedCount past = 0
  · obtain ⟨hrun, hlow⟩ := h.regular hm
    have hlen : d.sameBitsQ = (busRun past).1 := congrArg Prod.fst hrun
    cases hf : i.fixedStuff
    · simp [fiveEqual_iff hsof (hlen ▸ hlow), hlen]
    · simp [hm]
  · simp only [hfix hm, h.position hm]
    simp
    omega

/-- The circuit sees a violation where the rules are broken. -/
theorem Follows.violates (h : Follows d past) (hsof : StartsWithSof (past ++ [taken i]))
    (hfix : fixedCount past ≠ 0 → i.fixedStuff = true) (he : i.destuffEnable = true) :
    d.stuffRuleViolate i = true ↔ Violates past (taken i) := by
  have hpast := hsof.of_concat
  have hdis := h.discard (i := i) hpast hfix
  have hcirc : d.stuffRuleViolate i = true ↔
      StuffPosition past i.fixedStuff ∧ d.prevValQ = i.dataIn := by
    rw [← hdis]
    simp [BitDestuffing.stuffRuleViolate, he]
  rw [hcirc, StuffPosition]
  by_cases hm : fixedCount past = 0
  · obtain ⟨hrun, hlow⟩ := h.regular hm
    have hlen : d.sameBitsQ = (busRun past).1 := congrArg Prod.fst hrun
    have hval : d.prevValQ = (busRun past).2 := congrArg Prod.snd hrun
    by_cases hf : i.fixedStuff = true
    · rw [violates_fixed hf, if_pos hf, getLast?_busRun (hsof.ne_nil hf), hval, Option.some.injEq]
      rfl
    · rw [violates_regular (eq_false_of_ne_true hf), if_neg hf, fiveEqual_iff hpast (hlen ▸ hlow),
        five_suffix_iff hpast (hlen ▸ hlow), hval]
      exact ⟨fun ⟨h5, hb⟩ => ⟨hb.symm, h5⟩, fun ⟨hb, h5⟩ => ⟨h5, hb.symm⟩⟩
  · rw [violates_fixed (x := taken i) (hfix hm), if_pos (hfix hm)]
    refine and_congr_right fun h5 => ?_
    rw [h.before hm (by rw [h.position hm]; omega), Option.some.injEq]
    rfl

theorem Follows.quiet (h : Follows d past) (ht : i.bdsTrigger = false)
    (he : i.destuffEnable = true) : Follows (d.step i) past := by
  have hsame : (d.step i).sameBitsQ = d.sameBitsQ := by
    simp [BitDestuffing.step, BitDestuffing.sameBitsErase, he, ht, h.enabled]
  have hprev : (d.step i).prevValQ = d.prevValQ := by simp [BitDestuffing.step, ht]
  refine ⟨he, ?_, fun hm => ?_, fun hm => ?_, fun hm => ?_⟩
  · simpa [BitDestuffing.step, he, ht, h.enabled] using h.change
  · rw [hsame, hprev]
    exact h.regular hm
  · rw [hsame]
    exact h.position hm
  · rw [hsame, hprev]
    exact h.before hm

/-- A bit that keeps to the rules. -/
theorem Follows.sample (h : Follows d past) (hsof : StartsWithSof (past ++ [taken i]))
    (hfix : fixedCount past ≠ 0 → i.fixedStuff = true) (ht : i.bdsTrigger = true)
    (he : i.destuffEnable = true) (hok : ¬ Violates past (taken i)) :
    Follows (d.step i) (past ++ [taken i]) := by
  have hdis := h.discard (i := i) hsof.of_concat hfix
  have hsame : (d.step i).sameBitsQ =
      if d.discardStuffBit i || (i.dataIn != d.prevValQ && !i.fixedStuff) then 1
      else (d.sameBitsQ + 1) % 8 := by
    simp [BitDestuffing.step, BitDestuffing.sameBitsErase, he, ht, h.enabled]
  have hcount : fixedCount (past ++ [taken i]) =
      fixedCount past + if i.fixedStuff then 1 else 0 := fixedCount_concat past (taken i)
  refine ⟨he, ?_, fun hm => ?_, fun hm => ?_, fun hm hne => ?_⟩
  · have hstep : (d.step i).fixedPrevQ = i.fixedStuff := by
      simp [BitDestuffing.step, he, ht, h.enabled]
    rw [hstep, hcount]
    cases hf : i.fixedStuff
    · have hzero : fixedCount past = 0 := by
        by_contra hne
        simp [hfix hne] at hf
      simp [hzero]
    · simp
  · -- the counter goes on with the run, which the bit does not extend beyond five
    rw [hcount] at hm
    have hf : i.fixedStuff = false := by
      cases hf : i.fixedStuff
      · rfl
      · simp [hf] at hm
    have hzero : fixedCount past = 0 := by omega
    obtain ⟨hrun, hlow⟩ := h.regular hzero
    have hviol : ¬ (d.discardStuffBit i = true ∧ d.prevValQ = i.dataIn) := by
      rw [← h.violates hsof hfix he] at hok
      simpa [BitDestuffing.stuffRuleViolate, he] using hok
    have hlvl : d.discardStuffBit i = (d.sameBitsQ == 5) := by
      simp [BitDestuffing.discardStuffBit, BitDestuffing.nonFixToFixChng,
        BitDestuffing.stuffLvlReached, hf]
    have hprev : (d.step i).prevValQ = i.dataIn := by
      simp [BitDestuffing.step, ht, BitDestuffing.nonFixToFixChng, hf]
    rw [busRun_concat, ← hrun, hprev, hsame, hf, hlvl, next]
    rw [hlvl] at hviol
    by_cases hx : i.dataIn = d.prevValQ
    · have h5 : d.sameBitsQ ≠ 5 := fun h5 => hviol ⟨by simp [h5], hx.symm⟩
      have hmod : (d.sameBitsQ + 1) % 8 = d.sameBitsQ + 1 := by omega
      simp [hx, h5, hmod, taken]
      omega
    · simp [hx, taken]
  · rw [hcount] at hm ⊢
    have hf : i.fixedStuff = true := by
      cases hf : i.fixedStuff
      · rw [hf] at hm
        rw [hfix hm] at hf
        cases hf
      · rfl
    rw [hsame, hf]
    simp only [Bool.not_true, Bool.and_false, Bool.or_false, if_true, Nat.add_sub_cancel]
    rw [hf, StuffPosition, if_pos rfl] at hdis
    by_cases hpos : fixedCount past % 5 = 0
    · rw [if_pos (hdis.mpr hpos), hpos]
    · rw [if_neg (fun h => hpos (hdis.mp h)), h.position (by omega)]
      omega
  · have hkeep : d.discardStuffBit i = false := by
      by_contra hd
      have hd : d.discardStuffBit i = true := by simpa using hd
      simp [hsame, hd] at hne
    have hchg : d.nonFixToFixChng i = false := by
      simp only [BitDestuffing.discardStuffBit, Bool.or_eq_false_iff] at hkeep
      exact hkeep.1
    rw [bits_concat, List.getLast?_concat]
    simp [BitDestuffing.step, ht, hchg, taken]

end Follows

/-! ## The first stuff error -/

/-- The bits sampled. -/
def sampled (is : List BitDestuffing.Input) : List BusBit :=
  (is.filter BitDestuffing.Input.bdsTrigger).map taken

/-- Whether a stuff error is reported, for every bit sampled. -/
def reports : BitDestuffing → List BitDestuffing.Input → List Bool
  | _, [] => []
  | d, i :: is =>
    if i.bdsTrigger then (d.step i).stuffErrQ :: reports (d.step i) is else reports (d.step i) is

/-- Whether the rules are broken, for every bit after `past`. -/
def violations : List BusBit → List BusBit → List Bool
  | _, [] => []
  | past, x :: xs => decide (Violates past x) :: violations (past ++ [x]) xs

theorem sorted_fixed {past rest : List BusBit} {x : BusBit} (h : Sorted (past ++ x :: rest))
    (hm : fixedCount past ≠ 0) : x.fixed = true := by
  obtain ⟨y, hy, hfixed⟩ := List.countP_pos_iff.mp (Nat.pos_of_ne_zero hm)
  exact (List.pairwise_append.mp h).2.2 y hy x List.mem_cons_self hfixed

theorem StartsWithSof.front {past rest : List BusBit} {x : BusBit}
    (h : StartsWithSof (past ++ x :: rest)) : StartsWithSof (past ++ [x]) := by
  cases past with
  | nil => exact h
  | cons y ys => exact h

theorem Follows.first_report {d : BitDestuffing} {past : List BusBit} (h : Follows d past)
    (is : List BitDestuffing.Input) (hena : ∀ i ∈ is, i.destuffEnable = true)
    (hsof : StartsWithSof (past ++ sampled is)) (hsort : Sorted (past ++ sampled is)) :
    (reports d is).findIdx? id = (violations past (sampled is)).findIdx? id := by
  induction is generalizing d past with
  | nil => rfl
  | cons i is ih =>
    have he := hena i List.mem_cons_self
    have hena' : ∀ j ∈ is, j.destuffEnable = true := fun j hj => hena j (List.mem_cons_of_mem i hj)
    cases ht : i.bdsTrigger
    · have hs : sampled (i :: is) = sampled is := by simp [sampled, ht]
      rw [hs] at hsof hsort ⊢
      simpa [reports, ht] using ih (h.quiet ht he) hena' hsof hsort
    · have hs : sampled (i :: is) = taken i :: sampled is := by simp [sampled, ht]
      rw [hs] at hsof hsort ⊢
      have hfix : fixedCount past ≠ 0 → i.fixedStuff = true := sorted_fixed hsort
      have hreport : (d.step i).stuffErrQ = decide (Violates past (taken i)) := by
        rw [Bool.eq_iff_iff, decide_eq_true_iff, ← h.violates hsof.front hfix he]
        simp [BitDestuffing.step, ht]
      by_cases hv : Violates past (taken i)
      · simp [reports, violations, ht, hreport, hv, List.findIdx?_cons]
      · have hnext := ih (h.sample hsof.front hfix ht he hv) hena'
          (by rwa [List.append_assoc]) (by rwa [List.append_assoc])
        simp [reports, violations, ht, hreport, hv, List.findIdx?_cons, hnext]

/-- The circuit is enabled after the bit `first` was sampled, which is SOF or the recessive bit
before an own SOF, and before the next bit. -/
structure Opening (first : BitDestuffing.Input) (gap : List BitDestuffing.Input)
    (enable : BitDestuffing.Input) : Prop where
  sample : first.bdsTrigger = true ∧ first.destuffEnable = false ∧ first.fixedStuff = false
  waits : ∀ i ∈ gap, i.bdsTrigger = false ∧ i.destuffEnable = false
  enables : enable.bdsTrigger = false ∧ enable.destuffEnable = true

/-- The bit of the frame that was sampled before the circuit was enabled, if the last bit before
was `b`: a dominant bit is SOF. -/
def before (b : Bool) : List BusBit := if b then [] else [⟨false, false⟩]

/-- In the first cycle in which it is enabled, the circuit starts from the bit before. -/
theorem follows_enable {d : BitDestuffing} {i : BitDestuffing.Input} (hp : d.enablePrev = false)
    (ht : i.bdsTrigger = false) (he : i.destuffEnable = true) :
    Follows (d.step i) (before d.prevValQ) := by
  have hone : (d.step i).sameBitsQ = 1 := by
    simp [BitDestuffing.step, BitDestuffing.sameBitsErase, hp]
  have hlast : (d.step i).prevValQ = d.prevValQ := by simp [BitDestuffing.step, ht]
  have hcount : fixedCount (before d.prevValQ) = 0 := by
    unfold before
    split <;> rfl
  refine ⟨he, ?_, fun _ => ⟨?_, ?_⟩, fun hne => absurd hcount hne, fun hne => absurd hcount hne⟩
  · rw [hcount]
    simp [BitDestuffing.step, he, hp]
  · rw [hone, hlast]
    cases d.prevValQ <;> simp [before, busRun, bits, trailing, next]
  · rw [hone]
    decide

/-- While it is disabled, the circuit keeps the bit sampled last. -/
theorem run_disabled (is : List BitDestuffing.Input) {d : BitDestuffing}
    (hok : ∀ i ∈ is, i.bdsTrigger = false ∧ i.destuffEnable = false) (hp : d.enablePrev = false) :
    (SyncMachine.run BitDestuffing.step d is).enablePrev = false ∧
      (SyncMachine.run BitDestuffing.step d is).prevValQ = d.prevValQ := by
  induction is generalizing d with
  | nil => exact ⟨hp, rfl⟩
  | cons i is ih =>
    obtain ⟨ht, he⟩ := hok i List.mem_cons_self
    obtain ⟨hp', hv⟩ := ih (d := d.step i) (fun j hj => hok j (List.mem_cons_of_mem i hj)) he
    exact ⟨hp', hv.trans (by simp [BitDestuffing.step, ht])⟩

theorem follows_opening (d : BitDestuffing) {first enable : BitDestuffing.Input}
    {gap : List BitDestuffing.Input} (h : Opening first gap enable) :
    Follows (SyncMachine.run BitDestuffing.step d (first :: gap ++ [enable]))
      (before first.dataIn) := by
  obtain ⟨⟨ht, he, hf⟩, hwait, ht', he'⟩ := h
  obtain ⟨hp, hv⟩ := run_disabled gap (d := d.step first) hwait he
  have hfirst : (d.step first).prevValQ = first.dataIn := by
    simp [BitDestuffing.step, ht, BitDestuffing.nonFixToFixChng, hf]
  rw [List.cons_append, SyncMachine.run, SyncMachine.run_append, ← hfirst, ← hv]
  exact follows_enable hp ht' he'

/-- The first stuff error is reported at the first bit that breaks the rules, and none is reported
if there is no such bit. -/
theorem first_stuff_error (d : BitDestuffing) (first enable : BitDestuffing.Input)
    (gap frame : List BitDestuffing.Input) (hopen : Opening first gap enable)
    (hena : ∀ i ∈ frame, i.destuffEnable = true)
    (hsof : StartsWithSof (before first.dataIn ++ sampled frame))
    (hsort : Sorted (before first.dataIn ++ sampled frame)) :
    (reports (SyncMachine.run BitDestuffing.step d (first :: gap ++ [enable])) frame).findIdx? id =
      (violations (before first.dataIn) (sampled frame)).findIdx? id :=
  (follows_opening d hopen).first_report frame hena hsof hsort

/-- A sample point of the enabled circuit. -/
def samplePoint (bit fixed : Bool) : BitDestuffing.Input := ⟨bit, true, true, fixed⟩

/-- After SOF a recessive bit, and fixed stuffing with a second stuff bit like the bit before. -/
def wrongStuffBit : List BitDestuffing.Input :=
  [samplePoint true false, samplePoint false true, samplePoint true true, samplePoint true true,
    samplePoint true true, samplePoint true true, samplePoint true true]

theorem first_stuff_error_wrongStuffBit :
    (reports (SyncMachine.run BitDestuffing.step .reset
        [⟨false, true, false, false⟩, ⟨false, false, true, false⟩]) wrongStuffBit).findIdx? id =
      some 6 :=
  first_stuff_error .reset ⟨false, true, false, false⟩ ⟨false, false, true, false⟩ [] wrongStuffBit
    ⟨by decide, nofun, by decide⟩ (by decide) (fun x hx => (Option.some.inj hx).symm) (by decide)

end StuffRules
