import CtuCanFd.Core.FsmSteps
import CtuCanFd.Core.StuffLink
import CtuCanFd.Core.StuffRules

/-!
# The output of bit stuffing

What `bit_stuffing` sends keeps to the stuffing rules, in both ways to start a frame. The
argument goes through the other end of the link: `bit_destuffing` follows the rules, it
sees no stuff error in what was sent, and takes out exactly the stuff bits.
-/

open SyncMachine StuffRules

namespace StuffLink

/-- A bit sent, and whether it is a stuff bit. -/
structure SentBit extends BusBit where
  stuff : Bool
deriving DecidableEq, Repr

/-- The bits sent so far. -/
def record (v : List SentBit) (l : Link) (c : Cycle) : List SentBit :=
  if sends l c then v ++ [⟨⟨(step l c).t.dataOut, l.field⟩, halts l c⟩] else v

def sentStep : Link × List SentBit → Cycle → Link × List SentBit := watched step record

/-- SOF, if it is the dominant bit of another node. -/
def foreignSof (noSof : Bool) : List SentBit := if noSof then [⟨⟨false, false⟩, false⟩] else []

def onBus (v : List SentBit) : List BusBit := v.map SentBit.toBusBit

theorem onBus_concat (v : List SentBit) (x : SentBit) :
    onBus (v ++ [x]) = onBus v ++ [x.toBusBit] := by
  simp [onBus]

/-! ## The rules for bits sent -/

/-- The stuff bits are where the rules put them, and no bit breaks the rules. -/
def Lawful (v : List SentBit) : Prop :=
  ∀ front x back, v = front ++ x :: back →
    (x.stuff = true ↔ StuffPosition (onBus front) x.fixed) ∧ ¬ Violates (onBus front) x.toBusBit

theorem Lawful.concat {v : List SentBit} {x : SentBit} (h : Lawful v)
    (hx : (x.stuff = true ↔ StuffPosition (onBus v) x.fixed) ∧ ¬ Violates (onBus v) x.toBusBit) :
    Lawful (v ++ [x]) := by
  intro front y back heq
  obtain rfl | ⟨back, z, rfl⟩ := List.eq_nil_or_concat' back
  · obtain ⟨rfl, hy⟩ := List.append_inj' heq rfl
    obtain rfl := List.singleton_inj.mp hy
    exact hx
  · rw [← List.cons_append, ← List.append_assoc] at heq
    exact h front y back (List.append_inj' heq rfl).1

theorem lawful_foreignSof (noSof : Bool) : Lawful (foreignSof noSof) := by
  cases noSof with
  | false => rintro (_ | _) x back heq <;> cases heq
  | true =>
    refine Lawful.concat (v := []) (by rintro (_ | _) x back heq <;> cases heq) ⟨?_, by decide⟩
    simp [StuffPosition, FiveEqual, onBus, bits]

/-! ## Invariant -/

/-- The bit sent and not sampled yet. -/
def flight (l : Link) : List SentBit :=
  match l.bus with
  | none => []
  | some stuff => [⟨⟨l.t.dataOut, l.field⟩, stuff⟩]

section Invariant

variable {l : Link} {c : Cycle} {v w : List SentBit} {noSof : Bool} {payload : List Bool}

theorem Synced.flight_waits (h : Synced payload l) (hbus : l.bus ≠ none) : l.rxTrigQ = false := by
  rcases h.phase with ho | hf | ⟨-, -, hl⟩
  · exact absurd ho.bus hbus
  · rcases hf.seen with ⟨-, hrx, -⟩ | ⟨hnone, -⟩
    · exact hrx
    · exact absurd hnone hbus
  · cases hl with
    | level _ hnone => exact absurd hnone hbus
    | ahead _ _ _ hrx => exact hrx

/-- Fixed stuffing lasts to the end of the frame. -/
structure Fields (l : Link) (v : List SentBit) : Prop where
  sent : fixedCount (onBus v) ≠ 0 → l.field = true
  rest : l.field = true → ∀ p ∈ l.rest, p.2 = true

theorem headField_kept (h : l.field = true → ∀ p ∈ l.rest, p.2 = true) (hf : l.field = true) :
    headField l = true := by
  unfold headField
  cases hr : l.rest with
  | nil => simp [hf]
  | cons p ps => exact h hf p (by rw [hr]; exact List.mem_cons_self)

theorem Fields.step (h : Fields l v)
    (hsort : l.rest.Pairwise fun p q => p.2 = true → q.2 = true)
    (hw : fixedCount (onBus w) ≠ 0 → l.field = true) : Fields (step l c) w := by
  have hrest : ∀ p ∈ (StuffLink.step l c).rest, p ∈ l.rest := by
    intro p hp
    simp only [StuffLink.step] at hp
    split at hp
    · exact List.mem_of_mem_tail hp
    · exact hp
  refine ⟨fun hne => ?_, fun hf p hp => ?_⟩
  · simp only [StuffLink.step]
    split
    · exact headField_kept h.rest (hw hne)
    · exact hw hne
  · simp only [StuffLink.step] at hf
    split at hf
    · -- the field of the next bit is taken over, and the bits after it have fixed stuffing too
      have hmem := hrest p hp
      unfold headField at hf
      cases hr : l.rest with
      | nil => rw [hr] at hmem; cases hmem
      | cons y ys =>
        rw [hr] at hf hmem hsort
        rcases List.mem_cons.mp hmem with rfl | hmem
        · exact hf
        · exact (List.pairwise_cons.mp hsort).1 p hmem hf
    · exact h.rest hf p (hrest p hp)

/-- The registers of `bit_destuffing` after the bits sampled, and before the first cycle. -/
def Watches (noSof : Bool) (l : Link) (w : List SentBit) : Prop :=
  Follows l.d (onBus (foreignSof noSof ++ w)) ∨
    l.bus = none ∧ w = [] ∧ l.d.enablePrev = false ∧ l.d.prevValQ = !noSof

theorem Watches.quiet (h : Watches noSof l w) (ht : samples l c = false) :
    Watches noSof (step l c) w := by
  left
  rcases h with hf | ⟨-, rfl, hp, hv⟩
  · exact hf.quiet ht rfl
  · have hstart : Follows (l.d.step (rxInput l c)) (before l.d.prevValQ) :=
      follows_enable hp ht rfl
    rw [hv] at hstart
    cases noSof <;> exact hstart

theorem Watches.follows (h : Watches noSof l w) (hbus : l.bus ≠ none) :
    Follows l.d (onBus (foreignSof noSof ++ w)) :=
  h.resolve_right fun hstart => hbus hstart.1

/-- What is known about the bits sent. -/
structure Sending (noSof : Bool) (payload : List Bool) (l : Link) (v : List SentBit) : Prop where
  synced : Synced payload l
  opening : v = [] → Opening l ∧ l.noSof = noSof
  sof : StartsWithSof (onBus (foreignSof noSof ++ v))
  fields : Fields l (foreignSof noSof ++ v)
  sorted : Sorted (onBus (foreignSof noSof ++ v))
  payload : (v.filter fun x => !x.stuff).map (fun x => x.bit) ++ l.rest.map Prod.fst = payload
  sampled : ∃ w, v = w ++ flight l ∧ Lawful (foreignSof noSof ++ w) ∧ Watches noSof l w

theorem flight_none (hbus : l.bus = none) : flight l = [] := by simp [flight, hbus]

/-- The bit on the bus keeps to the rules, since it would be sampled without a stuff error. -/
theorem flight_lawful {stuff : Bool} (hs : Synced payload l) (hbus : l.bus = some stuff)
    (hsof : StartsWithSof (onBus w ++ [⟨l.t.dataOut, l.field⟩]))
    (hfix : fixedCount (onBus w) ≠ 0 → l.field = true) (hf : Follows l.d (onBus w)) :
    (stuff = true ↔ StuffPosition (onBus w) l.field) ∧
      ¬ Violates (onBus w) ⟨l.t.dataOut, l.field⟩ := by
  have hsample : samples l .sample = true := by simp [samples, hbus]
  obtain ⟨hmark, herr⟩ := (hs.phase_step (c := .sample)).1.sample hsample
  have hdis : l.d.discardStuffBit (rxInput l .sample) = true ↔ StuffPosition (onBus w) l.field :=
    hf.discard hsof.of_concat hfix
  have hviol : l.d.stuffRuleViolate (rxInput l .sample) = true ↔
      Violates (onBus w) ⟨l.t.dataOut, l.field⟩ := hf.violates hsof hfix rfl
  constructor
  · rw [hbus, Option.some.injEq] at hmark
    rw [← hdis, hmark]
    simp [StuffLink.step, BitDestuffing.step, hsample]
  · rw [← hviol]
    simpa [StuffLink.step, BitDestuffing.step, hsample] using herr

theorem flight_some {stuff : Bool} (hbus : l.bus = some stuff) :
    flight l = [⟨⟨l.t.dataOut, l.field⟩, stuff⟩] := by simp [flight, hbus]

/-- The bits sampled so far, with the one on the bus. -/
theorem Sending.flight (h : Sending noSof payload l v) {stuff : Bool} (hbus : l.bus = some stuff)
    {w : List SentBit} (hw : v = w ++ StuffLink.flight l) (hd : Watches noSof l w) :
    (stuff = true ↔ StuffPosition (onBus (foreignSof noSof ++ w)) l.field) ∧
      ¬ Violates (onBus (foreignSof noSof ++ w)) ⟨l.t.dataOut, l.field⟩ := by
  have hv : onBus (foreignSof noSof ++ v) =
      onBus (foreignSof noSof ++ w) ++ [⟨l.t.dataOut, l.field⟩] := by
    rw [hw, flight_some hbus, ← List.append_assoc, onBus_concat]
  have hsof := h.sof
  have hsent := h.fields.sent
  rw [hv] at hsof hsent
  refine flight_lawful h.synced hbus hsof (fun hne => hsent ?_) (hd.follows (by simp [hbus]))
  rw [fixedCount_concat]
  omega

theorem Sending.lawful (h : Sending noSof payload l v) : Lawful (foreignSof noSof ++ v) := by
  obtain ⟨w, hw, hlaw, hd⟩ := h.sampled
  cases hbus : l.bus with
  | none =>
    rw [hw, flight_none hbus, List.append_nil]
    exact hlaw
  | some stuff =>
    have hbit := h.flight hbus hw hd
    rw [hw, flight_some hbus, ← List.append_assoc]
    exact hlaw.concat hbit

/-! ## One cycle -/

theorem Opening.halts (h : Opening l) (hsend : sends l c = true) : halts l c = false := by
  have hfive : l.t.sameBitsQ ≠ 5 := by
    have := h.run.1
    omega
  simp [StuffLink.halts, BitStuffing.dataHalt, BitStuffing.insertStuffBit,
    BitStuffing.nonFixToFixChng, BitStuffing.stuffLvlReached, hsend, h.field, hfive]

theorem step_out (hsend : sends l c = false) : (step l c).t.dataOut = l.t.dataOut := by
  simp [StuffLink.step, BitStuffing.step, hsend]

/-- A bit is sent. -/
theorem Sending.send (h : Sending noSof payload l v) (hsend : sends l c = true) :
    Sending noSof payload (step l c)
      (v ++ [⟨⟨(step l c).t.dataOut, l.field⟩, StuffLink.halts l c⟩]) := by
  obtain ⟨hbus, hrx, hsample, p, ps, hrest⟩ := sends_ready hsend
  obtain ⟨w, hw, hlaw, hd⟩ := h.sampled
  rw [flight_none hbus, List.append_nil] at hw
  subst hw
  have hsound := (h.synced.phase_step (c := c)).1.send hsend
  have hfield : (StuffLink.step l c).field = l.field := by simp [StuffLink.step, takes, hrx]
  have hbus' : (StuffLink.step l c).bus = some (StuffLink.halts l c) := by
    simp [StuffLink.step, hsend]
  have hcount : fixedCount (onBus (foreignSof noSof ++
      (v ++ [⟨⟨(StuffLink.step l c).t.dataOut, l.field⟩, StuffLink.halts l c⟩]))) ≠ 0 →
      l.field = true := by
    rw [← List.append_assoc, onBus_concat, fixedCount_concat]
    intro hne
    cases hf : l.field
    · have hzero : fixedCount (onBus (foreignSof noSof ++ v)) = 0 := by
        by_contra hne'
        rw [h.fields.sent hne'] at hf
        cases hf
      simp [hzero, hf] at hne
    · rfl
  refine ⟨h.synced.step, fun hnil => absurd hnil (by simp), ?_, ?_, ?_, ?_, ?_⟩
  · rw [← List.append_assoc, onBus_concat]
    by_cases hne : onBus (foreignSof noSof ++ v) = []
    · -- the first bit is an own SOF
      have hnil : v = [] ∧ noSof = false := by
        cases noSof <;> simp_all [onBus, foreignSof]
      obtain ⟨ho, hno⟩ := h.opening hnil.1
      obtain ⟨b, hhead, hdom⟩ := ho.first
      have hout : (StuffLink.step l c).t.dataOut = false := by
        rw [hsound (ho.halts hsend), dataIn, hhead]
        exact hdom (hno.trans hnil.2)
      rw [hne, hout, ho.field]
      exact fun x hx => (Option.some.inj hx).symm
    · exact h.sof.concat hne
  · exact h.fields.step h.synced.sorted hcount
  · rw [← List.append_assoc, onBus_concat]
    refine List.pairwise_append.mpr ⟨h.sorted, List.pairwise_singleton _ _, ?_⟩
    intro x hx y hy hfix
    rw [List.mem_singleton.mp hy]
    exact h.fields.sent (Nat.pos_iff_ne_zero.mp (List.countP_pos_iff.mpr ⟨x, hx, hfix⟩))
  · rw [← h.payload, hrest]
    cases hh : StuffLink.halts l c
    · have hout : (StuffLink.step l c).t.dataOut = p.1 := by
        rw [hsound hh, dataIn, hrest]
        rfl
      have hnext : (StuffLink.step l c).rest = ps := by simp [StuffLink.step, hsend, hh, hrest]
      simp [List.filter_append, hout, hnext]
    · simp [List.filter_append, StuffLink.step, hsend, hh, hrest]
  · refine ⟨v, ?_, hlaw, hd.quiet hsample⟩
    rw [flight_some hbus', hfield]

/-- Without a new bit the one on the bus stays there, or is sampled. -/
theorem Sending.wait (h : Sending noSof payload l v) (hsend : sends l c = false) :
    Sending noSof payload (step l c) v := by
  obtain ⟨w, hw, hlaw, hd⟩ := h.sampled
  have hrest : (StuffLink.step l c).rest = l.rest := by simp [StuffLink.step, hsend]
  refine ⟨h.synced.step, fun hnil => ?_, h.sof, h.fields.step h.synced.sorted h.fields.sent,
    h.sorted, by rw [hrest]; exact h.payload, ?_⟩
  · obtain ⟨ho, hno⟩ := h.opening hnil
    have hsample : samples l c = false := by simp [samples, ho.bus]
    refine ⟨ho.step.2.resolve_right fun hfirst => ?_, ?_⟩
    · rcases hfirst.seen with ⟨hbus, -⟩ | ⟨-, hrx, -⟩
      · simp [StuffLink.step, hsend, hsample, ho.bus] at hbus
      · simp [StuffLink.step, hsample] at hrx
    · simp [StuffLink.step, takes, ho.rxTrig, hno]
  · cases hsample : samples l c with
    | false =>
      refine ⟨w, ?_, hlaw, hd.quiet hsample⟩
      have hbus : (StuffLink.step l c).bus = l.bus := by simp [StuffLink.step, hsend, hsample]
      cases hb : l.bus with
      | none => rw [hw, flight_none hb, flight_none (hbus.trans hb)]
      | some stuff =>
        have hrx := h.synced.flight_waits (by simp [hb])
        have hfield : (StuffLink.step l c).field = l.field := by simp [StuffLink.step, takes, hrx]
        rw [hw, flight_some hb, flight_some (hbus.trans hb), step_out hsend, hfield]
    | true =>
      have hbus : (StuffLink.step l c).bus = none := by simp [StuffLink.step, hsend, hsample]
      refine ⟨v, by rw [flight_none hbus, List.append_nil], h.lawful, .inl ?_⟩
      cases hb : l.bus with
      | none => simp [samples, hb] at hsample
      | some stuff =>
        have hv : onBus (foreignSof noSof ++ v) =
            onBus (foreignSof noSof ++ w) ++ [⟨l.t.dataOut, l.field⟩] := by
          rw [hw, flight_some hb, ← List.append_assoc, onBus_concat]
        have hsof := h.sof
        have hsent := h.fields.sent
        rw [hv] at hsof hsent ⊢
        refine (hd.follows (by simp [hb])).sample (i := rxInput l c) hsof (fun hne => hsent ?_)
          hsample rfl (h.flight hb hw hd).2
        rw [fixedCount_concat]
        omega

end Invariant

/-! ## The law -/

section Law

variable {reg fix : List SentBit}

/-- The law of stuffed output, for the part with regular stuffing from SOF on and the part with
fixed stuffing. -/
structure StuffedOutput (reg fix : List SentBit) : Prop where
  /-- No six equal bits in a row. -/
  noSix : ∀ b, ¬ List.replicate 6 b <:+: reg.map (fun x => x.bit)
  /-- A stuff bit comes only after five equal bits, and is their complement. -/
  regularStuff : ∀ front x back, reg = front ++ x :: back → x.stuff = true →
    ∃ b, List.replicate 5 b <:+ front.map (fun y => y.bit) ∧ x.bit = !b
  /-- Fixed stuff bits come first and after every four bits of the frame. -/
  fixedPosition : ∀ front x back, fix = front ++ x :: back →
    (x.stuff = true ↔ front.length % 5 = 0)
  /-- A fixed stuff bit is the complement of the bit before. -/
  fixedStuff : ∀ front x back, fix = front ++ x :: back → x.stuff = true →
    ((reg ++ front).map (fun y => y.bit)).getLast? = some (!x.bit)

theorem bits_onBus (v : List SentBit) : bits (onBus v) = v.map (fun x => x.bit) := by
  simp [bits, onBus]

theorem fixedCount_parts (hreg : ∀ x ∈ reg, x.fixed = false) (hfix : ∀ x ∈ fix, x.fixed = true) :
    fixedCount (onBus (reg ++ fix)) = fix.length := by
  have hzero : reg.countP (fun x => x.fixed) = 0 := by
    rw [List.countP_eq_zero]
    intro x hx
    simp [hreg x hx]
  have hall : fix.countP (fun x => x.fixed) = fix.length := List.countP_eq_length.mpr hfix
  have hsum : fixedCount (onBus (reg ++ fix)) =
      reg.countP (fun x => x.fixed) + fix.countP (fun x => x.fixed) := by
    simp [fixedCount, onBus, List.countP_map, Function.comp_def]
  omega

/-- The two parts of the output. -/
theorem sorted_parts {v : List SentBit} (h : Sorted (onBus v)) :
    v = v.filter (fun x => !x.fixed) ++ v.filter (fun x => x.fixed) := by
  induction v with
  | nil => rfl
  | cons x v ih =>
    obtain ⟨hx, hv⟩ := List.pairwise_cons.mp h
    cases hf : x.fixed
    · simpa [List.filter_cons, hf] using ih hv
    · have hall : ∀ y ∈ v, y.fixed = true := fun y hy => hx y.toBusBit (List.mem_map_of_mem hy) hf
      have hnone : v.filter (fun y => !y.fixed) = [] := by
        simpa [List.filter_eq_nil_iff] using hall
      simp [hf, hnone, List.filter_eq_self.mpr hall]

theorem Lawful.noSix (h : Lawful (reg ++ fix)) (hreg : ∀ x ∈ reg, x.fixed = false) (b : Bool) :
    ¬ List.replicate 6 b <:+: reg.map (fun x => x.bit) := by
  rintro ⟨s, t, heq⟩
  have hsplit : reg.map (fun x => x.bit) = (s ++ List.replicate 5 b) ++ b :: t := by
    rw [← heq, List.replicate_succ']
    simp
  obtain ⟨front, rest, rfl, hfront, hrest⟩ := List.map_eq_append_iff.mp hsplit
  obtain ⟨x, back, rfl, rfl, -⟩ := List.map_eq_cons_iff.mp hrest
  -- the sixth bit comes after five equal ones
  refine (h front x (back ++ fix) (by simp)).2 ?_
  rw [violates_regular (hreg x (by simp)), bits_onBus, hfront]
  exact List.suffix_append s _

theorem Lawful.regularStuff (h : Lawful (reg ++ fix)) (hreg : ∀ x ∈ reg, x.fixed = false)
    {front back : List SentBit} {x : SentBit} (heq : reg = front ++ x :: back)
    (hx : x.stuff = true) :
    ∃ b, List.replicate 5 b <:+ front.map (fun y => y.bit) ∧ x.bit = !b := by
  have hf : x.fixed = false := hreg x (by simp [heq])
  obtain ⟨hpos, hok⟩ := h front x (back ++ fix) (by simp [heq])
  rw [hf] at hpos
  obtain ⟨b, hb⟩ : FiveEqual (onBus front) := by simpa [StuffPosition] using hpos.mp hx
  rw [violates_regular hf] at hok
  rw [bits_onBus] at hb hok
  refine ⟨b, hb, ?_⟩
  cases b <;> cases hbit : x.bit <;> simp_all

theorem Lawful.fixedBit (h : Lawful (reg ++ fix)) (hreg : ∀ x ∈ reg, x.fixed = false)
    (hfix : ∀ x ∈ fix, x.fixed = true) {front back : List SentBit} {x : SentBit}
    (heq : fix = front ++ x :: back) :
    (x.stuff = true ↔ front.length % 5 = 0) ∧
      (front.length % 5 = 0 → ((reg ++ front).map (fun y => y.bit)).getLast? ≠ some x.bit) := by
  have hf : x.fixed = true := hfix x (by simp [heq])
  obtain ⟨hpos, hok⟩ := h (reg ++ front) x back (by simp [heq])
  have hcount : fixedCount (onBus (reg ++ front)) = front.length :=
    fixedCount_parts hreg fun y hy => hfix y (by simp [heq, hy])
  rw [violates_fixed hf, hcount, bits_onBus] at hok
  rw [hf, StuffPosition, if_pos rfl, hcount] at hpos
  exact ⟨hpos, fun h5 hlast => hok ⟨h5, hlast⟩⟩

theorem Lawful.stuffedOutput (h : Lawful (reg ++ fix)) (hreg : ∀ x ∈ reg, x.fixed = false)
    (hfix : ∀ x ∈ fix, x.fixed = true) (hne : fix ≠ [] → reg ≠ []) : StuffedOutput reg fix where
  noSix := h.noSix hreg
  regularStuff _ _ _ heq hx := h.regularStuff hreg heq hx
  fixedPosition _ _ _ heq := (h.fixedBit hreg hfix heq).1
  fixedStuff front x back heq hx := by
    obtain ⟨hpos, hdiff⟩ := h.fixedBit hreg hfix heq
    have hlast := hdiff (hpos.mp hx)
    have hsome : (reg ++ front).map (fun y => y.bit) ≠ [] := by
      simp [hne (by simp [heq])]
    rw [List.getLast?_eq_some_getLast hsome] at hlast ⊢
    cases hb : x.bit <;> simp_all

end Law

theorem sending_enable (t : BitStuffing) (d : BitDestuffing) {noSof x : Bool}
    (hx : noSof = false → x = false) (xs ys : List Bool) :
    Sending noSof (x :: xs ++ ys) (enable t d noSof (frame (x :: xs) ys)) [] := by
  refine ⟨synced_enable t d hx xs ys, fun _ => ⟨opening_enable t d hx xs ys, rfl⟩, ?_, ⟨?_, nofun⟩,
    ?_, ?_, ⟨[], rfl, ?_, .inr ⟨rfl, rfl, rfl, rfl⟩⟩⟩
  · cases noSof with
    | false => exact nofun
    | true => exact fun y hy => (Option.some.inj hy).symm
  · cases noSof <;> exact fun hne => absurd rfl hne
  · cases noSof <;> decide
  · exact frame_bits (x :: xs) ys
  · rw [List.append_nil]
    exact lawful_foreignSof noSof

theorem Sending.step {noSof : Bool} {payload : List Bool} {l : Link} {v : List SentBit}
    (h : Sending noSof payload l v) (c : Cycle) :
    Sending noSof payload (sentStep (l, v) c).1 (sentStep (l, v) c).2 := by
  cases hsend : sends l c with
  | false =>
    have hv : (sentStep (l, v) c).2 = v := by simp [sentStep, watched, record, hsend]
    rw [hv]
    exact h.wait hsend
  | true =>
    have hv : (sentStep (l, v) c).2 =
        v ++ [⟨⟨(StuffLink.step l c).t.dataOut, l.field⟩, StuffLink.halts l c⟩] := by
      simp [sentStep, watched, record, hsend]
    rw [hv]
    exact h.send hsend

/-- What `bit_stuffing` sends, with SOF, keeps to the law, for every frame, both ways to start it
and every timing; without the stuff bits it is the frame. -/
theorem stuffed_output_law (t : BitStuffing) (d : BitDestuffing) (noSof x : Bool)
    (hx : noSof = false → x = false) (xs ys : List Bool) (cs : List Cycle) :
    let q := run sentStep (enable t d noSof (frame (x :: xs) ys), []) cs
    (∃ reg fix, foreignSof noSof ++ q.2 = reg ++ fix ∧ (∀ y ∈ reg, y.fixed = false) ∧
      (∀ y ∈ fix, y.fixed = true) ∧ StuffedOutput reg fix) ∧
      (q.2.filter fun y => !y.stuff).map (fun y => y.bit) ++ q.1.rest.map Prod.fst =
        x :: xs ++ ys := by
  intro q
  have h : Sending noSof (x :: xs ++ ys) q.1 q.2 :=
    run_invariant sentStep (fun _ _ => True) (fun p => Sending noSof (x :: xs ++ ys) p.1 p.2)
      (fun p c hp _ => hp.step c) (sending_enable t d hx xs ys) cs (admits_true _ _ cs)
  refine ⟨⟨_, _, sorted_parts h.sorted, ?_, ?_, ?_⟩, h.payload⟩
  · intro y hy
    simpa using (List.mem_filter.mp hy).2
  · intro y hy
    exact (List.mem_filter.mp hy).2
  · have hlaw := h.lawful
    rw [sorted_parts h.sorted] at hlaw
    refine hlaw.stuffedOutput (fun y hy => by simpa using (List.mem_filter.mp hy).2)
      (fun y hy => (List.mem_filter.mp hy).2) fun hfix hreg => ?_
    -- SOF has regular stuffing
    cases hv : foreignSof noSof ++ q.2 with
    | nil => exact hfix (by rw [hv]; rfl)
    | cons y ys =>
      have hy : y.toBusBit = ⟨false, false⟩ := h.sof y.toBusBit (by simp [onBus, hv])
      have hyf : y.fixed = false := congrArg BusBit.fixed hy
      simp [hv, hyf] at hreg

/-- Four dominant bits after the dominant bit taken as SOF, and a change to fixed stuffing where a
regular stuff bit is due. -/
theorem stuffed_output_law_change :
    let q := run sentStep (enable BitStuffing.reset BitDestuffing.reset true
      (frame (false :: [false, false, false]) [true, false]), [])
      (schedule (List.replicate 8 (1, 1)))
    (∃ reg fix, foreignSof true ++ q.2 = reg ++ fix ∧ (∀ y ∈ reg, y.fixed = false) ∧
      (∀ y ∈ fix, y.fixed = true) ∧ StuffedOutput reg fix) ∧
      (q.2.filter fun y => !y.stuff).map (fun y => y.bit) ++ q.1.rest.map Prod.fst =
        false :: [false, false, false] ++ [true, false] :=
  stuffed_output_law BitStuffing.reset BitDestuffing.reset true false nofun [false, false, false]
    [true, false] (schedule (List.replicate 8 (1, 1)))


/-- The bits sent in that run: the stuff bit of the change is the complement of five dominant
bits. -/
example :
    ((run sentStep (enable BitStuffing.reset BitDestuffing.reset true
      (frame (false :: [false, false, false]) [true, false]), [])
      (schedule (List.replicate 8 (1, 1)))).2.map fun y => (y.bit, y.stuff)) =
      [(false, false), (false, false), (false, false), (false, false), (true, true), (true, false),
        (false, false)] := by
  decide

end StuffLink

/-! ## The first bit of a frame

In a start without SOF the first bit handed to `bit_stuffing` has regular stuffing: protocol
control asks for fixed stuffing in the stuff count and the CRC only.
-/

namespace ProtocolControl

variable {c : Config} {q : Regs} {i : Input}

theorem fixedStuff_state (h : (out c q i).fixedStuff = true) :
    q.currState = .stuffCount ∨ q.currState = .crc := by
  obtain ⟨-, h⟩ := out_active Out.fixedStuff rfl h
  cases hq : q.currState <;> rw [hq] at h <;>
    first | exact .inl rfl | exact .inr rfl | cases h | skip
  simp [outState, outOff, apply_ite Out.fixedStuff] at h

theorem txFrameNoSofD_state (h : (out c q i).txFrameNoSofD = true) :
    q.currState = .intermission ∨ q.currState = .idle := by
  obtain ⟨-, h⟩ := out_active Out.txFrameNoSofD rfl h
  cases hq : q.currState <;> rw [hq] at h <;>
    first | exact .inl rfl | exact .inr rfl | cases h | skip
  simp [outState, outOff, apply_ite Out.txFrameNoSofD] at h

/-- The request of a start without SOF is over before the stuff count and the CRC. -/
def NoSofFirst (q : Regs) : Prop :=
  q.txFrameNoSofQ = true → q.currState ≠ .stuffCount ∧ q.currState ≠ .crc

theorem NoSofFirst.step (h : NoSofFirst q) : NoSofFirst (step c q i) := by
  intro hn
  cases he : i.errFrmReq with
  | true =>
    have hafter : ∀ s : PcState, s.afterError → s ≠ .stuffCount ∧ s ≠ .crc := by decide
    exact hafter _ (step_err he)
  | false =>
    cases ht : i.rxTrigger with
    | false =>
      rw [step_hold ht he]
      exact h (by simpa [ProtocolControl.step, ht] using hn)
    | true =>
      have hstart : q.currState = .intermission ∨ q.currState = .idle :=
        txFrameNoSofD_state (by simpa [ProtocolControl.step, ht] using hn)
      have hedge : ∀ s t : PcState, s = .intermission ∨ s = .idle → t = s ∨ t ∈ s.successors →
          t ≠ .stuffCount ∧ t ≠ .crc := by
        decide +kernel
      exact hedge _ _ hstart ((step_flow he).imp_right And.right)

/-- In no run is fixed stuffing asked for together with a start without SOF. -/
theorem noSof_regular (c : Config) (is : List Input) (i : Input)
    (hn : (run (step c) ProtocolControl.reset is).txFrameNoSofQ = true) :
    (out c (run (step c) ProtocolControl.reset is) i).fixedStuff = false := by
  have h : NoSofFirst (run (step c) ProtocolControl.reset is) :=
    run_invariant (step c) (fun _ _ => True) NoSofFirst (fun _ _ hq _ => hq.step)
      (fun h => absurd h (by decide)) is (admits_true _ _ is)
  by_contra hf
  rcases fixedStuff_state (by simpa using hf) with hs | hs
  · exact (h hn).1 hs
  · exact (h hn).2 hs

end ProtocolControl
