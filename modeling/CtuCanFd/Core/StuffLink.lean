import CtuCanFd.Core.Blocks
import CtuCanFd.Lib.SyncMachine

/-!
# Destuffing inverts stuffing

The output of `bit_stuffing` is wired to the input of `bit_destuffing`. A bit is sent
at a TX trigger and sampled before the next one, with any number of cycles in between.
Protocol control takes a sampled bit one cycle later unless it was destuffed; this is
when it goes on to a field with fixed stuffing, and when it takes back the request of a
start without SOF.
-/

namespace StuffLink

/-- What happens in a cycle: a TX trigger, a sample point, or neither. -/
inductive Cycle where
  | send
  | sample
  | wait
deriving DecidableEq, Repr

/-- Both circuits, what is still to be sent (each bit with the kind of stuffing of its
field, fixed or regular), and what has been observed. -/
structure Link where
  t : BitStuffing
  d : BitDestuffing
  rest : List (Bool × Bool)
  /-- `fixed_stuff`, driven by the field protocol control is in. -/
  field : Bool
  /-- `tx_frame_no_sof`. -/
  noSof : Bool
  rxTrigQ : Bool
  /-- The bit on the bus that is not sampled yet, and whether it is a stuff bit. -/
  bus : Option Bool
  inserted : List Bool
  destuffed : List Bool
  received : List Bool
  stuffErr : Bool
  /-- Stuff bits inserted with regular stuffing. -/
  regular : Nat
deriving DecidableEq, Repr

/-- Next bit of the frame; the shift register has moved on after a TX trigger. -/
def dataIn (l : Link) : Bool := (l.rest.head?.map Prod.fst).getD true

def headField (l : Link) : Bool := (l.rest.head?.map Prod.snd).getD l.field

/-- A bit is sent while there is one, the last bit was sampled and protocol control has
taken it. -/
def sends (l : Link) (c : Cycle) : Bool :=
  c == .send && !l.rest.isEmpty && l.bus.isNone && !l.rxTrigQ

def samples (l : Link) (c : Cycle) : Bool := c == .sample && l.bus.isSome

def txInput (l : Link) (c : Cycle) : BitStuffing.Input where
  dataIn := dataIn l
  bstTrigger := sends l c
  stuffEnable := true
  fixedStuff := l.field
  txFrameNoSof := l.noSof

def rxInput (l : Link) (c : Cycle) : BitDestuffing.Input where
  dataIn := l.t.dataOut
  bdsTrigger := samples l c
  destuffEnable := true
  fixedStuff := l.field

section

variable (l : Link) (c : Cycle)

@[simp] theorem txInput_dataIn : (txInput l c).dataIn = dataIn l := rfl
@[simp] theorem txInput_trigger : (txInput l c).bstTrigger = sends l c := rfl
@[simp] theorem txInput_enable : (txInput l c).stuffEnable = true := rfl
@[simp] theorem txInput_fixed : (txInput l c).fixedStuff = l.field := rfl
@[simp] theorem txInput_noSof : (txInput l c).txFrameNoSof = l.noSof := rfl
@[simp] theorem rxInput_dataIn : (rxInput l c).dataIn = l.t.dataOut := rfl
@[simp] theorem rxInput_trigger : (rxInput l c).bdsTrigger = samples l c := rfl
@[simp] theorem rxInput_enable : (rxInput l c).destuffEnable = true := rfl
@[simp] theorem rxInput_fixed : (rxInput l c).fixedStuff = l.field := rfl

end

/-- `pc_rx_trigger`. -/
def takes (l : Link) : Bool := l.rxTrigQ && !l.d.destuffedQ

def halts (l : Link) (c : Cycle) : Bool := l.t.dataHalt (txInput l c)

def step (l : Link) (c : Cycle) : Link :=
  let d' := l.d.step (rxInput l c)
  { t := l.t.step (txInput l c)
    d := d'
    rest := if sends l c && !halts l c then l.rest.tail else l.rest
    field := if takes l then headField l else l.field
    noSof := l.noSof && !takes l
    rxTrigQ := samples l c
    bus := if sends l c then some (halts l c) else if samples l c then none else l.bus
    inserted := if sends l c then l.inserted ++ [halts l c] else l.inserted
    destuffed := if samples l c then l.destuffed ++ [d'.destuffedQ] else l.destuffed
    received :=
      if samples l c && !d'.destuffedQ then l.received ++ [d'.dataOut] else l.received
    stuffErr := l.stuffErr || d'.stuffErrQ
    regular := if sends l c && halts l c && !l.field then l.regular + 1 else l.regular }

/-! ## One bit of lead

`bit_stuffing` is level with `bit_destuffing` when every bit sent was sampled, and one bit
ahead in between. Unlike in a frame with regular stuffing alone, the previous bits that
the circuits keep may differ: after the stuff bit at the change to fixed stuffing
`bit_destuffing` keeps a recessive bit whatever was on the bus.
-/

/-- Runs of equal bits when every bit sent was sampled. `b` is the bit sent next, and
`n` counts the regular stuff bits. After a start without SOF the run of `bit_stuffing` is
preset from the bit sent next; it is wrong when that bit ends the run. -/
structure Level (t : BitStuffing) (d : BitDestuffing) (b : Bool) (n : Nat) : Prop where
  enabled : t.enablePrev = true ∧ d.enablePrev = true
  fixed : d.fixedPrevQ = t.fixedRegQ
  low : d.sameBitsQ ≤ 5
  same : t.sameBitsQ = d.sameBitsQ ∧
      (d.prevValQ = t.dataOut ∨ (t.fixedRegQ = true ∧ t.sameBitsQ = 1)) ∨
    t.sameBitsQ ≤ 2 ∧ d.sameBitsQ ≤ 2 ∧ d.prevValQ = t.dataOut ∧ b ≠ t.dataOut ∧
      t.fixedRegQ = false
  ctr : t.bstCtrQ = n % 8 ∧ d.dstCtrQ = n % 8

/-- One bit was sent in a field with fixed stuffing or not, `stuff` tells whether it is a
stuff bit, and `n` counts the regular stuff bits before it. -/
structure Ahead (t : BitStuffing) (d : BitDestuffing) (field stuff : Bool) (n : Nat) : Prop where
  enabled : t.enablePrev = true ∧ d.enablePrev = true
  fixed : t.fixedRegQ = field
  low : d.sameBitsQ ≤ 5
  due : stuff = (field && !d.fixedPrevQ || d.sameBitsQ == 5)
  differs : stuff = true → t.dataOut = !d.prevValQ
  same : t.sameBitsQ =
    if stuff = true ∨ (t.dataOut ≠ d.prevValQ ∧ field = false) then 1 else d.sameBitsQ + 1
  ctr : t.bstCtrQ = (if stuff && !field then n + 1 else n) % 8 ∧ d.dstCtrQ = n % 8

section Lead

variable {t : BitStuffing} {d : BitDestuffing} {i : BitStuffing.Input} {j : BitDestuffing.Input}
  {b field stuff : Bool} {n : Nat}

theorem Level.five (h : Level t d b n) : t.sameBitsQ = 5 ↔ d.sameBitsQ = 5 := by
  rcases h.same with ⟨heq, -⟩ | ⟨ht, hd, -⟩
  · rw [heq]
  · omega

theorem Level.dataHalt (h : Level t d b n) (ht : i.bstTrigger = true)
    (he : i.stuffEnable = true) :
    t.dataHalt i = (i.fixedStuff && !d.fixedPrevQ || d.sameBitsQ == 5) := by
  have h5 : (t.sameBitsQ == 5) = (d.sameBitsQ == 5) := by
    rw [Bool.eq_iff_iff, beq_iff_eq, beq_iff_eq, h.five]
  simp [BitStuffing.dataHalt, BitStuffing.insertStuffBit, BitStuffing.nonFixToFixChng,
    BitStuffing.stuffLvlReached, ht, he, h.enabled.1, h.fixed, h5]

/-- A TX trigger with a stuff bit due. -/
theorem Level.send_stuff (h : Level t d b n) (ht : i.bstTrigger = true)
    (he : i.stuffEnable = true) (hn : i.txFrameNoSof = false) (hs : t.dataHalt i = true) :
    Ahead (t.step i) d i.fixedStuff true n ∧ (t.step i).dataOut = !t.dataOut := by
  have hdue := h.dataHalt ht he
  rw [hs] at hdue
  have hins : t.insertStuffBit i = true := by
    simpa [BitStuffing.dataHalt, ht, he, h.enabled.1] using hs
  have hout : (t.step i).dataOut = !t.dataOut := by simp [BitStuffing.step, ht, he, hins]
  -- After the change to fixed stuffing the run is too short for another stuff bit.
  have hval : d.prevValQ = t.dataOut := by
    rcases h.same with ⟨heq, hv | ⟨hfix, h1⟩⟩ | ⟨-, -, hv, -⟩
    · exact hv
    · rw [← h.fixed] at hfix
      simp [hfix, ← heq, h1] at hdue
    · exact hv
  have hone : (t.step i).sameBitsQ = 1 := by
    have hrst : t.sameBitsRst i = true := by
      simp only [BitStuffing.sameBitsRst, ht, Bool.true_and]
      simp only [BitStuffing.insertStuffBit] at hins
      simp [hins]
    simp [BitStuffing.step, BitStuffing.sameBitsD, he, hn, hrst]
  refine ⟨⟨⟨he, h.enabled.2⟩, ?_, h.low, hdue, ?_, ?_, ?_, h.ctr.2⟩, hout⟩
  · simp [BitStuffing.step, he, h.enabled.1, ht]
  · intro _
    rw [hout, hval]
  · simp [hone]
  · -- A stuff bit outside a field with fixed stuffing is there for the run.
    cases hfs : i.fixedStuff
    · have h5 : t.stuffLvlReached = true := by
        simpa [BitStuffing.insertStuffBit, BitStuffing.nonFixToFixChng, hfs] using hins
      simp [BitStuffing.step, he, h.enabled.1, ht, h5, hfs, h.ctr.1]
    · simp [BitStuffing.step, he, h.enabled.1, hfs, h.ctr.1]

/-- A TX trigger with no stuff bit due. -/
theorem Level.send_data (h : Level t d i.dataIn n) (ht : i.bstTrigger = true)
    (he : i.stuffEnable = true) (hn : i.txFrameNoSof = false)
    (hf : t.fixedRegQ = true → i.fixedStuff = true) (hs : t.dataHalt i = false) :
    Ahead (t.step i) d i.fixedStuff false n ∧ (t.step i).dataOut = i.dataIn := by
  have hdue := h.dataHalt ht he
  rw [hs] at hdue
  have hins : t.insertStuffBit i = false := by
    simpa [BitStuffing.dataHalt, ht, he, h.enabled.1] using hs
  have hlvl : t.stuffLvlReached = false := by
    simp only [BitStuffing.insertStuffBit, Bool.or_eq_false_iff] at hins
    exact hins.2
  have hd5 : d.sameBitsQ ≠ 5 := by
    intro h5
    simp [h5] at hdue
  have hout : (t.step i).dataOut = i.dataIn := by simp [BitStuffing.step, ht, hins]
  refine ⟨⟨⟨he, h.enabled.2⟩, ?_, h.low, hdue, nofun, ?_, ?_, h.ctr.2⟩, hout⟩
  · simp [BitStuffing.step, he, h.enabled.1, ht]
  · have hrst : t.sameBitsRst i = (i.dataIn != t.dataOut && !i.fixedStuff) := by
      simp only [BitStuffing.insertStuffBit] at hins
      simp [BitStuffing.sameBitsRst, h.enabled.1, ht, hins]
    have hcount : (t.step i).sameBitsQ =
        if i.dataIn != t.dataOut && !i.fixedStuff then 1 else (t.sameBitsQ + 1) % 8 := by
      simp [BitStuffing.step, BitStuffing.sameBitsD, he, hn, hrst, ht]
    have hlow := h.low
    rw [hcount, hout]
    rcases h.same with ⟨heq, hv | ⟨hfix, h1⟩⟩ | ⟨-, -, hv, hne, hfix⟩
    · have hlt : (d.sameBitsQ + 1) % 8 = d.sameBitsQ + 1 := by omega
      cases hfs : i.fixedStuff <;> simp [hv, heq, hlt]
    · simp [hf hfix, ← heq, h1]
    · cases hfs : i.fixedStuff
      · simp [hne, hv]
      · -- The stuff bit of the change to fixed stuffing would be due.
        simp [h.fixed, hfix, hfs] at hdue
  · simp [BitStuffing.step, he, h.enabled.1, hlvl, h.ctr.1]

/-- Without a TX trigger the level, or the lead, is kept. -/
theorem stuffing_quiet (ht : i.bstTrigger = false) (he : i.stuffEnable = true)
    (hn : i.txFrameNoSof = false) (hp : t.enablePrev = true) :
    ∃ halt, t.step i = { t with dataHaltQ := halt } := by
  refine ⟨t.dataHalt i, ?_⟩
  obtain ⟨en, fx, ctr, sm, out, hq⟩ := t
  simp_all [BitStuffing.step, BitStuffing.sameBitsD, BitStuffing.sameBitsRst]

theorem destuffing_quiet (ht : j.bdsTrigger = false) (he : j.destuffEnable = true)
    (hp : d.enablePrev = true) : d.step j = { d with stuffErrQ := false } := by
  obtain ⟨en, fx, ctr, sm, ds, se, pv, out⟩ := d
  simp_all [BitDestuffing.step, BitDestuffing.sameBitsErase]

/-- A sample point takes the bit sent: it is destuffed exactly when it is a stuff bit, and
the circuits are level again. -/
theorem Ahead.sample (h : Ahead t d field stuff n) (ht : j.bdsTrigger = true)
    (he : j.destuffEnable = true) (hin : j.dataIn = t.dataOut) (hfs : j.fixedStuff = field) :
    (d.step j).destuffedQ = stuff ∧ (d.step j).stuffErrQ = false ∧
      Level t (d.step j) b (if stuff && !field then n + 1 else n) := by
  have hdis : d.discardStuffBit j = stuff := by
    rw [h.due]
    simp [BitDestuffing.discardStuffBit, BitDestuffing.nonFixToFixChng,
      BitDestuffing.stuffLvlReached, hfs]
  have hstuffed : (d.step j).destuffedQ = stuff := by simp [BitDestuffing.step, he, ht, hdis]
  have hlow := h.low
  have hsame : (d.step j).sameBitsQ = t.sameBitsQ := by
    have herase : d.sameBitsErase j = (stuff || (t.dataOut != d.prevValQ && !field)) := by
      simp [BitDestuffing.sameBitsErase, he, h.enabled.2, ht, hdis, hin, hfs]
    rw [h.same]
    simp only [BitDestuffing.step, herase, ht]
    cases hs : stuff
    · have h5 : d.sameBitsQ ≠ 5 := by
        intro h5
        have hdue := h.due
        simp [hs, h5] at hdue
      have hlt : (d.sameBitsQ + 1) % 8 = d.sameBitsQ + 1 := by omega
      cases hf : field <;> simp [hlt]
    · simp
  refine ⟨hstuffed, ?_, ⟨h.enabled.1, he⟩, ?_, ?_, .inl ⟨hsame.symm, ?_⟩, h.ctr.1, ?_⟩
  · cases hs : stuff
    · simp [BitDestuffing.step, ht, BitDestuffing.stuffRuleViolate, hdis, hs]
    · simp [BitDestuffing.step, ht, BitDestuffing.stuffRuleViolate, hin, h.differs hs]
  · simp [BitDestuffing.step, he, h.enabled.2, ht, hfs, h.fixed]
  · rw [hsame, h.same]
    split
    · omega
    · have h5 : d.sameBitsQ ≠ 5 := by
        intro h5
        have hdue := h.due
        simp_all
      omega
  · -- At the change to fixed stuffing destuffing keeps a recessive bit.
    cases hchg : d.nonFixToFixChng j
    · left
      simp [BitDestuffing.step, ht, hchg, hin]
    · right
      have hst : stuff = true := by
        rw [← hdis]
        simp [BitDestuffing.discardStuffBit, hchg]
      have hfield : field = true := by
        simp only [BitDestuffing.nonFixToFixChng, Bool.and_eq_true, hfs] at hchg
        exact hchg.1
      refine ⟨by rw [h.fixed, hfield], ?_⟩
      rw [h.same, if_pos (.inl hst)]
  · have hdue := h.due
    cases hf : field
    · rw [hf, Bool.false_and, Bool.false_or] at hdue
      rw [hdue]
      by_cases h5 : d.sameBitsQ = 5
      · simp [BitDestuffing.step, he, h.enabled.2, ht, BitDestuffing.stuffLvlReached, hfs, hf,
          h.ctr.2, h5]
      · simp [BitDestuffing.step, he, h.enabled.2, BitDestuffing.stuffLvlReached, h.ctr.2, h5]
    · simp [BitDestuffing.step, he, h.enabled.2, hfs, hf, h.ctr.2]

theorem Level.clear (h : Level t d b n) (halt err : Bool) :
    Level { t with dataHaltQ := halt } { d with stuffErrQ := err } b n :=
  ⟨h.enabled, h.fixed, h.low, h.same, h.ctr⟩

theorem Ahead.clear (h : Ahead t d field stuff n) (halt err : Bool) :
    Ahead { t with dataHaltQ := halt } { d with stuffErrQ := err } field stuff n :=
  ⟨h.enabled, h.fixed, h.low, h.due, h.differs, h.same, h.ctr⟩

end Lead

/-! ## The two ways to start -/

/-- Bits of a frame: with regular stuffing up to some position and fixed from there. -/
def frame (xs ys : List Bool) : List (Bool × Bool) :=
  xs.map (fun b => (b, false)) ++ ys.map (fun b => (b, true))

/-- Both circuits are enabled in this cycle. Until then recessive bits were sent. With an
own SOF the last bit sampled was recessive as well; without one it was the dominant bit
that was taken as SOF. -/
def enable (t : BitStuffing) (d : BitDestuffing) (noSof : Bool) (bits : List (Bool × Bool)) :
    Link where
  t := { t with enablePrev := false, sameBitsQ := 1, dataOut := true }
  d := { d with enablePrev := false, sameBitsQ := 1, prevValQ := !noSof }
  rest := bits
  field := (bits.head?.map Prod.snd).getD false
  noSof := noSof
  rxTrigQ := false
  bus := none
  inserted := []
  destuffed := []
  received := []
  stuffErr := false
  regular := 0

/-- Before the first bit. -/
structure Opening (l : Link) : Prop where
  bus : l.bus = none
  rxTrig : l.rxTrigQ = false
  field : l.field = false
  first : ∃ b, l.rest.head? = some (b, false) ∧ (l.noSof = false → b = false)
  recessive : l.t.dataOut = true
  run : l.t.sameBitsQ ≤ 2 ∧ (l.noSof = false → l.t.sameBitsQ = 1)
  seen : l.d.prevValQ = !l.noSof ∧ l.d.sameBitsQ = 1
  t : l.t.enablePrev = true → l.t.fixedRegQ = false ∧ l.t.bstCtrQ = 0
  d : l.d.enablePrev = true → l.d.fixedPrevQ = false ∧ l.d.dstCtrQ = 0
  regular : l.regular = 0

/-- The first bit is on the bus, or protocol control is about to take it. -/
structure First (l : Link) : Prop where
  enabled : l.t.enablePrev = true ∧ l.d.enablePrev = true
  fixed : l.t.fixedRegQ = false ∧ l.d.fixedPrevQ = false
  field : l.field = false
  run : l.t.sameBitsQ ≤ 2 ∧ (l.noSof = false → l.t.sameBitsQ = 1)
  dominant : l.noSof = false → l.t.dataOut = false
  ctr : l.t.bstCtrQ = 0 ∧ l.d.dstCtrQ = 0
  regular : l.regular = 0
  seen : l.bus = some false ∧ l.rxTrigQ = false ∧ l.d.prevValQ = !l.noSof ∧ l.d.sameBitsQ = 1 ∨
    l.bus = none ∧ l.rxTrigQ = true ∧ l.d.destuffedQ = false ∧ l.d.prevValQ = l.t.dataOut ∧
      l.d.sameBitsQ = if l.noSof && !l.t.dataOut then 2 else 1

/-- After the first bit. -/
inductive Lead (l : Link) : Prop where
  | level (h : Level l.t l.d (dataIn l) l.regular) (hbus : l.bus = none)
      (hfield : takes l = false → headField l = l.field)
  | ahead {stuff : Bool} {n : Nat} (h : Ahead l.t l.d l.field stuff n) (hbus : l.bus = some stuff)
      (hn : l.regular = if stuff && !l.field then n + 1 else n) (hrx : l.rxTrigQ = false)
      (hfield : stuff = true → headField l = l.field)

/-- Fixed stuffing is not left again. -/
def Kept (l : Link) : Prop := l.t.fixedRegQ = true → ∀ p ∈ l.rest, p.2 = true

section Step

variable {l : Link} {c : Cycle}

theorem sends_ready (h : sends l c = true) :
    l.bus = none ∧ l.rxTrigQ = false ∧ samples l c = false ∧ ∃ p ps, l.rest = p :: ps := by
  simp only [sends, Bool.and_eq_true, beq_iff_eq, Bool.not_eq_true', Option.isNone_iff_eq_none] at h
  obtain ⟨⟨⟨rfl, hrest⟩, hbus⟩, hrx⟩ := h
  refine ⟨hbus, hrx, rfl, ?_⟩
  cases hr : l.rest with
  | nil => simp [hr] at hrest
  | cons p ps => exact ⟨p, ps, rfl⟩

/-- The bit on the bus, unless it is a stuff bit. -/
def inFlight (l : Link) : List Bool := if l.bus = some false then [l.t.dataOut] else []

/-- What a cycle does right: a bit that is not a stuff bit is the next one, and a sampled
bit is destuffed exactly when it is a stuff bit. -/
structure Sound (l : Link) (c : Cycle) : Prop where
  send : sends l c = true → halts l c = false → (step l c).t.dataOut = dataIn l
  sample : samples l c = true →
    l.bus = some (step l c).d.destuffedQ ∧ (step l c).d.stuffErrQ = false

/-- What was observed so far. -/
structure Observed (bits : List Bool) (l : Link) : Prop where
  noErr : l.stuffErr = false
  bits : l.received ++ inFlight l ++ l.rest.map Prod.fst = bits
  marks : l.inserted = l.destuffed ++ l.bus.toList

theorem Observed.step {bits : List Bool} (h : Observed bits l) (hs : Sound l c) :
    Observed bits (step l c) := by
  have hbits := h.bits
  have hmarks := h.marks
  by_cases hsend : sends l c = true
  · obtain ⟨hbus, hrx, hsample, p, ps, hrest⟩ := sends_ready hsend
    have hquiet : (StuffLink.step l c).d.stuffErrQ = false := by
      simp [StuffLink.step, BitDestuffing.step, hsample]
    rw [inFlight, hbus, hrest] at hbits
    rw [hbus] at hmarks
    refine ⟨?_, ?_, ?_⟩
    · exact Bool.or_eq_false_iff.mpr ⟨h.noErr, hquiet⟩
    · cases hh : halts l c
      · have hout := hs.send hsend hh
        have hp : dataIn l = p.1 := by simp [dataIn, hrest]
        have hfly : inFlight (StuffLink.step l c) = [p.1] := by
          rw [inFlight, hout, hp]
          simp [StuffLink.step, hsend, hh]
        rw [hfly]
        simpa [StuffLink.step, hsend, hsample, hh, hrest] using hbits
      · have hfly : inFlight (StuffLink.step l c) = [] := by
          simp [inFlight, StuffLink.step, hsend, hh]
        rw [hfly]
        simpa [StuffLink.step, hsample, hh, hrest] using hbits
    · simpa [StuffLink.step, hsend, hsample] using hmarks
  · rw [Bool.not_eq_true] at hsend
    have hout : (StuffLink.step l c).t.dataOut = l.t.dataOut := by
      simp [StuffLink.step, BitStuffing.step, hsend]
    by_cases hsample : samples l c = true
    · obtain ⟨hbus, herr⟩ := hs.sample hsample
      have hd : (StuffLink.step l c).d.dataOut = l.t.dataOut := by
        simp [StuffLink.step, BitDestuffing.step, hsample]
      have hfly : inFlight (StuffLink.step l c) = [] := by
        simp [inFlight, StuffLink.step, hsend, hsample]
      refine ⟨Bool.or_eq_false_iff.mpr ⟨h.noErr, herr⟩, ?_, ?_⟩
      · rw [hfly]
        rw [inFlight, hbus] at hbits
        simp only [StuffLink.step] at hd
        cases hq : (l.d.step (rxInput l c)).destuffedQ
        · simpa [StuffLink.step, hsend, hsample, hq, hd] using hbits
        · simpa [StuffLink.step, hsend, hsample, hq] using hbits
      · rw [hbus] at hmarks
        simpa [StuffLink.step, hsend, hsample] using hmarks
    · rw [Bool.not_eq_true] at hsample
      have hquiet : (StuffLink.step l c).d.stuffErrQ = false := by
        simp [StuffLink.step, BitDestuffing.step, hsample]
      refine ⟨Bool.or_eq_false_iff.mpr ⟨h.noErr, hquiet⟩, ?_, ?_⟩
      · have hfly : inFlight (StuffLink.step l c) = inFlight l := by
          rw [inFlight, hout]
          simp [inFlight, StuffLink.step, hsend, hsample]
        rw [hfly]
        simpa [StuffLink.step, hsend, hsample] using hbits
      · simpa [StuffLink.step, hsend, hsample] using hmarks

/-- The first bit is never a stuff bit. -/
theorem Opening.step (h : Opening l) :
    Sound l c ∧ (Opening (step l c) ∨ First (step l c)) := by
  obtain ⟨b, hhead, hdom⟩ := h.first
  have hsample : samples l c = false := by simp [samples, h.bus]
  have htakes : takes l = false := by simp [takes, h.rxTrig]
  have hfive : l.t.sameBitsQ ≠ 5 := by
    have := h.run.1
    omega
  have hins : l.t.insertStuffBit (txInput l c) = false := by
    simp [BitStuffing.insertStuffBit, BitStuffing.nonFixToFixChng, BitStuffing.stuffLvlReached,
      h.field, hfive]
  have hin : dataIn l = b := by simp [dataIn, hhead]
  have hhalt : sends l c = true → halts l c = false := by
    intro hsend
    simp [halts, BitStuffing.dataHalt, hins, hsend]
  have hfixT : (StuffLink.step l c).t.fixedRegQ = false := by
    cases hp : l.t.enablePrev
    · simp [StuffLink.step, BitStuffing.step, hp]
    · simp [StuffLink.step, BitStuffing.step, hp, h.field, h.t hp]
  have hfixD : (StuffLink.step l c).d.fixedPrevQ = false := by
    cases hp : l.d.enablePrev
    · simp [StuffLink.step, BitDestuffing.step, hp]
    · simp [StuffLink.step, BitDestuffing.step, hp, h.field, h.d hp]
  have hctrT : (StuffLink.step l c).t.bstCtrQ = 0 := by
    cases hp : l.t.enablePrev
    · simp [StuffLink.step, BitStuffing.step, hp]
    · simp [StuffLink.step, BitStuffing.step, hp, BitStuffing.stuffLvlReached, hfive,
        h.t hp]
  have hctrD : (StuffLink.step l c).d.dstCtrQ = 0 := by
    cases hp : l.d.enablePrev
    · simp [StuffLink.step, BitDestuffing.step, hp]
    · simp [StuffLink.step, BitDestuffing.step, hp, hsample, h.d hp]
  have hrun : (StuffLink.step l c).t.sameBitsQ ≤ 2 ∧
      (l.noSof = false → (StuffLink.step l c).t.sameBitsQ = 1) := by
    cases hn : l.noSof
    · have hone : (StuffLink.step l c).t.sameBitsQ = 1 := by
        simp [StuffLink.step, BitStuffing.step, BitStuffing.sameBitsD, BitStuffing.sameBitsRst, hn,
          hin, hdom hn, h.recessive, h.field, h.run.2 hn]
      rw [hone]
      decide
    · have hpreset : (StuffLink.step l c).t.sameBitsQ = if !dataIn l then 2 else 1 := by
        simp [StuffLink.step, BitStuffing.step, BitStuffing.sameBitsD, hn]
      refine ⟨?_, nofun⟩
      rw [hpreset]
      split <;> decide
  have hseen : (StuffLink.step l c).d.prevValQ = !l.noSof ∧
      (StuffLink.step l c).d.sameBitsQ = 1 := by
    simp [StuffLink.step, BitDestuffing.step, hsample, h.seen]
  have hnoSof : (StuffLink.step l c).noSof = l.noSof := by simp [StuffLink.step, htakes]
  have hfield : (StuffLink.step l c).field = false := by simp [StuffLink.step, htakes, h.field]
  have hregular : (StuffLink.step l c).regular = 0 := by
    cases hsend : sends l c <;> simp [StuffLink.step, hsend, h.regular, hhalt]
  rw [← hnoSof] at hdom hrun hseen
  refine ⟨⟨?_, fun hs => absurd hs (by simp [hsample])⟩, ?_⟩
  · intro hsend _
    simp [StuffLink.step, BitStuffing.step, hins, hsend]
  · cases hsend : sends l c
    · left
      refine ⟨?_, hsample, hfield, ⟨b, ?_, hdom⟩, ?_, hrun, hseen, fun _ => ⟨hfixT, hctrT⟩,
        fun _ => ⟨hfixD, hctrD⟩, hregular⟩
      · simp [StuffLink.step, hsend, hsample, h.bus]
      · simpa [StuffLink.step, hsend] using hhead
      · simp [StuffLink.step, BitStuffing.step, hsend, h.recessive]
    · right
      refine ⟨⟨rfl, rfl⟩, ⟨hfixT, hfixD⟩, hfield, hrun, ?_, ⟨hctrT, hctrD⟩, hregular,
        .inl ⟨?_, hsample, hseen⟩⟩
      · intro hn
        rw [← hdom hn, ← hin]
        simp [StuffLink.step, BitStuffing.step, hins, hsend]
      · simp [StuffLink.step, hsend, hhalt]

/-- While the first bit is on the bus. -/
theorem First.step_bus (h : First l) (hbus : l.bus = some false) (hrx : l.rxTrigQ = false)
    (hseen : l.d.prevValQ = !l.noSof ∧ l.d.sameBitsQ = 1) :
    Sound l c ∧ First (step l c) := by
  have hsend : sends l c = false := by simp [sends, hbus]
  have htakes : takes l = false := by simp [takes, hrx]
  have hnoSof : (StuffLink.step l c).noSof = l.noSof := by simp [StuffLink.step, htakes]
  have hout : (StuffLink.step l c).t.dataOut = l.t.dataOut := by
    simp [StuffLink.step, BitStuffing.step, hsend]
  have hrun : (StuffLink.step l c).t.sameBitsQ ≤ 2 ∧
      (l.noSof = false → (StuffLink.step l c).t.sameBitsQ = 1) := by
    cases hn : l.noSof
    · have hone : (StuffLink.step l c).t.sameBitsQ = 1 := by
        simp [StuffLink.step, BitStuffing.step, BitStuffing.sameBitsD, BitStuffing.sameBitsRst, hn,
          hsend, h.enabled, h.run.2 hn]
      rw [hone]
      decide
    · have hpreset : (StuffLink.step l c).t.sameBitsQ = if !dataIn l then 2 else 1 := by
        simp [StuffLink.step, BitStuffing.step, BitStuffing.sameBitsD, hn]
      refine ⟨?_, nofun⟩
      rw [hpreset]
      split <;> decide
  have hchg : l.d.nonFixToFixChng (rxInput l c) = false := by
    simp [BitDestuffing.nonFixToFixChng, h.field]
  have hdis : l.d.discardStuffBit (rxInput l c) = false := by
    simp [BitDestuffing.discardStuffBit, hchg, BitDestuffing.stuffLvlReached, hseen]
  refine ⟨⟨fun hs => absurd hs (by simp [hsend]), ?_⟩, ⟨rfl, rfl⟩, ⟨?_, ?_⟩, ?_, ?_, ?_, ⟨?_, ?_⟩,
    ?_, ?_⟩
  · intro hsample
    rw [hbus]
    simp [StuffLink.step, BitDestuffing.step, BitDestuffing.stuffRuleViolate, hsample, hdis]
  · simp [StuffLink.step, BitStuffing.step, hsend, h.enabled, h.fixed]
  · simp [StuffLink.step, BitDestuffing.step, h.enabled, h.fixed, h.field]
  · simp [StuffLink.step, htakes, h.field]
  · rw [hnoSof]
    exact hrun
  · rw [hnoSof, hout]
    exact h.dominant
  · simp [StuffLink.step, BitStuffing.step, hsend, h.enabled, h.ctr]
  · simp [StuffLink.step, BitDestuffing.step, BitDestuffing.stuffLvlReached, hseen, h.enabled,
      h.ctr]
  · simp [StuffLink.step, hsend, h.regular]
  · rw [hnoSof, hout]
    cases hsample : samples l c
    · left
      refine ⟨?_, hsample, ?_, ?_⟩
      · simp [StuffLink.step, hsend, hsample, hbus]
      · simp [StuffLink.step, BitDestuffing.step, hsample, hseen]
      · simp [StuffLink.step, BitDestuffing.step, hsample, hseen]
    · right
      refine ⟨?_, hsample, ?_, ?_, ?_⟩
      · simp [StuffLink.step, hsend, hsample]
      · simp [StuffLink.step, BitDestuffing.step, hsample, hdis]
      · simp [StuffLink.step, BitDestuffing.step, hsample, hchg]
      · have hdom := h.dominant
        simp only [StuffLink.step, BitDestuffing.step, BitDestuffing.sameBitsErase, rxInput_enable,
          rxInput_trigger, rxInput_dataIn, rxInput_fixed, hsample, hdis, hseen, h.enabled, h.field]
        cases hn : l.noSof <;> cases ho : l.t.dataOut <;> simp_all

/-- Protocol control takes the first bit. -/
theorem First.step_take (h : First l) (hbus : l.bus = none) (hrx : l.rxTrigQ = true)
    (hdes : l.d.destuffedQ = false) (hval : l.d.prevValQ = l.t.dataOut)
    (hrun : l.d.sameBitsQ = if l.noSof && !l.t.dataOut then 2 else 1) :
    Sound l c ∧ (step l c).noSof = false ∧ Kept (step l c) ∧ Lead (step l c) := by
  have hsend : sends l c = false := by simp [sends, hrx]
  have hsample : samples l c = false := by simp [samples, hbus]
  have htakes : takes l = true := by simp [takes, hrx, hdes]
  have hfix : (StuffLink.step l c).t.fixedRegQ = false := by
    simp [StuffLink.step, BitStuffing.step, hsend, h.enabled, h.fixed]
  have hrest : (StuffLink.step l c).rest = l.rest := by simp [StuffLink.step, hsend]
  have hout : (StuffLink.step l c).t.dataOut = l.t.dataOut := by
    simp [StuffLink.step, BitStuffing.step, hsend]
  have hd : (StuffLink.step l c).d = { l.d with stuffErrQ := false } :=
    destuffing_quiet hsample rfl h.enabled.2
  have hpreset : (StuffLink.step l c).t.sameBitsQ =
      if l.noSof && !dataIn l then 2 else 1 := by
    cases hn : l.noSof
    · simp [StuffLink.step, BitStuffing.step, BitStuffing.sameBitsD, BitStuffing.sameBitsRst, hn,
        hsend, h.enabled, h.run.2 hn]
    · simp [StuffLink.step, BitStuffing.step, BitStuffing.sameBitsD, hn]
  have hin : dataIn (StuffLink.step l c) = dataIn l := by rw [dataIn, hrest, dataIn]
  refine ⟨⟨fun hs => absurd hs (by simp [hsend]), fun hs => absurd hs (by simp [hsample])⟩, ?_,
    fun hf => absurd hf (by simp [hfix]), .level ⟨⟨rfl, rfl⟩, ?_, ?_, ?_, ?_, ?_⟩ ?_ ?_⟩
  · simp [StuffLink.step, htakes]
  · rw [hd, hfix]
    exact h.fixed.2
  · rw [hd]
    show l.d.sameBitsQ ≤ 5
    rw [hrun]
    split <;> decide
  · -- The preset run is right if the next bit continues the one that was sampled.
    rw [hin, hout, hpreset, hd, hfix]
    show _ = l.d.sameBitsQ ∧ _ ∨ _ ≤ 2 ∧ l.d.sameBitsQ ≤ 2 ∧ l.d.prevValQ = _ ∧ _
    rw [hrun, hval]
    by_cases heq : dataIn l = l.t.dataOut
    · left
      rw [heq]
      simp
    · right
      refine ⟨by split <;> decide, by split <;> decide, rfl, heq, rfl⟩
  · simp [StuffLink.step, BitStuffing.step, hsend, h.enabled, h.ctr, h.regular]
  · rw [hd]
    simp [StuffLink.step, hsend, h.ctr, h.regular]
  · simp [StuffLink.step, hsend, hsample, hbus]
  · intro _
    rw [headField, hrest]
    simp only [StuffLink.step, htakes, if_true, headField]
    cases l.rest.head? <;> rfl

/-- Sending from a level: the next bit, or the stuff bit that is due. -/
theorem Lead.step_send (hn : l.noSof = false) (hk : Kept l)
    (hsort : l.rest.Pairwise (fun p q => p.2 = true → q.2 = true))
    (h : Level l.t l.d (dataIn l) l.regular) (hfield : takes l = false → headField l = l.field)
    (hsend : sends l c = true) :
    (halts l c = false → (step l c).t.dataOut = dataIn l) ∧ Kept (step l c) ∧
      Lead (step l c) := by
  obtain ⟨hbus, hrx, hsample, p, ps, hrest⟩ := sends_ready hsend
  have htakes : takes l = false := by simp [takes, hrx]
  have hp : p.2 = l.field := by simpa [headField, hrest] using hfield htakes
  have hd : (StuffLink.step l c).d = { l.d with stuffErrQ := false } :=
    destuffing_quiet hsample rfl h.enabled.2
  have hf : l.t.fixedRegQ = true → (txInput l c).fixedStuff = true := by
    intro hfix
    rw [txInput_fixed, ← hp]
    exact hk hfix p (by simp [hrest])
  have hfield' : (StuffLink.step l c).field = l.field := by simp [StuffLink.step, htakes]
  have hbus' : (StuffLink.step l c).bus = some (halts l c) := by simp [StuffLink.step, hsend]
  rw [hrest, List.pairwise_cons] at hsort
  cases hh : halts l c
  · have hrest' : (StuffLink.step l c).rest = ps := by simp [StuffLink.step, hsend, hh, hrest]
    obtain ⟨ha, hout⟩ := Level.send_data (i := txInput l c) h hsend rfl hn hf hh
    have ha : Ahead (StuffLink.step l c).t (StuffLink.step l c).d l.field false l.regular := by
      rw [hd]
      exact ha.clear _ _
    rw [← hfield'] at ha
    refine ⟨fun _ => hout, ?_, .ahead ha ?_ ?_ hsample nofun⟩
    · intro hfix q hq
      rw [hrest'] at hq
      rw [ha.fixed, hfield', ← hp] at hfix
      exact hsort.1 q hq hfix
    · rw [hbus', hh]
    · simp [StuffLink.step, hsend, hh]
  · have hrest' : (StuffLink.step l c).rest = l.rest := by simp [StuffLink.step, hh]
    obtain ⟨ha, -⟩ := Level.send_stuff (i := txInput l c) h hsend rfl hn hh
    have ha : Ahead (StuffLink.step l c).t (StuffLink.step l c).d l.field true l.regular := by
      rw [hd]
      exact ha.clear _ _
    rw [← hfield'] at ha
    refine ⟨nofun, ?_, .ahead ha ?_ ?_ hsample ?_⟩
    · intro hfix q hq
      rw [ha.fixed, hfield', ← hp] at hfix
      rw [hrest', hrest] at hq
      rcases List.mem_cons.mp hq with rfl | hq
      · exact hfix
      · exact hsort.1 q hq hfix
    · rw [hbus', hh]
    · rw [hfield']
      simp [StuffLink.step, hsend, hh]
    · intro _
      rw [hfield', ← hp]
      simp [headField, hrest', hrest]

theorem Lead.step (hn : l.noSof = false) (hk : Kept l)
    (hsort : l.rest.Pairwise (fun p q => p.2 = true → q.2 = true)) (h : Lead l) :
    Sound l c ∧ (step l c).noSof = false ∧ Kept (step l c) ∧ Lead (step l c) := by
  have hn' : (StuffLink.step l c).noSof = false := by simp [StuffLink.step, hn]
  cases hsend : sends l c
  · have hrest : (StuffLink.step l c).rest = l.rest := by simp [StuffLink.step, hsend]
    have hregular : (StuffLink.step l c).regular = l.regular := by simp [StuffLink.step, hsend]
    have hin : dataIn (StuffLink.step l c) = dataIn l := by rw [dataIn, hrest, dataIn]
    have hp : l.t.enablePrev = true ∧ l.d.enablePrev = true := by
      cases h with
      | level h => exact h.enabled
      | ahead h => exact h.enabled
    obtain ⟨halt, ht⟩ := stuffing_quiet (t := l.t) (i := txInput l c) hsend rfl hn hp.1
    have ht : (StuffLink.step l c).t = { l.t with dataHaltQ := halt } := ht
    have hk' : Kept (StuffLink.step l c) := by
      intro hfix q hq
      rw [ht] at hfix
      rw [hrest] at hq
      exact hk hfix q hq
    cases h with
    | level h hbus hfield =>
      have hsample : samples l c = false := by simp [samples, hbus]
      have hd : (StuffLink.step l c).d = { l.d with stuffErrQ := false } :=
        destuffing_quiet hsample rfl h.enabled.2
      refine ⟨⟨fun hs => absurd hs (by simp [hsend]), fun hs => absurd hs (by simp [hsample])⟩,
        hn', hk', .level ?_ ?_ ?_⟩
      · rw [hin, hregular, ht, hd]
        exact h.clear _ _
      · simp [StuffLink.step, hsend, hsample, hbus]
      · intro _
        cases htakes : takes l
        · rw [headField, hrest]
          simp only [StuffLink.step, htakes, Bool.false_eq_true, if_false]
          exact hfield htakes
        · rw [headField, hrest]
          simp only [StuffLink.step, htakes, if_true, headField]
          cases l.rest.head? <;> rfl
    | @ahead stuff n h hbus hreg hrx hfield =>
      have htakes : takes l = false := by simp [takes, hrx]
      have hfield' : (StuffLink.step l c).field = l.field := by simp [StuffLink.step, htakes]
      have hhead : headField (StuffLink.step l c) = headField l := by
        rw [headField, hrest, hfield', headField]
      cases hsample : samples l c
      · have hd : (StuffLink.step l c).d = { l.d with stuffErrQ := false } :=
          destuffing_quiet hsample rfl h.enabled.2
        refine ⟨⟨fun hs => absurd hs (by simp [hsend]), fun hs => absurd hs (by simp [hsample])⟩,
          hn', hk', @Lead.ahead _ stuff n ?_ ?_ ?_ hsample ?_⟩
        · rw [hfield', ht, hd]
          exact h.clear _ _
        · simp [StuffLink.step, hsend, hsample, hbus]
        · rw [hregular, hfield', hreg]
        · rw [hhead, hfield']
          exact hfield
      · obtain ⟨hdes, herr, hl⟩ :=
          Ahead.sample (j := rxInput l c) (b := dataIn l) h hsample rfl rfl rfl
        have hdes : (StuffLink.step l c).d.destuffedQ = stuff := hdes
        refine ⟨⟨fun hs => absurd hs (by simp [hsend]), fun _ => ⟨by rw [hdes, hbus], herr⟩⟩, hn',
          hk', .level ?_ ?_ ?_⟩
        · rw [hin, hregular, hreg, ht]
          exact hl.clear _ _
        · simp [StuffLink.step, hsend, hsample]
        · intro htakes'
          have hrx' : (StuffLink.step l c).rxTrigQ = true := hsample
          rw [takes, hrx', hdes, Bool.true_and, Bool.not_eq_false'] at htakes'
          rw [hhead, hfield']
          exact hfield htakes'
  · cases h with
    | level h hbus hfield =>
      have hsample := (sends_ready hsend).2.2.1
      obtain ⟨hout, hk', hlead⟩ := Lead.step_send hn hk hsort h hfield hsend
      exact ⟨⟨fun _ => hout, fun hs => absurd hs (by simp [hsample])⟩, hn', hk', hlead⟩
    | ahead h hbus => exact absurd (hbus.symm.trans (sends_ready hsend).1) (by simp)

/-- Invariant of the link. -/
structure Synced (bits : List Bool) (l : Link) : Prop where
  sorted : l.rest.Pairwise (fun p q => p.2 = true → q.2 = true)
  observed : Observed bits l
  phase : Opening l ∨ First l ∨ l.noSof = false ∧ Kept l ∧ Lead l

theorem Synced.phase_step {bits : List Bool} (h : Synced bits l) :
    Sound l c ∧ (Opening (step l c) ∨ First (step l c) ∨
      (step l c).noSof = false ∧ Kept (step l c) ∧ Lead (step l c)) := by
  rcases h.phase with ho | hf | ⟨hn, hk, hl⟩
  · exact ⟨ho.step.1, ho.step.2.imp_right .inl⟩
  · rcases hf.seen with ⟨hbus, hrx, hseen⟩ | ⟨hbus, hrx, hdes, hval, hrun⟩
    · obtain ⟨hs, hf'⟩ := hf.step_bus (c := c) hbus hrx hseen
      exact ⟨hs, .inr (.inl hf')⟩
    · obtain ⟨hs, hl⟩ := hf.step_take (c := c) hbus hrx hdes hval hrun
      exact ⟨hs, .inr (.inr hl)⟩
  · obtain ⟨hs, hl⟩ := Lead.step (c := c) hn hk h.sorted hl
    exact ⟨hs, .inr (.inr hl)⟩

theorem Synced.step {bits : List Bool} (h : Synced bits l) : Synced bits (step l c) := by
  obtain ⟨hsound, hphase⟩ := h.phase_step (c := c)
  refine ⟨?_, h.observed.step hsound, hphase⟩
  simp only [StuffLink.step]
  split
  · exact h.sorted.tail
  · exact h.sorted

/-! ## Progress

A stuff bit is never followed by another, so that two bits of bus time suffice for
every bit of the frame.
-/

/-- The last bit sent was a stuff bit. -/
structure Spent (l : Link) : Prop where
  noSof : l.noSof = false
  enabled : l.t.enablePrev = true
  run : l.t.sameBitsQ = 1
  fixed : l.t.fixedRegQ = l.field
  place : l.bus = some true ∧ l.rxTrigQ = false ∨ l.bus = none ∧ takes l = false

theorem Synced.spent {bits : List Bool} (h : Synced bits l) (hbus : l.bus = some true) :
    Spent l := by
  rcases h.phase with ho | hf | ⟨hn, -, hl⟩
  · exact absurd (hbus.symm.trans ho.bus) (by simp)
  · rcases hf.seen with ⟨hb, -⟩ | ⟨hb, -⟩
    · exact absurd (hbus.symm.trans hb) (by simp)
    · exact absurd (hbus.symm.trans hb) (by simp)
  · cases hl with
    | level _ hb => exact absurd (hbus.symm.trans hb) (by simp)
    | ahead ha hb _ hrx =>
      obtain rfl := Option.some.inj (hbus.symm.trans hb)
      exact ⟨hn, ha.enabled.1, by rw [ha.same, if_pos (.inl rfl)], ha.fixed, .inl ⟨hbus, hrx⟩⟩

theorem Spent.halts (h : Spent l) (hs : sends l c = true) : halts l c = false := by
  simp [StuffLink.halts, BitStuffing.dataHalt, BitStuffing.insertStuffBit,
    BitStuffing.nonFixToFixChng, BitStuffing.stuffLvlReached, h.enabled, h.run, h.fixed, hs]

theorem Spent.step {bits : List Bool} (h : Spent l) (hl : Synced bits l)
    (hs : sends l c = false) : Spent (step l c) := by
  have htakes : takes l = false := by
    rcases h.place with ⟨-, hrx⟩ | ⟨-, ht⟩
    · simp [takes, hrx]
    · exact ht
  obtain ⟨halt, ht⟩ := stuffing_quiet (t := l.t) (i := txInput l c) hs rfl h.noSof h.enabled
  have ht : (StuffLink.step l c).t = { l.t with dataHaltQ := halt } := ht
  have hfield : (StuffLink.step l c).field = l.field := by simp [StuffLink.step, htakes]
  refine ⟨by simp [StuffLink.step, h.noSof], rfl, ?_, ?_, ?_⟩
  · rw [ht]
    exact h.run
  · rw [ht, hfield]
    exact h.fixed
  · cases hsample : samples l c
    · have hbus : (StuffLink.step l c).bus = l.bus := by simp [StuffLink.step, hs, hsample]
      have hrx : (StuffLink.step l c).rxTrigQ = false := hsample
      rcases h.place with ⟨hb, -⟩ | ⟨hb, -⟩
      · exact .inl ⟨by rw [hbus, hb], hrx⟩
      · exact .inr ⟨by rw [hbus, hb], by simp [takes, hrx]⟩
    · right
      obtain ⟨hbus, -⟩ := (hl.phase_step (c := c)).1.sample hsample
      have hb : l.bus = some true := by
        rcases h.place with ⟨hb, -⟩ | ⟨hb, -⟩
        · exact hb
        · exact absurd (hb.symm.trans hbus) (by simp)
      have hdes : (StuffLink.step l c).d.destuffedQ = true := Option.some.inj (hbus.symm.trans hb)
      exact ⟨by simp [StuffLink.step, hs, hsample], by simp [takes, hdes]⟩

end Step

/-- Cycles for one bit of bus time: `m` cycles between the TX trigger and the sample
point, and `n + 1` from there to the next TX trigger. -/
def bitTime (m n : Nat) : List Cycle :=
  .send :: (List.replicate m .wait ++ .sample :: List.replicate (n + 1) .wait)

def schedule (times : List (Nat × Nat)) : List Cycle := times.flatMap fun p => bitTime p.1 p.2

/-- Between two bits. -/
def Ready (l : Link) : Prop := l.bus = none ∧ l.rxTrigQ = false

section Run

variable {bits : List Bool} {l : Link}

theorem run_wait (h : Synced bits l) (k : Nat) :
    Synced bits (SyncMachine.run step l (List.replicate k .wait)) ∧
      (SyncMachine.run step l (List.replicate k .wait)).rest = l.rest ∧
      (SyncMachine.run step l (List.replicate k .wait)).bus = l.bus ∧
      (l.rxTrigQ = false ∨ k ≠ 0 →
        (SyncMachine.run step l (List.replicate k .wait)).rxTrigQ = false) ∧
      (Spent l → Spent (SyncMachine.run step l (List.replicate k .wait))) := by
  induction k generalizing l with
  | zero => exact ⟨h, rfl, rfl, fun hk => hk.resolve_right (by simp), id⟩
  | succ k ih =>
    obtain ⟨hl, hrest, hbus, hrx, hspent⟩ := ih (h.step (c := .wait))
    exact ⟨hl, hrest, hbus, fun _ => hrx (.inl rfl), fun hs => hspent (hs.step h rfl)⟩

theorem bus_sample (l : Link) : (step l .sample).bus = none := by
  cases hbus : l.bus <;> simp [step, sends, samples, hbus]

/-- One bit of bus time sends a bit, if there is one, and samples it. -/
theorem run_bitTime (h : Synced bits l) (m n : Nat) :
    Synced bits (SyncMachine.run step l (bitTime m n)) ∧
      Ready (SyncMachine.run step l (bitTime m n)) ∧
      (SyncMachine.run step l (bitTime m n)).rest = (step l .send).rest ∧
      (Spent (step l .send) → Spent (SyncMachine.run step l (bitTime m n))) := by
  obtain ⟨h₂, hrest₂, -, -, hspent₂⟩ := run_wait (h.step (c := .send)) m
  obtain ⟨h₄, hrest₄, hbus₄, hrx₄, hspent₄⟩ := run_wait (h₂.step (c := .sample)) (n + 1)
  rw [bitTime, SyncMachine.run, SyncMachine.run_append, SyncMachine.run]
  refine ⟨h₄, ⟨?_, hrx₄ (.inr (by simp))⟩, ?_, ?_⟩
  · rw [hbus₄, bus_sample]
  · rw [hrest₄, ← hrest₂]
    rfl
  · intro hs
    exact hspent₄ ((hspent₂ hs).step h₂ rfl)

/-- Two bits of bus time for every bit of the frame send all of them. -/
theorem run_schedule (times : List (Nat × Nat)) (h : Synced bits l) (hr : Ready l)
    (hlen : 2 * l.rest.length < times.length ∨
      (Spent l ∨ l.rest = []) ∧ 2 * l.rest.length ≤ times.length) :
    Synced bits (SyncMachine.run step l (schedule times)) ∧
      Ready (SyncMachine.run step l (schedule times)) ∧
      (SyncMachine.run step l (schedule times)).rest = [] := by
  induction times generalizing l with
  | nil =>
    refine ⟨h, hr, List.length_eq_zero_iff.mp ?_⟩
    simp only [List.length_nil] at hlen
    show l.rest.length = 0
    omega
  | cons p times ih =>
    obtain ⟨h', hr', hrest, hspent⟩ := run_bitTime h p.1 p.2
    rw [schedule, List.flatMap_cons, SyncMachine.run_append]
    apply ih h' hr'
    rw [hrest]
    rw [List.length_cons] at hlen
    cases hs : l.rest with
    | nil =>
      have hstep : (step l .send).rest = [] := by simp [step, sends, hs]
      exact .inr ⟨.inr hstep, by simp [hstep]⟩
    | cons q rest =>
      have hsend : sends l .send = true := by simp [sends, hs, hr.1, hr.2]
      cases hh : halts l .send
      · -- A bit of the frame is sent; a stuff bit may be due next.
        have hstep : (step l .send).rest = rest := by simp [step, hsend, hh, hs]
        rw [hs, List.length_cons] at hlen
        rw [hstep]
        omega
      · -- A stuff bit is sent; the next bit is one of the frame.
        have hstep : (step l .send).rest = l.rest := by simp [step, hh]
        have hbus : (step l .send).bus = some true := by simp [step, hsend, hh]
        have hlt : 2 * l.rest.length < times.length + 1 := by
          rcases hlen with hlen | ⟨hsp | hnil, -⟩
          · exact hlen
          · exact absurd (hsp.halts hsend) (by simp [hh])
          · exact absurd (hs.symm.trans hnil) (by simp)
        rw [hstep]
        exact .inr ⟨.inl (hspent (h.step.spent hbus)), by omega⟩

theorem Synced.ctr (h : Synced bits l) (hr : Ready l) (hrest : l.rest = []) :
    l.t.bstCtrQ = l.regular % 8 ∧ l.d.dstCtrQ = l.regular % 8 := by
  rcases h.phase with ho | hf | ⟨-, -, hl⟩
  · obtain ⟨b, hb, -⟩ := ho.first
    simp [hrest] at hb
  · rcases hf.seen with ⟨hbus, -⟩ | ⟨-, hrx, -⟩
    · exact absurd (hr.1.symm.trans hbus) (by simp)
    · exact absurd (hr.2.symm.trans hrx) (by simp)
  · cases hl with
    | level h => exact h.ctr
    | ahead _ hbus => exact absurd (hr.1.symm.trans hbus) (by simp)

end Run

theorem frame_bits (xs ys : List Bool) : (frame xs ys).map Prod.fst = xs ++ ys := by
  simp [frame, Function.comp_def]

theorem frame_sorted (xs ys : List Bool) :
    (frame xs ys).Pairwise (fun p q => p.2 = true → q.2 = true) := by
  refine List.pairwise_append.mpr ⟨?_, ?_, ?_⟩
  · rw [List.pairwise_map]
    exact List.pairwise_of_forall (fun _ _ => by simp)
  · rw [List.pairwise_map]
    exact List.pairwise_of_forall (fun _ _ => by simp)
  · intro p hp q hq
    obtain ⟨b, -, rfl⟩ := List.mem_map.mp hp
    simp

theorem opening_enable (t : BitStuffing) (d : BitDestuffing) {noSof x : Bool}
    (hx : noSof = false → x = false) (xs ys : List Bool) :
    Opening (enable t d noSof (frame (x :: xs) ys)) :=
  ⟨rfl, rfl, rfl, ⟨x, rfl, hx⟩, rfl, ⟨Nat.le_succ 1, fun _ => rfl⟩, ⟨rfl, rfl⟩, nofun, nofun, rfl⟩

theorem synced_enable (t : BitStuffing) (d : BitDestuffing) {noSof x : Bool}
    (hx : noSof = false → x = false) (xs ys : List Bool) :
    Synced (x :: xs ++ ys) (enable t d noSof (frame (x :: xs) ys)) := by
  refine ⟨frame_sorted _ _, ⟨rfl, ?_, rfl⟩, .inl ?_⟩
  · have hfly : inFlight (enable t d noSof (frame (x :: xs) ys)) = [] := rfl
    rw [hfly]
    exact frame_bits _ _
  · exact opening_enable t d hx xs ys

/-- Destuffing inverts stuffing. The frame starts with a bit that has regular stuffing,
dominant if it is the own SOF; from any later position on the stuffing is fixed. -/
theorem destuffing_inverts_stuffing (t : BitStuffing) (d : BitDestuffing) (noSof x : Bool)
    (hx : noSof = false → x = false) (xs ys : List Bool) (k : Nat) (times : List (Nat × Nat))
    (hlen : 2 * (1 + xs.length + ys.length) < times.length) :
    let l := SyncMachine.run step (enable t d noSof (frame (x :: xs) ys))
      (List.replicate k .wait ++ schedule times)
    l.stuffErr = false ∧ l.destuffed = l.inserted ∧ l.received = x :: xs ++ ys ∧
      l.t.bstCtrQ = l.regular % 8 ∧ l.d.dstCtrQ = l.regular % 8 := by
  intro l
  obtain ⟨hw, hrest, hbus, hrx, -⟩ := run_wait (synced_enable t d hx xs ys) k
  obtain ⟨hl, hr, hnil⟩ := run_schedule times hw ⟨hbus, hrx (.inl rfl)⟩ (.inl (by
    rw [hrest]
    simp only [enable, frame, List.length_append, List.length_map, List.length_cons]
    omega))
  rw [← SyncMachine.run_append] at hl hr hnil
  refine ⟨hl.observed.noErr, ?_, ?_, hl.ctr hr hnil⟩
  · have hmarks := hl.observed.marks
    rw [hr.1] at hmarks
    simpa using hmarks.symm
  · have hbits := hl.observed.bits
    rw [inFlight, hr.1, hnil] at hbits
    simpa using hbits

/-- After the dominant bit taken as SOF and four more, a regular stuff bit is due where fixed
stuffing starts. -/
theorem destuffing_inverts_stuffing_change :
    let l := SyncMachine.run step
      (enable BitStuffing.reset BitDestuffing.reset true
        (frame (false :: [false, false, false]) [true, false]))
      (List.replicate 1 .wait ++ schedule (List.replicate 13 (1, 1)))
    l.stuffErr = false ∧ l.destuffed = l.inserted ∧
      l.received = false :: [false, false, false] ++ [true, false] ∧
      l.t.bstCtrQ = l.regular % 8 ∧ l.d.dstCtrQ = l.regular % 8 :=
  destuffing_inverts_stuffing BitStuffing.reset BitDestuffing.reset true false nofun
    [false, false, false] [true, false] 1 (List.replicate 13 (1, 1)) (by decide)

/-- With fixed stuffing from the first bit on, after a start without SOF, the stuff bit of
the change repeats the dominant bit that was taken as SOF. -/
theorem fixed_after_missing_sof :
    (SyncMachine.run step (enable BitStuffing.reset BitDestuffing.reset true (frame [] [true]))
      (List.replicate 1 .wait ++ schedule [(0, 0)])).stuffErr = true := by
  decide

end StuffLink
