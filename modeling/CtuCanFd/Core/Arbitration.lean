import CtuCanFd.Core.FrameSent

/-!
# Arbitration

A transmitter that sends a recessive bit in the arbitration field and samples a dominant one has
lost arbitration and goes on as a receiver. Until then the bits on the bus are those of its own
frame, so the frame it lost to has the smaller arbitration field. The control counter and the
field are captured for software, and tell in which bit this happened.
-/

open ProtocolControl SyncMachine BitFields

namespace CanCore

open FrameFormat (Header)

/-! ## Arbitration lost capture -/

/-- `arbitration_part`. -/
inductive ArbitrationPart where
  | rsvd
  | baseId
  | srrRtr
  | ide
  | extension
  | rtr
deriving DecidableEq, Repr

def arbitrationPart (s : State) : ArbitrationPart :=
  if s.err.errFrmReq then .rsvd
  else
    match s.pc.currState with
    | .baseId => .baseId
    | .rtrSrrR1 => .srrRtr
    | .ide => .ide
    | .extId => .extension
    | .rtrR1 => .rtr
    | _ => .rsvd

/-- The arbitration lost capture register. -/
structure AlcCapture where
  alcBit : BitVec 5
  alcIdField : ArbitrationPart
deriving DecidableEq, Repr

namespace AlcCapture

def reset : AlcCapture where
  alcBit := 0
  alcIdField := .rsvd

def next (c : Config) (a : AlcCapture) (s : State) (i : Input) : AlcCapture :=
  if (pcOut c s i).arbitrationLostI then
    { alcBit := BitVec.ofNat 5 s.ctr.ctrlCtrQ, alcIdField := arbitrationPart s }
  else a

/-- The bit of the frame, counted from SOF, in which arbitration was lost. Identifier bits are
counted down to the end of their field. -/
def position (a : AlcCapture) : Nat :=
  match a.alcIdField with
  | .rsvd => 0
  | .baseId => 11 - a.alcBit.toNat
  | .srrRtr => 12
  | .ide => 13
  | .extension => 31 - a.alcBit.toNat
  | .rtr => 32

end AlcCapture

/-! ## The bit in which arbitration is lost -/

section Lost

variable {c : Config} {k : Clock} {s : State} {i : Input} {mem : Nat → BitVec 32} {m : TranMeta}
  {h : Header} {bits : List Bool}

/-- States in which arbitration can be lost. -/
def arbitrates (st : PcState) : Bool :=
  match st with
  | .baseId | .rtrSrrR1 | .ide | .extId | .rtrR1 => true
  | _ => false

theorem arbitrationLostI_cases (hl : (pcOut c s i).arbitrationLostI = true) :
    s.err.errFrmReq = false ∧ arbitrates s.pc.currState = true ∧ isTransmitter s = true ∧
      txDataWbs c s = true ∧ s.bds.dataOut = false ∧ pcRxTrigger s = true := by
  obtain ⟨he, hl⟩ := out_active (c := c) (q := s.pc) (i := pcInput c s i) Out.arbitrationLostI rfl hl
  have he : s.err.errFrmReq = false := he
  refine ⟨he, ?_⟩
  cases hq : s.pc.currState <;> rw [hq] at hl <;> first | cases hl | skip
  case off => simp [outState, outOff, apply_ite Out.arbitrationLostI] at hl
  all_goals
    simp [outState, outBaseId, outRtrSrrR1, outIde, outExtId, outRtrR1, arbitrationLostCondition] at hl
    simp_all [arbitrates, pcInput]

/-- The bit on the bus is the current bit of the frame, whether it is taken or not. -/
theorem Sends.sent_bit {e : Bool} (hs : Sends mem k s bits (m.header c e)) (hf : Following c k s)
    (hok : Bench k s i) (hm : i.tranMeta = m) (he : s.err.errFrmReq = false)
    (hx : isTransmitter s = true) (hq : arbitrates s.pc.currState = true)
    (ht : pcRxTrigger s = true) :
    s.bst.dataOut = currentBit (m.header c e) mem s.ctr s.pc.currState := by
  have h0 := hf.paced.pcRxTrigger_since ht
  have hp : s.pc.currState.inPlain = true := by
    revert hq
    cases s.pc.currState <;> decide
  have ha := hf.aligned hx hp he
  have hh : s.bst.dataHaltQ = false := by
    simpa [(ha.sampled h0).trigger (h0 ▸ hf.paced)] using ht
  obtain ⟨m', hm'⟩ := Option.ne_none_iff_exists'.mp (ha.held (.inr h0))
  obtain rfl : m' = m := (hok.held m' hm' hx hp).symm.trans hm
  have hc := fun b => ha.content (.inr h0) hh m' b hm'
  have hfield := hs.field
  cases hst : s.pc.currState <;> rw [hst] at hq hc hfield <;>
    first
      | exact absurd hq (by decide)
      | exact hc _ rfl
      | exact (hfield rfl).current ⟨.inr h0, hh⟩

/-- The current bit of the arbitration field follows what was sent. -/
theorem current_isPrefix (mem : Nat → BitVec 32) {q : ControlCounter} {st : PcState}
    (hp : OnPath h q st) (hq : arbitrates st = true) :
    sentSoFar h mem q st ++ [currentBit h mem q st] <+: h.identBits := by
  cases st <;> first | exact absurd hq (by decide) | skip
  case baseId =>
    have hp : q.ctrlCtrQ ≤ 10 := hp
    have hmore : sentSoFar h mem q .baseId ++ [currentBit h mem q .baseId] =
        false :: (sent (h.ident.extractLsb' 18 11)).take (11 - q.ctrlCtrQ) := by
      rw [← take_sent_concat (h.ident.extractLsb' 18 11) hp]
      rfl
    rw [hmore]
    refine List.IsPrefix.trans ?_ (List.prefix_append _ _)
    exact List.cons_prefix_cons.mpr ⟨rfl, List.take_prefix _ _⟩
  case rtrSrrR1 =>
    refine (List.prefix_append_right_inj _).mpr ?_
    simp only [currentBit]
    cases h.identType <;> simp
  case ide =>
    rw [sentSoFar, List.append_assoc]
    refine (List.prefix_append_right_inj _).mpr ?_
    simp only [currentBit]
    cases h.identType <;> simp
  case extId =>
    obtain ⟨hid, hp⟩ : h.identType = true ∧ q.ctrlCtrQ ≤ 17 := hp
    have hmore : sentSoFar h mem q .extId ++ [currentBit h mem q .extId] = h.baseBits ++
        true :: true :: (sent (h.ident.extractLsb' 0 18)).take (18 - q.ctrlCtrQ) := by
      rw [← take_sent_concat (h.ident.extractLsb' 0 18) hp, sentSoFar, List.append_assoc]
      rfl
    rw [hmore, Header.identBits, hid, if_pos rfl]
    refine (List.prefix_append_right_inj _).mpr ?_
    refine List.cons_prefix_cons.mpr ⟨rfl, List.cons_prefix_cons.mpr ⟨rfl, ?_⟩⟩
    exact (List.take_prefix _ _).trans (List.prefix_append _ _)
  case rtrR1 =>
    have hid : h.identType = true := hp
    rw [sentSoFar, List.append_assoc, Header.identBits, hid, if_pos rfl]
    exact (List.prefix_append_right_inj _).mpr (List.prefix_refl _)

/-- Where the captured fields say arbitration was lost. -/
theorem position_next (a : AlcCapture) (hl : (pcOut c s i).arbitrationLostI = true)
    (hs : Sends mem k s bits h) : (a.next c s i).position = bits.length := by
  obtain ⟨he, hq, -⟩ := arbitrationLostI_cases hl
  have hp := hs.path
  have hb := hs.bits
  have hnext : a.next c s i = ⟨BitVec.ofNat 5 s.ctr.ctrlCtrQ, arbitrationPart s⟩ := by
    simp [AlcCapture.next, hl]
  rw [hnext, hb]
  simp only [AlcCapture.position, arbitrationPart, he]
  cases hst : s.pc.currState <;> rw [hst] at hq hp <;> first | exact absurd hq (by decide) | skip
  case baseId =>
    have hp : s.ctr.ctrlCtrQ ≤ 10 := hp
    simp [sentSoFar, BitVec.toNat_ofNat]
    omega
  case rtrSrrR1 => simp [sentSoFar, Header.baseBits]
  case ide => simp [sentSoFar, Header.baseBits]
  case extId =>
    have hp : s.ctr.ctrlCtrQ ≤ 17 := hp.2
    simp [sentSoFar, Header.baseBits, BitVec.toNat_ofNat]
    omega
  case rtrR1 => simp [sentSoFar, Header.baseBits]

end Lost

/-! ## Every arbitration of a run -/

/-- The capture register, and beside it the number of bits of the frame before the one in which
arbitration was lost last. -/
structure ArbWatch where
  alc : AlcCapture
  lost : Option Nat

def ArbWatch.next (c : Config) (a : ArbWatch) (p : CrcCore × FrameWatch) (i : Input) :
    ArbWatch where
  alc := a.alc.next c p.1.core (p.1.input c i)
  lost := if (pcOut c p.1.core (p.1.input c i)).arbitrationLostI then some (nbs p.2.frame).length
    else a.lost

def arbStep (c : Config) (mem : Nat → BitVec 32) :
    ((CrcCore × FrameWatch) × SendWatch) × ArbWatch → Input →
      ((CrcCore × FrameWatch) × SendWatch) × ArbWatch :=
  watched (sendStep c mem) fun a q i => a.next c q.1 i

def arbStart (sent : Bool) (v : List FrameBit) (w : SendWatch) :
    ((CrcCore × FrameWatch) × SendWatch) × ArbWatch :=
  (sendStart sent v w, ⟨.reset, none⟩)

def ArbBench (c : Config) (q : ((CrcCore × FrameWatch) × SendWatch) × ArbWatch) (i : Input) : Prop :=
  SendBench c q.1 i

instance (c : Config) (q : ((CrcCore × FrameWatch) × SendWatch) × ArbWatch) (i : Input) :
    Decidable (ArbBench c q i) := inferInstanceAs (Decidable (SendBench _ _ _))

/-- In this cycle the node loses arbitration. -/
def LosesArbitration (c : Config) (q : (CrcCore × FrameWatch) × SendWatch) (i : Input) : Prop :=
  (pcOut c q.1.1.core (q.1.1.input c i)).arbitrationLostI = true

instance (c : Config) (q : (CrcCore × FrameWatch) × SendWatch) (i : Input) :
    Decidable (LosesArbitration c q i) := inferInstanceAs (Decidable (_ = _))

/-- Own bits up to the one in which arbitration is lost, which was sent recessive. -/
theorem SendInvariant.lost {c : Config} {mem : Nat → BitVec 32}
    {q : (CrcCore × FrameWatch) × SendWatch} {i : Input} (h : SendInvariant c mem q)
    (hena : c.mrSettingsEna = true) (hbmm : c.mrModeBmm = false) (hok : SendBench c q i)
    (hl : LosesArbitration c q i) :
    ∃ e, Sends mem q.1.2.clock q.1.1.core (nbs q.1.2.frame) (q.2.offered.header c e) ∧
      nbs q.1.2.frame ++ [true] <+: (q.2.offered.header c e).identBits ∧
      nbs (sendStep c mem q i).1.2.frame = nbs q.1.2.frame ++ [false] := by
  obtain ⟨he, hq, hx, htx, hrx, ht⟩ := arbitrationLostI_cases hl
  have hp : q.1.1.core.pc.currState.inPlain = true := by
    revert hq
    cases q.1.1.core.pc.currState <;> decide
  have hcov := inCovered_of_inPlain hp
  obtain ⟨e, hs, -⟩ := h.sending.sends hx he hp
  have hbit := hs.sent_bit (i := q.1.1.input c i) h.following hok.1 (hok.2.held hx hp) he hx hq ht
  rw [txDataWbs, hena, hbmm] at htx
  have htx : q.1.1.core.bst.dataOut = true := htx
  refine ⟨e, hs, ?_, ?_⟩
  · have hpre := current_isPrefix mem hs.path hq
    rwa [← hbit, htx, ← hs.bits] at hpre
  · show nbs (seen c q.1.2.frame q.1.1.core (q.1.1.input c i)) = _
    rw [nbs_seen he hcov, if_pos ht, hrx]

theorem run_arbitration {c : Config} {mem : Nat → BitVec 32} (hena : c.mrSettingsEna = true)
    (htst : c.mrModeTstm = false) (hbmm : c.mrModeBmm = false) (sent : Bool) (v : List FrameBit)
    (w : SendWatch) (is : List Input)
    (h : Admits (arbStep c mem) (ArbBench c) (arbStart sent v w) is) :
    let q := run (arbStep c mem) (arbStart sent v w) is
    SendInvariant c mem q.1 ∧ ∀ n, q.2.lost = some n → q.2.alc.position = n := by
  refine run_invariant (arbStep c mem) (ArbBench c)
    (fun q => SendInvariant c mem q.1 ∧ ∀ n, q.2.lost = some n → q.2.alc.position = n) ?_
    ⟨.of_reset c mem sent v w, by simp [arbStart]⟩ is h
  rintro ⟨q, a⟩ i ⟨hinv, halc⟩ hok
  refine ⟨hinv.step hena htst hok, fun n hn => ?_⟩
  have hn : (a.next c q.1 i).lost = some n := hn
  show (a.alc.next c q.1.1.core (q.1.1.input c i)).position = n
  by_cases hl : (pcOut c q.1.1.core (q.1.1.input c i)).arbitrationLostI = true
  · obtain ⟨e, hs, -⟩ := hinv.lost hena hbmm hok hl
    simp only [ArbWatch.next, if_pos hl, Option.some_inj] at hn
    rw [position_next a.alc hl hs, hn]
  · simp only [ArbWatch.next, if_neg hl] at hn
    rw [AlcCapture.next, if_neg hl]
    exact halc n hn

/-- Where arbitration was lost last is in the capture register, and a node that loses arbitration
has sent the bits on the bus, up to a recessive bit of its own arbitration field that was dominant
on the bus. -/
theorem arbitration_lost (c : Config) (hena : c.mrSettingsEna = true) (htst : c.mrModeTstm = false)
    (hbmm : c.mrModeBmm = false) (mem : Nat → BitVec 32) (sent : Bool) (v : List FrameBit)
    (w : SendWatch) (is : List Input)
    (h : Admits (arbStep c mem) (ArbBench c) (arbStart sent v w) is) :
    let q := run (arbStep c mem) (arbStart sent v w) is
    (∀ n, q.2.lost = some n → q.2.alc.position = n) ∧
      ∀ i, ArbBench c q i → LosesArbitration c q.1 i → ∃ esi,
        nbs q.1.1.2.frame ++ [true] <+: (q.1.2.offered.header c esi).identBits ∧
          nbs (arbStep c mem q i).1.1.2.frame = nbs q.1.1.2.frame ++ [false] := by
  intro q
  obtain ⟨hinv, halc⟩ := run_arbitration hena htst hbmm sent v w is h
  refine ⟨halc, fun i hok hl => ?_⟩
  obtain ⟨e, -, hown, hbus⟩ := hinv.lost hena hbmm hok hl
  exact ⟨e, hown, hbus⟩

/-- A frame that loses against `byteMeta` in the last but one bit of its identifier. -/
def laterMeta : TranMeta := { byteMeta with tranIdentifier := 0b10101010111#11 ++ 0#18 }

/-- The node that offers it, with `byteFrame` on the bus, up to the cycle before arbitration is
lost. -/
def laterSent : List Input :=
  ((frameOnBus true byteFrame).map fun i =>
    { i with tranMeta := laterMeta, tranWord := 0x53 }).take 111

/-- The cycle in which it takes the dominant bit. -/
def laterLost : Input := { shortNode true false false with tranMeta := laterMeta, tranWord := 0x53 }

theorem arbitration_lost_later :
    let q := run (arbStep listener byteWords) (arbStart true [] ⟨laterMeta, 0x53⟩) laterSent
    (∃ esi, nbs q.1.1.2.frame ++ [true] <+: (laterMeta.header listener esi).identBits) ∧
      (arbStep listener byteWords q laterLost).2.alc.position = 10 := by
  have hadm : Admits (arbStep listener byteWords) (ArbBench listener)
      (arbStart true [] ⟨laterMeta, 0x53⟩) (laterSent ++ [laterLost]) := by decide +kernel
  have hrun : (fun q : ((CrcCore × FrameWatch) × SendWatch) × ArbWatch =>
      LosesArbitration listener q.1 laterLost ∧ ArbBench listener q laterLost ∧
        q.1.2.offered = laterMeta ∧ (arbStep listener byteWords q laterLost).2.lost = some 10)
      (run (arbStep listener byteWords) (arbStart true [] ⟨laterMeta, 0x53⟩) laterSent) := by
    decide +kernel
  obtain ⟨hl, hok, hm, hlost⟩ := hrun
  have hbits := (arbitration_lost listener rfl rfl rfl byteWords true [] _ laterSent
    ((admits_append _ _ _ _ _).mp hadm).1).2 laterLost hok hl
  have halc := (arbitration_lost listener rfl rfl rfl byteWords true [] _ _ hadm).1 10
  rw [run_append] at halc
  rw [hm] at hbits
  obtain ⟨esi, hown, -⟩ := hbits
  exact ⟨⟨esi, hown⟩, halc hlost⟩

/-- In a node that transmits the bits on the bus are the beginning of its frame. -/
theorem SendInvariant.own_frame {c : Config} {mem : Nat → BitVec 32}
    {q : (CrcCore × FrameWatch) × SendWatch} (h : SendInvariant c mem q)
    (hx : isTransmitter q.1.1.core = true) (he : q.1.1.core.err.errFrmReq = false)
    (hq : q.1.1.core.pc.currState.inPlain = true) :
    ∃ e, nbs q.1.2.frame <+: frameBits mem (q.2.offered.header c e) := by
  obtain ⟨e, hs, -⟩ := h.sending.sends hx he hq
  exact ⟨e, hs.bits ▸ sentSoFar_isPrefix hs.path⟩

theorem identBits_isPrefix (mem : Nat → BitVec 32) (h : Header) :
    h.identBits <+: frameBits mem h := by
  rw [frameBits, Header.sentBits, Header.controlBits, List.append_assoc, List.append_assoc]
  exact List.prefix_append _ _

/-- A node that loses arbitration loses it to a frame that precedes its own. -/
theorem arbitration_priority (c d : Config) (hc : c.mrSettingsEna = true)
    (hct : c.mrModeTstm = false) (hd : d.mrSettingsEna = true) (hdt : d.mrModeTstm = false)
    (hdb : d.mrModeBmm = false) (mem mem' : Nat → BitVec 32) (sent sent' : Bool)
    (v v' : List FrameBit) (w w' : SendWatch) (is js : List Input)
    (hi : Admits (sendStep c mem) (SendBench c) (sendStart sent v w) is)
    (hj : Admits (sendStep d mem') (SendBench d) (sendStart sent' v' w') js) :
    let a := run (sendStep c mem) (sendStart sent v w) is
    let b := run (sendStep d mem') (sendStart sent' v' w') js
    isTransmitter a.1.1.core = true → a.1.1.core.err.errFrmReq = false →
      a.1.1.core.pc.currState.inPlain = true → ∀ i, SendBench d b i → LosesArbitration d b i →
      nbs (sendStep d mem' b i).1.2.frame <+: nbs a.1.2.frame →
      ∀ esi esi', (a.2.offered.header c esi).Precedes (b.2.offered.header d esi') := by
  intro a b hx he hq i hok hl hbus
  have ha : SendInvariant c mem a := run_sendInvariant hc hct sent v w is hi
  have hb : SendInvariant d mem' b := run_sendInvariant hd hdt sent' v' w' js hj
  obtain ⟨e, hwin⟩ := ha.own_frame hx he hq
  obtain ⟨e', -, hlost, hbits⟩ := hb.lost hd hdb hok hl
  obtain ⟨more, hframe⟩ := identBits_isPrefix mem (a.2.offered.header c e)
  rw [hbits] at hbus
  rw [← hframe] at hwin
  have ho := overrules_of_prefix (hbus.trans hwin) hlost
  have hprec := Header.precedes_of_overrules more (TranMeta.header_wellFormed c _ e)
    (TranMeta.header_wellFormed d _ e') ho
  -- The ESI bit is behind the arbitration field.
  exact fun _ _ => hprec

theorem arbitration_priority_later :
    (byteMeta.header listener false).Precedes (laterMeta.header listener false) := by
  have hadm : Admits (sendStep listener byteWords) (SendBench listener)
      (sendStart true [] ⟨byteMeta, 0x53⟩) (byteSent.take 170) := by decide +kernel
  have hadm' : Admits (sendStep listener byteWords) (SendBench listener)
      (sendStart true [] ⟨laterMeta, 0x53⟩) laterSent := by decide +kernel
  have hrun : (fun a b : (CrcCore × FrameWatch) × SendWatch =>
      (isTransmitter a.1.1.core = true ∧ a.1.1.core.err.errFrmReq = false ∧
        a.1.1.core.pc.currState.inPlain = true ∧ a.2.offered = byteMeta) ∧
      (SendBench listener b laterLost ∧ LosesArbitration listener b laterLost ∧
        b.2.offered = laterMeta) ∧
      nbs (sendStep listener byteWords b laterLost).1.2.frame <+: nbs a.1.2.frame)
      (run (sendStep listener byteWords) (sendStart true [] ⟨byteMeta, 0x53⟩) (byteSent.take 170))
      (run (sendStep listener byteWords) (sendStart true [] ⟨laterMeta, 0x53⟩) laterSent) := by
    decide +kernel
  obtain ⟨⟨hx, he, hq, hm⟩, ⟨hok, hl, hm'⟩, hbus⟩ := hrun
  have hprec := arbitration_priority listener listener rfl rfl rfl rfl rfl byteWords byteWords true
    true [] [] _ _ _ _ hadm hadm' hx he hq laterLost hok hl hbus false false
  rwa [hm, hm'] at hprec

/-! ## Nodes that are still transmitting -/

/-- Behind the arbitration field, up to the end of frame. -/
def behindArbitration : PcState → Bool
  | .edlR1 | .edlR0 | .r0Ext | .r0Fd | .brs | .esi | .dlc | .data => true
  | st => behindData st

theorem SendInvariant.arbitrated {c : Config} {mem : Nat → BitVec 32}
    {q : (CrcCore × FrameWatch) × SendWatch} (h : SendInvariant c mem q)
    (hx : isTransmitter q.1.1.core = true) (he : q.1.1.core.err.errFrmReq = false)
    (hq : behindArbitration q.1.1.core.pc.currState = true) :
    ∃ e, (q.2.offered.header c e).identBits <+: nbs q.1.2.frame := by
  have hcases : behindData q.1.1.core.pc.currState = true ∨
      q.1.1.core.pc.currState.inPlain = true ∧
        ∀ g : Header, g.identBits <+: sentSoFar g mem q.1.1.core.ctr q.1.1.core.pc.currState := by
    have hcontrol : ∀ (g : Header) more, g.identBits <+: g.controlBits ++ more := fun g more => by
      rw [Header.controlBits, List.append_assoc]
      exact List.prefix_append _ _
    revert hq
    cases q.1.1.core.pc.currState <;> intro hq <;>
      first | exact absurd hq (by decide) | exact .inl hq | skip
    case edlR1 | edlR0 => exact .inr ⟨rfl, fun g => List.prefix_refl _⟩
    case r0Ext | r0Fd | brs | esi => exact .inr ⟨rfl, fun g => List.prefix_append _ _⟩
    case dlc => exact .inr ⟨rfl, fun g => hcontrol g _⟩
    case data => exact .inr ⟨rfl, fun g => by
      rw [sentSoFar, Header.sentBits, List.append_assoc]
      exact hcontrol g _⟩
  rcases hcases with hq | ⟨hq, hident⟩
  · obtain ⟨e, hdone⟩ := h.sending.done hx he hq
    exact ⟨e, (identBits_isPrefix mem _).trans hdone⟩
  · obtain ⟨e, hs, -⟩ := h.sending.sends hx he hq
    exact ⟨e, hs.bits ▸ hident _⟩

/-- Two nodes that are both transmitting behind the arbitration field, with no error and with the
same bits taken from the bus, offer frames with the same identifier and of the same kind. -/
theorem single_transmitter (c d : Config) (hc : c.mrSettingsEna = true)
    (hct : c.mrModeTstm = false) (hd : d.mrSettingsEna = true) (hdt : d.mrModeTstm = false)
    (mem mem' : Nat → BitVec 32) (sent sent' : Bool)
    (v v' : List FrameBit) (w w' : SendWatch) (is js : List Input)
    (hi : Admits (sendStep c mem) (SendBench c) (sendStart sent v w) is)
    (hj : Admits (sendStep d mem') (SendBench d) (sendStart sent' v' w') js) :
    let a := run (sendStep c mem) (sendStart sent v w) is
    let b := run (sendStep d mem') (sendStart sent' v' w') js
    isTransmitter a.1.1.core = true → a.1.1.core.err.errFrmReq = false →
      behindArbitration a.1.1.core.pc.currState = true →
      isTransmitter b.1.1.core = true → b.1.1.core.err.errFrmReq = false →
      behindArbitration b.1.1.core.pc.currState = true → nbs a.1.2.frame <+: nbs b.1.2.frame →
      ∀ esi esi', (a.2.offered.header c esi).SameArbitration (b.2.offered.header d esi') := by
  intro a b hx he hq hx' he' hq' hbus
  have ha : SendInvariant c mem a := run_sendInvariant hc hct sent v w is hi
  have hb : SendInvariant d mem' b := run_sendInvariant hd hdt sent' v' w' js hj
  obtain ⟨e, hown⟩ := ha.arbitrated hx he hq
  obtain ⟨e', hown'⟩ := hb.arbitrated hx' he' hq'
  have hw := TranMeta.header_wellFormed c a.2.offered e
  have hw' := TranMeta.header_wellFormed d b.2.offered e'
  have hsame : (a.2.offered.header c e).SameArbitration (b.2.offered.header d e') := by
    rcases List.prefix_or_prefix_of_prefix (hown.trans hbus) hown' with hpre | hpre
    · exact Header.sameArbitration_of_prefix hw hw' hpre
    · exact (Header.sameArbitration_of_prefix hw' hw hpre).symm
  exact fun _ _ => ⟨hsame.ident, hsame.identType, hsame.isRtr⟩

/-- A frame of three bytes under the identifier of `byteMeta`. -/
def twinMeta : TranMeta := { byteMeta with tranDlc := 3 }

def twinWords (a : Nat) : BitVec 32 := if a = 4 then 0xC0FFEE else 0

/-- The node that offers it, with `byteFrame` on the bus, up to the third bit of the DLC, in which
the two frames differ. -/
def twinSent : List Input :=
  ((frameOnBus true byteFrame).map fun i =>
    { i with tranMeta := twinMeta, tranWord := 0xC0FFEE }).take 149

theorem single_transmitter_twin :
    let a := run (sendStep listener twinWords) (sendStart true [] ⟨twinMeta, 0xC0FFEE⟩) twinSent
    let b := run (sendStep listener byteWords) (sendStart true [] ⟨byteMeta, 0x53⟩) byteSent
    a.2.offered ≠ b.2.offered ∧
      (a.2.offered.header listener false).SameArbitration (b.2.offered.header listener false) := by
  have hadm : Admits (sendStep listener twinWords) (SendBench listener)
      (sendStart true [] ⟨twinMeta, 0xC0FFEE⟩) twinSent := by decide +kernel
  have hadm' : Admits (sendStep listener byteWords) (SendBench listener)
      (sendStart true [] ⟨byteMeta, 0x53⟩) byteSent := by decide +kernel
  have hrun : (fun a b : (CrcCore × FrameWatch) × SendWatch =>
      (isTransmitter a.1.1.core = true ∧ a.1.1.core.err.errFrmReq = false ∧
        behindArbitration a.1.1.core.pc.currState = true ∧ a.2.offered = twinMeta) ∧
      (isTransmitter b.1.1.core = true ∧ b.1.1.core.err.errFrmReq = false ∧
        behindArbitration b.1.1.core.pc.currState = true ∧ b.2.offered = byteMeta) ∧
      nbs a.1.2.frame <+: nbs b.1.2.frame)
      (run (sendStep listener twinWords) (sendStart true [] ⟨twinMeta, 0xC0FFEE⟩) twinSent)
      (run (sendStep listener byteWords) (sendStart true [] ⟨byteMeta, 0x53⟩) byteSent) := by
    decide +kernel
  obtain ⟨⟨hx, he, hq, hm⟩, ⟨hx', he', hq', hm'⟩, hbus⟩ := hrun
  refine ⟨by rw [hm, hm']; decide, ?_⟩
  exact single_transmitter listener listener rfl rfl rfl rfl twinWords byteWords true true [] [] _ _
    _ _ hadm hadm' hx he hq hx' he' hq' hbus false false

end CanCore
