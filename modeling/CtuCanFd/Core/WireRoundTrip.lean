import CtuCanFd.Core.Acceptance
import CtuCanFd.Core.FrameSent

/-!
# From TXT buffer to RX buffer

A receiver that samples the bits a transmitter has sent hands to the RX buffer the metadata the
TX arbitrator offered to the transmitter, and the data words of the TXT buffer.
-/

open ProtocolControl SyncMachine BitFields

namespace CanCore

open FrameFormat (Header headerLength)

/-! ## Data words and frame bits -/

/-- The data bits received are those of the frame behind its header. -/
structure Payload (bits : List Bool) (g : DataField) : Prop where
  length : g.length = (FrameFormat.header bits).dataLength
  takesPart : g.takesPart = true
  issued : g.issued = true
  header : headerLength bits ≤ bits.length
  data : g.bits <+: bits.drop (headerLength bits)

structure PayloadRead (s : State) (v : List FrameBit) (g : DataField) : Prop where
  field : isReceiver s = true → s.err.errFrmReq = false → s.pc.currState = .data →
    Payload (nbs v) g ∧ (nbs v).length = headerLength (nbs v) + g.bits.length
  done : isReceiver s = true → s.err.errFrmReq = false → behindData s.pc.currState = true →
    Payload (nbs v) g ∧ g.cut = false

theorem Payload.more {bits : List Bool} {g g' : DataField} (h : Payload bits g) (more : List Bool)
    (hlen : g'.length = g.length) (hpart : g'.takesPart = g.takesPart)
    (hissued : g'.issued = g.issued)
    (hdata : g'.bits <+: (bits ++ more).drop (headerLength bits)) : Payload (bits ++ more) g' where
  length := by rw [hlen, h.length, FrameFormat.header_append _ h.header]
  takesPart := hpart.trans h.takesPart
  issued := hissued.trans h.issued
  header := by
    have := h.header
    rw [FrameFormat.headerLength_append _ this, List.length_append]
    omega
  data := by rwa [FrameFormat.headerLength_append _ h.header]

section Steps

variable {c : Config} {k : Clock} {s : State} {i : Input} {v : List FrameBit} {g : DataField}

/-- The last bit of the DLC opens the data field. -/
theorem Payload.opened (hrec : Received c g s) (hread : HeaderRead k s v) (hf : Following c k s)
    (he : s.err.errFrmReq = false) (hr : isReceiver s = true) (hq : s.pc.currState = .dlc)
    (hz : s.ctr.ctrlCtrZero = true) (ht : pcRxTrigger s = true) :
    Payload (nbs (seen c v s i)) (g.next c s i) ∧
      (nbs (seen c v s i)).length = headerLength (nbs (seen c v s i)) + (g.next c s i).bits.length ∧
      (g.next c s i).cut = false := by
  obtain ⟨hlen, -⟩ := hread.complete (c := c) (i := i) hf he hq hz ht
  have hhead := header_dlc (c := c) (i := i) hread hf he hq hz ht
  have hctl := hrec.control
  rw [hq] at hctl
  have hbytes := frameBytes_last (c := c) (i := i) hctl he ht hz
  have hg : (g.next c s i).length = (g.takeDlc s).frameBytes c s i ∧
      (g.next c s i).takesPart = true ∧ (g.next c s i).issued = true ∧
      (g.next c s i).bits = [] ∧ (g.next c s i).cut = false := by
    simp [DataField.next, hq, hr, issues]
  obtain ⟨hlength, hpart, hissued, hbits, hcut⟩ := hg
  refine ⟨⟨?_, hpart, hissued, hlen.ge, ?_⟩, ?_, hcut⟩
  · rw [hlength, hbytes, hhead, isRemote, dataLengthC, pcInput_isTransmitter,
      isTransmitter_receiver hr]
    rfl
  · rw [hbits]
    exact List.nil_prefix
  · rw [hbits]
    exact hlen

/-- A data bit. -/
theorem Payload.taken (h : Payload (nbs v) g)
    (hlen : (nbs v).length = headerLength (nbs v) + g.bits.length) (he : s.err.errFrmReq = false)
    (hq : s.pc.currState = .data) :
    Payload (nbs (seen c v s i)) (g.next c s i) ∧
      (nbs (seen c v s i)).length =
        headerLength (nbs (seen c v s i)) + (g.next c s i).bits.length := by
  have hcov : s.pc.currState.inCovered = true := by rw [hq]; rfl
  have hexact : g.bits = (nbs v).drop (headerLength (nbs v)) := by
    refine h.data.eq_of_length ?_
    rw [List.length_drop]
    omega
  have hg : (g.next c s i).bits = if pcRxTrigger s then g.bits ++ [s.bds.dataOut] else g.bits := by
    simp [DataField.next, takesBit, hq, he]
  have hsame : (g.next c s i).length = g.length ∧ (g.next c s i).takesPart = g.takesPart ∧
      (g.next c s i).issued = g.issued := by
    simp [DataField.next, hq]
  obtain ⟨hl, hp, hi⟩ := hsame
  rw [nbs_seen he hcov]
  cases ht : pcRxTrigger s
  · rw [ht, if_neg (by decide)] at hg
    rw [if_neg (by decide), hg]
    refine ⟨?_, hlen⟩
    have hmore := h.more [] hl hp hi (by rw [List.append_nil, hg]; exact h.data)
    rwa [List.append_nil] at hmore
  · rw [ht, if_pos rfl] at hg
    rw [if_pos rfl, FrameFormat.headerLength_append _ h.header, hg]
    refine ⟨h.more _ hl hp hi ?_, by simp; omega⟩
    rw [hg, List.drop_append_of_le_length h.header, ← hexact]

theorem PayloadRead.next_field (h : PayloadRead s v g) (hrec : Received c g s)
    (hread : HeaderRead k s v) (hf : Following c k s) (hr' : isReceiver (step c s i) = true)
    (hq' : (step c s i).pc.currState = .data) :
    Payload (nbs (seen c v s i)) (g.next c s i) ∧
      (nbs (seen c v s i)).length =
        headerLength (nbs (seen c v s i)) + (g.next c s i).bits.length := by
  obtain ⟨he, hq | ⟨hq, hz, ht⟩⟩ := enter_behindHeader (c := c) (s := s) (i := i) (by rw [hq']; rfl)
  · have hd : s.pc.currState = .data := by
      rcases enter_data (c := c) (q := s.pc) (i := pcInput c s i) hq' with hd | hd
      · exact hd
      · rw [hd] at hq
        cases hq
    obtain ⟨hp, hlen⟩ := h.field (receiver_before he hq hr') he hd
    exact hp.taken hlen he hd
  · rw [isReceiver_step he (.inl hq)] at hr'
    obtain ⟨hp, hlen, -⟩ := Payload.opened (i := i) hrec hread hf he hr' hq hz ht
    exact ⟨hp, hlen⟩

theorem PayloadRead.next_done (h : PayloadRead s v g) (hrec : Received c g s)
    (hread : HeaderRead k s v) (hf : Following c k s) (hr' : isReceiver (step c s i) = true)
    (hq' : behindData (step c s i).pc.currState = true) :
    Payload (nbs (seen c v s i)) (g.next c s i) ∧ (g.next c s i).cut = false := by
  simp only [behindData, Bool.and_eq_true] at hq'
  obtain ⟨he, hq | ⟨hq, hz, ht⟩⟩ := enter_behindHeader (c := c) (s := s) (i := i) hq'.1
  · have hr := receiver_before he hq hr'
    by_cases hd : s.pc.currState = .data
    · obtain ⟨hp, hlen⟩ := h.field hr he hd
      exact ⟨(hp.taken hlen he hd).1, by simp [DataField.next, hd, he]⟩
    · obtain ⟨hp, hc⟩ := h.done hr he (by simp [behindData, hq, hd])
      obtain ⟨more, hmore⟩ := nbs_seen_more (c := c) (i := i) (v := v) he hq
      have hg : g.next c s i = { g with words := g.presented s } := by
        rw [DataField.next]
        cases hs : s.pc.currState <;> rw [hs] at hq hd <;>
          first | rfl | exact absurd rfl hd | cases hq
      rw [hmore, hg]
      refine ⟨hp.more more rfl rfl rfl ?_, hc⟩
      rw [List.drop_append_of_le_length hp.header]
      exact hp.data.trans (List.prefix_append _ _)
  · rw [isReceiver_step he (.inl hq)] at hr'
    obtain ⟨hp, -, hc⟩ := Payload.opened (i := i) hrec hread hf he hr' hq hz ht
    exact ⟨hp, hc⟩

theorem PayloadRead.of_reset (v : List FrameBit) : PayloadRead reset v .none where
  field h := by cases h
  done h := by cases h

end Steps

/-! ## Every frame of two runs -/

def storeStep (c : Config) :
    (CrcCore × FrameWatch) × DataField → Input → (CrcCore × FrameWatch) × DataField :=
  watched (crcStep c) fun g p i => g.next c p.1.core (p.1.input c i)

def storeStart (sent : Bool) (v : List FrameBit) : (CrcCore × FrameWatch) × DataField :=
  (crcStart sent v, .none)

def StoreBench (c : Config) (r : (CrcCore × FrameWatch) × DataField) (i : Input) : Prop :=
  CrcBench c r.1 i

instance (c : Config) (r : (CrcCore × FrameWatch) × DataField) (i : Input) :
    Decidable (StoreBench c r i) := inferInstanceAs (Decidable (CrcBench _ _ _))

structure StoreInvariant (c : Config) (r : (CrcCore × FrameWatch) × DataField) : Prop where
  following : Following c r.1.2.clock r.1.1.core
  header : HeaderRead r.1.2.clock r.1.1.core r.1.2.frame
  received : Received c r.2 r.1.1.core
  payload : PayloadRead r.1.1.core r.1.2.frame r.2

theorem run_storeInvariant {c : Config} (hena : c.mrSettingsEna = true) (sent : Bool)
    (v : List FrameBit) (is : List Input)
    (h : Admits (storeStep c) (StoreBench c) (storeStart sent v) is) :
    StoreInvariant c (run (storeStep c) (storeStart sent v) is) := by
  refine run_invariant (storeStep c) (StoreBench c) (StoreInvariant c) ?_
    ⟨.of_reset sent, .of_reset sent v, .of_reset c, .of_reset v⟩ is h
  rintro ⟨⟨p, f⟩, g⟩ i ⟨hf, hread, hrec, hpay⟩ hok
  have hok : Bench f.clock p.core (p.input c i) := hok
  exact ⟨hf.step_following hok hena, hread.step_read hf hok, step_received hrec,
    fun hr _ hq => hpay.next_field hrec hread hf hr hq,
    fun hr _ hq => hpay.next_done hrec hread hf hr hq⟩

/-- The words agree in the bytes of the frame. -/
def SameBytes (len k : Nat) (w x : BitVec 32) : Prop :=
  ∀ n < 4, 4 * k + n < len → w.extractLsb' (8 * n) 8 = x.extractLsb' (8 * n) 8

theorem HoldsBytes.sameBytes {g : DataField} {mem : Nat → BitVec 32} {k : Nat} {w : BitVec 32}
    (h : HoldsBytes g k w) (hbits : g.bits = dataBits mem g.length) :
    SameBytes g.length k w (mem (4 + k)) := by
  intro n hn hlt
  ext p hp
  have hbit := h n hn hlt p hp
  have hidx : 8 * (4 * k + n) + (7 - p) < 8 * g.length := by omega
  rw [hbits, dataBits, List.getElem?_map, List.getElem?_range hidx, Option.map_some,
    Option.some_inj, dataBit] at hbit
  have hword : (8 * (4 * k + n) + (7 - p)) / 32 = k := by omega
  have hlane : 8 * ((8 * (4 * k + n) + (7 - p)) / 8 % 4) + (7 - (8 * (4 * k + n) + (7 - p)) % 8) =
      8 * n + p := by omega
  rw [hword, hlane] at hbit
  simp only [BitVec.getElem_extractLsb']
  exact hbit.symm

/-- A receiver of the bits of a frame has its data. -/
theorem Payload.of_frame {h : Header} {mem : Nat → BitVec 32} {bits : List Bool} {g : DataField}
    (hp : Payload bits g) (hw : h.WellFormed) (hpre : frameBits mem h <+: bits)
    (hlen : g.bits.length = 8 * g.length) :
    g.length = h.dataLength ∧ g.bits = dataBits mem g.length := by
  have hl : g.length = h.dataLength := by rw [hp.length, (frameBits_read hw hpre).1]
  refine ⟨hl, ?_⟩
  obtain ⟨more, rfl⟩ := hpre
  have hdata := hp.data
  rw [frameBits, List.append_assoc, Header.headerLength_sentBits, List.drop_left, ← hl] at hdata
  have hsize : (dataBits mem g.length).length = 8 * g.length := by simp [dataBits]
  have hle : g.bits.length ≤ (dataBits mem g.length).length := by omega
  exact (List.prefix_of_prefix_length_le hdata (List.prefix_append _ _) hle).eq_of_length (by omega)

/-- For every frame of two enabled nodes: when the transmitter and a receiver are behind the data
field without an error, and the receiver has taken the bits the transmitter has, the receiver
presents to the RX buffer the metadata that was offered to the transmitter, with the ESI bit that
was sent, and has stored the data words of the TXT buffer, as many as the frame has. -/
theorem wire_round_trip (c d : Config) (hc : c.mrSettingsEna = true) (hd : d.mrSettingsEna = true)
    (htst : c.mrModeTstm = false) (mem : Nat → BitVec 32) (sent sent' : Bool)
    (v v' : List FrameBit) (w : SendWatch) (is js : List Input)
    (hi : Admits (sendStep c mem) (SendBench c) (sendStart sent v w) is)
    (hj : Admits (storeStep d) (StoreBench d) (storeStart sent' v') js) :
    let t := run (sendStep c mem) (sendStart sent v w) is
    let r := run (storeStep d) (storeStart sent' v') js
    isTransmitter t.1.1.core = true → t.1.1.core.err.errFrmReq = false →
      behindData t.1.1.core.pc.currState = true →
    isReceiver r.1.1.core = true → r.1.1.core.err.errFrmReq = false →
      behindData r.1.1.core.pc.currState = true →
    nbs t.1.2.frame = nbs r.1.2.frame →
    ∃ esi, r.1.1.core.rxs.view.header = t.2.offered.header c esi ∧
      (r.2.presented r.1.1.core).length = ((t.2.offered.header c esi).dataLength + 3) / 4 ∧
      ∀ k w, (r.2.presented r.1.1.core)[k]? = some w →
        SameBytes (t.2.offered.header c esi).dataLength k w (mem (4 + k)) := by
  intro t r htx hte htq hrx hre hrq hsame
  have hsend : FrameSending c mem t.1.2.clock t.1.1.core t.1.2.frame t.2 :=
    (run_sendInvariant hc htst sent v w is hi).sending
  have hstore : StoreInvariant d r := run_storeInvariant hd sent' v' js hj
  obtain ⟨e, hpre⟩ := hsend.done htx hte htq
  rw [hsame] at hpre
  have hw := TranMeta.header_wellFormed c t.2.offered e
  have hbehind : r.1.1.core.pc.currState.behindHeader = true := by
    simp only [behindData, Bool.and_eq_true] at hrq
    exact hrq.1
  have hnotData : r.1.1.core.pc.currState ≠ .data := by
    intro hd
    rw [hd] at hrq
    cases hrq
  obtain ⟨hpay, hcut⟩ := hstore.payload.done hrx hre hrq
  have hover := hstore.received.ended hnotData hpay.takesPart
  have hlen : r.2.bits.length = 8 * r.2.length :=
    hover.extent.resolve_right fun h => absurd (hcut.symm.trans h.1) (by decide)
  obtain ⟨hlength, hbits⟩ := hpay.of_frame hw hpre hlen
  refine ⟨e, (hstore.header.done hbehind).header.trans (frameBits_read hw hpre).1, ?_,
    fun k w hk => ?_⟩
  · rw [hover.count hpay.issued, DataField.wordCount, if_pos hlen, hlength]
  · rw [← hlength]
    exact (hstore.received.presented hk).sameBytes hbits

/-- The same bits at a node that has nothing to send. -/
def byteReceived : List Input := (frameOnBus false byteFrame).take 197

theorem wire_round_trip_byte :
    let t := run (sendStep listener byteWords) (sendStart true [] ⟨byteMeta, 0x53⟩) byteSent
    let r := run (storeStep listener) (storeStart true []) byteReceived
    t.2.offered = byteMeta ∧ (∃ esi, r.1.1.core.rxs.view.header = byteMeta.header listener esi) ∧
      ∀ w ∈ (r.2.presented r.1.1.core)[0]?, w.extractLsb' 0 8 = 0x53 := by
  have hsend : Admits (sendStep listener byteWords) (SendBench listener)
      (sendStart true [] ⟨byteMeta, 0x53⟩) byteSent := by decide +kernel
  have hstore : Admits (storeStep listener) (StoreBench listener) (storeStart true [])
      byteReceived := by decide +kernel
  have hruns : (fun (t : (CrcCore × FrameWatch) × SendWatch)
      (r : (CrcCore × FrameWatch) × DataField) =>
      ((isTransmitter t.1.1.core = true ∧ t.1.1.core.err.errFrmReq = false ∧
        behindData t.1.1.core.pc.currState = true) ∧
      (isReceiver r.1.1.core = true ∧ r.1.1.core.err.errFrmReq = false ∧
        behindData r.1.1.core.pc.currState = true)) ∧
      nbs t.1.2.frame = nbs r.1.2.frame ∧ t.2.offered = byteMeta)
      (run (sendStep listener byteWords) (sendStart true [] ⟨byteMeta, 0x53⟩) byteSent)
      (run (storeStep listener) (storeStart true []) byteReceived) := by decide +kernel
  obtain ⟨⟨⟨htx, hte, htq⟩, hrx, hre, hrq⟩, hsame, hm⟩ := hruns
  obtain ⟨esi, hhead, -, hwords⟩ := wire_round_trip listener listener rfl rfl rfl byteWords true true
    [] [] ⟨byteMeta, 0x53⟩ byteSent byteReceived hsend hstore htx hte htq hrx hre hrq hsame
  refine ⟨hm, ⟨esi, by rw [hhead, hm]⟩, fun w hw => ?_⟩
  have hbytes := hwords 0 w hw 0 (by decide)
  rw [hm] at hbytes
  have hlen : (byteMeta.header listener esi).dataLength = 1 := rfl
  exact (hbytes (by rw [hlen]; decide)).trans (by decide)

end CanCore
