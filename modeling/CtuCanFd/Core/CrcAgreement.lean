import CtuCanFd.Core.HeaderFields

/-!
# Transmitter and receivers agree on the CRC

Where fixed stuffing starts is a function of the bits too: whole bytes follow the header, and
then the CRC or the five bits of the stuff count. If one node took for data what is the stuff
count for another one, it would be left with part of a byte. So nodes that sample the same
bits mark the same stuff bits, and calculate the same CRC.
-/

open ProtocolControl SyncMachine

namespace CanCore

open FrameFormat (headerLength)

/-! ## Frames up to the CRC -/

/-- A header and whole bytes, with regular stuffing. -/
structure WholeBytes (u : List FrameBit) : Prop where
  regular : ∀ b ∈ u, b.fixed = false
  complete : headerLength (nbs u) ≤ (nbs u).length
  bytes : (nbs u).length % 8 = headerLength (nbs u) % 8

/-- Whole bytes, and `n` bits with fixed stuffing behind them. -/
def FixedTail (n : Nat) (v : List FrameBit) : Prop :=
  ∃ u t, v = u ++ t ∧ WholeBytes u ∧ (∀ b ∈ t, b.fixed = true) ∧ t.length = n

/-- The stuff count is a fixed stuff bit and four bits. -/
def CoveredFrame (v : List FrameBit) : Prop := FixedTail 0 v ∨ FixedTail 5 v

theorem WholeBytes.noTail {u : List FrameBit} (h : WholeBytes u) : FixedTail 0 u :=
  ⟨u, [], by simp, h, by simp, rfl⟩

theorem FixedTail.concat {n : Nat} {v : List FrameBit} {b : FrameBit} (h : FixedTail n v)
    (hb : b.fixed = true) : FixedTail (n + 1) (v ++ [b]) := by
  obtain ⟨u, t, rfl, hu, ht, hn⟩ := h
  refine ⟨u, t ++ [b], by simp, hu, fun x hx => ?_, by simp [hn]⟩
  rcases List.mem_append.mp hx with hx | hx
  · exact ht x hx
  · rw [List.mem_singleton.mp hx]
    exact hb

/-! ### The marks of a part of a frame -/

theorem length_mark (u : BitRun) (x : List (Bool × Bool)) : (mark u x).length = x.length := by
  induction x generalizing u with
  | nil => rfl
  | cons a x ih => simp [mark, ih]

theorem mark_append (u : BitRun) (x y : List (Bool × Bool)) :
    mark u (x ++ y) = mark u x ++ mark ((mark u x).foldl BitRun.next u) y := by
  induction x generalizing u with
  | nil => rfl
  | cons a x ih => simp [mark, ih]

theorem raw_append (u t : List FrameBit) : raw (u ++ t) = raw u ++ raw t := List.map_append

theorem Marked.split {u t : List FrameBit} (h : Marked (u ++ t)) :
    Marked u ∧ mark (bitRun u) (raw t) = t := by
  rw [Marked, raw_append, mark_append] at h
  obtain ⟨hu, ht⟩ := List.append_inj h (by simp [length_mark, raw])
  rw [hu] at ht
  exact ⟨hu, ht⟩

theorem raw_of_fixed {f : Bool} {v : List FrameBit} (h : ∀ b ∈ v, b.fixed = f) :
    raw v = (v.map FrameBit.bit).map (·, f) := by
  rw [raw, List.map_map]
  exact List.map_congr_left fun b hb => by simp [h b hb]

/-- A regular stuff bit is not followed by another one. -/
theorem nbs_ne_nil {u : BitRun} {x : List FrameBit} (hm : mark u (raw x) = x)
    (hx : ∀ b ∈ x, b.fixed = false) (hlen : 2 ≤ x.length) : nbs x ≠ [] := by
  match x, hlen with
  | ⟨a, p, f⟩ :: ⟨b, q, g⟩ :: rest, _ =>
    have hf : f = false := hx ⟨a, p, f⟩ (by simp)
    have hg : g = false := hx ⟨b, q, g⟩ (by simp)
    subst hf hg
    simp only [raw, List.map_cons, mark, List.cons.injEq, FrameBit.mk.injEq, true_and,
      and_true] at hm
    obtain ⟨hp, hq, -⟩ := hm
    cases p
    · simp [nbs]
    · have hq : q = false := by
        rw [← hq, hp]
        simp [BitRun.stuffDue, BitRun.next]
      simp [nbs, hq]

/-! ### The bits determine the frame -/

theorem FixedTail.eq_of_bits {n : Nat} {v w : List FrameBit} (hv : FixedTail n v)
    (hw : FixedTail n w) (hmv : Marked v) (hmw : Marked w)
    (hbits : v.map FrameBit.bit = w.map FrameBit.bit) : v = w := by
  obtain ⟨u, t, rfl, hu, ht, hn⟩ := hv
  obtain ⟨u', t', rfl, hu', ht', hn'⟩ := hw
  have hlen : (u.map FrameBit.bit).length = (u'.map FrameBit.bit).length := by
    have := congrArg List.length hbits
    simp only [List.length_map, List.length_append] at this ⊢
    omega
  rw [List.map_append, List.map_append] at hbits
  obtain ⟨hbu, hbt⟩ := List.append_inj hbits hlen
  have hraw : raw (u ++ t) = raw (u' ++ t') := by
    rw [raw_append, raw_append, raw_of_fixed hu.regular, raw_of_fixed hu'.regular,
      raw_of_fixed ht, raw_of_fixed ht', hbu, hbt]
  exact hmv.symm.trans ((congrArg _ hraw).trans hmw)

/-- The bits of a stuff count are not whole bytes of data with their stuff bits. -/
theorem FixedTail.not_bytes {v w : List FrameBit} (hv : FixedTail 0 v) (hw : FixedTail 5 w)
    (hmv : Marked v) (hmw : Marked w) : v.map FrameBit.bit ≠ w.map FrameBit.bit := by
  intro hbits
  obtain ⟨u, t, rfl, hu, -, hn⟩ := hv
  obtain ⟨u', t', rfl, hu', -, hn'⟩ := hw
  rw [List.eq_nil_of_length_eq_zero hn, List.append_nil] at hmv hbits
  rw [List.map_append] at hbits
  -- up to the stuff count the frames are the same
  obtain ⟨y, x, rfl, hy, hx⟩ := List.map_eq_append_iff.mp hbits
  have hreg := hu.regular
  have hyu : y = u' := by
    have hraw : raw y = raw u' := by
      rw [raw_of_fixed fun b hb => hreg b (List.mem_append_left _ hb),
        raw_of_fixed hu'.regular, hy]
    exact hmv.split.1.symm.trans ((congrArg _ hraw).trans hmw.split.1)
  subst hyu
  have h5 : x.length = 5 := by
    have := congrArg List.length hx
    simpa [hn'] using this
  have hnbs : nbs (y ++ x) = nbs y ++ nbs x := by simp [nbs]
  have hhead := FrameFormat.headerLength_append (nbs x) hu'.complete
  have hbytes := hu.bytes
  rw [hnbs, hhead, List.length_append] at hbytes
  have hle : (nbs x).length ≤ 5 := by
    rw [nbs, List.length_map, ← h5]
    exact List.length_filter_le _ _
  have hne := nbs_ne_nil hmv.split.2 (fun b hb => hreg b (List.mem_append_right _ hb)) (by omega)
  have hpos := List.length_pos_iff.mpr hne
  have := hu'.bytes
  omega

theorem CoveredFrame.eq_of_bits {v w : List FrameBit} (hv : CoveredFrame v) (hw : CoveredFrame w)
    (hmv : Marked v) (hmw : Marked w) (hbits : v.map FrameBit.bit = w.map FrameBit.bit) :
    v = w := by
  rcases hv with hv | hv <;> rcases hw with hw | hw
  · exact hv.eq_of_bits hw hmv hmw hbits
  · exact absurd hbits (hv.not_bytes hw hmv hmw)
  · exact absurd hbits.symm (hw.not_bytes hv hmw hmv)
  · exact hv.eq_of_bits hw hmv hmw hbits

/-! ## Invariant -/

/-- After `n` bits with fixed stuffing, up to the next stuff bit. -/
structure TailRun (n : Nat) (u : BitRun) : Prop where
  fixed : u.fixed = (n != 0)
  length : n ≠ 0 → u.length = n

theorem TailRun.stuffDue {n : Nat} {u : BitRun} (h : TailRun n u) (hn : n ≤ 4) :
    u.stuffDue true = (n == 0) := by
  by_cases h0 : n = 0
  · simp [BitRun.stuffDue, h.fixed, h0]
  · have h5 : (u.length == 5) = false := by
      rw [h.length h0, beq_eq_false_iff_ne]
      omega
    have hz : (n == 0) = false := beq_eq_false_iff_ne.mpr h0
    rw [BitRun.stuffDue, h.fixed, h5, bne, hz]
    rfl

theorem TailRun.next {n : Nat} {u : BitRun} {bit : Bool} (h : TailRun n u) :
    TailRun (n + 1) (u.next ⟨bit, n == 0, true⟩) where
  fixed := by simp [BitRun.next]
  length _ := by
    by_cases h0 : n = 0
    · simp [BitRun.next, h0]
    · simp [BitRun.next, h0, h.length h0]

theorem bitRun_regular {v : List FrameBit} (h : ∀ b ∈ v, b.fixed = false) :
    TailRun 0 (bitRun v) where
  fixed := by
    rcases List.eq_nil_or_concat v with rfl | ⟨v, b, rfl⟩
    · rfl
    · simpa [bitRun, List.foldl_append, BitRun.next] using h b (by simp)
  length h0 := absurd rfl h0

/-- The fields covered by the CRC, whatever length a node gives its data field. -/
structure FieldsRead (s : State) (v : List FrameBit) : Prop where
  regular : s.pc.currState.inPlain = true → ∀ b ∈ v, b.fixed = false
  data : s.pc.currState = .data → headerLength (nbs v) ≤ (nbs v).length ∧
    ((nbs v).length + s.ctr.ctrlCtrQ + 1) % 8 = headerLength (nbs v) % 8
  count : s.pc.currState = .stuffCount →
    ∃ n ≤ 4, FixedTail n v ∧ TailRun n (bitRun v) ∧ n - 1 + s.ctr.ctrlCtrQ = 3
  done : s.pc.currState.behindCovered = true → CoveredFrame v

section Steps

variable {c : Config} {k : Clock} {s : State} {i : Input} {v : List FrameBit}

theorem seen_regular (h : ∀ b ∈ v, b.fixed = false) (he : s.err.errFrmReq = false)
    (hq : s.pc.currState.inPlain = true) : ∀ b ∈ seen c v s i, b.fixed = false := by
  have hcov := inCovered_of_inPlain hq
  have hfix := (out_plain (c := c) (i := pcInput c s i) he hq).fixedStuff
  intro b hb
  rw [seen, if_neg (by simp [he]), if_pos hcov] at hb
  split at hb
  · rcases List.mem_append.mp hb with hb | hb
    · exact h b hb
    · rw [List.mem_singleton.mp hb]
      exact hfix
  · exact h b hb

/-- Fields with a counter are left with their last bit. -/
theorem leave_counted (he : s.err.errFrmReq = false)
    (hq : (s.pc.currState = .dlc ∨ s.pc.currState = .data) ∨ s.pc.currState = .stuffCount)
    (h' : (step c s i).pc.currState ≠ s.pc.currState) :
    pcRxTrigger s = true ∧ s.ctr.ctrlCtrZero = true ∧
      (step c s i).pc.currState = nextState c s.pc (pcInput c s i) := by
  rcases state_cases (c := c) (i := i) he with hs | ⟨ht, hs⟩
  · exact absurd hs h'
  · refine ⟨ht, ?_, hs⟩
    by_contra hz
    have hz : s.ctr.ctrlCtrZero = false := by simpa using hz
    refine h' (hs.trans ?_)
    rcases hq with (hq | hq) | hq <;> simp [nextState, he, hq, hz]

/-- While the data field or the stuff count goes on, a bit taken is not the last one. -/
theorem counted_taken (he : s.err.errFrmReq = false)
    (hq : s.pc.currState = .data ∨ s.pc.currState = .stuffCount)
    (h' : (step c s i).pc.currState = s.pc.currState) (ht : pcRxTrigger s = true) :
    s.ctr.ctrlCtrQ ≠ 0 ∧ (step c s i).ctr.ctrlCtrQ = (s.ctr.ctrlCtrQ + 511) % 512 := by
  have hst := state_sample (c := c) (i := i) ht he (by rcases hq with hq | hq <;> simp [Stalled, hq])
  have hz : s.ctr.ctrlCtrZero = false := by
    by_contra hz
    have hz : s.ctr.ctrlCtrZero = true := by simpa using hz
    rw [h', nextState, pcInput_errFrmReq, he] at hst
    rcases hq with hq | hq <;> rw [hq] at hst <;>
      simp only [pcInput_ctrlCtrZero, hz, Bool.false_eq_true, if_false, if_true] at hst
    · split at hst <;> cases hst
    · cases hst
  have hctr := ctr_taken (c := c) (i := i) he ht
  refine ⟨by simpa [ControlCounter.ctrlCtrZero] using hz, ?_⟩
  rcases hq with hq | hq <;> rw [hq] at hctr <;>
    simpa only [outState, outData, outStuffCount, pcInput_ctrlCtrZero, hz, Bool.false_eq_true,
      if_false, if_true] using hctr

/-- The last bit of the DLC or of the data field completes a byte. -/
theorem FieldsRead.bytes (h : FieldsRead s v) (hread : HeaderRead k s v) (hf : Following c k s)
    (he : s.err.errFrmReq = false) (hq : s.pc.currState = .dlc ∨ s.pc.currState = .data)
    (ht : pcRxTrigger s = true) (hz : s.ctr.ctrlCtrZero = true) :
    WholeBytes (seen c v s i) := by
  have hplain : s.pc.currState.inPlain = true := by rcases hq with hq | hq <;> rw [hq] <;> rfl
  have hreg := seen_regular (c := c) (i := i) (h.regular hplain) he hplain
  rcases hq with hq | hq
  · have hlen := (hread.complete (c := c) (i := i) hf he hq hz ht).1
    exact ⟨hreg, hlen.ge, by rw [← hlen]⟩
  · obtain ⟨hle, hmod⟩ := h.data hq
    have h0 : s.ctr.ctrlCtrQ = 0 := by simpa [ControlCounter.ctrlCtrZero] using hz
    have hn : nbs (seen c v s i) = nbs v ++ [s.bds.dataOut] := by
      rw [nbs_seen he (by rw [hq]; rfl), if_pos ht]
    have hhead := FrameFormat.headerLength_append [s.bds.dataOut] hle
    refine ⟨hreg, ?_, ?_⟩ <;> rw [hn, hhead, List.length_append, List.length_singleton] <;> omega

theorem FieldsRead.next_regular (h : FieldsRead s v)
    (h' : (step c s i).pc.currState.inPlain = true) : ∀ b ∈ seen c v s i, b.fixed = false := by
  obtain ⟨he, hq | ⟨hq, ht⟩⟩ := enter_plain (c := c) (q := s.pc) (i := pcInput c s i) h'
  · exact seen_regular (h.regular hq) he hq
  · have he : s.err.errFrmReq = false := he
    have ht : pcRxTrigger s = true := ht
    have hcov := inCovered_of_inPause hq
    intro b hb
    rw [seen, if_neg (by simp [he]), if_neg (by simp [hcov]), if_pos (by simp [hq, ht])] at hb
    split at hb
    · rw [List.mem_singleton.mp hb]
    · cases hb

/-- The data field is loaded with whole bytes. -/
theorem HeaderRead.enter_data (hread : HeaderRead k s v) (hf : Following c k s)
    (he : s.err.errFrmReq = false) (hq : s.pc.currState = .dlc) (hz : s.ctr.ctrlCtrZero = true)
    (ht : pcRxTrigger s = true) (h' : (step c s i).pc.currState = .data) :
    headerLength (nbs (seen c v s i)) ≤ (nbs (seen c v s i)).length ∧
      ((nbs (seen c v s i)).length + (step c s i).ctr.ctrlCtrQ + 1) % 8 =
        headerLength (nbs (seen c v s i)) % 8 := by
  have hlen := (hread.complete (c := c) (i := i) hf he hq hz ht).1
  have hend := dlc_end (c := c) (i := i) he hq hz ht
  split at hend
  · exact absurd h' hend
  · refine ⟨hlen.ge, ?_⟩
    rw [hend.2, dataLengthBitsC]
    dsimp only
    omega

/-- Its counter counts the bits taken. -/
theorem FieldsRead.next_data (h : FieldsRead s v) (hread : HeaderRead k s v)
    (hf : Following c k s) (h' : (step c s i).pc.currState = .data) :
    headerLength (nbs (seen c v s i)) ≤ (nbs (seen c v s i)).length ∧
      ((nbs (seen c v s i)).length + (step c s i).ctr.ctrlCtrQ + 1) % 8 =
        headerLength (nbs (seen c v s i)) % 8 := by
  have hedge : ∀ st : PcState, .data ∈ st.successors → st = .dlc := by decide
  obtain ⟨he, hq | ⟨hq, hz, ht⟩⟩ := enter_behindHeader (c := c) (s := s) (i := i)
    (by rw [h']; rfl)
  · have hq : s.pc.currState = .data := by
      rcases state_flow (c := c) (i := i) he with hs | ⟨-, hs⟩
      · exact hs.symm.trans h'
      · rw [h'] at hs
        rw [hedge _ hs] at hq
        cases hq
    have hcov : s.pc.currState.inCovered = true := by rw [hq]; rfl
    obtain ⟨hle, hmod⟩ := h.data hq
    rw [nbs_seen he hcov]
    cases ht : pcRxTrigger s
    · rw [if_neg (by decide),
        (kept_between (c := c) (i := i) he (.inl (inStuffed_of_inCovered hcov)) ht).ctr]
      exact ⟨hle, hmod⟩
    · obtain ⟨hne, hctr⟩ := counted_taken he (.inl hq) (h'.trans hq.symm) ht
      rw [if_pos rfl, FrameFormat.headerLength_append _ hle, List.length_append,
        List.length_singleton, hctr]
      exact ⟨by omega, by omega⟩
  · exact hread.enter_data hf he hq hz ht h'

/-- In the stuff count, the first bit is a stuff bit and the other ones are not. -/
theorem Marks.stuffCount_destuffed {n : Nat} (hm : Marks c k s v) (hf : Following c k s)
    (he : s.err.errFrmReq = false) (hq : s.pc.currState = .stuffCount) (h0 : k.since = 0)
    (hrun : TailRun n (bitRun v)) (hn : n ≤ 4) :
    s.bds.destuffedQ = (n == 0) ∧ pcRxTrigger s = !(n == 0) := by
  have hmarked := (hm.tracks (by rw [hq]; rfl) he).1
  rw [upTo, if_pos h0, hq] at hmarked
  have hlast := hmarked.split.2
  simp only [raw, List.map_cons, List.map_nil, mark, List.cons.injEq, FrameBit.mk.injEq,
    true_and, and_true] at hlast
  have hstuff : s.bds.destuffedQ = (n == 0) := hlast.symm.trans (hrun.stuffDue hn)
  exact ⟨hstuff, by simp [pcRxTrigger, (h0 ▸ hf.paced : Paced s 0).trigger, hstuff]⟩

/-- The stuff count is entered behind whole bytes. -/
theorem FieldsRead.enter_count (h : FieldsRead s v) (hread : HeaderRead k s v)
    (hf : Following c k s) (he : s.err.errFrmReq = false)
    (hq : s.pc.currState = .dlc ∨ s.pc.currState = .data)
    (h' : (step c s i).pc.currState = .stuffCount) :
    FixedTail 0 (seen c v s i) ∧ TailRun 0 (bitRun (seen c v s i)) ∧
      (step c s i).ctr.ctrlCtrQ = 3 := by
  have hleave : (step c s i).pc.currState ≠ s.pc.currState := by
    rw [h']
    rcases hq with hq | hq <;> rw [hq] <;> decide
  obtain ⟨ht, hz, hst⟩ := leave_counted he (.inl hq) hleave
  have hbytes := h.bytes (c := c) (i := i) hread hf he hq ht hz
  refine ⟨hbytes.noTail, bitRun_regular hbytes.regular, ?_⟩
  have hctr := ctr_taken (c := c) (i := i) he ht
  rw [h', nextState, pcInput_errFrmReq, he] at hst
  rcases hq with hq | hq <;> rw [hq] at hctr hst <;>
    simp only [outState, outDlc, outData, pcInput_ctrlCtrZero, hz, Bool.false_eq_true, if_false,
      if_true] at hctr hst <;>
    grind

/-- A bit of the stuff count; its stuff bit is not counted. -/
theorem FieldsRead.taken_count (h : FieldsRead s v) (hm : Marks c k s v) (hf : Following c k s)
    (he : s.err.errFrmReq = false) (hq : s.pc.currState = .stuffCount)
    (h' : (step c s i).pc.currState = .stuffCount) (h0 : k.since = 0) :
    ∃ n ≤ 4, FixedTail n (seen c v s i) ∧ TailRun n (bitRun (seen c v s i)) ∧
      n - 1 + (step c s i).ctr.ctrlCtrQ = 3 := by
  have hcov : s.pc.currState.inCovered = true := by rw [hq]; rfl
  obtain ⟨n, hn, htail, hrun, hctr⟩ := h.count hq
  obtain ⟨hstuff, htrig⟩ := hm.stuffCount_destuffed hf he hq h0 hrun hn
  rw [Marks.seen_upTo hf he hcov, upTo, if_pos h0, hq, hstuff]
  have hrun' : TailRun (n + 1) (bitRun (v ++ [⟨s.bds.dataOut, n == 0, true⟩])) := by
    rw [bitRun, List.foldl_append]
    exact hrun.next
  by_cases hz : n = 0
  · have ht : pcRxTrigger s = false := by simpa [hz] using htrig
    have hkept := kept_between (c := c) (i := i) he (.inl (inStuffed_of_inCovered hcov)) ht
    exact ⟨n + 1, by omega, htail.concat rfl, hrun', by rw [hkept.ctr]; omega⟩
  · have ht : pcRxTrigger s = true := by rw [htrig, beq_eq_false_iff_ne.mpr hz]; rfl
    obtain ⟨hne, hctr'⟩ := counted_taken he (.inr hq) (h'.trans hq.symm) ht
    exact ⟨n + 1, by omega, htail.concat rfl, hrun', by rw [hctr']; omega⟩

theorem FieldsRead.next_count (h : FieldsRead s v) (hread : HeaderRead k s v)
    (hm : Marks c k s v) (hf : Following c k s) (h' : (step c s i).pc.currState = .stuffCount) :
    ∃ n ≤ 4, FixedTail n (seen c v s i) ∧ TailRun n (bitRun (seen c v s i)) ∧
      n - 1 + (step c s i).ctr.ctrlCtrQ = 3 := by
  have hedge : ∀ st : PcState, .stuffCount ∈ st.successors → st = .dlc ∨ st = .data := by decide
  obtain ⟨he, -⟩ := enter_behindHeader (c := c) (s := s) (i := i) (by rw [h']; rfl)
  rcases state_flow (c := c) (i := i) he with hs | ⟨-, hs⟩
  · have hq : s.pc.currState = .stuffCount := hs.symm.trans h'
    by_cases h0 : k.since = 0
    · exact h.taken_count hm hf he hq h' h0
    · have hcov : s.pc.currState.inCovered = true := by rw [hq]; rfl
      have hkept := kept_between (c := c) (i := i) he (.inl (inStuffed_of_inCovered hcov))
        (hf.paced.noTrigger h0)
      rw [Marks.seen_upTo hf he hcov, upTo_between h0, hkept.ctr]
      exact h.count hq
  · rw [h'] at hs
    obtain ⟨htail, hrun, hctr⟩ := h.enter_count (c := c) (i := i) hread hf he (hedge _ hs) h'
    exact ⟨0, by omega, htail, hrun, by rw [hctr]⟩

theorem FieldsRead.next_done (h : FieldsRead s v) (hread : HeaderRead k s v)
    (hf : Following c k s) (h' : (step c s i).pc.currState.behindCovered = true) :
    CoveredFrame (seen c v s i) := by
  have hedge : ∀ st t : PcState, t ∈ st.successors → t.behindCovered →
      st.behindCovered ∨ st = .dlc ∨ st = .data ∨ st = .stuffCount := by decide +kernel
  obtain ⟨he, hq | ⟨hcov, ht⟩⟩ := enter_behind h'
  · have hdis : s.pc.currState.inPause = false ∧ s.pc.currState.inCovered = false := by
      revert hq
      cases s.pc.currState <;> decide
    rw [seen_between hf.paced (.inl hdis.1) (.inl hdis.2)]
    exact h.done hq
  · have hne : (step c s i).pc.currState ≠ s.pc.currState := by
      intro hs
      rw [hs] at h'
      revert hcov h'
      cases s.pc.currState <;> decide
    have hfrom : (s.pc.currState = .dlc ∨ s.pc.currState = .data) ∨
        s.pc.currState = .stuffCount := by
      rcases state_flow (c := c) (i := i) he with hs | ⟨-, hs⟩
      · exact absurd hs hne
      · rcases hedge _ _ hs h' with hb | hb | hb | hb
        · revert hcov hb
          cases s.pc.currState <;> decide
        · exact .inl (.inl hb)
        · exact .inl (.inr hb)
        · exact .inr hb
    obtain ⟨-, hz, -⟩ := leave_counted he hfrom hne
    rcases hfrom with hq | hq
    · exact .inl (h.bytes hread hf he hq ht hz).noTail
    · -- four bits have been taken with fixed stuffing, and this is the fifth
      obtain ⟨n, hn, htail, hrun, hctr⟩ := h.count hq
      have hz : s.ctr.ctrlCtrQ = 0 := by simpa [ControlCounter.ctrlCtrZero] using hz
      obtain rfl : n = 4 := by omega
      have h0 := hf.paced.pcRxTrigger_since ht
      rw [Marks.seen_upTo hf he hcov, upTo, if_pos h0, hq]
      exact .inr (htail.concat rfl)

theorem FieldsRead.step_fields (h : FieldsRead s v) (hread : HeaderRead k s v)
    (hm : Marks c k s v) (hf : Following c k s) : FieldsRead (step c s i) (seen c v s i) where
  regular h' := h.next_regular h'
  data h' := h.next_data hread hf h'
  count h' := h.next_count hread hm hf h'
  done h' := h.next_done hread hf h'

theorem FieldsRead.of_reset (v : List FrameBit) : FieldsRead reset v where
  regular h := by cases h
  data h := by cases h
  count h := by cases h
  done h := by cases h

end Steps

theorem run_fieldsRead {c : Config} (hena : c.mrSettingsEna = true) (sent : Bool)
    (v : List FrameBit) (is : List Input)
    (h : Admits (crcStep c) (CrcBench c) (crcStart sent v) is) :
    let p := run (crcStep c) (crcStart sent v) is
    FieldsRead p.1.core p.2.frame :=
  (run_invariant (crcStep c) (CrcBench c)
    (fun p => CrcInvariant c p ∧ HeaderRead p.2.clock p.1.core p.2.frame ∧
      FieldsRead p.1.core p.2.frame)
    (fun _ _ h hok => ⟨h.1.step_invariant hena hok, h.2.1.step_read h.1.following hok,
      h.2.2.step_fields h.2.1 h.1.marks h.1.following⟩)
    ⟨.of_reset c sent v, .of_reset sent v, .of_reset v⟩ is h).2.2

/-! ## Every frame of a run -/

/-- The CRC is loaded with the bit that ends the covered fields. -/
theorem LoadsCrc.behindCovered {c : Config} {p : CrcCore × FrameWatch} {i : Input}
    (h : LoadsCrc c p i) : (crcStep c p i).1.core.pc.currState.behindCovered = true := by
  obtain ⟨-, ht, hload, -⟩ := h
  obtain ⟨he, hq⟩ := txLoadCrcI_state hload
  have hst : (step c p.1.core (p.1.input c i)).pc.currState =
      nextState c p.1.core.pc (pcInput c p.1.core (p.1.input c i)) :=
    step_sample ht he (by rcases hq with hq | hq | hq <;> simp [Stalled, hq])
  have hcrc : (step c p.1.core (p.1.input c i)).pc.currState = .crc := by
    rw [hst, nextState, pcInput_errFrmReq, he]
    rw [pcOut_noErr he] at hload
    rcases hq with hq | hq | hq <;> rw [hq] at hload ⊢ <;>
      simp only [outState, outDlc, outData, outStuffCount] at hload <;> grind
  exact congrArg PcState.behindCovered hcrc

/-- For every frame of two enabled nodes with the same kind of CAN FD: the CRC a transmitter
loads for sending, and the CRC a node compares with, cover every bit of the frame from SOF on
once and in order. If both nodes sampled the same bits, they mark the same stuff bits among them,
and the CRCs are equal. -/
theorem crc_coverage_agrees (c d : Config) (hc : c.mrSettingsEna = true)
    (hd : d.mrSettingsEna = true) (hiso : c.mrSettingsNisofd = d.mrSettingsNisofd)
    (sent sent' : Bool) (v w : List FrameBit) (is js : List Input) (i j : Input)
    (hi : Admits (crcStep c) (CrcBench c) (crcStart sent v) (is ++ [i]))
    (hj : Admits (crcStep d) (CrcBench d) (crcStart sent' w) js) :
    let t := run (crcStep c) (crcStart sent v) is
    let r := run (crcStep d) (crcStart sent' w) js
    (LoadsCrc c t i → CoversFrame c t.1.crc (crcStep c t i).2.frame) ∧
      (ComparesCrc d r j → CoversFrame d r.1.crc r.2.frame) ∧
      (LoadsCrc c t i → ComparesCrc d r j →
        (crcStep c t i).2.frame.map FrameBit.bit = r.2.frame.map FrameBit.bit →
        t.1.crc.crc15 = r.1.crc.crc15 ∧ t.1.crc.crc17 = r.1.crc.crc17 ∧
          t.1.crc.crc21 = r.1.crc.crc21) := by
  intro t r
  obtain ⟨his, hok, -⟩ := (admits_append _ _ _ _ _).mp hi
  have ht := run_crcInvariant hc sent v is his
  have hr := run_crcInvariant hd sent' w js hj
  refine ⟨fun hl => ht.loads hc hok hl, fun hcmp => hr.compares hcmp, fun hl hcmp hbits => ?_⟩
  have htc := ht.loads hc hok hl
  have hrc := hr.compares hcmp
  have hsent : CoveredFrame (crcStep c t i).2.frame := by
    have hnext := run_fieldsRead hc sent v (is ++ [i]) hi
    rw [run_append] at hnext
    exact hnext.done (LoadsCrc.behindCovered hl)
  have hreceived : CoveredFrame r.2.frame := by
    refine (run_fieldsRead hd sent' w js hj).done ?_
    rw [(crcCheck_state hcmp).2]
    rfl
  have hframe := hsent.eq_of_bits hreceived htc.marked hrc.marked hbits
  have hth := htc.holds
  rw [hframe] at hth
  refine ⟨hth.crc15.trans hrc.holds.crc15.symm, ?_, ?_⟩
  · rw [hth.crc17, hrc.holds.crc17, hiso]
  · rw [hth.crc21, hrc.holds.crc21, hiso]

/-- Up to the cycle in which the transmitter takes the last DLC bit. -/
def shortSent : List Input := (frameOnBus true shortHeader).take 156

/-- Up to the cycle in which the receiver takes the CRC delimiter. -/
def shortReceived : List Input := (frameOnBus false (shortHeader ++ shortCrc ++ [true])).take 236

/-- A frame sent by one node and received by another one. -/
theorem crc_coverage_agrees_short :
    let t := run (crcStep listener) (crcStart true []) shortSent
    let r := run (crcStep listener) (crcStart true []) shortReceived
    LoadsCrc listener t (shortNode true false false) ∧
      ComparesCrc listener r (shortNode false false true) ∧
      t.1.crc.crc15 = 0x674C ∧ r.1.crc.crc15 = 0x674C := by
  have hsend : Admits (crcStep listener) (CrcBench listener) (crcStart true [])
      (shortSent ++ [shortNode true false false]) := by decide +kernel
  have hreceive : Admits (crcStep listener) (CrcBench listener) (crcStart true [])
      shortReceived := by decide +kernel
  have hboth : (fun t r => LoadsCrc listener t (shortNode true false false) ∧
      ComparesCrc listener r (shortNode false false true) ∧
      (crcStep listener t (shortNode true false false)).2.frame.map FrameBit.bit =
        r.2.frame.map FrameBit.bit ∧
      t.1.crc.crc15 = 0x674C)
      (run (crcStep listener) (crcStart true []) shortSent)
      (run (crcStep listener) (crcStart true []) shortReceived) := by decide +kernel
  obtain ⟨hl, hcmp, hbits, hcrc⟩ := hboth
  have hagree := (crc_coverage_agrees listener listener rfl rfl rfl true true [] [] shortSent
    shortReceived _ _ hsend hreceive).2.2 hl hcmp hbits
  exact ⟨hl, hcmp, hcrc, hagree.1.symm.trans hcrc⟩

end CanCore
