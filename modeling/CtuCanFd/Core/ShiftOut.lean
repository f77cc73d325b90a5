import CtuCanFd.Core.Following

/-!
# Fields sent through the shift register

A field is loaded into the top bits of the TX shift register at a sample point and
leaves it at the TX triggers that send no stuff bit. One description covers the
bits still to be sent, whether the current bit is already on the bus or not.
-/

open ProtocolControl

namespace CanCore

variable {c : Config} {k : Clock} {s : State} {i : Input}

/-- The bit of the current field is on the bus. -/
def onBus (k : Clock) (s : State) : Prop :=
  (k.sent = true ∨ k.since = 0) ∧ s.bst.dataHaltQ = false

/-- Bits `n` down to `0` of the field are still to be taken, bit `n` being the
current one. -/
structure ShiftOut (k : Clock) (s : State) (bit : Nat → Bool) (n : Nat) : Prop where
  pending : ¬ onBus k s → ∀ j, j ≤ n → s.txs.getLsbD (31 - (n - j)) = bit j
  current : onBus k s → s.bst.dataOut = bit n
  rest : onBus k s → ∀ j, j < n → s.txs.getLsbD (31 - (n - 1 - j)) = bit j

/-- What the TX shift register does between sample points. -/
theorem txs_send (hx : isTransmitter s = true) (he : s.err.errFrmReq = false)
    (hq : shifted s.pc.currState = true) (ht : pcRxTrigger s = false) (htx : i.txTrigger = true) :
    (step c s i).txs =
      if (step c s i).bst.dataHaltQ then s.txs else s.txs.extractLsb' 0 31 ++ 0#1 := by
  have hen : txShiftEna c s i = true := by
    simp only [txShiftEna, ProtocolControl.txShiftEna,
      out_state he]
    cases hs : s.pc.currState <;> rw [hs] at hq <;> simp [shifted] at hq <;>
      simp [outState, outBaseId, outExtId, outDlc, outData, hx]
  cases hd : s.bst.dataHalt (bstInput c s i) <;>
    simp [step, TxShiftReg.step, txsInput, pcTxTrigger, ht, hen, htx, hd, BitStuffing.step]

theorem shiftLeft_getLsbD (w : BitVec 32) (j : Nat) (hj : j < 31) :
    (w.extractLsb' 0 31 ++ 0#1).getLsbD (j + 1) = w.getLsbD j := by
  rw [BitVec.getLsbD_append]
  simp [hj]

namespace ShiftOut

variable {bit : Nat → Bool} {n : Nat}

/-- Between sample points the field stays where it is, or its current bit goes out. -/
theorem between (h : ShiftOut k s bit n) (hn : n ≤ 31) (hf : Following c k s) (hok : Bench k s i)
    (he : s.err.errFrmReq = false) (hx : isTransmitter s = true)
    (hq : s.pc.currState.inPlain = true) (hsh : shifted s.pc.currState = true)
    (h0 : k.since ≠ 0) : ShiftOut (k.next s i) (step c s i) bit n := by
  have ha := hf.aligned hx hq he
  have ht := hf.paced.noTrigger h0
  -- without a TX trigger nothing moves
  have hquiet : i.txTrigger = false → ((k.next s i).sent = true ∨ (k.next s i).since = 0 ↔
      k.sent = true) → ShiftOut (k.next s i) (step c s i) bit n := by
    intro htx hsent
    have htxs := txs_kept (c := c) ht htx
    have hout : (step c s i).bst.dataOut = s.bst.dataOut := by
      simp [step, BitStuffing.step, bstInput, htx]
    have hbus : onBus (k.next s i) (step c s i) ↔ onBus k s := by
      simp only [onBus, hsent, h0, or_false]
      refine and_congr_right fun hs => ?_
      have hhalt : (step c s i).bst.dataHaltQ = s.bst.dataHaltQ := by
        simp [step, BitStuffing.step, BitStuffing.dataHalt, bstInput, htx, (ha.sending h0 hs).1,
          ha.stuffEnable]
      rw [hhalt]
    exact ⟨fun hb => by rw [htxs]; exact h.pending (fun hb' => hb (hbus.mpr hb')),
      fun hb => by rw [hout]; exact h.current (hbus.mp hb),
      fun hb => by rw [htxs]; exact h.rest (hbus.mp hb)⟩
  cases hrx : i.rxTrigReq
  · cases htx : i.txTrigger
    · exact hquiet htx (by simp [Clock.next, sinceSample, hrx, htx])
    · obtain ⟨hsent, -⟩ := hok.send htx
      have hnot : ¬ onBus k s := by simp [onBus, hsent, h0]
      obtain ⟨-, hbit⟩ := ha.send hf.paced he hx hq h0 hsent hrx htx
      have htxs := txs_send (c := c) hx he hsh ht htx
      refine ⟨fun hb => ?_, fun hb => ?_, fun hb => ?_⟩
      · have hh : (step c s i).bst.dataHaltQ = true := by
          by_contra hh
          exact hb ⟨.inl (by simp [Clock.next, hrx, htx]), by simpa using hh⟩
        rw [htxs, if_pos hh]
        exact h.pending hnot
      · rw [hbit hb.2, txDataNbs_shifted he hx hsh]
        simpa using h.pending hnot n (Nat.le_refl n)
      · intro j hj
        rw [htxs, hb.2]
        have hidx : 31 - (n - 1 - j) = 31 - (n - j) + 1 := by omega
        rw [if_neg (by decide), hidx, shiftLeft_getLsbD _ _ (by omega)]
        exact h.pending hnot j (Nat.le_of_lt hj)
  · have hsent := (hok.sample hrx).1
    have htx : i.txTrigger = false := by
      by_contra htx
      rw [(hok.send (by simpa using htx)).1] at hsent
      cases hsent
    exact hquiet htx (by simp [Clock.next, sinceSample, hrx, hsent])

/-- A stuff bit is taken: the field waits. -/
theorem take_stuff (h : ShiftOut k s bit n) (hf : Following c k s) (hok : Bench k s i)
    (h0 : k.since = 0) (hh : s.bst.dataHaltQ = true) (htxs : (step c s i).txs = s.txs) :
    ShiftOut (k.next s i) (step c s i) bit n := by
  obtain ⟨hsince, hsent⟩ := hf.next_take hok h0
  have hnot : ¬ onBus (k.next s i) (step c s i) := by simp [onBus, hsince, hsent]
  refine ⟨fun _ => ?_, fun hb => absurd hb hnot, fun hb => absurd hb hnot⟩
  rw [htxs]
  exact h.pending (by simp [onBus, hh])

/-- The current bit is taken: the next one follows. -/
theorem take_bit (h : ShiftOut k s bit (n + 1)) (hf : Following c k s) (hok : Bench k s i)
    (h0 : k.since = 0) (hh : s.bst.dataHaltQ = false) (htxs : (step c s i).txs = s.txs) :
    ShiftOut (k.next s i) (step c s i) bit n := by
  obtain ⟨hsince, hsent⟩ := hf.next_take hok h0
  have hnot : ¬ onBus (k.next s i) (step c s i) := by simp [onBus, hsince, hsent]
  refine ⟨fun _ j hj => ?_, fun hb => absurd hb hnot, fun hb => absurd hb hnot⟩
  rw [htxs]
  exact h.rest ⟨.inr h0, hh⟩ j (by omega)

/-- A field has just been loaded. -/
theorem of_load (hf : Following c k s) (hok : Bench k s i) (h0 : k.since = 0)
    (hload : ∀ j, j ≤ n → (step c s i).txs.getLsbD (31 - (n - j)) = bit j) :
    ShiftOut (k.next s i) (step c s i) bit n := by
  obtain ⟨hsince, hsent⟩ := hf.next_take hok h0
  have hnot : ¬ onBus (k.next s i) (step c s i) := by simp [onBus, hsince, hsent]
  exact ⟨fun _ => hload, fun hb => absurd hb hnot, fun hb => absurd hb hnot⟩

end ShiftOut

end CanCore
