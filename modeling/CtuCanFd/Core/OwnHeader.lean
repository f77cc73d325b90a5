import CtuCanFd.Core.ShiftOut

/-!
# A transmitter receives its own header

The control fields a transmitter has received by the end of the DLC are those of
the frame it transmits, FD format being subject to FD mode.
-/

open ProtocolControl

namespace CanCore

variable {c : Config} {k : Clock} {s : State} {i : Input}

/-- `tran_frame_type_i`. -/
def TranMeta.frameTypeI (c : Config) (m : TranMeta) : Bool := m.tranFrameType && c.mrModeFde

/-- Fields received so far agree with the frame transmitted. -/
def headerFields (c : Config) (m : TranMeta) (r : RxShiftReg) : PcState → Prop
  | .rtrSrrR1 | .extId | .rtrR1 => r.clearQ = false
  | .ide => r.clearQ = false ∧
      r.fields.recIsRtrI = (m.tranIdentType || (m.tranIsRtr && !m.frameTypeI c))
  | .edlR0 | .edlR1 => r.clearQ = false ∧ r.fields.recIsRtrI = (m.tranIsRtr && !m.frameTypeI c)
  | .r0Ext => r.clearQ = false ∧ r.fields.recFrameType = m.frameTypeI c ∧
      m.frameTypeI c = false ∧ r.fields.recIsRtrI = (m.tranIsRtr && !m.frameTypeI c)
  | .r0Fd | .brs | .esi => r.clearQ = false ∧ r.fields.recFrameType = m.frameTypeI c ∧
      m.frameTypeI c = true
  | .dlc => r.clearQ = false ∧ r.fields.recFrameType = m.frameTypeI c ∧
      r.fields.recIsRtr = (m.tranIsRtr && !m.frameTypeI c)
  | _ => True

/-- DLC bits above the current one are in the RX shift register. -/
def dlcReceived (m : TranMeta) (s : State) : Prop :=
  ∀ j, s.ctr.ctrlCtrQ < j → j < 4 →
    s.rxs.fields.rxShiftRegQ.getLsbD (j - s.ctr.ctrlCtrQ - 1) = m.tranDlc.getLsbD j

structure OwnDlc (k : Clock) (m : TranMeta) (s : State) : Prop where
  ctr : s.ctr.ctrlCtrQ ≤ 3
  sending : ShiftOut k s m.tranDlc.getLsbD s.ctr.ctrlCtrQ
  received : dlcReceived m s

structure OwnHeader (c : Config) (k : Clock) (s : State) : Prop where
  held : isTransmitter s = true → s.pc.currState.inPlain = true → k.held = none →
    s.pc.currState = .sof ∨ s.pc.currState = .baseId
  fields : isTransmitter s = true → s.err.errFrmReq = false → ∀ m, k.held = some m →
    headerFields c m s.rxs s.pc.currState
  dlc : isTransmitter s = true → s.err.errFrmReq = false → s.pc.currState = .dlc →
    ∀ m, k.held = some m → OwnDlc k m s

/-! ## Received fields -/

/-- Without a sample point the fields keep their values. -/
theorem rxs_hold (ht : pcRxTrigger s = false) (hc : s.rxs.clearQ = false) :
    (step c s i).rxs = s.rxs := by
  have hsplit : s.rxs.fields.recIdent.extractLsb' 18 11 ++ s.rxs.fields.recIdent.extractLsb' 0 18 =
      s.rxs.fields.recIdent := by
    ext k hk
    simp
    grind
  have hreg : ∀ w : BitVec 32, shiftRegByte w (fun _ => false) (pcOut c s i).rxShiftInSel
      s.bds.dataOut = w := by
    intro w
    ext k hk
    simp [shiftRegByte, shiftByte]
    grind
  simp only [step, RxShiftReg.step, ht, hc, Bool.and_false, hsplit, hreg, if_false,
    Bool.false_eq_true]
  rw [← hc]

theorem rxs_take (ht : pcRxTrigger s = true) (hc : s.rxs.clearQ = false) :
    (step c s i).rxs.fields.recIsRtrI =
        (if (pcOut c s i).rxStoreRtrI then s.bds.dataOut else s.rxs.fields.recIsRtrI) ∧
      (step c s i).rxs.fields.recFrameType =
        (if (pcOut c s i).rxStoreEdlI then s.bds.dataOut else s.rxs.fields.recFrameType) := by
  simp [step, RxShiftReg.step, ht, hc]

/-- All bytes enabled: the register shifts by one bit. -/
theorem shiftRegByte_all (w : BitVec 32) (b : Bool) (j : Nat) (hj : j < 32) :
    (shiftRegByte w (fun _ => true) false b).getLsbD j =
      if j = 0 then b else w.getLsbD (j - 1) := by
  have hw : shiftRegByte w (fun _ => true) false b = w.extractLsb' 0 31 ++ BitVec.ofBool b := by
    ext k hk
    simp [shiftRegByte, shiftByte]
    grind
  rw [hw, BitVec.getLsbD_append]
  simp
  grind

theorem clearQ_plain (he : s.err.errFrmReq = false) (hq : s.pc.currState.inPlain = true) :
    (step c s i).rxs.clearQ = false := by
  have ho := (out_plain (c := c) (i := pcInput c s i) he hq).rxClearI
  simp [step, RxShiftReg.step, pcOut, ho]

theorem headerFields_outside {m : TranMeta} {r : RxShiftReg} {st : PcState}
    (h : st.inPlain = false) : headerFields c m r st := by
  cases st <;> trivial

/-- A DLC bit is taken. -/
theorem OwnDlc.take {m : TranMeta} (h : OwnDlc k m s) (hf : Following c k s) (hok : Bench k s i)
    (he : s.err.errFrmReq = false) (hs : s.pc.currState = .dlc) (ht : pcRxTrigger s = true)
    (hz : s.ctr.ctrlCtrZero = false) (hh : s.bst.dataHaltQ = false)
    (heq : s.bds.dataOut = s.bst.dataOut) (hc : s.rxs.clearQ = false) :
    OwnDlc (k.next s i) m (step c s i) := by
  have h0 := hf.paced.pcRxTrigger_since ht
  obtain ⟨n, hn⟩ : ∃ n, s.ctr.ctrlCtrQ = n + 1 :=
    Nat.exists_eq_succ_of_ne_zero (by simpa [ControlCounter.ctrlCtrZero] using hz)
  have h3 := h.ctr
  have hp : ctrlCtrPload c s.pc (pcInput c s i) = false := by
    simp [ctrlCtrPload, ctrlSignalUpd, ht, hs,
      out_state he, outState, outDlc, hz]
  have hctr : (step c s i).ctr.ctrlCtrQ = n := by
    simp [step, nextCtr, ControlCounter.step, hp, ht, pcOut_noErr he, hs, outState, outDlc, hn]
    omega
  have htxs : (step c s i).txs = s.txs := by
    simp [step, TxShiftReg.step, ht, txsInput, pcTxTrigger, (Following.quiet_take hok h0).2,
      TxShiftReg.pload, pcOut_noErr he, hs, outState, outDlc, hz]
  have hsr : (step c s i).rxs.fields.rxShiftRegQ =
      shiftRegByte s.rxs.fields.rxShiftRegQ (fun _ => true) false s.bds.dataOut := by
    simp [step, RxShiftReg.step, hc, ht, pcOut_noErr he, hs, outState, outDlc]
  have hsend := h.sending
  rw [hn] at hsend
  refine ⟨by omega, hctr ▸ hsend.take_bit hf hok h0 hh htxs, fun j hj h4 => ?_⟩
  rw [hctr] at hj ⊢
  rw [hsr, shiftRegByte_all _ _ _ (by omega)]
  split
  · have : j = n + 1 := by omega
    rw [heq, hsend.current ⟨.inr h0, hh⟩, this]
  · have hidx : j - n - 1 - 1 = j - s.ctr.ctrlCtrQ - 1 := by omega
    rw [hidx]
    exact h.received j (by omega) h4

namespace OwnHeader

theorem next_held (h' : (step c s i).pc.currState.inPlain = true)
    (hx' : isTransmitter (step c s i) = true) (hn : (k.next s i).held = none)
    (hf : Following c k s) :
    (step c s i).pc.currState = .sof ∨ (step c s i).pc.currState = .baseId := by
  obtain ⟨he, hq | ⟨hq, ht⟩⟩ := enter_plain (c := c) (q := s.pc) (i := pcInput c s i) h'
  · have hx := transmitter_before he (PcState.inStuffed_of_inPlain hq) hx'
    simp [Clock.next, hx, hq] at hn
  · have hset : (out c s.pc (pcInput c s i)).setTransmitterI = true := start_role he hq ht h' hx'
    obtain ⟨-, -, -, -, -, hs⟩ := start_transmitter (c := c) (q := s.pc) (i := pcInput c s i) he ht
      (fun hq => hf.idle_role hq) hset
    exact hs.imp (fun h => h.1) fun h => h.1

/-- The metadata of this cycle is that of the frame in progress. -/
theorem fields_now (h : OwnHeader c k s) (hok : Bench k s i) (he : s.err.errFrmReq = false)
    (hx : isTransmitter s = true) (hq : s.pc.currState.inPlain = true) :
    headerFields c i.tranMeta s.rxs s.pc.currState := by
  cases hk : k.held with
  | none =>
    rcases h.held hx hq hk with hs | hs
    · rw [hs]
      trivial
    · rw [hs]
      trivial
  | some m =>
    rw [hok.held m hk hx hq]
    exact h.fields hx he m hk

/-- The bit taken is stored in the field it belongs to. -/
theorem take_fields (h : OwnHeader c k s) (hf : Following c k s) (hok : Bench k s i)
    (hena : c.mrSettingsEna = true) (he : s.err.errFrmReq = false) (hx : isTransmitter s = true)
    (hq : s.pc.currState.inPlain = true) (ht : pcRxTrigger s = true)
    (hx' : isTransmitter (step c s i) = true) (he' : (step c s i).err.errFrmReq = false) :
    headerFields c i.tranMeta (step c s i).rxs (step c s i).pc.currState := by
  have hnow := h.fields_now hok he hx hq
  have h0 := hf.paced.pcRxTrigger_since ht
  obtain ⟨hs, heq, hc⟩ := hf.taken hok hena h0 he hx hq he' hx'
  have hh : s.bst.dataHaltQ = false := by
    simpa [hs.trigger (h0 ▸ hf.paced)] using ht
  have hclear := clearQ_plain (c := c) (i := i) he hq
  have hst := state_sample (c := c) (i := i) ht he (by
    rintro (⟨hs, -⟩ | ⟨hs, -⟩) <;> rw [hs] at hq <;> cases hq)
  have hbit : ∀ b, fixedBit c i.tranMeta s.pc.currState = some b → s.bds.dataOut = b := fun b hb =>
    heq.trans (hc hh b hb)
  rw [hst, nextState]
  simp only [pcInput_errFrmReq, he, Bool.false_eq_true, if_false, pcInput_rxDataNbs]
  have hrtr : s.rxs.clearQ = false → _ := fun hcl => (rxs_take (c := c) (i := i) ht hcl).1
  have hedl : s.rxs.clearQ = false → _ := fun hcl => (rxs_take (c := c) (i := i) ht hcl).2
  rw [pcOut_noErr he] at hrtr hedl
  cases hs : s.pc.currState <;> rw [hs] at hq hnow hbit hrtr hedl <;>
    first | exact absurd hq (by decide) | trivial | skip
  case baseId =>
    show headerFields c _ _ (if s.ctr.ctrlCtrZero = true then .rtrSrrR1 else .baseId)
    split
    · exact hclear
    · trivial
  case rtrSrrR1 => exact ⟨hclear, (hrtr hnow).trans (hbit _ rfl)⟩
  case ide =>
    have hb := hbit _ rfl
    show headerFields c _ _ (if (!s.bds.dataOut) = true then .edlR0 else .extId)
    split
    · rename_i hr
      have hid : i.tranMeta.tranIdentType = false := by simpa [hb] using hr
      refine ⟨hclear, (hrtr hnow.1).trans ?_⟩
      simpa [hid, outState, outIde] using hnow.2
    · exact hclear
  case extId =>
    show headerFields c _ _ (if s.ctr.ctrlCtrZero = true then .rtrR1 else .extId)
    split
    · exact hclear
    · exact hclear
  case rtrR1 => exact ⟨hclear, (hrtr hnow).trans (hbit _ rfl)⟩
  case edlR1 =>
    have hb : s.bds.dataOut = i.tranMeta.frameTypeI c := hbit _ rfl
    have hft := (hedl hnow.1).trans hb
    show headerFields c _ _ (if (!s.bds.dataOut) = true then .r0Ext
      else if pexOnFdfEnable c = true then .integrating else .r0Fd)
    split
    · rename_i hr
      exact ⟨hclear, hft, by simpa [hb] using hr, (hrtr hnow.1).trans hnow.2⟩
    · rename_i hr
      split
      · trivial
      · exact ⟨hclear, hft, by simpa [hb] using hr⟩
  case edlR0 =>
    have hb : s.bds.dataOut = i.tranMeta.frameTypeI c := hbit _ rfl
    have hft := (hedl hnow.1).trans hb
    show headerFields c _ _ (if (!s.bds.dataOut) = true then .dlc
      else if pexOnFdfEnable c = true then .integrating else .r0Fd)
    split
    · rename_i hr
      have hz : i.tranMeta.frameTypeI c = false := by simpa [hb] using hr
      refine ⟨hclear, hft, ?_⟩
      rw [RxFields.recIsRtr, hft, hz, hrtr hnow.1]
      simpa [hz, outState, outEdlR0] using hnow.2
    · rename_i hr
      split
      · trivial
      · exact ⟨hclear, hft, by simpa [hb] using hr⟩
  case r0Ext =>
    obtain ⟨hcl, hft, hz, hr⟩ := hnow
    refine ⟨hclear, (hedl hcl).trans hft, ?_⟩
    rw [RxFields.recIsRtr, (hedl hcl).trans hft, (hrtr hcl).trans hr, hz]
    simp
  case r0Fd =>
    obtain ⟨hcl, hft, hz⟩ := hnow
    show headerFields c _ _ (if (s.bds.dataOut && pexOnResEnable c) = true then .integrating
      else .brs)
    split
    · trivial
    · exact ⟨hclear, (hedl hcl).trans hft, hz⟩
  case brs => exact ⟨hclear, (hedl hnow.1).trans hnow.2.1, hnow.2.2⟩
  case esi =>
    obtain ⟨hcl, hft, hz⟩ := hnow
    refine ⟨hclear, (hedl hcl).trans hft, ?_⟩
    rw [RxFields.recIsRtr, (hedl hcl).trans hft, hz]
    simp
  case dlc =>
    obtain ⟨hcl, hft, hr⟩ := hnow
    have hstay : headerFields c i.tranMeta (step c s i).rxs .dlc := by
      refine ⟨hclear, (hedl hcl).trans hft, ?_⟩
      rw [RxFields.recIsRtr, hedl hcl, hrtr hcl]
      exact hr
    have hout : ∀ b : Bool, headerFields c i.tranMeta (step c s i).rxs
        (if b = true then if goToStuffCount c (pcInput c s i) = true then .stuffCount else .crc
          else .data) := by
      intro b
      split
      · split <;> trivial
      · trivial
    show headerFields c _ _ (if s.ctr.ctrlCtrZero = true then _ else .dlc)
    split
    · exact hout _
    · exact hstay
  case data =>
    show headerFields c _ _ (if s.ctr.ctrlCtrZero = true then _ else .data)
    split
    · split <;> trivial
    · trivial

theorem next_fields (h : OwnHeader c k s) (hf : Following c k s) (hok : Bench k s i)
    (hena : c.mrSettingsEna = true) (hx' : isTransmitter (step c s i) = true)
    (he' : (step c s i).err.errFrmReq = false) (m : TranMeta) (hm : (k.next s i).held = some m) :
    headerFields c m (step c s i).rxs (step c s i).pc.currState := by
  obtain ⟨⟨hx, hq⟩, rfl⟩ : (isTransmitter s = true ∧ s.pc.currState.inPlain = true) ∧
      i.tranMeta = m := by
    simpa [Clock.next] using hm
  cases he : s.err.errFrmReq
  · cases ht : pcRxTrigger s
    · have hk := kept_plain (c := c) (i := i) he hq ht
      have hnow := h.fields_now hok he hx hq
      rw [hk.state]
      cases hs : s.pc.currState <;> rw [hs] at hnow <;>
        first
          | trivial
          | (rw [rxs_hold (c := c) (i := i) ht hnow.1]; exact hnow)
          | (rw [rxs_hold (c := c) (i := i) ht hnow]; exact hnow)
    · exact h.take_fields hf hok hena he hx hq ht hx' he'
  · exact headerFields_outside (err_notPlain he).1

/-- The shift register is loaded with the DLC. -/
theorem load_dlc (hf : Following c k s) (hok : Bench k s i) (htst : c.mrModeTstm = false)
    (he : s.err.errFrmReq = false) (ht : pcRxTrigger s = true)
    (hload : (pcOut c s i).txLoadDlcI = true) (hb : (pcOut c s i).txLoadBaseIdI = false)
    (hx : (pcOut c s i).txLoadExtIdI = false) (hctr : (pcOut c s i).ctrlCtrPloadI = true)
    (hval : (pcOut c s i).ctrlCtrPloadVal = 3) (hoff : s.pc.currState ≠ .off) :
    OwnDlc (k.next s i) i.tranMeta (step c s i) := by
  have h0 := hf.paced.pcRxTrigger_since ht
  have hpl : ctrlCtrPload c s.pc (pcInput c s i) = true := by
    have hctr : (out c s.pc (pcInput c s i)).ctrlCtrPloadI = true := hctr
    simp [ctrlCtrPload, hctr, ctrlSignalUpd, ht, he, hoff]
  have hc : (step c s i).ctr.ctrlCtrQ = 3 := by
    simp [step, nextCtr, ControlCounter.step, hpl, hval]
  have htxs : (step c s i).txs = i.tranMeta.tranDlc ++ 0#28 := by
    simp [step, TxShiftReg.step, ht, TxShiftReg.pload, hb, hx, hload, TxShiftReg.tranDlcSwapped,
      txsInput, htst]
  refine ⟨by omega, hc ▸ ShiftOut.of_load hf hok h0 fun j hj => ?_, fun j h3 h4 => by omega⟩
  rw [htxs, BitVec.getLsbD_append]
  have hidx : 31 - (3 - j) - 28 = j := by omega
  simp [hidx]
  omega

theorem next_dlc (h : OwnHeader c k s) (hf : Following c k s) (hok : Bench k s i)
    (hena : c.mrSettingsEna = true) (htst : c.mrModeTstm = false)
    (hx' : isTransmitter (step c s i) = true) (he' : (step c s i).err.errFrmReq = false)
    (hd' : (step c s i).pc.currState = .dlc) (m : TranMeta) (hm : (k.next s i).held = some m) :
    OwnDlc (k.next s i) m (step c s i) := by
  obtain ⟨⟨hx, hq⟩, rfl⟩ : (isTransmitter s = true ∧ s.pc.currState.inPlain = true) ∧
      i.tranMeta = m := by
    simpa [Clock.next] using hm
  obtain ⟨he, -⟩ := enter_plain (c := c) (q := s.pc) (i := pcInput c s i)
    (congrArg PcState.inPlain hd')
  have he : s.err.errFrmReq = false := he
  -- the DLC as it stands in this cycle, if it is being sent
  have hnow : s.pc.currState = .dlc → OwnDlc k i.tranMeta s := by
    intro hs
    cases hk : k.held with
    | none =>
      rcases h.held hx hq hk with hs' | hs' <;> rw [hs] at hs' <;> cases hs'
    | some m =>
      rw [hok.held m hk hx hq]
      exact h.dlc hx he hs m hk
  have hclr : s.pc.currState = .dlc → s.rxs.clearQ = false := by
    intro hs
    have hnow := h.fields_now hok he hx hq
    rw [hs] at hnow
    exact hnow.1
  cases ht : pcRxTrigger s
  · have hk := kept_plain (c := c) (i := i) he hq ht
    have hs : s.pc.currState = .dlc := hk.state.symm.trans hd'
    have hown := hnow hs
    have hrec : dlcReceived i.tranMeta (step c s i) := by
      intro j
      rw [rxs_hold (c := c) (i := i) ht (hclr hs), hk.ctr]
      exact hown.received j
    by_cases h0 : k.since = 0
    · have hsam := (hf.aligned hx hq he).sampled h0
      have hh : s.bst.dataHaltQ = true := by
        have := hsam.trigger (h0 ▸ hf.paced)
        simpa [ht] using this
      have htxs := txs_kept (c := c) ht (Following.quiet_take hok h0).2
      refine ⟨hk.ctr ▸ hown.ctr, ?_, hrec⟩
      rw [hk.ctr]
      exact hown.sending.take_stuff hf hok h0 hh htxs
    · refine ⟨hk.ctr ▸ hown.ctr, ?_, hrec⟩
      rw [hk.ctr]
      have := hown.ctr
      exact hown.sending.between (by omega) hf hok he hx hq (by rw [hs]; rfl) h0
  have h0 := hf.paced.pcRxTrigger_since ht
  have hns : ¬ Stalled c s.pc (pcInput c s i) := by
    rintro (⟨hs, -⟩ | ⟨hs, -⟩) <;> rw [hs] at hq <;> cases hq
  have hn : nextState c s.pc (pcInput c s i) = .dlc :=
    (state_sample (c := c) (i := i) ht he hns).symm.trans hd'
  have hedge : ∀ st : PcState, .dlc ∈ st.successors → st = .edlR0 ∨ st = .r0Ext ∨ st = .esi := by
    decide
  rcases nextState_flow (c := c) (q := s.pc) (i := pcInput c s i) he with hs | hs
  · have hs : s.pc.currState = .dlc := hs.symm.trans hn
    obtain ⟨hsam, heq, -⟩ := hf.taken hok hena h0 he hx hq he' hx'
    have hh : s.bst.dataHaltQ = false := by
      simpa [hsam.trigger (h0 ▸ hf.paced)] using ht
    have hz : s.ctr.ctrlCtrZero = false := by
      by_contra hz
      simp only [nextState, hs, pcInput_errFrmReq, he, pcInput_ctrlCtrZero] at hn
      grind
    exact (hnow hs).take hf hok he hs ht hz hh heq (hclr hs)
  · rw [hn] at hs
    rcases hedge _ hs with hs | hs | hs
    · have hr : s.bds.dataOut = false := by
        simp [nextState, hs, he] at hn
        grind
      refine load_dlc hf hok htst he ht ?_ ?_ ?_ ?_ ?_ (by simp [hs]) <;>
        simp [pcOut_noErr he, hs, outState, outEdlR0, hr]
    · refine load_dlc hf hok htst he ht ?_ ?_ ?_ ?_ ?_ (by simp [hs]) <;>
        simp [pcOut_noErr he, hs, outState, outR0Ext]
    · refine load_dlc hf hok htst he ht ?_ ?_ ?_ ?_ ?_ (by simp [hs]) <;>
        simp [pcOut_noErr he, hs, outState, outEsi]

/-- With the last DLC bit the frame received is the frame transmitted. -/
theorem dlc_end (h : OwnHeader c k s) (hf : Following c k s) (hok : Bench k s i)
    (hena : c.mrSettingsEna = true) (he : s.err.errFrmReq = false) (hx : isTransmitter s = true)
    (hs : s.pc.currState = .dlc) (ht : pcRxTrigger s = true) (hz : s.ctr.ctrlCtrZero = true)
    (he' : (step c s i).err.errFrmReq = false) (hx' : isTransmitter (step c s i) = true) :
    s.rxs.view.recDlcD s.bds.dataOut = i.tranMeta.tranDlc ∧
      s.rxs.view.recFrameType = i.tranMeta.frameTypeI c ∧
      s.rxs.view.recIsRtr = (i.tranMeta.tranIsRtr && !i.tranMeta.frameTypeI c) := by
  have hq : s.pc.currState.inPlain = true := by rw [hs]; rfl
  have h0 := hf.paced.pcRxTrigger_since ht
  obtain ⟨hsam, heq, -⟩ := hf.taken hok hena h0 he hx hq he' hx'
  have hh : s.bst.dataHaltQ = false := by
    simpa [hsam.trigger (h0 ▸ hf.paced)] using ht
  have hnow := h.fields_now hok he hx hq
  rw [hs] at hnow
  obtain ⟨hcl, hft, hrtr⟩ := hnow
  obtain ⟨m, hm⟩ := Option.ne_none_iff_exists'.mp ((hf.aligned hx hq he).held (.inr h0))
  have hown := h.dlc hx he hs m hm
  rw [← hok.held m hm hx hq] at hown
  have hview : s.rxs.view = s.rxs.fields := by simp [RxShiftReg.view, hcl]
  have hctr : s.ctr.ctrlCtrQ = 0 := by simpa [ControlCounter.ctrlCtrZero] using hz
  have hlast : s.bds.dataOut = i.tranMeta.tranDlc.getLsbD 0 := by
    have := hown.sending.current ⟨.inr h0, hh⟩
    rw [heq, this, hctr]
  refine ⟨?_, hview ▸ hft, hview ▸ hrtr⟩
  rw [hview]
  apply BitVec.eq_of_getLsbD_eq
  intro j hj
  have hrec := hown.received
  simp only [dlcReceived, hctr] at hrec
  rw [RxFields.recDlcD, BitVec.getLsbD_append]
  by_cases hj0 : j = 0
  · simp [hj0, hlast]
  · have h1 : ¬ j < 1 := by omega
    have hlt : j - 1 < 3 := by omega
    simp only [h1, if_false, BitVec.getLsbD_extractLsb', hlt, decide_true, Bool.true_and, Nat.zero_add]
    simpa using hrec j (by omega) hj

theorem step_own (h : OwnHeader c k s) (hf : Following c k s) (hok : Bench k s i)
    (hena : c.mrSettingsEna = true) (htst : c.mrModeTstm = false) :
    OwnHeader c (k.next s i) (step c s i) where
  held hx' hq' hn := next_held hq' hx' hn hf
  fields hx' he' := h.next_fields hf hok hena hx' he'
  dlc hx' he' hd' := h.next_dlc hf hok hena htst hx' he' hd'

theorem of_reset (sent : Bool) : OwnHeader c ⟨4, sent, none⟩ reset where
  held h := by cases h
  fields h := by cases h
  dlc h := by cases h

end OwnHeader

end CanCore
