import CtuCanFd.Driver.RxPoll
import CtuCanFd.RxBuffer.Fifo

/-!
# From one driver to the other

A frame goes from `ctucan_insert_frame` through the words of a TXT buffer, the fields of the
frame on the bus and the words of an RX buffer to `ctucan_read_rx_frame`. The layouts of both
buffers are inverse to each other for frames whose length has a DLC of its own.
-/

namespace Driver

open RxBuffer (Word rwcntOf FrameShape formatWord identWord StoredFrame)
open TxArbitrator (DblBuf)
open ProtocolControl (Config dlcDecoder)

/-! ## What goes over the bus -/

/-- A classical data or remote frame, or a CAN FD data frame, with a valid identifier and a
length that a DLC stands for. -/
structure Sendable (cf : CanfdFrame) (isfdf : Bool) : Prop where
  noError : cf.canId.getLsbD 29 = false
  base : cf.eff = false → ∀ j, 11 ≤ j → j < 29 → cf.canId.getLsbD j = false
  length : dlcDecoder (canLen2dlc cf.len) isfdf = cf.len.toNat
  fd : isfdf = true → cf.rtr = false

/-- Metadata that the arbitrator takes from the words of a TXT buffer. -/
def metadata (ram : Nat → Word) : CanCore.TranMeta :=
  (DblBuf.withFormat TxArbitrator.reset.dblBuf (ram TxArbitrator.frameFormatW)).committed
    (ram TxArbitrator.identifierW)

/-- The fields and the data words that a receiver has of a frame sent from a TXT buffer. Bytes
after the end of the data are arbitrary, and so is the identifier extension of a base frame. -/
structure Received (c : Config) (ram : Nat → Word) (i : RxBuffer.Input) (data : List Word) :
    Prop where
  dlc : i.recDlc = (metadata ram).tranDlc
  identType : i.recIdentType = (metadata ram).tranIdentType
  frameType : i.recFrameType = (metadata ram).tranFrameType
  rtr : i.recIsRtr = ((metadata ram).tranIsRtr && !(metadata ram).tranFrameType)
  brs : i.recFrameType = true → i.recBrs = (metadata ram).tranBrs
  base : ∀ j, 18 ≤ j → j < 29 → i.recIdent.getLsbD j = (metadata ram).tranIdentifier.getLsbD j
  ext : i.recIdentType = true →
    ∀ j < 18, i.recIdent.getLsbD j = (metadata ram).tranIdentifier.getLsbD j
  words : data.length = (sentLength c (ram TxArbitrator.frameFormatW) + 3) / 4
  bytes : ∀ k < sentLength c (ram TxArbitrator.frameFormatW),
    (data.getD (k / 4) 0).extractLsb' (8 * (k % 4)) 8 = sentByte ram k

/-! ## Words of the TXT buffer -/

section Transmitter

variable {cf : CanfdFrame} {isfdf : Bool} {rams r : Rams} {buf ntxbufs : Nat}
  {txStatus : BitVec 32}

theorem insertFrame_identifier (h : insertFrame ntxbufs txStatus rams cf buf isfdf = some r) :
    r buf TxArbitrator.identifierW = identifier cf := by
  simp only [insertFrame] at h
  split_ifs at h with h1 h2 h3
  cases h
  rw [writeData_apply, if_neg (by simp [TxArbitrator.identifierW]), writeTxtBuf_self]
  rfl

/-- Bits of the frame format word that the driver sets. -/
theorem frameFormat_bits (cf : CanfdFrame) (isfdf : Bool) :
    (frameFormat cf isfdf).getLsbD 6 = cf.eff ∧
      (frameFormat cf isfdf).getLsbD 9 = (isfdf && cf.brs) := by
  have hbits : ∀ (dlc : BitVec 4) (rtr eff brs fdf : Bool) (w : Word),
      w = (if rtr then 1#32 <<< 5 else 0) ||| (if eff then 1#32 <<< 6 else 0) |||
        (if fdf then 1#32 <<< 7 ||| (if brs then 1#32 <<< 9 else 0) else 0) ||| dlc.setWidth 32 →
      w.getLsbD 6 = eff ∧ w.getLsbD 9 = (fdf && brs) := by
    rintro dlc rtr eff brs fdf w rfl
    revert dlc rtr eff brs fdf
    decide
  exact hbits (canLen2dlc cf.len) cf.rtr _ _ _ _ rfl

/-- The identifier as it goes over the bus. -/
theorem identifier_bits (cf : CanfdFrame) {j : Nat} (hj : j < 29) :
    (identifier cf).getLsbD j =
      if cf.eff then cf.canId.getLsbD j else decide (18 ≤ j) && cf.canId.getLsbD (j - 18) := by
  unfold identifier
  cases cf.eff
  · by_cases h18 : 18 ≤ j
    · simp [h18, (by omega : j < 32), (by omega : j - 18 < 11), (by omega : j - 18 < 32)]
    · simp [h18, (by omega : j < 32), (by omega : j < 18)]
  · simp [hj, (by omega : j < 32)]

/-- Metadata of an inserted frame. -/
theorem metadata_insert (h : insertFrame ntxbufs txStatus rams cf buf isfdf = some r) :
    (metadata (r buf)).tranDlc = canLen2dlc cf.len ∧ (metadata (r buf)).tranIsRtr = cf.rtr ∧
      (metadata (r buf)).tranFrameType = isfdf ∧ (metadata (r buf)).tranIdentType = cf.eff ∧
      (metadata (r buf)).tranBrs = (isfdf && cf.brs) ∧
      (metadata (r buf)).tranIdentifier = (identifier cf).extractLsb' 0 29 := by
  obtain ⟨-, -, hffw, -⟩ := insertFrame_ram h
  obtain ⟨hdlc, hrtr, hfdf⟩ := withFormat_frameFormat TxArbitrator.reset.dblBuf cf isfdf
  obtain ⟨hide, hbrs⟩ := frameFormat_bits cf isfdf
  unfold metadata
  rw [hffw, insertFrame_identifier h]
  exact ⟨hdlc, hrtr, hfdf, hide, hbrs, rfl⟩

end Transmitter

/-! ## Words of the RX buffer -/

section Receiver

variable (i : RxBuffer.Input)

theorem formatWord_bits :
    (formatWord i false).extractLsb' 0 4 = i.recDlc ∧
      (formatWord i false).getLsbD 5 = i.recIsRtr ∧
      (formatWord i false).getLsbD 6 = i.recIdentType ∧
      (formatWord i false).getLsbD 7 = i.recFrameType ∧
      (formatWord i false).getLsbD 9 = i.recBrs := by
  unfold formatWord RxBuffer.frameFormW
  refine ⟨?_, ?_, ?_, ?_, ?_⟩
  · apply BitVec.eq_of_getLsbD_eq
    intro k hk
    simp only [BitVec.getLsbD_extractLsb', BitVec.getLsbD_append]
    simp [hk, (by omega : k < 28)]
  all_goals
    simp only [BitVec.getLsbD_append]
    simp

theorem identWord_getLsbD {j : Nat} (hj : j < 29) :
    (identWord i).getLsbD j = i.recIdent.getLsbD j := by
  simp only [identWord, BitVec.getLsbD_append]
  simp [hj]

/-- Identifier and flags that the driver reads. -/
theorem rxHeader_canId (ffw idw : Word) (cf : CanfdFrame) {j : Nat} (hj : j < 32) :
    (rxHeader ffw idw cf).canId.getLsbD j =
      if j = 31 then ffw.getLsbD 6
      else if j = 30 then !ffw.getLsbD 7 && ffw.getLsbD 5
      else if ffw.getLsbD 6 then decide (j < 29) && idw.getLsbD j
      else decide (j < 11) && idw.getLsbD (18 + j) := by
  have heff : ∀ j < 32, canEffMask.getLsbD j = decide (j < 29) := by decide
  have hsff : ∀ j < 32, canSffMask.getLsbD j = decide (j < 11) := by decide
  have h31 : ∀ j < 32, (1#32 <<< 31).getLsbD j = decide (j = 31) := by decide
  have h30 : ∀ j < 32, (1#32 <<< 30).getLsbD j = decide (j = 30) := by decide
  have hid : (if ffw.getLsbD 6 then idw &&& canEffMask ||| 1#32 <<< 31
      else idw >>> 18 &&& canSffMask).getLsbD j =
        if ffw.getLsbD 6 then decide (j = 31) || decide (j < 29) && idw.getLsbD j
        else decide (j < 11) && idw.getLsbD (18 + j) := by
    split
    · rw [BitVec.getLsbD_or, BitVec.getLsbD_and, heff j hj, h31 j hj, Bool.or_comm, Bool.and_comm]
    · rw [BitVec.getLsbD_and, BitVec.getLsbD_ushiftRight, hsff j hj, Bool.and_comm]
  simp only [rxHeader]
  by_cases hrtr : (!ffw.getLsbD 7 && ffw.getLsbD 5) = true
  · rw [if_pos hrtr, BitVec.getLsbD_or, h30 j hj, hid, hrtr]
    split_ifs <;> simp_all
  · rw [if_neg hrtr, hid, eq_false_of_ne_true hrtr]
    split_ifs <;> simp_all

end Receiver

/-! ## Lengths -/

/-- RWCNT and the length that the driver computes from it, for every length with a DLC. -/
theorem lengths_match (n : Fin 65) (fd rtr : Bool) :
    let d := canLen2dlc (BitVec.ofNat 8 n)
    let words := if rtr then 0 else (n.val + 3) / 4
    dlcDecoder d fd = n.val → (fd = true → rtr = false) →
      (if rtr then 3 else if !fd && d.getLsbD 3 then 5 else RxBuffer.rwcntCom d) = words + 3 ∧
        (if d.toNat ≤ 8 then d.toNat else if fd then 4 * words else 8) = n.val := by
  revert n fd rtr
  decide +kernel

/-- Data words written to a frame are read byte by byte. -/
theorem setWords_data (cf : CanfdFrame) (i : Nat) (ws : List Word) (k : Fin 64) :
    (cf.setWords i ws).data k =
      if i ≤ k ∧ k < i + 4 * ws.length then
        (ws.getD ((k - i) / 4) 0).extractLsb' (8 * ((k - i) % 4)) 8
      else cf.data k := by
  induction ws generalizing cf i with
  | nil =>
    rw [CanfdFrame.setWords, if_neg]
    simp only [List.length_nil]
    omega
  | cons w ws ih =>
    rw [CanfdFrame.setWords, ih]
    simp only [CanfdFrame.setWord, List.length_cons]
    by_cases hin : i ≤ k ∧ k < i + 4
    · have hq : (k - i) / 4 = 0 := by omega
      have hr : (k - i) % 4 = k - i := by omega
      rw [if_neg (by omega), if_pos hin, if_pos (by omega), hq, hr]
      rfl
    · by_cases hrest : i + 4 ≤ k ∧ k < i + 4 + 4 * ws.length
      · have hq : (k - i) / 4 = (k - (i + 4)) / 4 + 1 := by omega
        have hr : (k - i) % 4 = (k - (i + 4)) % 4 := by omega
        rw [if_pos hrest, if_pos (by omega), hq, hr, List.getD_cons_succ]
      · rw [if_neg hrest, if_neg hin, if_neg (by omega)]

theorem setWords_header (cf : CanfdFrame) (i : Nat) (ws : List Word) :
    (cf.setWords i ws).canId = cf.canId ∧ (cf.setWords i ws).len = cf.len ∧
      (cf.setWords i ws).flags = cf.flags := by
  induction ws generalizing cf i with
  | nil => exact ⟨rfl, rfl, rfl⟩
  | cons w ws ih => exact ih (cf.setWord i w) (i + 4)

/-! ## The way back -/

section RoundTrip

variable {c : Config} {cf : CanfdFrame} {isfdf : Bool} {ntxbufs buf : Nat} {txStatus : BitVec 32}
  {rams r : Rams} {i : RxBuffer.Input} {data : List Word}
  (hins : insertFrame ntxbufs txStatus rams cf buf isfdf = some r) (hs : Sendable cf isfdf)
  (hrec : Received c (r buf) i data)

include hins hs hrec

/-- Fields of the frame at the receiver. -/
theorem received_fields : i.recDlc = canLen2dlc cf.len ∧ i.recIsRtr = cf.rtr ∧
    i.recFrameType = isfdf ∧ i.recIdentType = cf.eff := by
  obtain ⟨hdlc, hrtr, hfdf, hide, -, -⟩ := metadata_insert hins
  refine ⟨hrec.dlc.trans hdlc, ?_, hrec.frameType.trans hfdf, hrec.identType.trans hide⟩
  rw [hrec.rtr, hrtr, hfdf]
  cases hf : isfdf
  · simp
  · simp [hs.fd hf]

theorem canId_back (cf₀ : CanfdFrame) :
    (rxHeader (formatWord i false) (identWord i) cf₀).canId = cf.canId := by
  obtain ⟨-, hrtr, hfdf, hide⟩ := received_fields hins hs hrec
  obtain ⟨-, h5, h6, h7, -⟩ := formatWord_bits i
  obtain ⟨-, -, -, -, -, hident⟩ := metadata_insert hins
  have hid : ∀ j, j < 29 → (cf.eff = true ∨ 18 ≤ j) →
      (identWord i).getLsbD j = (identifier cf).getLsbD j := by
    intro j hj hor
    rw [identWord_getLsbD i hj]
    have hmeta : (metadata (r buf)).tranIdentifier.getLsbD j = (identifier cf).getLsbD j := by
      rw [hident]
      simp [hj]
    by_cases h18 : 18 ≤ j
    · exact (hrec.base j h18 hj).trans hmeta
    · have heff := hor.resolve_right h18
      exact (hrec.ext (hide.trans heff) j (by omega)).trans hmeta
  apply BitVec.eq_of_getLsbD_eq
  intro j hj
  rw [rxHeader_canId _ _ _ hj, h5, h6, h7, hrtr, hfdf, hide]
  split_ifs with h31 h30 heff
  · rw [h31]
    rfl
  · rw [h30]
    show (!isfdf && cf.rtr) = cf.rtr
    cases hf : isfdf
    · rfl
    · simp [hs.fd hf]
  · by_cases h29 : j < 29
    · rw [decide_eq_true h29, Bool.true_and, hid j h29 (.inl heff), identifier_bits cf h29,
        if_pos heff]
    · obtain rfl : j = 29 := by omega
      exact hs.noError.symm
  · by_cases h11 : j < 11
    · have h18 : 18 + j < 29 := by omega
      rw [decide_eq_true h11, Bool.true_and, hid (18 + j) h18 (.inr (by omega)),
        identifier_bits cf h18, if_neg heff, Nat.add_sub_cancel_left]
      simp
    · rw [decide_eq_false h11, Bool.false_and]
      by_cases h29 : j < 29
      · exact (hs.base (eq_false_of_ne_true heff) j (by omega) h29).symm
      · obtain rfl : j = 29 := by omega
        exact hs.noError.symm

/-- Words and length that the driver reads from the frame format word. -/
theorem length_back :
    rwcntOf (formatWord i false) = wordsWritten cf + 3 ∧ wordsWritten cf ≤ 16 ∧
      (rxLen (formatWord i false)).toNat = cf.len.toNat := by
  obtain ⟨hlen, -⟩ := insertFrame_ram hins
  obtain ⟨hdlc, hrtr, hfdf, -⟩ := received_fields hins hs hrec
  obtain ⟨h0, -, -, h7, -⟩ := formatWord_bits i
  obtain ⟨hcnt, hval⟩ := lengths_match ⟨cf.len.toNat, by omega⟩ isfdf cf.rtr
    (by simpa using hs.length) hs.fd
  rw [BitVec.ofNat_toNat, BitVec.setWidth_eq] at hcnt hval
  have hrw : rwcntOf (formatWord i false) = wordsWritten cf + 3 := by
    have hcom := (RxBuffer.rwcntCom_bounds (canLen2dlc cf.len)).2
    rw [RxBuffer.rwcntOf_formatWord, RxBuffer.rwcnt, hrtr, hfdf, hdlc, Bool.or_false, wordsWritten,
      ← hcnt]
    split_ifs
    · rfl
    · rfl
    · rw [BitVec.toNat_ofNat, Nat.mod_eq_of_lt (by omega)]
  have hle : wordsWritten cf ≤ 16 := by
    unfold wordsWritten
    split_ifs <;> omega
  refine ⟨hrw, hle, ?_⟩
  have hval : (if (canLen2dlc cf.len).toNat ≤ 8 then (canLen2dlc cf.len).toNat
      else if isfdf then 4 * wordsWritten cf else 8) = cf.len.toNat := hval
  rw [← hval]
  simp only [rxLen, rxDlc, h0, h7, hdlc, hfdf]
  split_ifs
  · rw [BitVec.toNat_ofNat, Nat.mod_eq_of_lt (by omega)]
  · rw [(rxWc_eq hrw hle).1, BitVec.toNat_shiftLeft, BitVec.toNat_ofNat, Nat.shiftLeft_eq]
    omega
  · rfl

/-- The driver reads all data words of the frame. -/
theorem dataReads_back : dataReads (formatWord i false) = wordsWritten cf := by
  obtain ⟨hrw, hle, hlen⟩ := length_back hins hs hrec
  have hmul := (rxWc_eq hrw hle).2
  unfold dataReads rxDataLen
  split_ifs with hlt
  · rw [hmul]
    omega
  · rw [BitVec.not_lt, BitVec.le_def, hlen, hmul] at hlt
    rw [hlen]
    unfold wordsWritten at hlt ⊢
    split_ifs at hlt ⊢ <;> omega

/-- Data words of the frame, as many as RWCNT counts. -/
theorem words_back (hfde : isfdf = true → c.mrModeFde = true) :
    data.length = wordsWritten cf ∧
      sentLength c (r buf TxArbitrator.frameFormatW) = if cf.rtr then 0 else cf.len.toNat := by
  obtain ⟨-, -, hffw, -⟩ := insertFrame_ram hins
  have hfd : (isfdf && c.mrModeFde) = isfdf := by
    cases hf : isfdf
    · rfl
    · exact hfde hf
  have hsent : sentLength c (r buf TxArbitrator.frameFormatW) =
      if cf.rtr then 0 else cf.len.toNat := by
    rw [hffw, sentLength_frameFormat, hfd, hs.length]
    cases hr : cf.rtr
    · by_cases hd : canLen2dlc cf.len = 0
      · have hzero := hs.length
        rw [hd] at hzero
        simp [hd, ← hzero, dlcDecoder]
      · exact if_neg (by simpa using hd)
    · have hclassical : isfdf = false := by
        by_contra hf
        rw [hs.fd (eq_true_of_ne_false hf)] at hr
        cases hr
      simp [hclassical]
  refine ⟨?_, hsent⟩
  rw [hrec.words, hsent, wordsWritten]
  split_ifs <;> rfl

theorem data_back (hfde : isfdf = true → c.mrModeFde = true) (hr : cf.rtr = false)
    (cf₀ : CanfdFrame) {k : Nat} (hk : k < cf.len.toNat) :
    (cf₀.setWords 0 (data.take (dataReads (formatWord i false)))).byte k = cf.byte k := by
  obtain ⟨hlen, -, -, hwords, -⟩ := insertFrame_ram hins
  obtain ⟨hdata, hsent⟩ := words_back hins hs hrec hfde
  rw [dataReads_back hins hs hrec, ← hdata, List.take_length]
  have hw : wordsWritten cf = (cf.len.toNat + 3) / 4 := by simp [wordsWritten, hr]
  have hk64 : k < 64 := by omega
  have hbyte := hrec.bytes k (by simpa [hsent, hr] using hk)
  rw [sentByte, hwords (k / 4) (by omega), word_byte] at hbyte
  rw [CanfdFrame.byte, dif_pos hk64, setWords_data, if_pos (by simp only; omega)]
  exact hbyte

end RoundTrip

/-- A frame that the driver writes to a TXT buffer is the frame that the driver of a receiver
reads from its RX buffer. -/
theorem round_trip (c : Config) (cf : CanfdFrame) (isfdf : Bool) (ntxbufs buf : Nat)
    (txStatus : BitVec 32) (rams r : Rams) (i : RxBuffer.Input) (data : List Word)
    (tsLow tsHigh : Word) (h : RxSide) (done : List (List Word))
    (hins : insertFrame ntxbufs txStatus rams cf buf isfdf = some r) (hs : Sendable cf isfdf)
    (hfde : isfdf = true → c.mrModeFde = true) (hrec : Received c (r buf) i data)
    (hc : Cursor h done [formatWord i false] (identWord i :: tsLow :: tsHigh :: data)) :
    (readRxFrame blankFrame (formatWord i false) h).1.canId = cf.canId ∧
      (readRxFrame blankFrame (formatWord i false) h).1.len = cf.len ∧
      (readRxFrame blankFrame (formatWord i false) h).1.brs = (isfdf && cf.brs) ∧
      (cf.rtr = false → ∀ k < cf.len.toNat,
        (readRxFrame blankFrame (formatWord i false) h).1.byte k = cf.byte k) := by
  obtain ⟨hrw, hle, hlen⟩ := length_back hins hs hrec
  obtain ⟨hdata, -⟩ := words_back hins hs hrec hfde
  have hshape : FrameShape (formatWord i false :: identWord i :: tsLow :: tsHigh :: data) := by
    refine ⟨_, _, rfl, ?_, ?_, ?_⟩ <;> simp only [List.length_cons] <;> omega
  rw [(hc.frame hshape).1, decode]
  obtain ⟨hid, hlen', hflags⟩ := setWords_header
    (rxHeader (formatWord i false) (identWord i) blankFrame) 0
    (data.take (dataReads (formatWord i false)))
  refine ⟨?_, ?_, ?_, fun hr k hk => data_back hins hs hrec hfde hr _ hk⟩
  · rw [hid, canId_back hins hs hrec]
  · rw [hlen']
    apply BitVec.eq_of_toNat_eq
    have hbound := cf.len.isLt
    simp only [rxHeader, BitVec.truncate_eq_setWidth, BitVec.toNat_setWidth, hlen]
    exact Nat.mod_eq_of_lt hbound
  · obtain ⟨-, -, hfdf, -⟩ := received_fields hins hs hrec
    obtain ⟨-, -, -, h7, h9⟩ := formatWord_bits i
    obtain ⟨-, -, -, -, hbrs, -⟩ := metadata_insert hins
    rw [CanfdFrame.brs, hflags]
    simp only [rxHeader, h7, h9, hfdf]
    cases hf : isfdf
    · simp
    · rw [hrec.brs (hfdf.trans hf), hbrs, hf]
      cases cf.brs <;> cases (formatWord i false).getLsbD 10 <;> rfl

/-- An extended CAN FD frame of 12 bytes with a bit rate shift. -/
def longFrame : CanfdFrame := ⟨0x92345678, 12, 1, fun k => BitVec.ofNat 8 (k + 1)⟩

/-- TXT buffers after the driver inserted it in the first one. -/
def longRams : Rams :=
  (insertFrame 4 0x8888 (fun _ _ => 0) longFrame 0 true).getD fun _ _ => 0

/-- Fields of that frame at a receiver. -/
def longReceived : RxBuffer.Input :=
  { RxBuffer.quiet with
    recIdent := 0x12345678, recDlc := 9, recIdentType := true, recFrameType := true
    recIsRtr := false, recBrs := true }

/-- Data words of that frame at a receiver. -/
def longData : List Word := [0x04030201, 0x08070605, 0x0C0B0A09]

/-- RX buffer of the receiver after the first word of that frame. -/
def longSide : RxSide where
  queue := ⟨identWord longReceived :: 7 :: 0 :: longData, [], []⟩
  dor := false
  arrivals := []
  taken := [formatWord longReceived false]
  stored := [formatWord longReceived false :: identWord longReceived :: 7 :: 0 :: longData]

/-- That frame on its way from the first TXT buffer to the driver of the receiver. -/
theorem round_trip_long :
    (readRxFrame blankFrame (formatWord longReceived false) longSide).1.canId = 0x92345678 ∧
      (readRxFrame blankFrame (formatWord longReceived false) longSide).1.byte 11 = 12 := by
  have hins : insertFrame 4 0x8888 (fun _ _ => 0) longFrame 0 true = some longRams := rfl
  have hs : Sendable longFrame true := ⟨rfl, nofun, by decide, fun _ => rfl⟩
  have hid : longReceived.recIdent = (metadata (longRams 0)).tranIdentifier := by decide +kernel
  have hrec : Received CanCore.listener (longRams 0) longReceived longData :=
    ⟨by decide +kernel, by decide +kernel, by decide +kernel, by decide +kernel,
      fun _ => by decide +kernel, fun j _ _ => by rw [hid], fun _ j _ => by rw [hid],
      by decide +kernel, by decide +kernel⟩
  have hc : Cursor longSide [] [formatWord longReceived false]
      (identWord longReceived :: 7 :: 0 :: longData) := by
    refine ⟨rfl, rfl, rfl, ?_, nofun⟩
    intro f hf
    rw [List.mem_singleton.mp hf]
    exact ⟨_, _, rfl, by decide +kernel, by decide +kernel, by decide +kernel⟩
  obtain ⟨hcan, -, -, hbytes⟩ := round_trip CanCore.listener longFrame true 4 0 0x8888
    (fun _ _ => 0) longRams longReceived longData 7 0 longSide [] hins hs (fun _ => rfl) hrec hc
  exact ⟨hcan, hbytes rfl 11 (by decide)⟩

end Driver
