import CtuCanFd.Core.DataWords
import CtuCanFd.TxPath.Arbitrator
import Mathlib.Data.BitVec

/-!
# Frames written by the driver

`ctucan_insert_frame` of the Linux driver: it writes the frame format word, the
identifier and the data words of a frame into the RAM of a TXT buffer. The controller
later sends as many bytes of that RAM as it decodes from the frame format word.
-/

open ProtocolControl (Config dlcDecoder)
open RxBuffer (Word)
open TxArbitrator (DblBuf)

namespace Driver

/-- `struct canfd_frame`, without padding. -/
structure CanfdFrame where
  canId : BitVec 32
  len : BitVec 8
  flags : BitVec 8
  data : Fin 64 → BitVec 8

namespace CanfdFrame

/-- `CAN_RTR_FLAG`. -/
def rtr (cf : CanfdFrame) : Bool := cf.canId.getLsbD 30

/-- `CAN_EFF_FLAG`. -/
def eff (cf : CanfdFrame) : Bool := cf.canId.getLsbD 31

/-- `CANFD_BRS`. -/
def brs (cf : CanfdFrame) : Bool := cf.flags.getLsbD 0

def byte (cf : CanfdFrame) (k : Nat) : BitVec 8 := if h : k < 64 then cf.data ⟨k, h⟩ else 0

/-- `le32_to_cpu` of the four bytes at an offset. -/
def word (cf : CanfdFrame) (i : Nat) : Word :=
  cf.byte (i + 3) ++ cf.byte (i + 2) ++ cf.byte (i + 1) ++ cf.byte i

end CanfdFrame

def len2dlc : List Nat :=
  [0, 1, 2, 3, 4, 5, 6, 7, 8,
    9, 9, 9, 9,
    10, 10, 10, 10,
    11, 11, 11, 11,
    12, 12, 12, 12,
    13, 13, 13, 13, 13, 13, 13, 13,
    14, 14, 14, 14, 14, 14, 14, 14,
    14, 14, 14, 14, 14, 14, 14, 14,
    15, 15, 15, 15, 15, 15, 15, 15,
    15, 15, 15, 15, 15, 15, 15, 15]

def canLen2dlc (len : BitVec 8) : BitVec 4 :=
  if 64 < len.toNat then 0xF else BitVec.ofNat 4 (len2dlc.getD len.toNat 0)

/-- `ctucan_get_tx_status`: three of the four bits of a buffer in TX_STATUS. -/
def getTxStatus (txStatus : BitVec 32) (buf : Nat) : BitVec 3 := (txStatus >>> (buf * 4)).truncate 3

/-- `ctucan_is_txt_buf_writable`: not ready, not in progress and not aborting. -/
def isTxtBufWritable (txStatus : BitVec 32) (buf : Nat) : Bool :=
  !(getTxStatus txStatus buf == 1 || getTxStatus txStatus buf == 2 || getTxStatus txStatus buf == 3)

/-- RAM of all TXT buffers, by buffer and word address. -/
abbrev Rams := Nat → Nat → Word

/-- `ctucan_write_txt_buf`, with the byte offset in the buffer. -/
def writeTxtBuf (rams : Rams) (buf offset : Nat) (val : Word) : Rams :=
  Function.update rams buf (Function.update (rams buf) (offset / 4) val)

/-- Byte offset of the first data word, `CTUCANFD_DATA_1_4_W`. -/
def data14W : Nat := 0x10

def frameFormat (cf : CanfdFrame) (isfdf : Bool) : Word :=
  (if cf.rtr then 1#32 <<< 5 else 0) ||| (if cf.eff then 1#32 <<< 6 else 0) |||
    (if isfdf then 1#32 <<< 7 ||| (if cf.brs then 1#32 <<< 9 else 0) else 0) |||
    (canLen2dlc cf.len).setWidth 32

/-- `CAN_EFF_MASK` or the base identifier in its field. -/
def identifier (cf : CanfdFrame) : Word :=
  if cf.eff then (cf.canId.extractLsb' 0 29).setWidth 32
  else (cf.canId.extractLsb' 0 11).setWidth 32 <<< 18

/-- Values of the loop variable of the data loop. -/
def dataOffsets (cf : CanfdFrame) : List Nat :=
  if cf.rtr then [] else List.range' 0 ((cf.len.toNat + 3) / 4) 4

def writeData (cf : CanfdFrame) (buf : Nat) (rams : Rams) : Rams :=
  (dataOffsets cf).foldl (fun r i => writeTxtBuf r buf (data14W + i) (cf.word i)) rams

/-- `ctucan_insert_frame`; `none` is the return value `false`. -/
def insertFrame (ntxbufs : Nat) (txStatus : BitVec 32) (rams : Rams) (cf : CanfdFrame) (buf : Nat)
    (isfdf : Bool) : Option Rams :=
  if ntxbufs ≤ buf then none
  else if !isTxtBufWritable txStatus buf then none
  else if 64 < cf.len.toNat then none
  else
    let rams := writeTxtBuf rams buf 0 (frameFormat cf isfdf)
    let rams := writeTxtBuf rams buf 4 (identifier cf)
    some (writeData cf buf rams)

/-! ## What the controller sends -/

/-- Number of data bytes the controller sends for a frame format word. -/
def sentLength (c : Config) (ffw : Word) : Nat :=
  let b := DblBuf.withFormat TxArbitrator.reset.dblBuf ffw
  let frameType := b.tranFrameType && c.mrModeFde
  if b.tranDlc == 0 || (b.tranIsRtr && !frameType) then 0 else dlcDecoder b.tranDlc frameType

/-- The length is that of protocol control for the metadata the arbitrator commits. -/
theorem sentLength_eq (c : Config) (b : DblBuf) (ffw idw : Word) (s : CanCore.State)
    (i : CanCore.Input) (hmeta : i.tranMeta = (b.withFormat ffw).committed idw) :
    sentLength c ffw =
      if ProtocolControl.noDataTransmitter c (CanCore.pcInput c s i) then 0
      else ProtocolControl.tranDataLength c (CanCore.pcInput c s i) := by
  simp only [sentLength, ProtocolControl.noDataTransmitter, ProtocolControl.tranDataLength,
    ProtocolControl.tranFrameTypeI, CanCore.pcInput, hmeta]
  rfl

/-- Data byte of a buffer: words from address 4 on, lowest byte first. -/
def sentByte (ram : Nat → Word) (k : Nat) : BitVec 8 := (ram (4 + k / 4)).extractLsb' (8 * (k % 4)) 8

def payload (c : Config) (ram : Nat → Word) : List (BitVec 8) :=
  (List.range (sentLength c (ram TxArbitrator.frameFormatW))).map (sentByte ram)

theorem word_bytes (b3 b2 b1 b0 : BitVec 8) (r : Fin 4) :
    (b3 ++ b2 ++ b1 ++ b0).extractLsb' (8 * r) 8 = [b0, b1, b2, b3][r] := by
  match r with
  | 0 | 1 | 2 | 3 => grind

/-- The shift register sends the bytes of a word from its lowest one on. -/
theorem tranWordSwapped_byte (w : Word) (r : Fin 4) :
    (TxShiftReg.tranWordSwapped w).extractLsb' (8 * r.rev) 8 = w.extractLsb' (8 * r) 8 := by
  rw [TxShiftReg.tranWordSwapped, word_bytes]
  match r with
  | 0 | 1 | 2 | 3 => rfl

/-! ## Words written -/

theorem writeTxtBuf_other {rams : Rams} {buf b offset : Nat} {val : Word} (h : b ≠ buf) :
    writeTxtBuf rams buf offset val b = rams b := by
  simp [writeTxtBuf, h]

theorem writeTxtBuf_self (rams : Rams) (buf offset : Nat) (val : Word) :
    writeTxtBuf rams buf offset val buf = Function.update (rams buf) (offset / 4) val := by
  simp [writeTxtBuf]

variable {cf : CanfdFrame} {rams : Rams} {buf : Nat}

theorem writeData_other {b : Nat} (h : b ≠ buf) : writeData cf buf rams b = rams b := by
  unfold writeData
  induction dataOffsets cf generalizing rams with
  | nil => rfl
  | cons i is ih => rw [List.foldl_cons, ih, writeTxtBuf_other h]

/-- The data loop writes one word after the other. -/
theorem writeWords_apply (cf : CanfdFrame) (buf n : Nat) (rams : Rams) (a : Nat) :
    (List.range' 0 n 4).foldl (fun r i => writeTxtBuf r buf (data14W + i) (cf.word i)) rams buf a =
      if 4 ≤ a ∧ a < 4 + n then cf.word (4 * (a - 4)) else rams buf a := by
  induction n with
  | zero =>
    rw [if_neg (by omega)]
    rfl
  | succ n ih =>
    have haddr : (data14W + (0 + 4 * n)) / 4 = 4 + n := by simp only [data14W]; omega
    rw [List.range'_concat, List.foldl_append, List.foldl_cons, List.foldl_nil, writeTxtBuf_self,
      haddr]
    by_cases ha : a = 4 + n
    · subst ha
      simp
    · rw [Function.update_of_ne ha, ih]
      by_cases h : 4 ≤ a ∧ a < 4 + n
      · rw [if_pos h, if_pos (by omega)]
      · rw [if_neg h, if_neg (by omega)]

/-- Number of data words written. -/
def wordsWritten (cf : CanfdFrame) : Nat := if cf.rtr then 0 else (cf.len.toNat + 3) / 4

theorem writeData_apply (a : Nat) :
    writeData cf buf rams buf a =
      if 4 ≤ a ∧ a < 4 + wordsWritten cf then cf.word (4 * (a - 4)) else rams buf a := by
  have hoff : dataOffsets cf = List.range' 0 (wordsWritten cf) 4 := by
    cases h : cf.rtr <;> simp [dataOffsets, wordsWritten, h]
  rw [writeData, hoff, writeWords_apply]

/-- What an accepted frame leaves in the RAM. -/
theorem insertFrame_ram {ntxbufs : Nat} {txStatus : BitVec 32} {isfdf : Bool} {r : Rams}
    (h : insertFrame ntxbufs txStatus rams cf buf isfdf = some r) :
    cf.len.toNat ≤ 64 ∧ (∀ b, b ≠ buf → r b = rams b) ∧
      r buf TxArbitrator.frameFormatW = frameFormat cf isfdf ∧
      (∀ k, k < wordsWritten cf → r buf (4 + k) = cf.word (4 * k)) ∧
      ∀ k, wordsWritten cf ≤ k → r buf (4 + k) = rams buf (4 + k) := by
  simp only [insertFrame] at h
  split_ifs at h with h1 h2 h3
  cases h
  refine ⟨by omega, fun b hb => ?_, ?_, fun k hk => ?_, fun k hk => ?_⟩
  · rw [writeData_other hb, writeTxtBuf_other hb, writeTxtBuf_other hb]
  · rw [writeData_apply, if_neg (by simp [TxArbitrator.frameFormatW]), writeTxtBuf_self,
      Function.update_of_ne (by decide), writeTxtBuf_self]
    rfl
  · rw [writeData_apply, if_pos (by omega)]
    congr 1
    omega
  · rw [writeData_apply, if_neg (by omega), writeTxtBuf_self, Function.update_of_ne (by omega),
      writeTxtBuf_self, Function.update_of_ne (by omega)]

/-! ## Bytes sent -/

theorem withFormat_frameFormat (b : DblBuf) (cf : CanfdFrame) (isfdf : Bool) :
    (b.withFormat (frameFormat cf isfdf)).tranDlc = canLen2dlc cf.len ∧
      (b.withFormat (frameFormat cf isfdf)).tranIsRtr = cf.rtr ∧
      (b.withFormat (frameFormat cf isfdf)).tranFrameType = isfdf := by
  have hfields : ∀ (dlc : BitVec 4) (rtr eff brs fdf : Bool) (w : Word),
      w = (if rtr then 1#32 <<< 5 else 0) ||| (if eff then 1#32 <<< 6 else 0) |||
        (if fdf then 1#32 <<< 7 ||| (if brs then 1#32 <<< 9 else 0) else 0) ||| dlc.setWidth 32 →
      w.extractLsb' 0 4 = dlc ∧ w.getLsbD 5 = rtr ∧ w.getLsbD 7 = fdf := by
    rintro dlc rtr eff brs fdf w rfl
    revert dlc rtr eff brs fdf
    decide
  exact hfields _ _ cf.eff cf.brs _ _ rfl

theorem sentLength_frameFormat (c : Config) (cf : CanfdFrame) (isfdf : Bool) :
    sentLength c (frameFormat cf isfdf) =
      if canLen2dlc cf.len == 0 || (cf.rtr && !(isfdf && c.mrModeFde)) then 0
      else dlcDecoder (canLen2dlc cf.len) (isfdf && c.mrModeFde) := by
  obtain ⟨hdlc, hrtr, hfdf⟩ :=
    withFormat_frameFormat TxArbitrator.reset.dblBuf cf isfdf
  simp only [sentLength, hdlc, hrtr, hfdf]

/-- The words written for a CAN FD frame hold all bytes of its DLC. None are written with the
RTR flag, which does not make a CAN FD frame a remote frame. -/
def Covers (c : Config) (cf : CanfdFrame) (isfdf : Bool) : Prop :=
  isfdf = true → c.mrModeFde = true →
    if cf.rtr then canLen2dlc cf.len = 0
    else dlcDecoder (canLen2dlc cf.len) true ≤ 4 * ((cf.len.toNat + 3) / 4)

instance (c : Config) (cf : CanfdFrame) (isfdf : Bool) : Decidable (Covers c cf isfdf) :=
  inferInstanceAs (Decidable (_ → _))

/-- A classical frame has at most eight bytes, whatever its length. -/
theorem classical_covered (len : BitVec 8) (h : len.toNat ≤ 64) :
    dlcDecoder (canLen2dlc len) false ≤ 4 * ((len.toNat + 3) / 4) := by
  have hall : ∀ n : Fin 65, dlcDecoder (canLen2dlc (BitVec.ofNat 8 n)) false ≤ 4 * ((n + 3) / 4) := by
    decide
  have := hall ⟨len.toNat, by omega⟩
  simpa using this

theorem dlcDecoder_fd : ∀ dlc : BitVec 4, dlcDecoder dlc true = 0 ↔ dlc = 0 := by
  decide

theorem dlcDecoder_le (dlc : BitVec 4) (fd : Bool) : dlcDecoder dlc fd ≤ 64 := by
  revert dlc fd
  decide

theorem sentLength_le (c : Config) (ffw : Word) : sentLength c ffw ≤ 64 := by
  unfold sentLength
  dsimp only
  split
  · omega
  · exact dlcDecoder_le _ _

/-- A frame is covered exactly if no byte is sent of which the word was not written. -/
theorem covers_iff {c : Config} {isfdf : Bool} (hlen : cf.len.toNat ≤ 64) :
    Covers c cf isfdf ↔ sentLength c (frameFormat cf isfdf) ≤ 4 * wordsWritten cf := by
  rw [sentLength_frameFormat, Covers]
  cases hf : isfdf && c.mrModeFde with
  | false =>
    have hclassical : ¬ (isfdf = true ∧ c.mrModeFde = true) := by
      rw [← Bool.and_eq_true_iff, hf]
      decide
    refine ⟨fun _ => ?_, fun _ h1 h2 => absurd ⟨h1, h2⟩ hclassical⟩
    cases hr : cf.rtr
    · simp only [wordsWritten, hr]
      split
      · omega
      · exact classical_covered _ hlen
    · simp
  | true =>
    obtain ⟨h1, h2⟩ := Bool.and_eq_true_iff.mp hf
    have hzero := dlcDecoder_fd (canLen2dlc cf.len)
    have hsent : (if canLen2dlc cf.len == 0 || (cf.rtr && !true) then 0
        else dlcDecoder (canLen2dlc cf.len) true) = dlcDecoder (canLen2dlc cf.len) true := by
      split
      · next h => exact (hzero.mpr (by simpa using h)).symm
      · rfl
    rw [hsent]
    cases hr : cf.rtr <;> simp [h1, h2, wordsWritten, hr, hzero]

theorem word_byte (cf : CanfdFrame) (k : Nat) :
    (cf.word (4 * (k / 4))).extractLsb' (8 * (k % 4)) 8 = cf.byte k := by
  have hk := Nat.div_add_mod k 4
  have hr := Nat.mod_lt k (show 0 < 4 by decide)
  have hw := word_bytes (cf.byte (4 * (k / 4) + 3)) (cf.byte (4 * (k / 4) + 2))
    (cf.byte (4 * (k / 4) + 1)) (cf.byte (4 * (k / 4))) ⟨k % 4, hr⟩
  refine hw.trans ?_
  clear hw
  generalize k % 4 = r, k / 4 = m at hk hr ⊢
  subst hk
  match r, hr with
  | 0, _ | 1, _ | 2, _ | 3, _ => rfl

theorem insertFrame_payload {ntxbufs : Nat} {txStatus : BitVec 32} {isfdf : Bool} {r : Rams}
    {c : Config} (h : insertFrame ntxbufs txStatus rams cf buf isfdf = some r)
    (hc : Covers c cf isfdf) :
    payload c (r buf) =
      (List.range (sentLength c (frameFormat cf isfdf))).map cf.byte := by
  obtain ⟨hlen, -, hffw, hwords, -⟩ := insertFrame_ram h
  rw [payload, hffw]
  refine List.map_congr_left fun k hk => ?_
  have hk := List.mem_range.mp hk
  have := (covers_iff hlen).mp hc
  rw [sentByte, hwords (k / 4) (by omega), word_byte]

/-! ## Sequences of frames -/

/-- A call of `ctucan_insert_frame`, with the TX_STATUS it reads. -/
structure Insert where
  txStatus : BitVec 32
  frame : CanfdFrame
  buf : Nat
  isfdf : Bool

namespace Insert

def call (ntxbufs : Nat) (rams : Rams) (x : Insert) : Option Rams :=
  insertFrame ntxbufs x.txStatus rams x.frame x.buf x.isfdf

/-- Whether a frame is accepted does not depend on the RAM. -/
theorem call_isSome_iff {ntxbufs : Nat} {x : Insert} :
    (x.call ntxbufs rams).isSome = true ↔
      x.buf < ntxbufs ∧ isTxtBufWritable x.txStatus x.buf = true ∧ x.frame.len.toNat ≤ 64 := by
  simp only [call, insertFrame]
  split_ifs with h1 h2 h3 <;> simp_all

/-- A call for the same buffer, with 64 bytes of one value. -/
def filling (x : Insert) (fill : BitVec 8) : Insert := { x with frame := ⟨0, 64, 0, fun _ => fill⟩ }

end Insert

/-- A frame that is refused leaves the RAM as it is. -/
def insertAll (ntxbufs : Nat) (rams : Rams) (xs : List Insert) : Rams :=
  xs.foldl (fun r x => (x.call ntxbufs r).getD r) rams

theorem insertAll_other (ntxbufs : Nat) (xs : List Insert) (hxs : ∀ x ∈ xs, x.buf ≠ buf) :
    insertAll ntxbufs rams xs buf = rams buf := by
  induction xs generalizing rams with
  | nil => rfl
  | cons x xs ih =>
    have hx : ((x.call ntxbufs rams).getD rams) buf = rams buf := by
      cases hcall : x.call ntxbufs rams with
      | none => rfl
      | some r => exact (insertFrame_ram hcall).2.1 buf (hxs x List.mem_cons_self).symm
    rw [insertAll, List.foldl_cons]
    exact (ih fun y hy => hxs y (List.mem_cons_of_mem x hy)).trans hx

/-- The RAM of a buffer is what its last call has left, which started from what the calls before
it had left. -/
theorem insertAll_last {ntxbufs : Nat} {ys : List Insert} {x : Insert} (xs : List Insert)
    (hx : (x.call ntxbufs rams).isSome = true) (hys : ∀ y ∈ ys, y.buf ≠ x.buf) :
    ∃ r, x.call ntxbufs (insertAll ntxbufs rams xs) = some r ∧
      insertAll ntxbufs rams (xs ++ x :: ys) x.buf = r x.buf := by
  obtain ⟨r, hr⟩ := Option.isSome_iff_exists.mp
    (Insert.call_isSome_iff.mpr (Insert.call_isSome_iff.mp hx) :
      (x.call ntxbufs (insertAll ntxbufs rams xs)).isSome = true)
  refine ⟨r, hr, ?_⟩
  have hstep : insertAll ntxbufs rams (xs ++ x :: ys) = insertAll ntxbufs r ys := by
    simp only [insertAll, List.foldl_append, List.foldl_cons]
    rw [show x.call ntxbufs (xs.foldl _ rams) = some r from hr]
    rfl
  rw [hstep, insertAll_other ntxbufs ys hys]

/-- The bytes sent for a frame are the same whatever was written to the buffers before and to
the other buffers since. -/
def Independent (c : Config) (ntxbufs : Nat) (rams : Rams) (x : Insert) : Prop :=
  ∀ xs xs' ys ys' : List Insert, (∀ y ∈ ys, y.buf ≠ x.buf) → (∀ y ∈ ys', y.buf ≠ x.buf) →
    payload c (insertAll ntxbufs rams (xs ++ x :: ys) x.buf) =
      payload c (insertAll ntxbufs rams (xs' ++ x :: ys') x.buf)

section History

variable {c : Config} {ntxbufs : Nat} {x : Insert} (hx : (x.call ntxbufs rams).isSome = true)

include hx

theorem payload_covered (hc : Covers c x.frame x.isfdf) {xs ys : List Insert}
    (hys : ∀ y ∈ ys, y.buf ≠ x.buf) :
    payload c (insertAll ntxbufs rams (xs ++ x :: ys) x.buf) =
      (List.range (sentLength c (frameFormat x.frame x.isfdf))).map x.frame.byte := by
  obtain ⟨r, hr, hram⟩ := insertAll_last xs hx hys
  rw [hram]
  exact insertFrame_payload hr hc

/-- The first byte behind the words of a frame is the one of the frame before it. -/
theorem payload_filling (fill : BitVec 8)
    (hlen : 4 * wordsWritten x.frame < sentLength c (frameFormat x.frame x.isfdf)) :
    (payload c (insertAll ntxbufs rams ([x.filling fill] ++ [x]) x.buf))[4 * wordsWritten x.frame]? =
      some fill := by
  have hacc := Insert.call_isSome_iff.mp hx
  have hle := sentLength_le c (frameFormat x.frame x.isfdf)
  -- the RAM after the filling
  have hfill : ((x.filling fill).call ntxbufs rams).isSome = true :=
    Insert.call_isSome_iff.mpr ⟨hacc.1, hacc.2.1, Nat.le_refl 64⟩
  obtain ⟨r₀, hr₀⟩ := Option.isSome_iff_exists.mp hfill
  have hbefore : insertAll ntxbufs rams [x.filling fill] = r₀ := congrArg (·.getD rams) hr₀
  have hfull : wordsWritten (x.filling fill).frame = 16 := by
    simp [wordsWritten, Insert.filling, CanfdFrame.rtr]
  have hword₀ : r₀ x.buf (4 + wordsWritten x.frame) = _ :=
    (insertFrame_ram hr₀).2.2.2.1 _ (by omega)
  obtain ⟨r, hr, hram⟩ := insertAll_last _ hx (List.forall_mem_nil _)
  obtain ⟨-, -, hffw, -, hkept⟩ := insertFrame_ram hr
  have hbyte : sentByte (r x.buf) (4 * wordsWritten x.frame) = fill := by
    have hdiv : 4 * wordsWritten x.frame / 4 = wordsWritten x.frame := by omega
    have hword := word_byte (x.filling fill).frame (4 * wordsWritten x.frame)
    rw [hdiv] at hword
    rw [sentByte, hdiv, hkept _ (Nat.le_refl _), hbefore, hword₀, hword, CanfdFrame.byte,
      dif_pos (by omega)]
    rfl
  rw [hram, payload, hffw, List.getElem?_map, List.getElem?_range hlen]
  exact congrArg some hbyte

/-- If the last words of a frame are not written, its bytes depend on the frame before. -/
theorem covers_of_independent (h : Independent c ntxbufs rams x) : Covers c x.frame x.isfdf := by
  have hacc := Insert.call_isSome_iff.mp hx
  rw [covers_iff hacc.2.2]
  by_contra hlen
  have hsame := h [x.filling 0x55] [x.filling 0xAA] [] [] nofun nofun
  have hbyte := (payload_filling hx 0x55 (by omega)).symm.trans
    ((congrArg (·[4 * wordsWritten x.frame]?) hsame).trans (payload_filling hx 0xAA (by omega)))
  exact absurd (Option.some.inj hbyte) (by decide)

end History

/-- The bytes sent for a frame are independent of all others exactly if the frame is covered, and
then each of them is a byte of the frame. -/
theorem payload_of_frame (c : Config) (ntxbufs : Nat) (rams : Rams) (x : Insert)
    (hx : (x.call ntxbufs rams).isSome = true) :
    (Independent c ntxbufs rams x ↔ Covers c x.frame x.isfdf) ∧
      (Covers c x.frame x.isfdf → ∀ (rams' : Rams) (xs ys : List Insert),
        (∀ y ∈ ys, y.buf ≠ x.buf) →
        payload c (insertAll ntxbufs rams' (xs ++ x :: ys) x.buf) =
          (List.range (sentLength c (frameFormat x.frame x.isfdf))).map x.frame.byte) := by
  have hany : ∀ rams', (x.call ntxbufs rams').isSome = true := fun _ =>
    Insert.call_isSome_iff.mpr (Insert.call_isSome_iff.mp hx)
  refine ⟨⟨covers_of_independent hx, fun hc xs xs' ys ys' hys hys' => ?_⟩,
    fun hc rams' xs ys hys => payload_covered (hany rams') hc hys⟩
  rw [payload_covered hx hc hys, payload_covered hx hc hys']

/-- A frame filled with one byte, for the first buffer while it is empty. -/
def filled (fill : BitVec 8) (canId : BitVec 32) (len : BitVec 8) : Insert where
  txStatus := 0x8888
  frame := ⟨canId, len, 0, fun _ => fill⟩
  buf := 0
  isfdf := true

/-- A frame of 20 bytes after a longer one. -/
theorem payload_of_frame_shorter :
    payload CanCore.listener
        (insertAll 4 (fun _ _ => 0) ([filled 0xAA 0 64] ++ filled 0x11 0 20 :: []) 0) =
      List.replicate 20 0x11#8 := by
  refine ((payload_of_frame CanCore.listener 4 (fun _ _ => 0) (filled 0x11 0 20)
    (by decide +kernel)).2 (by decide +kernel) (fun _ _ => 0) [filled 0xAA 0 64] [] nofun).trans ?_
  decide +kernel

/-- The bytes of a frame of 25 bytes, and of a CAN FD frame with the RTR flag, depend on the frame
before it. -/
theorem stale_payload_sent :
    (∀ x ∈ [filled 0xAA 0 64, filled 0xBB 0 64, filled 0x11 0 25, filled 0x11 0x40000000 8],
      ∀ rams, (x.call 4 rams).isSome = true) ∧
      payload CanCore.listener (insertAll 4 (fun _ _ => 0) [filled 0xAA 0 64, filled 0x11 0 25] 0) =
        List.replicate 28 0x11 ++ List.replicate 4 0xAA ∧
      payload CanCore.listener (insertAll 4 (fun _ _ => 0) [filled 0xBB 0 64, filled 0x11 0 25] 0) =
        List.replicate 28 0x11 ++ List.replicate 4 0xBB ∧
      payload CanCore.listener
        (insertAll 4 (fun _ _ => 0) [filled 0xAA 0 64, filled 0x11 0x40000000 8] 0) =
        List.replicate 8 0xAA := by
  refine ⟨?_, by decide +kernel, by decide +kernel, by decide +kernel⟩
  intro x hx rams
  simp only [List.mem_cons, List.not_mem_nil, or_false] at hx
  rcases hx with rfl | rfl | rfl | rfl <;> rfl

end Driver
