import CtuCanFd.Core.ProtocolControl
import CtuCanFd.Lib.BitFields

/-!
# The frame format

Where the fields of a frame are in its bits from SOF on, without stuff bits. The identifier
extension bit says where the control field starts, and the first bit of the control field
whether the frame is a CAN FD frame. What the fields mean is read off the bits alone; the
state machine that receives them has no part in it.
-/

open BitFields
open ProtocolControl (CrcSrc dlcDecoder)

namespace FrameFormat

@[ext]
structure Header where
  ident : BitVec 29
  identType : Bool
  isRtr : Bool
  frameType : Bool
  brs : Bool
  esi : Bool
  dlc : BitVec 4
deriving DecidableEq, Repr

/-- Length of the data field in bytes. A remote frame has none. -/
def Header.dataLength (h : Header) : Nat := if h.isRtr then 0 else dlcDecoder h.dlc h.frameType

/-- Classical frames have CRC15, CAN FD frames CRC17 up to 16 bytes of data. -/
def Header.crcSrc (h : Header) : CrcSrc :=
  if !h.frameType then .crc15 else if 16 < dlcDecoder h.dlc h.frameType then .crc21 else .crc17

section

variable (bits : List Bool)

/-- Identifier extension bit: SOF, 11 identifier bits and RTR or SRR are before it. -/
def identType : Bool := bit bits 13

/-- Position of the bit that tells CAN FD frames from classical ones. -/
def fdfAt : Nat := if identType bits then 33 else 14

def frameType : Bool := bit bits (fdfAt bits)

def dlcAt : Nat :=
  if frameType bits then fdfAt bits + 4
  else if identType bits then fdfAt bits + 2
  else fdfAt bits + 1

def headerLength : Nat := dlcAt bits + 4

/-- The fields from SOF to the DLC. -/
def header : Header where
  ident := word bits 1 11 ++ if identType bits then word bits 14 18 else 0#18
  identType := identType bits
  isRtr := bit bits (if identType bits then 32 else 12) && !frameType bits
  frameType := frameType bits
  brs := frameType bits && bit bits (fdfAt bits + 2)
  esi := frameType bits && bit bits (fdfAt bits + 3)
  dlc := word bits (dlcAt bits) 4

def dataEnd : Nat := headerLength bits + 8 * (header bits).dataLength

/-- Bits before the CRC. An ISO CAN FD frame has its stuff count there. -/
def coveredLength (iso : Bool) : Nat :=
  dataEnd bits + if iso && (header bits).frameType then 4 else 0

end

def crcLength : CrcSrc → Nat
  | .crc15 => 15
  | .crc17 => 17
  | .crc21 => 21

/-! ## Identifiers -/

theorem ident_split (x : BitVec 29) : x.extractLsb' 18 11 ++ x.extractLsb' 0 18 = x := by
  ext k hk
  simp
  grind

theorem ident_base (x : BitVec 11) (y : BitVec 18) : (x ++ y).extractLsb' 18 11 = x := by
  ext k hk
  simp
  grind

theorem ident_ext (x : BitVec 11) (y : BitVec 18) : (x ++ y).extractLsb' 0 18 = y := by
  ext k hk
  rw [BitVec.getElem_extractLsb', Nat.zero_add, BitVec.getLsbD_append]
  simp [hk]

/-! ## A header does not change once it is complete -/

variable {bits : List Bool}

theorem identType_concat (bits : List Bool) (b : Bool) :
    identType (bits ++ [b]) = if bits.length = 13 then b else identType bits := by
  simp only [identType, bit_concat, eq_comm]

theorem fdfAt_concat (bits : List Bool) (b : Bool) (h : bits.length ≠ 13) :
    fdfAt (bits ++ [b]) = fdfAt bits := by
  simp [fdfAt, identType_concat, h]

theorem fdfAt_cases (bits : List Bool) :
    (identType bits = true ∧ fdfAt bits = 33) ∨
      (identType bits = false ∧ fdfAt bits = 14) := by
  cases h : identType bits <;> simp [fdfAt, h]

theorem frameType_concat (bits : List Bool) (b : Bool) (h : bits.length ≠ 13) :
    frameType (bits ++ [b]) = if bits.length = fdfAt bits then b else frameType bits := by
  simp only [frameType, fdfAt_concat bits b h, bit_concat, eq_comm]

theorem frameType_early (bits : List Bool) (h : bits.length ≤ fdfAt bits) : frameType bits = false :=
  bit_of_length_le h

theorem dlcAt_cases (bits : List Bool) :
    (frameType bits = true ∧ dlcAt bits = fdfAt bits + 4) ∨
      (frameType bits = false ∧ identType bits = true ∧ dlcAt bits = 35) ∨
      (frameType bits = false ∧ identType bits = false ∧ dlcAt bits = 15) := by
  rcases fdfAt_cases bits with ⟨hi, hc⟩ | ⟨hi, hc⟩ <;>
    cases hf : frameType bits <;> simp [dlcAt, hf, hi, hc]

section Append

variable (more : List Bool)

theorem identType_append (h : 14 ≤ bits.length) : identType (bits ++ more) = identType bits :=
  bit_append_left more (by omega)

theorem fdfAt_append (h : 14 ≤ bits.length) : fdfAt (bits ++ more) = fdfAt bits := by
  rw [fdfAt, fdfAt, identType_append more h]

theorem fdfAt_lt_dlcAt (bits : List Bool) : 14 ≤ fdfAt bits ∧ fdfAt bits < dlcAt bits := by
  rcases fdfAt_cases bits with ⟨hi, hc⟩ | ⟨hi, hc⟩ <;>
    rcases dlcAt_cases bits with ⟨hf, hd⟩ | ⟨hf, hi', hd⟩ | ⟨hf, hi', hd⟩ <;> simp_all

theorem frameType_append (h : dlcAt bits ≤ bits.length) :
    frameType (bits ++ more) = frameType bits := by
  have hlt := fdfAt_lt_dlcAt bits
  rw [frameType, frameType, fdfAt_append more (by omega), bit_append_left more (by omega)]

theorem dlcAt_append (h : dlcAt bits ≤ bits.length) : dlcAt (bits ++ more) = dlcAt bits := by
  have hlt := fdfAt_lt_dlcAt bits
  rw [dlcAt, dlcAt, frameType_append more h, fdfAt_append more (by omega),
    identType_append more (by omega)]

theorem headerLength_append (h : headerLength bits ≤ bits.length) :
    headerLength (bits ++ more) = headerLength bits := by
  rw [headerLength] at h
  rw [headerLength, headerLength, dlcAt_append more (by omega)]

theorem header_append (h : headerLength bits ≤ bits.length) :
    header (bits ++ more) = header bits := by
  have hlt := fdfAt_lt_dlcAt bits
  have hend : dlcAt bits + 4 ≤ bits.length := h
  have hid := identType_append more (by omega : 14 ≤ bits.length)
  have hft := frameType_append more (by omega : dlcAt bits ≤ bits.length)
  have hbit : ∀ n, n < dlcAt bits → bit (bits ++ more) n = bit bits n := fun n hn =>
    bit_append_left more (by omega)
  simp only [header, hid, hft, fdfAt_append more (by omega : 14 ≤ bits.length),
    dlcAt_append more (by omega : dlcAt bits ≤ bits.length),
    word_append_left more (by omega : 1 + 11 ≤ bits.length), word_append_left more hend]
  rcases fdfAt_cases bits with ⟨hi, hc⟩ | ⟨hi, hc⟩
  · have hext : word (bits ++ more) 14 18 = word bits 14 18 :=
      word_append_left more (by omega)
    rw [hi, hc, if_pos rfl, if_pos rfl, if_pos rfl, hext, hbit 32 (by omega)]
    cases hf : frameType bits
    · simp
    · have hd : dlcAt bits = 37 := by simp [dlcAt, hf, hc]
      rw [hbit _ (by omega), hbit _ (by omega)]
  · rw [hi, hc, hbit _ (by simp; omega)]
    cases hf : frameType bits
    · simp
    · have hd : dlcAt bits = 18 := by simp [dlcAt, hf, hc]
      simp [hbit _ (by omega : 14 + 2 < dlcAt bits), hbit _ (by omega : 14 + 3 < dlcAt bits)]

theorem dataEnd_append (h : headerLength bits ≤ bits.length) :
    dataEnd (bits ++ more) = dataEnd bits := by
  rw [dataEnd, dataEnd, headerLength_append more h, header_append more h]

end Append

/-! ## Frames as they are sent -/

namespace Header

section

variable (h : Header)

/-- SOF and the base identifier. -/
def baseBits : List Bool := false :: sent (h.ident.extractLsb' 18 11)

/-- Up to the control field. An extended frame has a recessive bit in place of RTR. -/
def identBits : List Bool :=
  h.baseBits ++
    if h.identType then true :: true :: sent (h.ident.extractLsb' 0 18) ++ [h.isRtr]
    else [h.isRtr, false]

/-- Up to the DLC. The reserved bits are dominant. -/
def controlBits : List Bool :=
  h.identBits ++
    if h.frameType then [true, false, h.brs, h.esi]
    else if h.identType then [false, false] else [false]

def sentBits : List Bool := h.controlBits ++ sent h.dlc

/-- Headers whose fields are all on the bus. -/
structure WellFormed : Prop where
  ident : h.identType = false → h.ident.extractLsb' 0 18 = 0
  isRtr : h.frameType = true → h.isRtr = false
  brs : h.frameType = false → h.brs = false
  esi : h.frameType = false → h.esi = false

end

variable {h : Header} (more : List Bool)

theorem identType_sentBits : FrameFormat.identType (h.sentBits ++ more) = h.identType := by
  cases hi : h.identType <;>
    simp [FrameFormat.identType, sentBits, controlBits, identBits, baseBits, hi, bit_append]

theorem frameType_sentBits : FrameFormat.frameType (h.sentBits ++ more) = h.frameType := by
  rw [FrameFormat.frameType, fdfAt, identType_sentBits]
  cases hi : h.identType <;> cases hf : h.frameType <;>
    simp [sentBits, controlBits, identBits, baseBits, hi, hf, bit_append]

theorem headerLength_sentBits : headerLength (h.sentBits ++ more) = h.sentBits.length := by
  rw [headerLength, dlcAt, fdfAt, identType_sentBits, frameType_sentBits]
  cases hi : h.identType <;> cases hf : h.frameType <;>
    simp [sentBits, controlBits, identBits, baseBits, hi, hf]

/-- The header is read back from the bits it is sent as. -/
theorem header_sentBits (hw : h.WellFormed) : header (h.sentBits ++ more) = h := by
  have hid := identType_sentBits (h := h) more
  have hft := frameType_sentBits (h := h) more
  have hdlc : dlcAt (h.sentBits ++ more) = h.controlBits.length := by
    have hlen := headerLength_sentBits (h := h) more
    rw [headerLength, sentBits, List.length_append, length_sent] at hlen
    rw [sentBits]
    omega
  refine Header.ext ?_ hid ?_ hft ?_ ?_ ?_
  · have hsplit := ident_split h.ident
    simp only [header, hid]
    cases hi : h.identType
    · rw [hw.ident hi] at hsplit
      simpa [sentBits, controlBits, identBits, baseBits, word_append_left, word_sent] using hsplit
    · simpa [sentBits, controlBits, identBits, baseBits, hi, word_append_left, word_append_right,
        word_sent] using hsplit
  · have hrtr : bit (h.sentBits ++ more) (if h.identType then 32 else 12) = h.isRtr := by
      cases hi : h.identType <;> simp [sentBits, controlBits, identBits, baseBits, hi, bit_append]
    simp only [header, hid, hft, hrtr]
    cases hf : h.frameType
    · simp
    · simp [hw.isRtr hf]
  · simp only [header, hft, fdfAt, hid]
    cases hf : h.frameType
    · simp [hw.brs hf]
    · cases hi : h.identType <;>
        simp [sentBits, controlBits, identBits, baseBits, hi, hf, bit_append]
  · simp only [header, hft, fdfAt, hid]
    cases hf : h.frameType
    · simp [hw.esi hf]
    · cases hi : h.identType <;>
        simp [sentBits, controlBits, identBits, baseBits, hi, hf, bit_append]
  · show word (h.sentBits ++ more) (dlcAt (h.sentBits ++ more)) 4 = h.dlc
    rw [hdlc, sentBits, List.append_assoc, word_append_right _ _ _ (Nat.le_refl _),
      Nat.sub_self, word_append_left _ (by simp), word_sent]

/-! ## Priority -/

/-- The base identifier. -/
def base (h : Header) : BitVec 11 := h.ident.extractLsb' 18 11

/-- The order in which frames win the bus: lower base identifiers first, base frames before
extended frames, lower identifier extensions first, data frames before remote frames. -/
def Precedes (g h : Header) : Prop :=
  g.base.toNat < h.base.toNat ∨ (g.base = h.base ∧
    ((g.identType = false ∧ h.identType = true) ∨ (g.identType = h.identType ∧
      (g.ident.toNat < h.ident.toNat ∨ (g.ident = h.ident ∧ g.isRtr = false ∧ h.isRtr = true)))))

theorem ident_lt {g h : Header} (hbase : g.base = h.base)
    (hext : (g.ident.extractLsb' 0 18).toNat < (h.ident.extractLsb' 0 18).toNat) :
    g.ident.toNat < h.ident.toNat := by
  have hbase : (g.ident.extractLsb' 18 11).toNat = (h.ident.extractLsb' 18 11).toNat :=
    congrArg BitVec.toNat hbase
  simp only [BitVec.extractLsb'_toNat] at hbase hext
  omega

theorem ident_eq {g h : Header} (hbase : g.base = h.base)
    (hext : g.ident.extractLsb' 0 18 = h.ident.extractLsb' 0 18) : g.ident = h.ident := by
  rw [← ident_split g.ident, ← ident_split h.ident, hext]
  exact congrArg (· ++ _) hbase

/-- A frame that is dominant in the first bit in which it differs from the arbitration field of
another frame has priority over it. -/
theorem precedes_of_overrules {g h : Header} (hg : g.WellFormed) (hh : h.WellFormed)
    (ho : Overrules (g.identBits ++ more) h.identBits) : g.Precedes h := by
  rw [identBits, identBits, List.append_assoc, overrules_append _ _ (by simp [baseBits])] at ho
  rcases ho with ho | ⟨hbase, ho⟩
  · rcases ho with ⟨-, ho⟩ | ⟨-, ho⟩
    · cases ho
    · exact .inl ho.lt_of_sent
  have hbase : g.base = h.base := sent_injective (List.cons.inj hbase).2
  refine .inr ⟨hbase, ?_⟩
  cases hig : g.identType <;> cases hih : h.identType <;> simp [hig, hih] at ho
  case false.false =>
    have hext : g.ident.extractLsb' 0 18 = h.ident.extractLsb' 0 18 := by
      rw [hg.ident hig, hh.ident hih]
    exact .inr ⟨rfl, .inr ⟨ident_eq hbase hext, ho⟩⟩
  case false.true => exact .inl ⟨rfl, rfl⟩
  case true.true =>
    rw [overrules_append _ _ (by simp)] at ho
    rcases ho with ho | ⟨hext, ho⟩
    · exact .inr ⟨rfl, .inl (ident_lt hbase ho.lt_of_sent)⟩
    · exact .inr ⟨rfl, .inr ⟨ident_eq hbase (sent_injective hext), by simpa using ho⟩⟩

/-- An arbitration field tells the identifier and the kind of the frame. -/
structure SameArbitration (g h : Header) : Prop where
  ident : g.ident = h.ident
  identType : g.identType = h.identType
  isRtr : g.isRtr = h.isRtr

theorem SameArbitration.symm {g h : Header} (hs : g.SameArbitration h) : h.SameArbitration g :=
  ⟨hs.ident.symm, hs.identType.symm, hs.isRtr.symm⟩

theorem sameArbitration_of_prefix {g h : Header} (hg : g.WellFormed) (hh : h.WellFormed)
    (hpre : g.identBits <+: h.identBits) : g.SameArbitration h := by
  obtain ⟨more, hpre⟩ := hpre
  rw [identBits, identBits, List.append_assoc] at hpre
  obtain ⟨hbase, hpre⟩ := List.append_inj hpre (by simp [baseBits])
  have hbase : g.base = h.base := sent_injective (List.cons.inj hbase).2
  cases hig : g.identType <;> cases hih : h.identType <;> simp [hig, hih] at hpre
  case false.false =>
    exact ⟨ident_eq hbase (by rw [hg.ident hig, hh.ident hih]), by rw [hig, hih], hpre.1⟩
  case true.true =>
    obtain ⟨hext, hrtr⟩ := List.append_inj hpre (by simp)
    exact ⟨ident_eq hbase (sent_injective hext), by rw [hig, hih], (List.cons.inj hrtr).1⟩

end Header

end FrameFormat
