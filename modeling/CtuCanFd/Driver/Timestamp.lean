import CtuCanFd.Lib.TimedReads
import Mathlib.Data.BitVec

/-!
# Timestamp read by the driver

`ctucan_hw_read_timestamp` assembles the timestamp from reads of TIMESTAMP_HIGH and
TIMESTAMP_LOW, between which the timestamp goes on. It reads the upper word once more after
the lower one, and if the upper word has changed, it reads the lower one again.
-/

namespace Driver.Timestamp

open TimedReads

/-! ## Registers -/

/-- What the registers are read from in one cycle. -/
structure Cycle where
  timestamp : BitVec 64
  /-- The words of the control registers below TIMESTAMP_LOW. -/
  words : BitVec 1184
  testRegistersRdata : BitVec 32

/-- `read_data_mux_in` of the control registers. -/
def readDataMuxIn (c : Cycle) : BitVec 1248 :=
  c.timestamp.extractLsb' 32 32 ++ c.timestamp.extractLsb' 0 32 ++ c.words

/-- `data_mux` of the control registers: a word past the last one reads as zero. -/
def dataMux (dataSelector : BitVec 6) (dataIn : BitVec 1248) (dataMaskN : BitVec 32) :
    BitVec 32 :=
  let index := dataSelector.toNat
  let indexSat := if index ≤ 38 then index else 38
  let saturatedData := if index ≤ 38 then dataIn.extractLsb' (indexSat * 32) 32 else 0
  saturatedData &&& dataMaskN

/-- `data_out` after a read of a whole word. The read data are registered: they are those of the
cycle of the access. -/
def dataOut (c : Cycle) (adress : BitVec 16) : BitVec 32 :=
  if adress.extractLsb' 8 4 = 0x0 then
    dataMux (adress.extractLsb' 2 6) (readDataMuxIn c) (BitVec.allOnes 32)
  else if adress.extractLsb' 8 4 = 0x9 then c.testRegistersRdata
  else 0

/-- `CTU_CAN_FD_TIMESTAMP_LOW`. -/
def timestampLow : BitVec 16 := 0x94

/-- `CTU_CAN_FD_TIMESTAMP_HIGH`. -/
def timestampHigh : BitVec 16 := 0x98

theorem dataOut_low (c : Cycle) : dataOut c timestampLow = c.timestamp.extractLsb' 0 32 := by
  calc dataOut c timestampLow
      = (readDataMuxIn c).extractLsb' 1184 32 &&& BitVec.allOnes 32 := rfl
    _ = (readDataMuxIn c).extractLsb' 1184 32 := BitVec.and_allOnes
    _ = (c.timestamp.extractLsb' 32 32 ++ c.timestamp.extractLsb' 0 32).extractLsb' 0 32 :=
      BitVec.extractLsb'_append_eq_of_le (Nat.le_refl 1184)
    _ = (c.timestamp.extractLsb' 0 32).extractLsb' 0 32 :=
      BitVec.extractLsb'_append_eq_of_add_le (by decide)
    _ = c.timestamp.extractLsb' 0 32 := BitVec.extractLsb'_eq_self

theorem dataOut_high (c : Cycle) : dataOut c timestampHigh = c.timestamp.extractLsb' 32 32 := by
  calc dataOut c timestampHigh
      = (readDataMuxIn c).extractLsb' 1216 32 &&& BitVec.allOnes 32 := rfl
    _ = (readDataMuxIn c).extractLsb' 1216 32 := BitVec.and_allOnes
    _ = (c.timestamp.extractLsb' 32 32 ++ c.timestamp.extractLsb' 0 32).extractLsb' 32 32 :=
      BitVec.extractLsb'_append_eq_of_le (by decide)
    _ = (c.timestamp.extractLsb' 32 32).extractLsb' 0 32 :=
      BitVec.extractLsb'_append_eq_of_le (Nat.le_refl 32)
    _ = c.timestamp.extractLsb' 32 32 := BitVec.extractLsb'_eq_self

/-! ## Driver -/

/-- `ctucan_hw_read_timestamp`. -/
def readTimestamp : TimedReads (BitVec 16) (BitVec 32) (BitVec 64) := do
  let tsHigh ← readAt timestampHigh
  let tsLow ← readAt timestampLow
  let tsHigh2 ← readAt timestampHigh
  let tsLow ← if tsHigh ≠ tsHigh2 then readAt timestampLow else pure tsLow
  return tsHigh2.setWidth 64 <<< 32 ||| tsLow.setWidth 64

/-- The registers in each cycle of `clk_sys`, and the cycles that an access of the driver issued
in a cycle takes until it reaches them. -/
structure Hardware where
  cycle : Nat → Cycle
  latency : Nat → Nat

namespace Hardware

variable (hw : Hardware)

def timestamp (n : Nat) : BitVec 64 := (hw.cycle n).timestamp

def bus : Device (BitVec 16) (BitVec 32) := ⟨fun n => dataOut (hw.cycle n), hw.latency⟩

/-- The value that a call returns which starts in cycle `start`. -/
def value (start : Nat) : BitVec 64 := (readTimestamp.exec hw.bus start).1

/-- The cycle after the last read of the call. -/
def finish (start : Nat) : Nat := (readTimestamp.exec hw.bus start).2

/-- From cycle `start` on and before `stop` the timestamp never decreases. -/
def NeverDecreases (start stop : Nat) : Prop :=
  ∀ m n, start ≤ m → m ≤ n → n < stop → hw.timestamp m ≤ hw.timestamp n

/-- What the timestamp advances by during a call. -/
def advance (start : Nat) : Nat :=
  (hw.timestamp (hw.finish start - 1)).toNat - (hw.timestamp start).toNat

end Hardware

/-! ## A counter in two words -/

/-- A quotient that is the same at both ends is the same between. -/
theorem div_between {x y z B : Nat} (hxy : x ≤ y) (hyz : y ≤ z) (h : x / B = z / B) :
    y / B = z / B :=
  Nat.le_antisymm (Nat.div_le_div_right hyz) (h ▸ Nat.div_le_div_right hxy)

/-- Once the quotient has changed, it does not change again within the divisor. -/
theorem div_settled {x y z B : Nat} (hxy : x ≤ y) (hyz : y ≤ z) (hB : 0 < B) (h : x / B ≠ y / B)
    (hz : z < x + B) : z / B = y / B := by
  have hlt : x / B < y / B := Nat.lt_of_le_of_ne (Nat.div_le_div_right hxy) h
  have hle : z / B ≤ x / B + 1 := by
    rw [← Nat.add_div_right x hB]
    exact Nat.div_le_div_right hz.le
  have hge : y / B ≤ z / B := Nat.div_le_div_right hyz
  omega

theorem assemble (t : BitVec 64) :
    (t.extractLsb' 32 32).setWidth 64 <<< 32 ||| (t.extractLsb' 0 32).setWidth 64 = t := by
  ext k hk
  simp only [BitVec.getElem_or, BitVec.getElem_shiftLeft, BitVec.getElem_setWidth,
    BitVec.getLsbD_extractLsb']
  by_cases h : k < 32
  · simp [h, BitVec.getLsbD_eq_getElem hk]
  · have hk' : k - 32 < 32 := by omega
    have hsum : 32 + (k - 32) = k := by omega
    simp [h, hk', hsum, BitVec.getLsbD_eq_getElem hk]

/-! ## What a call does -/

namespace Hardware

variable (hw : Hardware)

def high (n : Nat) : BitVec 32 := (hw.timestamp n).extractLsb' 32 32

def low (n : Nat) : BitVec 32 := (hw.timestamp n).extractLsb' 0 32

theorem high_toNat (n : Nat) : (hw.high n).toNat = (hw.timestamp n).toNat / 2 ^ 32 := by
  have ht := (hw.timestamp n).isLt
  rw [high, BitVec.extractLsb'_toNat, Nat.shiftRight_eq_div_pow]
  exact Nat.mod_eq_of_lt (by omega)

theorem high_eq_iff (m n : Nat) :
    hw.high m = hw.high n ↔
      (hw.timestamp m).toNat / 2 ^ 32 = (hw.timestamp n).toNat / 2 ^ 32 := by
  rw [← BitVec.toNat_inj, high_toNat, high_toNat]

/-- A call takes three reads, or four if the upper word has changed. -/
theorem call_cases (start : Nat) :
    ∃ t₁ t₂ t₃, start ≤ t₁ ∧ t₁ < t₂ ∧ t₂ < t₃ ∧
      ((hw.high t₁ = hw.high t₃ ∧ hw.finish start = t₃ + 1 ∧
          hw.value start = (hw.high t₃).setWidth 64 <<< 32 ||| (hw.low t₂).setWidth 64) ∨
        ∃ t₄, t₃ < t₄ ∧ hw.high t₁ ≠ hw.high t₃ ∧ hw.finish start = t₄ + 1 ∧
          hw.value start = (hw.high t₃).setWidth 64 <<< 32 ||| (hw.low t₄).setWidth 64) := by
  have hhigh : ∀ n, hw.bus.data n timestampHigh = hw.high n := fun n => dataOut_high (hw.cycle n)
  have hlow : ∀ n, hw.bus.data n timestampLow = hw.low n := fun n => dataOut_low (hw.cycle n)
  have h1 := hw.bus.le_taken start
  generalize ht₁ : hw.bus.taken start = t₁ at h1
  have h2 := hw.bus.le_taken (t₁ + 1)
  generalize ht₂ : hw.bus.taken (t₁ + 1) = t₂ at h2
  have h3 := hw.bus.le_taken (t₂ + 1)
  generalize ht₃ : hw.bus.taken (t₂ + 1) = t₃ at h3
  refine ⟨t₁, t₂, t₃, h1, h2, h3, ?_⟩
  unfold finish value readTimestamp
  simp only [exec_bind, exec_readAt, hhigh, hlow, ht₁, ht₂, ht₃]
  by_cases h : hw.high t₁ = hw.high t₃
  · left
    simp [h, exec_bind, exec_pure]
  · right
    refine ⟨hw.bus.taken (t₃ + 1), hw.bus.le_taken (t₃ + 1), h, ?_⟩
    simp [h, exec_bind, exec_readAt, exec_pure, hlow]

variable {hw} {start : Nat}

/-- The value returned is one that the timestamp had during the call. -/
theorem timestamp_not_torn (hmono : hw.NeverDecreases start (hw.finish start))
    (hadv : hw.advance start < 2 ^ 32) :
    ∃ n, start ≤ n ∧ n < hw.finish start ∧ hw.timestamp n = hw.value start := by
  obtain ⟨t₁, t₂, t₃, h1, h2, h3, ⟨heq, hfin, hval⟩ | ⟨t₄, h4, hne, hfin, hval⟩⟩ :=
    hw.call_cases start
  · -- the upper word did not change around the read of the lower one
    have h12 := hmono t₁ t₂ (by omega) (by omega) (by omega)
    have h23 := hmono t₂ t₃ (by omega) (by omega) (by omega)
    have hhigh : hw.high t₂ = hw.high t₃ :=
      (hw.high_eq_iff t₂ t₃).mpr (div_between h12 h23 ((hw.high_eq_iff t₁ t₃).mp heq))
    refine ⟨t₂, by omega, by omega, ?_⟩
    rw [hval, ← hhigh]
    exact (assemble (hw.timestamp t₂)).symm
  · -- the upper word changed, so it does not change again before the second read of the lower one
    have h01 := hmono start t₁ (by omega) (by omega) (by omega)
    have h13 := hmono t₁ t₃ (by omega) (by omega) (by omega)
    have h34 := hmono t₃ t₄ (by omega) (by omega) (by omega)
    rw [BitVec.le_def] at h01
    have hlt : (hw.timestamp t₄).toNat < (hw.timestamp t₁).toNat + 2 ^ 32 := by
      rw [advance, hfin, Nat.add_sub_cancel] at hadv
      omega
    have hhigh : hw.high t₄ = hw.high t₃ :=
      (hw.high_eq_iff t₄ t₃).mpr
        (div_settled h13 h34 (by decide) (fun h => hne ((hw.high_eq_iff t₁ t₃).mpr h)) hlt)
    refine ⟨t₄, by omega, by omega, ?_⟩
    rw [hval, ← hhigh]
    exact (assemble (hw.timestamp t₄)).symm

/-- The lower word wraps between its first read and the second read of the upper word. -/
def wrapping : Hardware := ⟨fun n => ⟨0xFFFFFFFE + BitVec.ofNat 64 n, 0, 0⟩, fun _ => 0⟩

theorem timestamp_not_torn_wrapping :
    wrapping.value 0 = 0x100000001 ∧
      ∃ n, 0 ≤ n ∧ n < wrapping.finish 0 ∧ wrapping.timestamp n = wrapping.value 0 := by
  have hfin : wrapping.finish 0 = 4 := by decide +kernel
  have hmono : wrapping.NeverDecreases 0 (wrapping.finish 0) := by
    intro m n _ hmn hn
    rw [hfin] at hn
    have hall : ∀ n, n < 4 → ∀ m, m < n + 1 → wrapping.timestamp m ≤ wrapping.timestamp n := by
      decide +kernel
    exact hall n hn m (by omega)
  exact ⟨by decide +kernel, timestamp_not_torn hmono (by decide +kernel)⟩

/-- A timestamp that advances further may change its upper word twice. -/
example :
    let hw : Hardware := ⟨fun n => ⟨if n < 2 then 0xFFFFFFFF else
      if n = 2 then 0x100000005 else 0x200000003, 0, 0⟩, fun _ => 0⟩
    hw.value 0 = 0x100000003 ∧ ∀ n, n < hw.finish 0 → hw.timestamp n ≠ hw.value 0 := by
  decide +kernel

end Hardware

end Driver.Timestamp
