import CtuCanFd.Lib.SyncMachine
import CtuCanFd.TxPath.TxtBuffer

/-!
# Parity of the TXT buffer RAM

Software writes a TXT buffer through the memory bus. The data are stored byte by byte,
as the byte enables say, but the parity bit is that of the whole word on the bus. It
belongs to the stored word if the last write to that word had all bytes enabled.
-/

namespace TxtBuffer

open RxBuffer (Word)
open SyncMachine

/-- Write side of the memory bus. -/
structure Access where
  dataIn : Word
  adress : BitVec 16
  sbe : BitVec 4
  scs : Bool
  swr : Bool
deriving DecidableEq, Repr

/-- `TX_BUFFER_1_BLOCK` to `TX_BUFFER_8_BLOCK`. -/
def txBufferBlock (id : Nat) : BitVec 4 := BitVec.ofNat 4 (id + 1)

/-- Port A of a TXT buffer, driven by `memory_registers`. -/
def portA (id : Nat) (b : Access) (i : Input) : Input :=
  { i with
    txtbPortACs := b.adress.extractLsb' 8 4 == txBufferBlock id && b.scs && b.swr
    txtbPortAAddress := b.adress.extractLsb' 2 5
    txtbPortADataIn := b.dataIn
    txtbPortABe := b.sbe }

/-- A cycle of a buffer on the memory bus. -/
def busStep (g : Generics) (id : Nat) (s : State) (c : Access × Input) : State :=
  step g id s (portA id c.1 c.2)

/-- The access writes the word at an address of the buffer. -/
def Writes (id : Nat) (a : Nat) (s : State) (c : Access × Input) : Prop :=
  txtbPortAWrite s (portA id c.1 c.2) = true ∧ (portA id c.1 c.2).txtbPortAAddress.toNat = a

instance (id a : Nat) (s : State) (c : Access × Input) : Decidable (Writes id a s c) :=
  inferInstanceAs (Decidable (_ ∧ _))

/-- No bit of the RAM flips and the test port does not write to it. -/
def Intact (id : Nat) (c : Access × Input) : Prop :=
  c.2.ramFault = none ∧ (tstEna id c.2 = true → c.2.mrTstControlTwrstb = false)

instance (id : Nat) (c : Access × Input) : Decidable (Intact id c) :=
  inferInstanceAs (Decidable (_ ∧ _))

/-- If the access writes the word, it writes the whole of it, and the RAM is not turned
over to the test port. -/
def WholeWrites (id a : Nat) (s : State) (c : Access × Input) : Prop :=
  Writes id a s c → c.1.sbe = 0xF ∧ tstEna id c.2 = false

instance (id a : Nat) (s : State) (c : Access × Input) : Decidable (WholeWrites id a s c) :=
  inferInstanceAs (Decidable (_ → _))

/-- The stored parity bit is that of the stored word. -/
def ParityHolds (a : Nat) (s : State) : Prop := s.ram.parityWord a = RxBuffer.parity (s.ram.mem a)

theorem writeBytes_all (old new : Word) : writeBytes old new 15#4 = new := by
  apply BitVec.eq_of_getLsbD_eq
  intro j hj
  simp only [writeBytes, writeByte, BitVec.getLsbD_append]
  grind

section Step

variable {g : Generics} {id a : Nat} {s : State} {c : Access × Input}

theorem write_clocks {i : Input} (h : txtbPortAWrite s i = true) : ramClkEn g s i = true := by
  simp [ramClkEn, h]

/-- A write of the whole word stores its parity bit with it. -/
theorem parityHolds_write (hg : g.supParity = true) (hi : Intact id c) (hw : Writes id a s c)
    (hwhole : WholeWrites id a s c) : ParityHolds a (busStep g id s c) := by
  have hfault : (portA id c.1 c.2).ramFault = none := hi.1
  have hbe : (portA id c.1 c.2).txtbPortABe = 0xF := (hwhole hw).1
  have htst : tstEna id (portA id c.1 c.2) = false := (hwhole hw).2
  obtain ⟨hwr, rfl⟩ := hw
  have hclk := write_clocks (g := g) hwr
  simp [ParityHolds, busStep, step, nextRam, nextMem, applyFault, hg, hclk, hwr, htst, hfault,
    hbe, writeBytes_all]

/-- Without a write to the word its data stay. -/
theorem mem_keep (hi : Intact id c) (hw : ¬ Writes id a s c) :
    (busStep g id s c).ram.mem a = s.ram.mem a := by
  have hfault : (portA id c.1 c.2).ramFault = none := hi.1
  have htstb : tstEna id (portA id c.1 c.2) = true →
      (portA id c.1 c.2).mrTstControlTwrstb = false := hi.2
  simp only [busStep, step, nextRam, applyFault, hfault, nextMem]
  cases htst : tstEna id (portA id c.1 c.2)
  · by_cases hwr : txtbPortAWrite s (portA id c.1 c.2) = true
    · have hne : a ≠ (portA id c.1 c.2).txtbPortAAddress.toNat := fun heq => hw ⟨hwr, heq.symm⟩
      simp [Function.update_of_ne hne, hwr, write_clocks (g := g) hwr]
    · simp [hwr]
  · simp [htstb htst]

/-- Without a write to the word its parity bit stays. -/
theorem parityWord_keep (hw : ¬ Writes id a s c) :
    (busStep g id s c).ram.parityWord a = s.ram.parityWord a := by
  simp only [busStep, step, nextRam]
  split_ifs with hen
  · have hwr : txtbPortAWrite s (portA id c.1 c.2) = true := (Bool.and_eq_true_iff.mp hen).2
    have hne : a ≠ (portA id c.1 c.2).txtbPortAAddress.toNat := fun heq => hw ⟨hwr, heq.symm⟩
    exact Function.update_of_ne hne _ _
  · rfl

theorem parityHolds_step (hg : g.supParity = true) (h : ParityHolds a s)
    (hc : Intact id c ∧ WholeWrites id a s c) : ParityHolds a (busStep g id s c) := by
  obtain ⟨hi, hwhole⟩ := hc
  by_cases hw : Writes id a s c
  · exact parityHolds_write hg hi hw hwhole
  · unfold ParityHolds
    rw [mem_keep hi hw, parityWord_keep hw]
    exact h

/-- The word and its parity bit leave the RAM together. -/
theorem read_matches (h : ParityHolds a s)
    (hclk : ramClkEn g s (portA id c.1 c.2) = true) (htst : tstEna id c.2 = false)
    (haddr : c.2.txtbPortBAddress = a) (i : Input) :
    parityMismatch g (busStep g id s c) i = false := by
  have htst' : tstEna id (portA id c.1 c.2) = false := htst
  have haddr' : (portA id c.1 c.2).txtbPortBAddress = a := haddr
  unfold ParityHolds at h
  cases hg : g.supParity
  · simp [parityMismatch, hg]
  · simp [parityMismatch, busStep, step, nextRam, hclk, htst', haddr', hg, h]

end Step

/-- After any accesses, a write of a whole word and any accesses that write this word only
as a whole, a read of the word shows no parity mismatch. -/
theorem whole_word_parity (g : Generics) (id a : Nat) (s : State)
    (before after : List (Access × Input)) (w c : Access × Input) (i : Input)
    (hw : Writes id a (run (busStep g id) s before) w)
    (hafter : Admits (busStep g id) (fun s c => Intact id c ∧ WholeWrites id a s c)
      (run (busStep g id) s before) (w :: after))
    (hclk : ramClkEn g (run (busStep g id) s (before ++ w :: after)) (portA id c.1 c.2) = true)
    (htst : tstEna id c.2 = false) (haddr : c.2.txtbPortBAddress = a) :
    parityMismatch g (busStep g id (run (busStep g id) s (before ++ w :: after)) c) i = false := by
  cases hg : g.supParity
  · simp [parityMismatch, hg]
  · rw [run_append] at hclk ⊢
    obtain ⟨hwhole, hafter⟩ := hafter
    have hstored := parityHolds_write hg hwhole.1 hw hwhole.2
    have hkept := run_invariant (busStep g id) _ (ParityHolds a)
      (fun s c h hc => parityHolds_step hg h hc) hstored after hafter
    exact read_matches hkept hclk htst haddr i

/-! ### A word and one byte of it -/

/-- The buffer with nothing to do. -/
def quiet : Input where
  mrModeBmm := false
  mrModeRom := false
  mrSettingsTbfbo := false
  mrTxCommandTxce := false
  mrTxCommandTxcr := false
  mrTxCommandTxca := false
  mrTxCommandTxbi := false
  txtbIsBb := false
  txtbHwCmd := {}
  txtbHwCmdCs := false
  isBusOff := false
  mrSettingsPchke := true
  txtbParityCheckValid := false
  txtbIndexMuxed := false
  txtbPortACs := false
  txtbPortAAddress := 0
  txtbPortADataIn := 0
  txtbPortABe := 0
  txtbPortBAddress := 4
  txtbPortBClkEn := true
  mrTstControlTmaena := false
  mrTstControlTwrstb := false
  mrTstDestTstAddr := 0
  mrTstDestTstMtgt := 0
  mrTstWdataTstWdata := 0
  ramFault := none

/-- Software writes to the first data word of TXT buffer 1. -/
def writeWord (data : Word) (be : BitVec 4) : Access × Input :=
  (⟨data, 0x110, be, true, true⟩, quiet)

def withParity : Generics := ⟨.fpga, true⟩

theorem whole_word_parity_twice :
    parityMismatch withParity (run (busStep withParity 0) (reset (fun _ => 0) 0)
      [writeWord 0x01000000 0xF, writeWord 0x01000001 0xF, (⟨0, 0, 0, false, false⟩, quiet)])
      quiet = false :=
  whole_word_parity withParity 0 4 (reset (fun _ => 0) 0) [] [writeWord 0x01000001 0xF]
    (writeWord 0x01000000 0xF) (⟨0, 0, 0, false, false⟩, quiet) quiet (by decide) (by decide)
    (by decide) (by decide) (by decide)

/-- A byte written to a word that was written as a whole before: the parity bit is that of the
bus, with zeros in place of the other bytes. -/
theorem byte_write_parity_mismatch :
    let is := [writeWord 0x01000000 0xF, writeWord 0x00000001 0x1,
      (⟨0, 0, 0, false, false⟩, quiet)]
    (∀ c ∈ is, Intact 0 c) ∧
      parityMismatch withParity (run (busStep withParity 0) (reset (fun _ => 0) 0) is) quiet =
        true := by
  decide +kernel

end TxtBuffer
