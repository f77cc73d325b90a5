import Mathlib.Data.BitVec
import CtuCanFd.Lib.Forecast

/-!
# AHB adaptor

`ahb_ifc` translates AHB-Lite transfers to strobes of the internal bus. A read is strobed in
its address phase, a write one cycle later, in its data phase.

The abstract bus keeps the transfer that is in its data phase and says which strobes a
compliant sequence of cycles asks for. The adaptor follows it as long as the master gives no
IDLE to the selected slave and no BUSY in the data phase of a write. A read of the slave in
the data phase of a write leaves no value for HREADY.
-/

namespace Ahb

open SyncMachine

abbrev Word := BitVec 32

/-- HTRANS. -/
inductive Transfer where
  | idle
  | busy
  | nonseq
  | seq
deriving DecidableEq, Repr

/-- Inputs of one clock cycle. `word` is what the registers would return for an address and
byte enables in this cycle, `unread` is their output after a cycle without a read. -/
structure Cycle where
  haddr : BitVec 32
  hwdata : Word
  hsel : Bool
  hwrite : Bool
  hsize : BitVec 3
  htrans : Transfer
  hready : Bool
  word : BitVec 16 → BitVec 4 → Word
  unread : Word

/-- Registers of the adaptor, and `data_out` of the registers behind it. -/
structure State where
  writeAccQ : Bool
  haddrQ : BitVec 16
  sbeQ : BitVec 4
  dataOut : Word
deriving DecidableEq, Repr

def reset : State := ⟨false, 0, 0, 0⟩

/-! ## `ahb_ifc` -/

def hselValid (c : Cycle) : Bool := c.hsel && c.hready && c.htrans != .busy

def writeAccD (s : State) (c : Cycle) : Bool :=
  if hselValid c && c.hwrite then true else if c.htrans != .busy then false else s.writeAccQ

/-- `h_size_dec_proc`, as the combinational logic it stands for. -/
def sbeD (c : Cycle) : BitVec 4 :=
  if c.hsize = 0 then
    if c.haddr.extractLsb' 0 2 = 0 then 1
    else if c.haddr.extractLsb' 0 2 = 1 then 2
    else if c.haddr.extractLsb' 0 2 = 2 then 4
    else 8
  else if c.hsize = 1 then if c.haddr.getLsbD 1 then 12 else 3
  else if c.hsize = 2 then 15
  else 0

def adress (s : State) (c : Cycle) : BitVec 16 :=
  if s.writeAccQ then s.haddrQ else c.haddr.truncate 16

def sbe (s : State) (c : Cycle) : BitVec 4 := if s.writeAccQ then s.sbeQ else sbeD c

def swr (s : State) (c : Cycle) : Bool := s.writeAccQ && c.htrans != .busy

def srd (c : Cycle) : Bool := hselValid c && c.htrans != .busy && !c.hwrite

def hreadyout (s : State) (c : Cycle) : Bool := !(s.writeAccQ && hselValid c && !c.hwrite)

def hrdata (s : State) : Word := s.dataOut

def step (s : State) (c : Cycle) : State where
  writeAccQ := writeAccD s c
  haddrQ := if writeAccD s c then c.haddr.truncate 16 else s.haddrQ
  sbeQ := if writeAccD s c then sbeD c else s.sbeQ
  dataOut := if srd c then c.word (adress s c) (sbe s c) else c.unread

/-- An access of the internal bus. -/
inductive Strobe where
  | read (adress : BitVec 16) (sbe : BitVec 4)
  | write (adress : BitVec 16) (sbe : BitVec 4) (dataIn : Word)
deriving DecidableEq, Repr

def strobes (s : State) (c : Cycle) : List Strobe :=
  (if swr s c then [.write (adress s c) (sbe s c) c.hwdata] else []) ++
    if srd c then [.read (adress s c) (sbe s c)] else []

/-! ## The bus -/

/-- Bytes of the word that a transfer covers. -/
def lanes (c : Cycle) : BitVec 4 :=
  BitVec.ofNat 4 ((2 ^ 2 ^ c.hsize.toNat - 1) * 2 ^ (c.haddr.toNat % 4))

/-- The slave accepts a transfer. -/
def accepted (c : Cycle) : Bool := c.hsel && c.hready && (c.htrans == .nonseq || c.htrans == .seq)

/-- The transfer of the slave in its data phase. A read has its word already. -/
inductive DataPhase where
  | none
  | read (word : Word)
  | write (adress : BitVec 16) (lanes : BitVec 4)
deriving DecidableEq, Repr

/-- The bus as a slave sees it: whether the data phase is its own, the transfer in it and
the address phase before this one. -/
structure Bus where
  own : Bool
  phase : DataPhase
  last : Option Cycle

def Bus.start : Bus := ⟨false, .none, none⟩

def nextPhase (p : DataPhase) (c : Cycle) : DataPhase :=
  if accepted c then
    if c.hwrite then .write (c.haddr.truncate 16) (lanes c)
    else .read (c.word (c.haddr.truncate 16) (lanes c))
  else if c.hready then .none
  else p

def Bus.next (b : Bus) (c : Cycle) : Bus where
  own := if c.hready then c.hsel else b.own
  phase := nextPhase b.phase c
  last := some c

/-- Strobes that the transfers ask for: a write when its data phase ends, a read in its
address phase. -/
def requested (b : Bus) (c : Cycle) : List Strobe :=
  (match b.phase with
    | .write a l => if c.hready then [.write a l c.hwdata] else []
    | _ => []) ++
    if accepted c && !c.hwrite then [.read (c.haddr.truncate 16) (lanes c)] else []

/-- A burst goes on with the same slave, direction and size. -/
def BurstRule (last : Option Cycle) (c : Cycle) : Prop :=
  c.htrans = .busy ∨ c.htrans = .seq →
    ∃ l ∈ last, l.htrans ≠ .idle ∧ l.hsel = c.hsel ∧ l.hwrite = c.hwrite ∧ l.hsize = c.hsize

/-- A transfer is kept until it is accepted. -/
def HoldRule (last : Option Cycle) (c : Cycle) : Prop :=
  ∀ l ∈ last, l.hready = false → l.htrans = .nonseq ∨ l.htrans = .seq →
    c.htrans = l.htrans ∧ c.haddr = l.haddr ∧ c.hsel = l.hsel ∧ c.hwrite = l.hwrite ∧
      c.hsize = l.hsize

/-- Transfers are aligned and at most as wide as the bus. -/
def SizeRule (c : Cycle) : Prop :=
  c.htrans ≠ .idle → c.hsize.toNat ≤ 2 ∧ c.haddr.toNat % 2 ^ c.hsize.toNat = 0

/-- AHB-Lite with this slave on it. In its own data phase HREADY is its HREADYOUT. -/
structure Compliant (p : State × Bus) (c : Cycle) : Prop where
  ready : p.2.own = true → c.hready = hreadyout p.1 c
  burst : BurstRule p.2.last c
  hold : HoldRule p.2.last c
  size : SizeRule c

instance (last : Option Cycle) (c : Cycle) : Decidable (BurstRule last c) :=
  inferInstanceAs (Decidable (_ → ∃ l ∈ last, _))

instance (last : Option Cycle) (c : Cycle) : Decidable (HoldRule last c) :=
  inferInstanceAs (Decidable (∀ l ∈ last, _))

instance (c : Cycle) : Decidable (SizeRule c) := inferInstanceAs (Decidable (_ → _))

instance (p : State × Bus) (c : Cycle) : Decidable (Compliant p c) :=
  decidable_of_iff ((p.2.own = true → c.hready = hreadyout p.1 c) ∧ BurstRule p.2.last c ∧
      HoldRule p.2.last c ∧ SizeRule c)
    ⟨fun h => ⟨h.1, h.2.1, h.2.2.1, h.2.2.2⟩, fun h => ⟨h.ready, h.burst, h.hold, h.size⟩⟩

def system (p : State × Bus) (c : Cycle) : State × Bus := (step p.1 c, p.2.next c)

/-- What the adaptor is not made for. -/
structure Served (s : State) (c : Cycle) : Prop where
  idle : ¬ (c.hsel = true ∧ c.hready = true ∧ c.htrans = .idle)
  busy : ¬ (s.writeAccQ = true ∧ c.htrans = .busy)

instance (s : State) (c : Cycle) : Decidable (Served s c) :=
  decidable_of_iff (¬ (c.hsel = true ∧ c.hready = true ∧ c.htrans = .idle) ∧
      ¬ (s.writeAccQ = true ∧ c.htrans = .busy))
    ⟨fun h => ⟨h.1, h.2⟩, fun h => ⟨h.idle, h.busy⟩⟩

/-! ## Simulation -/

/-- The adaptor has what it needs for the data phase. -/
def Follows (s : State) (b : Bus) : Prop :=
  match b.phase with
  | .none => s.writeAccQ = false
  | .read w => s.writeAccQ = false ∧ b.own = true ∧ s.dataOut = w
  | .write a l => s.writeAccQ = true ∧ b.own = true ∧ s.haddrQ = a ∧ s.sbeQ = l

theorem lowBits_eq_iff (a : BitVec 32) (k : BitVec 2) :
    a.extractLsb' 0 2 = k ↔ a.toNat % 4 = k.toNat := by
  rw [← BitVec.toNat_inj]
  simp

theorem getLsbD_one (a : BitVec 32) : a.getLsbD 1 = decide (2 ≤ a.toNat % 4) := by
  rw [BitVec.getLsbD, Nat.testBit_eq_decide_div_mod_eq]
  apply decide_eq_decide.mpr
  omega

theorem sbeD_eq_lanes {c : Cycle} (h : c.hsize.toNat ≤ 2)
    (ha : c.haddr.toNat % 2 ^ c.hsize.toNat = 0) : sbeD c = lanes c := by
  have hlt := Nat.mod_lt c.haddr.toNat (by decide : 4 > 0)
  unfold sbeD lanes
  simp only [lowBits_eq_iff, getLsbD_one]
  obtain hs | hs | hs : c.hsize = 0 ∨ c.hsize = 1 ∨ c.hsize = 2 := by
    simp only [← BitVec.toNat_inj]
    simp
    omega
  all_goals
    rw [hs] at ha ⊢
    generalize hm : c.haddr.toNat % 4 = m at hlt
    have hcases : m = 0 ∨ m = 1 ∨ m = 2 ∨ m = 3 := by omega
  · obtain rfl | rfl | rfl | rfl := hcases <;> decide
  · obtain rfl | rfl | rfl | rfl := hcases
    · decide
    · simp at ha
      omega
    · decide
    · simp at ha
      omega
  · obtain rfl : m = 0 := by
      simp at ha
      omega
    decide

section Step

variable {s : State} {b : Bus} {c : Cycle}

/-- With a write in the data phase there is no HREADY for a read. -/
theorem no_ready_for_read (hw : s.writeAccQ = true) (hsel : c.hsel = true)
    (ht : c.htrans ≠ .busy) (hr : c.hwrite = false) : c.hready ≠ hreadyout s c := by
  cases h : c.hready <;> simp [hreadyout, hselValid, hw, hsel, ht, hr, h]

theorem accepted_eq (hs : Served s c) : accepted c = hselValid c := by
  cases ht : c.htrans
  · have hidle : (c.hsel && c.hready) = false := by
      by_contra h
      have hsel := Bool.and_eq_true_iff.mp (eq_true_of_ne_false h)
      exact hs.idle ⟨hsel.1, hsel.2, ht⟩
    simp [accepted, hselValid, hidle]
  · simp [accepted, hselValid, ht]
  · simp [accepted, hselValid, ht]
  · simp [accepted, hselValid, ht]

theorem sbeD_of_accepted (hc : Compliant (s, b) c) (ha : accepted c = true) :
    sbeD c = lanes c := by
  have ht : c.htrans ≠ .idle := by
    intro h
    simp [accepted, h] at ha
  obtain ⟨hsize, halign⟩ := hc.size ht
  exact sbeD_eq_lanes hsize halign

/-- A slave that is waited for in the data phase of a write ends it at once. -/
theorem ready_of_write (hc : Compliant (s, b) c) (hown : b.own = true)
    (hw : s.writeAccQ = true) : c.hready = true ∧ srd c = false := by
  have hready := hc.ready hown
  cases h : c.hready
  · simp [hreadyout, hselValid, h] at hready
  · refine ⟨rfl, ?_⟩
    by_contra hread
    have hread := eq_true_of_ne_false hread
    simp only [srd, hselValid, Bool.and_eq_true, bne_iff_ne, Bool.not_eq_true'] at hread
    obtain ⟨⟨⟨⟨hsel, -⟩, hbusy⟩, -⟩, hwrite⟩ := hread
    exact no_ready_for_read hw hsel hbusy hwrite (hc.ready hown)

theorem srd_eq (hs : Served s c) : srd c = (accepted c && !c.hwrite) := by
  rw [accepted_eq hs, srd]
  cases hv : hselValid c
  · rfl
  · have : (c.htrans != .busy) = true := (Bool.and_eq_true_iff.mp hv).2
    rw [this, Bool.and_true]

/-- A write is taken over exactly if the slave accepts it. -/
theorem writeAccD_eq (hs : Served s c) : writeAccD s c = (accepted c && c.hwrite) := by
  rw [accepted_eq hs, writeAccD]
  cases hv : hselValid c && c.hwrite
  · by_cases hb : c.htrans = .busy
    · have hq : s.writeAccQ = false := by
        by_contra h
        exact hs.busy ⟨eq_true_of_ne_false h, hb⟩
      simp [hb, hq]
    · simp [hb]
  · rfl

/-- In the data phase of a write the adaptor strobes it; otherwise it strobes an accepted
read. -/
theorem strobes_eq_requested (h : Follows s b) (hc : Compliant (s, b) c) (hs : Served s c) :
    strobes s c = requested b c := by
  unfold Follows at h
  cases hp : b.phase with
  | write a l =>
    rw [hp] at h
    obtain ⟨hw, hown, rfl, rfl⟩ := h
    obtain ⟨hready, hsrd⟩ := ready_of_write hc hown hw
    have hbusy : c.htrans ≠ .busy := fun hb => hs.busy ⟨hw, hb⟩
    have hread := (srd_eq hs).symm.trans hsrd
    simp [strobes, requested, hp, hsrd, hread, swr, hw, hbusy, adress, sbe, hready]
  | none | read =>
    rw [hp] at h
    have hw : s.writeAccQ = false := by tauto
    cases hread : accepted c && !c.hwrite
    · have hsrd := (srd_eq hs).trans hread
      simp [strobes, requested, hp, hsrd, hread, swr, hw]
    · have hsrd := (srd_eq hs).trans hread
      have hlanes := sbeD_of_accepted hc (Bool.and_eq_true_iff.mp hread).1
      simp [strobes, requested, hp, hsrd, hread, swr, hw, adress, sbe, hlanes]

theorem own_of_write (h : Follows s b) (hw : s.writeAccQ = true) : b.own = true := by
  unfold Follows at h
  cases hb : b.phase with
  | none =>
    rw [hb, hw] at h
    cases h
  | read w =>
    rw [hb, hw] at h
    cases h.1
  | write a l =>
    rw [hb] at h
    exact h.2.1

/-- A data phase of the slave lasts one cycle. -/
theorem ready_of_phase (h : Follows s b) (hc : Compliant (s, b) c) (hp : b.phase ≠ .none) :
    c.hready = true := by
  unfold Follows at h
  cases hb : b.phase with
  | none => exact absurd hb hp
  | read w =>
    rw [hb] at h
    obtain ⟨hw, hown, -⟩ := h
    rw [hc.ready hown]
    simp [hreadyout, hw]
  | write a l =>
    rw [hb] at h
    obtain ⟨hw, hown, -⟩ := h
    exact (ready_of_write hc hown hw).1

/-- After the cycle the adaptor has what it needs for the next data phase. -/
theorem follows_step (h : Follows s b) (hc : Compliant (s, b) c) (hs : Served s c) :
    Follows (step s c) (b.next c) := by
  have hwacc := writeAccD_eq hs
  have hread := srd_eq hs
  cases ha : accepted c
  · rw [ha, Bool.false_and] at hwacc
    have hphase : (b.next c).phase = .none := by
      by_cases hp : b.phase = .none
      · simp [Bus.next, nextPhase, ha, hp]
      · simp [Bus.next, nextPhase, ha, ready_of_phase h hc hp]
    simp only [Follows, hphase]
    exact hwacc
  · rw [ha, Bool.true_and] at hwacc hread
    have hv := (accepted_eq hs).symm.trans ha
    simp only [hselValid, Bool.and_eq_true] at hv
    have hlanes := sbeD_of_accepted hc ha
    cases hwr : c.hwrite
    · rw [hwr] at hwacc hread
      have hw : s.writeAccQ = false := by
        by_contra hq
        have hq := eq_true_of_ne_false hq
        have hsrd := (ready_of_write hc (own_of_write h hq) hq).2
        rw [hread] at hsrd
        cases hsrd
      simp [Follows, Bus.next, nextPhase, ha, hwr, step, hwacc, hread, hv.1.1, hv.1.2, adress,
        sbe, hw, hlanes]
    · rw [hwr] at hwacc
      simp [Follows, Bus.next, nextPhase, ha, hwr, step, hwacc, hv.1.1, hv.1.2, hlanes]

end Step

/-- In every compliant sequence of cycles that the adaptor is made for, its strobes are those
the transfers ask for, in their order, and every read returns the word of its address. -/
theorem transfers_strobed (cs : List Cycle)
    (h : Admits system (fun p c => Compliant p c ∧ Served p.1 c) (reset, Bus.start) cs) :
    (trace step strobes reset cs).flatten = (trace Bus.next requested Bus.start cs).flatten ∧
      ∀ w, (run Bus.next Bus.start cs).phase = .read w → hrdata (run step reset cs) = w := by
  have hsim : ∀ s b c, Follows s b → Compliant (s, b) c ∧ Served s c →
      strobes s c = requested b c ∧ Follows (step s c) (b.next c) := by
    intro s b c hf hc
    exact ⟨strobes_eq_requested hf hc.1 hc.2, follows_step hf hc.1 hc.2⟩
  obtain ⟨hlog, hend⟩ := trace_simulation (fun p c => Compliant p c ∧ Served p.1 c) Follows hsim
    (show Follows reset Bus.start from rfl) cs h
  refine ⟨congrArg List.flatten hlog, ?_⟩
  intro w hw
  unfold Follows at hend
  rw [hw] at hend
  exact hend.2.2

/-! ### Single cycles -/

/-- A cycle of the master for this slave, with registers that return the address. -/
def cycle (t : Transfer) (wr : Bool) (a : BitVec 32) (data : Word) : Cycle where
  haddr := a
  hwdata := data
  hsel := true
  hwrite := wr
  hsize := 2
  htrans := t
  hready := true
  word := fun a _ => a.zeroExtend 32
  unread := 0

/-- A cycle in which the master has nothing for this slave. -/
def elsewhere (data : Word) : Cycle := { cycle .idle false 0 data with hsel := false }

theorem transfers_strobed_burst :
    let cs := [cycle .nonseq true 0x100 0, elsewhere 7, cycle .nonseq false 0x60 0,
      cycle .seq false 0x64 0]
    (trace step strobes reset cs).flatten = [.write 0x100 15 7, .read 0x60 15, .read 0x64 15] ∧
      hrdata (run step reset cs) = 0x64 := by
  have h := transfers_strobed [cycle .nonseq true 0x100 0, elsewhere 7,
    cycle .nonseq false 0x60 0, cycle .seq false 0x64 0] (by decide)
  exact ⟨h.1, h.2 0x64 (by decide)⟩

/-- A write burst with a pause before its second beat. -/
def pausedBurst : List Cycle :=
  [cycle .nonseq true 0x100 0, cycle .busy true 0x104 0x11, cycle .seq true 0x104 0x33,
    elsewhere 0x22]

/-- IDLE reads, BUSY makes a write go to the next address with other data, and after a write
there is no HREADY with which a read could be compliant. -/
theorem transfers_misread :
    (Admits system Compliant (reset, Bus.start) [cycle .idle false 0x6C 0] ∧
      (trace step strobes reset [cycle .idle false 0x6C 0]).flatten = [.read 0x6C 15] ∧
      (trace Bus.next requested Bus.start [cycle .idle false 0x6C 0]).flatten = []) ∧
    (Admits system Compliant (reset, Bus.start) pausedBurst ∧
      (trace step strobes reset pausedBurst).flatten =
        [.write 0x104 15 0x33, .write 0x104 15 0x22] ∧
      (trace Bus.next requested Bus.start pausedBurst).flatten =
        [.write 0x100 15 0x11, .write 0x104 15 0x22]) ∧
    ∀ ready, ¬ Compliant (run system (reset, Bus.start) [cycle .nonseq true 0x100 0])
      { cycle .nonseq false 0x60 0 with hready := ready } := by
  decide

end Ahb
