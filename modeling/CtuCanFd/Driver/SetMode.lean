import CtuCanFd.Lib.RegisterField

/-!
# Control modes set by the driver

`ctucan_hw_set_mode` reads, changes and writes MODE and SETTINGS, one word of the register
map, and sets or clears interrupt enables. The arguments of its call of `ctucan_hw_int_ena`
are exchanged, and the value is taken from the flag of one-shot mode, so that the interrupt
for bus errors is enabled with one-shot mode and never disabled.
-/

namespace Driver

/-! ## Registers -/

/-- Bits of MODE and SETTINGS that hold a value; RST and the reserved bits read as zero. -/
def modeStored : BitVec 32 := 0x0FFF1FFE

/-- Registers that `ctucan_hw_set_mode` writes. -/
structure ModeRegs where
  /-- MODE and SETTINGS. -/
  mode : BitVec 32
  stored : mode &&& modeStored = mode
  /-- The interrupts enabled. -/
  intEna : BitVec 12
deriving DecidableEq

namespace ModeRegs

/-- State after reset: FDE, RXBAM and TBFBO are set. -/
def reset : ModeRegs := ⟨0x02000210, by decide, 0⟩

def readMode (r : ModeRegs) : BitVec 32 := r.mode

/-- Writing RST resets the registers. -/
def writeMode (r : ModeRegs) (w : BitVec 32) : ModeRegs :=
  if w.getLsbD 0 then reset
  else { r with
    mode := w &&& modeStored
    stored := by rw [BitVec.and_assoc, BitVec.and_self] }

/-- INT_ENA_SET. -/
def writeIntEnaSet (r : ModeRegs) (w : BitVec 32) : ModeRegs :=
  { r with intEna := r.intEna ||| w.truncate 12 }

/-- INT_ENA_CLR. -/
def writeIntEnaClr (r : ModeRegs) (w : BitVec 32) : ModeRegs :=
  { r with intEna := r.intEna &&& ~~~w.truncate 12 }

/-- A word without RST and reserved bits is stored as it is written. -/
theorem writeMode_mode {r : ModeRegs} {w : BitVec 32} (h : w &&& modeStored = w) :
    (r.writeMode w).mode = w ∧ (r.writeMode w).intEna = r.intEna := by
  have hrst : w.getLsbD 0 = false := by
    rw [← h, BitVec.getLsbD_and]
    simp [modeStored]
  rw [writeMode, if_neg (by rw [hrst]; exact Bool.false_ne_true)]
  exact ⟨h, rfl⟩

end ModeRegs

/-! Fields of MODE and SETTINGS. -/

def bmm : RegisterField := ⟨1, 1⟩

def stm : RegisterField := ⟨2, 1⟩

def fde : RegisterField := ⟨4, 1⟩

def rtrle : RegisterField := ⟨16, 1⟩

def rtrth : RegisterField := ⟨17, 4⟩

def ilbp : RegisterField := ⟨21, 1⟩

def nisofd : RegisterField := ⟨23, 1⟩

/-- Bus error interrupt among the interrupts. -/
def bei : RegisterField := ⟨6, 1⟩

/-! ## Control modes -/

/-- `struct can_ctrlmode`. -/
structure CtrlMode where
  mask : BitVec 32
  flags : BitVec 32
deriving DecidableEq, Repr

/-! `CAN_CTRLMODE_*`. -/

def ctrlmodeLoopback : BitVec 32 := 0x01

def ctrlmodeListenonly : BitVec 32 := 0x02

def ctrlmodeOneShot : BitVec 32 := 0x08

def ctrlmodeBerrReporting : BitVec 32 := 0x10

def ctrlmodeFd : BitVec 32 := 0x20

def ctrlmodePresumeAck : BitVec 32 := 0x40

def ctrlmodeFdNonIso : BitVec 32 := 0x80

namespace CtrlMode

def selects (m : CtrlMode) (flag : BitVec 32) : Bool := m.mask &&& flag != 0

def on (m : CtrlMode) (flag : BitVec 32) : Bool := m.flags &&& flag != 0

/-- The field of one mode gets its flag if the mode is in the mask. -/
def assign (m : CtrlMode) (flag : BitVec 32) (f : RegisterField) (reg : BitVec 32) : BitVec 32 :=
  if m.selects flag then f.insert (if m.on flag then 1 else 0) reg else reg

end CtrlMode

/-- What `ctucan_hw_set_mode_reg` makes of MODE and SETTINGS. -/
def modeWord (m : CtrlMode) (reg : BitVec 32) : BitVec 32 :=
  let reg := m.assign ctrlmodeLoopback ilbp reg
  let reg := m.assign ctrlmodeListenonly bmm reg
  let reg := m.assign ctrlmodeFd fde reg
  let reg := m.assign ctrlmodePresumeAck stm reg
  m.assign ctrlmodeFdNonIso nisofd reg

/-- `ctucan_hw_set_mode_reg`. -/
def setModeReg (m : CtrlMode) (r : ModeRegs) : ModeRegs := r.writeMode (modeWord m r.readMode)

/-- `CTU_CAN_FD_RETR_MAX`. -/
def retrMax : BitVec 8 := 15

/-- `ctucan_hw_set_ret_limit`, with the value it returns. -/
def setRetLimit (enable : Bool) (limit : BitVec 8) (r : ModeRegs) : Bool × ModeRegs :=
  if retrMax < limit then (false, r)
  else
    let reg := rtrle.insert (if enable then 1 else 0) r.readMode
    let reg := rtrth.insert (limit.zeroExtend 32 &&& 0xF) reg
    (true, r.writeMode reg)

/-- `ctucan_hw_int_ena`. -/
def intEna (mask val : BitVec 32) (r : ModeRegs) : ModeRegs :=
  (r.writeIntEnaSet (mask &&& val)).writeIntEnaClr (mask &&& ~~~val)

/-- `ctucan_hw_set_mode`. -/
def setMode (m : CtrlMode) (r : ModeRegs) : ModeRegs :=
  let r := setModeReg m r
  let r :=
    if m.selects ctrlmodeOneShot then (setRetLimit (m.on ctrlmodeOneShot) 0 r).2 else r
  if m.selects ctrlmodeBerrReporting then
    let ena := bei.insert (if m.on ctrlmodeOneShot then 1 else 0) 0
    let mask := bei.insert 1 0
    intEna ena mask r
  else r

/-! ## What is asked for -/

/-- The modes that are bits of MODE and SETTINGS. -/
def modeBits : List (BitVec 32 × RegisterField) :=
  [(ctrlmodeLoopback, ilbp), (ctrlmodeListenonly, bmm), (ctrlmodeFd, fde),
    (ctrlmodePresumeAck, stm), (ctrlmodeFdNonIso, nisofd), (ctrlmodeOneShot, rtrle)]

/-- Each mode in the mask has the value of its flag, one-shot mode with a limit of no
retransmission, and nothing else is changed. -/
structure SetAsAsked (m : CtrlMode) (r r' : ModeRegs) : Prop where
  selected : ∀ b ∈ modeBits, m.selects b.1 = true → r'.mode.getLsbD b.2.low = m.on b.1
  limit : m.selects ctrlmodeOneShot = true → r'.mode.extractLsb' rtrth.low rtrth.width = 0
  others : ∀ k < 32, (∀ b ∈ modeBits, m.selects b.1 = true → k ≠ b.2.low) →
    (m.selects ctrlmodeOneShot = true → ¬ (rtrth.low ≤ k ∧ k < rtrth.low + rtrth.width)) →
    r'.mode.getLsbD k = r.mode.getLsbD k
  busError : m.selects ctrlmodeBerrReporting = true →
    r'.intEna.getLsbD bei.low = m.on ctrlmodeBerrReporting
  otherInts : ∀ k < 12, (m.selects ctrlmodeBerrReporting = true → k ≠ bei.low) →
    r'.intEna.getLsbD k = r.intEna.getLsbD k

/-! ## The word written -/

section Word

variable {m : CtrlMode} {r : ModeRegs} {reg : BitVec 32} {f : RegisterField}

theorem insert_stored (hf : f.mask &&& modeStored = f.mask) (h : reg &&& modeStored = reg)
    (v : BitVec 32) : f.insert v reg &&& modeStored = f.insert v reg := by
  rw [RegisterField.insert, RegisterField.prep, BitVec.and_comm, BitVec.and_or_distrib_left]
  congr 1
  · rw [← BitVec.and_assoc, BitVec.and_comm modeStored, h]
  · rw [BitVec.and_comm, BitVec.and_assoc, hf]

theorem CtrlMode.assign_stored (hf : f.mask &&& modeStored = f.mask)
    (h : reg &&& modeStored = reg) (flag : BitVec 32) :
    m.assign flag f reg &&& modeStored = m.assign flag f reg := by
  rw [assign]
  split
  · exact insert_stored hf h _
  · exact h

theorem modeWord_stored (h : reg &&& modeStored = reg) :
    modeWord m reg &&& modeStored = modeWord m reg := by
  refine CtrlMode.assign_stored (by decide) ?_ _
  refine CtrlMode.assign_stored (by decide) ?_ _
  refine CtrlMode.assign_stored (by decide) ?_ _
  refine CtrlMode.assign_stored (by decide) ?_ _
  exact CtrlMode.assign_stored (by decide) h _

theorem setModeReg_eq : (setModeReg m r).mode = modeWord m r.mode ∧
    (setModeReg m r).intEna = r.intEna :=
  ModeRegs.writeMode_mode (modeWord_stored r.stored)

/-- The limit with a threshold of zero. -/
def retLimitWord (enable : Bool) (reg : BitVec 32) : BitVec 32 :=
  rtrth.insert 0 (rtrle.insert (if enable then 1 else 0) reg)

theorem setRetLimit_eq (enable : Bool) :
    (setRetLimit enable 0 r).2.mode = retLimitWord enable r.mode ∧
      (setRetLimit enable 0 r).2.intEna = r.intEna :=
  ModeRegs.writeMode_mode (insert_stored (by decide) (insert_stored (by decide) r.stored _) _)

/-- Only the interrupt for bus errors is set, with one-shot mode; nothing is cleared. -/
theorem intEna_exchanged (on : Bool) :
    intEna (bei.insert (if on then 1 else 0) 0) (bei.insert 1 0) r =
      { r with intEna := r.intEna ||| if on then 0x40 else 0 } := by
  have hset : ((bei.insert (if on then 1 else 0) 0 &&& bei.insert 1 0).truncate 12 : BitVec 12) =
      if on then 0x40 else 0 := by
    cases on <;> decide
  have hclr : ~~~((bei.insert (if on then 1 else 0) 0 &&& ~~~bei.insert 1 0).truncate 12 :
      BitVec 12) = BitVec.allOnes 12 := by
    cases on <;> decide
  simp only [intEna, ModeRegs.writeIntEnaSet, ModeRegs.writeIntEnaClr, hset, hclr,
    BitVec.and_allOnes]

theorem setMode_mode : (setMode m r).mode =
    if m.selects ctrlmodeOneShot then retLimitWord (m.on ctrlmodeOneShot) (modeWord m r.mode)
    else modeWord m r.mode := by
  simp only [setMode, intEna_exchanged]
  split <;> split <;> simp only [setRetLimit_eq, setModeReg_eq]

theorem setMode_intEna : (setMode m r).intEna =
    if m.selects ctrlmodeBerrReporting then
      r.intEna ||| if m.on ctrlmodeOneShot then 0x40 else 0
    else r.intEna := by
  simp only [setMode, intEna_exchanged]
  split <;> split <;> simp only [setRetLimit_eq, setModeReg_eq]

theorem CtrlMode.assign_getLsbD (flag : BitVec 32) {b k : Nat} (hk : k < 32) :
    (m.assign flag ⟨b, 1⟩ reg).getLsbD k =
      if m.selects flag = true ∧ k = b then m.on flag else reg.getLsbD k := by
  rw [assign]
  by_cases hs : m.selects flag = true
  · rw [if_pos hs, RegisterField.insert_getLsbD _ _ hk]
    by_cases hb : k = b
    · subst hb
      cases m.on flag <;> simp [hs]
    · rw [if_neg (by simp only; omega), if_neg (fun h => hb h.2)]
  · rw [if_neg hs, if_neg (fun h => hs h.1)]

/-- The fields of the modes are apart, so that the order of the assignments does not matter. -/
theorem modeWord_getLsbD {k : Nat} (hk : k < 32) :
    (modeWord m reg).getLsbD k =
      if m.selects ctrlmodeFdNonIso = true ∧ k = 23 then m.on ctrlmodeFdNonIso
      else if m.selects ctrlmodePresumeAck = true ∧ k = 2 then m.on ctrlmodePresumeAck
      else if m.selects ctrlmodeFd = true ∧ k = 4 then m.on ctrlmodeFd
      else if m.selects ctrlmodeListenonly = true ∧ k = 1 then m.on ctrlmodeListenonly
      else if m.selects ctrlmodeLoopback = true ∧ k = 21 then m.on ctrlmodeLoopback
      else reg.getLsbD k := by
  simp only [modeWord, nisofd, stm, fde, bmm, ilbp, CtrlMode.assign_getLsbD _ hk]

theorem retLimitWord_getLsbD (enable : Bool) {k : Nat} (hk : k < 32) :
    (retLimitWord enable reg).getLsbD k =
      if 17 ≤ k ∧ k < 21 then false else if k = 16 then enable else reg.getLsbD k := by
  rw [retLimitWord, RegisterField.insert_getLsbD _ _ hk, RegisterField.insert_getLsbD _ _ hk]
  simp only [rtrth, rtrle]
  by_cases h16 : k = 16
  · subst h16
    cases enable <;> simp
  · simp [h16, show ¬ (16 ≤ k ∧ k < 16 + 1) by omega]

theorem setMode_getLsbD {k : Nat} (hk : k < 32) :
    (setMode m r).mode.getLsbD k =
      if m.selects ctrlmodeOneShot = true ∧ 17 ≤ k ∧ k < 21 then false
      else if m.selects ctrlmodeOneShot = true ∧ k = 16 then m.on ctrlmodeOneShot
      else (modeWord m r.mode).getLsbD k := by
  rw [setMode_mode]
  by_cases hs : m.selects ctrlmodeOneShot = true
  · rw [if_pos hs, retLimitWord_getLsbD _ hk]
    simp only [hs, true_and]
  · rw [if_neg hs, if_neg (fun h => hs h.1), if_neg (fun h => hs h.1)]

end Word

/-! ## Everything but the interrupt for bus errors -/

section Exact

variable {m : CtrlMode} {r : ModeRegs}

theorem setMode_selected : ∀ b ∈ modeBits, m.selects b.1 = true →
    (setMode m r).mode.getLsbD b.2.low = m.on b.1 := by
  intro b hb hs
  simp only [modeBits, List.mem_cons, List.not_mem_nil, or_false] at hb
  rcases hb with rfl | rfl | rfl | rfl | rfl | rfl <;>
    rw [setMode_getLsbD (by decide), modeWord_getLsbD (by decide)] <;>
    simp only [ilbp, bmm, fde, stm, nisofd, rtrle] at hs ⊢ <;> simp [hs]

theorem setMode_limit (hs : m.selects ctrlmodeOneShot = true) :
    (setMode m r).mode.extractLsb' rtrth.low rtrth.width = 0 := by
  apply BitVec.eq_of_getLsbD_eq
  intro j hj
  have hj' : j < 4 := hj
  rw [BitVec.getLsbD_extractLsb', setMode_getLsbD (by simp only [rtrth]; omega),
    if_pos ⟨hs, by simp only [rtrth]; omega⟩]
  simp

theorem setMode_others {k : Nat} (hk : k < 32)
    (hbits : ∀ b ∈ modeBits, m.selects b.1 = true → k ≠ b.2.low)
    (hth : m.selects ctrlmodeOneShot = true →
      ¬ (rtrth.low ≤ k ∧ k < rtrth.low + rtrth.width)) :
    (setMode m r).mode.getLsbD k = r.mode.getLsbD k := by
  simp only [modeBits, List.forall_mem_cons, ilbp, bmm, fde, stm, nisofd, rtrle] at hbits
  obtain ⟨hilbp, hbmm, hfde, hstm, hnisofd, hrtrle, -⟩ := hbits
  rw [setMode_getLsbD hk, if_neg (fun h => hth h.1 h.2), if_neg (fun h => hrtrle h.1 h.2),
    modeWord_getLsbD hk, if_neg (fun h => hnisofd h.1 h.2), if_neg (fun h => hstm h.1 h.2),
    if_neg (fun h => hfde h.1 h.2), if_neg (fun h => hbmm h.1 h.2),
    if_neg (fun h => hilbp h.1 h.2)]

theorem setMode_otherInts {k : Nat} (hk : m.selects ctrlmodeBerrReporting = true → k ≠ bei.low) :
    (setMode m r).intEna.getLsbD k = r.intEna.getLsbD k := by
  rw [setMode_intEna]
  split
  · next hs =>
    have hbit : (0x40#12).getLsbD k = false := by
      rw [show (0x40#12) = BitVec.twoPow 12 6 by rfl, BitVec.getLsbD_twoPow]
      simp [show ¬ (6 = k) from fun h => hk hs h.symm]
    split <;> simp [hbit]
  · rfl

theorem setMode_busError (hs : m.selects ctrlmodeBerrReporting = true) :
    (setMode m r).intEna.getLsbD bei.low =
      (r.intEna.getLsbD bei.low || m.on ctrlmodeOneShot) := by
  rw [setMode_intEna, if_pos hs, BitVec.getLsbD_or]
  cases m.on ctrlmodeOneShot <;> rfl

/-- The call does what is asked for exactly if the flag for bus error reporting is what the call
makes of the interrupt enable. -/
theorem setMode_asAsked (m : CtrlMode) (r : ModeRegs) :
    SetAsAsked m r (setMode m r) ↔
      (m.selects ctrlmodeBerrReporting = true →
        m.on ctrlmodeBerrReporting = (r.intEna.getLsbD bei.low || m.on ctrlmodeOneShot)) := by
  constructor
  · intro h hs
    exact (h.busError hs).symm.trans (setMode_busError hs)
  · intro h
    exact
      { selected := setMode_selected
        limit := setMode_limit
        others := fun k hk hbits hth => setMode_others hk hbits hth
        busError := fun hs => (setMode_busError hs).trans (h hs).symm
        otherInts := fun k _ hk => setMode_otherInts hk }

/-- Loopback and CAN FD, and one-shot mode with bus error reporting. -/
theorem setMode_asAsked_oneShot :
    SetAsAsked ⟨0x39, 0x39⟩ .reset (setMode ⟨0x39, 0x39⟩ .reset) :=
  (setMode_asAsked _ _).mpr fun _ => by decide

/-- Bus error reporting alone leaves the interrupt for bus errors off. -/
theorem berrReporting_not_enabled :
    let m : CtrlMode := ⟨ctrlmodeBerrReporting, ctrlmodeBerrReporting⟩
    m.selects ctrlmodeBerrReporting = true ∧ m.on ctrlmodeBerrReporting = true ∧
      (setMode m .reset).intEna.getLsbD bei.low = false ∧
      ¬ SetAsAsked m .reset (setMode m .reset) := by
  refine ⟨by decide, by decide, by decide, fun h => ?_⟩
  have hbei := h.busError (by decide)
  revert hbei
  decide

end Exact

end Driver
