import CtuCanFd.FrameFilters

/-!
# Acceptance filters set by the driver

`ctucan_hw_set_mask_filter` of the register level driver: it converts an identifier and a
mask to the layout of the identifier word, enables one bit filter for all frame types
and writes its mask and value registers.
-/

namespace Driver

open FrameFilters (Registers FilterControl)

/-! ## Registers -/

/-- A register word, lowest bit first. -/
def bitsLE : List Bool → BitVec 32
  | [] => 0
  | b :: bs => bitsLE bs <<< 1 ||| (BitVec.ofBool b).zeroExtend 32

/-- Bits of one filter in FILTER_CONTROL. -/
def controlBits (m : FilterControl) : List Bool := [m.nb, m.ne, m.fb, m.fe]

/-- FILTER_CONTROL and FILTER_STATUS as read. -/
def readFilterControl (g : FrameFilters.Generics) (r : Registers) : BitVec 32 :=
  bitsLE (controlBits r.controlA ++ controlBits r.controlB ++ controlBits r.controlC ++
    controlBits r.controlRan ++ [g.supFiltA, g.supFiltB, g.supFiltC, g.supRange])

def controlOf (w : BitVec 32) (k : Nat) : FilterControl where
  fe := w.getLsbD (k + 3)
  fb := w.getLsbD (k + 2)
  ne := w.getLsbD (k + 1)
  nb := w.getLsbD k

/-- FILTER_STATUS is read only. -/
def writeFilterControl (w : BitVec 32) (r : Registers) : Registers :=
  { r with
    controlA := controlOf w 0
    controlB := controlOf w 4
    controlC := controlOf w 8
    controlRan := controlOf w 12 }

/-- `CTU_CAN_FD_FILTER_A` to `CTU_CAN_FD_FILTER_C`. -/
inductive BitFilter where
  | a
  | b
  | c
deriving DecidableEq, Repr

namespace BitFilter

def writeMask (w : BitVec 32) (r : Registers) : BitFilter → Registers
  | .a => { r with maskA := w.truncate 29 }
  | .b => { r with maskB := w.truncate 29 }
  | .c => { r with maskC := w.truncate 29 }

def writeVal (w : BitVec 32) (r : Registers) : BitFilter → Registers
  | .a => { r with valA := w.truncate 29 }
  | .b => { r with valB := w.truncate 29 }
  | .c => { r with valC := w.truncate 29 }

/-- Which four bits of FILTER_CONTROL and which bit of FILTER_STATUS belong to the filter. -/
def index : BitFilter → Nat
  | .a => 0
  | .b => 1
  | .c => 2

def present (g : FrameFilters.Generics) : BitFilter → Bool
  | .a => g.supFiltA
  | .b => g.supFiltB
  | .c => g.supFiltC

/-- Output of the bit filter in `frame_filters`. -/
def accepts (g : FrameFilters.Generics) (r : Registers) (f : RxFields) : BitFilter → Bool
  | .a => FrameFilters.bitFilter g.supFiltA r.maskA r.valA f.recIdent (r.controlA.enable f)
  | .b => FrameFilters.bitFilter g.supFiltB r.maskB r.valB f.recIdent (r.controlB.enable f)
  | .c => FrameFilters.bitFilter g.supFiltC r.maskC r.valC f.recIdent (r.controlC.enable f)

/-- The number of a filter in the driver; others are not known to it. -/
def ofNumber (fnum : BitVec 8) : Option BitFilter :=
  if fnum = 0 then some .a else if fnum = 1 then some .b else if fnum = 2 then some .c else none

end BitFilter

/-! ## The driver -/

def canEffFlag (id : BitVec 32) : Bool := id.getLsbD 31

def canEffMask : BitVec 32 := 0x1FFFFFFF

def canSffMask : BitVec 32 := 0x7FF

/-- `ctucan_hw_id_to_hwid`; the fields of the identifier word have 11 and 18 bits. -/
def idToHwid (id : BitVec 32) : BitVec 32 :=
  let base : BitVec 11 :=
    if canEffFlag id then ((id &&& canEffMask) >>> 18).truncate 11
    else (id &&& canSffMask).truncate 11
  let ext : BitVec 18 := if canEffFlag id then (id &&& 0x3FFFF).truncate 18 else 0
  base.zeroExtend 32 <<< 18 ||| ext.zeroExtend 32

def setBit (w : BitVec 32) (k : Nat) (v : Bool) : BitVec 32 :=
  w &&& ~~~ BitVec.twoPow 32 k ||| if v then BitVec.twoPow 32 k else 0

/-- `ctucan_hw_get_mask_filter_support`. -/
def getMaskFilterSupport (g : FrameFilters.Generics) (r : Registers) (k : BitFilter) : Bool :=
  (readFilterControl g r).getLsbD (16 + k.index)

/-- The four bits of a filter in FILTER_CONTROL. -/
def enableBits (creg : BitVec 32) (k : BitFilter) (val : Bool) : BitVec 32 :=
  let nb := setBit creg (4 * k.index) val
  let ne := setBit nb (4 * k.index + 1) val
  let fb := setBit ne (4 * k.index + 2) val
  setBit fb (4 * k.index + 3) val

/-- `ctucan_hw_set_mask_filter`. The identifier goes to the mask register and the mask to
the value register. -/
def setMaskFilter (g : FrameFilters.Generics) (fnum : BitVec 8) (enable : Bool)
    (canId canMask : BitVec 32) (r : Registers) : Bool × Registers :=
  match BitFilter.ofNumber fnum with
  | none => (false, r)
  | some k =>
    if getMaskFilterSupport g r k then
      let creg := enableBits (readFilterControl g r) k enable
      let r := writeFilterControl creg r
      let r := k.writeMask (idToHwid canId) r
      (true, k.writeVal (idToHwid canMask) r)
    else (false, r)

/-! ## What the filter accepts -/

/-- Identifier of a received frame as the network stack has it. -/
def receivedId (f : RxFields) : BitVec 32 :=
  if f.recIdentType then f.recIdent.zeroExtend 32 else (f.recIdent >>> 18).zeroExtend 32

/-- Identifier bits of a format. -/
def idMask (ext : Bool) : BitVec 32 := if ext then canEffMask else canSffMask

/-- The identifier and mask that a filter asks for. -/
def Matches (canId canMask : BitVec 32) (f : RxFields) : Prop :=
  receivedId f &&& canMask &&& idMask f.recIdentType =
    canId &&& canMask &&& idMask f.recIdentType

instance (canId canMask : BitVec 32) (f : RxFields) : Decidable (Matches canId canMask f) :=
  inferInstanceAs (Decidable (_ = _))

theorem bitsLE_getLsbD (bs : List Bool) {j : Nat} (hj : j < 32) :
    (bitsLE bs).getLsbD j = bs.getD j false := by
  induction bs generalizing j with
  | nil => simp [bitsLE]
  | cons b bs ih =>
    cases j with
    | zero => cases b <;> simp [bitsLE]
    | succ j =>
      have hj' : j < 32 := by omega
      have hnext := ih hj'
      rw [BitVec.getLsbD_eq_getElem hj'] at hnext
      simp [bitsLE, hj, hnext]

theorem setBit_getLsbD (w : BitVec 32) {k j : Nat} (v : Bool) (hj : j < 32) :
    (setBit w k v).getLsbD j = if j = k then v else w.getLsbD j := by
  by_cases h : j = k
  · subst h
    cases v <;> simp [setBit, hj]
  · cases v <;> simp [setBit, h, hj]

theorem enableBits_controlOf (creg : BitVec 32) (k : BitFilter) (val : Bool) :
    controlOf (enableBits creg k val) (4 * k.index) = ⟨val, val, val, val⟩ := by
  cases k <;> simp (disch := decide) [controlOf, enableBits, BitFilter.index, setBit_getLsbD,
    -BitVec.getLsbD_eq_getElem]

theorem getMaskFilterSupport_eq (g : FrameFilters.Generics) (r : Registers) (k : BitFilter) :
    getMaskFilterSupport g r k = k.present g := by
  unfold getMaskFilterSupport readFilterControl
  cases k <;> rw [bitsLE_getLsbD _ (by decide)] <;> rfl

/-- A filter that is enabled is enabled for every type of frame. -/
theorem enable_all (f : RxFields) : FilterControl.enable ⟨true, true, true, true⟩ f = true := by
  unfold FilterControl.enable
  cases f.recFrameType <;> cases f.recIdentType <;> rfl

section Meaning

variable {g : FrameFilters.Generics} {fnum : BitVec 8} {k : BitFilter} {canId canMask : BitVec 32}
  {r : Registers} {f : RxFields}

theorem setMaskFilter_supported (hnum : BitFilter.ofNumber fnum = some k)
    (hsup : k.present g = true) :
    (setMaskFilter g fnum true canId canMask r).1 = true ∧
      (k.accepts g (setMaskFilter g fnum true canId canMask r).2 f = true ↔
        f.recIdent &&& (idToHwid canId).truncate 29 =
          (idToHwid canMask).truncate 29 &&& (idToHwid canId).truncate 29) := by
  have hs := (getMaskFilterSupport_eq g r k).trans hsup
  have hen := enableBits_controlOf (readFilterControl g r) k true
  simp only [setMaskFilter, hnum, hs, if_true, true_and]
  cases k <;> simp only [BitFilter.present] at hsup <;>
    simp only [BitFilter.index] at hen <;>
    simp [BitFilter.accepts, BitFilter.writeMask, BitFilter.writeVal, writeFilterControl,
      FrameFilters.bitFilter, hsup, hen, enable_all]

theorem effMask_getLsbD {j : Nat} (hj : j < 29) : canEffMask.getLsbD j = true := by
  have h : ∀ j < 29, canEffMask.getLsbD j = true := by decide
  exact h j hj

theorem effMask_lt {j : Nat} (h : canEffMask.getLsbD j = true) : j < 29 := by
  by_contra hge
  by_cases hj : j < 32
  · have hzero : ∀ j < 32, 29 ≤ j → canEffMask.getLsbD j = false := by decide
    exact absurd ((hzero j hj (by omega)).symm.trans h) (by decide)
  · rw [BitVec.getLsbD_of_ge _ _ (by omega)] at h
    cases h

theorem sffMask_getLsbD (j : Nat) : canSffMask.getLsbD j = decide (j < 11) := by
  by_cases hj : j < 32
  · have h : ∀ j < 32, canSffMask.getLsbD j = decide (j < 11) := by decide
    exact h j hj
  · rw [BitVec.getLsbD_of_ge _ _ (by omega)]
    exact (decide_eq_false (by omega)).symm

/-- The identifier word holds an extended identifier as it is. -/
theorem idToHwid_ext {id : BitVec 32} (h : canEffFlag id = true) {j : Nat} (hj : j < 29) :
    (idToHwid id).getLsbD j = id.getLsbD j := by
  have hext : ∀ j < 18, (0x3FFFF#32).getLsbD j = true := by decide
  by_cases h18 : j < 18
  · simp [idToHwid, h, h18, hext j h18, (by omega : j < 32)]
  · have he := effMask_getLsbD hj
    simp [idToHwid, h, h18, (by omega : j < 32), (by omega : j - 18 < 11),
      (by omega : 18 + (j - 18) = j), he]

/-- A standard identifier is in its upper eleven bits, above zeros. -/
theorem idToHwid_base {id : BitVec 32} (h : canEffFlag id = false) {j : Nat} (hj : j < 29) :
    (idToHwid id).getLsbD j = (decide (18 ≤ j) && id.getLsbD (j - 18)) := by
  by_cases h18 : j < 18
  · simp [idToHwid, h, h18, (by omega : j < 32), decide_eq_false (by omega : ¬ 18 ≤ j)]
  · simp [idToHwid, h, h18, (by omega : j < 32), (by omega : j - 18 < 11), (by omega : 18 ≤ j),
      sffMask_getLsbD]

theorem masked_eq_iff {w : Nat} (x y m : BitVec w) :
    x &&& m = y &&& m ↔ ∀ j < w, m.getLsbD j = true → x.getLsbD j = y.getLsbD j := by
  constructor
  · intro h j hj hm
    have := congrArg (·.getLsbD j) h
    simpa [hm] using this
  · intro h
    apply BitVec.eq_of_getLsbD_eq
    intro j hj
    cases hm : m.getLsbD j
    · simp [hm]
    · simp [hm, h j hj hm]

theorem matches_iff (val mask : BitVec 32) (f : RxFields) :
    Matches val mask f ↔ ∀ j < 32, mask.getLsbD j = true → (idMask f.recIdentType).getLsbD j = true →
      (receivedId f).getLsbD j = val.getLsbD j := by
  rw [Matches, BitVec.and_assoc, BitVec.and_assoc, masked_eq_iff]
  refine forall₂_congr fun j _ => ?_
  rw [BitVec.getLsbD_and, Bool.and_eq_true, and_imp]

theorem receivedId_ext (h : f.recIdentType = true) {j : Nat} (hj : j < 29) :
    (receivedId f).getLsbD j = f.recIdent.getLsbD j := by
  simp [receivedId, h, (by omega : j < 32)]

theorem receivedId_base (h : f.recIdentType = false) {j : Nat} (hj : j < 11) :
    (receivedId f).getLsbD j = f.recIdent.getLsbD (18 + j) := by
  simp [receivedId, h, (by omega : j < 32)]
  omega

theorem truncate_getLsbD (w : BitVec 32) {j : Nat} (hj : j < 29) :
    (w.truncate 29).getLsbD j = w.getLsbD j := by
  simp [hj]

/-- The filter does what is asked for, with the identifier and the mask exchanged. -/
theorem accepts_iff_exchanged (hnum : BitFilter.ofNumber fnum = some k)
    (hsup : k.present g = true) (hid : canEffFlag canId = f.recIdentType)
    (hmask : canEffFlag canMask = f.recIdentType) :
    k.accepts g (setMaskFilter g fnum true canId canMask r).2 f = true ↔
      Matches canMask canId f := by
  rw [(setMaskFilter_supported hnum hsup).2, masked_eq_iff, matches_iff]
  cases ht : f.recIdentType <;> rw [ht] at hid hmask <;> constructor
  · intro h j _ hm hmem
    have hj : j < 11 := by simpa [idMask, sffMask_getLsbD] using hmem
    have hj' : 18 + j < 29 := by omega
    have hbit := h (18 + j) hj'
    rw [truncate_getLsbD _ hj', truncate_getLsbD _ hj', idToHwid_base hid hj',
      idToHwid_base hmask hj'] at hbit
    rw [receivedId_base ht hj]
    simpa [hm] using hbit
  · intro h j hj hm
    rw [truncate_getLsbD _ hj, idToHwid_base hid hj, Bool.and_eq_true, decide_eq_true_eq] at hm
    have hj' : j - 18 < 11 := by omega
    have hbit := h (j - 18) (by omega) hm.2 (by simp [idMask, sffMask_getLsbD, hj'])
    rw [receivedId_base ht hj', Nat.add_sub_cancel' hm.1] at hbit
    rw [truncate_getLsbD _ hj, idToHwid_base hmask hj, hbit]
    simp [hm.1]
  · intro h j _ hm hmem
    have hj : j < 29 := effMask_lt hmem
    have hbit := h j hj
    rw [truncate_getLsbD _ hj, truncate_getLsbD _ hj, idToHwid_ext hid hj,
      idToHwid_ext hmask hj] at hbit
    rw [receivedId_ext ht hj]
    exact hbit hm
  · intro h j hj hm
    rw [truncate_getLsbD _ hj, idToHwid_ext hid hj] at hm
    rw [truncate_getLsbD _ hj, idToHwid_ext hmask hj, ← receivedId_ext ht hj]
    exact h j (by omega) hm (effMask_getLsbD hj)

end Meaning

/-- A received frame with the identifier bits of a filter. -/
def frameOf (ext : Bool) (id : BitVec 32) : RxFields :=
  { RxFields.cleared with
    recIdentType := ext
    recIdent := if ext then id.truncate 29 else (id.truncate 11 : BitVec 11) ++ 0#18 }

theorem receivedId_frameOf (ext : Bool) (id : BitVec 32) {j : Nat}
    (hmem : (idMask ext).getLsbD j = true) :
    (receivedId (frameOf ext id)).getLsbD j = id.getLsbD j := by
  cases ext with
  | false =>
    have hj : j < 11 := by simpa [idMask, sffMask_getLsbD] using hmem
    rw [receivedId_base rfl hj]
    simp only [frameOf, Bool.false_eq_true, if_false, BitVec.getLsbD_append]
    simp [hj]
  | true =>
    have hj : j < 29 := effMask_lt hmem
    rw [receivedId_ext rfl hj]
    exact truncate_getLsbD id hj

/-- The filter accepts what it is asked for, for every received identifier, exactly if the
identifier and the mask have the same identifier bits. -/
theorem mask_filter_exact (g : FrameFilters.Generics) (fnum : BitVec 8) (k : BitFilter)
    (ext : Bool) (canId canMask : BitVec 32) (r : Registers)
    (hnum : BitFilter.ofNumber fnum = some k) (hsup : k.present g = true)
    (hid : canEffFlag canId = ext) (hmask : canEffFlag canMask = ext) :
    (setMaskFilter g fnum true canId canMask r).1 = true ∧
      ((∀ f : RxFields, f.recIdentType = ext →
          (k.accepts g (setMaskFilter g fnum true canId canMask r).2 f = true ↔
            Matches canId canMask f)) ↔
        canId &&& idMask ext = canMask &&& idMask ext) := by
  refine ⟨(setMaskFilter_supported (f := frameOf ext 0) hnum hsup).1, ?_⟩
  constructor
  · intro h
    have hexch : ∀ id, Matches canMask canId (frameOf ext id) ↔
        Matches canId canMask (frameOf ext id) := fun id =>
      (accepts_iff_exchanged hnum hsup hid hmask).symm.trans (h (frameOf ext id) rfl)
    -- the mask as identifier is accepted, and the identifier itself has to be
    have hin := (matches_iff canId canMask (frameOf ext canMask)).mp
      ((hexch canMask).mp ((matches_iff _ _ _).mpr fun j _ _ hmem =>
        receivedId_frameOf ext canMask hmem))
    have hout := (matches_iff canMask canId (frameOf ext canId)).mp
      ((hexch canId).mpr ((matches_iff _ _ _).mpr fun j _ _ hmem =>
        receivedId_frameOf ext canId hmem))
    rw [masked_eq_iff]
    intro j hj hmem
    have hmask' := hin j hj
    have hid' := hout j hj
    rw [receivedId_frameOf ext _ hmem] at hmask' hid'
    cases hb : canMask.getLsbD j
    · cases hc : canId.getLsbD j
      · rfl
      · rw [← hc, ← hb]
        exact hid' hc hmem
    · rw [← hb]
      exact (hmask' hb hmem).symm
  · intro hsame f hf
    subst hf
    rw [masked_eq_iff] at hsame
    rw [accepts_iff_exchanged hnum hsup hid hmask, matches_iff, matches_iff]
    refine forall₂_congr fun j hj => ?_
    constructor
    · intro h hm hmem
      have := hsame j hj hmem
      rw [this]
      exact h (this.trans hm) hmem
    · intro h hm hmem
      have := hsame j hj hmem
      rw [← this]
      exact h (this.symm.trans hm) hmem

/-! ### A filter for one identifier -/

def allFilters : FrameFilters.Generics := ⟨true, true, true, true⟩

/-- Registers after reset. -/
def noFilter : Registers where
  mrModeAfm := true
  mrSettingsFdrf := false
  controlA := ⟨false, false, false, false⟩
  maskA := 0
  valA := 0
  controlB := ⟨false, false, false, false⟩
  maskB := 0
  valB := 0
  controlC := ⟨false, false, false, false⟩
  maskC := 0
  valC := 0
  controlRan := ⟨false, false, false, false⟩
  ranHigh := 0
  ranLow := 0

/-- A standard frame with an identifier. -/
def standardFrame (id : BitVec 11) : RxFields := { RxFields.cleared with recIdent := id ++ 0#18 }

theorem mask_filter_exact_ones :
    let r := (setMaskFilter allFilters 1 true 0x123 0x123 noFilter).2
    (BitFilter.b.accepts allFilters r (standardFrame 0x7FF) = true ↔
        Matches 0x123 0x123 (standardFrame 0x7FF)) ∧
      Matches 0x123 0x123 (standardFrame 0x7FF) :=
  ⟨(mask_filter_exact allFilters 1 .b false 0x123 0x123 noFilter (by decide) (by decide)
    (by decide) (by decide)).2.mpr (by decide) (standardFrame 0x7FF) rfl, by decide⟩

/-- A filter for identifier 0x123 alone accepts 0x7FF, too. -/
theorem mask_filter_exchanged :
    let r := (setMaskFilter allFilters 0 true 0x123 0x7FF noFilter).2
    BitFilter.a.accepts allFilters r (standardFrame 0x7FF) = true ∧
      ¬ Matches 0x123 0x7FF (standardFrame 0x7FF) := by
  decide

end Driver
