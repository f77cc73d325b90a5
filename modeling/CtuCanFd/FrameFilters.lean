import CtuCanFd.Core.Blocks

/-!
# Frame filters

`frame_filters`: three bit filters and a range filter decide on the identifier
held by the RX shift register. The decision is registered and gates the four
commands on their way to the RX buffer.
-/

namespace FrameFilters

structure Generics where
  supFiltA : Bool
  supFiltB : Bool
  supFiltC : Bool
  supRange : Bool
deriving DecidableEq, Repr

/-- Frame types one filter accepts, from FILTER_CONTROL. -/
structure FilterControl where
  fe : Bool
  fb : Bool
  ne : Bool
  nb : Bool
deriving DecidableEq, Repr

/-- Registers of the memory map the filters read. -/
structure Registers where
  mrModeAfm : Bool
  mrSettingsFdrf : Bool
  controlA : FilterControl
  maskA : BitVec 29
  valA : BitVec 29
  controlB : FilterControl
  maskB : BitVec 29
  valB : BitVec 29
  controlC : FilterControl
  maskC : BitVec 29
  valC : BitVec 29
  controlRan : FilterControl
  ranHigh : BitVec 29
  ranLow : BitVec 29
deriving DecidableEq, Repr

def FilterControl.enable (m : FilterControl) (f : RxFields) : Bool :=
  match f.recFrameType, f.recIdentType with
  | false, false => m.nb
  | false, true => m.ne
  | true, false => m.fb
  | true, true => m.fe

/-- `bit_filter`. -/
def bitFilter (present : Bool) (mask value ident : BitVec 29) (enable : Bool) : Bool :=
  present && (ident &&& mask == value &&& mask) && enable

/-- `range_filter`. -/
def rangeFilter (present : Bool) (upp low ident : BitVec 29) (enable : Bool) : Bool :=
  present && decide (ident.toNat ≤ upp.toNat) && decide (low.toNat ≤ ident.toNat) && enable

def dropRtrFrame (r : Registers) (f : RxFields) : Bool := r.mrSettingsFdrf && f.recIsRtr

def filterResult (g : Generics) (r : Registers) (f : RxFields) : Bool :=
  !dropRtrFrame r f &&
    (bitFilter g.supFiltA r.maskA r.valA f.recIdent (r.controlA.enable f) ||
      bitFilter g.supFiltB r.maskB r.valB f.recIdent (r.controlB.enable f) ||
      bitFilter g.supFiltC r.maskC r.valC f.recIdent (r.controlC.enable f) ||
      rangeFilter g.supRange r.ranHigh r.ranLow f.recIdent (r.controlRan.enable f))

/-- `ident_valid_d`; without any filter in the design every frame passes. -/
def identValidD (g : Generics) (r : Registers) (f : RxFields) : Bool :=
  if g.supFiltA || g.supFiltB || g.supFiltC || g.supRange then
    if r.mrModeAfm then filterResult g r f else true
  else true

end FrameFilters
