import CtuCanFd.Core.ProtocolControl
import CtuCanFd.Lib.SyncMachine
import Mathlib.Algebra.Group.Nat.Defs

/-!
# Prescaler

The blocks of `prescaler` with the widths of `can_config_pkg`. The nominal and
the data bit time have a segment meter, time quanta and segment counters and a
captured end request each; both are instances of the same entities, so one
definition serves both. Numbers are naturals, `unsigned` arithmetic is reduced
by its width where the source may overflow.
-/

open ProtocolControl (SpControl)

/-- The bit time in use. -/
inductive BitRate where
  | nominal
  | data
deriving DecidableEq, Repr

/-- A subtraction of `w` bit `unsigned` values. -/
def unsignedSub (w a b : Nat) : Nat := (a + (2 ^ w - b % 2 ^ w)) % 2 ^ w

theorem unsignedSub_of_le {w a b : Nat} (hb : b ≤ a) (ha : a < 2 ^ w) :
    unsignedSub w a b = a - b := by
  have hp : 0 < 2 ^ w := Nat.two_pow_pos w
  rw [unsignedSub, Nat.mod_eq_of_lt (a := b) (by omega),
    show a + (2 ^ w - b) = a - b + 2 ^ w by omega, Nat.add_mod_right,
    Nat.mod_eq_of_lt (by omega)]

/-! ## Bit segment meter -/

/-- Generics of `bit_segment_meter`. -/
structure Widths where
  sjw : Nat
  tseg1 : Nat
  tseg2 : Nat
  bt : Nat

namespace Widths

variable (w : Widths)

def bs : Nat := max w.tseg1 w.tseg2

def ext : Nat := max w.bt w.sjw

def exp : Nat := max w.bs w.ext + 1

def e : Nat := max w.bt w.tseg2

def eSjw : Nat := max w.e w.sjw

end Widths

namespace BitSegmentMeter

structure Input where
  resyncEdgeValid : Bool
  isTseg1 : Bool
  isTseg2 : Bool
  tseg1 : Nat
  tseg2 : Nat
  sjw : Nat
  segmCounter : Nat
  startEdge : Bool

section

variable (w : Widths) (q : Nat) (i : Input) (segmEnd hSyncValid : Bool)

def negPhaseErr : Nat := unsignedSub w.e i.tseg2 i.segmCounter

def phaseErr : Nat := if i.isTseg2 then negPhaseErr w i else i.segmCounter

def phaseErrMtSjw : Bool := decide (i.sjw < phaseErr w i)

def phaseErrSjwByOne : Bool := phaseErr w i == (i.sjw + 1) % 2 ^ w.eSjw

def exitPh2Immediate : Bool :=
  (!phaseErrMtSjw w i || phaseErrSjwByOne w i) && i.isTseg2 && i.resyncEdgeValid

def shortenTseg1AfterTseg2 : Bool := exitPh2Immediate w i && !phaseErrSjwByOne w i

/-- `q` is the expected segment length register. -/
def exitSegmRegular : Bool := decide (unsignedSub w.exp q 1 ≤ i.segmCounter)

def exitSegmRegularTseg1 : Bool :=
  if i.isTseg1 && i.resyncEdgeValid && decide (0 < i.sjw) then false
  else i.isTseg1 && exitSegmRegular w q i

def exitSegmRegularTseg2 : Bool := i.isTseg2 && exitSegmRegular w q i

def exitSegmReq : Bool :=
  exitPh2Immediate w i || (exitSegmRegularTseg1 w q i || exitSegmRegularTseg2 w q i)

def selTseg1 : Bool :=
  (hSyncValid || i.startEdge || shortenTseg1AfterTseg2 w i) ||
    (segmEnd && i.isTseg2) || (!segmEnd && i.isTseg1)

def basicSegmLength : Nat := if selTseg1 w i segmEnd hSyncValid then i.tseg1 else i.tseg2

def segmExtension : Nat :=
  if hSyncValid || shortenTseg1AfterTseg2 w i then 1
  else if phaseErrMtSjw w i then i.sjw
  else i.segmCounter

/-- The synchronised length is the difference, not the sum. -/
def selSub : Bool := i.isTseg2 || hSyncValid || exitPh2Immediate w i

def syncSegmLength : Nat :=
  if selSub w i hSyncValid then
    unsignedSub w.exp (basicSegmLength w i segmEnd hSyncValid) (segmExtension w i hSyncValid)
  else (basicSegmLength w i segmEnd hSyncValid + segmExtension w i hSyncValid) % 2 ^ w.exp

def useBasicSegmLength : Bool :=
  i.startEdge || (segmEnd && !hSyncValid && !shortenTseg1AfterTseg2 w i)

def expSegLengthD : Nat :=
  if useBasicSegmLength w i segmEnd hSyncValid then basicSegmLength w i segmEnd hSyncValid
  else syncSegmLength w i segmEnd hSyncValid

def expSegLengthCe : Bool := segmEnd || i.resyncEdgeValid || hSyncValid || i.startEdge

def step : Nat :=
  if expSegLengthCe i segmEnd hSyncValid then expSegLengthD w i segmEnd hSyncValid else q

end

/-- `(others => '1')`. -/
def reset (w : Widths) : Nat := 2 ^ w.exp - 1

end BitSegmentMeter

/-! ## Bit time counters -/

/-- `G_BRP_WIDTH`, the same for both bit times. -/
def brpWidth : Nat := 8

structure BitTimeCounters where
  tqCounterQ : Nat
  segmCounterQ : Nat
deriving DecidableEq, Repr

namespace BitTimeCounters

def reset : BitTimeCounters := ⟨1, 0⟩

def tqEdge (q : BitTimeCounters) (brp : Nat) : Bool := q.tqCounterQ == brp

/-- `clear` drives both `tq_reset` and `bt_reset`. -/
def step (bt : Nat) (q : BitTimeCounters) (brp : Nat) (clear ctrsEn : Bool) :
    BitTimeCounters where
  tqCounterQ :=
    if ctrsEn then (if q.tqEdge brp || clear then 1 else (q.tqCounterQ + 1) % 2 ^ brpWidth)
    else q.tqCounterQ
  segmCounterQ :=
    if clear then 0
    else if q.tqEdge brp && ctrsEn then (q.segmCounterQ + 1) % 2 ^ bt
    else q.segmCounterQ

end BitTimeCounters

/-! ## Configuration -/

/-- The bit timing registers. -/
structure Btr where
  prop : BitVec 7
  ph1 : BitVec 6
  ph2 : BitVec 6
  brp : BitVec 8
  sjw : BitVec 5
  propFd : BitVec 6
  ph1Fd : BitVec 5
  ph2Fd : BitVec 5
  brpFd : BitVec 8
  sjwFd : BitVec 5

namespace Btr

variable (b : Btr)

/-- `tseg1_nbt_d` and `tseg1_dbt_d`. -/
def tseg1 : BitRate → Nat
  | .nominal => (b.prop.toNat + b.ph1.toNat + 1) % 2 ^ 8
  | .data => (b.propFd.toNat + b.ph1Fd.toNat + 1) % 2 ^ 7

def tseg2 : BitRate → Nat
  | .nominal => b.ph2.toNat
  | .data => b.ph2Fd.toNat

def brpOf : BitRate → Nat
  | .nominal => b.brp.toNat
  | .data => b.brpFd.toNat

def sjwOf : BitRate → Nat
  | .nominal => b.sjw.toNat
  | .data => b.sjwFd.toNat

end Btr

/-! ## Prescaler -/

/-- `sync_control`. -/
inductive SyncControl where
  | noSync
  | hardSync
  | reSync
deriving DecidableEq, Repr

/-- `t_bit_time`. -/
inductive BitTime where
  | reset
  | tseg1
  | tseg2
deriving DecidableEq, Repr

namespace Prescaler

/-- Generics of the two segment meters and counters. -/
def widths : BitRate → Widths
  | .nominal => ⟨5, 8, 6, 8⟩
  | .data => ⟨5, 7, 5, 7⟩

/-- Registers that exist once for each bit time: the captured length of TSEG1,
the expected segment length, the counters and the captured end request. -/
structure Rate where
  tseg1 : Nat
  expSegLengthQ : Nat
  ctrs : BitTimeCounters
  segmEndReqCaptQ : Bool
deriving DecidableEq, Repr

structure State where
  mrSettingsEnaReg : Bool
  mrSettingsEnaReg2 : Bool
  syncFlag : Bool
  bitTime : BitTime
  nbt : Rate
  dbt : Rate
  rxTrigReqQ : Bool
  txTrigReqFlagQ : Bool
deriving DecidableEq, Repr

structure Input where
  mrSettingsEna : Bool
  syncEdge : Bool
  spControl : SpControl
  syncControl : SyncControl
  noPosResync : Bool
  nbtCtrsEn : Bool
  dbtCtrsEn : Bool
deriving DecidableEq, Repr

def resetRate (tseg1 : Nat) (w : Widths) : Rate := ⟨tseg1, BitSegmentMeter.reset w, .reset, false⟩

def reset : State where
  mrSettingsEnaReg := false
  mrSettingsEnaReg2 := false
  syncFlag := false
  bitTime := .reset
  nbt := resetRate 9 (widths .nominal)
  dbt := resetRate 7 (widths .data)
  rxTrigReqQ := false
  txTrigReqFlagQ := false

def State.rate (s : State) : BitRate → Rate
  | .nominal => s.nbt
  | .data => s.dbt

/-- Data and secondary sampling use the data bit time. -/
def rateOf : SpControl → BitRate
  | .nominalSample => .nominal
  | .dataSample | .secondarySample => .data

def Input.ctrsEn (i : Input) : BitRate → Bool
  | .nominal => i.nbtCtrsEn
  | .data => i.dbtCtrsEn

variable (b : Btr) (s : State) (i : Input) (r : BitRate)

def isTseg1 : Bool := s.bitTime == .tseg1

def isTseg2 : Bool := s.bitTime == .tseg2

/-! ### Synchronisation checker -/

def resyncEdge : Bool := i.syncEdge && i.syncControl == .reSync

def hSyncEdge : Bool := i.syncEdge && i.syncControl == .hardSync

def resyncEdgeValid : Bool :=
  resyncEdge i && !s.syncFlag && (isTseg2 s || (isTseg1 s && !i.noPosResync))

def hSyncEdgeValid : Bool :=
  if i.noPosResync && isTseg1 s then false else hSyncEdge i && !s.syncFlag

/-! ### Configuration capture -/

def capture : Bool := i.mrSettingsEna && !s.mrSettingsEnaReg

def startEdge : Bool := !s.mrSettingsEnaReg2 && s.mrSettingsEnaReg

/-! ### Segment end detector -/

def meterInput : BitSegmentMeter.Input where
  resyncEdgeValid := resyncEdgeValid s i
  isTseg1 := isTseg1 s
  isTseg2 := isTseg2 s
  tseg1 := (s.rate r).tseg1
  tseg2 := b.tseg2 r
  sjw := b.sjwOf r
  segmCounter := (s.rate r).ctrs.segmCounterQ
  startEdge := startEdge s

def exitSegmReq : Bool :=
  BitSegmentMeter.exitSegmReq (widths r) (s.rate r).expSegLengthQ (meterInput b s i r)

/-- `nbt_tq_active` and `dbt_tq_active`. -/
def tqActive : Bool := rateOf i.spControl == r && (s.rate r).ctrs.tqEdge (b.brpOf r)

/-- A request is remembered in TSEG2 only. -/
def segmEndReqCaptDq : Bool :=
  if isTseg1 s then exitSegmReq b s i r
  else exitSegmReq b s i r || (s.rate r).segmEndReqCaptQ

def segmEndNbtDbtValid : Bool :=
  (segmEndReqCaptDq b s i .nominal && tqActive b s i .nominal) ||
    (segmEndReqCaptDq b s i .data && tqActive b s i .data)

def hSyncValid : Bool := hSyncEdgeValid s i && tqActive b s i .nominal

def segmEnd : Bool :=
  (isTseg1 s && segmEndNbtDbtValid b s i && !hSyncValid b s i) ||
    (isTseg2 s && segmEndNbtDbtValid b s i) || (hSyncValid b s i && isTseg2 s)

def btCtrClear : Bool := segmEnd b s i || hSyncValid b s i

/-! ### Outputs -/

def rxTrigReq : Bool := isTseg1 s && segmEnd b s i

def txTrigReq : Bool :=
  (s.bitTime == .reset && i.mrSettingsEna) || (isTseg2 s && segmEnd b s i)

def txTrigger : Bool :=
  if s.rxTrigReqQ then false else txTrigReq b s i || s.txTrigReqFlagQ

def tqEdge : Bool := (s.rate (rateOf i.spControl)).ctrs.tqEdge (b.brpOf (rateOf i.spControl))

/-! ### One clock cycle -/

def stepRate : Rate where
  tseg1 := if capture s i then b.tseg1 r else (s.rate r).tseg1
  expSegLengthQ :=
    BitSegmentMeter.step (widths r) (s.rate r).expSegLengthQ (meterInput b s i r)
      (segmEnd b s i) (hSyncValid b s i)
  ctrs := (s.rate r).ctrs.step (widths r).bt (b.brpOf r) (btCtrClear b s i) (i.ctrsEn r)
  segmEndReqCaptQ :=
    if segmEnd b s i then false
    else exitSegmReq b s i r || (s.rate r).segmEndReqCaptQ

def nextBitTime : BitTime :=
  if !i.mrSettingsEna then .reset
  else match s.bitTime with
    | .tseg1 => if segmEnd b s i then .tseg2 else .tseg1
    | .tseg2 => if segmEnd b s i then .tseg1 else .tseg2
    | .reset => .tseg1

def nextSyncFlag : Bool :=
  if resyncEdge i || hSyncEdge i then true
  else if segmEnd b s i && isTseg1 s then false
  else s.syncFlag

def step : State where
  mrSettingsEnaReg := i.mrSettingsEna
  mrSettingsEnaReg2 := s.mrSettingsEnaReg
  syncFlag := nextSyncFlag b s i
  bitTime := nextBitTime b s i
  nbt := stepRate b s i .nominal
  dbt := stepRate b s i .data
  rxTrigReqQ := rxTrigReq b s i
  txTrigReqFlagQ :=
    if s.rxTrigReqQ && txTrigReq b s i then true
    else if !s.rxTrigReqQ then false
    else s.txTrigReqFlagQ

end Prescaler
