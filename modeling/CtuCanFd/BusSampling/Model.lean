import CtuCanFd.Core.Blocks
import Mathlib.Algebra.Group.Nat.Defs
import Mathlib.Logic.Function.Basic

/-!
# Secondary sampling

`ssp_generator` and `tx_data_cache` as `bus_sampling` wires them. Protocol control
resets the cache in the EDL bit and the measurement in the BRS bit, and starts both
with the TX trigger of the ESI bit; its control signals and the delay of the first
secondary sample point, measured elsewhere, are inputs.
-/

open ProtocolControl (SpControl)

namespace BusSampling

/-- `G_SSP_CTRS_WIDTH` and `G_TX_CACHE_DEPTH`. -/
structure Generics where
  sspCtrsWidth : Nat
  txCacheDepth : Nat

/-- Their values in `can_config_pkg`. -/
def canConfig : Generics := ⟨15, 8⟩

structure Input where
  btmcReset : Bool
  dbtMeasureStart : Bool
  genFirstSsp : Bool
  sspReset : Bool
  spControl : SpControl
  sspDelay : BitVec 8
  txTrigger : Bool
  txDataWbs : Bool

/-! ## `ssp_generator` -/

structure SspGenerator where
  btmcMeasRunningQ : Bool
  btmcQ : Nat
  firstSspQ : Bool
  sspcEnaQ : Bool
  sspcQ : Nat
deriving DecidableEq, Repr

namespace SspGenerator

def reset : SspGenerator where
  btmcMeasRunningQ := false
  btmcQ := 0
  firstSspQ := false
  sspcEnaQ := false
  sspcQ := 1

variable (g : Generics) (q : SspGenerator) (i : Input)

def sspcThreshold : Nat :=
  if q.firstSspQ then i.sspDelay.toNat % 2 ^ g.sspCtrsWidth else q.btmcQ

def sspcExpired : Bool := decide (q.sspcThreshold g i ≤ q.sspcQ)

def sampleSec : Bool := q.sspcExpired g i && q.sspcEnaQ

def step : SspGenerator where
  btmcMeasRunningQ :=
    if i.btmcReset then false
    else if i.dbtMeasureStart && i.txTrigger then true
    else if i.txTrigger then false
    else q.btmcMeasRunningQ
  btmcQ :=
    if i.btmcReset then 0
    else if q.btmcMeasRunningQ then (q.btmcQ + 1) % 2 ^ g.sspCtrsWidth
    else q.btmcQ
  firstSspQ :=
    if i.genFirstSsp && i.txTrigger then true
    else if q.sspcExpired g i then false
    else q.firstSspQ
  sspcEnaQ :=
    if i.genFirstSsp && i.txTrigger then true
    else if i.spControl != .secondarySample then false
    else q.sspcEnaQ
  sspcQ :=
    if i.btmcReset || q.sspcExpired g i then 1
    else if q.sspcEnaQ then (q.sspcQ + 1) % 2 ^ g.sspCtrsWidth
    else q.sspcQ

end SspGenerator

/-! ## `tx_data_cache` -/

structure TxDataCache where
  txCacheMem : Nat → Bool
  writePointerQ : Nat
  readPointerQ : Nat

namespace TxDataCache

def reset : TxDataCache where
  txCacheMem := fun _ => true
  writePointerQ := 0
  readPointerQ := 0

def dataOut (q : TxDataCache) : Bool := q.txCacheMem q.readPointerQ

def step (g : Generics) (q : TxDataCache) (write read dataIn : Bool) : TxDataCache where
  txCacheMem := if write then Function.update q.txCacheMem q.writePointerQ dataIn else q.txCacheMem
  writePointerQ := if write then (q.writePointerQ + 1) % g.txCacheDepth else q.writePointerQ
  readPointerQ := if read then (q.readPointerQ + 1) % g.txCacheDepth else q.readPointerQ

end TxDataCache

/-! ## `bus_sampling` -/

structure State where
  ssp : SspGenerator
  cacheQ : TxDataCache
  /-- `shift_regs_res_q_scan`: while low the cache is held at its reset values. -/
  shiftRegsResQ : Bool
  txTriggerQ : Bool

def reset : State where
  ssp := .reset
  cacheQ := .reset
  shiftRegsResQ := false
  txTriggerQ := false

/-- The cache is cleared asynchronously by the registered reset. -/
def cache (s : State) : TxDataCache := if s.shiftRegsResQ then s.cacheQ else .reset

def sampleSec (g : Generics) (s : State) (i : Input) : Bool := s.ssp.sampleSec g i

def dataTxDelayed (s : State) : Bool := (cache s).dataOut

def txTriggerSsp (s : State) (i : Input) : Bool :=
  s.txTriggerQ && i.spControl == .secondarySample

def step (g : Generics) (s : State) (i : Input) : State where
  ssp := s.ssp.step g i
  cacheQ :=
    if s.shiftRegsResQ then
      s.cacheQ.step g (txTriggerSsp s i) (sampleSec g s i) i.txDataWbs
    else .reset
  shiftRegsResQ := !i.sspReset
  txTriggerQ := i.txTrigger

end BusSampling
