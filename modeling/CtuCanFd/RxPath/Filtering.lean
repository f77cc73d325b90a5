import CtuCanFd.RxPath.Commands

/-!
# Filtering of whole frames

Software may write the filter and mode registers in any cycle. As long as the
registers decide on each command of a frame as they did on the commands before
it, the frame reaches the RX buffer whole or not at all. A write in the middle of
a frame that changes the decision tears it apart.
-/

namespace RxPath

open SyncMachine

/-- The receive path under settings that software may change in every cycle, with
the ledger of the frame in progress. -/
def loggedStep (g : Generics) :
    (State × Nat) × List Outcome → Settings × Input → (State × Nat) × List Outcome :=
  watched (fun p x => timedStep g x.1 p x.2) fun log p x => record g x.1 log p.1 x.2

def loggedReset (g : Generics) (mem : Nat → RxBuffer.Word) (dataOut : RxBuffer.Word) :
    (State × Nat) × List Outcome :=
  (timedReset g mem dataOut, [])

/-- The store commands of the frame in progress are issued all or none, those
issued are all passed or all dropped, and metadata finds the RX buffer FSM in idle. -/
structure AllOrNothing (s : State) (log : List Outcome) : Prop where
  issued : ∀ o ∈ log, ∀ o' ∈ log, o.command ≠ .recAbort → o'.command ≠ .recAbort →
    o.issued = o'.issued
  passed : ∀ o ∈ log, ∀ o' ∈ log, o.issued = true → o'.issued = true →
    o.accepted = o'.accepted
  idle : storeMetadataF s = true → s.rxb.fsm = .idle

instance (s : State) (log : List Outcome) : Decidable (AllOrNothing s log) :=
  decidable_of_iff
    ((∀ o ∈ log, ∀ o' ∈ log, o.command ≠ .recAbort → o'.command ≠ .recAbort →
        o.issued = o'.issued) ∧
      (∀ o ∈ log, ∀ o' ∈ log, o.issued = true → o'.issued = true → o.accepted = o'.accepted) ∧
      (storeMetadataF s = true → s.rxb.fsm = .idle))
    ⟨fun ⟨a, b, c⟩ => ⟨a, b, c⟩, fun ⟨a, b, c⟩ => ⟨a, b, c⟩⟩

/-- An undisturbed cycle whose settings agree with the decisions of the frame. -/
structure Unswayed (g : Generics) (p : (State × Nat) × List Outcome) (x : Settings × Input) :
    Prop where
  undisturbed : Undisturbed p.1 x.2
  consistent : Consistent g x.1 p.2 p.1.1 x.2

instance (g : Generics) (p : (State × Nat) × List Outcome) (x : Settings × Input) :
    Decidable (Unswayed g p x) :=
  decidable_of_iff (Undisturbed p.1 x.2 ∧ Consistent g x.1 p.2 p.1.1 x.2)
    ⟨fun ⟨a, b⟩ => ⟨a, b⟩, fun ⟨a, b⟩ => ⟨a, b⟩⟩

/-- Whatever software writes, a frame is stored whole or not at all as long as the
writes do not change the decision on it. -/
theorem filtering_all_or_nothing (g : Generics) (mem : Nat → RxBuffer.Word)
    (dataOut : RxBuffer.Word) (cycles : List (Settings × Input))
    (h : Admits (loggedStep g) (Unswayed g) (loggedReset g mem dataOut) cycles) :
    AllOrNothing (run (loggedStep g) (loggedReset g mem dataOut) cycles).1.1
      (run (loggedStep g) (loggedReset g mem dataOut) cycles).2 := by
  have hinv := run_invariant (loggedStep g) (Unswayed g)
    (fun p => Ordered p.1.1 p.1.2 ∧ Logged g p.1.1 p.2)
    (by
      rintro ⟨p, log⟩ x ⟨ho, hlog⟩ hok
      have hst := hlog.steady ho hok.consistent
      exact ⟨ho.step_ordered hok.undisturbed.spacing hok.undisturbed.parity hst,
        hlog.step_logged ho hok.consistent⟩)
    ⟨ordered_reset g mem dataOut, Logged.of_reset g mem dataOut⟩ cycles h
  exact ⟨hinv.2.sameIssue, hinv.2.samePass, hinv.1.metadata_idle⟩

/-! ## Two frames and a register write between their commands -/

/-- Bits received under these filter registers. -/
def receivedBits (r : FrameFilters.Registers) (bits : List Bool) : List (Settings × Input) :=
  bits.flatMap fun b => (bitTime (busCycle false false b)).map (⟨loopbackConfig, r⟩, ·)

def integration (r : FrameFilters.Registers) : List (Settings × Input) :=
  (List.replicate 11 (bitTime (busCycle true false true))).flatten.map (⟨loopbackConfig, r⟩, ·)

/-- SOF, base identifier and control bits of a classical frame, DLC eight. -/
def headerBits (ident : List Bool) : List Bool :=
  [false] ++ ident ++ [false, false, false, true, false, false, false]

def identA : List Bool :=
  [true, false, true, false, true, false, true, false, true, false, true]

def identB : List Bool :=
  [false, true, false, true, false, true, false, true, false, true, false]

def acceptA : FrameFilters.Registers := exactFilter true (0b10101010101#11 ++ 0#18)

def acceptB : FrameFilters.Registers := exactFilter true (0b01010101010#11 ++ 0#18)

/-- Dominant bits through the data field and the error flag. -/
def stuffErrorBits : List Bool := List.replicate 12 false

/-- Delimiter, intermission and bus idle. -/
def recoveryBits : List Bool := List.replicate 14 true

/-- The filter is changed from the first to the second frame once the error
frame is over. -/
def filteredFrames : List (Settings × Input) :=
  integration acceptA ++ receivedBits acceptA (headerBits identA ++ stuffErrorBits) ++
    receivedBits acceptB (recoveryBits ++ headerBits identB)

/-- The same bits, but the filter is changed in the data field of the first frame. -/
def tornFrames : List (Settings × Input) :=
  integration acceptA ++ receivedBits acceptA (headerBits identA) ++
    receivedBits acceptB (stuffErrorBits ++ recoveryBits ++ headerBits identB)

theorem filtering_all_or_nothing_rewritten :
    storeMetadataF (run (loggedStep smallNode) (loggedReset smallNode (fun _ => 0) 0)
        (filteredFrames.take 372)).1.1 = true ∧
      AllOrNothing
        (run (loggedStep smallNode) (loggedReset smallNode (fun _ => 0) 0)
          (filteredFrames.take 372)).1.1
        (run (loggedStep smallNode) (loggedReset smallNode (fun _ => 0) 0)
          (filteredFrames.take 372)).2 :=
  ⟨by decide +kernel, filtering_all_or_nothing _ _ _ _ (by decide +kernel)⟩

/-- The abort of the first frame is dropped after its metadata was passed, and the
metadata of the second frame finds the RX buffer in the first. -/
theorem filter_write_tears_frame :
    Admits (loggedStep smallNode) (fun p x => Undisturbed p.1 x.2)
        (loggedReset smallNode (fun _ => 0) 0) (tornFrames.take 372) ∧
      ¬ AllOrNothing
        (run (loggedStep smallNode) (loggedReset smallNode (fun _ => 0) 0)
          (tornFrames.take 165)).1.1
        (run (loggedStep smallNode) (loggedReset smallNode (fun _ => 0) 0)
          (tornFrames.take 165)).2 ∧
      ¬ AllOrNothing
        (run (loggedStep smallNode) (loggedReset smallNode (fun _ => 0) 0)
          (tornFrames.take 372)).1.1
        (run (loggedStep smallNode) (loggedReset smallNode (fun _ => 0) 0)
          (tornFrames.take 372)).2 := by
  decide +kernel

end RxPath
