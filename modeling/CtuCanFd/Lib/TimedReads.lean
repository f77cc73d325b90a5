/-!
# Programs that read a device which changes on its own

A program issues one read after the other. The device takes a read in the cycle in which it is
issued or in a later one, and the program goes on with the data of that cycle.
-/

/-- A program that reads at addresses and returns a value. -/
inductive TimedReads (Addr Data α : Type) where
  | done (value : α)
  | read (addr : Addr) (next : Data → TimedReads Addr Data α)

namespace TimedReads

variable {Addr Data α β : Type}

def bind : TimedReads Addr Data α → (α → TimedReads Addr Data β) → TimedReads Addr Data β
  | .done a, f => f a
  | .read addr next, f => .read addr fun d => (next d).bind f

instance : Monad (TimedReads Addr Data) where
  pure := .done
  bind := bind

def readAt (addr : Addr) : TimedReads Addr Data Data := .read addr .done

/-- The data at each address in each cycle, and the cycles that a read waits which is issued in
a cycle. -/
structure Device (Addr Data : Type) where
  data : Nat → Addr → Data
  wait : Nat → Nat

namespace Device

variable (dev : Device Addr Data)

/-- Cycle in which a read is taken. -/
def taken (n : Nat) : Nat := n + dev.wait n

theorem le_taken (n : Nat) : n ≤ dev.taken n := Nat.le_add_right n _

end Device

/-- Value that a program returns which starts in cycle `n`, and the cycle after its last read. -/
def exec (dev : Device Addr Data) : TimedReads Addr Data α → Nat → α × Nat
  | .done a, n => (a, n)
  | .read addr next, n => (next (dev.data (dev.taken n) addr)).exec dev (dev.taken n + 1)

variable (dev : Device Addr Data)

theorem exec_pure (a : α) (n : Nat) :
    (pure a : TimedReads Addr Data α).exec dev n = (a, n) := rfl

theorem exec_bind (p : TimedReads Addr Data α) (f : α → TimedReads Addr Data β) (n : Nat) :
    (p >>= f).exec dev n = (f (p.exec dev n).1).exec dev (p.exec dev n).2 := by
  induction p generalizing n with
  | done a => rfl
  | read addr next ih => exact ih _ (dev.taken n + 1)

theorem exec_readAt (addr : Addr) (n : Nat) :
    (readAt addr).exec dev n = (dev.data (dev.taken n) addr, dev.taken n + 1) := rfl

end TimedReads
