import Mathlib.Data.List.Basic

/-!
# Clocked machines and their runs

A clocked design is a step function from the register state and the inputs of
one clock cycle to the register state of the next. Runs are lists of cycles.
An assumption on the environment may read the state it is made in, so it is a
relation between states and inputs that must hold at every cycle of the run.
-/

namespace SyncMachine

universe u v w

variable {S : Type u} {I : Type v} {H : Type w}

def run (step : S → I → S) : S → List I → S
  | s, [] => s
  | s, i :: is => run step (step s i) is

/-- Every cycle of the run meets the assumption in the state it starts from. -/
def Admits (step : S → I → S) (ok : S → I → Prop) : S → List I → Prop
  | _, [] => True
  | s, i :: is => ok s i ∧ Admits step ok (step s i) is

instance Admits.decidable (step : S → I → S) (ok : S → I → Prop)
    [∀ s i, Decidable (ok s i)] : ∀ s is, Decidable (Admits step ok s is)
  | _, [] => .isTrue trivial
  | s, i :: is =>
    have := Admits.decidable step ok (step s i) is
    inferInstanceAs (Decidable (ok s i ∧ Admits step ok (step s i) is))

theorem run_append (step : S → I → S) (s : S) (is js : List I) :
    run step s (is ++ js) = run step (run step s is) js := by
  induction is generalizing s with
  | nil => rfl
  | cons i is ih => exact ih (step s i)

theorem admits_append (step : S → I → S) (ok : S → I → Prop) (s : S) (is js : List I) :
    Admits step ok s (is ++ js) ↔
      Admits step ok s is ∧ Admits step ok (run step s is) js := by
  induction is generalizing s with
  | nil => simp [Admits, run]
  | cons i is ih => simp [Admits, run, ih, and_assoc]

/-- An assumption that every input of the run meets in every state. -/
theorem admits_of_forall {step : S → I → S} {ok : S → I → Prop} {is : List I}
    (h : ∀ i ∈ is, ∀ s, ok s i) (s : S) : Admits step ok s is := by
  induction is generalizing s with
  | nil => trivial
  | cons i is ih => exact ⟨h i List.mem_cons_self s, ih (fun j hj => h j (.tail i hj)) _⟩

theorem admits_true (step : S → I → S) (s : S) (is : List I) :
    Admits step (fun _ _ => True) s is :=
  admits_of_forall (fun _ _ _ => trivial) s

/-- An inductive invariant holds after every admissible run. -/
theorem run_invariant (step : S → I → S) (ok : S → I → Prop) (Inv : S → Prop)
    (preserved : ∀ s i, Inv s → ok s i → Inv (step s i))
    {s : S} (start : Inv s) (is : List I) (h : Admits step ok s is) :
    Inv (run step s is) := by
  induction is generalizing s with
  | nil => exact start
  | cons i is ih => exact ih (preserved s i start h.1) h.2

/-- An invariant that only certain events can break holds after every admissible run in which no
such event took place. -/
theorem run_invariant_or_event (step : S → I → S) (ok Event : S → I → Prop) (Inv : S → Prop)
    (preserved : ∀ s i, Inv s → ok s i → ¬ Event s i → Inv (step s i))
    {s : S} (start : Inv s) (is : List I) (h : Admits step ok s is) :
    Inv (run step s is) ∨ ∃ past i rest, is = past ++ i :: rest ∧ Event (run step s past) i := by
  induction is generalizing s with
  | nil => exact .inl start
  | cons i is ih =>
    by_cases hev : Event s i
    · exact .inr ⟨[], i, is, rfl, hev⟩
    · rcases ih (preserved s i start h.1 hev) h.2 with hinv | ⟨past, j, rest, hsplit, hj⟩
      · exact .inl hinv
      · exact .inr ⟨i :: past, j, rest, by rw [hsplit, List.cons_append], hj⟩

/-- The state at the start of cycle `n` if cycle `n` has the inputs `sig n`. -/
def stateAt (step : S → I → S) (s : S) (sig : Nat → I) : Nat → S
  | 0 => s
  | n + 1 => step (stateAt step s sig n) (sig n)

theorem stateAt_add (step : S → I → S) (s : S) (sig : Nat → I) (m n : Nat) :
    stateAt step s sig (m + n) =
      run step (stateAt step s sig m) ((List.range n).map fun k => sig (m + k)) := by
  induction n with
  | zero => rfl
  | succ n ih =>
    rw [List.range_succ, List.map_append, run_append, ← ih]
    rfl

/-- A part of a machine goes through its own states on the inputs the machine gives it. -/
theorem stateAt_part {T : Type w} {J : Type w} {step : S → I → S} {pstep : T → J → T}
    (part : S → T) (input : S → I → J) (h : ∀ s i, part (step s i) = pstep (part s) (input s i))
    (s : S) (sig : Nat → I) (n : Nat) :
    part (stateAt step s sig n) =
      stateAt pstep (part s) (fun m => input (stateAt step s sig m) (sig m)) n := by
  induction n with
  | zero => rfl
  | succ n ih => rw [stateAt, stateAt, h, ih]

/-- A monitor reads the state and the inputs of every cycle and never drives them. -/
def watched (step : S → I → S) (watch : H → S → I → H) : S × H → I → S × H :=
  fun p i => (step p.1 i, watch p.2 p.1 i)

/-- What is asked of the cycles of the machine alone does not depend on the monitor. -/
theorem admits_watched (step : S → I → S) (ok : S → I → Prop) (watch : H → S → I → H) (p : S × H)
    (is : List I) : Admits (watched step watch) (fun p i => ok p.1 i) p is ↔
      Admits step ok p.1 is := by
  induction is generalizing p with
  | nil => rfl
  | cons i is ih => exact and_congr_right fun _ => ih _

end SyncMachine
