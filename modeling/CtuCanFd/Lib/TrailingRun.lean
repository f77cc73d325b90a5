import Mathlib.Data.List.Induction

/-!
# Runs of equal symbols at the end of a list

A counter that follows a stream keeps the length of the run the stream ends with. What is
said with suffixes about the stream can be read off the counter.
-/

namespace TrailingRun

variable {α : Type*}

theorem replicate_suffix_concat {k : Nat} {a x : α} {xs : List α} :
    List.replicate (k + 1) a <:+ xs ++ [x] ↔ a = x ∧ List.replicate k a <:+ xs := by
  rw [List.replicate_succ']
  constructor
  · rintro ⟨front, h⟩
    rw [← List.append_assoc] at h
    obtain ⟨hfront, hlast⟩ := List.append_inj' h rfl
    exact ⟨List.singleton_inj.mp hlast, front, hfront⟩
  · rintro ⟨rfl, front, h⟩
    exact ⟨front, by rw [← List.append_assoc, h]⟩

variable [DecidableEq α]

/-- Length and symbol of the run after one more symbol. -/
def next (r : Nat × α) (x : α) : Nat × α := if x = r.2 then (r.1 + 1, x) else (1, x)

/-- The run at the end, if the stream came after the run `start`. -/
def trailing (start : Nat × α) (xs : List α) : Nat × α := xs.foldl next start

theorem trailing_concat (start : Nat × α) (xs : List α) (x : α) :
    trailing start (xs ++ [x]) = next (trailing start xs) x := by
  simp [trailing]

/-- A stream that does not continue the run before it ends with `k + 1` equal symbols exactly
when the counter says so. -/
theorem replicate_suffix_iff {start : Nat × α} {xs : List α} (hne : xs ≠ [])
    (hhead : ∀ x, xs.head? = some x → x ≠ start.2) {k : Nat} {a : α} :
    List.replicate (k + 1) a <:+ xs ↔ a = (trailing start xs).2 ∧ k < (trailing start xs).1 := by
  induction xs using List.reverseRecOn generalizing k with
  | nil => exact absurd rfl hne
  | append_singleton xs x ih =>
    rw [replicate_suffix_concat, trailing_concat]
    cases xs with
    | nil =>
      have hx : x ≠ start.2 := hhead x rfl
      rw [trailing, List.foldl_nil, next, if_neg hx]
      cases k with
      | zero => simp
      | succ k => simp [List.replicate_succ]
    | cons y ys =>
      cases k with
      | zero =>
        unfold next
        split <;> simp
      | succ k =>
        rw [ih (List.cons_ne_nil y ys) hhead]
        unfold next
        split
        · next h => simp [h]
        · next h =>
          constructor
          · rintro ⟨rfl, hlast, -⟩
            exact absurd hlast h
          · rintro ⟨-, hlt⟩
            simp at hlt

end TrailingRun
