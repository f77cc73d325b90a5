import Mathlib.Data.List.Basic
import Mathlib.Algebra.Order.BigOperators.Group.List
import Mathlib.Algebra.Order.Group.Nat

/-!
# A queue of frames with one open frame

The reader takes words from the front. The writer appends words to one open
frame, may overwrite words already in it, and ends it by a commit, which makes
the whole frame readable, or by a rollback, which leaves no trace of it.
-/

namespace FrameQueue

universe u

variable {α : Type u}

structure Queue (α : Type u) where
  /-- What is left of the frame being read. -/
  reading : List α
  /-- Committed frames whose first word has not been read. -/
  whole : List (List α)
  /-- Words of the open frame. -/
  pending : List α
deriving DecidableEq

namespace Queue

def empty : Queue α := ⟨[], [], []⟩

def unread (q : Queue α) : List α := q.reading ++ q.whole.flatten

/-- Committed frames that are not fully read. -/
def frameCount (q : Queue α) : Nat := q.whole.length + min 1 q.reading.length

def pop (q : Queue α) : Queue α :=
  match q.reading, q.whole with
  | _ :: rest, _ => { q with reading := rest }
  | [], f :: fs => { q with reading := f.tail, whole := fs }
  | [], [] => q

inductive Edit (α : Type u) where
  | keep
  | push (a : α)
  | patch (k : Nat) (a : α)
  | commit
  | rollback

def edit (q : Queue α) : Edit α → Queue α
  | .keep => q
  | .push a => { q with pending := q.pending ++ [a] }
  | .patch k a => { q with pending := q.pending.set k a }
  | .commit => { q with whole := q.whole ++ [q.pending], pending := [] }
  | .rollback => { q with pending := [] }

/-- One clock cycle: the reader may take a word while the writer edits. -/
def cycle (q : Queue α) (take : Bool) (e : Edit α) : Queue α :=
  (if take then q.pop else q).edit e

@[simp] theorem unread_empty : (empty : Queue α).unread = [] := rfl

@[simp] theorem frameCount_empty : (empty : Queue α).frameCount = 0 := rfl

@[simp] theorem pending_pop (q : Queue α) : q.pop.pending = q.pending := by
  unfold pop
  split <;> rfl

theorem unread_pop (q : Queue α) (nonempty : ∀ f ∈ q.whole, f ≠ []) :
    q.pop.unread = q.unread.tail := by
  obtain ⟨reading, whole, pending⟩ := q
  cases reading with
  | cons a rest => rfl
  | nil =>
    cases whole with
    | nil => rfl
    | cons f fs =>
      obtain ⟨a, rest, rfl⟩ := List.exists_cons_of_ne_nil (nonempty f List.mem_cons_self)
      rfl

theorem whole_pop_subset (q : Queue α) {f : List α} (h : f ∈ q.pop.whole) : f ∈ q.whole := by
  obtain ⟨reading, whole, pending⟩ := q
  cases reading with
  | cons a rest => exact h
  | nil =>
    cases whole with
    | nil => exact h
    | cons g gs => exact List.mem_cons_of_mem g h

/-- Reading the last word of a frame takes it off the count. -/
theorem frameCount_pop_last (q : Queue α) (last : q.reading.length = 1) :
    q.pop.frameCount + 1 = q.frameCount := by
  obtain ⟨reading, whole, pending⟩ := q
  obtain ⟨a, rfl⟩ := List.length_eq_one_iff.mp last
  simp [pop, frameCount]

/-- Any other word leaves the count alone, provided no frame is a single word. -/
theorem frameCount_pop_inner (q : Queue α) (long : ∀ f ∈ q.whole, 2 ≤ f.length)
    (inner : q.reading.length ≠ 1) : q.pop.frameCount = q.frameCount := by
  obtain ⟨reading, whole, pending⟩ := q
  cases reading with
  | cons a rest =>
    simp only [List.length_cons] at inner
    simp only [pop, frameCount, List.length_cons]
    omega
  | nil =>
    cases whole with
    | nil => rfl
    | cons f fs =>
      have hf := long f List.mem_cons_self
      simp only [pop, frameCount, List.length_cons, List.length_nil, List.length_tail]
      omega

theorem unread_ne_nil_of_frameCount (q : Queue α) (nonempty : ∀ f ∈ q.whole, f ≠ [])
    (h : 0 < q.frameCount) : q.unread ≠ [] := by
  obtain ⟨reading, whole, pending⟩ := q
  cases reading with
  | cons a rest => simp [unread]
  | nil =>
    cases whole with
    | nil => simp [frameCount] at h
    | cons f fs =>
      have hf := nonempty f List.mem_cons_self
      simp [unread, hf]

theorem unread_eq_nil_of_frameCount (q : Queue α) (h : q.frameCount = 0) : q.unread = [] := by
  obtain ⟨reading, whole, pending⟩ := q
  simp only [frameCount] at h
  have hr : reading = [] := List.eq_nil_of_length_eq_zero (by omega)
  have hw : whole = [] := List.eq_nil_of_length_eq_zero (by omega)
  simp [unread, hr, hw]

/-- Frames of at least `n` words bound the count by the words stored. -/
theorem whole_length_bound (q : Queue α) (n : Nat) (long : ∀ f ∈ q.whole, n ≤ f.length) :
    n * q.whole.length + q.reading.length ≤ q.unread.length := by
  have hsum : q.whole.length * n ≤ (q.whole.map List.length).sum := by
    have h := List.card_nsmul_le_sum (q.whole.map List.length) n (by simpa using long)
    simpa using h
  have hlen : q.unread.length = q.reading.length + (q.whole.map List.length).sum := by
    simp [unread, List.length_flatten]
  rw [Nat.mul_comm]
  omega

/-- Reading does not touch the open frame. -/
theorem pending_cycle (q : Queue α) (take : Bool) (e : Edit α) :
    (q.cycle take e).pending = (q.edit e).pending := by
  have hpop : (if take then q.pop else q).pending = q.pending := by
    split
    · exact pending_pop q
    · rfl
  cases e <;> simp [cycle, edit, hpop]

theorem unread_commit (q : Queue α) : (q.edit .commit).unread = q.unread ++ q.pending := by
  simp [edit, unread]

theorem frameCount_commit (q : Queue α) : (q.edit .commit).frameCount = q.frameCount + 1 := by
  simp only [edit, frameCount, List.length_append, List.length_singleton]
  omega

end Queue

end FrameQueue
