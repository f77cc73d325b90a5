import CtuCanFd.Lib.FirstMaximum

/-!
# Priority decoder

`priority_decoder`: three levels of comparators over eight inputs. Inputs past the
number of buffers are filled with zeroes.
-/

namespace PriorityDecoder

/-- One input of a comparator. -/
structure Entry where
  prio : BitVec 3
  valid : Bool
deriving DecidableEq, Repr

/-- Outcome of a comparator: the entry passed on, and whether it is the upper one. -/
structure Winner where
  entry : Entry
  upper : Bool

def compare (lower upper : Entry) : Winner :=
  match upper.valid, lower.valid with
  | false, true => ⟨⟨lower.prio, true⟩, false⟩
  | true, false => ⟨⟨upper.prio, true⟩, true⟩
  | true, true =>
    if lower.prio < upper.prio then ⟨⟨upper.prio, true⟩, true⟩ else ⟨⟨lower.prio, true⟩, false⟩
  | false, false => ⟨⟨upper.prio, false⟩, true⟩

/-- Level 0: the inputs, filled up to eight. -/
def l0 (count : Nat) (prio : Nat → BitVec 3) (valid : Nat → Bool) (k : Nat) : Entry :=
  if k < count then ⟨prio k, valid k⟩ else ⟨0, false⟩

section Levels

variable (e : Nat → Entry)

def l1 (k : Nat) : Winner := compare (e (2 * k)) (e (2 * k + 1))

def l2 (k : Nat) : Winner := compare (l1 e (2 * k)).entry (l1 e (2 * k + 1)).entry

def outputValid : Bool := (l2 e 0).entry.valid || (l2 e 1).entry.valid

/-- `l3_winner = UPPER_TREE`. -/
def l3Upper : Bool :=
  match (l2 e 1).entry.valid, (l2 e 0).entry.valid with
  | false, true => false
  | true, false => true
  | true, true => decide ((l2 e 0).entry.prio < (l2 e 1).entry.prio)
  | false, false => false

/-- `out_index_proc` before the reduction modulo the number of buffers. -/
def leaf : Nat :=
  let k2 := (l3Upper e).toNat
  let k1 := 2 * k2 + (l2 e k2).upper.toNat
  2 * k1 + (l1 e k1).upper.toNat

end Levels

def outputIndex (count : Nat) (e : Nat → Entry) : Nat :=
  match leaf e with
  | 0 => 0
  | 1 => 1
  | k => k % count

/-! ## Comparators -/

theorem compare_valid (lower upper : Entry) :
    (compare lower upper).entry.valid = (lower.valid || upper.valid) := by
  unfold compare
  split <;> simp_all
  split <;> rfl

/-- The entry stands for input `i`, the first of the valid inputs in `[lo, hi)` with the
highest priority. -/
structure Stands (e : Nat → Entry) (lo hi : Nat) (w : Entry) (i : Nat) : Prop where
  first : w.valid = true →
    FirstMaximum (fun k => (e k).valid = true) (fun k => (e k).prio.toNat) lo hi i
  prio : w.valid = true → w.prio = (e i).prio
  none : w.valid = false → ∀ k, lo ≤ k → k < hi → (e k).valid = false

variable {e : Nat → Entry}

theorem stands_input (k : Nat) : Stands e k (k + 1) (e k) k where
  first h := .singleton h
  prio _ := rfl
  none h j hj hj' := by
    obtain rfl : j = k := by omega
    exact h

/-- A comparator of two neighbouring intervals stands for the input of the winner. -/
theorem Stands.compare {lo mid hi : Nat} {l u : Entry} {i j : Nat} (hl : Stands e lo mid l i)
    (hu : Stands e mid hi u j) (hlo : lo ≤ mid) (hhi : mid ≤ hi) :
    Stands e lo hi (compare l u).entry (if (compare l u).upper then j else i) := by
  rcases l with ⟨pl, vl⟩
  rcases u with ⟨pu, vu⟩
  have hlower : vu = false → ∀ k, mid ≤ k → k < hi → (e k).valid = true →
      (e k).prio.toNat ≤ (e i).prio.toNat := by
    intro hv k hk hk' hc
    exact absurd ((hu.none hv k hk hk').symm.trans hc) (by decide)
  have hupper : vl = false → ∀ k, lo ≤ k → k < mid → (e k).valid = true →
      (e k).prio.toNat < (e j).prio.toNat := by
    intro hv k hk hk' hc
    exact absurd ((hl.none hv k hk hk').symm.trans hc) (by decide)
  cases vl <;> cases vu
  case false.false =>
    refine ⟨nofun, nofun, fun _ k hk hk' => ?_⟩
    rcases Nat.lt_or_ge k mid with hm | hm
    · exact hl.none rfl k hk hm
    · exact hu.none rfl k hm hk'
  case true.false => exact ⟨fun _ => (hl.first rfl).lower hhi (hlower rfl), hl.prio, nofun⟩
  case false.true => exact ⟨fun _ => (hu.first rfl).upper hlo (hupper rfl), hu.prio, nofun⟩
  case true.true =>
    have hi := hl.first rfl
    have hj := hu.first rfl
    have hpl : pl = (e i).prio := hl.prio rfl
    have hpu : pu = (e j).prio := hu.prio rfl
    by_cases hp : pl < pu
    · have hlt : (e i).prio.toNat < (e j).prio.toNat := by
        rw [← hpl, ← hpu]
        exact hp
      simp only [PriorityDecoder.compare, hp, if_true]
      exact ⟨fun _ => hj.upper hlo fun k hk hk' hc => (hi.max k hk hk' hc).trans_lt hlt,
        hu.prio, nofun⟩
    · have hle : (e j).prio.toNat ≤ (e i).prio.toNat := by
        rw [← hpl, ← hpu]
        exact BitVec.not_lt.mp hp
      simp only [PriorityDecoder.compare, hp, if_false]
      exact ⟨fun _ => hi.lower hhi fun k hk hk' hc => (hj.max k hk hk' hc).trans hle,
        hl.prio, nofun⟩

/-! ## Levels -/

theorem stands_l1 (k : Nat) :
    Stands e (2 * k) (2 * k + 2) (l1 e k).entry (2 * k + (l1 e k).upper.toNat) := by
  have h := (stands_input (e := e) (2 * k)).compare (stands_input (2 * k + 1)) (by omega) (by omega)
  rw [← l1] at h
  cases hu : (l1 e k).upper <;> rw [hu] at h <;> exact h

theorem stands_l2 (k : Nat) :
    Stands e (4 * k) (4 * k + 4) (l2 e k).entry
      (2 * (2 * k + (l2 e k).upper.toNat) +
        (l1 e (2 * k + (l2 e k).upper.toNat)).upper.toNat) := by
  have h := (stands_l1 (e := e) (2 * k)).compare (stands_l1 (2 * k + 1)) (by omega) (by omega)
  rw [← l2] at h
  rw [show 4 * k = 2 * (2 * k) by omega, show 2 * (2 * k) + 4 = 2 * (2 * k + 1) + 2 by omega]
  cases hu : (l2 e k).upper <;> rw [hu] at h <;> exact h

/-- The last comparator only differs from the others if none of its inputs is valid. -/
theorem l3Upper_eq (h : outputValid e = true) :
    l3Upper e = (compare (l2 e 0).entry (l2 e 1).entry).upper := by
  unfold outputValid at h
  unfold l3Upper compare
  split <;> simp_all
  split <;> simp_all

/-- The leaf is the first of the valid inputs with the highest priority. -/
theorem leaf_first (h : outputValid e = true) :
    FirstMaximum (fun k => (e k).valid = true) (fun k => (e k).prio.toNat) 0 8 (leaf e) := by
  have hs := (stands_l2 (e := e) 0).compare (stands_l2 1) (by omega) (by omega)
  have hf := hs.first (by rw [compare_valid]; exact h)
  rw [← l3Upper_eq h] at hf
  unfold leaf
  cases hu : l3Upper e <;> rw [hu] at hf <;> exact hf

/-- Some buffer is selected if one of the first eight is valid. -/
theorem outputValid_of_valid {k : Nat} (hk : k < 8) (h : (e k).valid = true) :
    outputValid e = true := by
  have hs := (stands_l2 (e := e) 0).compare (stands_l2 1) (by omega) (by omega)
  by_contra hv
  rw [Bool.not_eq_true] at hv
  have hnone := hs.none (by rw [compare_valid]; exact hv) k (by omega) hk
  exact absurd (hnone.symm.trans h) (by decide)

/-! ## The selected buffer -/

section Buffers

variable {count : Nat} {prio : Nat → BitVec 3} {valid : Nat → Bool} {k : Nat}

theorem l0_valid (h : (l0 count prio valid k).valid = true) : k < count ∧ valid k = true := by
  unfold l0 at h
  split at h
  · next hk => exact ⟨hk, h⟩
  · cases h

theorem l0_buffer (hk : k < count) : l0 count prio valid k = ⟨prio k, valid k⟩ := if_pos hk

theorem outputIndex_eq_leaf (h : outputValid (l0 count prio valid) = true) :
    outputIndex count (l0 count prio valid) = leaf (l0 count prio valid) := by
  obtain ⟨hk, -⟩ := l0_valid (leaf_first h).mem
  unfold outputIndex
  split
  · next h0 => exact h0.symm
  · next h1 => exact h1.symm
  · exact Nat.mod_eq_of_lt hk

/-- The index put out with a valid selection is that of a valid buffer. -/
theorem outputIndex_valid (h : outputValid (l0 count prio valid) = true) :
    outputIndex count (l0 count prio valid) < count ∧
      valid (outputIndex count (l0 count prio valid)) = true := by
  rw [outputIndex_eq_leaf h]
  exact l0_valid (leaf_first h).mem

/-- No valid buffer has a higher priority than the one put out. -/
theorem outputIndex_max (h8 : count ≤ 8) (hk : k < count) (h : valid k = true) :
    outputValid (l0 count prio valid) = true ∧
      prio k ≤ prio (outputIndex count (l0 count prio valid)) := by
  have hv : (l0 count prio valid k).valid = true := by rw [l0_buffer hk, h]
  have hout := outputValid_of_valid (by omega) hv
  have hmax := (leaf_first hout).max k (by omega) (by omega) hv
  rw [← outputIndex_eq_leaf hout, l0_buffer hk, l0_buffer (outputIndex_valid hout).1] at hmax
  exact ⟨hout, hmax⟩

/-- Of valid buffers with the same priority the one with the lowest index is put out. -/
theorem outputIndex_first (hk : k < count) (h : valid k = true)
    (hout : outputValid (l0 count prio valid) = true)
    (hp : prio k = prio (outputIndex count (l0 count prio valid))) :
    outputIndex count (l0 count prio valid) ≤ k := by
  have hv : (l0 count prio valid k).valid = true := by rw [l0_buffer hk, h]
  have hidx := (outputIndex_valid hout).1
  rw [outputIndex_eq_leaf hout] at hp hidx ⊢
  refine (leaf_first hout).le_of_key_eq (by omega) hv ?_
  rw [l0_buffer hk, l0_buffer hidx, hp]

/-- The decoder selects if some buffer is valid, and then the first of the valid buffers with
the highest priority. -/
theorem selects_maximum (h8 : count ≤ 8) (prio : Nat → BitVec 3) (valid : Nat → Bool) :
    let out := outputIndex count (l0 count prio valid)
    (outputValid (l0 count prio valid) = true ↔ ∃ k, k < count ∧ valid k = true) ∧
      (outputValid (l0 count prio valid) = true →
        out < count ∧ valid out = true ∧
          (∀ k, k < count → valid k = true → prio k ≤ prio out) ∧
          ∀ k, k < count → valid k = true → prio k = prio out → out ≤ k) := by
  refine ⟨⟨fun h => ⟨_, outputIndex_valid h⟩, ?_⟩, fun h => ?_⟩
  · rintro ⟨k, hk, hv⟩
    exact (outputIndex_max h8 hk hv).1
  · obtain ⟨hlt, hval⟩ := outputIndex_valid h
    refine ⟨hlt, hval, ?_, ?_⟩
    · intro k hk hv
      exact (outputIndex_max h8 hk hv).2
    · intro k hk hv hp
      exact outputIndex_first hk hv h hp

/-- Five buffers, of which 1, 2 and 4 have the highest priority and 1 is not valid. -/
theorem selects_maximum_five :
    let prio : Nat → BitVec 3 := fun k => if k = 0 ∨ k = 3 then 2 else 5
    let valid : Nat → Bool := fun k => k != 1
    let out := outputIndex 5 (l0 5 prio valid)
    out = 2 ∧ (∀ k, k < 5 → valid k = true → prio k ≤ prio out) ∧
      ∀ k, k < 5 → valid k = true → prio k = prio out → out ≤ k := by
  intro prio valid out
  have h := (@selects_maximum 5 (by decide) prio valid).2 (by decide)
  exact ⟨by decide, h.2.2⟩

end Buffers

end PriorityDecoder
