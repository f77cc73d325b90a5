import CtuCanFd.Lib.SyncMachine

/-!
# Forecasts

What a clocked machine shows over its next cycles, whatever admissible inputs
they bring. A forecast of a long window is put together from those of its
parts; a part in which nothing happens until a counter has run down follows
from one cycle of it.
-/

namespace SyncMachine

universe u v w

variable {S : Type u} {I : Type v} {O : Type w}

/-- The output of every cycle of a run. -/
def trace (step : S → I → S) (out : S → I → O) : S → List I → List O
  | _, [] => []
  | s, i :: is => out s i :: trace step out (step s i) is

theorem trace_append (step : S → I → S) (out : S → I → O) (s : S) (is js : List I) :
    trace step out s (is ++ js) = trace step out s is ++ trace step out (run step s is) js := by
  induction is generalizing s with
  | nil => rfl
  | cons i is ih => exact congrArg (out s i :: ·) (ih (step s i))

/-- A machine that follows an abstract one, with the same output in every cycle, has the same
outputs in every run. -/
theorem trace_simulation {A : Type w} {step : S → I → S} {astep : A → I → A} {out : S → I → O}
    {aout : A → I → O} (ok : S × A → I → Prop) (R : S → A → Prop)
    (sim : ∀ s a i, R s a → ok (s, a) i → out s i = aout a i ∧ R (step s i) (astep a i))
    {s : S} {a : A} (start : R s a) (is : List I)
    (h : Admits (fun p i => (step p.1 i, astep p.2 i)) ok (s, a) is) :
    trace step out s is = trace astep aout a is ∧ R (run step s is) (run astep a is) := by
  induction is generalizing s a with
  | nil => exact ⟨rfl, start⟩
  | cons i is ih =>
    obtain ⟨hi, his⟩ := h
    obtain ⟨hout, hnext⟩ := sim s a i start hi
    obtain ⟨htrace, hend⟩ := ih hnext his
    exact ⟨congrArg₂ List.cons hout htrace, hend⟩

/-- Over the next cycles the outputs are `os`, and `post` holds after them. -/
def Forecast (step : S → I → S) (ok : S → I → Prop) (out : S → I → O) (os : List O)
    (post : S → Prop) (s : S) : Prop :=
  ∀ is : List I, is.length = os.length → Admits step ok s is →
    trace step out s is = os ∧ post (run step s is)

namespace Forecast

variable {step : S → I → S} {ok : S → I → Prop} {out : S → I → O} {post : S → Prop} {s : S}

theorem nil (h : post s) : Forecast step ok out [] post s := by
  intro is hlen _
  rw [List.length_eq_zero_iff.mp hlen]
  exact ⟨rfl, h⟩

theorem cons {o : O} {os : List O}
    (h : ∀ i, ok s i → out s i = o ∧ Forecast step ok out os post (step s i)) :
    Forecast step ok out (o :: os) post s := by
  intro is hlen hok
  cases is with
  | nil => cases hlen
  | cons i is =>
    obtain ⟨ho, hf⟩ := h i hok.1
    obtain ⟨ht, hp⟩ := hf is (Nat.succ.inj hlen) hok.2
    exact ⟨congrArg₂ List.cons ho ht, hp⟩

theorem append {os os' : List O} {mid : S → Prop} (h : Forecast step ok out os mid s)
    (h' : ∀ t, mid t → Forecast step ok out os' post t) :
    Forecast step ok out (os ++ os') post s := by
  intro is hlen hok
  rw [List.length_append] at hlen
  rw [← List.take_append_drop os.length is, admits_append] at hok
  obtain ⟨ht, hm⟩ := h (is.take os.length) (by rw [List.length_take]; omega) hok.1
  obtain ⟨ht', hp⟩ := h' _ hm (is.drop os.length) (by rw [List.length_drop]; omega) hok.2
  rw [← List.take_append_drop os.length is, trace_append, run_append, ht, ht']
  exact ⟨rfl, hp⟩

theorem mono {os : List O} {ok' : S → I → Prop} {post' : S → Prop}
    (h : Forecast step ok out os post s) (hok : ∀ t i, ok' t i → ok t i)
    (hpost : ∀ t, post t → post' t) : Forecast step ok' out os post' s := by
  intro is hlen ha
  have ha' : Admits step ok s is := by
    clear hlen h
    induction is generalizing s with
    | nil => trivial
    | cons i is ih => exact ⟨hok s i ha.1, ih ha.2⟩
  exact (h is hlen ha').imp_right (hpost _)

/-- A counter that runs down by one every cycle shows the same output until it
has run out. -/
theorem countdown {P : Nat → S → Prop} {quiet : O}
    (tick : ∀ n t i, P (n + 1) t → ok t i → out t i = quiet ∧ P n (step t i)) {n : Nat}
    (h : P n s) : Forecast step ok out (List.replicate n quiet) (P 0) s := by
  induction n generalizing s with
  | zero => exact nil h
  | succ n ih => exact cons fun i hi => (tick n s i h hi).imp_right ih

end Forecast

end SyncMachine
