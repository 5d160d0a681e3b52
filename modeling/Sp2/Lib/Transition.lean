import Mathlib.Tactic.Common

/-!
Runs of a deterministic transition function that may stop.

`step s e` is the state after the event `e`, or an error when the machine stops there.

* `Run step P s es s'`: the events `es` lead from `s` to `s'` without stopping, and
  every step taken satisfies the condition `P` on the state before it and its event.
* `Run.invariant`: what every allowed step preserves holds at the end of a run.
* `Run.append`, `Run.mono`: runs compose, and may be read under a weaker condition.
* `exec`, `run_iff_exec`: a run under a decidable condition can be carried out.
* `Reachable step P I s`: a run from a state of `I` ends in `s`; `Reachable.invariant`
  is the induction over it.
-/

namespace Transition

variable {σ ε η : Type*} {step : σ → ε → Except η σ} {P Q : σ → ε → Prop}
  {s s' s'' : σ} {e : ε} {es es' : List ε} {I J : σ → Prop}

/-- The events lead from one state to the other, every step taken being allowed. -/
inductive Run (step : σ → ε → Except η σ) (P : σ → ε → Prop) : σ → List ε → σ → Prop
  | nil (s : σ) : Run step P s [] s
  | cons {s s' s'' : σ} {e : ε} {es : List ε} (allowed : P s e) (next : step s e = .ok s')
      (rest : Run step P s' es s'') : Run step P s (e :: es) s''

/-- The states a run from `I` ends in. -/
def Reachable (step : σ → ε → Except η σ) (P : σ → ε → Prop) (I : σ → Prop) (s : σ) : Prop :=
  ∃ s₀ es, I s₀ ∧ Run step P s₀ es s

@[simp] lemma run_nil : Run step P s [] s' ↔ s' = s := by
  constructor
  · rintro ⟨⟩
    rfl
  · rintro rfl
    exact .nil _

lemma run_cons :
    Run step P s (e :: es) s'' ↔ ∃ s', P s e ∧ step s e = .ok s' ∧ Run step P s' es s'' := by
  constructor
  · rintro (_ | ⟨hP, hs, h⟩)
    exact ⟨_, hP, hs, h⟩
  · rintro ⟨s', hP, hs, h⟩
    exact .cons hP hs h

lemma Run.append (h : Run step P s es s') (h' : Run step P s' es' s'') :
    Run step P s (es ++ es') s'' := by
  induction h with
  | nil _ => exact h'
  | cons hP hs _ ih => exact .cons hP hs (ih h')

lemma Run.mono (h : Run step P s es s') (hPQ : ∀ s e, P s e → Q s e) : Run step Q s es s' := by
  induction h with
  | nil s => exact .nil s
  | cons hP hs _ ih => exact .cons (hPQ _ _ hP) hs ih

/-- What every allowed step preserves holds at the end of a run. -/
theorem Run.invariant (h : Run step P s es s') (hs : I s)
    (hstep : ∀ s e s', I s → P s e → step s e = .ok s' → I s') : I s' := by
  induction h with
  | nil _ => exact hs
  | cons hP he _ ih => exact ih (hstep _ _ _ hs hP he)

section Exec

/-- Carry out a list of events; none if the machine stops or a step is not allowed. -/
def exec (step : σ → ε → Except η σ) (P : σ → ε → Prop) [∀ s e, Decidable (P s e)] :
    σ → List ε → Option σ
  | s, [] => some s
  | s, e :: es =>
      if P s e then
        match step s e with
        | .ok s' => exec step P s' es
        | .error _ => none
      else none

variable [∀ s e, Decidable (P s e)]

lemma run_iff_exec : Run step P s es s' ↔ exec step P s es = some s' := by
  induction es generalizing s with
  | nil => simp [exec, eq_comm]
  | cons e es ih =>
      rw [run_cons, exec]
      by_cases hP : P s e
      · rw [if_pos hP]
        cases hs : step s e with
        | ok t => simp [hP, ih]
        | error _ => simp
      · simp [hP]

/-- A run is found by carrying it out and looking at what it ends in. -/
lemma exists_run (step : σ → ε → Except η σ) (P : σ → ε → Prop) [∀ s e, Decidable (P s e)]
    (s : σ) (es : List ε) {β : Type*} {f : σ → β} {b : β}
    (h : (exec step P s es).map f = some b) :
    ∃ s', Run step P s es s' ∧ f s' = b := by
  obtain ⟨s', hs', hb⟩ := Option.map_eq_some_iff.mp h
  exact ⟨s', run_iff_exec.mpr hs', hb⟩

end Exec

lemma Reachable.mono (h : Reachable step P I s) (hPQ : ∀ s e, P s e → Q s e) :
    Reachable step Q I s := by
  obtain ⟨s₀, es, h₀, h⟩ := h
  exact ⟨s₀, es, h₀, h.mono hPQ⟩

lemma Reachable.of_init (h : I s) : Reachable step P I s := ⟨s, [], h, .nil s⟩

lemma Reachable.run (h : Reachable step P I s) (hr : Run step P s es s') :
    Reachable step P I s' := by
  obtain ⟨s₀, es₀, h₀, h⟩ := h
  exact ⟨s₀, es₀ ++ es, h₀, h.append hr⟩

/-- **The invariant rule**: what holds initially and is preserved by every allowed step
holds in every reachable state. -/
theorem Reachable.invariant (h : Reachable step P I s) (hI : ∀ s, I s → J s)
    (hstep : ∀ s e s', J s → P s e → step s e = .ok s' → J s') : J s := by
  obtain ⟨s₀, es, h₀, h⟩ := h
  exact h.invariant (hI s₀ h₀) hstep

end Transition
