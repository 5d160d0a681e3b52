import Mathlib.Algebra.Ring.Nat
import Sp2.Lib.Transition

/-!
Bounded progress.

* `Run.reaches`: **the rule for bounded progress**. If every event either reaches the goal or costs
  its weight of a measure, a run whose events weigh more than the measure of its first state goes
  through a state of the goal.
* `Run.gains`: if every event adds its weight to a measure, up to a bound, so does a run.
-/

namespace Transition

variable {σ ε η : Type*} {step : σ → ε → Except η σ} {P : σ → ε → Prop} {s s' : σ} {e : ε}
  {es : List ε} {I G : σ → Prop} {m : σ → ℕ} {w : ε → ℕ}

/-- **The rule for bounded progress**, by induction on the run. -/
theorem Run.reaches (h : Run step P s es s') (hs : I s)
    (hstep : ∀ s e s', I s → P s e → step s e = .ok s' → G s' ∨ I s' ∧ m s' + w e ≤ m s)
    (hw : m s < (es.map w).sum) :
    ∃ es₁ s₁, es₁ <+: es ∧ Run step P s es₁ s₁ ∧ G s₁ := by
  induction h with
  | nil s => exact absurd hw (by simp)
  | @cons s s₁ s' e es hP he _ ih =>
      rcases hstep s e s₁ hs hP he with hG | ⟨hI, hle⟩
      · exact ⟨[e], s₁, List.cons_prefix_cons.mpr ⟨rfl, List.nil_prefix⟩,
          .cons hP he (.nil s₁), hG⟩
      · rw [List.map_cons, List.sum_cons] at hw
        obtain ⟨es₁, s₂, hes, hrun, hG⟩ := ih hI (by omega)
        exact ⟨e :: es₁, s₂, List.cons_prefix_cons.mpr ⟨rfl, hes⟩, .cons hP he hrun, hG⟩

/-- Events that weigh one are counted. -/
lemma sum_map_weight (p : ε → Prop) [DecidablePred p] (es : List ε) :
    (es.map fun e => if p e then 1 else 0).sum = es.countP (p ·) := by
  induction es with
  | nil => rfl
  | cons e es ih =>
      rw [List.map_cons, List.sum_cons, ih, List.countP_cons, Nat.add_comm]
      simp only [decide_eq_true_eq]

/-- **What a run gains**, up to a bound, by induction on the run. -/
theorem Run.gains {bound : ℕ} (h : Run step P s es s') (hs : I s)
    (hstep : ∀ s e s', I s → P s e → step s e = .ok s' → I s' ∧ min (m s + w e) bound ≤ m s') :
    I s' ∧ min (m s + (es.map w).sum) bound ≤ m s' := by
  induction h with
  | nil s => exact ⟨hs, Nat.min_le_left _ _⟩
  | @cons s s₁ s' e es hP he _ ih =>
      obtain ⟨hI, hfirst⟩ := hstep s e s₁ hs hP he
      obtain ⟨hI', hrest⟩ := ih hI
      rw [List.map_cons, List.sum_cons]
      exact ⟨hI', by omega⟩

end Transition
