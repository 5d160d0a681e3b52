import Sp2.Lib.Transition

/-!
What flows through a run.

* `gather`: what an observer notes at each step of a run, put together in order.
* `Run.conserves`: **the flow rule**. If at every step what comes out followed by what is
  left is what was there followed by what goes in, then so it is over the whole run.
* `Run.accumulates`: the case in which nothing comes out.
* `Run.backwards`: what cannot be regained once it is lost held all along if it holds in
  the end, and may be assumed of every step.
* `Run.observed`: what holds of everything that is noted holds at each step.
* `Run.simulates`: **the simulation rule**. If every step is a run of another machine, of the events
  that an observer notes, then so is the whole run.
-/

namespace Transition

variable {σ ε η β γ : Type*} {step : σ → ε → Except η σ} {P : σ → ε → Prop}
  {s s' : σ} {e : ε} {es : List ε} {I Q : σ → Prop}

/-- What an observer notes at the steps of a run, in order; it sees the state before the
step and the event. -/
def gather (step : σ → ε → Except η σ) (obs : σ → ε → List β) : σ → List ε → List β
  | _, [] => []
  | s, e :: es =>
      obs s e ++ match step s e with
        | .ok s' => gather step obs s' es
        | .error _ => []

variable {obs : σ → ε → List β}

@[simp] lemma gather_nil : gather step obs s [] = [] := rfl

lemma gather_cons (h : step s e = .ok s') :
    gather step obs s (e :: es) = obs s e ++ gather step obs s' es := by
  rw [gather, h]

/-- An observer that notes nothing. -/
lemma gather_none (s : σ) (es : List ε) : gather step (fun _ _ => ([] : List β)) s es = [] := by
  induction es generalizing s with
  | nil => rfl
  | cons e es ih =>
      rw [gather]
      cases step s e with
      | ok s' => exact ih s'
      | error _ => rfl

/-- What is noted of each observation may be noted of all of them. -/
lemma map_gather (f : β → γ) (s : σ) (es : List ε) :
    (gather step obs s es).map f = gather step (fun s e => (obs s e).map f) s es := by
  induction es generalizing s with
  | nil => rfl
  | cons e es ih =>
      rw [gather, gather, List.map_append]
      cases step s e with
      | ok s' => exact congrArg _ (ih s')
      | error _ => rfl

/-- **The flow rule**, by induction on the run. -/
theorem Run.conserves (out inp : σ → ε → List β) (content : σ → List β)
    (h : Run step P s es s') (hs : I s)
    (hstep : ∀ s e s', I s → P s e → step s e = .ok s' →
      I s' ∧ out s e ++ content s' = content s ++ inp s e) :
    I s' ∧ gather step out s es ++ content s' = content s ++ gather step inp s es := by
  induction h with
  | nil s => exact ⟨hs, by simp⟩
  | @cons s s₁ s' e es hP he _ ih =>
      obtain ⟨hI, hflow⟩ := hstep _ _ _ hs hP he
      obtain ⟨hI', hrest⟩ := ih hI
      refine ⟨hI', ?_⟩
      rw [gather_cons he, gather_cons he]
      calc out s e ++ gather step out s₁ es ++ content s'
          = out s e ++ (content s₁ ++ gather step inp s₁ es) := by
            rw [List.append_assoc, hrest]
        _ = content s ++ inp s e ++ gather step inp s₁ es := by
            rw [← List.append_assoc, hflow]
        _ = content s ++ (inp s e ++ gather step inp s₁ es) := List.append_assoc _ _ _

/-- The flow rule for what only accumulates. -/
lemma Run.accumulates (inp : σ → ε → List β) (content : σ → List β)
    (h : Run step P s es s') (hs : I s)
    (hstep : ∀ s e s', I s → P s e → step s e = .ok s' →
      I s' ∧ content s' = content s ++ inp s e) :
    I s' ∧ content s' = content s ++ gather step inp s es := by
  have hflow := h.conserves (fun _ _ => []) inp content hs hstep
  rwa [gather_none, List.nil_append] at hflow

/-- What cannot be regained once it is lost, and holds in the end, held all along, by
induction on the run. -/
lemma Run.backwards (h : Run step P s es s') (hs : I s) (hQ : Q s')
    (hstep : ∀ s e s', I s → P s e → step s e = .ok s' → I s' ∧ (Q s' → Q s)) :
    Q s ∧ Run step (fun s e => P s e ∧ ∀ s', step s e = .ok s' → Q s') s es s' := by
  induction h with
  | nil s => exact ⟨hQ, .nil s⟩
  | @cons s s₁ s' e es hP he _ ih =>
      obtain ⟨hI, hback⟩ := hstep _ _ _ hs hP he
      obtain ⟨hQ₁, hrun⟩ := ih hI hQ
      refine ⟨hback hQ₁, .cons ⟨hP, fun t ht => ?_⟩ he hrun⟩
      obtain rfl : s₁ = t := Except.ok.inj (he.symm.trans ht)
      exact hQ₁

/-- What holds of everything an observer notes holds at each step. -/
lemma Run.observed {p : β → Prop} (h : Run step P s es s')
    (hp : ∀ b ∈ gather step obs s es, p b) :
    Run step (fun s e => P s e ∧ ∀ b ∈ obs s e, p b) s es s' := by
  induction h with
  | nil s => exact .nil s
  | @cons s s₁ s' e es hP he _ ih =>
      rw [gather_cons he, List.forall_mem_append] at hp
      exact .cons ⟨hP, hp.1⟩ he (ih hp.2)

/-- **The simulation rule**, by induction on the run. -/
theorem Run.simulates {τ θ : Type*} {step' : τ → β → Except θ τ} {P' : τ → β → Prop}
    (R : σ → τ → Prop) {a : τ} (h : Run step P s es s') (hs : R s a)
    (hstep : ∀ s e s' a, R s a → P s e → step s e = .ok s' →
      ∃ a', Run step' P' a (obs s e) a' ∧ R s' a') :
    ∃ a', Run step' P' a (gather step obs s es) a' ∧ R s' a' := by
  induction h generalizing a with
  | nil s => exact ⟨a, .nil a, hs⟩
  | @cons s s₁ s' e es hP he _ ih =>
      obtain ⟨a₁, hrun₁, hR₁⟩ := hstep _ _ _ _ hs hP he
      obtain ⟨a', hrun, hR⟩ := ih hR₁
      refine ⟨a', ?_, hR⟩
      rw [gather_cons he]
      exact hrun₁.append hrun

end Transition
