import Sp2.Lib.Flow

/-!
What has happened in a run.

* `Taken`, `trace`: the steps of a run, each with the states before and after it.
* `Run.history`: **the history rule**, the invariant rule for what speaks of a state and of
  the steps that led to it.
* `Run.always_iff`: **the rule for equivalences**. Where a step keeps a property exactly if it
  meets a condition, a run keeps it throughout exactly if all its steps do.
* `noted`, `throughout_noted`: a machine with notes of its steps beside its state.
* `Since on off`: something of `on` has happened, and nothing of `off` after it.
-/

namespace Transition

variable {σ ε η β : Type*} {step : σ → ε → Except η σ} {P : σ → ε → Prop} {s s' : σ} {e : ε}
  {es : List ε}

/-- A step that has been taken. -/
structure Taken (σ ε : Type*) where
  before : σ
  event : ε
  after : σ

/-- The step from a state, if the machine does not stop there. -/
def taken (step : σ → ε → Except η σ) (s : σ) (e : ε) : List (Taken σ ε) :=
  match step s e with
  | .ok s' => [⟨s, e, s'⟩]
  | .error _ => []

/-- The steps of a run, in order. -/
def trace (step : σ → ε → Except η σ) : σ → List ε → List (Taken σ ε) :=
  gather step (taken step)

@[simp] lemma trace_nil : trace step s [] = [] := rfl

lemma trace_cons (h : step s e = .ok s') :
    trace step s (e :: es) = ⟨s, e, s'⟩ :: trace step s' es := by
  rw [trace, gather_cons h, taken, h]
  rfl

/-- The steps of a run are those of its events. -/
lemma event_of_mem_trace {t : Taken σ ε} (h : t ∈ trace step s es) : t.event ∈ es := by
  induction es generalizing s with
  | nil => exact absurd h (by simp)
  | cons e es ih =>
      cases hstep : step s e with
      | ok s' =>
          rw [trace_cons hstep, List.mem_cons] at h
          rcases h with rfl | h
          · exact List.mem_cons_self
          · exact List.mem_cons_of_mem e (ih h)
      | error _ =>
          rw [trace, gather, taken, hstep] at h
          exact absurd h (by simp)

/-- The history rule with the steps taken before the run. -/
lemma Run.history_append (J : List (Taken σ ε) → σ → Prop) (h : Run step P s es s')
    (hstep : ∀ l s e s', J l s → P s e → step s e = .ok s' → J (l ++ [⟨s, e, s'⟩]) s')
    (l : List (Taken σ ε)) (hs : J l s) : J (l ++ trace step s es) s' := by
  induction h generalizing l with
  | nil s => simpa using hs
  | @cons s s₁ s' e es hP he _ ih =>
      have hJ := ih _ (hstep l s e s₁ hs hP he)
      rwa [List.append_assoc, List.singleton_append, ← trace_cons he] at hJ

/-- **The history rule**, by induction on the run. -/
theorem Run.history (J : List (Taken σ ε) → σ → Prop) (h : Run step P s es s') (hs : J [] s)
    (hstep : ∀ l s e s', J l s → P s e → step s e = .ok s' → J (l ++ [⟨s, e, s'⟩]) s') :
    J (trace step s es) s' := by
  simpa using h.history_append J hstep [] hs

/-- The property holds in the states that a run goes through, the first and the last included. -/
def Throughout (step : σ → ε → Except η σ) (P : σ → ε → Prop) (J : σ → Prop) (s : σ)
    (es : List ε) : Prop :=
  ∀ es' s', es' <+: es → Run step P s es' s' → J s'

lemma throughout_cons {J : σ → Prop} (hP : P s e) (he : step s e = .ok s') :
    Throughout step P J s (e :: es) ↔ J s ∧ Throughout step P J s' es := by
  constructor
  · intro h
    refine ⟨h [] s (List.nil_prefix) (.nil s), fun es' t hes ht => ?_⟩
    exact h (e :: es') t (List.cons_prefix_cons.mpr ⟨rfl, hes⟩) (.cons hP he ht)
  · rintro ⟨hs, h⟩ es' t hes ht
    cases es' with
    | nil => rwa [run_nil.mp ht]
    | cons e' es' =>
        obtain ⟨rfl, hes'⟩ := List.cons_prefix_cons.mp hes
        obtain ⟨u, -, he', ht'⟩ := run_cons.mp ht
        obtain rfl : s' = u := Except.ok.inj (he.symm.trans he')
        exact h es' t hes' ht'

/-- **The rule for equivalences**, by induction on the run: a step keeps the invariant if it
meets the condition, and what follows from the invariant shows that it has met it. -/
theorem Run.always_iff_of {I J : σ → Prop} {ok : σ → ε → Prop} (h : Run step P s es s')
    (hs : I s) (hIJ : ∀ s, I s → J s)
    (hstep : ∀ s e s', I s → P s e → step s e = .ok s' → (J s' → ok s e) ∧ (ok s e → I s')) :
    Throughout step P J s es ↔ ∀ t ∈ trace step s es, ok t.before t.event := by
  induction h with
  | nil s =>
      refine iff_of_true (fun es' s' hes h => ?_) (by simp)
      obtain rfl := List.prefix_nil.mp hes
      rw [run_nil.mp h]
      exact hIJ s hs
  | @cons s s₁ s' e es hP he hrest ih =>
      rw [throughout_cons hP he, trace_cons he, List.forall_mem_cons, and_iff_right (hIJ s hs)]
      obtain ⟨hback, hkeep⟩ := hstep s e s₁ hs hP he
      constructor
      · intro hall
        have hok : ok s e := hback (hall [] s₁ List.nil_prefix (.nil s₁))
        exact ⟨hok, (ih (hkeep hok)).mp hall⟩
      · rintro ⟨hok, hall⟩
        exact (ih (hkeep hok)).mpr hall

/-- The rule for equivalences where the property is its own invariant. -/
theorem Run.always_iff {J : σ → Prop} {ok : σ → ε → Prop} (h : Run step P s es s') (hs : J s)
    (hstep : ∀ s e s', J s → P s e → step s e = .ok s' → (J s' ↔ ok s e)) :
    Throughout step P J s es ↔ ∀ t ∈ trace step s es, ok t.before t.event :=
  h.always_iff_of hs (fun _ => id) fun s e s' hs hP he =>
    ⟨(hstep s e s' hs hP he).mp, (hstep s e s' hs hP he).mpr⟩

/-! ### Notes beside the state -/

section Noted

variable {γ : Type*} {note : σ → ε → γ → γ} {n : γ} {x x' : σ × γ}

/-- The machine with notes beside its state. No step depends on them. -/
def noted (step : σ → ε → Except η σ) (note : σ → ε → γ → γ) (x : σ × γ) (e : ε) :
    Except η (σ × γ) :=
  (step x.1 e).map fun s' => (s', note x.1 e x.2)

lemma noted_ok : noted step note x e = .ok x' ↔ step x.1 e = .ok x'.1 ∧ note x.1 e x.2 = x'.2 := by
  rw [noted]
  cases step x.1 e with
  | ok s' => simp [Except.map, Prod.ext_iff]
  | error _ => simp [Except.map]

lemma Run.of_noted (h : Run (noted step note) (fun x e => P x.1 e) x es x') :
    Run step P x.1 es x'.1 := by
  induction h with
  | nil x => exact .nil x.1
  | cons hP he _ ih => exact .cons hP (noted_ok.mp he).1 ih

/-- Every run can be noted. -/
lemma Run.exists_noted (h : Run step P s es s') (note : σ → ε → γ → γ) (n : γ) :
    ∃ n', Run (noted step note) (fun x e => P x.1 e) (s, n) es (s', n') := by
  induction h generalizing n with
  | nil s => exact ⟨n, .nil _⟩
  | @cons s s₁ s' e es hP he _ ih =>
      obtain ⟨n', h⟩ := ih (note s e n)
      exact ⟨n', .cons hP (noted_ok.mpr ⟨he, rfl⟩) h⟩

/-- What the notes do not mention holds throughout a run as it does without them. -/
lemma throughout_noted (note : σ → ε → γ → γ) (n : γ) {J : σ → Prop} :
    Throughout (noted step note) (fun x e => P x.1 e) (fun x => J x.1) (s, n) es
      ↔ Throughout step P J s es := by
  constructor
  · intro h es' s' hes hrun
    obtain ⟨n', hrun'⟩ := hrun.exists_noted note n
    exact h es' (s', n') hes hrun'
  · intro h es' x hes hrun
    exact h es' x.1 hes hrun.of_noted

end Noted

/-- Something of `on` has happened, and nothing of `off` after it. -/
def Since (on off : β → Prop) (l : List β) : Prop :=
  ∃ before b after, l = before ++ b :: after ∧ on b ∧ ∀ c ∈ after, ¬ off c

variable {on off : β → Prop} {l : List β} {b : β}

/-- What has never begun does not last. -/
lemma not_since (h : ∀ b ∈ l, ¬ on b) : ¬ Since on off l := by
  rintro ⟨before, b, after, rfl, hon, -⟩
  exact h b (by simp) hon

@[simp] lemma not_since_nil : ¬ Since on off ([] : List β) := not_since (by simp)

/-- The last observation decides, or leaves things as they were. -/
lemma since_concat : Since on off (l ++ [b]) ↔ on b ∨ Since on off l ∧ ¬ off b := by
  constructor
  · rintro ⟨before, c, after, h, hon, hoff⟩
    rcases List.eq_nil_or_concat after with rfl | ⟨after', d, rfl⟩
    · obtain rfl : b = c := List.singleton_inj.mp (List.append_inj_right' h rfl)
      exact Or.inl hon
    · rw [List.concat_eq_append, ← List.cons_append, ← List.append_assoc] at h
      obtain ⟨rfl, hd⟩ := List.append_inj' h rfl
      obtain rfl : b = d := List.singleton_inj.mp hd
      rw [List.concat_eq_append, List.forall_mem_append] at hoff
      exact Or.inr ⟨⟨before, c, after', rfl, hon, hoff.1⟩, hoff.2 b (List.mem_singleton.mpr rfl)⟩
  · rintro (hon | ⟨⟨before, c, after, rfl, hon, hoff⟩, hb⟩)
    · exact ⟨l, b, [], rfl, hon, by simp⟩
    · refine ⟨before, c, after ++ [b], by simp, hon, ?_⟩
      rw [List.forall_mem_append]
      exact ⟨hoff, fun d hd => List.mem_singleton.mp hd ▸ hb⟩

/-- An observation that is neither changes nothing. -/
lemma since_concat_other (hon : ¬ on b) (hoff : ¬ off b) :
    Since on off (l ++ [b]) ↔ Since on off l := by
  rw [since_concat, or_iff_right hon, and_iff_left hoff]

end Transition
