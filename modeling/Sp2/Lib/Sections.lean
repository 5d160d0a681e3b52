import Mathlib.Data.Fintype.Defs
import Sp2.Lib.History

/-!
Steps that take time.

A step of a machine may stand for a section of many accesses to its state, which a process enters
before the step and which others may disturb until it is over.

* `Sections`: the steps that are sections, and those that disturb none.
* `sectionedStep`: a machine with the processes that are in a section.
* `Unbroken`: nothing comes in between while a process is in a section.
* `Run.machine`, `Run.throughout_machine`: **the section rules**. An unbroken run is a run of the
  machine, and what holds throughout the one holds throughout the other.
-/

namespace Transition

variable {σ ε η ι : Type*} [DecidableEq ι]

/-- The process whose section a step is the end of, if it is one, and the steps that disturb no
section. -/
structure Sections (σ ε ι : Type*) where
  process : σ → ε → Option ι
  harmless : ε → Bool

/-- A machine, and the processes that are in a section. -/
structure Sectioned (σ ι : Type*) where
  state : σ
  inside : ι → Bool

/-- A process enters its section, the machine takes a step, or an interrupt comes that is no step of
the machine. -/
inductive SectionEvent (ε ι : Type*)
  | enter (i : ι)
  | step (e : ε)
  | interrupt

/-- The steps of the machine. -/
def SectionEvent.steps : SectionEvent ε ι → List ε
  | .step e => [e]
  | .enter _ | .interrupt => []

/-- No process is in a section. -/
def Sectioned.start (ι : Type*) (s : σ) : Sectioned σ ι := ⟨s, fun _ => false⟩

/-- What an event does. A step that is a section is over when it is taken. -/
def sectionedStep (step : σ → ε → Except η σ) (secs : Sections σ ε ι) (x : Sectioned σ ι) :
    SectionEvent ε ι → Except η (Sectioned σ ι)
  | .enter i => .ok { x with inside := Function.update x.inside i true }
  | .step e =>
      match step x.state e with
      | .ok s => .ok ⟨s, fun i => if secs.process x.state e = some i then false else x.inside i⟩
      | .error halt => .error halt
  | .interrupt => .ok x

/-- While a process is in a section nothing happens but its end, and steps that are harmless. -/
def Unbroken (secs : Sections σ ε ι) (x : Sectioned σ ι) : SectionEvent ε ι → Prop
  | .enter _ | .interrupt => ∀ i, x.inside i = false
  | .step e => secs.harmless e ∨ ∀ i, x.inside i = true ↔ secs.process x.state e = some i

instance [Fintype ι] (secs : Sections σ ε ι) (x : Sectioned σ ι) :
    (e : SectionEvent ε ι) → Decidable (Unbroken secs x e)
  | .enter _ | .interrupt => inferInstanceAs (Decidable (∀ i, x.inside i = false))
  | .step e => inferInstanceAs
      (Decidable (_ ∨ ∀ i, x.inside i = true ↔ secs.process x.state e = some i))

/-- The step of the machine meets a condition. -/
def StepMeets (P : σ → ε → Prop) (x : Sectioned σ ι) : SectionEvent ε ι → Prop
  | .step e => P x.state e
  | .enter _ | .interrupt => True

instance (P : σ → ε → Prop) [∀ s e, Decidable (P s e)] (x : Sectioned σ ι) :
    (e : SectionEvent ε ι) → Decidable (StepMeets P x e)
  | .step e => inferInstanceAs (Decidable (P x.state e))
  | .enter _ | .interrupt => inferInstanceAs (Decidable True)

variable {step : σ → ε → Except η σ} {secs : Sections σ ε ι} {P : σ → ε → Prop}
  {P' : Sectioned σ ι → SectionEvent ε ι → Prop} {x x' : Sectioned σ ι} {e : SectionEvent ε ι}
  {es : List (SectionEvent ε ι)} {J : σ → Prop}

/-- An event is a run of the machine, of one step or none. -/
lemma sectionedStep_run (hstep : sectionedStep step secs x e = .ok x') (hP : StepMeets P x e) :
    Run step P x.state e.steps x'.state := by
  cases e with
  | enter i =>
      obtain rfl := Except.ok.inj hstep
      exact .nil _
  | step e =>
      rw [sectionedStep] at hstep
      cases hs : step x.state e with
      | error halt =>
          rw [hs] at hstep
          cases hstep
      | ok s =>
          rw [hs] at hstep
          obtain rfl := Except.ok.inj hstep
          exact .cons hP hs (.nil s)
  | interrupt =>
      obtain rfl := Except.ok.inj hstep
      exact .nil _

/-- A run of the machine with its sections is one of the machine, by induction on the run. -/
theorem Run.machine (h : Run (sectionedStep step secs) P' x es x')
    (hP : ∀ x e, P' x e → StepMeets P x e) :
    Run step P x.state (es.flatMap SectionEvent.steps) x'.state := by
  induction h with
  | nil x => exact .nil x.state
  | cons hallowed hstep _ ih => exact (sectionedStep_run hstep (hP _ _ hallowed)).append ih

/-- What holds in all states of one run holds in all states of the other, by induction on the
run. -/
theorem Run.throughout_machine (h : Run (sectionedStep step secs) P' x es x')
    (hP : ∀ x e, P' x e → StepMeets P x e) :
    Throughout (sectionedStep step secs) P' (fun x => J x.state) x es
      ↔ Throughout step P J x.state (es.flatMap SectionEvent.steps) := by
  induction h with
  | nil x =>
      constructor
      · intro hall es' s' hes hrun
        obtain rfl := List.prefix_nil.mp hes
        rw [run_nil.mp hrun]
        exact hall [] x List.nil_prefix (.nil x)
      · intro hall es' x' hes hrun
        obtain rfl := List.prefix_nil.mp hes
        rw [run_nil.mp hrun]
        exact hall [] x.state List.nil_prefix (.nil _)
  | @cons x y x' e es hallowed hstep _ ih =>
      rw [throughout_cons hallowed hstep, List.flatMap_cons, ih]
      have hrun := sectionedStep_run hstep (hP _ _ hallowed)
      cases e with
      | step e =>
          obtain ⟨s, hPs, hs, hrest⟩ := run_cons.mp hrun
          rw [run_nil.mp hrest]
          exact (throughout_cons hPs hs).symm
      | enter i | interrupt =>
          rw [← run_nil.mp hrun]
          exact and_iff_right_of_imp fun hall => hall [] _ List.nil_prefix (.nil _)

end Transition
