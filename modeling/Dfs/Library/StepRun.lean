import Mathlib.Data.List.Basic

/-!
# Runs of a deterministic step function

A run folds a step function over a list of events.  `AllSteps` says that a
condition on the state before each step and on its event holds along the
whole run, and the invariant rule below is the only induction over runs that
a development needs.
-/

namespace StepRun

variable {σ ε : Type}

def run (step : σ → ε → σ) (start : σ) (events : List ε) : σ :=
  events.foldl step start

/-- The condition holds at every step, in the state that step is taken from. -/
def AllSteps (step : σ → ε → σ) (condition : σ → ε → Prop) :
    σ → List ε → Prop
  | _, [] => True
  | state, event :: events =>
      condition state event ∧ AllSteps step condition (step state event) events

instance AllSteps.decidable (step : σ → ε → σ) (condition : σ → ε → Prop)
    [decide : ∀ state event, Decidable (condition state event)] :
    ∀ start events, Decidable (AllSteps step condition start events)
  | _, [] => inferInstanceAs (Decidable True)
  | state, event :: events =>
      have := AllSteps.decidable step condition (step state event) events
      inferInstanceAs (Decidable (_ ∧ _))

variable {step : σ → ε → σ} {condition : σ → ε → Prop}

@[simp] theorem run_nil (start : σ) : run step start [] = start := rfl

@[simp] theorem run_cons (start : σ) (event : ε) (events : List ε) :
    run step start (event :: events) = run step (step start event) events :=
  rfl

@[simp] theorem run_append (start : σ) (first second : List ε) :
    run step start (first ++ second) =
      run step (run step start first) second :=
  List.foldl_append

@[simp] theorem allSteps_nil (start : σ) :
    AllSteps step condition start [] :=
  trivial

@[simp] theorem allSteps_cons (start : σ) (event : ε) (events : List ε) :
    AllSteps step condition start (event :: events) ↔
      condition start event ∧
        AllSteps step condition (step start event) events :=
  Iff.rfl

theorem allSteps_append (start : σ) (first second : List ε) :
    AllSteps step condition start (first ++ second) ↔
      AllSteps step condition start first ∧
        AllSteps step condition (run step start first) second := by
  induction first generalizing start with
  | nil => simp
  | cons event events ih => simp [ih, and_assoc]

theorem allSteps_congr {other : σ → ε → Prop}
    (same : ∀ state event, condition state event ↔ other state event)
    (start : σ) (events : List ε) :
    AllSteps step condition start events ↔
      AllSteps step other start events := by
  induction events generalizing start with
  | nil => rfl
  | cons event events ih => exact and_congr (same start event) (ih _)

theorem allSteps_imp {other : σ → ε → Prop}
    (weaker : ∀ state event, condition state event → other state event)
    {start : σ} {events : List ε}
    (steps : AllSteps step condition start events) :
    AllSteps step other start events := by
  induction events generalizing start with
  | nil => trivial
  | cons event events ih => exact ⟨weaker start event steps.1, ih steps.2⟩

theorem allSteps_of_forall
    (always : ∀ state event, condition state event) (start : σ)
    (events : List ε) : AllSteps step condition start events := by
  induction events generalizing start with
  | nil => trivial
  | cons event events ih => exact ⟨always start event, ih _⟩

theorem allSteps_of_mem {allowed : ε → Prop} (start : σ) {events : List ε}
    (each : ∀ event ∈ events, allowed event) :
    AllSteps step (fun _ event => allowed event) start events := by
  induction events generalizing start with
  | nil => trivial
  | cons event events ih =>
      exact ⟨each event (by simp),
        ih _ fun other member => each other (by simp [member])⟩

/-- A property preserved by every step that meets the condition holds at the
end of every run all of whose steps meet it. -/
theorem invariant {Inv : σ → Prop}
    (preserved : ∀ state event, Inv state → condition state event →
      Inv (step state event))
    {start : σ} {events : List ε} (initially : Inv start)
    (steps : AllSteps step condition start events) :
    Inv (run step start events) := by
  induction events generalizing start with
  | nil => exact initially
  | cons event events ih =>
      exact ih (preserved start event initially steps.1) steps.2

/-- What no step that meets the condition changes is not changed by a run. -/
theorem kept {β : Type} (seen : σ → β)
    (same : ∀ state event, condition state event →
      seen (step state event) = seen state)
    {start : σ} {events : List ε}
    (steps : AllSteps step condition start events) :
    seen (run step start events) = seen start := by
  have unchanged : ∀ state event, seen state = seen start →
      condition state event → seen (step state event) = seen start :=
    fun state event before met => (same state event met).trans before
  exact invariant unchanged rfl steps

/-- Two conditions that agree wherever an invariant holds hold along the same
runs. -/
theorem allSteps_iff_of_invariant {Inv : σ → Prop} {allowed : ε → Prop}
    {other : σ → ε → Prop}
    (preserved : ∀ state event, Inv state → allowed event →
      condition state event → Inv (step state event))
    (same : ∀ state event, Inv state → allowed event →
      (other state event ↔ condition state event))
    {start : σ} {events : List ε} (initially : Inv start)
    (each : ∀ event ∈ events, allowed event) :
    AllSteps step other start events ↔
      AllSteps step condition start events := by
  induction events generalizing start with
  | nil => rfl
  | cons event events ih =>
      have now := each event (by simp)
      have later := fun next member => each next (List.mem_cons_of_mem _ member)
      rw [allSteps_cons, allSteps_cons, same start event initially now]
      exact and_congr_right fun met =>
        ih (preserved start event initially now met) later

/-- If a step from a good state leads to a state with the property exactly when
it meets the condition, and is good again then, all states of a run have the
property if and only if all its steps meet the condition. -/
theorem forall_prefix_iff {Inv Holds : σ → Prop} {allowed : ε → Prop}
    (holds : ∀ state, Inv state → Holds state)
    (preserved : ∀ state event, Inv state → allowed event →
      condition state event → Inv (step state event))
    (needed : ∀ state event, Inv state → allowed event →
      Holds (step state event) → condition state event)
    {start : σ} {events : List ε} (initially : Inv start)
    (each : ∀ event ∈ events, allowed event) :
    (∀ before, before <+: events → Holds (run step start before)) ↔
      AllSteps step condition start events := by
  induction events generalizing start with
  | nil =>
      refine ⟨fun _ => trivial, ?_⟩
      intro _ before part
      rw [List.prefix_nil.mp part]
      exact holds start initially
  | cons event events ih =>
      have now := each event List.mem_cons_self
      have later := fun next member => each next (List.mem_cons_of_mem _ member)
      rw [allSteps_cons]
      constructor
      · intro always
        have first := always [event] ⟨events, rfl⟩
        have met := needed start event initially now first
        refine ⟨met, ?_⟩
        apply (ih (preserved start event initially now met) later).mp
        intro before part
        exact always (event :: before) (List.cons_prefix_cons.mpr ⟨rfl, part⟩)
      · rintro ⟨met, rest⟩ before part
        cases before with
        | nil => exact holds start initially
        | cons head before =>
            obtain ⟨rfl, inner⟩ := List.cons_prefix_cons.mp part
            exact (ih (preserved start head initially now met) later).mpr rest
              before inner

end StepRun
