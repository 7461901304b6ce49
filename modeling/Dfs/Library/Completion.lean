import Mathlib.Logic.Relation
import Mathlib.Order.WellFounded

/-!
# Systems that always finish

A system takes its steps in any order.  It completes when no run goes on for
ever and no run stops before a final state; a measure that every step lowers
and a step in every state that is not final show both.  What every step leaves
as it is, is the same in every final state.
-/

namespace Completion

variable {σ ω : Type} {step : σ → σ → Prop} {Final Inv : σ → Prop}

/-- The states that a run can visit. -/
abbrev Reachable (step : σ → σ → Prop) (start state : σ) : Prop :=
  Relation.ReflTransGen step start state

/-- Every run can be continued to a final state, and no run is infinite. -/
structure Completes (step : σ → σ → Prop) (Final : σ → Prop) (start : σ) :
    Prop where
  halts : Acc (fun next state => step state next) start
  proceeds : ∀ state, Reachable step start state →
    Final state ∨ ∃ next, step state next

theorem invariant_of_reachable
    (keeps : ∀ state next, Inv state → step state next → Inv next)
    {start state : σ} (initial : Inv start)
    (reachable : Reachable step start state) : Inv state := by
  induction reachable with
  | refl => exact initial
  | tail _ taken ih => exact keeps _ _ ih taken

theorem completes_of_measure (measure : σ → Nat)
    (keeps : ∀ state next, Inv state → step state next → Inv next)
    (lowers : ∀ state next, Inv state → step state next →
      measure next < measure state)
    (proceeds : ∀ state, Inv state → Final state ∨ ∃ next, step state next)
    {start : σ} (initial : Inv start) : Completes step Final start := by
  refine ⟨?_, fun state reachable =>
    proceeds state (invariant_of_reachable keeps initial reachable)⟩
  induction bound : measure start using Nat.strong_induction_on
    generalizing start with
  | h size ih =>
      refine ⟨start, fun next taken => ?_⟩
      have lower := lowers start next initial taken
      rw [bound] at lower
      exact ih (measure next) lower (keeps start next initial taken) rfl

/-- A function of the state that no step changes. -/
theorem outcome_of_reachable (outcome : σ → ω)
    (keeps : ∀ state next, Inv state → step state next → Inv next)
    (preserves : ∀ state next, Inv state → step state next →
      outcome next = outcome state)
    {start state : σ} (initial : Inv start)
    (reachable : Reachable step start state) :
    outcome state = outcome start := by
  induction reachable with
  | refl => rfl
  | @tail middle last before taken ih =>
      have invariant := invariant_of_reachable keeps initial before
      rw [preserves middle last invariant taken, ih]

end Completion
