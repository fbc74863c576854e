import Mathlib.Logic.Relation

/-!
# Runs of transition systems

A run starts in one of the initial states and takes any number of steps.
What holds initially and is kept by every step holds in every state a run
reaches; a run may also be restricted to steps whose source meets a guard, and
it may be followed by the run of an abstract system.
-/

namespace TransitionSystem

variable {State : Type*} {start : State → Prop} {step : State → State → Prop}

/-- The states that runs reach. -/
def Reachable (start : State → Prop) (step : State → State → Prop) (state : State) : Prop :=
  ∃ first, start first ∧ Relation.ReflTransGen step first state

/-- Steps from states that meet a guard. -/
def Guarded (guard : State → Prop) (step : State → State → Prop) (source target : State) : Prop :=
  guard source ∧ step source target

theorem reachable_start {state : State} (starts : start state) : Reachable start step state :=
  ⟨state, starts, .refl⟩

theorem Reachable.tail {source target : State} (reached : Reachable start step source)
    (next : step source target) : Reachable start step target := by
  obtain ⟨first, starts, steps⟩ := reached
  exact ⟨first, starts, steps.tail next⟩

theorem Reachable.append {source target : State} (reached : Reachable start step source)
    (steps : Relation.ReflTransGen step source target) : Reachable start step target := by
  obtain ⟨first, starts, before⟩ := reached
  exact ⟨first, starts, before.trans steps⟩

theorem kept_of_steps {invariant : State → Prop}
    (kept : ∀ source target, invariant source → step source target → invariant target)
    {source target : State} (steps : Relation.ReflTransGen step source target)
    (holds : invariant source) : invariant target := by
  induction steps with
  | refl => exact holds
  | tail _ next ih => exact kept _ _ ih next

/-- The invariant rule. -/
theorem Reachable.invariant {invariant : State → Prop}
    (initial : ∀ state, start state → invariant state)
    (kept : ∀ source target, invariant source → step source target → invariant target)
    {state : State} (reached : Reachable start step state) : invariant state := by
  obtain ⟨first, starts, steps⟩ := reached
  exact kept_of_steps kept steps (initial first starts)

/-- The simulation rule: an abstract run goes along with the run of the
system, whose invariants may be used at every step. -/
theorem Reachable.simulated {Abstract : Type*} {abstractStart : Abstract → Prop}
    {abstractStep : Abstract → Abstract → Prop} {represents : State → Abstract → Prop}
    (initial : ∀ state, start state → ∃ abstract, abstractStart abstract ∧ represents state abstract)
    (simulates : ∀ source target abstract, Reachable start step source →
      represents source abstract → step source target →
      ∃ next, Relation.ReflTransGen abstractStep abstract next ∧ represents target next)
    {state : State} (reached : Reachable start step state) :
    ∃ abstract, Reachable abstractStart abstractStep abstract ∧ represents state abstract := by
  obtain ⟨first, starts, steps⟩ := reached
  induction steps with
  | refl =>
      obtain ⟨abstract, abstractStarts, represented⟩ := initial first starts
      exact ⟨abstract, reachable_start abstractStarts, represented⟩
  | tail before next ih =>
      obtain ⟨abstract, abstractReached, represented⟩ := ih
      obtain ⟨abstract', abstractSteps, represented'⟩ :=
        simulates _ _ abstract ⟨first, starts, before⟩ represented next
      exact ⟨abstract', abstractReached.append abstractSteps, represented'⟩

theorem Reachable.of_guarded {guard : State → Prop} {state : State}
    (reached : Reachable start (Guarded guard step) state) : Reachable start step state := by
  obtain ⟨first, starts, steps⟩ := reached
  exact ⟨first, starts, Relation.ReflTransGen.mono (fun _ _ next => next.2) _ _ steps⟩

theorem unguarded {source target : State} (steps : Relation.ReflTransGen step source target) :
    Relation.ReflTransGen (Guarded (fun _ => True) step) source target :=
  Relation.ReflTransGen.mono (fun _ _ next => ⟨trivial, next⟩) _ _ steps

end TransitionSystem
