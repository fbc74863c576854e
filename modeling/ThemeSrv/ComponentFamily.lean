import Mathlib.Logic.Function.Basic
import ThemeSrv.TransitionSystem

/-!
# Families of independent components

Any number of components of one kind, found by keys.  Each of them starts under
a key that has not been used, and goes on by itself whenever it is its turn.
-/

namespace ComponentFamily

open TransitionSystem

variable {Key State : Type*} [DecidableEq Key]

/-- No component has been started. -/
def Empty (family : Key → Option State) : Prop :=
  ∀ key, family key = none

/-- One component starts, or one component takes a step, as its key has it. -/
inductive Step (start : State → Prop) (step : Key → State → State → Prop) :
    (Key → Option State) → (Key → Option State) → Prop
  | started (family : Key → Option State) (key : Key) (state : State)
      (unused : family key = none) (starts : start state) :
      Step start step family (Function.update family key (some state))
  | advanced (family : Key → Option State) (key : Key) (source target : State)
      (found : family key = some source) (next : step key source target) :
      Step start step family (Function.update family key (some target))

variable {start : State → Prop} {step : Key → State → State → Prop}

/-- A property of all components. -/
def All (property : Key → State → Prop) (family : Key → Option State) : Prop :=
  ∀ key state, family key = some state → property key state

theorem All.update {property : Key → State → Prop} {family : Key → Option State}
    (holds : All property family) (key : Key) {state : State} (new : property key state) :
    All property (Function.update family key (some state)) := by
  intro other state' found
  by_cases same : other = key
  · subst same
    rw [Function.update_self] at found
    cases found
    exact new
  · rw [Function.update_of_ne same] at found
    exact holds other state' found

/-- Every component of a family has a run of its own. -/
theorem component_reachable {family : Key → Option State}
    (reached : Reachable Empty (Step start step) family) :
    All (fun key => Reachable start (step key)) family := by
  apply reached.invariant
  · intro first empty key state component
    rw [empty key] at component
    cases component
  · intro before behind runs next
    cases next with
    | started key state unused starts => exact runs.update key (reachable_start starts)
    | advanced key source target found next =>
        exact runs.update key ((runs key source found).tail next)

end ComponentFamily
