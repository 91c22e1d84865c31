import Vantara.Foundation.Trail

/-!
# Runs of a partial transition function

A system is a function from a state and an action to the next state, `none`
where the action is not enabled.  Its runs are trails, restricted by a condition
on the state before a step and its action.
-/

namespace Foundation
namespace Transition

variable {σ : Type u} {α : Type v}

/-- The states that actions meeting a condition lead to from a given state. -/
abbrev ReachableWhere
    (step : σ → α → Option σ)
    (allowed : σ → α → Prop)
    (start : σ) : σ → Prop :=
  Trail (fun state action after => step state action = some after) allowed start

/-- The states that any actions lead to. -/
abbrev Reachable (step : σ → α → Option σ) (start : σ) : σ → Prop :=
  ReachableWhere step (fun _ _ => True) start

/-- Perform a list of actions. -/
def run (step : σ → α → Option σ) : σ → List α → Option σ
  | state, [] => some state
  | state, action :: rest => (step state action).bind (run step · rest)

/-- Perform a list of actions as long as each meets a decidable condition. -/
def runWhere
    (step : σ → α → Option σ)
    (allowed : σ → α → Bool) : σ → List α → Option σ
  | state, [] => some state
  | state, action :: rest =>
    if allowed state action then
      (step state action).bind (runWhere step allowed · rest)
    else
      none

/-- A list of actions that can be performed reaches its last state. -/
theorem reachable_of_run
    {step : σ → α → Option σ}
    {actions : List α}
    (performed : run step first actions = some last) :
    Reachable step first last := by
  induction actions generalizing first with
  | nil =>
    cases performed
    exact .start
  | cons action rest ih =>
    obtain ⟨middle, stepped, performedRest⟩ := Option.bind_eq_some_iff.mp performed
    exact Trail.trans (.next .start trivial stepped) (ih performedRest)

theorem reachableWhere_of_runWhere
    {step : σ → α → Option σ}
    {allowed : σ → α → Bool}
    {actions : List α}
    (performed : runWhere step allowed first actions = some last) :
    ReachableWhere step (fun state action => allowed state action = true) first last := by
  induction actions generalizing first with
  | nil =>
    cases performed
    exact .start
  | cons action rest ih =>
    rw [runWhere] at performed
    split_ifs at performed with permitted
    obtain ⟨middle, stepped, performedRest⟩ := Option.bind_eq_some_iff.mp performed
    exact Trail.trans (.next .start permitted stepped) (ih performedRest)

end Transition
end Foundation
