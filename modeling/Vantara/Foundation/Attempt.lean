import Mathlib.Tactic.Common

/-!
# Computations that may fail on the way

A computation passes a state along and may fail at any step; the state is then the
one it had reached.  Pre- and postconditions of such computations compose along
`bind`, with one condition for success and one for failure.
-/

namespace Foundation

variable {ε σ : Type u} {α β : Type u}

theorem run_bind_ok
    {program : EStateM ε σ α} {next : α → EStateM ε σ β}
    (ran : program state = .ok value after) :
    (program >>= next) state = next value after := by
  show EStateM.bind program next state = _
  rw [EStateM.bind, ran]

theorem run_bind_error
    {program : EStateM ε σ α} {next : α → EStateM ε σ β}
    (ran : program state = .error error after) :
    (program >>= next) state = .error error after := by
  show EStateM.bind program next state = _
  rw [EStateM.bind, ran]

/-- From every state with the precondition the computation ends in a value and a state
with the postcondition, or fails in a state with the last condition. -/
def Attempt
    (pre : σ → Prop)
    (program : EStateM ε σ α)
    (post : α → σ → Prop)
    (failed : ε → σ → Prop) : Prop :=
  ∀ state, pre state →
    match program state with
    | .ok value after => post value after
    | .error error after => failed error after

namespace Attempt

variable {pre : σ → Prop} {program : EStateM ε σ α} {post : α → σ → Prop}
  {failed : ε → σ → Prop}

theorem pure {value : α} (holds : ∀ state, pre state → post value state) :
    Attempt pre (Pure.pure value) post failed :=
  holds

theorem throw {error : ε} (holds : ∀ state, pre state → failed error state) :
    Attempt pre (MonadExcept.throw error) post failed :=
  holds

theorem bind
    {next : α → EStateM ε σ β} {last : β → σ → Prop}
    (first : Attempt pre program post failed)
    (rest : ∀ value, Attempt (post value) (next value) last failed) :
    Attempt pre (program >>= next) last failed := by
  intro state holds
  have ended := first state holds
  cases result : program state with
  | ok value after =>
    rw [result] at ended
    rw [run_bind_ok result]
    exact rest value after ended
  | error error after =>
    rw [result] at ended
    rw [run_bind_error result]
    exact ended

theorem consequence
    {stronger : σ → Prop} {weaker : α → σ → Prop} {worse : ε → σ → Prop}
    (attempt : Attempt pre program post failed)
    (before : ∀ state, stronger state → pre state)
    (after : ∀ value state, post value state → weaker value state)
    (otherwise : ∀ error state, failed error state → worse error state) :
    Attempt stronger program weaker worse := by
  intro state holds
  have ended := attempt state (before state holds)
  cases result : program state with
  | ok value reached =>
    rw [result] at ended
    exact after value reached ended
  | error error reached =>
    rw [result] at ended
    exact otherwise error reached ended

theorem failing
    {worse : ε → σ → Prop}
    (attempt : Attempt pre program post failed)
    (otherwise : ∀ error state, failed error state → worse error state) :
    Attempt pre program post worse :=
  attempt.consequence (fun _ holds => holds) (fun _ _ holds => holds) otherwise

theorem giving
    {weaker : α → σ → Prop}
    (attempt : Attempt pre program post failed)
    (after : ∀ value state, post value state → weaker value state) :
    Attempt pre program weaker failed :=
  attempt.consequence (fun _ holds => holds) after fun _ _ holds => holds

/-- A fact that does not depend on the state is assumed once. -/
theorem assuming {fact : Prop} (attempt : fact → Attempt pre program post failed) :
    Attempt (fun state => fact ∧ pre state) program post failed :=
  fun state holds => attempt holds.1 state holds.2

/-- A witness of the precondition is fixed once. -/
theorem fixing
    {choice : γ → σ → Prop}
    (attempt : ∀ witness, Attempt (choice witness) program post failed) :
    Attempt (fun state => ∃ witness, choice witness state) program post failed :=
  fun state ⟨witness, holds⟩ => attempt witness state holds

/-- What the attempt says of a run that succeeds. -/
theorem of_ok (attempt : Attempt pre program post failed)
    (holds : pre state)
    (ran : program state = .ok value after) :
    post value after := by
  have ended := attempt state holds
  rw [ran] at ended
  exact ended

/-- What the attempt says of a run that fails. -/
theorem of_error (attempt : Attempt pre program post failed)
    (holds : pre state)
    (ran : program state = .error error after) :
    failed error after := by
  have ended := attempt state holds
  rw [ran] at ended
  exact ended

end Attempt

end Foundation
