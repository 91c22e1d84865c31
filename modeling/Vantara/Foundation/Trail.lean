import Mathlib.Tactic.Common

/-!
# Trails of labelled moves

One step of a concrete system may be many small moves of an abstract one.  A
trail is a finite sequence of such moves, each of which satisfies a condition on
the state in which it is made; an invariant of the moves is an invariant of the
trails.
-/

namespace Foundation

variable {σ : Type u} {μ : Type v}

/-- Finitely many moves, each made where a condition permits it. -/
inductive Trail
    (move : σ → μ → σ → Prop)
    (permits : σ → μ → Prop)
    (start : σ) : σ → Prop
  | start : Trail move permits start start
  | next :
      Trail move permits start state →
      permits state label →
      move state label after →
      Trail move permits start after

namespace Trail

variable {move : σ → μ → σ → Prop} {permits : σ → μ → Prop}

/-- A single move. -/
theorem single (permitted : permits first label) (moved : move first label last) :
    Trail move permits first last :=
  .next .start permitted moved

/-- Trails compose. -/
theorem trans (before : Trail move permits first middle) (after : Trail move permits middle last) :
    Trail move permits first last := by
  induction after with
  | start => exact before
  | next _ permitted moved ih =>
    exact .next ih permitted moved

/-- A weaker condition permits at least the same trails. -/
theorem mono
    {weaker : σ → μ → Prop}
    (trail : Trail move permits first last)
    (implies : ∀ state label, permits state label → weaker state label) :
    Trail move weaker first last := by
  induction trail with
  | start => exact .start
  | next _ permitted moved ih =>
    exact .next ih (implies _ _ permitted) moved

/-- What every permitted move preserves, every trail preserves. -/
theorem invariant
    {holds : σ → Prop}
    (trail : Trail move permits first last)
    (initially : holds first)
    (preserved : ∀ state label after, holds state → permits state label →
      move state label after → holds after) :
    holds last := by
  induction trail with
  | start => exact initially
  | next _ permitted moved ih =>
    exact preserved _ _ _ ih permitted moved

end Trail
end Foundation
