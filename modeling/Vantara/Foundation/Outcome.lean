import Mathlib.Tactic.Common

/-!
# Postconditions of fallible computations

A computation that may fail satisfies a postcondition if its value has a
property and its error is one of those permitted.  The rules follow the way such
computations are composed.
-/

namespace Foundation

variable {ε : Type u} {α β : Type v}

/-- The value has a property, or the error is permitted. -/
inductive Outcome
    (permitted : ε → Prop)
    (post : α → Prop) : Except ε α → Prop
  | ok : post value → Outcome permitted post (.ok value)
  | error : permitted refusal → Outcome permitted post (.error refusal)

namespace Outcome

variable {permitted : ε → Prop} {post : α → Prop}

/-- A weaker property of the value. -/
theorem mono
    {weaker : α → Prop}
    (outcome : Outcome permitted post computation)
    (implies : ∀ value, post value → weaker value) :
    Outcome permitted weaker computation := by
  cases outcome with
  | ok holds => exact .ok (implies _ holds)
  | error isPermitted => exact .error isPermitted

/-- Every computation has some outcome. -/
theorem any (computation : Except ε α) : Outcome (fun _ => True) (fun _ => True) computation := by
  cases computation with
  | error => exact .error trivial
  | ok => exact .ok trivial

/-- One computation after another. -/
theorem bind
    {next : α → Except ε β} {last : β → Prop}
    (outcome : Outcome permitted post computation)
    (continues : ∀ value, post value → Outcome permitted last (next value)) :
    Outcome permitted last (computation >>= next) := by
  cases outcome with
  | ok holds => exact continues _ holds
  | error isPermitted => exact .error isPermitted

/-- A computation of which nothing needs to be known, and another after it. -/
theorem pass
    {next : α → Except ε β} {last : β → Prop}
    (continues : ∀ value, Outcome (fun _ => True) last (next value)) :
    Outcome (fun _ => True) last (computation >>= next) :=
  (any computation).bind fun value _ => continues value

/-- One computation or another. -/
theorem ite
    [Decidable condition]
    (whenTrue : condition → Outcome permitted post left)
    (whenFalse : ¬condition → Outcome permitted post right) :
    Outcome permitted post (if condition then left else right) := by
  split_ifs with holds
  · exact whenTrue holds
  · exact whenFalse holds

/-- A refusal, or else the rest. -/
theorem guard
    [Decidable condition]
    (isPermitted : permitted refusal)
    (whenFalse : ¬condition → Outcome permitted post right) :
    Outcome permitted post (if condition then .error refusal else right) :=
  .ite (fun _ => .error isPermitted) whenFalse

end Outcome
end Foundation
