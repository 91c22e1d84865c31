import Mathlib.Algebra.Group.Nat.Defs
import Mathlib.Tactic.Common

/-!
# Computations that may stop the machine

A computation gives a value, refuses with an error, or stops the machine, as an index
out of bounds or an overflow does.  A computation meets its conditions if it never
stops the machine, its value has a property, and so has its error.
-/

namespace Foundation

/-- Computations that give a value, refuse, or stop the machine. -/
abbrev Guarded (ε : Type) : Type → Type := ExceptT ε Option

namespace Guarded

/-- Stop the machine. -/
def halt : Guarded ε α := (none : Option (Except ε α))

/-- Keep a value, or stop the machine if there is none. -/
def unwrap : Option α → Guarded ε α
  | none => halt
  | some value => pure value

/-- The sum of two machine words; the machine stops on overflow. -/
def add (left right : Nat) : Guarded ε Nat :=
  if left + right < 2 ^ 64 then pure (left + right) else halt

/-- The product of two machine words; the machine stops on overflow. -/
def mul (left right : Nat) : Guarded ε Nat :=
  if left * right < 2 ^ 64 then pure (left * right) else halt

/-- The machine does not stop, a value has a property, and an error has another. -/
def Meets (program : Guarded ε α)
    (post : α → Prop)
    (refused : ε → Prop) : Prop :=
  match program.run with
  | none => False
  | some (.ok value) => post value
  | some (.error error) => refused error

namespace Meets

variable {ε α β : Type} {program : Guarded ε α} {post : α → Prop} {refused : ε → Prop}

theorem pure {value : α} (holds : post value) :
    Meets (Pure.pure value : Guarded ε α) post refused :=
  holds

theorem throw {error : ε} (holds : refused error) :
    Meets (MonadExcept.throw error : Guarded ε α) post refused :=
  holds

theorem bind
    {next : α → Guarded ε β} {last : β → Prop}
    (first : Meets program post refused)
    (rest : ∀ value, post value → Meets (next value) last refused) :
    Meets (program >>= next) last refused := by
  unfold Meets at first
  cases result : program.run with
  | none =>
    rw [result] at first
    exact first.elim
  | some ended =>
    rw [result] at first
    cases ended with
    | error error =>
      have same : (program >>= next).run = some (.error error) := by
        rw [ExceptT.run_bind, result]
        rfl
      rw [Meets, same]
      exact first
    | ok value =>
      have same : (program >>= next).run = (next value).run := by
        rw [ExceptT.run_bind, result]
        rfl
      rw [Meets, same]
      exact rest value first

/-- A computation and then another that meets the conditions on its value. -/
theorem seq
    {next : α → Guarded ε β} {last : β → Prop}
    (first : Meets program (fun value => Meets (next value) last refused) refused) :
    Meets (program >>= next) last refused :=
  first.bind fun _ rest => rest

theorem ite
    [Decidable condition]
    {left right : Guarded ε α}
    (whenTrue : condition → Meets left post refused)
    (whenFalse : ¬condition → Meets right post refused) :
    Meets (if condition then left else right) post refused := by
  split_ifs with holds
  · exact whenTrue holds
  · exact whenFalse holds

/-- A refusal, or else the rest. -/
theorem guard
    [Decidable condition]
    {rest : Guarded ε α}
    (refuses : condition → refused error)
    (passes : ¬condition → Meets rest post refused) :
    Meets (if condition then MonadExcept.throw error else rest) post refused :=
  .ite (fun holds => .throw (refuses holds)) passes

theorem consequence
    {weaker : α → Prop} {worse : ε → Prop}
    (meets : Meets program post refused)
    (after : ∀ value, post value → weaker value)
    (otherwise : ∀ error, refused error → worse error) :
    Meets program weaker worse := by
  unfold Meets at meets ⊢
  cases result : program.run with
  | none =>
    rw [result] at meets
    exact meets.elim
  | some ended =>
    rw [result] at meets
    cases ended with
    | error error => exact otherwise error meets
    | ok value => exact after value meets

theorem unwrap {value : α} (found : option = some value) (holds : post value) :
    Meets (Guarded.unwrap option : Guarded ε α) post refused := by
  rw [found]
  exact holds

theorem add {post : Nat → Prop} (fits : left + right < 2 ^ 64) (holds : post (left + right)) :
    Meets (Guarded.add left right : Guarded ε Nat) post refused := by
  rw [Guarded.add, if_pos fits]
  exact holds

theorem mul {post : Nat → Prop} (fits : left * right < 2 ^ 64) (holds : post (left * right)) :
    Meets (Guarded.mul left right : Guarded ε Nat) post refused := by
  rw [Guarded.mul, if_pos fits]
  exact holds

/-- The machine does not stop. -/
theorem ends (meets : Meets program post refused) : ∃ result, program.run = some result := by
  unfold Meets at meets
  cases result : program.run with
  | none =>
    rw [result] at meets
    exact meets.elim
  | some ended => exact ⟨ended, rfl⟩

/-- What the conditions say of a value. -/
theorem of_ok (meets : Meets program post refused) (ran : program.run = some (.ok value)) :
    post value := by
  rw [Meets, ran] at meets
  exact meets

/-- What the conditions say of an error. -/
theorem of_error (meets : Meets program post refused) (ran : program.run = some (.error error)) :
    refused error := by
  rw [Meets, ran] at meets
  exact meets

end Meets
end Guarded
end Foundation
