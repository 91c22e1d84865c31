import Mathlib.Algebra.Group.Nat.Defs
import Mathlib.Tactic.Common

/-!
# Saturating and checked arithmetic of machine words

Additions that stop at the largest word, subtractions that stop at zero, and
additions that fail instead of wrapping around.
-/

namespace Foundation
namespace Word

/-- Addition of 64-bit words that stops at the largest one. -/
def saturatingAdd (left right : UInt64) : UInt64 :=
  if left.toNat + right.toNat < 2 ^ 64 then left + right else 0xffffffffffffffff

/-- Subtraction of 64-bit words that stops at zero. -/
def saturatingSub (left right : UInt64) : UInt64 :=
  if right ≤ left then left - right else 0

/-- Multiplication of 64-bit words that stops at the largest one. -/
def saturatingMul (left right : UInt64) : UInt64 :=
  if left.toNat * right.toNat < 2 ^ 64 then left * right else 0xffffffffffffffff

/-- Division of 64-bit words rounded up. -/
def divCeil (left right : UInt64) : UInt64 :=
  left / right + (if left % right = 0 then 0 else 1)

/-- The 32-bit word with the value of a 64-bit one. -/
def toUInt32? (word : UInt64) : Option UInt32 :=
  if word.toNat < 2 ^ 32 then some word.toUInt32 else none

/-- Addition of 64-bit words that fails on overflow. -/
def checkedAdd (left right : UInt64) : Option UInt64 :=
  if left.toNat + right.toNat < 2 ^ 64 then some (left + right) else none

theorem toNat_of_checkedAdd (added : checkedAdd left right = some sum) :
    left.toNat + right.toNat < 2 ^ 64 ∧ sum.toNat = left.toNat + right.toNat := by
  unfold checkedAdd at added
  split_ifs at added with fits
  obtain rfl := Option.some.inj added
  refine ⟨fits, ?_⟩
  rw [UInt64.toNat_add]
  exact Nat.mod_eq_of_lt fits

/-- Subtraction of 64-bit words that fails below zero. -/
def checkedSub (left right : UInt64) : Option UInt64 :=
  if right ≤ left then some (left - right) else none

/-- The successor of a 32-bit word, the largest one being its own. -/
def saturatingSucc (word : UInt32) : UInt32 :=
  if word.toNat + 1 < 2 ^ 32 then word + 1 else 0xffffffff

/-- The number of zero bits below the lowest one bit of a nonzero word, and 64 for zero. -/
def trailingZeros (word : UInt64) : Nat :=
  go word 64
where
  /-- Shift right until the lowest bit is set or the fuel is spent. -/
  go (word : UInt64) : Nat → Nat
    | 0 => 0
    | fuel + 1 => if word &&& 1 = 1 then 0 else go (word >>> 1) fuel + 1

theorem toNat_saturatingSucc (word : UInt32) :
    (saturatingSucc word).toNat = min (word.toNat + 1) (2 ^ 32 - 1) := by
  have bound := word.toNat_lt
  unfold saturatingSucc
  split_ifs with fits
  · rw [UInt32.toNat_add, UInt32.toNat_one, Nat.mod_eq_of_lt fits]
    omega
  · have largest : (0xffffffff : UInt32).toNat = 2 ^ 32 - 1 := rfl
    omega

end Word
end Foundation
