import Mathlib.Algebra.Group.Nat.Defs
import Mathlib.Data.List.GetD
import Mathlib.Tactic.Common

/-!
# Buffers of bytes

A buffer gives a byte for each index.  Bytes are spliced into it at a place, and it holds
bytes at a place; splicing keeps what is held elsewhere.
-/

namespace Foundation

/-- The bytes at all indexes. -/
abbrev Buffer := Nat → UInt8

/-- A number in little-endian order. -/
def leBytes (number width : Nat) : List UInt8 :=
  (List.range width).map fun index => UInt8.ofNat (number / 256 ^ index)

@[simp]
theorem length_leBytes (number width : Nat) : (leBytes number width).length = width := by
  simp [leBytes]

namespace Buffer

variable {buffer : Buffer}

/-- The buffer with some bytes replaced. -/
def splice (buffer : Buffer) (start : Nat) (bytes : List UInt8) : Buffer := fun index =>
  if start ≤ index ∧ index < start + bytes.length then bytes.getD (index - start) 0
  else buffer index

theorem splice_inside (inside : index < bytes.length) :
    buffer.splice start bytes (start + index) = bytes.getD index 0 := by
  rw [splice, if_pos ⟨by omega, by omega⟩, Nat.add_sub_cancel_left]

theorem splice_outside (outside : index < start ∨ start + bytes.length ≤ index) :
    buffer.splice start bytes index = buffer index :=
  if_neg (by omega)

@[simp]
theorem splice_nil : buffer.splice start [] = buffer := by
  funext index
  exact splice_outside (by rw [List.length_nil]; omega)

/-- Bytes are spliced part by part. -/
theorem splice_append :
    (buffer.splice start bytes).splice (start + bytes.length) others =
      buffer.splice start (bytes ++ others) := by
  funext index
  rcases Nat.lt_or_ge index start with below | above
  · rw [splice_outside (.inl (by omega)), splice_outside (.inl below),
      splice_outside (.inl below)]
  obtain ⟨place, rfl⟩ := Nat.exists_eq_add_of_le above
  by_cases inFirst : place < bytes.length
  · rw [splice_outside (.inl (by omega)), splice_inside inFirst,
      splice_inside (by rw [List.length_append]; omega), List.getD_append _ _ _ _ inFirst]
  obtain ⟨rest, rfl⟩ := Nat.exists_eq_add_of_le (Nat.le_of_not_lt inFirst)
  by_cases inSecond : rest < others.length
  · rw [← Nat.add_assoc, splice_inside inSecond, Nat.add_assoc,
      splice_inside (by rw [List.length_append]; omega),
      List.getD_append_right _ _ _ _ (by omega), Nat.add_sub_cancel_left]
  · rw [splice_outside (.inr (by omega)), splice_outside (.inr (by omega)),
      splice_outside (.inr (by rw [List.length_append]; omega))]

/-- Where two buffers agree, or the splice covers them, they agree after it. -/
theorem splice_congr {other : Buffer}
    (same : ¬(start ≤ index ∧ index < start + bytes.length) → buffer index = other index) :
    buffer.splice start bytes index = other.splice start bytes index := by
  rw [splice, splice]
  split_ifs with inside
  · rfl
  · exact same inside

/-- The buffer has some bytes at a place. -/
def Holds (buffer : Buffer) (start : Nat) (bytes : List UInt8) : Prop :=
  ∀ index < bytes.length, buffer (start + index) = bytes.getD index 0

theorem holds_splice : (buffer.splice start bytes).Holds start bytes :=
  fun _ inside => splice_inside inside

theorem Holds.splice_apart
    (holds : buffer.Holds start bytes)
    (apart : start + bytes.length ≤ other ∨ other + others.length ≤ start) :
    (buffer.splice other others).Holds start bytes := by
  intro index inside
  rw [splice_outside (by omega)]
  exact holds index inside

theorem Holds.append
    (first : buffer.Holds start bytes)
    (second : buffer.Holds (start + bytes.length) others) :
    buffer.Holds start (bytes ++ others) := by
  intro index inside
  rw [List.length_append] at inside
  by_cases inFirst : index < bytes.length
  · rw [List.getD_append _ _ _ _ inFirst]
    exact first index inFirst
  · rw [List.getD_append_right _ _ _ _ (Nat.le_of_not_lt inFirst)]
    have same : start + index = start + bytes.length + (index - bytes.length) := by omega
    rw [same]
    exact second _ (by omega)

/-- The number in some bytes, in little-endian order. -/
def number (buffer : Buffer) (start : Nat) : Nat → Nat
  | 0 => 0
  | width + 1 => buffer.number start width + (buffer (start + width)).toNat * 256 ^ width

theorem number_lt (start width : Nat) : buffer.number start width < 256 ^ width := by
  induction width with
  | zero => exact Nat.one_pos
  | succ width ih =>
    have byte := (buffer (start + width)).toNat_lt
    have high : (buffer (start + width)).toNat * 256 ^ width ≤ 255 * 256 ^ width :=
      Nat.mul_le_mul_right _ (by omega)
    rw [number, Nat.pow_succ]
    omega

theorem number_eq_mod
    (bytes : ∀ index < width, buffer (start + index) = UInt8.ofNat (value / 256 ^ index)) :
    buffer.number start width = value % 256 ^ width := by
  induction width with
  | zero => rw [number, Nat.pow_zero, Nat.mod_one]
  | succ width ih =>
    rw [number, ih fun index inside => bytes index (by omega),
      bytes width (by omega), UInt8.toNat_ofNat']
    show value % 256 ^ width + value / 256 ^ width % 256 * 256 ^ width = _
    rw [Nat.pow_succ 256 width, Nat.mod_mul, Nat.mul_comm (_ % 256)]

/-- A number that fits is read back as it was written. -/
theorem Holds.number_eq
    (holds : buffer.Holds start (leBytes value width))
    (fits : value < 256 ^ width) :
    buffer.number start width = value := by
  have bytes : ∀ index < width, buffer (start + index) = UInt8.ofNat (value / 256 ^ index) := by
    intro index inside
    rw [holds index (by rwa [length_leBytes]), leBytes,
      List.getD_eq_getElem _ _ (by simpa using inside)]
    simp
  rw [number_eq_mod bytes, Nat.mod_eq_of_lt fits]

end Buffer
end Foundation
