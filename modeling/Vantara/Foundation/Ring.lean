import Mathlib.Data.List.Range

/-!
# Rings of slots

A ring keeps a queue in a fixed list of slots: the oldest element stands at the
head, the others follow it, and behind the last slot comes the first one again.
What is in the remaining slots does not matter.
-/

namespace Foundation

variable {α : Type*} {slots : List α} {fallback value : α} {head len : Nat}

/-- The elements of a ring, oldest first. -/
def ringContents (slots : List α) (fallback : α) (head len : Nat) : List α :=
  (List.range len).map fun offset => slots.getD ((head + offset) % slots.length) fallback

@[simp]
theorem length_ringContents : (ringContents slots fallback head len).length = len := by
  simp [ringContents]

/-- Behind the element at the head stands the ring that starts one slot later. -/
theorem ringContents_succ (inside : head < slots.length) :
    ringContents slots fallback head (len + 1) =
      slots.getD head fallback ::
        ringContents slots fallback ((head + 1) % slots.length) len := by
  unfold ringContents
  rw [List.range_succ_eq_map, List.map_cons, List.map_map, Nat.add_zero, Nat.mod_eq_of_lt inside]
  congr 1
  refine List.map_congr_left fun offset _ => ?_
  have later : (head + (offset + 1)) % slots.length =
      ((head + 1) % slots.length + offset) % slots.length := by
    rw [Nat.mod_add_mod]
    congr 1
    omega
  exact congrArg (slots.getD · fallback) later

/-- Two slots of a ring whose distance is less than a turn are different. -/
theorem ring_slot_ne {offset other : Nat}
    (before : offset < other)
    (turn : other < offset + slots.length) :
    (head + offset) % slots.length ≠ (head + other) % slots.length := by
  intro same
  have divides : slots.length ∣ (head + other) - (head + offset) :=
    Nat.dvd_of_mod_eq_zero (Nat.sub_mod_eq_zero_of_mod_eq same.symm)
  exact absurd (Nat.le_of_dvd (by omega) divides) (by omega)

theorem getD_set_of_ne {index other : Nat} (differ : index ≠ other) :
    (slots.set index value).getD other fallback = slots.getD other fallback := by
  simp only [List.getD_eq_getElem?_getD, List.getElem?_set_ne differ]

/-- A value written behind the last element becomes the last one. -/
theorem ringContents_push (room : len < slots.length) :
    ringContents (slots.set ((head + len) % slots.length) value) fallback head (len + 1) =
      ringContents slots fallback head len ++ [value] := by
  have turn : (head + len) % slots.length < slots.length := Nat.mod_lt _ (by omega)
  unfold ringContents
  rw [List.range_succ, List.map_append, List.length_set]
  congr 1
  · refine List.map_congr_left fun offset listed => ?_
    have earlier : offset < len := List.mem_range.mp listed
    exact getD_set_of_ne (ring_slot_ne earlier (by omega)).symm
  · simp [List.getElem?_set_self turn]

/-- What stands at the head is not part of the ring behind it. -/
theorem ringContents_set_head (inside : head < slots.length) (fits : len < slots.length) :
    ringContents (slots.set head value) fallback ((head + 1) % slots.length) len =
      ringContents slots fallback ((head + 1) % slots.length) len := by
  unfold ringContents
  rw [List.length_set]
  refine List.map_congr_left fun offset listed => getD_set_of_ne fun same => ?_
  have earlier : offset < len := List.mem_range.mp listed
  refine @ring_slot_ne _ slots head 0 (offset + 1) (by omega) (by omega) ?_
  rw [Nat.add_zero, Nat.mod_eq_of_lt inside]
  refine same.trans ?_
  rw [Nat.mod_add_mod]
  congr 1
  omega

end Foundation
