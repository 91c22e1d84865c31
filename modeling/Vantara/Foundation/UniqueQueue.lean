import Mathlib.Data.List.Nodup

/-!
# First-in first-out queues without repetition

Pushing an element that already waits leaves the queue alone, so that every
element occurs at most once and its place is the one it first took.
-/

namespace Foundation

/-- A queue in which no element occurs twice. -/
structure UniqueQueue (α : Type u) where
  /-- The waiting elements, next one first. -/
  items : List α
  /-- No element occurs twice. -/
  distinct : items.Nodup

namespace UniqueQueue

variable {α : Type u} [DecidableEq α]

instance : Membership α (UniqueQueue α) :=
  ⟨fun queue element => element ∈ queue.items⟩

omit [DecidableEq α] in
theorem mem_def {queue : UniqueQueue α} : element ∈ queue ↔ element ∈ queue.items :=
  Iff.rfl

instance (element : α) (queue : UniqueQueue α) : Decidable (element ∈ queue) :=
  inferInstanceAs (Decidable (element ∈ queue.items))

/-- The queue in which nothing waits. -/
def empty : UniqueQueue α :=
  ⟨[], List.nodup_nil⟩

/-- Let an element wait at the end, unless it waits already. -/
def push (queue : UniqueQueue α) (element : α) : UniqueQueue α :=
  if waiting : element ∈ queue.items then
    queue
  else
    { items := queue.items ++ [element]
      distinct := List.nodup_append.mpr ⟨queue.distinct, List.nodup_singleton _, by
        intro left leftMem right rightMem equal
        rw [List.mem_singleton] at rightMem
        exact waiting (rightMem ▸ equal ▸ leftMem)⟩ }

@[simp] theorem mem_push {queue : UniqueQueue α} :
    other ∈ queue.push element ↔ other = element ∨ other ∈ queue := by
  simp only [mem_def]
  unfold push
  split_ifs with waiting
  · constructor
    · exact Or.inr
    · rintro (rfl | otherMem)
      · exact waiting
      · exact otherMem
  · simp [or_comm]

/-- Keep only the elements that satisfy a test. -/
def retain (queue : UniqueQueue α) (test : α → Bool) : UniqueQueue α :=
  ⟨queue.items.filter test, queue.distinct.filter test⟩

omit [DecidableEq α] in
@[simp] theorem mem_retain {queue : UniqueQueue α} :
    element ∈ queue.retain test ↔ element ∈ queue ∧ test element = true :=
  List.mem_filter

/-- Take the next element. -/
def pop (queue : UniqueQueue α) : Option (α × UniqueQueue α) :=
  match queue with
  | ⟨[], _⟩ => none
  | ⟨element :: rest, distinct⟩ => some (element, ⟨rest, (List.nodup_cons.mp distinct).2⟩)

/-- How many elements wait. -/
def length (queue : UniqueQueue α) : Nat :=
  queue.items.length

omit [DecidableEq α] in
theorem pop_eq_some_iff {queue rest : UniqueQueue α} :
    queue.pop = some (element, rest) ↔ queue.items = element :: rest.items := by
  obtain ⟨items, distinct⟩ := queue
  obtain ⟨restItems, restDistinct⟩ := rest
  cases items with
  | nil | cons first others => simp [pop]

omit [DecidableEq α] in
theorem pop_eq_none_iff {queue : UniqueQueue α} : queue.pop = none ↔ queue.items = [] := by
  obtain ⟨items, distinct⟩ := queue
  cases items <;> simp [pop]

section

omit [DecidableEq α]
variable {queue rest : UniqueQueue α} {element : α} (popped : queue.pop = some (element, rest))
include popped

theorem not_mem_of_pop : element ∉ rest := by
  have distinct := queue.distinct
  rw [pop_eq_some_iff.mp popped, List.nodup_cons] at distinct
  exact distinct.1

theorem mem_iff_of_pop : other ∈ queue ↔ other = element ∨ other ∈ rest := by
  rw [mem_def, pop_eq_some_iff.mp popped, List.mem_cons, mem_def]

theorem length_of_pop : queue.length = rest.length + 1 := by
  simp [length, pop_eq_some_iff.mp popped]

end

end UniqueQueue

end Foundation
