import Mathlib.Logic.Relation
import Vantara.Foundation.NamedTree

/-!
# When a walk to the root ends

A walk from key to parent looks nodes up in a list.  It ends unless it runs into a cycle,
and then it ends within as many look-ups as there are nodes.
-/

namespace Foundation
namespace Placement

variable {α : Type u} {κ : Type v} {ν : Type w} {place : Placement α κ ν}
  {find : κ → Option α} {items : List α} {start next ancestor : κ}

/-- The walk does not end at a key and goes on to the parent of the node found there. -/
def GoesOn (place : Placement α κ ν)
    (find : κ → Option α)
    (ancestor key next : κ) : Prop :=
  key ≠ place.root ∧ key ≠ ancestor ∧ ∃ node, find key = some node ∧ place.parent node = next

/-- The walk comes to a key to which it returns. -/
def Cycles (place : Placement α κ ν) (find : κ → Option α) (start ancestor : κ) : Prop :=
  ∃ key, Relation.ReflTransGen (place.GoesOn find ancestor) start key ∧
    Relation.TransGen (place.GoesOn find ancestor) key key

/-- The walk into a cycle comes to a first parent. -/
theorem Cycles.goesOn (cycles : place.Cycles find start ancestor) :
    ∃ next, place.GoesOn find ancestor start next ∧ place.Cycles find next ancestor := by
  obtain ⟨key, reached, again⟩ := cycles
  rcases Relation.ReflTransGen.cases_head reached with rfl | ⟨next, first, rest⟩
  · obtain ⟨next, first, rest⟩ := Relation.TransGen.head'_iff.mp again
    exact ⟨next, first, start, rest, again⟩
  · exact ⟨next, first, key, rest, again⟩

variable [DecidableEq κ]

theorem descends_of_goesOn (goesOn : place.GoesOn find ancestor start next) :
    place.descends find (fuel + 1) start ancestor = place.descends find fuel next ancestor := by
  obtain ⟨notRoot, notAncestor, node, found, rfl⟩ := goesOn
  rw [descends, if_neg notRoot, if_neg notAncestor, found]

theorem goesOn_of_descends (goesOn : place.descends find (fuel + 1) start ancestor = none) :
    ∃ next, place.GoesOn find ancestor start next ∧
      place.descends find fuel next ancestor = none := by
  rw [descends] at goesOn
  split_ifs at goesOn with notRoot notAncestor
  split at goesOn
  · cases goesOn
  · next node found => exact ⟨_, ⟨notRoot, notAncestor, node, found, rfl⟩, goesOn⟩

/-- The walk into a cycle does not end, however much fuel it has. -/
theorem Cycles.descends_eq_none (cycles : place.Cycles find start ancestor) (fuel : Nat) :
    place.descends find fuel start ancestor = none := by
  induction fuel generalizing start with
  | zero => rfl
  | succ fuel ih =>
    obtain ⟨next, first, rest⟩ := cycles.goesOn
    rw [descends_of_goesOn first]
    exact ih rest

/-- A walk without a cycle comes to different keys of nodes for as long as it goes on. -/
theorem cycles_or_trail (goesOn : place.descends (place.find items) fuel start ancestor = none) :
    place.Cycles (place.find items) start ancestor ∨
      ∃ trail : List κ, trail.length = fuel ∧ trail.Nodup ∧ trail ⊆ items.map place.key ∧
        ∀ key ∈ trail,
          Relation.ReflTransGen (place.GoesOn (place.find items) ancestor) start key := by
  induction fuel generalizing start with
  | zero => exact .inr ⟨[], by simp⟩
  | succ fuel ih =>
    obtain ⟨next, first, rest⟩ := goesOn_of_descends goesOn
    rcases ih rest with ⟨key, reached, again⟩ | ⟨trail, length, nodup, keys, reached⟩
    · exact .inl ⟨key, .head first reached, again⟩
    by_cases again : start ∈ trail
    · exact .inl ⟨start, .refl, .head' first (reached start again)⟩
    · obtain ⟨-, -, node, found, -⟩ := id first
      obtain ⟨listed, isKey⟩ := mem_of_find found
      refine .inr ⟨start :: trail, by rw [List.length_cons, length], nodup.cons again,
        List.cons_subset.mpr ⟨List.mem_map.mpr ⟨node, listed, isKey⟩, keys⟩, ?_⟩
      intro key isKey
      rcases List.mem_cons.mp isKey with rfl | later
      · exact .refl
      · exact .head first (reached key later)

/-- The walk ends within as many look-ups as there are nodes, unless there is a cycle. -/
theorem descends_ends_iff :
    (∃ answer,
        place.descends (place.find items) (items.length + 1) start ancestor = some answer) ↔
      ¬ place.Cycles (place.find items) start ancestor := by
  constructor
  · rintro ⟨answer, ended⟩ cycles
    cases (cycles.descends_eq_none _).symm.trans ended
  · intro straight
    refine Option.ne_none_iff_exists'.mp fun goesOn => ?_
    rcases cycles_or_trail goesOn with cycles | ⟨trail, length, nodup, keys, -⟩
    · exact straight cycles
    · have bound := (nodup.subperm keys).length_le
      rw [length, List.length_map] at bound
      omega

end Placement
end Foundation
