import Mathlib.Data.List.Nodup

/-!
# Stores of records with distinct keys

A store keeps its records in insertion order and never holds two records with
the same key.  Looking a key up therefore determines the record, and every
operation is described by its effect on look-ups.
-/

namespace Foundation

/-- Records in insertion order, no two of which share a key. -/
structure KeyedStore (α : Type u) {κ : Type v} (key : α → κ) where
  /-- The records, oldest first. -/
  items : List α
  /-- No key occurs twice. -/
  keysDistinct : (items.map key).Nodup

namespace KeyedStore

variable {α : Type u} {κ : Type v} {key : α → κ} [DecidableEq κ]

/-- The store without records. -/
def empty : KeyedStore α key :=
  ⟨[], List.nodup_nil⟩

/-- The store that holds one record. -/
def singleton (record : α) : KeyedStore α key :=
  ⟨[record], List.nodup_singleton _⟩

/-- The record under a key. -/
def get (store : KeyedStore α key) (index : κ) : Option α :=
  store.items.find? fun record => decide (key record = index)

omit [DecidableEq κ] in
theorem eq_of_mem_of_key_eq (store : KeyedStore α key)
    (leftMem : left ∈ store.items)
    (rightMem : right ∈ store.items)
    (sameKey : key left = key right) :
    left = right :=
  List.inj_on_of_nodup_map store.keysDistinct leftMem rightMem sameKey

/-- A look-up returns exactly the record that carries the key. -/
theorem get_eq_some_iff (store : KeyedStore α key) :
    store.get index = some record ↔ record ∈ store.items ∧ key record = index := by
  constructor
  · intro found
    refine ⟨List.mem_of_find?_eq_some found, ?_⟩
    simpa using List.find?_some found
  · rintro ⟨recordMem, rfl⟩
    cases found : store.get (key record) with
    | none =>
      have absent := List.find?_eq_none.mp found record recordMem
      simp at absent
    | some other =>
      have otherKey : key other = key record := by
        simpa using List.find?_some found
      rw [store.eq_of_mem_of_key_eq
        (List.mem_of_find?_eq_some found) recordMem otherKey]

theorem get_eq_none_iff (store : KeyedStore α key) :
    store.get index = none ↔ ∀ record ∈ store.items, key record ≠ index := by
  simp [get]

theorem key_of_get {store : KeyedStore α key} (found : store.get index = some record) :
    key record = index :=
  (store.get_eq_some_iff.mp found).2

theorem mem_of_get {store : KeyedStore α key} (found : store.get index = some record) :
    record ∈ store.items :=
  (store.get_eq_some_iff.mp found).1

theorem get_of_mem {store : KeyedStore α key} (recordMem : record ∈ store.items) :
    store.get (key record) = some record :=
  store.get_eq_some_iff.mpr ⟨recordMem, rfl⟩

@[simp] theorem get_empty : (empty : KeyedStore α key).get index = none :=
  rfl

@[simp] theorem get_singleton :
    (singleton record : KeyedStore α key).get index =
      if index = key record then some record else none := by
  by_cases sameKey : key record = index
  · simp [get, singleton, sameKey]
  · simp [get, singleton, sameKey, Ne.symm sameKey]

/-- Two stores agree on a key when the same records carry it. -/
theorem get_congr {left right : KeyedStore α key}
    (sameRecords : ∀ record, key record = index →
      (record ∈ left.items ↔ record ∈ right.items)) :
    left.get index = right.get index := by
  apply Option.ext
  intro record
  rw [get_eq_some_iff, get_eq_some_iff]
  constructor
  · rintro ⟨recordMem, recordKey⟩
    exact ⟨(sameRecords record recordKey).mp recordMem, recordKey⟩
  · rintro ⟨recordMem, recordKey⟩
    exact ⟨(sameRecords record recordKey).mpr recordMem, recordKey⟩

omit [DecidableEq κ] in
theorem map_key_map
    (change : α → α)
    (keepsKey : ∀ record, key (change record) = key record)
    (items : List α) :
    (items.map change).map key = items.map key := by
  rw [List.map_map]
  exact List.map_congr_left fun record _ => keepsKey record

section

variable (store : KeyedStore α key)

/-- Change every record, leaving its key alone. -/
def modifyAll
    (change : α → α)
    (keepsKey : ∀ record, key (change record) = key record) :
    KeyedStore α key where
  items := store.items.map change
  keysDistinct := by
    rw [map_key_map change keepsKey]
    exact store.keysDistinct

@[simp] theorem get_modifyAll
    (change : α → α)
    (keepsKey : ∀ record, key (change record) = key record) :
    (store.modifyAll change keepsKey).get index =
      (store.get index).map change := by
  unfold get modifyAll
  rw [List.find?_map]
  simp only [Function.comp_def, keepsKey]

omit [DecidableEq κ] in
/-- A change that moves no record moves nothing. -/
theorem modifyAll_eq_self
    (change : α → α)
    (keepsKey : ∀ record, key (change record) = key record)
    (fixes : ∀ record ∈ store.items, change record = record) :
    store.modifyAll change keepsKey = store := by
  obtain ⟨items, keysDistinct⟩ := store
  have same : items.map change = items := by
    calc items.map change = items.map id := List.map_congr_left fixes
      _ = items := List.map_id items
  simp only [modifyAll, same]

/-- Change the record under one key, leaving the key alone. -/
def modify
    (index : κ)
    (change : α → α)
    (keepsKey : ∀ record, key (change record) = key record) :
    KeyedStore α key :=
  store.modifyAll (fun record => if key record = index then change record else record)
    (by intro record; split_ifs <;> simp [keepsKey])

@[simp] theorem get_modify
    (target : κ)
    (change : α → α)
    (keepsKey : ∀ record, key (change record) = key record) :
    (store.modify target change keepsKey).get index =
      if index = target then (store.get index).map change else store.get index := by
  rw [modify, get_modifyAll]
  cases found : store.get index with
  | none => simp
  | some record =>
    have recordKey := key_of_get found
    by_cases hit : index = target <;> simp [recordKey, hit]

/-- Put a record in the place of the one with its key, or at the end. -/
def insert (record : α) : KeyedStore α key :=
  if present : ∃ other ∈ store.items, key other = key record then
    { items := store.items.map fun other => if key other = key record then record else other
      keysDistinct := by
        rw [map_key_map _ (by intro other; split_ifs with sameKey <;> simp [sameKey])]
        exact store.keysDistinct }
  else
    { items := store.items ++ [record]
      keysDistinct := by
        rw [List.map_append, List.map_singleton, List.nodup_append]
        refine ⟨store.keysDistinct, List.nodup_singleton _, ?_⟩
        intro left leftMem right rightMem equal
        obtain ⟨other, otherMem, rfl⟩ := List.mem_map.mp leftMem
        rw [List.mem_singleton.mp rightMem] at equal
        exact present ⟨other, otherMem, equal⟩ }

@[simp] theorem get_insert (record : α) :
    (store.insert record).get index =
      if index = key record then some record else store.get index := by
  by_cases sameKey : index = key record
  · subst sameKey
    rw [if_pos rfl, get_eq_some_iff]
    refine ⟨?_, rfl⟩
    unfold insert
    split_ifs with present
    · obtain ⟨other, otherMem, otherKey⟩ := present
      exact List.mem_map.mpr ⟨other, otherMem, if_pos otherKey⟩
    · simp
  · rw [if_neg sameKey]
    apply get_congr
    intro other otherKey
    have differ : key other ≠ key record := fun equal => sameKey (otherKey ▸ equal)
    unfold insert
    split_ifs with present
    · simp only [List.mem_map]
      constructor
      · rintro ⟨source, sourceMem, rfl⟩
        split_ifs at differ ⊢ with sourceKey
        · exact absurd rfl differ
        · exact sourceMem
      · intro otherMem
        exact ⟨other, otherMem, if_neg differ⟩
    · have notRecord : other ≠ record := fun equal => differ (congrArg key equal)
      simp [notRecord]

/-- Drop the record under a key. -/
def remove (index : κ) : KeyedStore α key where
  items := store.items.filter fun record => decide (key record ≠ index)
  keysDistinct := store.keysDistinct.sublist (List.filter_sublist.map key)

@[simp] theorem get_remove (target : κ) :
    (store.remove target).get index =
      if index = target then none else store.get index := by
  by_cases hit : index = target
  · rw [if_pos hit, get_eq_none_iff]
    intro record recordMem recordKey
    have kept := (List.mem_filter.mp recordMem).2
    simp [recordKey, hit] at kept
  · rw [if_neg hit]
    apply get_congr
    intro record recordKey
    simp [remove, recordKey, hit]

end

end KeyedStore

end Foundation
