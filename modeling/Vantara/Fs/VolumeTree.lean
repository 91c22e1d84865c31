import Vantara.Fs.Containment

/-!
# The directory of a volume is a tree

What an operation does to the directory is the change of one slot.  Every such change
keeps the entries a tree in which the entry of slot `i` has inode `i + 2`.
-/

namespace Vantara
namespace Fs
namespace Vantfs

open Foundation

/-- The name and the length of an entry fit it. -/
structure DirectoryEntry.Proper (entry : DirectoryEntry) : Prop where
  text : entry.text = entry.name.take entry.nameLen
  name : entry.name.length = maxNameLen
  nameLen : 1 ≤ entry.nameLen ∧ entry.nameLen ≤ maxNameLen
  len : entry.len ≤ maxFileSize

namespace DirectoryEntry

variable {entry : DirectoryEntry}

theorem text_of_name {name : List UInt8} (named : Named name)
    (isName : entry.name = padName name)
    (isLen : entry.nameLen = name.length) :
    entry.text = name := by
  rw [text, isName, isLen, take_padName, named.text]

theorem proper_of_name {name : List UInt8} (named : Named name)
    (isName : entry.name = padName name)
    (isLen : entry.nameLen = name.length)
    (len : entry.len ≤ maxFileSize) :
    entry.Proper where
  text := by
    rw [text_of_name named isName isLen, isName, isLen, take_padName]
  name := by
    rw [isName, length_padName named.short]
  nameLen := by
    rw [isLen]
    exact ⟨List.length_pos_iff.mpr named.nonempty, named.short⟩
  len := len

theorem Proper.extend (proper : entry.Proper) (fits : writeEnd ≤ maxFileSize) :
    (entry.extend writeEnd).Proper where
  text := proper.text
  name := proper.name
  nameLen := proper.nameLen
  len := Nat.max_le.mpr ⟨proper.len, fits⟩

end DirectoryEntry

/-- Every slot has an entry of its own, and the entries form a tree. -/
structure Table.WellFormed (table : Table) : Prop where
  length : table.length = maxFiles
  indexed : ∀ (slot : Nat) (entry : DirectoryEntry),
    table[slot]? = some (some entry) → entry.slot = slot
  numbered : ∀ entry ∈ table.entries, entry.inode = entry.slot + 2
  tree : place.IsTree { entry | entry ∈ table.entries }
  proper : ∀ entry ∈ table.entries, entry.Proper

namespace Table

variable {table : Table}

theorem mem_entries : entry ∈ table.entries ↔ ∃ slot : Nat, table[slot]? = some (some entry) := by
  rw [entries, List.mem_filterMap]
  constructor
  · rintro ⟨_, listed, rfl⟩
    exact List.mem_iff_getElem?.mp listed
  · rintro ⟨slot, isEntry⟩
    exact ⟨some entry, List.mem_iff_getElem?.mpr ⟨slot, isEntry⟩, rfl⟩

/-- The entry of one slot and the others. -/
theorem entries_set_perm (inside : slot < table.length) :
    (entries (table.set slot changed)).Perm
      (changed.toList ++ entries (table.set slot none)) := by
  induction table generalizing slot with
  | nil => cases inside
  | cons head rest ih =>
    cases slot with
    | zero => cases changed <;> exact .refl _
    | succ slot =>
      have others := ih (Nat.lt_of_succ_lt_succ inside)
      cases head with
      | none => exact others
      | some entry => exact (others.cons entry).trans List.perm_middle.symm

theorem entries_perm (isEntry : table[slot]? = some changed) :
    (entries table).Perm (changed.toList ++ entries (table.set slot none)) := by
  obtain ⟨inside, isChanged⟩ := List.getElem?_eq_some_iff.mp isEntry
  have same : table.set slot changed = table := by
    rw [← isChanged, List.set_getElem_self]
  have split := @entries_set_perm table slot changed inside
  rwa [same] at split

theorem wellFormed_empty : Table.WellFormed (List.replicate maxFiles none) where
  length := List.length_replicate
  indexed slot entry isEntry := by
    rw [List.getElem?_replicate] at isEntry
    split_ifs at isEntry
    cases isEntry
  numbered := nofun
  tree := by simpa [entries, List.filterMap_replicate] using Placement.isTree_empty
  proper := nofun

namespace WellFormed

variable (formed : table.WellFormed)

include formed

theorem slot_lt (listed : entry ∈ table.entries) : entry.slot < maxFiles := by
  obtain ⟨slot, isEntry⟩ := mem_entries.mp listed
  rw [formed.indexed slot entry isEntry, ← formed.length]
  exact (List.getElem?_eq_some_iff.mp isEntry).1

theorem getElem?_slot (listed : entry ∈ table.entries) :
    table[entry.slot]? = some (some entry) := by
  obtain ⟨slot, isEntry⟩ := mem_entries.mp listed
  rw [formed.indexed slot entry isEntry]
  exact isEntry

theorem key_eq_iff (listed : entry ∈ table.entries) (otherListed : other ∈ table.entries) :
    place.key entry = place.key other ↔ entry.slot = other.slot := by
  show entry.inode = other.inode ↔ _
  rw [formed.numbered entry listed, formed.numbered other otherListed]
  omega

/-- The parent of whatever is held fits its field. -/
theorem parent_fits (held : place.Holds { entry | entry ∈ table.entries } parent) :
    0 < parent ∧ parent < 2 ^ 32 := by
  rcases held with rfl | ⟨entry, listed, rfl, -⟩
  · decide
  · have small := formed.slot_lt listed
    have all : maxFiles = 32 := rfl
    show 0 < entry.inode ∧ entry.inode < 2 ^ 32
    rw [formed.numbered entry listed]
    omega

/-- The entries after one slot is changed. -/
theorem setOf_set (isSlot : slot < maxFiles) :
    { entry | entry ∈ Table.entries (table.set slot changed) } =
      { entry | changed = some entry } ∪ { entry | entry ∈ table.entries ∧ entry.slot ≠ slot } := by
  ext entry
  simp only [Set.mem_ofPred_eq, Set.mem_union, mem_entries]
  have inside : slot < table.length := formed.length.symm ▸ isSlot
  constructor
  · rintro ⟨index, isEntry⟩
    by_cases same : index = slot
    · rw [same, List.getElem?_set_self inside] at isEntry
      exact .inl (Option.some.inj isEntry)
    · rw [List.getElem?_set_ne (Ne.symm same)] at isEntry
      exact .inr ⟨⟨index, isEntry⟩, formed.indexed index entry isEntry ▸ same⟩
  · rintro (rfl | ⟨⟨index, isEntry⟩, differ⟩)
    · exact ⟨slot, List.getElem?_set_self inside⟩
    · rw [formed.indexed index entry isEntry] at differ
      exact ⟨index, by rw [List.getElem?_set_ne (Ne.symm differ), isEntry]⟩

/-- A change of one slot keeps the table well formed if it keeps the tree. -/
theorem set
    (isSlot : slot < maxFiles)
    (fits : ∀ entry, changed = some entry →
      entry.slot = slot ∧ entry.inode = slot + 2 ∧ entry.Proper)
    (tree : place.IsTree ({ entry | changed = some entry } ∪
      { entry | entry ∈ table.entries ∧ entry.slot ≠ slot })) :
    Table.WellFormed (table.set slot changed) := by
  have members := @setOf_set _ formed slot changed isSlot
  have cases : ∀ entry ∈ Table.entries (table.set slot changed),
      changed = some entry ∨ entry ∈ table.entries ∧ entry.slot ≠ slot :=
    fun entry listed => (Set.ext_iff.mp members entry).mp listed
  constructor
  case length => rw [List.length_set, formed.length]
  case indexed =>
    intro index entry isEntry
    rw [List.getElem?_set] at isEntry
    split_ifs at isEntry with same inside
    · obtain rfl := Option.some.inj isEntry
      rw [(fits entry rfl).1, same]
    · exact formed.indexed index entry isEntry
  case numbered =>
    intro entry listed
    rcases cases entry listed with isChanged | ⟨isOld, -⟩
    · rw [(fits entry isChanged).2.1, (fits entry isChanged).1]
    · exact formed.numbered entry isOld
  case tree => rwa [members]
  case proper =>
    intro entry listed
    rcases cases entry listed with isChanged | ⟨isOld, -⟩
    · exact (fits entry isChanged).2.2
    · exact formed.proper entry isOld

theorem finds : place.Finds { entry | entry ∈ table.entries } (findInode table) := by
  intro key entry
  constructor
  · exact Placement.mem_of_find
  · rintro ⟨listed, isKey⟩
    obtain ⟨found, isFound⟩ := Placement.find_isSome_of_mem listed isKey
    obtain ⟨foundListed, foundKey⟩ := Placement.mem_of_find isFound
    have same := formed.tree.distinct _ foundListed _ listed (foundKey.trans isKey.symm)
    rw [findInode, isFound, same]

/-- In a tree the walk to the root ends. -/
theorem isDescendant_total (candidate ancestor : Nat) :
    ∃ answer, isDescendant table candidate ancestor = some answer :=
  formed.tree.descends_total formed.finds candidate ancestor

end WellFormed

end Table

/-! ## What an operation does to the directory -/

/-- The operations that change a volume. -/
inductive VolumeCall
  | createNode (path : List Char) (fileType : FileType)
  | removeNode (path : List Char) (expected : FileType)
  | rename (oldPath newPath : List Char)
  | write (inode offset : Nat) (source : List UInt8)

/-- The slot an operation changes and the entry it gets, or why there is none; no value if
the operation does not end. -/
def effectOf (table : Table) : VolumeCall → Option (Except FsError (Nat × Option DirectoryEntry))
  | .createNode path fileType =>
    match splitParentName path with
    | .error error => some (.error error)
    | .ok (parentPath, name) =>
      match planCreate table parentPath name with
      | .error error => some (.error error)
      | .ok (slot, parent) => some (.ok (slot, some (.new slot parent name fileType)))
  | .removeNode path expected =>
    match planRemove table path expected with
    | .error error => some (.error error)
    | .ok entry => some (.ok (entry.slot, none))
  | .rename oldPath newPath =>
    match planRename table oldPath newPath with
    | none => none
    | some (.error error) => some (.error error)
    | some (.ok entry) => some (.ok (entry.slot, some entry))
  | .write inode offset source =>
    if offset + source.length ≥ 2 ^ 64 ∨ offset + source.length > maxFileSize then
      some (.error .fileTooLarge)
    else
      match planAccess table inode with
      | .error error => some (.error error)
      | .ok entry => some (.ok (entry.slot, some (entry.extend (offset + source.length))))

theorem splitParentName_ok (split : splitParentName path = .ok (parent, name)) : Named name := by
  unfold splitParentName at split
  split_ifs at split
  exact splitParentName_spec split

theorem planCreate_spec (planned : planCreate table parentPath name = .ok (slot, parent)) :
    resolvePath table parentPath = some parent ∧
      place.Holds { entry | entry ∈ table.entries } parent ∧
      child table parent name = none ∧ table[slot]? = some none := by
  unfold planCreate at planned
  split at planned
  next => cases planned
  next found resolved =>
    split at planned
    next => cases planned
    next isDirectory =>
      split at planned
      next => cases planned
      next unused =>
        split at planned
        next => cases planned
        next free isFree =>
          cases planned
          refine ⟨resolved, holds_of_isDirectory isDirectory,
            Option.not_isSome_iff_eq_none.mp unused, ?_⟩
          obtain ⟨inside, isNone, -⟩ := List.findIdx?_eq_some_iff_getElem.mp isFree
          rw [List.getElem?_eq_getElem inside, Option.isNone_iff_eq_none.mp isNone]

theorem planRemove_spec (planned : planRemove table path expected = .ok entry) :
    resolvePath table path = some entry.inode ∧ entry.inode ≠ rootInode ∧
      entry ∈ table.entries ∧ entry.fileType = expected ∧
      ¬ (expected = .directory ∧ table.entries.any (·.parent = entry.inode)) := by
  unfold planRemove at planned
  split at planned
  next => cases planned
  next inode resolved =>
    split at planned
    next => cases planned
    next notRoot =>
      split at planned
      next => cases planned
      next found isFound =>
        split_ifs at planned with other isFile notEmpty
        cases planned
        obtain ⟨listed, isKey⟩ := Placement.mem_of_find isFound
        have isKey : entry.inode = inode := isKey
        subst isKey
        exact ⟨resolved, notRoot, listed, not_not.mp other, notEmpty⟩

theorem planRename_spec (planned : planRename table oldPath newPath = some (.ok moved)) :
    ∃ entry newParentPath newParent newName, resolvePath table oldPath = some entry.inode ∧
      entry.inode ≠ rootInode ∧ findInode table entry.inode = some entry ∧
      splitParentName newPath = .ok (newParentPath, newName) ∧
      resolvePath table newParentPath = some newParent ∧
      place.Holds { entry | entry ∈ table.entries } newParent ∧
      child table newParent newName = none ∧
      isDescendant table newParent entry.inode = some false ∧
      moved = entry.moveTo newParent newName := by
  unfold planRename at planned
  split at planned
  next => cases planned
  next inode resolved =>
    split at planned
    next => cases planned
    next notRoot =>
      split at planned
      next => cases planned
      next parentPath newName split =>
        split at planned
        next => cases planned
        next newParent newResolved =>
          split at planned
          next => cases planned
          next isDirectory =>
            split at planned
            next => cases planned
            next unused =>
              split at planned
              next => cases planned
              next => cases planned
              next avoids =>
                split at planned
                next => cases planned
                next entry found =>
                  cases planned
                  obtain ⟨-, isKey⟩ := Placement.mem_of_find found
                  have isKey : entry.inode = inode := isKey
                  subst isKey
                  exact ⟨entry, parentPath, newParent, newName, resolved, notRoot, found, split,
                    newResolved, holds_of_isDirectory isDirectory,
                    Option.not_isSome_iff_eq_none.mp unused, avoids, rfl⟩

namespace Table
namespace WellFormed

variable {table : Table} (formed : table.WellFormed)

include formed

/-- The entries when a new one is put into a free slot. -/
theorem setOf_fill (isFree : table[slot]? = some none) :
    ({ other | some entry = some other } ∪
      { other | other ∈ table.entries ∧ other.slot ≠ slot } : Set DirectoryEntry) =
        Insert.insert entry { other | other ∈ table.entries } := by
  ext other
  simp only [Set.mem_union, Set.mem_ofPred_eq, Set.mem_insert_iff, Option.some.injEq]
  refine or_congr eq_comm ⟨And.left, fun listed => ⟨listed, ?_⟩⟩
  rintro rfl
  have isEntry := formed.getElem?_slot listed
  rw [isFree] at isEntry
  cases isEntry

theorem create
    (split : splitParentName path = .ok (parentPath, name))
    (planned : planCreate table parentPath name = .ok (slot, parent)) :
    slot < maxFiles ∧
      Table.WellFormed (table.set slot (some (.new slot parent name fileType))) := by
  obtain ⟨-, held, unused, isFree⟩ := planCreate_spec planned
  have named := splitParentName_ok split
  have isSlot : slot < maxFiles := by
    rw [← formed.length]
    exact (List.getElem?_eq_some_iff.mp isFree).1
  have proper := @DirectoryEntry.proper_of_name (.new slot parent name fileType) _ named rfl rfl
    (Nat.zero_le _)
  refine ⟨isSlot, formed.set isSlot ?_ ?_⟩
  · rintro entry ⟨⟩
    exact ⟨rfl, rfl, proper⟩
  · rw [formed.setOf_fill isFree]
    refine formed.tree.insert ?_ (by show slot + 2 ≠ 1; omega) ?_ held
    · intro old listed same
      have isOld : old.inode = slot + 2 := same
      rw [formed.numbered old listed] at isOld
      obtain rfl : old.slot = slot := by omega
      have isEntry := formed.getElem?_slot listed
      rw [isFree] at isEntry
      cases isEntry
    · refine Placement.child_eq_none_iff.mp ?_
      show place.child table.entries parent (DirectoryEntry.text _) = none
      rw [DirectoryEntry.text_of_name named rfl rfl]
      exact unused

/-- A file has no children. -/
theorem childless_of_file
    (listed : entry ∈ table.entries)
    (isFile : entry.fileType = .file)
    (notRoot : entry.inode ≠ rootInode) :
    ∀ child ∈ table.entries, child.parent ≠ entry.inode := by
  intro child childListed isParent
  rcases formed.tree.held child childListed with isRoot | ⟨parent, parentListed, key, kind⟩
  · exact notRoot (isParent.symm.trans isRoot)
  · have same := formed.tree.distinct _ parentListed _ listed (key.trans isParent)
    rw [same] at kind
    simp [place, isFile] at kind

/-- Nothing is below what is removed. -/
theorem childless_of_remove (planned : planRemove table path expected = .ok entry) :
    ∀ child ∈ table.entries, child.parent ≠ entry.inode := by
  obtain ⟨-, notRoot, listed, isKind, empty⟩ := planRemove_spec planned
  cases expected with
  | file => exact formed.childless_of_file listed isKind notRoot
  | directory =>
    intro child childListed isParent
    exact empty ⟨rfl, List.any_eq_true.mpr ⟨child, childListed, decide_eq_true isParent⟩⟩

/-- The entries when one of them is taken out of its slot. -/
theorem setOf_clear (listed : entry ∈ table.entries) :
    ({ other | none = some other } ∪
      { other | other ∈ table.entries ∧ other.slot ≠ entry.slot } : Set DirectoryEntry) =
        { other | other ∈ table.entries ∧ place.key other ≠ place.key entry } := by
  ext other
  simp only [Set.mem_union, Set.mem_ofPred_eq, reduceCtorEq, false_or]
  refine and_congr_right fun otherListed => not_congr ?_
  exact (formed.key_eq_iff otherListed listed).symm

theorem remove (planned : planRemove table path expected = .ok entry) :
    Table.WellFormed (table.set entry.slot none) := by
  obtain ⟨-, -, listed, -, -⟩ := planRemove_spec planned
  refine formed.set (formed.slot_lt listed) (fun _ => nofun) ?_
  rw [formed.setOf_clear listed]
  exact formed.tree.remove (formed.childless_of_remove planned)

/-- The entries when one of them changes and keeps its slot. -/
theorem setOf_replace (listed : entry ∈ table.entries) :
    ({ other | some changed = some other } ∪
      { other | other ∈ table.entries ∧ other.slot ≠ entry.slot } : Set DirectoryEntry) =
        Insert.insert changed
          { other | other ∈ table.entries ∧ place.key other ≠ place.key entry } := by
  ext other
  simp only [Set.mem_union, Set.mem_ofPred_eq, Set.mem_insert_iff, Option.some.injEq]
  refine or_congr eq_comm (and_congr_right fun otherListed => not_congr ?_)
  exact (formed.key_eq_iff otherListed listed).symm

theorem rename (planned : planRename table oldPath newPath = some (.ok moved)) :
    moved.slot < maxFiles ∧ Table.WellFormed (table.set moved.slot (some moved)) := by
  obtain ⟨entry, newParentPath, newParent, newName, -, -, found, split, -, held, unused, avoids,
    rfl⟩ := planRename_spec planned
  have named := splitParentName_ok split
  obtain ⟨listed, -⟩ := Placement.mem_of_find found
  have isSlot := formed.slot_lt listed
  refine ⟨isSlot, formed.set isSlot ?_ ?_⟩
  · rintro other ⟨⟩
    exact ⟨rfl, formed.numbered entry listed,
      DirectoryEntry.proper_of_name named rfl rfl (formed.proper entry listed).len⟩
  · show place.IsTree (_ ∪ { other | other ∈ table.entries ∧ other.slot ≠ entry.slot })
    rw [formed.setOf_replace listed]
    refine formed.tree.move formed.finds listed rfl rfl ?_ held avoids
    refine Placement.child_eq_none_iff.mp ?_
    show place.child table.entries newParent (DirectoryEntry.text _) = none
    rw [DirectoryEntry.text_of_name named rfl rfl]
    exact unused

theorem extend (listed : entry ∈ table.entries) (fits : writeEnd ≤ maxFileSize) :
    Table.WellFormed (table.set entry.slot (some (entry.extend writeEnd))) := by
  refine formed.set (formed.slot_lt listed) ?_ ?_
  · rintro other ⟨⟩
    exact ⟨rfl, formed.numbered entry listed, (formed.proper entry listed).extend fits⟩
  · rw [formed.setOf_replace listed]
    exact formed.tree.update listed rfl rfl rfl rfl

theorem planRename_total (oldPath newPath : List Char) :
    ∃ planned, planRename table oldPath newPath = some planned := by
  unfold planRename
  repeat' split
  all_goals first
    | exact ⟨_, rfl⟩
    | next stuck =>
      obtain ⟨answer, ends⟩ := formed.isDescendant_total _ _
      exact absurd (ends.symm.trans stuck) (Option.some_ne_none answer)

/-- What an operation does to the directory keeps it well formed. -/
theorem effect (isEffect : effectOf table call = some (.ok (slot, changed))) :
    slot < maxFiles ∧ Table.WellFormed (table.set slot changed) := by
  cases call with
  | createNode path fileType =>
    rw [effectOf] at isEffect
    split at isEffect
    next => cases isEffect
    next parentPath name split =>
      split at isEffect
      next => cases isEffect
      next slot parent planned =>
        cases isEffect
        exact formed.create split planned
  | removeNode path expected =>
    rw [effectOf] at isEffect
    split at isEffect
    next => cases isEffect
    next entry planned =>
      cases isEffect
      exact ⟨formed.slot_lt (planRemove_spec planned).2.2.1, formed.remove planned⟩
  | rename oldPath newPath =>
    rw [effectOf] at isEffect
    split at isEffect
    next => cases isEffect
    next => cases isEffect
    next entry planned =>
      cases isEffect
      exact formed.rename planned
  | write inode offset source =>
    rw [effectOf] at isEffect
    split at isEffect
    next => cases isEffect
    next fits =>
      split at isEffect
      next => cases isEffect
      next entry planned =>
        cases isEffect
        have listed := (planAccess_spec planned).1
        exact ⟨formed.slot_lt listed, formed.extend listed (by omega)⟩

/-- The entries of a well formed table fit their bytes on the disk. -/
theorem fits (listed : entry ∈ table.entries) : entry.Fits := by
  have proper := formed.proper entry listed
  have small := formed.slot_lt listed
  have all : maxFiles = 32 := rfl
  have total : maxFileSize = 1024 := rfl
  have len := proper.len
  refine ⟨?_, by omega, formed.parent_fits (formed.tree.held entry listed), proper.name,
    proper.nameLen⟩
  rw [formed.numbered entry listed]
  omega

end WellFormed
end Table

end Vantfs
end Fs
end Vantara
