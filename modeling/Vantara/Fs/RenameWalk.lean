import Vantara.Foundation.ParentWalk
import Vantara.Fs.VolumeRuns

/-!
# The walk to the root in a rename

Renaming looks for the node to be moved among the parents of its new directory.  The
directory was found by names from the root, the parents are found by inode; the two agree
as long as no two entries have the same inode.
-/

namespace Vantara
namespace Fs
namespace Vantfs

open Foundation

/-- The request comes to the walk, and the parents by inode of the new directory run into
a cycle which does not contain what is moved. -/
def MovesIntoCycle (table : Table) (oldPath newPath : List Char) : Prop :=
  ∃ inode parentPath newName newParent,
    resolvePath table oldPath = some inode ∧ inode ≠ rootInode ∧
    splitParentName newPath = .ok (parentPath, newName) ∧
    resolvePath table parentPath = some newParent ∧
    isNoneOrNotDirectory place (findInode table newParent) = false ∧
    child table newParent newName = none ∧
    place.Cycles (findInode table) newParent inode

theorem isDescendant_eq_none_iff :
    isDescendant table newParent inode = none ↔
      place.Cycles (findInode table) newParent inode := by
  rw [← not_iff_not, ← ne_eq, Option.ne_none_iff_exists']
  exact Placement.descends_ends_iff

theorem planRename_eq_none_iff :
    planRename table oldPath newPath = none ↔ MovesIntoCycle table oldPath newPath := by
  constructor
  · intro stuck
    unfold planRename at stuck
    repeat' split at stuck
    all_goals try cases stuck
    rename_i _ inode source notRoot _ parentPath newName isSplit _ newParent target directory free
      _ walk
    have cycles := isDescendant_eq_none_iff.mp walk
    have ⟨_, ⟨below, _⟩, _⟩ := cycles.goesOn
    refine ⟨inode, parentPath, newName, newParent, source, notRoot, isSplit, target, ?_, ?_, cycles⟩
    · exact eq_false_of_ne_true fun wrong => directory ⟨below, wrong⟩
    · exact Option.not_isSome_iff_eq_none.mp free
  · rintro ⟨inode, parentPath, newName, newParent, source, notRoot, isSplit, target, directory,
      free, cycles⟩
    simp only [planRename, source, if_neg notRoot, isSplit, target, directory, free,
      isDescendant_eq_none_iff.mpr cycles, Bool.false_eq_true, and_false, if_false,
      Option.isSome_none]

/-- On a disk whose directory is accepted the walk of a rename ends within as many look-ups
as there are entries unless there is a cycle, and never if there is one; and a rename ends
unless it walks into a cycle. -/
theorem rename_ends_iff
    (accepted : readEntries disk = .ok table opened)
    (oldPath newPath : List Char) :
    (∀ newParent inode, (∃ answer, isDescendant table newParent inode = some answer) ↔
      ¬ place.Cycles (findInode table) newParent inode) ∧
    (∀ newParent inode, place.Cycles (findInode table) newParent inode →
      ∀ fuel, place.descends (findInode table) fuel newParent inode = none) ∧
    ((∀ after, rename oldPath newPath disk ≠ .ok none after) ↔
      ¬ (disk.available = true ∧ MovesIntoCycle table oldPath newPath)) := by
  refine ⟨fun _ _ => Placement.descends_ends_iff, fun _ _ cycles => cycles.descends_eq_none, ?_⟩
  rw [rename]
  by_cases isAvailable : disk.available = true
  · rw [run_bind_ok (ensureAvailable_of_available isAvailable), run_bind_ok accepted,
      and_iff_right isAvailable, ← planRename_eq_none_iff]
    constructor
    · intro ends stuck
      rw [stuck] at ends
      exact ends opened rfl
    · intro ends after
      obtain ⟨planned, isPlanned⟩ := Option.ne_none_iff_exists'.mp ends
      rw [isPlanned]
      cases planned with
      | error error => rintro ⟨⟩
      | ok entry =>
        show EStateM.bind (writeEntry entry) _ opened ≠ _
        rw [EStateM.bind]
        split <;> rintro ⟨⟩
  · refine iff_of_true (fun after => ?_) fun both => isAvailable both.1
    have refused : ensureAvailable disk = .error .unavailable disk := if_neg isAvailable
    rw [run_bind_error refused]
    rintro ⟨⟩

/-! ## A disk on which the walk does not end -/

namespace Sample

/-- A directory that claims to be its own parent. -/
def loopEntry : DirectoryEntry :=
  ⟨0, 5, 0, 5, .directory, padName [0x78], 1⟩

/-- A directory below the root with the same inode. -/
def shadowedEntry : DirectoryEntry :=
  ⟨1, 5, 0, 1, .directory, padName [0x64], 1⟩

/-- A file in the root. -/
def fileEntry : DirectoryEntry :=
  ⟨2, 7, 0, 1, .file, padName [0x66], 1⟩

/-- A disk with some entries in the first block of its directory. -/
def diskOf (entries : List DirectoryEntry) : Disk where
  blocks := fun index =>
    if index = 1 then
      entries.foldl (fun block entry => spliceEntry block entry.slot (entryByte entry)) fun _ => 0
    else fun _ => 0
  available := true
  faults := []
  log := []

/-- A disk on which two entries have the same inode. -/
def loopDisk : Disk := diskOf [loopEntry, shadowedEntry, fileEntry]

/-- The directory of that disk. -/
def loopTable : Table :=
  [some loopEntry, some shadowedEntry, some fileEntry] ++ List.replicate 29 none

end Sample

/-- The directory of the sample is accepted, and renaming a file into the directory `/d`
walks from inode to inode without end. -/
theorem rename_walks_forever :
    answer (readEntries Sample.loopDisk) = some Sample.loopTable ∧
    resolvePath Sample.loopTable ['/', 'f'] = some 7 ∧
    resolvePath Sample.loopTable ['/', 'd'] = some 5 ∧
    (∀ fuel, place.descends (findInode Sample.loopTable) fuel 5 7 = none) ∧
    answer (rename ['/', 'f'] ['/', 'd', '/', 'g'] Sample.loopDisk) = some none := by
  refine ⟨by decide +kernel, by decide +kernel, by decide +kernel, ?_, by decide +kernel⟩
  intro fuel
  induction fuel with
  | zero => rfl
  | succ fuel ih =>
    have found : findInode Sample.loopTable 5 = some Sample.loopEntry := by decide +kernel
    rw [Placement.descends, if_neg (by decide), if_neg (by decide), found]
    exact ih

/-- Two entries have the same inode here, too, but there is no cycle. -/
theorem rename_ends_iff_shared :
    let entries := [{ Sample.loopEntry with parent := 1 }, Sample.shadowedEntry, Sample.fileEntry]
    let table := entries.map some ++ List.replicate 29 none
    answer (readEntries (Sample.diskOf entries)) = some table ∧
      ¬ (table.entries.map DirectoryEntry.inode).Nodup ∧
      ¬ MovesIntoCycle table ['/', 'f'] ['/', 'd', '/', 'g'] := by
  intro entries table
  have read : answer (readEntries (Sample.diskOf entries)) = some table := by decide +kernel
  have renamed : answer (rename ['/', 'f'] ['/', 'd', '/', 'g'] (Sample.diskOf entries)) =
      some (some 7) := by decide +kernel
  refine ⟨read, by decide +kernel, fun cycle => ?_⟩
  cases accepted : readEntries (Sample.diskOf entries) with
  | error error opened => simp [accepted, answer] at read
  | ok found opened =>
    obtain rfl : found = table := by simpa [accepted, answer] using read
    refine (rename_ends_iff accepted ['/', 'f'] ['/', 'd', '/', 'g']).2.2.mp ?_ ⟨rfl, cycle⟩
    intro after stuck
    simp [stuck, answer] at renamed

end Vantfs
end Fs
end Vantara
