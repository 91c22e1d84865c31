import Vantara.Fs.Format
import Vantara.Fs.VolumeTree

/-!
# Operations on a volume

An operation on a volume with a well formed directory either does to the directory
what it is to do, or leaves it; if an access fails on the way, one of the two still
holds.  The contents of the other files stay in any case.
-/

namespace Vantara
namespace Fs
namespace Vantfs

open Foundation

/-- The contents of all slots but one are as they were. -/
def OthersKept (slot : Nat) (before after : Blocks) : Prop :=
  ∀ other < maxFiles, other ≠ slot → ∀ index < maxFileSize,
    content after other index = content before other index

/-- The contents of all slots are as they were. -/
def DataKept (before after : Blocks) : Prop :=
  ∀ slot < maxFiles, ∀ index < maxFileSize, content after slot index = content before slot index

theorem DataKept.othersKept (kept : DataKept before after) : OthersKept slot before after :=
  fun other isSlot _ => kept other isSlot

theorem OthersKept.trans (first : OthersKept slot before middle)
    (second : OthersKept slot middle after) :
    OthersKept slot before after :=
  fun other isSlot differ index inside =>
    (second other isSlot differ index inside).trans (first other isSlot differ index inside)

theorem OnlyData.othersKept (only : OnlyData slot before after) : OthersKept slot before after := by
  intro other _ differ index inside
  have size : blockSize = 512 := rfl
  have total : maxFileSize = 1024 := rfl
  have width : blocksPerFile = 2 := rfl
  have first : index / 512 < 2 := by omega
  rw [content, content, size, only]
  all_goals
    rw [dataBlock, dataBlock, width]
    omega

theorem dataKept_update (isSlot : slot < maxFiles) :
    DataKept blocks (Function.update blocks (blockOfSlot slot) block) := by
  intro other _ index _
  have width : entriesPerBlock = 8 := rfl
  have all : maxFiles = 32 := rfl
  have start : dataStartBlock = 5 := rfl
  have first : directoryStartBlock = 1 := rfl
  rw [content, content, Function.update_of_ne]
  have files : blocksPerFile = 2 := rfl
  generalize index / blockSize = fileBlock
  rw [dataBlock, blockOfSlot, start, width, first, files]
  omega

theorem Reads.of_onlyData (reads : Reads blocks table) (only : OnlyData slot blocks after) :
    Reads after table := by
  refine ⟨reads.length, fun other isSlot => ?_⟩
  have width : entriesPerBlock = 8 := rfl
  have all : maxFiles = 32 := rfl
  have start : dataStartBlock = 5 := rfl
  have first : directoryStartBlock = 1 := rfl
  rw [← reads.parse other isSlot, only]
  all_goals
    rw [dataBlock, blockOfSlot, start, width, first]
    omega

theorem writeEmptyEntry_spec (isSlot : slot < maxFiles) :
    Attempt (Disk.Kept blocks clean) (writeEmptyEntry slot)
      (fun _ => Disk.Kept (rewritten blocks slot fun _ => 0) clean)
      (fun _ disk => ¬ clean ∧
        (disk.blocks = blocks ∨ disk.blocks = rewritten blocks slot fun _ => 0)) :=
  rewriteSlot_spec isSlot

/-- Reading the directory gives this one, and fails only with the disk. -/
def ReadsBack (disk : Disk) (table : Table) : Prop :=
  (disk.faults = [] → ∃ last, readEntries disk = .ok table last) ∧
    ∀ other last, readEntries disk = .ok other last → other = table

theorem readsBack_of_reads {disk : Disk} (reads : Reads disk.blocks table) :
    ReadsBack disk table := by
  refine ⟨fun clean => ?_, fun other last ran => ?_⟩
  · obtain ⟨last, ran, -⟩ := reads.readEntries clean
    exact ⟨last, ran⟩
  · exact ((@readEntries_spec disk.blocks False).of_ok ⟨rfl, False.elim⟩ ran).1.unique reads

/-- An entry that is written or emptied in a directory that can be read is read back, with
all others as before. -/
theorem entries_round_trip
    (accepted : readEntries disk = .ok table opened)
    (isSlot : slot < maxFiles) :
    table.length = maxFiles ∧
      (∀ entry : DirectoryEntry, entry.slot = slot → entry.Fits → ∀ after,
        writeEntry entry opened = .ok () after →
          ReadsBack after (table.set slot (some entry))) ∧
      ∀ after, writeEmptyEntry slot opened = .ok () after →
        ReadsBack after (table.set slot none) := by
  obtain ⟨reads, kept⟩ :=
    (@readEntries_spec disk.blocks False).of_ok ⟨rfl, False.elim⟩ accepted
  refine ⟨reads.length, ?_, fun after written => readsBack_of_reads ?_⟩
  · rintro entry rfl fits after written
    apply readsBack_of_reads
    rw [((writeEntry_spec isSlot).of_ok kept written).blocks]
    exact reads.splice isSlot (parseEntry_entryByte fits rfl)
  · rw [((writeEmptyEntry_spec isSlot).of_ok kept written).blocks]
    exact reads.splice isSlot parseEntry_empty

/-- A disk with one entry, in the third slot. -/
def oneEntry : Disk := lastDisk (writeEntry (.new 2 1 [98] .file) ⟨fun _ _ => 0, true, [], []⟩)

/-- The next slot of the same block is written. -/
theorem entries_round_trip_neighbour :
    ReadsBack (lastDisk (writeEntry (.new 3 1 [97] .file) (lastDisk (readEntries oneEntry))))
      (((List.replicate 32 none).set 2 (some (.new 2 1 [98] .file))).set 3
        (some (.new 3 1 [97] .file))) :=
  (@entries_round_trip oneEntry ((List.replicate 32 none).set 2 (some (.new 2 1 [98] .file))) _ 3
    (by with_unfolding_all rfl) (by decide)).2.1 (.new 3 1 [97] .file) rfl
      ⟨by decide, by decide, by decide, by decide, by decide⟩ _ rfl

theorem ensureAvailable_spec :
    Attempt (fun disk => disk.available = true ∧ disk.Kept blocks clean) ensureAvailable
      (fun _ => Disk.Kept blocks clean) failed := by
  rintro disk ⟨isAvailable, kept⟩
  rw [ensureAvailable_of_available isAvailable]
  exact kept

/-! ## What an operation leaves behind -/

/-- What becomes of the contents of the slot an operation changes. -/
def Contents (call : VolumeCall) (slot : Nat) (before after : Blocks) : Prop :=
  match call with
  | .createNode _ .file => ∀ index < maxFileSize, content after slot index = 0
  | .createNode _ .directory => True
  | .removeNode _ _ => True
  | .rename _ _ => DataKept before after
  | .write _ offset source => ∀ index < maxFileSize, content after slot index =
      if offset ≤ index ∧ index < offset + source.length then source.getD (index - offset) 0
      else content before slot index

/-- The number an operation answers. -/
def answerOf (slot : Nat) : VolumeCall → Nat
  | .write _ _ source => source.length
  | _ => slot + 2

/-- The operation has been carried out. -/
structure Done (call : VolumeCall) (blocks : Blocks) (table : Table) (slot : Nat)
    (changed : Option DirectoryEntry)
    (after : Blocks) : Prop where
  effect : effectOf table call = some (.ok (slot, changed))
  reads : Reads after (table.set slot changed)
  others : OthersKept slot blocks after
  contents : Contents call slot blocks after

/-- The operation has failed: without a failed access it was refused and has changed
nothing, and else it has left the directory as it was or as it was to be. -/
structure Failed (call : VolumeCall) (blocks : Blocks) (table : Table) (clean : Prop)
    (error : FsError)
    (disk : Disk) : Prop where
  refused : clean → effectOf table call = some (.error error) ∧ disk.blocks = blocks
  interrupted : disk.blocks = blocks ∨ ∃ slot changed,
    effectOf table call = some (.ok (slot, changed)) ∧
      (Reads disk.blocks table ∨ Reads disk.blocks (table.set slot changed)) ∧
      OthersKept slot blocks disk.blocks

theorem Failed.of_unchanged (notClean : ¬ clean) (same : disk.blocks = blocks) :
    Failed call blocks table clean error disk :=
  ⟨fun isClean => absurd isClean notClean, .inl same⟩

theorem Failed.of_refused
    (effect : effectOf table call = some (.error error))
    (same : disk.blocks = blocks) :
    Failed call blocks table clean error disk :=
  ⟨fun _ => ⟨effect, same⟩, .inl same⟩

theorem Failed.of_before
    (notClean : ¬ clean)
    (effect : effectOf table call = some (.ok (slot, changed)))
    (reads : Reads disk.blocks table) (others : OthersKept slot blocks disk.blocks) :
    Failed call blocks table clean error disk :=
  ⟨fun isClean => absurd isClean notClean, .inr ⟨slot, changed, effect, .inl reads, others⟩⟩

theorem Failed.of_after
    (notClean : ¬ clean)
    (effect : effectOf table call = some (.ok (slot, changed)))
    (reads : Reads disk.blocks (table.set slot changed))
    (others : OthersKept slot blocks disk.blocks) :
    Failed call blocks table clean error disk :=
  ⟨fun isClean => absurd isClean notClean, .inr ⟨slot, changed, effect, .inr reads, others⟩⟩

/-- An operation starts on an available disk without faults. -/
theorem starts_kept :
    blocks.disk.available = true ∧ Disk.Kept blocks True blocks.disk :=
  ⟨rfl, rfl, fun _ => rfl⟩

/-- A program carries the operation out, with an answer that fits its slot, or fails. -/
def Performs (call : VolumeCall) (blocks : Blocks) (table : Table) (clean : Prop)
    (program : DiskM α)
    (answers : α → Nat → Prop) : Prop :=
  Attempt (fun disk => disk.available = true ∧ disk.Kept blocks clean) program
    (fun value disk => ∃ slot changed, answers value slot ∧ ∃ after,
      Done call blocks table slot changed after ∧ disk.Kept after clean)
    (Failed call blocks table clean)

section Operations

variable {blocks : Blocks} {table : Table} {clean : Prop}
  (reads : Reads blocks table) (formed : table.WellFormed)

include reads in
/-- Every operation reads the directory it starts from. -/
theorem readEntries_known
    (unchanged : ∀ error disk, ¬ clean → disk.blocks = blocks → failed error disk) :
    Attempt (Disk.Kept blocks clean) readEntries
      (fun found disk => found = table ∧ disk.Kept blocks clean) failed := by
  refine readEntries_spec.consequence (fun _ kept => kept) ?_ ?_
  · exact fun found disk ended => ⟨ended.1.unique reads, ended.2⟩
  · exact fun error disk ended =>
      unchanged error disk (fun isClean => ended.2 isClean table reads) ended.1

include formed in
/-- The directory after an entry is rewritten. -/
theorem Reads.rewritten (middle : Reads before table)
    (effect : effectOf table call = some (.ok (entry.slot, some entry))) :
    Reads (rewritten before entry.slot (entryByte entry)) (table.set entry.slot (some entry)) := by
  obtain ⟨isSlot, after⟩ := formed.effect effect
  have listed : entry ∈ Table.entries (table.set entry.slot (some entry)) := by
    refine Table.mem_entries.mpr ⟨entry.slot, List.getElem?_set_self ?_⟩
    rw [formed.length]
    exact isSlot
  exact middle.splice isSlot (parseEntry_entryByte (after.fits listed) rfl)

include formed in
/-- The last step of the operations that write an entry. -/
theorem writeEntry_last
    (effect : effectOf table call = some (.ok (entry.slot, some entry)))
    (middle : Reads before table) (others : OthersKept entry.slot blocks before)
    (contents : ∀ after, DataKept before after → Contents call entry.slot blocks after) :
    Attempt (Disk.Kept before clean)
      (do
        writeEntry entry
        pure value : DiskM α)
      (fun answer disk => answer = value ∧
        ∃ after, Done call blocks table entry.slot (some entry) after ∧ disk.Kept after clean)
      (Failed call blocks table clean) := by
  obtain ⟨isSlot, -⟩ := formed.effect effect
  have kept : DataKept before (rewritten before entry.slot (entryByte entry)) :=
    dataKept_update isSlot
  have last := Reads.rewritten formed middle effect
  refine ((writeEntry_spec isSlot).failing ?failed).bind fun _ => .pure ?ended
  case failed =>
    rintro error disk ⟨notClean, same | stored⟩
    · exact .of_before notClean effect (same ▸ middle) (same ▸ others)
    · have isAfter : disk.blocks = rewritten before entry.slot (entryByte entry) := stored
      exact .of_after notClean effect (isAfter ▸ last)
        (isAfter ▸ others.trans kept.othersKept)
  case ended =>
    exact fun disk isKept => ⟨rfl, _,
      ⟨effect, last, others.trans kept.othersKept, contents _ kept⟩, isKept⟩

include reads formed

theorem createNode_spec :
    Performs (.createNode path fileType) blocks table clean (createNode path fileType)
      fun stat slot => stat.inode = slot + 2 ∧ stat.fileType = fileType ∧ stat.size = 0 := by
  rw [Performs, createNode]
  refine ensureAvailable_spec.bind fun _ => ?_
  cases split : splitParentName path with
  | error error =>
    exact .throw fun disk kept => .of_refused (by rw [effectOf, split]) kept.blocks
  | ok parts =>
    obtain ⟨parentPath, name⟩ := parts
    refine (readEntries_known reads fun _ _ => .of_unchanged).bind fun found => .assuming ?_
    rintro rfl
    dsimp only
    cases planned : planCreate found parentPath name with
    | error error =>
      exact .throw fun disk kept => .of_refused (by rw [effectOf, split]; simp only [planned])
        kept.blocks
    | ok target =>
      obtain ⟨slot, parent⟩ := target
      have effect : effectOf found (.createNode path fileType) =
          some (.ok (slot, some (.new slot parent name fileType))) := by
        rw [effectOf, split]
        simp only [planned]
      obtain ⟨isSlot, -⟩ := formed.effect effect
      dsimp only
      cases fileType with
      | file =>
        rw [if_pos rfl]
        refine ((clearData_spec isSlot).failing fun _ disk lost => ?_).bind fun _ =>
            .fixing fun middle => .assuming fun cleared => ?_
        · exact .of_before lost.1 effect (reads.of_onlyData lost.2) lost.2.othersKept
        · refine (writeEntry_last formed effect (reads.of_onlyData cleared.only)
            cleared.only.othersKept ?_).giving ?_
          · intro after kept index inside
            exact (kept slot isSlot index inside).trans (cleared.content index inside)
          · rintro _ disk ⟨rfl, after, done, kept⟩
            exact ⟨slot, _, ⟨rfl, rfl, rfl⟩, after, done, kept⟩
      | directory =>
        rw [if_neg (by decide)]
        have contents : ∀ after, DataKept blocks after →
            Contents (.createNode path .directory) slot blocks after := fun _ _ => trivial
        refine (writeEntry_last formed effect reads (fun _ _ _ _ _ => rfl)
          contents).giving ?_
        rintro _ disk ⟨rfl, after, done, kept⟩
        exact ⟨slot, _, ⟨rfl, rfl, rfl⟩, after, done, kept⟩

theorem removeNode_spec :
    Performs (.removeNode path expected) blocks table clean (removeNode path expected)
      fun inode slot => inode = slot + 2 := by
  rw [Performs, removeNode]
  refine ensureAvailable_spec.bind fun _ =>
    (readEntries_known reads fun _ _ => .of_unchanged).bind fun found => .assuming ?_
  rintro rfl
  cases planned : planRemove found path expected with
  | error error =>
    exact .throw fun disk kept => .of_refused (by rw [effectOf, planned]) kept.blocks
  | ok entry =>
    have effect : effectOf found (.removeNode path expected) =
        some (.ok (entry.slot, none)) := by
      rw [effectOf, planned]
    obtain ⟨isSlot, -⟩ := formed.effect effect
    have listed := (planRemove_spec planned).2.2.1
    have isInode := formed.numbered entry listed
    have last : Reads (rewritten blocks entry.slot fun _ => 0) (found.set entry.slot none) :=
      reads.splice isSlot parseEntry_empty
    have kept : DataKept blocks (rewritten blocks entry.slot fun _ => 0) :=
      dataKept_update isSlot
    dsimp only
    refine ((writeEmptyEntry_spec isSlot).failing ?failed).bind fun _ => ?_
    case failed =>
      rintro error disk ⟨notClean, same | stored⟩
      · exact .of_unchanged notClean same
      · exact .of_after notClean effect (stored ▸ last) (stored ▸ kept.othersKept)
    split_ifs with isFile
    · refine ((clearData_spec isSlot).failing ?interrupted).bind fun _ => .fixing fun after =>
        .assuming fun cleared => .pure ?ended
      case interrupted =>
        rintro error disk ⟨notClean, only⟩
        exact .of_after notClean effect (last.of_onlyData only)
          (kept.othersKept.trans only.othersKept)
      case ended =>
        exact fun disk isKept => ⟨entry.slot, none, isInode, after,
          ⟨effect, last.of_onlyData cleared.only,
            kept.othersKept.trans cleared.only.othersKept, trivial⟩, isKept⟩
    · exact .pure fun disk isKept => ⟨entry.slot, none, isInode, _,
        ⟨effect, last, kept.othersKept, trivial⟩, isKept⟩

theorem rename_spec :
    Performs (.rename oldPath newPath) blocks table clean (rename oldPath newPath)
      fun inode slot => inode = some (slot + 2) := by
  rw [Performs, rename]
  refine ensureAvailable_spec.bind fun _ =>
    (readEntries_known reads fun _ _ => .of_unchanged).bind fun found => .assuming ?_
  rintro rfl
  obtain ⟨planned, ends⟩ := formed.planRename_total oldPath newPath
  rw [ends]
  cases planned with
  | error error => exact .throw fun disk kept => .of_refused (by rw [effectOf, ends]) kept.blocks
  | ok moved =>
    have effect : effectOf found (.rename oldPath newPath) =
        some (.ok (moved.slot, some moved)) := by
      rw [effectOf, ends]
    obtain ⟨entry, -, newParent, newName, -, -, isFound, -, -, -, -, -, rfl⟩ := planRename_spec ends
    have isInode := formed.numbered entry (Placement.mem_of_find isFound).1
    refine (writeEntry_last formed effect reads (fun _ _ _ _ _ => rfl)
      fun _ kept => kept).giving ?_
    rintro _ disk ⟨rfl, after, done, kept⟩
    exact ⟨_, _, congrArg some isInode, after, done, kept⟩

theorem write_spec :
    Performs (.write inode offset source) blocks table clean (write inode offset source)
      fun count _ => count = source.length := by
  rw [Performs, write]
  refine ensureAvailable_spec.bind fun _ => ?_
  by_cases tooLarge : offset + source.length ≥ 2 ^ 64 ∨ offset + source.length > maxFileSize
  · rw [if_pos tooLarge]
    exact .throw fun disk kept => .of_refused (by rw [effectOf, if_pos tooLarge]) kept.blocks
  rw [if_neg tooLarge]
  refine (readEntries_known reads fun _ _ => .of_unchanged).bind fun found => .assuming ?_
  rintro rfl
  cases planned : planAccess found inode with
  | error error =>
    exact .throw fun disk kept =>
      .of_refused (by rw [effectOf, if_neg tooLarge, planned]) kept.blocks
  | ok entry =>
    have effect : effectOf found (.write inode offset source) =
        some (.ok ((entry.extend (offset + source.length)).slot,
          some (entry.extend (offset + source.length)))) := by
      rw [effectOf, if_neg tooLarge, planned]
      rfl
    have isSlot : entry.slot < maxFiles := (formed.effect effect).1
    dsimp only
    refine ((writeData_spec isSlot (by omega)).failing ?failed).bind fun _ => .fixing fun middle =>
        .assuming fun wrote => ?_
    case failed =>
      rintro error disk ⟨notClean, only⟩
      exact .of_before notClean effect (reads.of_onlyData only) only.othersKept
    refine (writeEntry_last formed effect (reads.of_onlyData wrote.only)
      wrote.only.othersKept ?_).giving ?_
    · intro after kept index inside
      exact (kept entry.slot isSlot index inside).trans (wrote.content index inside)
    · rintro _ disk ⟨rfl, after, done, kept⟩
      exact ⟨_, _, rfl, after, done, kept⟩

omit reads formed in
/-- Carry out an operation and give its number; there is none if it does not end. -/
def perform : VolumeCall → DiskM (Option Nat)
  | .createNode path fileType => do
      let stat ← createNode path fileType
      pure (some stat.inode)
  | .removeNode path expected => do
      let inode ← removeNode path expected
      pure (some inode)
  | .rename oldPath newPath => rename oldPath newPath
  | .write inode offset source => do
      let count ← write inode offset source
      pure (some count)

theorem perform_spec :
    Performs call blocks table clean (perform call)
      fun number slot => number = some (answerOf slot call) := by
  cases call with
  | createNode path fileType =>
    refine (createNode_spec reads formed).bind fun stat => .pure ?_
    rintro disk ⟨slot, changed, ⟨isInode, -, -⟩, rest⟩
    exact ⟨slot, changed, congrArg some isInode, rest⟩
  | removeNode path expected =>
    refine (removeNode_spec reads formed).bind fun inode => .pure ?_
    rintro disk ⟨slot, changed, isInode, rest⟩
    exact ⟨slot, changed, congrArg some isInode, rest⟩
  | rename oldPath newPath => exact rename_spec reads formed
  | write inode offset source =>
    refine (write_spec reads formed).bind fun count => .pure ?_
    rintro disk ⟨slot, changed, isCount, rest⟩
    exact ⟨slot, changed, congrArg some isCount, rest⟩

end Operations

/-! ## Volumes that operations lead to -/

/-- The blocks after an operation none of whose accesses fails. -/
def performed (blocks : Blocks) (call : VolumeCall) : Blocks :=
  (lastDisk (perform call blocks.disk)).blocks

/-- The blocks of a disk that was formatted. -/
def formatted (image : Blocks) : Blocks :=
  (lastDisk (formatVolume image.disk)).blocks

/-- The blocks after formatting a disk and some operations. -/
def volumeAfter (image : Blocks) (calls : List VolumeCall) : Blocks :=
  calls.foldl performed (formatted image)

/-- The directory that can be read from blocks. -/
def tableOf (blocks : Blocks) : Option Table :=
  answer (readEntries blocks.disk)

theorem tableOf_eq_some_iff : tableOf blocks = some table ↔ Reads blocks table := by
  have spec := @readEntries_spec blocks True
  have kept : Disk.Kept blocks True blocks.disk := ⟨rfl, fun _ => rfl⟩
  rw [tableOf]
  cases ran : readEntries blocks.disk with
  | ok found after =>
    have isFound := (spec.of_ok kept ran).1
    rw [answer, Option.some.injEq]
    exact ⟨fun same => same ▸ isFound, fun reads => isFound.unique reads⟩
  | error error after =>
    rw [answer]
    exact ⟨nofun, fun reads => absurd reads ((spec.of_error kept ran).2 trivial _)⟩

/-- A volume: its directory can be read and is well formed. -/
def IsVolume (blocks : Blocks) (table : Table) : Prop :=
  Reads blocks table ∧ table.WellFormed

theorem isVolume_formatted (image : Blocks) :
    IsVolume (formatted image) (List.replicate maxFiles none) := by
  refine ⟨?_, Table.wellFormed_empty⟩
  have inside : ∀ write ∈ formatWrites, write.1 < diskBlocks := by
    simp [formatWrites, diskBlocks]
  have ran := (@writeAll_spec formatWrites image.disk inside).1
  have all : formatted image = halfFormatted image 5 := ran
  rw [all, emptyAfter_iff]
  intro slot isSlot beyond
  have bounds := blockOfSlot_bounds isSlot
  omega

/-- An operation none of whose accesses fails is carried out, or refused and changes
nothing. -/
theorem performed_spec (volume : IsVolume blocks table) (call : VolumeCall) :
    (∃ slot changed, answer (perform call blocks.disk) = some (some (answerOf slot call)) ∧
      Done call blocks table slot changed (performed blocks call)) ∨
    ∃ error, answer (perform call blocks.disk) = none ∧
      effectOf table call = some (.error error) ∧ performed blocks call = blocks := by
  have spec := @perform_spec _ _ True volume.1 volume.2 call
  rw [performed]
  cases ran : perform call blocks.disk with
  | ok number last =>
    obtain ⟨slot, changed, rfl, after, done, isKept⟩ := spec.of_ok starts_kept ran
    exact .inl ⟨slot, changed, rfl, isKept.blocks ▸ done⟩
  | error error last =>
    obtain ⟨effect, same⟩ := (spec.of_error starts_kept ran).refused trivial
    exact .inr ⟨error, rfl, effect, same⟩

theorem IsVolume.performed (volume : IsVolume blocks table) (call : VolumeCall) :
    ∃ after, IsVolume (performed blocks call) after := by
  rcases performed_spec volume call with ⟨slot, changed, -, done⟩ | ⟨error, -, -, same⟩
  · exact ⟨_, done.reads, (volume.2.effect done.effect).2⟩
  · exact ⟨table, same.symm ▸ volume⟩

/-- After formatting and any operations there is a volume. -/
theorem isVolume_volumeAfter (image : Blocks) (calls : List VolumeCall) :
    ∃ table, IsVolume (volumeAfter image calls) table := by
  have step : ∀ blocks table, IsVolume blocks table →
      ∃ table, IsVolume (calls.foldl performed blocks) table := by
    induction calls with
    | nil => exact fun blocks table volume => ⟨table, volume⟩
    | cons call rest ih =>
      intro blocks table volume
      obtain ⟨after, next⟩ := volume.performed call
      exact ih _ _ next
  exact step _ _ (isVolume_formatted image)

/-- The directory satisfies the tree invariant: the entry in slot `i` has inode `i + 2`,
names are unique in their directory, parents are directories, every chain of parents
ends at the root, and no file is longer than 1024 bytes. -/
structure Table.Invariant (table : Table) : Prop where
  numbered : ∀ (slot : Nat) (entry : DirectoryEntry), table[slot]? = some (some entry) →
    entry.inode = slot + 2
  named : ∀ left ∈ table.entries, ∀ right ∈ table.entries, left.parent = right.parent →
    left.name.take left.nameLen = right.name.take right.nameLen → left = right
  parents : ∀ entry ∈ table.entries, entry.parent = rootInode ∨
    ∃ parent ∈ table.entries, parent.inode = entry.parent ∧ parent.fileType = .directory
  acyclic : ∀ entry ∈ table.entries,
    ∃ depth, place.Depth { entry | entry ∈ table.entries } depth entry.inode
  sized : ∀ entry ∈ table.entries, entry.len ≤ maxFileSize

theorem Table.WellFormed.invariant (formed : Table.WellFormed table) :
    Table.Invariant table where
  numbered slot entry isEntry := by
    rw [formed.numbered entry (Table.mem_entries.mpr ⟨slot, isEntry⟩),
      formed.indexed slot entry isEntry]
  named left isLeft right isRight sameParent sameName := by
    refine formed.tree.named left isLeft right isRight sameParent ?_
    exact ((formed.proper left isLeft).text.trans sameName).trans
      (formed.proper right isRight).text.symm
  parents entry listed := by
    refine (formed.tree.held entry listed).imp id ?_
    rintro ⟨parent, parentListed, isKey, isDirectory⟩
    exact ⟨parent, parentListed, isKey, of_decide_eq_true isDirectory⟩
  acyclic := formed.tree.grounded
  sized entry listed := (formed.proper entry listed).len

/-- An operation on a volume, whichever accesses fail on the way, ends and leaves a
directory that can be read and satisfies the invariant; it is the one before the
operation or the one after its complete success; and the data of every file but the
one whose slot the operation changes is as it was. -/
theorem perform_survives_faults (image : Blocks) (calls : List VolumeCall) (call : VolumeCall)
    (faults : List Fault) :
    ∃ table after,
      tableOf (volumeAfter image calls) = some table ∧
      answer (perform call ⟨volumeAfter image calls, true, faults, []⟩) ≠ some none ∧
      tableOf (lastDisk (perform call ⟨volumeAfter image calls, true, faults, []⟩)).blocks =
        some after ∧
      after.Invariant ∧
      (after = table ∨ tableOf (performed (volumeAfter image calls) call) = some after) ∧
      ∀ entry ∈ table.entries,
        (∀ slot changed, effectOf table call = some (.ok (slot, changed)) → entry.slot ≠ slot) →
        ∀ index < maxFileSize,
          content (lastDisk (perform call ⟨volumeAfter image calls, true, faults, []⟩)).blocks
              entry.slot index =
            content (volumeAfter image calls) entry.slot index := by
  obtain ⟨table, volume⟩ := isVolume_volumeAfter image calls
  generalize volumeAfter image calls = blocks at volume ⊢
  have spec := @perform_spec _ _ (faults = []) volume.1 volume.2 call
  have kept : (⟨blocks, true, faults, []⟩ : Disk).available = true ∧
      Disk.Kept blocks (faults = []) ⟨blocks, true, faults, []⟩ := ⟨rfl, rfl, id⟩
  have complete : ∀ slot changed, effectOf table call = some (.ok (slot, changed)) →
      tableOf (performed blocks call) = some (table.set slot changed) := by
    intro slot changed effect
    rcases performed_spec volume call with ⟨target, entry, -, done⟩ | ⟨error, -, refused, -⟩
    · have same := done.effect.symm.trans effect
      cases same
      exact tableOf_eq_some_iff.mpr done.reads
    · rw [effect] at refused
      cases refused
  cases ran : perform call ⟨blocks, true, faults, []⟩ with
  | ok number last =>
    obtain ⟨slot, changed, rfl, after, done, isKept⟩ := spec.of_ok kept ran
    have last := isKept.blocks ▸ done.reads
    refine ⟨table, table.set slot changed, tableOf_eq_some_iff.mpr volume.1, nofun,
      tableOf_eq_some_iff.mpr last, (volume.2.effect done.effect).2.invariant,
      .inr (complete slot changed done.effect), ?_⟩
    intro entry listed isOther index inside
    have others : OthersKept slot blocks _ := isKept.blocks ▸ done.others
    exact others entry.slot (volume.2.slot_lt listed) (isOther slot changed done.effect)
      index inside
  | error error last =>
    rcases (spec.of_error kept ran).interrupted with
      same | ⟨slot, changed, effect, isBefore | isAfter, others⟩
    · refine ⟨table, table, tableOf_eq_some_iff.mpr volume.1, nofun,
        tableOf_eq_some_iff.mpr (same ▸ volume.1), volume.2.invariant, .inl rfl, ?_⟩
      exact fun entry _ _ index _ => by rw [lastDisk, same]
    · refine ⟨table, table, tableOf_eq_some_iff.mpr volume.1, nofun,
        tableOf_eq_some_iff.mpr isBefore, volume.2.invariant, .inl rfl, ?_⟩
      exact fun entry listed isOther =>
        others entry.slot (volume.2.slot_lt listed) (isOther slot changed effect)
    · refine ⟨table, table.set slot changed, tableOf_eq_some_iff.mpr volume.1, nofun,
        tableOf_eq_some_iff.mpr isAfter, (volume.2.effect effect).2.invariant,
        .inr (complete slot changed effect), ?_⟩
      exact fun entry listed isOther =>
        others entry.slot (volume.2.slot_lt listed) (isOther slot changed effect)

end Vantfs
end Fs
end Vantara
