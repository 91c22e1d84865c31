import Vantara.Fs.FileData

/-!
# Which blocks a file operation touches

A read goes through the data blocks from its offset on as far as the length in the
directory entry says, and that length is not checked against the size of a file.  A
write is checked, and changes only the data blocks of its file and the 64 bytes of
its directory entry.
-/

namespace Vantara
namespace Fs
namespace Vantfs

open Foundation

/-! ## Reads -/

/-- Every block that has been asked for is among some. -/
def LogWithin (allowed : Nat → Prop) (disk : Disk) : Prop :=
  ∀ index ∈ disk.log, allowed index

theorem LogWithin.readBlock (isAllowed : allowed index) :
    Attempt (LogWithin allowed) (Fs.readBlock index)
      (fun _ => LogWithin allowed) (fun _ => LogWithin allowed) := by
  intro disk within
  have more : ∀ other ∈ index :: disk.log, allowed other := by
    intro other isOther
    rcases List.mem_cons.mp isOther with rfl | isOld
    · exact isAllowed
    · exact within other isOld
  rw [Fs.readBlock]
  split_ifs <;> exact more

theorem readEntries_within
    {allowed : Nat → Prop}
    (directory : ∀ index, 1 ≤ index → index ≤ 4 → allowed index) :
    Attempt (LogWithin allowed) readEntries
      (fun _ => LogWithin allowed) (fun _ => LogWithin allowed) := by
  have step : ∀ indexes : List Nat, (∀ index ∈ indexes, index < 4) →
      Attempt (LogWithin allowed) (readBlocks indexes)
        (fun _ => LogWithin allowed) (fun _ => LogWithin allowed) := by
    intro indexes
    induction indexes with
    | nil => exact fun _ => .pure fun _ within => within
    | cons index rest ih =>
      intro small
      have isSmall := small index (List.mem_cons_self ..)
      rw [readBlocks]
      refine (LogWithin.readBlock (directory _ (Nat.le_add_right ..)
        (by have first : directoryStartBlock = 1 := rfl; omega))).bind fun block => ?_
      cases parseSlots block (slotsOf index) with
      | error => exact .throw fun _ within => within
      | ok here =>
        exact (ih fun index isRest =>
          small index (List.mem_cons_of_mem _ isRest)).bind
            fun _ => .pure fun _ within => within
  exact step _ fun index => List.mem_range.mp

/-- Within 1024 bytes only the two data blocks of the slot are read. -/
theorem readDataLoop_within
    (own : ∀ fileBlock < 2, allowed (dataBlock slot fileBlock))
    (fits : wanted = 0 ∨ offset + wanted ≤ maxFileSize) :
    Attempt (LogWithin allowed) (readDataLoop slot turns offset wanted)
      (fun _ => LogWithin allowed) (fun _ => LogWithin allowed) := by
  have size : blockSize = 512 := rfl
  have total : maxFileSize = 1024 := rfl
  induction turns generalizing offset wanted with
  | zero => exact .pure fun _ within => within
  | succ turns ih =>
    rw [readDataLoop]
    by_cases done : wanted = 0
    · rw [if_pos done]
      exact .pure fun _ within => within
    rw [if_neg done]
    dsimp only
    rw [size]
    refine (LogWithin.readBlock (own _ (by omega))).bind fun block =>
      (ih (by omega)).bind fun _ => .pure fun _ within => within

/-- A block that was asked for stays in the log. -/
def Logged (index : Nat) (disk : Disk) : Prop :=
  index ∈ disk.log

theorem Logged.readBlock :
    Attempt (Logged index) (Fs.readBlock other) (fun _ => Logged index)
      (fun _ => Logged index) := by
  intro disk logged
  rw [Fs.readBlock]
  split_ifs <;> exact List.mem_cons_of_mem _ logged

theorem Logged.readDataLoop :
    Attempt (Logged index) (readDataLoop slot turns offset wanted)
      (fun _ => Logged index) (fun _ => Logged index) := by
  induction turns generalizing offset wanted with
  | zero => exact .pure fun _ logged => logged
  | succ turns ih =>
    rw [Vantfs.readDataLoop]
    split_ifs
    · exact .pure fun _ logged => logged
    · exact Logged.readBlock.bind fun _ =>
        ih.bind fun _ => .pure fun _ logged => logged

/-- Beyond 1024 bytes a block of another slot is asked for. -/
theorem readDataLoop_escapes
    (isSlot : slot < maxFiles)
    (enough : wanted ≤ turns)
    (some_ : 0 < wanted)
    (beyond : maxFileSize < offset + wanted) :
    Attempt (Disk.Kept blocks True) (readDataLoop slot turns offset wanted)
      (fun _ disk => ∃ fileBlock, 2 ≤ fileBlock ∧ Logged (dataBlock slot fileBlock) disk)
      (fun _ disk => ∃ fileBlock, 2 ≤ fileBlock ∧ Logged (dataBlock slot fileBlock) disk) := by
  have size : blockSize = 512 := rfl
  have total : maxFileSize = 1024 := rfl
  induction turns generalizing offset wanted with
  | zero => omega
  | succ turns ih =>
    rw [readDataLoop, if_neg (Nat.ne_of_gt some_)]
    dsimp only
    rw [size]
    by_cases isOwn : offset / 512 < 2
    · -- The rest starts at the next block and still ends beyond the file.
      have toBlockEnd : min (512 - offset % 512) wanted = 512 - offset % 512 := by omega
      rw [toBlockEnd]
      refine ((Disk.Kept.readBlock (dataBlock_lt isSlot isOwn)).consequence
        (fun _ kept => kept) (fun _ _ kept => kept.2)
        fun _ _ lost => absurd trivial lost.1).bind fun block => ?_
      refine (ih (by omega) (by omega) (by omega)).bind fun rest => ?_
      exact .pure fun _ logged => logged
    · have isLogged : Attempt (fun _ => True) (Fs.readBlock (dataBlock slot (offset / 512)))
          (fun _ => Logged (dataBlock slot (offset / 512)))
          (fun _ => Logged (dataBlock slot (offset / 512))) := by
        intro disk _
        rw [Fs.readBlock]
        split_ifs <;> exact List.mem_cons_self ..
      have found : ∀ disk, Logged (dataBlock slot (offset / 512)) disk →
          ∃ fileBlock, 2 ≤ fileBlock ∧ Logged (dataBlock slot fileBlock) disk :=
        fun disk logged => ⟨_, Nat.not_lt.mp isOwn, logged⟩
      refine (isLogged.consequence (fun _ _ => trivial) (fun _ _ logged => logged)
        fun _ => found).bind fun block => ?_
      refine (Logged.readDataLoop.failing fun _ => found).bind fun rest => ?_
      exact .pure found

/-- The entry in a slot knows its slot. -/
theorem slot_of_parseEntry (parsed : parseEntry block slot = .ok (some entry)) :
    entry.slot = slot := by
  unfold parseEntry at parsed
  dsimp only at parsed
  split at parsed
  · cases parsed
  · split at parsed
    · cases parsed
    · split at parsed
      · cases parsed
      · cases parsed
        rfl

theorem Reads.mem_iff (reads : Reads blocks table) :
    entry ∈ table.entries ↔ entry.slot < maxFiles ∧ table.getD entry.slot none = some entry := by
  rw [Table.entries, List.mem_filterMap]
  constructor
  · rintro ⟨_, listed, rfl⟩
    obtain ⟨slot, inside, isEntry⟩ := List.mem_iff_getElem.mp listed
    have isSlot : slot < maxFiles := reads.length ▸ inside
    have atSlot : table.getD slot none = some entry := by
      rw [List.getD_eq_getElem _ _ inside, isEntry]
    have parsed := reads.parse slot isSlot
    rw [atSlot] at parsed
    rw [slot_of_parseEntry parsed]
    exact ⟨isSlot, atSlot⟩
  · rintro ⟨isSlot, atSlot⟩
    have inside : entry.slot < table.length := reads.length.symm ▸ isSlot
    rw [List.getD_eq_getElem _ _ inside] at atSlot
    exact ⟨some entry, atSlot ▸ List.getElem_mem inside, rfl⟩

theorem planAccess_spec (planned : planAccess table inode = .ok entry) :
    entry ∈ table.entries ∧ entry.inode = inode ∧ entry.fileType = .file := by
  unfold planAccess at planned
  split at planned
  next => cases planned
  next found isFound =>
    split_ifs at planned with notFile
    cases planned
    obtain ⟨listed, isKey⟩ := Placement.mem_of_find isFound
    exact ⟨listed, isKey, not_not.mp notFile⟩

/-- The blocks an access to a file may touch: the directory and its own two. -/
def OwnBlocks (table : Table) (inode index : Nat) : Prop :=
  (1 ≤ index ∧ index ≤ 4) ∨ ∃ entry, planAccess table inode = .ok entry ∧
    (index = dataBlock entry.slot 0 ∨ index = dataBlock entry.slot 1)

theorem ensureAvailable_of_available (isAvailable : disk.available = true) :
    ensureAvailable disk = .ok () disk := by
  rw [ensureAvailable, if_pos isAvailable]

/-- An operation on a disk that does not fail goes on with the directory. -/
theorem Reads.opened (reads : Reads blocks table) :
    ∃ disk, Vantfs.readEntries blocks.disk = .ok table disk ∧ disk.Kept blocks True ∧
      ∀ {α} (next : Table → DiskM α),
        (do ensureAvailable; next (← Vantfs.readEntries)) blocks.disk = next table disk := by
  obtain ⟨disk, ran, kept⟩ := @Reads.readEntries table blocks.disk reads rfl
  refine ⟨disk, ran, kept, fun next => ?_⟩
  rw [run_bind_ok (ensureAvailable_of_available rfl), run_bind_ok ran]

/-- How many bytes a read asks the disk for. -/
def wantedBytes (entry : DirectoryEntry) (offset capacity : Nat) : Nat :=
  min (entry.len - offset) capacity

/-- A read that stays within 1024 bytes touches its own blocks only. -/
theorem read_within (reads : Reads blocks table)
    (inFile : ∀ entry, planAccess table inode = .ok entry →
      wantedBytes entry offset capacity = 0 ∨
        offset + wantedBytes entry offset capacity ≤ maxFileSize) :
    LogWithin (OwnBlocks table inode) (lastDisk (read inode offset capacity blocks.disk)) := by
  obtain ⟨after, ran, -, continues⟩ := reads.opened
  have logged : LogWithin (OwnBlocks table inode) blocks.disk := nofun
  have afterLog := (@readEntries_within (OwnBlocks table inode) fun _ first last =>
    .inl ⟨first, last⟩).of_ok logged ran
  rw [read, continues]
  cases planned : planAccess table inode with
  | error error => exact afterLog
  | ok entry =>
    refine lastDisk_of_attempt (readDataLoop_within ?_ (inFile entry planned)) afterLog
    intro fileBlock isOwn
    obtain rfl | rfl : fileBlock = 0 ∨ fileBlock = 1 := by omega
    · exact .inr ⟨entry, planned, .inl rfl⟩
    · exact .inr ⟨entry, planned, .inr rfl⟩

/-- What a read has returned are bytes of the two data blocks of its file. -/
def OwnBytes (blocks : Blocks) (table : Table) (inode offset capacity : Nat)
    (bytes : List UInt8) : Prop :=
  ∃ entry, planAccess table inode = .ok entry ∧
    bytes = (List.range (wantedBytes entry offset capacity)).map
      (fun index => content blocks entry.slot (offset + index)) ∧
    ∀ index < bytes.length, offset + index < maxFileSize

/-- A read that stays within 1024 bytes returns bytes of its own file. -/
theorem read_returns (reads : Reads blocks table)
    (inFile : ∀ entry, planAccess table inode = .ok entry →
      wantedBytes entry offset capacity = 0 ∨
        offset + wantedBytes entry offset capacity ≤ maxFileSize)
    (ran : read inode offset capacity blocks.disk = .ok bytes last) :
    OwnBytes blocks table inode offset capacity bytes := by
  obtain ⟨after, -, afterKept, continues⟩ := reads.opened
  rw [read, continues] at ran
  cases planned : planAccess table inode with
  | error error =>
    rw [planned] at ran
    cases ran
  | ok entry =>
    rw [planned] at ran
    have isSlot := (reads.mem_iff.mp (planAccess_spec planned).1).1
    rcases inFile entry planned with isNone | fits
    · have returned : readData entry.slot offset 0 after = .ok bytes last := isNone ▸ ran
      cases returned
      exact ⟨entry, planned, by rw [isNone]; rfl, by simp⟩
    · obtain ⟨rfl, -⟩ := (readData_spec isSlot fits).of_ok afterKept ran
      refine ⟨entry, planned, rfl, fun index small => ?_⟩
      rw [List.length_map, List.length_range] at small
      omega

/-- A read beyond 1024 bytes touches a block of another slot. -/
theorem read_escapes (reads : Reads blocks table)
    (planned : planAccess table inode = .ok entry)
    (some_ : wantedBytes entry offset capacity ≠ 0)
    (beyond : maxFileSize < offset + wantedBytes entry offset capacity) :
    ∃ fileBlock, 2 ≤ fileBlock ∧ Logged (dataBlock entry.slot fileBlock)
      (lastDisk (read inode offset capacity blocks.disk)) := by
  obtain ⟨after, -, afterKept, continues⟩ := reads.opened
  have isSlot := (reads.mem_iff.mp (planAccess_spec planned).1).1
  rw [read, continues, planned]
  exact lastDisk_of_attempt
    (readDataLoop_escapes isSlot le_rfl (Nat.pos_of_ne_zero some_) beyond) afterKept

theorem not_ownBlocks (planned : planAccess table inode = .ok entry) (isOther : 2 ≤ fileBlock) :
    ¬ OwnBlocks table inode (dataBlock entry.slot fileBlock) := by
  have first : dataStartBlock = 5 := rfl
  rintro (inDirectory | ⟨other, isOwn, same | same⟩)
  · rw [dataBlock, first] at inDirectory
    omega
  all_goals
    rw [planned] at isOwn
    cases isOwn
    rw [dataBlock_inj] at same
    omega

/-! ## Writes -/

/-- Only the data blocks and the directory entry of a file have changed. -/
def OnlyFile (slot : Nat) (before after : Blocks) : Prop :=
  ∀ index byte, after index byte ≠ before index byte →
    index = dataBlock slot 0 ∨ index = dataBlock slot 1 ∨
      (index = blockOfSlot slot ∧ startOfSlot slot ≤ byte ∧ byte < startOfSlot slot + entrySize)

theorem OnlyData.onlyFile (only : OnlyData slot before after) : OnlyFile slot before after := by
  intro index byte changed
  by_cases isFirst : index = dataBlock slot 0
  · exact .inl isFirst
  by_cases isSecond : index = dataBlock slot 1
  · exact .inr (.inl isSecond)
  · exact absurd (congrFun (only index isFirst isSecond) byte) changed

theorem blockOfSlot_lt (isSlot : slot < maxFiles) : blockOfSlot slot < diskBlocks := by
  have width : entriesPerBlock = 8 := rfl
  have all : maxFiles = 32 := rfl
  have first : directoryStartBlock = 1 := rfl
  have last : diskBlocks = 2048 := rfl
  rw [blockOfSlot, width, first, last]
  omega

/-- After the data of a slot, its directory entry is rewritten. -/
theorem OnlyData.splice (only : OnlyData slot before after) :
    OnlyFile slot before
      (Function.update after (blockOfSlot slot)
        (spliceEntry (after (blockOfSlot slot)) slot bytes)) := by
  intro index byte changed
  by_cases isEntry : index = blockOfSlot slot
  · subst isEntry
    rw [Function.update_self, spliceEntry] at changed
    split_ifs at changed with inside
    · exact .inr (.inr ⟨rfl, inside⟩)
    · exact only.onlyFile _ byte changed
  · rw [Function.update_of_ne isEntry] at changed
    exact only.onlyFile index byte changed

/-- The blocks with the entry of a slot rewritten. -/
def rewritten (blocks : Blocks) (slot : Nat) (bytes : Nat → UInt8) : Blocks :=
  Function.update blocks (blockOfSlot slot) (spliceEntry (blocks (blockOfSlot slot)) slot bytes)

/-- The entry of a slot is rewritten, or the write is interrupted before or after that. -/
theorem rewriteSlot_spec (isSlot : slot < maxFiles) :
    Attempt (Disk.Kept blocks clean)
      (do
        let block ← readBlock (blockOfSlot slot)
        writeBlock (blockOfSlot slot) (spliceEntry block slot bytes))
      (fun _ => Disk.Kept (rewritten blocks slot bytes) clean)
      (fun _ disk => ¬ clean ∧
        (disk.blocks = blocks ∨ disk.blocks = rewritten blocks slot bytes)) := by
  have inside := blockOfSlot_lt isSlot
  refine ((Disk.Kept.readBlock inside).failing fun _ _ lost => ⟨lost.1, .inl lost.2⟩).bind
    fun block => .assuming ?_
  rintro rfl
  exact Disk.Kept.writeBlock inside

theorem writeEntry_spec (isSlot : entry.slot < maxFiles) :
    Attempt (Disk.Kept blocks clean) (writeEntry entry)
      (fun _ => Disk.Kept (rewritten blocks entry.slot (entryByte entry)) clean)
      (fun _ disk => ¬ clean ∧
        (disk.blocks = blocks ∨ disk.blocks = rewritten blocks entry.slot (entryByte entry))) :=
  rewriteSlot_spec isSlot

/-- A write by inode changes nothing outside the file and its entry, also when it is
interrupted. -/
theorem write_onlyFile (reads : Reads blocks table) :
    Attempt (Disk.Kept blocks False) (write inode offset source)
      (fun _ disk => ∃ entry, planAccess table inode = .ok entry ∧
        OnlyFile entry.slot blocks disk.blocks)
      (fun _ disk => disk.blocks = blocks ∨ ∃ entry, planAccess table inode = .ok entry ∧
        OnlyFile entry.slot blocks disk.blocks) := by
  have opened : Attempt (Disk.Kept blocks False) ensureAvailable
      (fun _ => Disk.Kept blocks False)
      (fun _ disk => disk.blocks = blocks ∨ ∃ entry, planAccess table inode = .ok entry ∧
        OnlyFile entry.slot blocks disk.blocks) := by
    intro disk kept
    rw [ensureAvailable]
    split_ifs
    · exact kept
    · exact .inl kept.blocks
  rw [write]
  refine opened.bind fun _ => ?_
  split_ifs with tooLarge
  · exact .throw fun disk kept => .inl kept.blocks
  have fits : offset + source.length ≤ maxFileSize := by omega
  refine (readEntries_spec.failing fun _ _ lost => .inl lost.1).bind
    fun found => .assuming fun isFound => ?_
  rw [isFound.unique reads]
  cases planned : planAccess table inode with
  | error error => exact .throw fun disk kept => .inl kept.blocks
  | ok entry =>
    have isSlot := (reads.mem_iff.mp (planAccess_spec planned).1).1
    refine ((writeData_spec isSlot fits).failing fun _ _ lost =>
      .inr ⟨entry, rfl, lost.2.onlyFile⟩).bind fun _ => .fixing fun middle =>
        .assuming fun wrote => ?_
    have isSame : (entry.extend (offset + source.length)).slot = entry.slot := rfl
    have done := @OnlyData.splice _ _ _
      (entryByte (entry.extend (offset + source.length))) wrote.only
    refine ((writeEntry_spec (isSame.symm ▸ isSlot)).failing ?failed).bind fun _ => .pure ?ended
    case failed =>
      rintro _ disk ⟨-, same | stored⟩
      · exact .inr ⟨entry, rfl, same ▸ wrote.only.onlyFile⟩
      · exact .inr ⟨entry, rfl, stored ▸ done⟩
    case ended => exact fun disk kept => ⟨entry, rfl, kept.blocks ▸ done⟩

/-- On a disk whose directory can be read, a read touches only the directory and the blocks of
its own file, and returns only bytes of these blocks, exactly if the length in the entry does
not lead it beyond 1024 bytes; a write changes only its own blocks and its own directory
entry, whatever fails. -/
theorem accesses_contained_iff
    (directory : readEntries disk = .ok table after) :
    ((∀ index ∈ (lastDisk (read inode offset capacity disk.blocks.disk)).log,
        OwnBlocks table inode index) ∧
      (∀ bytes last, read inode offset capacity disk.blocks.disk = .ok bytes last →
        OwnBytes disk.blocks table inode offset capacity bytes) ↔
      ∀ entry, planAccess table inode = .ok entry →
        wantedBytes entry offset capacity = 0 ∨
          offset + wantedBytes entry offset capacity ≤ maxFileSize) ∧
    ∀ start source faults index byte,
      (lastDisk (write inode start source ⟨disk.blocks, true, faults, []⟩)).blocks index byte ≠
          disk.blocks index byte →
        ∃ entry, planAccess table inode = .ok entry ∧
          (index = dataBlock entry.slot 0 ∨ index = dataBlock entry.slot 1 ∨
            (index = blockOfSlot entry.slot ∧ startOfSlot entry.slot ≤ byte ∧
              byte < startOfSlot entry.slot + entrySize)) := by
  have reads : Reads disk.blocks table :=
    ((@readEntries_spec disk.blocks False).of_ok ⟨rfl, nofun⟩ directory).1
  refine ⟨⟨?_, fun inFile =>
    ⟨read_within reads inFile, fun _ _ => read_returns reads inFile⟩⟩, ?_⟩
  · rintro ⟨within, -⟩ entry planned
    by_contra outside
    rw [not_or] at outside
    obtain ⟨fileBlock, isOther, logged⟩ :=
      read_escapes reads planned outside.1 (Nat.lt_of_not_le outside.2)
    exact not_ownBlocks planned isOther (within _ logged)
  · intro start source faults index byte changed
    have spec := @write_onlyFile _ _ inode start source reads
    have kept : Disk.Kept disk.blocks False ⟨disk.blocks, true, faults, []⟩ := ⟨rfl, nofun⟩
    cases ran : write inode start source ⟨disk.blocks, true, faults, []⟩ with
    | ok count after =>
      rw [ran] at changed
      obtain ⟨entry, planned, only⟩ := spec.of_ok kept ran
      exact ⟨entry, planned, only index byte changed⟩
    | error error after =>
      rw [ran] at changed
      rcases spec.of_error kept ran with same | ⟨entry, planned, only⟩
      · exact absurd (congrFun (congrFun same index) byte) changed
      · exact ⟨entry, planned, only index byte changed⟩

/-- A volume with two files: the entry of the first, with inode 2, says that the file has
2048 bytes, and the data of the second begins with 83. -/
def longEntryImage : Blocks := fun index offset =>
  if index = 0 then headerBytes offset
  else if index = 1 ∧ (offset = 0 ∨ offset = 1 ∨ offset = 2) then 1
  else if index = 1 ∧ offset = 8 then 2
  else if index = 1 ∧ offset = 17 then 8
  else if index = 1 ∧ (offset = 64 ∨ offset = 65 ∨ offset = 66) then 1
  else if index = 1 ∧ offset = 72 then 3
  else if index = dataBlock 1 0 ∧ offset = 0 then 83
  else 0

/-- The volume is accepted, and a read of the first file at 1024 gives the first byte of
the second. -/
theorem longEntryImage_reads_other_file :
    answer (initializeDisk ⟨longEntryImage, false, [], []⟩) = some false ∧
      (answer (readEntries ⟨longEntryImage, false, [], []⟩)).map (fun table =>
        ((planAccess table 2).toOption.map (·.slot), (planAccess table 3).toOption.map (·.slot))) =
          some (some 0, some 1) ∧
      answer (read 2 1024 1 longEntryImage.disk) = some [83] ∧
      dataBlock 1 0 ∈ (lastDisk (read 2 1024 1 longEntryImage.disk)).log ∧
      content longEntryImage 1 0 = 83 := by
  decide +kernel

/-- Within the first 1024 bytes the same file is read from its own blocks. -/
theorem longEntryImage_contained :
    ∃ table after,
      readEntries ⟨longEntryImage, false, [], []⟩ = .ok table after ∧
      (∀ index ∈ (lastDisk (read 2 1000 24 longEntryImage.disk)).log, OwnBlocks table 2 index) ∧
      ∀ bytes last, read 2 1000 24 longEntryImage.disk = .ok bytes last →
        OwnBytes longEntryImage table 2 1000 24 bytes := by
  have ran : readEntries ⟨longEntryImage, false, [], []⟩ =
      .ok _ (lastDisk (readEntries ⟨longEntryImage, false, [], []⟩)) := rfl
  refine ⟨_, _, ran, (accesses_contained_iff ran).1.mpr ?_⟩
  intro entry _
  exact .inr (Nat.add_le_add_left (Nat.min_le_right ..) 1000)

end Vantfs
end Fs
end Vantara
