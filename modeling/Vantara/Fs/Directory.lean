import Mathlib.Data.List.GetD
import Vantara.Fs.Vantfs

/-!
# The directory on the disk

The directory that blocks hold is determined slot by slot.  Reading gives that
directory or fails, and rewriting the bytes of a slot changes the entry of that slot
only.
-/

namespace Vantara
namespace Fs
namespace Vantfs

open Foundation

/-- The blocks hold a directory: every slot can be read and has its entry. -/
structure Reads (blocks : Blocks) (table : Table) : Prop where
  length : table.length = maxFiles
  parse : ∀ slot < maxFiles,
    parseEntry (blocks (blockOfSlot slot)) slot = .ok (table.getD slot none)

theorem Reads.unique (left : Reads blocks table) (right : Reads blocks other) : table = other := by
  refine List.ext_getElem (left.length.trans right.length.symm) fun slot inLeft inRight => ?_
  have same := (left.parse slot (left.length ▸ inLeft)).symm.trans
    (right.parse slot (left.length ▸ inLeft))
  rw [List.getD_eq_getElem _ _ inLeft, List.getD_eq_getElem _ _ inRight] at same
  exact Except.ok.inj same

/-- The entries of some slots, each read from its own block. -/
def parseTable (blocks : Blocks) : List Nat → Except FsError Table
  | [] => .ok []
  | slot :: rest =>
    match parseEntry (blocks (blockOfSlot slot)) slot with
    | .error error => .error error
    | .ok entry =>
      match parseTable blocks rest with
      | .error error => .error error
      | .ok table => .ok (entry :: table)

theorem parseSlots_eq (together : ∀ slot ∈ slots, blockOfSlot slot = index) :
    parseSlots (blocks index) slots = parseTable blocks slots := by
  induction slots with
  | nil => rfl
  | cons slot rest ih =>
    have parsed := ih fun slot isRest =>
      together slot (List.mem_cons_of_mem _ isRest)
    rw [parseSlots, parseTable, together slot (List.mem_cons_self ..)]
    exact parsed ▸ rfl

theorem parseTable_append :
    parseTable blocks (left ++ right) =
      match parseTable blocks left with
      | .error error => .error error
      | .ok here =>
        match parseTable blocks right with
        | .error error => .error error
        | .ok others => .ok (here ++ others) := by
  induction left with
  | nil =>
    rw [List.nil_append, parseTable]
    cases parseTable blocks right <;> rfl
  | cons slot rest ih =>
    rw [List.cons_append, parseTable, parseTable, ih]
    cases parseEntry (blocks (blockOfSlot slot)) slot with
    | error => rfl
    | ok entry =>
      cases parseTable blocks rest with
      | error => rfl
      | ok here => cases parseTable blocks right <;> rfl

theorem blockOfSlot_of_mem (isSlot : slot ∈ slotsOf index) :
    blockOfSlot slot = directoryStartBlock + index := by
  obtain ⟨local_, inside, rfl⟩ := List.mem_map.mp isSlot
  have small := List.mem_range.mp inside
  have width : entriesPerBlock = 8 := rfl
  rw [width] at small
  rw [blockOfSlot, width]
  omega

theorem parseTable_ok_iff :
    parseTable blocks slots = .ok table ↔
      List.Forall₂ (fun slot entry => parseEntry (blocks (blockOfSlot slot)) slot = .ok entry)
        slots table := by
  induction slots generalizing table with
  | nil => simp [parseTable, eq_comm]
  | cons slot rest ih =>
    rw [parseTable, List.forall₂_cons_left_iff]
    cases parseEntry (blocks (blockOfSlot slot)) slot with
    | error => simp
    | ok entry =>
      cases others : parseTable blocks rest with
      | error error =>
        simp only [reduceCtorEq, false_iff]
        rintro ⟨_, more, -, reads, -⟩
        rw [← ih, others] at reads
        cases reads
      | ok more =>
        simp only [Except.ok.injEq]
        constructor
        · rintro rfl
          exact ⟨entry, more, rfl, ih.mp others, rfl⟩
        · rintro ⟨_, last, rfl, reads, rfl⟩
          rw [← ih, others] at reads
          cases reads
          rfl

theorem reads_iff : Reads blocks table ↔ parseTable blocks (List.range maxFiles) = .ok table := by
  rw [parseTable_ok_iff, List.forall₂_iff_get]
  constructor
  · rintro ⟨length, parse⟩
    refine ⟨by rw [List.length_range, length], fun slot inRange inTable => ?_⟩
    have isSlot : slot < maxFiles := length ▸ inTable
    rw [List.get_eq_getElem, List.getElem_range, List.get_eq_getElem, parse slot isSlot,
      List.getD_eq_getElem _ _ inTable]
  · rintro ⟨length, parse⟩
    rw [List.length_range] at length
    refine ⟨length.symm, fun slot isSlot => ?_⟩
    have here := parse slot (by rwa [List.length_range]) (length ▸ isSlot)
    rw [List.get_eq_getElem, List.getElem_range, List.get_eq_getElem] at here
    rw [here, List.getD_eq_getElem]

/-- Reading blocks of the directory gives what they hold. -/
theorem readBlocks_spec (inside : ∀ index ∈ indexes, index < directoryBlocks) :
    Attempt (Disk.Kept blocks clean) (readBlocks indexes)
      (fun table disk =>
        parseTable blocks (indexes.flatMap slotsOf) = .ok table ∧ disk.Kept blocks clean)
      (fun error disk => disk.blocks = blocks ∧
        (clean → parseTable blocks (indexes.flatMap slotsOf) = .error error)) := by
  induction indexes with
  | nil => exact .pure fun disk kept => ⟨rfl, kept⟩
  | cons index rest ih =>
    have isInside : directoryStartBlock + index < diskBlocks := by
      have small := inside index (List.mem_cons_self ..)
      have width : directoryBlocks = 4 := rfl
      have first : directoryStartBlock = 1 := rfl
      have last : diskBlocks = 2048 := rfl
      omega
    have here : parseSlots (blocks (directoryStartBlock + index)) (slotsOf index) =
        parseTable blocks (slotsOf index) :=
      parseSlots_eq fun slot isSlot => blockOfSlot_of_mem isSlot
    rw [readBlocks, List.flatMap_cons]
    simp only [parseTable_append]
    refine ((Disk.Kept.readBlock isInside).failing fun _ _ lost =>
      ⟨lost.2, fun isClean => absurd isClean lost.1⟩).bind fun block => .assuming ?_
    rintro rfl
    rw [here]
    cases parsed : parseTable blocks (slotsOf index) with
    | error error => exact .throw fun disk kept => ⟨kept.blocks, fun _ => rfl⟩
    | ok table =>
      have others := ih fun index isRest =>
        inside index (List.mem_cons_of_mem _ isRest)
      refine (others.failing ?_).bind
        fun more => .assuming fun isMore => .pure fun disk kept => ⟨?_, kept⟩
      · rintro error disk ⟨same, isError⟩
        exact ⟨same, fun isClean => by rw [isError isClean]⟩
      · rw [isMore]

/-- Reading the directory gives what the blocks hold, or fails and leaves them. -/
theorem readEntries_spec :
    Attempt (Disk.Kept blocks clean) readEntries
      (fun table disk => Reads blocks table ∧ disk.Kept blocks clean)
      (fun _ disk => disk.blocks = blocks ∧ (clean → ∀ table, ¬ Reads blocks table)) := by
  have allSlots : (List.range directoryBlocks).flatMap slotsOf = List.range maxFiles := by decide
  have spec := @readBlocks_spec (List.range directoryBlocks) blocks clean
    fun index => List.mem_range.mp
  rw [allSlots] at spec
  refine spec.consequence (fun _ kept => kept) ?_ ?_
  · rintro table disk ⟨parsed, kept⟩
    exact ⟨reads_iff.mpr parsed, kept⟩
  · rintro error disk ⟨same, isError⟩
    refine ⟨same, fun isClean table reads => ?_⟩
    rw [reads_iff, isError isClean] at reads
    cases reads

/-- On a disk that does not fail, the directory that it holds is read. -/
theorem Reads.readEntries {disk : Disk} (reads : Reads disk.blocks table)
    (clean : disk.faults = []) :
    ∃ last, Vantfs.readEntries disk = .ok table last ∧ last.Kept disk.blocks True := by
  have spec := @readEntries_spec disk.blocks True
  have kept : disk.Kept disk.blocks True := ⟨rfl, fun _ => clean⟩
  cases ran : Vantfs.readEntries disk with
  | error error last => exact absurd reads ((spec.of_error kept ran).2 trivial table)
  | ok found last =>
    obtain ⟨isFound, lastKept⟩ := spec.of_ok kept ran
    exact ⟨last, isFound.unique reads ▸ rfl, lastKept⟩

/-! ## Changing an entry -/

theorem parseEntry_congr
    (same : ∀ index < entrySize,
      left (startOfSlot slot + index) = right (startOfSlot slot + index)) :
    parseEntry left slot = parseEntry right slot := by
  have atByte : ∀ index < 64, left (startOfSlot slot + index) = right (startOfSlot slot + index) :=
    same
  have number : ∀ width offset, offset + width ≤ 64 →
      readLe left (startOfSlot slot + offset) width =
        readLe right (startOfSlot slot + offset) width := by
    intro width
    induction width with
    | zero => intro offset _; rfl
    | succ width ih =>
      intro offset fits
      rw [readLe, readLe, atByte offset (by omega), Nat.add_assoc,
        ih (offset + 1) (by omega)]
  have name : ((List.range maxNameLen).map fun index => left (startOfSlot slot + 24 + index)) =
      (List.range maxNameLen).map fun index => right (startOfSlot slot + 24 + index) := by
    refine List.map_congr_left fun index inside => ?_
    have small : index < 32 := List.mem_range.mp inside
    rw [Nat.add_assoc, atByte (24 + index) (by omega)]
  have used := atByte 0 (by omega)
  rw [Nat.add_zero] at used
  unfold parseEntry
  simp only [used, atByte 1 (by omega), atByte 2 (by omega), number 8 8 (by omega),
    number 4 16 (by omega), number 4 20 (by omega), name]

/-- The bytes of different slots of one block do not overlap. -/
theorem spliceEntry_other
    (sameBlock : blockOfSlot slot = blockOfSlot other)
    (differ : slot ≠ other)
    (inside : index < entrySize) :
    spliceEntry block other bytes (startOfSlot slot + index) =
      block (startOfSlot slot + index) := by
  have width : entriesPerBlock = 8 := rfl
  have size : entrySize = 64 := rfl
  rw [blockOfSlot, blockOfSlot, width] at sameBlock
  rw [size] at inside
  rw [spliceEntry, if_neg]
  rw [startOfSlot, startOfSlot, width, size]
  omega

/-- Rewriting the bytes of a slot changes the entry of that slot only. -/
theorem Reads.splice (reads : Reads blocks table)
    (isSlot : slot < maxFiles)
    (parsed : parseEntry (spliceEntry (blocks (blockOfSlot slot)) slot bytes) slot = .ok entry) :
    Reads
      (Function.update blocks (blockOfSlot slot)
        (spliceEntry (blocks (blockOfSlot slot)) slot bytes))
      (table.set slot entry) := by
  constructor
  · rw [List.length_set, reads.length]
  · intro other isOther
    by_cases same : other = slot
    · subst same
      rw [Function.update_self, parsed, List.getD_eq_getElem?_getD,
        List.getElem?_set_self (reads.length ▸ isOther), Option.getD_some]
    · rw [List.getD_eq_getElem?_getD, List.getElem?_set_ne (Ne.symm same),
        ← List.getD_eq_getElem?_getD, ← reads.parse other isOther]
      by_cases together : blockOfSlot other = blockOfSlot slot
      · rw [together, Function.update_self]
        exact parseEntry_congr fun index inside => spliceEntry_other together same inside
      · rw [Function.update_of_ne together]

theorem parseEntry_empty : parseEntry (spliceEntry block slot fun _ => 0) slot = .ok none := by
  have inside : startOfSlot slot ≤ startOfSlot slot ∧
      startOfSlot slot < startOfSlot slot + entrySize := by
    have size : entrySize = 64 := rfl
    omega
  simp only [parseEntry, spliceEntry, if_pos inside, if_true]

/-- An entry whose fields fit their bytes on the disk. -/
structure DirectoryEntry.Fits (entry : DirectoryEntry) : Prop where
  inode : entry.inode < 2 ^ 64
  len : entry.len < 2 ^ 32
  parent : 0 < entry.parent ∧ entry.parent < 2 ^ 32
  name : entry.name.length = maxNameLen
  nameLen : 1 ≤ entry.nameLen ∧ entry.nameLen ≤ maxNameLen

/-- An entry that fits comes back as it was written. -/
theorem parseEntry_entryByte (fits : entry.Fits) (isSlot : entry.slot = slot) :
    parseEntry (spliceEntry block slot (entryByte entry)) slot = .ok (some entry) := by
  have atByte : ∀ index < 64, spliceEntry block slot (entryByte entry)
      (startOfSlot slot + index) = entryByte entry index := by
    intro index inside
    have size : entrySize = 64 := rfl
    rw [spliceEntry, if_pos (by omega), Nat.add_sub_cancel_left]
  have used : spliceEntry block slot (entryByte entry) (startOfSlot slot) = 1 :=
    atByte 0 (by omega)
  have inode : readLe (spliceEntry block slot (entryByte entry)) (startOfSlot slot + 8) 8 =
      entry.inode := by
    refine readLe_of_leByte (fun index inside => ?_) fits.inode
    rw [Nat.add_assoc, atByte (8 + index) (by omega), entryByte, if_neg (by omega),
      if_neg (by omega), if_neg (by omega), if_pos (by omega), Nat.add_sub_cancel_left]
  have len : readLe (spliceEntry block slot (entryByte entry)) (startOfSlot slot + 16) 4 =
      entry.len := by
    refine readLe_of_leByte (fun index inside => ?_) fits.len
    rw [Nat.add_assoc, atByte (16 + index) (by omega), entryByte, if_neg (by omega),
      if_neg (by omega), if_neg (by omega), if_neg (by omega), if_pos (by omega),
      Nat.add_sub_cancel_left]
  have parent : readLe (spliceEntry block slot (entryByte entry)) (startOfSlot slot + 20) 4 =
      entry.parent := by
    refine readLe_of_leByte (fun index inside => ?_) fits.parent.2
    rw [Nat.add_assoc, atByte (20 + index) (by omega), entryByte, if_neg (by omega),
      if_neg (by omega), if_neg (by omega), if_neg (by omega), if_neg (by omega),
      if_pos (by omega), Nat.add_sub_cancel_left]
  have nameLen : (spliceEntry block slot (entryByte entry) (startOfSlot slot + 1)).toNat =
      entry.nameLen := by
    have small : entry.nameLen ≤ 32 := fits.nameLen.2
    rw [atByte 1 (by omega)]
    show (UInt8.ofNat entry.nameLen).toNat = _
    rw [UInt8.toNat_ofNat']
    omega
  have fileType : typeOfByte (spliceEntry block slot (entryByte entry) (startOfSlot slot + 2)) =
      some entry.fileType := by
    rw [atByte 2 (by omega)]
    show typeOfByte (byteOfType entry.fileType) = _
    cases entry.fileType <;> rfl
  have name : ((List.range maxNameLen).map fun index =>
      spliceEntry block slot (entryByte entry) (startOfSlot slot + 24 + index)) = entry.name := by
    refine List.ext_getElem (by rw [List.length_map, List.length_range, fits.name]) ?_
    intro index inRange inName
    have small : index < 32 := by
      rw [List.length_map, List.length_range] at inRange
      exact inRange
    have width : maxNameLen = 32 := rfl
    rw [List.getElem_map, List.getElem_range, Nat.add_assoc, atByte (24 + index) (by omega),
      entryByte, if_neg (by omega), if_neg (by omega), if_neg (by omega), if_neg (by omega),
      if_neg (by omega), if_neg (by omega), if_pos (by omega), Nat.add_sub_cancel_left,
      List.getD_eq_getElem _ _ inName]
  have positive : ¬ (entry.nameLen = 0 ∨ entry.nameLen > maxNameLen) := by
    have bounds := fits.nameLen
    omega
  simp only [parseEntry, used, nameLen, fileType, inode, len, parent, name, if_neg positive,
    if_neg (Nat.ne_of_gt fits.parent.1)]
  rw [← isSlot]
  rfl

end Vantfs
end Fs
end Vantara
