import Vantara.Fs.Directory

/-!
# Interrupted formatting

Formatting writes the header first and then clears the four blocks of the directory.
What an interrupted attempt leaves behind depends only on how many of these five
writes reached the disk; a disk with the header on it is not formatted again.
-/

namespace Vantara
namespace Fs
namespace Vantfs

open Foundation

/-- Write some blocks one after another. -/
def writeAll : List (Nat × Block) → DiskM Unit
  | [] => pure ()
  | (index, block) :: rest => do
      writeBlock index block
      writeAll rest

/-- The blocks after some writes. -/
def written (blocks : Blocks) (writes : List (Nat × Block)) : Blocks :=
  writes.foldl (fun blocks write => Function.update blocks write.1 write.2) blocks

/-- The five writes of `format_volume`. -/
def formatWrites : List (Nat × Block) :=
  [(0, headerBytes), (1, fun _ => 0), (2, fun _ => 0), (3, fun _ => 0), (4, fun _ => 0)]

theorem formatVolume_eq : formatVolume = writeAll formatWrites := rfl

/-- How many of some writes reach the disk. -/
def reaching : Nat → List Fault → Nat
  | 0, _ => 0
  | count + 1, faults =>
    match faults.headD .passes with
    | .passes => reaching count faults.tail + 1
    | .refused => 0
    | .late => 1

/-- Writes reach the disk up to the first that fails; if none fails they all do. -/
theorem writeAll_spec (inside : ∀ write ∈ writes, write.1 < diskBlocks) :
    (lastDisk (writeAll writes disk)).blocks =
        written disk.blocks (writes.take (reaching writes.length disk.faults)) ∧
      ∀ after, writeAll writes disk = .ok () after →
        reaching writes.length disk.faults = writes.length := by
  induction writes generalizing disk with
  | nil => exact ⟨rfl, fun _ _ => rfl⟩
  | cons write rest ih =>
    obtain ⟨index, block⟩ := write
    have isInside := Nat.not_le.mpr (inside (index, block) (List.mem_cons_self ..))
    have restInside := fun write isRest => inside write (List.mem_cons_of_mem _ isRest)
    have ran : writeBlock index block disk =
        match disk.faults.headD .passes with
        | .passes => .ok () ((disk.accessed index).store index block)
        | .refused => .error .io (disk.accessed index)
        | .late => .error .io ((disk.accessed index).store index block) := by
      rw [writeBlock]
      exact if_neg isInside
    rw [writeAll, List.length_cons]
    unfold reaching
    cases fault : disk.faults.headD .passes with
    | passes =>
      rw [fault] at ran
      obtain ⟨blocks, all⟩ := @ih
        ((disk.accessed index).store index block) restInside
      rw [run_bind_ok ran]
      exact ⟨blocks, fun after ran => congrArg (· + 1) (all after ran)⟩
    | refused | late =>
      rw [fault] at ran
      rw [run_bind_error ran]
      exact ⟨rfl, by rintro _ ⟨⟩⟩

/-- How many of the five writes of an attempt at a disk without the magic reach it. -/
def attemptWrites (faults : List Fault) : Nat :=
  if faults.headD .passes = .passes ∧ faults.tail.headD .passes = .passes then
    reaching 5 faults.tail.tail
  else 0

/-- The blocks after the first writes of formatting. -/
def halfFormatted (blocks : Blocks) (count : Nat) : Blocks :=
  written blocks (formatWrites.take count)

/-- The blocks after an attempt to initialize the disk that meets some faults. -/
def attempted (blocks : Blocks) (faults : List Fault) : Blocks :=
  (lastDisk (initializeDisk ⟨blocks, false, faults, []⟩)).blocks

/-- What an attempt does once it has read the header. -/
def afterHeader (header : Block) : DiskM Bool :=
  if hasMagic header then
    if readLe header 8 4 ≠ version then throw .corrupt else pure false
  else do
    formatVolume
    pure true

/-- An attempt reads the header before anything else. -/
theorem initializeDisk_run :
    initializeDisk ⟨blocks, false, faults, []⟩ =
      if faults.headD .passes = .passes then
        if faults.tail.headD .passes = .passes then
          afterHeader (blocks headerBlock) ⟨blocks, false, faults.tail.tail, [headerBlock]⟩
        else .error .io ⟨blocks, false, faults.tail.tail, [headerBlock]⟩
      else .error .unavailable ⟨blocks, false, faults.tail, []⟩ := by
  have probed : probe ⟨blocks, false, faults, []⟩ =
      if faults.headD .passes = .passes then .ok () ⟨blocks, false, faults.tail, []⟩
      else .error .unavailable ⟨blocks, false, faults.tail, []⟩ := rfl
  have header : readBlock headerBlock ⟨blocks, false, faults.tail, []⟩ =
      if faults.tail.headD .passes = .passes then
        .ok (blocks headerBlock) ⟨blocks, false, faults.tail.tail, [headerBlock]⟩
      else .error .io ⟨blocks, false, faults.tail.tail, [headerBlock]⟩ := rfl
  rw [initializeDisk]
  by_cases found : faults.headD .passes = .passes
  · rw [if_pos found] at probed ⊢
    rw [run_bind_ok probed]
    by_cases passed : faults.tail.headD .passes = .passes
    · rw [if_pos passed] at header ⊢
      rw [run_bind_ok header, afterHeader]
    · rw [if_neg passed] at header ⊢
      rw [run_bind_error header]
  · rw [if_neg found] at probed ⊢
    rw [run_bind_error probed]

/-- A disk with the magic is left as it is. -/
theorem attempted_of_magic (isVolume : hasMagic (blocks headerBlock) = true) :
    attempted blocks faults = blocks := by
  rw [attempted, initializeDisk_run, afterHeader, if_pos isVolume]
  split_ifs <;> rfl

/-- A disk without it gets the first writes of formatting, all of them if the attempt
succeeds. -/
theorem afterHeader_of_noMagic (noMagic : hasMagic header = false) :
    (lastDisk (afterHeader header disk)).blocks =
        halfFormatted disk.blocks (reaching 5 disk.faults) ∧
      ∀ formatted after, afterHeader header disk = .ok formatted after →
        reaching 5 disk.faults = 5 := by
  have inside : ∀ write ∈ formatWrites, write.1 < diskBlocks := by
    simp [formatWrites, diskBlocks]
  obtain ⟨blocks, all⟩ := @writeAll_spec formatWrites disk inside
  rw [afterHeader, if_neg (by rw [noMagic]; exact Bool.false_ne_true), formatVolume_eq]
  cases ran : writeAll formatWrites disk with
  | ok value after =>
    rw [run_bind_ok ran]
    rw [ran] at blocks
    exact ⟨blocks, fun _ _ _ => all after ran⟩
  | error error after =>
    rw [run_bind_error ran]
    rw [ran] at blocks
    exact ⟨blocks, nofun⟩

theorem attempted_of_noMagic (noMagic : hasMagic (blocks headerBlock) = false) :
    attempted blocks faults = halfFormatted blocks (attemptWrites faults) := by
  rw [attempted, initializeDisk_run, attemptWrites]
  by_cases found : faults.headD .passes = .passes
  · by_cases passed : faults.tail.headD .passes = .passes
    · rw [if_pos found, if_pos passed, if_pos ⟨found, passed⟩]
      exact (afterHeader_of_noMagic noMagic).1
    · rw [if_pos found, if_neg passed, if_neg fun both => passed both.2]
      rfl
  · rw [if_neg found, if_neg fun both => found both.1]
    rfl

/-! ## What is left after interrupted attempts -/

/-- The writes of the first attempt that wrote anything. -/
def progress : List (List Fault) → Nat
  | [] => 0
  | faults :: rest => if attemptWrites faults = 0 then progress rest else attemptWrites faults

theorem halfFormatted_five : halfFormatted blocks (more + 5) = halfFormatted blocks 5 := by
  have all : formatWrites.take (more + 5) = formatWrites :=
    List.take_of_length_le (Nat.le_add_left 5 more)
  rw [halfFormatted, halfFormatted, all]
  rfl

theorem hasMagic_halfFormatted (positive : count ≠ 0) :
    hasMagic (halfFormatted blocks count headerBlock) = true := by
  have header : halfFormatted blocks count headerBlock = headerBytes := by
    match count with
    | 1 | 2 | 3 | 4 => rfl
    | more + 5 =>
      rw [halfFormatted_five]
      rfl
  rw [header]
  decide

theorem halfFormatted_zero : halfFormatted blocks 0 = blocks := rfl

theorem foldl_attempted_of_magic
    {attempts : List (List Fault)} {blocks : Blocks}
    (isVolume : hasMagic (blocks headerBlock) = true) :
    attempts.foldl attempted blocks = blocks := by
  induction attempts with
  | nil => rfl
  | cons faults rest ih =>
    rw [List.foldl_cons, attempted_of_magic isVolume, ih]

/-- Attempts after the first that wrote the header change nothing. -/
theorem foldl_attempted (noMagic : hasMagic (blocks headerBlock) = false) :
    attempts.foldl attempted blocks = halfFormatted blocks (progress attempts) := by
  induction attempts with
  | nil => rfl
  | cons faults rest ih =>
    rw [List.foldl_cons, attempted_of_noMagic noMagic, progress]
    by_cases nothing : attemptWrites faults = 0
    · rw [if_pos nothing, nothing, halfFormatted_zero, ih]
    · rw [if_neg nothing, foldl_attempted_of_magic (hasMagic_halfFormatted nothing)]

theorem halfFormatted_directory (isBlock : 1 ≤ index ∧ index ≤ 4) :
    halfFormatted blocks count index = if index < count then (fun _ => 0) else blocks index := by
  obtain rfl | rfl | rfl | rfl : index = 1 ∨ index = 2 ∨ index = 3 ∨ index = 4 := by omega
  all_goals
    match count with
    | 0 | 1 | 2 | 3 | 4 => rfl
    | more + 5 =>
      rw [halfFormatted_five, if_pos (by omega)]
      rfl

theorem parseEntry_eq_none_iff :
    parseEntry block slot = .ok none ↔ block (startOfSlot slot) = 0 := by
  unfold parseEntry
  by_cases isEmpty : block (startOfSlot slot) = 0
  · simp only [isEmpty, if_true]
  · simp only [isEmpty, if_false, iff_false]
    split
    · nofun
    · split <;> nofun

theorem reads_replicate_iff :
    Reads blocks (List.replicate maxFiles none) ↔
      ∀ slot < maxFiles, blocks (blockOfSlot slot) (startOfSlot slot) = 0 := by
  constructor
  · intro reads slot isSlot
    have parsed := reads.parse slot isSlot
    rw [List.getD_replicate _ isSlot] at parsed
    exact parseEntry_eq_none_iff.mp parsed
  · intro unused
    refine ⟨List.length_replicate, fun slot isSlot => ?_⟩
    rw [List.getD_replicate _ isSlot, parseEntry_eq_none_iff.mpr (unused slot isSlot)]

theorem blockOfSlot_bounds (isSlot : slot < maxFiles) :
    1 ≤ blockOfSlot slot ∧ blockOfSlot slot ≤ 4 := by
  have width : entriesPerBlock = 8 := rfl
  have all : maxFiles = 32 := rfl
  have first : directoryStartBlock = 1 := rfl
  rw [blockOfSlot, width, first]
  omega

theorem emptyAfter_iff :
    Reads (halfFormatted blocks count) (List.replicate maxFiles none) ↔
      ∀ slot < maxFiles, count ≤ blockOfSlot slot →
        blocks (blockOfSlot slot) (startOfSlot slot) = 0 := by
  rw [reads_replicate_iff]
  refine forall₂_congr fun slot isSlot => ?_
  rw [halfFormatted_directory (blockOfSlot_bounds isSlot)]
  split_ifs with cleared
  · exact ⟨fun _ notCleared => absurd cleared (Nat.not_lt.mpr notCleared), fun _ => rfl⟩
  · exact ⟨fun unused _ => unused, fun unused => unused (Nat.not_lt.mp cleared)⟩

/-- After interrupted attempts at a disk without the magic, the next initialization that
succeeds leaves an empty directory exactly if no attempt had written the header, or
the directory blocks that the first such attempt had not cleared had no used entry. -/
theorem initializeDisk_leaves_empty_iff
    {attempts : List (List Fault)} {blocks : Blocks}
    (noMagic : hasMagic (blocks headerBlock) = false)
    (succeeds : initializeDisk ⟨attempts.foldl attempted blocks, false, faults, []⟩ =
      .ok formatted disk) :
    (∃ after, readEntries { disk with faults := [] } =
        .ok (List.replicate maxFiles none) after) ↔
      progress attempts = 0 ∨
        ∀ slot < maxFiles, progress attempts ≤ blockOfSlot slot →
          blocks (blockOfSlot slot) (startOfSlot slot) = 0 := by
  have readsOnly : (∃ after, readEntries { disk with faults := [] } =
      .ok (List.replicate maxFiles none) after) ↔
        Reads disk.blocks (List.replicate maxFiles none) := by
    have spec := @readEntries_spec disk.blocks True
    have kept : Disk.Kept disk.blocks True { disk with faults := [] } := ⟨rfl, fun _ => rfl⟩
    constructor
    · rintro ⟨after, ran⟩
      exact (spec.of_ok kept ran).1
    · intro reads
      cases ran : readEntries { disk with faults := [] } with
      | ok table after =>
        rw [(spec.of_ok kept ran).1.unique reads]
        exact ⟨after, rfl⟩
      | error error after => exact absurd reads ((spec.of_error kept ran).2 trivial _)
  rw [readsOnly]
  rw [foldl_attempted noMagic] at succeeds
  by_cases untouched : progress attempts = 0
  · rw [untouched, halfFormatted_zero, initializeDisk_run] at succeeds
    refine ⟨fun _ => .inl untouched, fun _ => ?_⟩
    split_ifs at succeeds
    obtain ⟨isBlocks, all⟩ := @afterHeader_of_noMagic _
      ⟨blocks, false, faults.tail.tail, [headerBlock]⟩ noMagic
    rw [all _ _ succeeds, succeeds] at isBlocks
    rw [show disk.blocks = halfFormatted blocks 5 from isBlocks, emptyAfter_iff]
    intro slot isSlot beyond
    have bounds := blockOfSlot_bounds isSlot
    omega
  · have isVolume := @hasMagic_halfFormatted _ blocks untouched
    have same := @attempted_of_magic _ faults isVolume
    rw [attempted, succeeds] at same
    rw [show disk.blocks = halfFormatted blocks (progress attempts) from same, emptyAfter_iff]
    exact ⟨.inr, fun holds => holds.resolve_left untouched⟩

/-- A disk whose first directory entry is in use, with a name of one byte. -/
def usedDisk : Blocks := fun index offset =>
  if index = 1 ∧ (offset = 0 ∨ offset = 1) then 1 else 0

/-- Formatting stops after the header; the next start accepts the volume, with the old
entry in its directory. -/
theorem usedDisk_accepted_with_entry :
    hasMagic (usedDisk headerBlock) = false ∧
      ∃ disk after table,
        initializeDisk ⟨[[.passes, .passes, .passes, .refused]].foldl attempted usedDisk,
          false, [], []⟩ = .ok false disk ∧
        readEntries { disk with faults := [] } = .ok table after ∧
        (table.getD 0 none).isSome = true := by
  refine ⟨by decide, _, _, _, rfl, rfl, by decide⟩

/-- Formatting stops before the header is written; the next start formats the disk. -/
theorem usedDisk_refused_empty :
    hasMagic (usedDisk headerBlock) = false ∧
      progress [[.passes, .passes, .refused]] = 0 ∧
      ∃ disk, initializeDisk
          ⟨[[.passes, .passes, .refused]].foldl attempted usedDisk, false, [], []⟩ =
            .ok true disk ∧
        ∃ after, readEntries { disk with faults := [] } =
          .ok (List.replicate maxFiles none) after := by
  have noMagic : hasMagic (usedDisk headerBlock) = false := by decide
  have ran : initializeDisk
      ⟨[[.passes, .passes, .refused]].foldl attempted usedDisk, false, [], []⟩ =
        .ok true (lastDisk (initializeDisk
          ⟨[[.passes, .passes, .refused]].foldl attempted usedDisk, false, [], []⟩)) := rfl
  refine ⟨noMagic, by decide, _, ran, ?_⟩
  exact (initializeDisk_leaves_empty_iff noMagic ran).mpr (.inl (by decide))

end Vantfs
end Fs
end Vantara
