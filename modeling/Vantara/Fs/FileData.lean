import Vantara.Fs.Directory

/-!
# The data of the files on the disk

The two data blocks of a slot are the contents of its file.  The loops over the blocks
of a file copy exactly the bytes that are asked for, and a loop that is interrupted
has changed no other block.
-/

namespace Vantara
namespace Fs
namespace Vantfs

open Foundation

/-- A byte of the contents of a slot. -/
def content (blocks : Blocks) (slot index : Nat) : UInt8 :=
  blocks (dataBlock slot (index / blockSize)) (index % blockSize)

/-- Only the two data blocks of a slot have changed. -/
def OnlyData (slot : Nat) (before after : Blocks) : Prop :=
  ∀ index, index ≠ dataBlock slot 0 → index ≠ dataBlock slot 1 → after index = before index

/-- The blocks after bytes were written at an offset of a file. -/
structure Wrote (before : Blocks) (slot offset : Nat) (source : List UInt8)
    (after : Blocks) : Prop where
  only : OnlyData slot before after
  content : ∀ index < maxFileSize, content after slot index =
    if offset ≤ index ∧ index < offset + source.length then source.getD (index - offset) 0
    else Vantfs.content before slot index

theorem OnlyData.refl : OnlyData slot blocks blocks :=
  fun _ _ _ => rfl

theorem OnlyData.trans (first : OnlyData slot before middle) (second : OnlyData slot middle after) :
    OnlyData slot before after :=
  fun index notFirst notSecond =>
    (second index notFirst notSecond).trans (first index notFirst notSecond)

theorem Wrote.nil : Wrote blocks slot offset [] blocks := by
  refine ⟨.refl, fun index _ => ?_⟩
  rw [List.length_nil, Nat.add_zero, if_neg (by omega)]

/-- One piece is written after another. -/
theorem Wrote.append (first : Wrote before slot offset left middle)
    (second : Wrote middle slot (offset + left.length) right after) :
    Wrote before slot offset (left ++ right) after := by
  refine ⟨first.only.trans second.only, fun index inside => ?_⟩
  rw [second.content index inside, first.content index inside, List.length_append]
  by_cases inRight : offset + left.length ≤ index ∧ index < offset + left.length + right.length
  · rw [if_pos inRight, if_pos (by omega), List.getD_append_right _ _ _ _ (by omega),
      Nat.sub_add_eq]
  · rw [if_neg inRight]
    by_cases inLeft : offset ≤ index ∧ index < offset + left.length
    · rw [if_pos inLeft, if_pos (by omega), List.getD_append _ _ _ _ (by omega)]
    · rw [if_neg inLeft, if_neg (by omega)]

theorem dataBlock_lt (isSlot : slot < maxFiles) (isBlock : fileBlock < 2) :
    dataBlock slot fileBlock < diskBlocks := by
  have first : dataStartBlock = 5 := rfl
  have width : blocksPerFile = 2 := rfl
  have all : maxFiles = 32 := rfl
  have last : diskBlocks = 2048 := rfl
  rw [dataBlock, first, width, last]
  omega

theorem dataBlock_inj : dataBlock slot left = dataBlock slot right ↔ left = right := by
  rw [dataBlock, dataBlock]
  omega

/-- Bytes are written into one block of a file. -/
theorem Wrote.spliceData
    (fits : offset % blockSize + source.length ≤ blockSize)
    (inside : offset < maxFileSize) :
    Wrote blocks slot offset source
      (Function.update blocks (dataBlock slot (offset / blockSize))
        (spliceData (blocks (dataBlock slot (offset / blockSize))) (offset % blockSize)
          source)) := by
  have size : blockSize = 512 := rfl
  have total : maxFileSize = 1024 := rfl
  rw [size] at fits
  rw [total] at inside
  constructor
  · rw [size]
    intro index notFirst notSecond
    refine Function.update_of_ne (fun isBlock => ?_) _ _
    obtain isFirst | isSecond : offset / 512 = 0 ∨ offset / 512 = 1 := by omega
    · exact notFirst (isFirst ▸ isBlock)
    · exact notSecond (isSecond ▸ isBlock)
  · intro index small
    simp only [Vantfs.content, size]
    by_cases sameBlock : index / 512 = offset / 512
    · rw [sameBlock, Function.update_self, Vantfs.spliceData]
      by_cases within : offset ≤ index ∧ index < offset + source.length
      · rw [if_pos (by omega), if_pos within]
        congr 1
        omega
      · rw [if_neg (by omega), if_neg within]
    · rw [Function.update_of_ne (mt dataBlock_inj.mp sameBlock), if_neg (by omega)]

theorem OnlyData.update (isBlock : fileBlock < 2) :
    OnlyData slot blocks (Function.update blocks (dataBlock slot fileBlock) block) := by
  intro index notFirst notSecond
  refine Function.update_of_ne (fun same => ?_) _ _
  obtain isFirst | isSecond : fileBlock = 0 ∨ fileBlock = 1 := by omega
  · exact notFirst (isFirst ▸ same)
  · exact notSecond (isSecond ▸ same)

/-- Writing data writes exactly that, or is interrupted and has written to this file
only. -/
theorem writeDataLoop_spec
    (isSlot : slot < maxFiles)
    (enough : source.length ≤ turns)
    (fits : offset + source.length ≤ maxFileSize) :
    Attempt (Disk.Kept blocks clean) (writeDataLoop slot turns offset source)
      (fun _ disk => ∃ after, Wrote blocks slot offset source after ∧ disk.Kept after clean)
      (fun _ disk => ¬ clean ∧ OnlyData slot blocks disk.blocks) := by
  have size : blockSize = 512 := rfl
  have total : maxFileSize = 1024 := rfl
  induction turns generalizing offset source blocks with
  | zero =>
    obtain rfl : source = [] := List.length_eq_zero_iff.mp (Nat.le_zero.mp enough)
    exact .pure fun disk kept => ⟨blocks, .nil, kept⟩
  | succ turns ih =>
    rw [writeDataLoop]
    by_cases done : source = []
    · rw [if_pos done, done]
      exact .pure fun disk kept => ⟨blocks, .nil, kept⟩
    rw [if_neg done]
    have positive : 0 < source.length := List.length_pos_iff.mpr done
    dsimp only
    rw [size]
    generalize isCount : min (512 - offset % 512) source.length = count
    have countBounds : 0 < count ∧ count ≤ source.length ∧ offset % 512 + count ≤ 512 := by
      omega
    have isBlock : offset / 512 < 2 := by omega
    have inside := dataBlock_lt isSlot isBlock
    have piece : (source.take count).length = count := by
      rw [List.length_take]
      omega
    have wrote : Wrote blocks slot offset (source.take count)
        (Function.update blocks (dataBlock slot (offset / 512))
          (spliceData (blocks (dataBlock slot (offset / 512))) (offset % 512)
            (source.take count))) :=
      Wrote.spliceData (by rw [size, piece]; omega) (by omega)
    refine ((Disk.Kept.readBlock inside).failing fun _ disk lost => ?_).bind
      fun block => .assuming ?_
    · exact ⟨lost.1, lost.2 ▸ .refl⟩
    rintro rfl
    refine ((Disk.Kept.writeBlock inside).failing fun _ disk lost => ?_).bind fun _ => ?_
    · refine ⟨lost.1, ?_⟩
      rcases lost.2 with same | stored
      · exact same ▸ .refl
      · exact stored ▸ wrote.only
    refine (ih (by rw [List.length_drop]; omega)
      (by rw [List.length_drop]; omega)).consequence (fun _ kept => kept) ?_ ?_
    · rintro _ disk ⟨after, rest, kept⟩
      refine ⟨after, ?_, kept⟩
      rw [← List.take_append_drop count source]
      exact wrote.append (piece.symm ▸ rest)
    · rintro _ disk ⟨notClean, rest⟩
      exact ⟨notClean, wrote.only.trans rest⟩

theorem writeData_spec (isSlot : slot < maxFiles) (fits : offset + source.length ≤ maxFileSize) :
    Attempt (Disk.Kept blocks clean) (writeData slot offset source)
      (fun _ disk => ∃ after, Wrote blocks slot offset source after ∧ disk.Kept after clean)
      (fun _ disk => ¬ clean ∧ OnlyData slot blocks disk.blocks) :=
  writeDataLoop_spec isSlot le_rfl fits

/-- The contents of a slot are cleared. -/
structure Cleared (before : Blocks) (slot : Nat) (after : Blocks) : Prop where
  only : OnlyData slot before after
  content : ∀ index < maxFileSize, content after slot index = 0

theorem clearData_spec (isSlot : slot < maxFiles) :
    Attempt (Disk.Kept blocks clean) (clearData slot)
      (fun _ disk => ∃ after, Cleared blocks slot after ∧ disk.Kept after clean)
      (fun _ disk => ¬ clean ∧ OnlyData slot blocks disk.blocks) := by
  have firstInside := @dataBlock_lt slot 0 isSlot (by decide)
  have secondInside := @dataBlock_lt slot 1 isSlot (by decide)
  rw [clearData]
  refine ((Disk.Kept.writeBlock firstInside).failing fun _ disk lost => ?_).bind fun _ =>
    (Disk.Kept.writeBlock secondInside).consequence (fun _ kept => kept) ?_ ?_
  · refine ⟨lost.1, ?_⟩
    rcases lost.2 with same | stored
    · exact same ▸ .refl
    · exact stored ▸ .update (by decide)
  · intro _ disk kept
    refine ⟨_, ⟨.trans (.update (by decide)) (.update (by decide)), fun index inside => ?_⟩, kept⟩
    have total : maxFileSize = 1024 := rfl
    have size : blockSize = 512 := rfl
    rw [content, size]
    obtain isFirst | isSecond : index / 512 = 0 ∨ index / 512 = 1 := by omega
    · rw [isFirst, Function.update_of_ne (mt dataBlock_inj.mp (by decide)), Function.update_self]
    · rw [isSecond, Function.update_self]
  · rintro _ disk ⟨notClean, same | stored⟩
    · exact ⟨notClean, same ▸ .update (by decide)⟩
    · exact ⟨notClean, stored ▸ .trans (.update (by decide)) (.update (by decide))⟩

/-- Reading data gives the bytes that are asked for, or fails. -/
theorem readDataLoop_spec
    (isSlot : slot < maxFiles)
    (enough : wanted ≤ turns)
    (fits : offset + wanted ≤ maxFileSize) :
    Attempt (Disk.Kept blocks clean) (readDataLoop slot turns offset wanted)
      (fun bytes disk =>
        bytes = (List.range wanted).map (fun index => content blocks slot (offset + index)) ∧
          disk.Kept blocks clean)
      (fun _ disk => ¬ clean ∧ disk.blocks = blocks) := by
  have size : blockSize = 512 := rfl
  have total : maxFileSize = 1024 := rfl
  induction turns generalizing offset wanted with
  | zero =>
    obtain rfl : wanted = 0 := Nat.le_zero.mp enough
    exact .pure fun disk kept => ⟨rfl, kept⟩
  | succ turns ih =>
    rw [readDataLoop]
    by_cases done : wanted = 0
    · rw [if_pos done, done]
      exact .pure fun disk kept => ⟨rfl, kept⟩
    rw [if_neg done]
    dsimp only
    rw [size]
    generalize isCount : min (512 - offset % 512) wanted = count
    have countBounds : 0 < count ∧ count ≤ wanted ∧ offset % 512 + count ≤ 512 := by
      omega
    have inside := dataBlock_lt isSlot (show offset / 512 < 2 by omega)
    refine (Disk.Kept.readBlock inside).bind fun block => .assuming ?_
    rintro rfl
    refine (ih (by omega) (by omega)).bind fun rest => .assuming ?_
    rintro rfl
    refine .pure fun disk kept => ⟨?_, kept⟩
    have split : wanted = count + (wanted - count) := by omega
    conv_rhs => rw [split, List.range_add, List.map_append, List.map_map]
    congr 1
    · refine List.map_congr_left fun index isIndex => ?_
      have small := List.mem_range.mp isIndex
      rw [content, size, show (offset + index) / 512 = offset / 512 by omega,
        show (offset + index) % 512 = offset % 512 + index by omega]
    · refine List.map_congr_left fun index _ => ?_
      rw [Function.comp_apply, Nat.add_assoc]

theorem readData_spec (isSlot : slot < maxFiles) (fits : offset + wanted ≤ maxFileSize) :
    Attempt (Disk.Kept blocks clean) (readData slot offset wanted)
      (fun bytes disk =>
        bytes = (List.range wanted).map (fun index => content blocks slot (offset + index)) ∧
          disk.Kept blocks clean)
      (fun _ disk => ¬ clean ∧ disk.blocks = blocks) :=
  readDataLoop_spec isSlot le_rfl fits

end Vantfs
end Fs
end Vantara
