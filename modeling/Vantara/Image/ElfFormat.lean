import Mathlib.Tactic.IntervalCases
import Vantara.Foundation.Buffer
import Vantara.Image.Elf

/-!
# What the ELF parser accepts

The fields of an image are read here as total functions of its bytes.  The parser never
stops the machine; it accepts the images whose header and load segments are well formed,
and gives the load segments in the order of the program header table.
-/

namespace Vantara
namespace Elf

open Foundation
open Guarded (Meets)

/-- The number in some bytes of the image; bytes outside the image count as zero. -/
def field (image : List UInt8) (offset width : Nat) : Nat :=
  Buffer.number (fun index => image.getD index 0) offset width

theorem field_lt (image : List UInt8) (offset width : Nat) :
    field image offset width < 256 ^ width :=
  Buffer.number_lt offset width

/-! ## Reading inside the image -/

section Reading

variable {image : List UInt8} {refused : ElfError → Prop}

theorem byteAt_meets (inside : index < image.length) (holds : post (image.getD index 0)) :
    Meets (byteAt image index) post refused := by
  apply Meets.unwrap (List.getElem?_eq_getElem inside)
  rwa [List.getD_eq_getElem _ _ inside] at holds

theorem readLe_meets
    (inside : offset + width ≤ image.length)
    (fits : offset + width ≤ 2 ^ 64)
    (holds : post (field image offset width)) :
    Meets (readLe image offset width) post refused := by
  induction width generalizing post with
  | zero => exact Meets.pure holds
  | succ width ih =>
    rw [readLe]
    refine .seq (ih (by omega) (by omega) ?_)
    refine .seq (Meets.add (by omega) ?_)
    refine .seq (byteAt_meets (by omega) ?_)
    exact Meets.pure holds

/-- A field of an entry of the program header table. -/
theorem readEntryField_meets
    (inside : offset + elf64ProgramHeaderSize ≤ image.length)
    (fits : offset + elf64ProgramHeaderSize < 2 ^ 64)
    (within : distance + width ≤ elf64ProgramHeaderSize)
    (holds : post (field image (offset + distance) width)) :
    Meets (readEntryField image offset distance width) post refused := by
  have size : elf64ProgramHeaderSize = 56 := rfl
  refine .seq (Meets.add (by omega) ?_)
  exact readLe_meets (by omega) (by omega) holds

end Reading

/-! ## The headers -/

/-- The table of program headers, by the file header. -/
def programHeaderOffset (image : List UInt8) : Nat := field image 32 8
def programHeaderEntrySize (image : List UInt8) : Nat := field image 54 2
def programHeaderCount (image : List UInt8) : Nat := field image 56 2

/-- The information in the file header. -/
def infoOf (image : List UInt8) : ElfInfo :=
  ⟨field image 24 8, programHeaderOffset image, programHeaderEntrySize image,
    programHeaderCount image⟩

/-- The program header table, if it is not empty, is inside the image and has entries
of sufficient size. -/
def TableFits (image : List UInt8) : Prop :=
  programHeaderCount image = 0 ∨
    elf64ProgramHeaderSize ≤ programHeaderEntrySize image ∧
      programHeaderOffset image + programHeaderEntrySize image * programHeaderCount image <
        2 ^ 64 ∧
      programHeaderOffset image + programHeaderEntrySize image * programHeaderCount image ≤
        image.length

/-- The checks of the file header. -/
structure HeaderAccepted (image : List UInt8) : Prop where
  size : 64 ≤ image.length
  magic : image.take 4 = elfMagic
  elfClass : image.getD 4 0 = elfClass64
  endian : image.getD 5 0 = elfData2Lsb
  version : field image 20 4 = elfVersionCurrent
  elfType : field image 16 2 = etExec
  machine : field image 18 2 = emX8664
  table : TableFits image

theorem validateProgramHeaderTable_meets (image : List UInt8) :
    Meets
      (validateProgramHeaderTable image (programHeaderOffset image)
        (programHeaderEntrySize image) (programHeaderCount image))
      (fun _ => TableFits image)
      (fun _ => ¬TableFits image) := by
  have sizeBound : programHeaderEntrySize image < 65536 := field_lt image 54 2
  have countBound : programHeaderCount image < 65536 := field_lt image 56 2
  have product : programHeaderEntrySize image * programHeaderCount image < 2 ^ 64 := by
    have bound := Nat.mul_le_mul (Nat.le_of_lt sizeBound) (Nat.le_of_lt countBound)
    omega
  rw [validateProgramHeaderTable]
  apply Meets.ite
  · intro empty
    exact Meets.pure (.inl empty)
  intro nonempty
  apply Meets.guard
  · rintro small (empty | ⟨large, -⟩)
    · exact nonempty empty
    · omega
  intro large
  refine .seq (Meets.mul product ?_)
  apply Meets.guard
  · rintro overflows (empty | ⟨-, fits, -⟩)
    · exact nonempty empty
    · omega
  intro fits
  apply Meets.guard
  · rintro outside (empty | ⟨-, -, inside⟩)
    · exact nonempty empty
    · omega
  · intro inside
    exact Meets.pure (.inr ⟨by omega, by omega, by omega⟩)

theorem parseElf64_meets (image : List UInt8) :
    Meets (parseElf64 image)
      (fun info => HeaderAccepted image ∧ info = infoOf image)
      (fun _ => ¬HeaderAccepted image) := by
  rw [parseElf64]
  refine .guard (fun small accepted => absurd accepted.size (by omega)) fun size => ?_
  have magicSlice : Meets (slice image 0 4) (· = image.take 4)
      (fun _ => ¬HeaderAccepted image) := by
    rw [slice, if_pos ⟨Nat.zero_le _, by omega⟩]
    exact Meets.pure rfl
  apply Meets.bind magicSlice
  rintro _ rfl
  refine .guard (fun bad accepted => bad accepted.magic) fun magic => ?_
  refine .seq (byteAt_meets (by omega) ?_)
  refine .guard (fun bad accepted => bad accepted.elfClass) fun elfClass => ?_
  refine .seq (byteAt_meets (by omega) ?_)
  refine .guard (fun bad accepted => bad accepted.endian) fun endian => ?_
  refine .seq (readLe_meets (by omega) (by omega) ?_)
  refine .guard (fun bad accepted => bad accepted.version) fun version => ?_
  refine .seq (readLe_meets (by omega) (by omega) ?_)
  refine .guard (fun bad accepted => bad accepted.elfType) fun elfType => ?_
  refine .seq (readLe_meets (by omega) (by omega) ?_)
  refine .guard (fun bad accepted => bad accepted.machine) fun machine => ?_
  iterate 3 refine .seq (readLe_meets (by omega) (by omega) ?_)
  have table := (validateProgramHeaderTable_meets image).consequence (fun _ fits => fits)
    fun _ (unfit : ¬TableFits image) (accepted : HeaderAccepted image) => unfit accepted.table
  apply Meets.bind table
  intro _ fits
  refine .seq (readLe_meets (by omega) (by omega) ?_)
  exact Meets.pure
    ⟨⟨by omega, not_not.mp magic, not_not.mp elfClass, not_not.mp endian, not_not.mp version,
      not_not.mp elfType, not_not.mp machine, fits⟩, rfl⟩

/-! ## The segments -/

/-- The load segment in a program header. -/
def segmentAt (image : List UInt8) (offset : Nat) : LoadSegment where
  flags := field image (offset + 4) 4
  fileOffset := field image (offset + 8) 8
  virtualAddress := field image (offset + 16) 8
  fileSize := field image (offset + 32) 8
  memorySize := field image (offset + 40) 8
  alignment := field image (offset + 48) 8

/-- The place of an entry of the program header table. -/
def entryOffset (image : List UInt8) (index : Nat) : Nat :=
  programHeaderOffset image + index * programHeaderEntrySize image

/-- The load segment in an entry of the program header table, if it is one. -/
def loadEntry (image : List UInt8) (index : Nat) : Option LoadSegment :=
  if field image (entryOffset image index) 4 = ptLoad then
    some (segmentAt image (entryOffset image index))
  else none

/-- The load segments of the program header table, in its order. -/
def loadEntries (image : List UInt8) : List LoadSegment :=
  (List.range (programHeaderCount image)).filterMap (loadEntry image)

/-- The checks of a load segment. -/
structure SegmentAccepted (image : List UInt8) (segment : LoadSegment) : Prop where
  sizes : segment.fileSize ≤ segment.memorySize
  fileRange : segment.fileOffset + segment.fileSize < 2 ^ 64 ∧
    segment.fileOffset + segment.fileSize ≤ image.length
  flags : segment.flags < 8
  separate : ¬(segment.has pfW ∧ segment.has pfX)
  alignment : segment.alignment ≤ 1 ∨ isPowerOfTwo segment.alignment
  virtualStart : userElfMinVaddr ≤ segment.virtualAddress
  virtualEnd : segment.virtualAddress + segment.memorySize ≤ userElfMaxVaddr

theorem readSegment_meets
    (inside : offset + elf64ProgramHeaderSize ≤ image.length)
    (fits : offset + elf64ProgramHeaderSize < 2 ^ 64) :
    Meets (readSegment image offset) (· = segmentAt image offset) refused := by
  have size : elf64ProgramHeaderSize = 56 := rfl
  rw [readSegment]
  iterate 6 refine .seq (readEntryField_meets inside fits (by omega) ?_)
  exact Meets.pure rfl

/-- A 32-bit word with no bits but the lowest three. -/
theorem and_complement_seven_eq_zero_iff (fits : word < 2 ^ 32) :
    word &&& ((pfR ||| pfW ||| pfX) ^^^ (2 ^ 32 - 1)) = 0 ↔ word < 8 := by
  have mask : (pfR ||| pfW ||| pfX) ^^^ (2 ^ 32 - 1) = 2 ^ 32 - 8 := by decide
  rw [mask]
  constructor
  · intro none
    have shifted : word >>> 3 &&& (2 ^ 32 - 8) >>> 3 = 0 := by
      rw [← Nat.shiftRight_and_distrib, none, Nat.zero_shiftRight]
    have high : (2 ^ 32 - 8) >>> 3 = 2 ^ 29 - 1 := by decide
    rw [high, Nat.and_two_pow_sub_one_eq_mod, Nat.shiftRight_eq_div_pow] at shifted
    omega
  · intro small
    interval_cases word <;> decide

theorem hasOtherThan_eq_false_iff {segment : LoadSegment} (fits : segment.flags < 2 ^ 32) :
    segment.hasOtherThan (pfR ||| pfW ||| pfX) = false ↔ segment.flags < 8 := by
  rw [← and_complement_seven_eq_zero_iff fits, LoadSegment.hasOtherThan, decide_eq_false_iff_not,
    not_not]

theorem validateLoadSegment_meets (image : List UInt8) (segment : LoadSegment) :
    Meets (validateLoadSegment image segment)
      (fun _ => segment.fileSize ≤ segment.memorySize ∧
        segment.fileOffset + segment.fileSize < 2 ^ 64 ∧
        segment.fileOffset + segment.fileSize ≤ image.length)
      (fun _ => ¬SegmentAccepted image segment) := by
  rw [validateLoadSegment]
  refine .guard (fun bad accepted => absurd accepted.sizes (by omega)) fun sizes => ?_
  refine .guard (fun bad accepted => absurd accepted.fileRange.1 (by omega)) fun fits => ?_
  refine .guard (fun bad accepted => absurd accepted.fileRange.2 (by omega)) fun inside => ?_
  exact Meets.pure ⟨by omega, by omega, by omega⟩

theorem validateUserLoadSegment_meets
    {image : List UInt8} {segment : LoadSegment}
    (word : segment.flags < 2 ^ 32)
    (file : segment.fileSize ≤ segment.memorySize ∧
      segment.fileOffset + segment.fileSize < 2 ^ 64 ∧
      segment.fileOffset + segment.fileSize ≤ image.length) :
    Meets (validateUserLoadSegment segment)
      (fun _ => SegmentAccepted image segment)
      (fun _ => ¬SegmentAccepted image segment) := by
  have top : userElfMaxVaddr < 2 ^ 64 := by decide
  rw [validateUserLoadSegment]
  apply Meets.guard
  · intro bad accepted
    rw [(hasOtherThan_eq_false_iff word).mpr accepted.flags] at bad
    cases bad
  intro flags
  refine .guard (fun bad accepted => accepted.separate bad) fun separate => ?_
  apply Meets.guard
  · rintro ⟨large, notPower⟩ accepted
    obtain small | power := accepted.alignment
    · omega
    · rw [power] at notPower
      cases notPower
  intro alignment
  refine .guard (fun bad accepted => absurd accepted.virtualStart (by omega)) fun virtualStart => ?_
  refine .guard (fun bad accepted => absurd accepted.virtualEnd (by omega)) fun _ => ?_
  refine .guard (fun bad accepted => absurd accepted.virtualEnd (by omega)) fun virtualEnd =>
    Meets.pure ⟨file.1, file.2, ?_, separate, ?_, by omega, by omega⟩
  · exact (hasOtherThan_eq_false_iff word).mp (Bool.not_eq_true _ ▸ flags)
  · by_cases power : isPowerOfTwo segment.alignment
    · exact .inr power
    · exact .inl (Nat.le_of_not_lt fun large => alignment ⟨large, by simp [power]⟩)

/-! ## The table -/

/-- An entry is inside the image. -/
def EntryFits (image : List UInt8) (index : Nat) : Prop :=
  entryOffset image index + elf64ProgramHeaderSize ≤ image.length ∧
    entryOffset image index + elf64ProgramHeaderSize < 2 ^ 64

theorem TableFits.entryFits (fits : TableFits image) (inTable : index < programHeaderCount image) :
    EntryFits image index := by
  obtain empty | ⟨large, word, inside⟩ := fits
  · omega
  have upTo : (index + 1) * programHeaderEntrySize image ≤
      programHeaderEntrySize image * programHeaderCount image := by
    rw [Nat.mul_comm]
    exact Nat.mul_le_mul_left _ inTable
  rw [Nat.succ_mul] at upTo
  rw [EntryFits, entryOffset]
  omega

/-- Load segments that are accepted and for which there is room. -/
def Loadable (image : List UInt8) (segments : List LoadSegment) (room : Nat) : Prop :=
  (∀ segment ∈ segments, SegmentAccepted image segment) ∧ segments.length ≤ room

theorem loadable_cons {segment : LoadSegment} :
    Loadable image (segment :: rest) (room + 1) ↔
      SegmentAccepted image segment ∧ Loadable image rest room := by
  rw [Loadable, Loadable, List.forall_mem_cons, List.length_cons, Nat.add_le_add_iff_right,
    and_assoc]

theorem loadEntry_of_ne (notLoad : field image (entryOffset image index) 4 ≠ ptLoad) :
    loadEntry image index = none :=
  if_neg notLoad

theorem loadEntry_of_eq (isLoad : field image (entryOffset image index) 4 = ptLoad) :
    loadEntry image index = some (segmentAt image (entryOffset image index)) :=
  if_pos isLoad

/-- The loop over some entries of the table goes on to the end exactly if the load
segments among them are accepted and there is room for them. -/
theorem loadSegmentsLoop_meets
    (inTable : ∀ index ∈ indexes, EntryFits image index)
    (length : output.length = count + room)
    (few : count + indexes.length < 2 ^ 64) :
    Meets (loadSegmentsLoop image (infoOf image) indexes count output)
      (fun result =>
        Loadable image (indexes.filterMap (loadEntry image)) room ∧
        result.1 = count + (indexes.filterMap (loadEntry image)).length ∧
        result.2 = output.take count ++ indexes.filterMap (loadEntry image) ++
          output.drop result.1)
      (fun _ => ¬Loadable image (indexes.filterMap (loadEntry image)) room) := by
  induction indexes generalizing count output room with
  | nil => exact Meets.pure ⟨⟨by simp, by simp⟩, by simp, by simp⟩
  | cons index rest ih =>
    obtain ⟨⟨inside, word⟩, others⟩ := List.forall_mem_cons.mp inTable
    have size : elf64ProgramHeaderSize = 56 := rfl
    have offset : (infoOf image).programHeaderOffset +
        index * (infoOf image).programHeaderEntrySize = entryOffset image index := rfl
    rw [List.length_cons] at few
    rw [loadSegmentsLoop]
    refine .seq (Meets.mul (by omega) ?_)
    refine .seq (Meets.add (by omega) ?_)
    rw [offset]
    refine .seq (readLe_meets (by omega) (by omega) ?_)
    apply Meets.ite
    · intro notLoad
      rw [List.filterMap_cons_none (loadEntry_of_ne notLoad)]
      exact ih others length (by omega)
    intro isLoad
    rw [List.filterMap_cons_some (loadEntry_of_eq (not_not.mp isLoad))]
    generalize found : segmentAt image (entryOffset image index) = segment
    apply Meets.guard
    · rintro full ⟨-, enough⟩
      rw [List.length_cons] at enough
      omega
    intro free
    obtain ⟨room, rfl⟩ : ∃ less, room = less + 1 := ⟨room - 1, by omega⟩
    simp only [loadable_cons]
    apply Meets.bind (readSegment_meets inside word)
    rintro _ rfl
    rw [found]
    apply Meets.bind ((validateLoadSegment_meets image _).consequence (fun _ => id)
      fun _ refused loadable => refused loadable.1)
    intro _ file
    have flags : segment.flags < 2 ^ 32 := found ▸ field_lt image _ 4
    apply Meets.bind ((validateUserLoadSegment_meets flags file).consequence (fun _ => id)
      fun _ refused loadable => refused loadable.1)
    intro _ accepted
    rw [storeSegment, if_pos (by omega)]
    refine .seq (Meets.pure ?_)
    refine .seq (Meets.add (by omega) ?_)
    have stored : (output.set count segment).take (count + 1) =
        output.take count ++ [segment] := by
      have atStart : (output.take count).length = count := List.length_take_of_le (by omega)
      rw [List.set_eq_take_append_cons_drop, if_pos (by omega), List.take_append, atStart,
        List.take_of_length_le (by omega), Nat.add_sub_cancel_left]
      rfl
    have goesOn := @ih (count + 1) room (output.set count segment) others
      (by rw [List.length_set]; omega) (by omega)
    apply goesOn.consequence
    · rintro ⟨number, slots⟩ ⟨loadable, total, contents⟩
      dsimp only at total contents
      refine ⟨⟨accepted, loadable⟩, ?_, ?_⟩
      · rw [List.length_cons]
        omega
      · rw [stored, List.drop_set_of_lt (by omega)] at contents
        rw [contents, List.append_assoc (output.take count), List.singleton_append]
    · exact fun _ refused loadable => refused loadable.2

theorem loadSegments_meets (image : List UInt8) (output : List LoadSegment) :
    Meets (loadSegments image output)
      (fun result =>
        (HeaderAccepted image ∧ Loadable image (loadEntries image) output.length) ∧
        result.1 = (loadEntries image).length ∧
        result.2 = loadEntries image ++ output.drop (loadEntries image).length)
      (fun _ => ¬(HeaderAccepted image ∧ Loadable image (loadEntries image) output.length)) := by
  rw [loadSegments]
  apply Meets.bind ((parseElf64_meets image).consequence (fun _ => id)
    fun _ refused accepted => refused accepted.1)
  rintro _ ⟨header, rfl⟩
  have few : programHeaderCount image < 65536 := field_lt image 56 2
  have inTable : ∀ index ∈ List.range (programHeaderCount image), EntryFits image index :=
    fun index isIndex => header.table.entryFits (List.mem_range.mp isIndex)
  have loop := loadSegmentsLoop_meets inTable (Nat.zero_add output.length).symm
    (by rw [List.length_range]; omega)
  apply loop.consequence
  · rintro ⟨number, slots⟩ ⟨loadable, total, contents⟩
    dsimp only at total contents
    rw [Nat.zero_add] at total
    rw [total, List.take_zero, List.nil_append] at contents
    exact ⟨⟨header, loadable⟩, total, contents⟩
  · exact fun _ refused accepted => refused accepted.2

end Elf
end Vantara
