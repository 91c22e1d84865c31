import Vantara.Image.ElfFormat
import Vantara.User.Layout

/-!
# Accepted program images

The parser is exact, and the load segments it accepts stay clear of the stacks if and only
if they end below the lowest stack or lie in a guard page.
-/

namespace Vantara
namespace Elf

open Foundation

/-- The parser always comes to an end: a header is accepted exactly if it passes the
checks, and the load segments are those of the program header table exactly if they all
pass theirs and fit the output slice. -/
theorem load_segments_exact (image : List UInt8) (output : List LoadSegment) :
    (∃ parsed, (parseElf64 image).run = some parsed ∧
      ((∃ info, parsed = .ok info) ↔ HeaderAccepted image)) ∧
    ∃ result, (loadSegments image output).run = some result ∧
      ((∃ number slots, result = .ok (number, slots)) ↔
        HeaderAccepted image ∧
          (∀ segment ∈ loadEntries image, SegmentAccepted image segment) ∧
          (loadEntries image).length ≤ output.length) ∧
      ∀ number slots, result = .ok (number, slots) →
        number = (loadEntries image).length ∧ slots.length = output.length ∧
          slots.take number = loadEntries image ∧
          ∀ segment ∈ slots.take number, SegmentAccepted image segment := by
  have parses := parseElf64_meets image
  have loads := loadSegments_meets image output
  obtain ⟨parsed, parseEnds⟩ := parses.ends
  obtain ⟨result, loadEnds⟩ := loads.ends
  refine ⟨⟨parsed, parseEnds, ?_⟩, result, loadEnds, ?_, ?_⟩
  · cases parsed with
    | ok info => exact ⟨fun _ => (parses.of_ok parseEnds).1, fun _ => ⟨info, rfl⟩⟩
    | error error =>
      refine ⟨?_, fun accepted => absurd accepted (parses.of_error parseEnds)⟩
      rintro ⟨_, isOk⟩
      cases isOk
  · cases result with
    | ok loaded =>
      obtain ⟨number, slots⟩ := loaded
      exact ⟨fun _ => (loads.of_ok loadEnds).1, fun _ => ⟨number, slots, rfl⟩⟩
    | error error =>
      refine ⟨?_, fun accepted => absurd accepted (loads.of_error loadEnds)⟩
      rintro ⟨_, _, isOk⟩
      cases isOk
  · rintro number slots rfl
    obtain ⟨⟨-, accepted, room⟩, rfl, rfl⟩ := loads.of_ok loadEnds
    have taken : (loadEntries image ++ output.drop (loadEntries image).length).take
        (loadEntries image).length = loadEntries image := List.take_left
    refine ⟨rfl, ?_, taken, ?_⟩
    · rw [List.length_append, List.length_drop]
      omega
    · rwa [taken]

/-! ## Segments and stacks -/

/-- The range ends below the lowest stack or lies in the guard page below a stack. -/
def OffStacks (start stop : Nat) : Prop :=
  stop ≤ (stackRangeForSlot 7).1.toNat ∨ ∃ slot : Fin 8,
    (stackRangeForSlot slot).1.toNat ≤ start + pageSize.toNat ∧
      stop ≤ (stackRangeForSlot slot).1.toNat

theorem offStacks_iff (nonempty : start < stop) (accepted : stop ≤ userElfMaxVaddr) :
    OffStacks start stop ↔ ∀ slot : Fin 8,
      stop ≤ (stackRangeForSlot slot).1.toNat ∨ (stackRangeForSlot slot).2.toNat ≤ start := by
  have page : pageSize.toNat = 4096 := rfl
  have maximum : userElfMaxVaddr = 0x13fc000 := by decide
  have lowest : (stackRangeForSlot 7).1.toNat = 0x13d9000 := by decide
  simp only [OffStacks, lowest, stackRangeForSlot_toNat, Fin.forall_fin_succ, Fin.exists_fin_succ,
    page, Fin.val_zero, Fin.val_succ, IsEmpty.forall_iff, IsEmpty.exists_iff, or_false, and_true]
  omega

/-- The segments of an accepted image do not meet a stack if and only if those that are not
empty end below the lowest stack or lie in a guard page. -/
theorem segments_clear_of_stacks
    (ran : (loadSegments image output).run = some (.ok (number, slots))) :
    (∀ segment ∈ slots.take number, ∀ address,
      segment.virtualAddress ≤ address → address < segment.virtualAddress + segment.memorySize →
      (∀ slot : Fin 8, ¬((stackRangeForSlot slot).1.toNat ≤ address ∧
        address < (stackRangeForSlot slot).2.toNat)) ∧
      ∀ pid, ¬((stackTopForPid pid - userStackSize).toNat ≤ address ∧
        address < (stackTopForPid pid).toNat)) ↔
    ∀ segment ∈ loadEntries image, segment.memorySize ≠ 0 →
      OffStacks segment.virtualAddress (segment.virtualAddress + segment.memorySize) := by
  obtain ⟨⟨-, accepted, -⟩, rfl, rfl⟩ := (loadSegments_meets image output).of_ok ran
  rw [List.take_left]
  refine forall₂_congr fun segment loaded => ?_
  have highest := (accepted segment loaded).virtualEnd
  constructor
  · intro clear nonempty
    refine (offStacks_iff (by omega) highest).mpr fun slot => ?_
    have order : (stackRangeForSlot slot).1.toNat < (stackRangeForSlot slot).2.toNat := by
      rw [(stackRangeForSlot_toNat slot).1, (stackRangeForSlot_toNat slot).2]
      omega
    -- where the two ranges overlap, the later one of their starts is in both
    have least := clear (max segment.virtualAddress (stackRangeForSlot slot).1.toNat)
    by_contra meets
    exact (least (by omega) (by omega)).1 slot (by omega)
  · intro off address start stop
    have clear : ∀ slot : Fin 8, ¬((stackRangeForSlot slot).1.toNat ≤ address ∧
        address < (stackRangeForSlot slot).2.toNat) := by
      intro slot
      have apart := (offStacks_iff (by omega) highest).mp (off (by omega)) slot
      omega
    refine ⟨clear, fun pid => ?_⟩
    obtain ⟨slot, isTop, isStart⟩ := stackTopForPid_spec pid
    rw [isStart, isTop]
    exact clear slot

namespace Sample

/-- The file header of an image with some program headers right after it. -/
def fileHeader (count : Nat) : List UInt8 :=
  elfMagic ++ [elfClass64, elfData2Lsb, 1] ++ leBytes 0 9 ++ leBytes etExec 2 ++
    leBytes emX8664 2 ++ leBytes elfVersionCurrent 4 ++ leBytes userElfMinVaddr 8 ++
    leBytes 64 8 ++ leBytes 0 8 ++ leBytes 0 4 ++ leBytes 64 2 ++
    leBytes elf64ProgramHeaderSize 2 ++ leBytes count 2 ++ leBytes 0 6

def programHeader (segment : LoadSegment) : List UInt8 :=
  leBytes ptLoad 4 ++ leBytes segment.flags 4 ++ leBytes segment.fileOffset 8 ++
    leBytes segment.virtualAddress 8 ++ leBytes 0 8 ++ leBytes segment.fileSize 8 ++
    leBytes segment.memorySize 8 ++ leBytes segment.alignment 8

/-- An image of some segments and the bytes that they load. -/
def image (segments : List LoadSegment) (bytes : List UInt8) : List UInt8 :=
  fileHeader segments.length ++ segments.flatMap programHeader ++ bytes

/-- A page of data without bytes in the file. -/
def blankPage (virtualAddress : Nat) : LoadSegment :=
  ⟨0, virtualAddress, 0, 4096, pfR ||| pfW, 4096⟩

end Sample

/-- A page of data in the lowest guard page. -/
theorem segments_clear_of_stacks_guardPage :
    (loadSegments (Sample.image [Sample.blankPage 0x13d8000] []) [LoadSegment.empty]).run =
        some (.ok (1, [Sample.blankPage 0x13d8000])) ∧
    ∀ slot : Fin 8, ¬((stackRangeForSlot slot).1.toNat ≤ 0x13d8000 ∧
      0x13d8000 < (stackRangeForSlot slot).2.toNat) := by
  have ran : (loadSegments (Sample.image [Sample.blankPage 0x13d8000] [])
      [LoadSegment.empty]).run = some (.ok (1, [Sample.blankPage 0x13d8000])) := by
    decide +kernel
  have entries : loadEntries (Sample.image [Sample.blankPage 0x13d8000] []) =
      [Sample.blankPage 0x13d8000] := by
    decide +kernel
  refine ⟨ran, ((segments_clear_of_stacks ran).mpr ?_ (Sample.blankPage 0x13d8000)
    (List.mem_singleton_self _) 0x13d8000 (Nat.le_refl _) (by decide)).1⟩
  rw [entries]
  rintro segment listed -
  rw [List.mem_singleton.mp listed]
  exact .inl (by decide)

/-- A segment on the lowest page of the second stack is accepted. -/
theorem segment_in_stack_accepted :
    (loadSegments (Sample.image [Sample.blankPage 0x13f7000] []) [LoadSegment.empty]).run =
        some (.ok (1, [Sample.blankPage 0x13f7000])) ∧
    (stackRangeForSlot 1).1.toNat ≤ (Sample.blankPage 0x13f7000).virtualAddress ∧
    (Sample.blankPage 0x13f7000).virtualAddress + (Sample.blankPage 0x13f7000).memorySize ≤
      (stackRangeForSlot 1).2.toNat ∧
    stackTopForPid 3 = (stackRangeForSlot 1).2 := by
  decide +kernel

end Elf
end Vantara
