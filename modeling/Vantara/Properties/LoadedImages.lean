import Vantara.Image.Loading
import Vantara.Properties.ElfImages

/-!
# Loaded program images

What a preparation leaves in the memory of a program: the bytes of its segments where no
later segment covers them, and permissions that never allow to write and to execute the
same page, whatever the page was used for before.
-/

namespace Vantara
namespace PrivateMemory

open Foundation
open Elf (LoadSegment)

variable {segment : LoadSegment}

/-! ## The segments of an accepted image -/

theorem imageSegments_accepted (accepted : imageSegments image = some segments) :
    ∀ segment ∈ segments, Elf.SegmentAccepted image segment := by
  rw [imageSegments] at accepted
  split at accepted
  · next count slots ran =>
      cases accepted
      obtain ⟨⟨-, entries, -⟩, rfl, rfl⟩ := (Elf.loadSegments_meets image _).of_ok ran
      rwa [List.take_left]
  · cases accepted

theorem length_segmentBytes (accepted : Elf.SegmentAccepted image segment) :
    (segmentBytes image segment).length = segment.fileSize := by
  have inside := accepted.fileRange.2
  rw [segmentBytes, List.length_take, List.length_drop]
  omega

/-- A segment leaves the addresses alone that it does not have. -/
theorem overlaid_elsewhere (accepted : Elf.SegmentAccepted image segment)
    (base : firstUserEntry ≤ address)
    (outside : ¬(segment.virtualAddress ≤ address ∧
      address < segment.virtualAddress + segment.memorySize)) :
    overlaid image segment program (address - firstUserEntry) =
      program (address - firstUserEntry) := by
  have sizes := accepted.sizes
  have start : firstUserEntry ≤ segment.virtualAddress := accepted.virtualStart
  have length := length_segmentBytes accepted
  rw [overlaid, Buffer.splice_outside, Buffer.splice_outside]
  · omega
  · rw [List.length_replicate]
    omega

theorem overlaidAll_elsewhere
    (accepted : ∀ segment ∈ segments, Elf.SegmentAccepted image segment)
    (base : firstUserEntry ≤ address)
    (outside : ∀ segment ∈ segments, ¬(segment.virtualAddress ≤ address ∧
      address < segment.virtualAddress + segment.memorySize)) :
    overlaidAll image segments program (address - firstUserEntry) =
      program (address - firstUserEntry) := by
  induction segments generalizing program with
  | nil => rfl
  | cons segment rest ih =>
    rw [List.forall_mem_cons] at accepted outside
    rw [overlaidAll, List.foldl_cons, ← overlaidAll, ih accepted.2 outside.2,
      overlaid_elsewhere accepted.1 base outside.1]

/-- A segment puts its bytes and zeros at its addresses. -/
theorem overlaid_inside (accepted : Elf.SegmentAccepted image segment)
    (start : segment.virtualAddress ≤ address)
    (stop : address < segment.virtualAddress + segment.memorySize) :
    (address < segment.virtualAddress + segment.fileSize →
      image[segment.fileOffset + (address - segment.virtualAddress)]? =
        some (overlaid image segment program (address - firstUserEntry))) ∧
    (segment.virtualAddress + segment.fileSize ≤ address →
      overlaid image segment program (address - firstUserEntry) = 0) := by
  have base : firstUserEntry ≤ segment.virtualAddress := accepted.virtualStart
  have length := length_segmentBytes accepted
  have file := accepted.fileRange.2
  constructor
  · intro inFile
    have inside : address - segment.virtualAddress < (segmentBytes image segment).length := by
      omega
    rw [overlaid, Buffer.splice_outside (by omega),
      show address - firstUserEntry = segment.virtualAddress - firstUserEntry +
        (address - segment.virtualAddress) by omega, Buffer.splice_inside inside,
      List.getD_eq_getElem _ _ inside, List.getElem?_eq_getElem (by omega)]
    simp only [segmentBytes, List.getElem_take, List.getElem_drop]
  · intro inZeros
    have inside : address - (segment.virtualAddress + segment.fileSize) <
        (List.replicate (segment.memorySize - segment.fileSize) (0 : UInt8)).length := by
      rw [List.length_replicate]
      omega
    rw [overlaid, show address - firstUserEntry =
      segment.virtualAddress + segment.fileSize - firstUserEntry +
        (address - (segment.virtualAddress + segment.fileSize)) by omega,
      Buffer.splice_inside inside, List.getD_eq_getElem _ _ inside, List.getElem_replicate]

/-! ## Faithful loading -/

/-- The bytes of a segment that no later one covers are in the program frames after the
preparation, unless the argument was put in their place. -/
theorem image_loaded_faithfully
    (accepted : imageSegments request.image = some segments)
    (layout : request.layout = memoryLayoutForPidWithProgramSize pid
      (UInt64.ofNat (Elf.imageFootprintSize segments)))
    (_argument : 1 ≤ request.arg.length ∧ request.arg.length ≤ 32)
    (ran : prepareProcessPrivateMemory request before = .ok () after)
    (split : segments = earlier ++ segment :: later)
    (start : segment.virtualAddress ≤ address)
    (stop : address < segment.virtualAddress + segment.memorySize)
    (uncovered : ∀ other ∈ later, ¬(other.virtualAddress ≤ address ∧
      address < other.virtualAddress + other.memorySize))
    (elsewhere : ¬InArgArea address) :
    (address < segment.virtualAddress + segment.fileSize →
      request.image[segment.fileOffset + (address - segment.virtualAddress)]? =
        some (after.program (address - firstUserEntry))) ∧
    (segment.virtualAddress + segment.fileSize ≤ address →
      after.program (address - firstUserEntry) = 0) := by
  obtain ⟨slot, pages, paginated, -⟩ := memoryLayout_paginated pid
    (UInt64.ofNat (Elf.imageFootprintSize segments))
  rw [← layout] at paginated
  have prepared := (prepareProcessPrivateMemory_spec paginated).of_ok rfl ran
  have allAccepted := imageSegments_accepted accepted
  rw [split] at allAccepted
  have isAccepted := allAccepted segment (by simp)
  have base : firstUserEntry ≤ address := Nat.le_trans isAccepted.virtualStart start
  have laterAccepted : ∀ other ∈ later, Elf.SegmentAccepted request.image other :=
    fun other isLater => allAccepted other (by simp [isLater])
  have seeded : ∀ program, seededProgram request.arg program (address - firstUserEntry) =
      program (address - firstUserEntry) := by
    intro program
    apply seededProgram_elsewhere
    rwa [Nat.add_sub_cancel' base]
  rw [prepared.program, seeded, loadedProgram, accepted, Option.getD_some, split, overlaidAll,
    List.foldl_append, List.foldl_cons, ← overlaidAll,
    overlaidAll_elsewhere laterAccepted base uncovered]
  exact overlaid_inside isAccepted start stop

namespace Sample

/-- A program with some segments, started by the process with the first stack. -/
def request (segments : List LoadSegment) (bytes : List UInt8) : Request where
  layout := memoryLayoutForPidWithProgramSize 2
    (UInt64.ofNat (Elf.imageFootprintSize segments))
  image := Elf.Sample.image segments bytes
  programPath := [0x2f, 0x61]
  arg := [0x61]
  active := fun _ => 0

/-- The memory of a root with some program frames, all filled with one byte. -/
def memory (frameCount : Nat) (fill : UInt8) : Memory where
  frames := fun _ _ => fill
  leaves := fun page =>
    if 4096 ≤ page ∧ page < 4096 + frameCount then
      some ⟨.program (page - 4096), userDataPageFlags⟩
    else
      -- the stacks take four pages out of five, from the top down
      let slot := (5120 - page) / 5
      let index := page - (5116 - 5 * slot)
      if 5081 ≤ page ∧ page < 5120 ∧ index < 4 then
        some ⟨.stack slot index, userDataPageFlags⟩
      else none
  programFrameCount := frameCount

/-- A byte of the program area after a preparation. -/
def byteAfter (request : Request) (memory : Memory) (address : Nat) : Option UInt8 :=
  match prepareProcessPrivateMemory request memory with
  | .ok _ after => some (after.program (address - firstUserEntry))
  | .error _ _ => none

theorem ran_of_byteAfter
    {request : Request} {memory : Memory}
    (isByte : byteAfter request memory address = some byte) :
    ∃ after, prepareProcessPrivateMemory request memory = .ok () after ∧
      after.program (address - firstUserEntry) = byte := by
  rw [byteAfter] at isByte
  split at isByte
  · next after ran => exact ⟨after, ran, Option.some.inj isByte⟩
  · cases isByte

/-- A byte from the file, and perhaps zeros after it. -/
def oneByte (virtualAddress memorySize : Nat) : LoadSegment :=
  ⟨120, virtualAddress, 1, memorySize, Elf.pfR ||| Elf.pfW, 1⟩

/-- A program with a byte and a zero at the start of its area. -/
def twoBytes : Request := request [oneByte 0x1000000 2] [0xaa]

theorem accepted_twoBytes : imageSegments twoBytes.image = some [oneByte 0x1000000 2] := by
  decide +kernel

end Sample

/-- A byte and a zero at the start of the program area. -/
theorem image_loaded_faithfully_oneByte :
    ∃ after, prepareProcessPrivateMemory Sample.twoBytes (Sample.memory 1 0x42) = .ok () after ∧
      some (after.program (0x1000000 - firstUserEntry)) = some 0xaa ∧
      after.program (0x1000001 - firstUserEntry) = 0 := by
  have done : Sample.byteAfter Sample.twoBytes (Sample.memory 1 0x42) 0x1000000 = some 0xaa := by
    decide +kernel
  obtain ⟨after, ran, -⟩ := Sample.ran_of_byteAfter done
  have clear : ¬InArgArea 0x1000000 ∧ ¬InArgArea 0x1000001 := by
    unfold InArgArea
    decide
  have first := (image_loaded_faithfully Sample.accepted_twoBytes rfl (by decide) ran
    (List.nil_append [Sample.oneByte 0x1000000 2]).symm
    (show (Sample.oneByte 0x1000000 2).virtualAddress ≤ 0x1000000 by decide) (by decide)
    (by simp) clear.1).1 (by decide)
  have second := (image_loaded_faithfully Sample.accepted_twoBytes rfl (by decide) ran
    (List.nil_append [Sample.oneByte 0x1000000 2]).symm
    (show (Sample.oneByte 0x1000000 2).virtualAddress ≤ 0x1000001 by decide) (by decide)
    (by simp) clear.2).2 (by decide)
  refine ⟨after, ran, ?_, second⟩
  rw [← first]
  decide +kernel

/-- The byte of a segment in the argument area is lost. -/
theorem segment_byte_lost_to_argument :
    imageSegments (Sample.request [Sample.oneByte 0x1000340 1] [0xaa]).image =
        some [Sample.oneByte 0x1000340 1] ∧
    (Sample.request [Sample.oneByte 0x1000340 1] [0xaa]).image[120]? = some 0xaa ∧
    ∃ after, prepareProcessPrivateMemory
        (Sample.request [Sample.oneByte 0x1000340 1] [0xaa]) (Sample.memory 1 0) =
          .ok () after ∧
      after.program (0x1000340 - firstUserEntry) = 0x61 := by
  refine ⟨by decide +kernel, by decide +kernel, Sample.ran_of_byteAfter ?_⟩
  decide +kernel

/-! ## Permissions -/

/-- A page may not be written and executed. -/
def PageFlags.Exclusive (flags : PageFlags) : Prop :=
  ¬(flags.writable = true ∧ flags.noExecute = false)

theorem elfPageFlags_exclusive (isFlags : elfPageFlags pageStart segments = .ok flags) :
    flags.Exclusive := by
  rw [elfPageFlags] at isFlags
  split_ifs at isFlags with both none
  · cases isFlags
    exact fun exclusive => Bool.noConfusion exclusive.2
  · cases isFlags
    rintro ⟨writable, executable⟩
    exact both ⟨writable, by simpa using executable⟩

/-- A page that a segment touches has the permissions of the segment. -/
theorem elfPageFlags_of_touches
    (isFlags : elfPageFlags pageStart segments = .ok flags)
    (isSegment : segment ∈ segments)
    (touches : touchesPage pageStart segment) :
    flags.present ∧ flags.userAccessible ∧ (segment.has Elf.pfW → flags.writable) ∧
      (segment.has Elf.pfX → flags.noExecute = false) := by
  have hit : segment ∈ segments.filter (touchesPage pageStart) :=
    List.mem_filter.mpr ⟨isSegment, touches⟩
  rw [elfPageFlags] at isFlags
  split_ifs at isFlags with both none
  · rw [none] at hit
    cases hit
  · cases isFlags
    refine ⟨rfl, rfl, fun writes => ?_, fun executes => ?_⟩
    · exact List.any_eq_true.mpr ⟨segment, hit, writes⟩
    · dsimp only
      rw [List.any_eq_true.mpr ⟨segment, hit, executes⟩]
      rfl

/-- The pages of the frames that a root owns. -/
def OwnPage (frameCount page : Nat) : Prop :=
  (∃ index < frameCount, page = programPage index) ∨
    ∃ slot : Fin 8, ∃ index < 4, page = stackPage slot index

/-- No page of the root, the first one perhaps apart, may be written and executed. -/
structure Sealed (memory : Memory) : Prop where
  few : memory.programFrameCount ≤ maxPrivateProgramPageCount
  pages : ∀ page leaf, OwnPage memory.programFrameCount page → page ≠ programPage 0 →
    memory.leaves page = some leaf → leaf.flags.Exclusive

/-- The layout of a request is the one that a program is registered with: for a flat image
of at most a page from its length, for an ELF image from its footprint. -/
inductive Registered (request : Request) : Prop
  | flat (pid : Pid) :
      request.image.length ≤ frameSize →
      request.layout = memoryLayoutForPidWithProgramSize pid
        (UInt64.ofNat request.image.length) →
      Registered request
  | elf (pid : Pid) (segments : List LoadSegment) :
      imageSegments request.image = some segments →
      request.layout = memoryLayoutForPidWithProgramSize pid
        (UInt64.ofNat (Elf.imageFootprintSize segments)) →
      Registered request

theorem Registered.paginated (registered : Registered request) :
    ∃ slot pages, Paginated request.layout slot pages ∧
      ∀ page flags, page ≠ programPage 0 → Labels request pages page flags →
        flags.Exclusive := by
  have data : userDataPageFlags.Exclusive := fun exclusive => Bool.noConfusion exclusive.2
  cases registered with
  | flat pid short layout =>
    obtain ⟨slot, pages, paginated, isPages⟩ := memoryLayout_paginated pid
      (UInt64.ofNat request.image.length)
    have size : (UInt64.ofNat request.image.length).toNat = request.image.length :=
      UInt64.toNat_ofNat_of_lt' (by rw [frameSize] at short; rw [UInt64.size]; omega)
    have single : pages = 1 := by
      rw [frameSize] at short
      rw [size] at isPages
      omega
    rw [layout]
    refine ⟨slot, pages, paginated, ?_⟩
    rintro page flags notFirst (rfl | ⟨index, inside, rfl, -⟩)
    · exact data
    · have first : index = 0 := by omega
      exact absurd (congrArg programPage first) notFirst
  | elf pid segments accepted layout =>
    obtain ⟨slot, pages, paginated, -⟩ := memoryLayout_paginated pid
      (UInt64.ofNat (Elf.imageFootprintSize segments))
    rw [layout]
    refine ⟨slot, pages, paginated, ?_⟩
    rintro page flags - (rfl | ⟨index, inside, rfl, isFlags⟩)
    · exact data
    · rw [accepted] at isFlags
      exact elfPageFlags_exclusive isFlags

theorem Sealed.relabel (isSealed : Sealed before) (relabels : Relabels labels before after)
    (exclusive : ∀ page flags, page ≠ programPage 0 → labels page flags → flags.Exclusive) :
    Sealed after := by
  refine ⟨relabels.count ▸ isSealed.few, fun page leaf own notFirst isLeaf => ?_⟩
  rw [relabels.count] at own
  rcases relabels.leaves page with same | ⟨changed, isChanged, label⟩
  · exact isSealed.pages page leaf own notFirst (same ▸ isLeaf)
  · rw [isLeaf] at isChanged
    cases isChanged
    exact exclusive page leaf.flags notFirst label

/-- The memory in which a preparation ends, failed or not. -/
def memoryAfter (memory : Memory) (request : Request) : Memory :=
  match prepareProcessPrivateMemory request memory with
  | .ok _ after => after
  | .error _ after => after

theorem Sealed.memoryAfter (isSealed : Sealed memory) (registered : Registered request) :
    Sealed (memoryAfter memory request) := by
  obtain ⟨slot, pages, paginated, exclusive⟩ := registered.paginated
  have spec : Attempt (· = memory) (prepareProcessPrivateMemory request) _ _ :=
    prepareProcessPrivateMemory_spec paginated
  rw [PrivateMemory.memoryAfter]
  split
  · next after ran =>
      exact isSealed.relabel (spec.of_ok rfl ran).relabels exclusive
  · next after ran =>
      exact isSealed.relabel (spec.of_error rfl ran) exclusive

theorem Sealed.run {history : List Request} (isSealed : Sealed memory)
    (registered : ∀ request ∈ history, Registered request) :
    Sealed (history.foldl PrivateMemory.memoryAfter memory) := by
  induction history generalizing memory with
  | nil => exact isSealed
  | cons request rest ih =>
    rw [List.forall_mem_cons] at registered
    exact ih (isSealed.memoryAfter registered.1) registered.2

/-- The memory of a root when it was prepared: every page of its own leads to its own
frame, without permission to execute. -/
structure Fresh (memory : Memory) : Prop where
  few : memory.programFrameCount ≤ maxPrivateProgramPageCount
  program : ∀ index < memory.programFrameCount,
    memory.leaves (programPage index) = some ⟨.program index, userDataPageFlags⟩
  stack : ∀ slot : Fin 8, ∀ index < 4,
    memory.leaves (stackPage slot index) = some ⟨.stack slot index, userDataPageFlags⟩

theorem Fresh.isSealed (fresh : Fresh memory) : Sealed memory := by
  refine ⟨fresh.few, ?_⟩
  rintro page leaf (⟨index, inside, rfl⟩ | ⟨slot, index, inside, rfl⟩) - isLeaf
  · rw [fresh.program index inside] at isLeaf
    cases isLeaf
    exact fun exclusive => Bool.noConfusion exclusive.2
  · rw [fresh.stack slot index inside] at isLeaf
    cases isLeaf
    exact fun exclusive => Bool.noConfusion exclusive.2

/-! ### The footprint of an image -/

theorem le_foldl_footprint {segments : List LoadSegment} :
    high ≤ segments.foldl
      (fun high segment =>
        if segment.memorySize = 0 then high
        else max high (min (segment.virtualAddress + segment.memorySize) (2 ^ 64 - 1))) high := by
  induction segments generalizing high with
  | nil => exact Nat.le_refl _
  | cons segment rest ih =>
    rw [List.foldl_cons]
    apply Nat.le_trans _ ih
    split_ifs
    · exact Nat.le_refl _
    · exact Nat.le_max_left _ _

/-- Accepted segments are within the footprint. -/
theorem le_imageFootprintSize {segments : List LoadSegment}
    (accepted : ∀ segment ∈ segments, Elf.SegmentAccepted image segment)
    (isSegment : segment ∈ segments)
    (nonempty : segment.memorySize ≠ 0) :
    segment.virtualAddress + segment.memorySize ≤
      firstUserEntry + Elf.imageFootprintSize segments := by
  have isHigh : segment.virtualAddress + segment.memorySize ≤ segments.foldl
      (fun high segment =>
        if segment.memorySize = 0 then high
        else max high (min (segment.virtualAddress + segment.memorySize) (2 ^ 64 - 1)))
      Elf.userElfMinVaddr := by
    generalize Elf.userElfMinVaddr = low
    induction segments generalizing low with
    | nil => cases isSegment
    | cons first rest ih =>
      rw [List.forall_mem_cons] at accepted
      rw [List.foldl_cons]
      rcases List.mem_cons.mp isSegment with rfl | later
      · apply Nat.le_trans _ le_foldl_footprint
        have top := accepted.1.virtualEnd
        have bound : Elf.userElfMaxVaddr < 2 ^ 64 - 1 := by decide
        rw [if_neg nonempty]
        omega
      · exact ih accepted.2 later _
  have base : Elf.userElfMinVaddr = firstUserEntry := rfl
  rw [Elf.imageFootprintSize, ← base]
  omega

theorem imageFootprintSize_le {segments : List LoadSegment}
    (accepted : ∀ segment ∈ segments, Elf.SegmentAccepted image segment) :
    Elf.imageFootprintSize segments ≤ Elf.userElfMaxVaddr := by
  have bounded : ∀ low ≤ Elf.userElfMaxVaddr, segments.foldl
      (fun high segment =>
        if segment.memorySize = 0 then high
        else max high (min (segment.virtualAddress + segment.memorySize) (2 ^ 64 - 1))) low ≤
      Elf.userElfMaxVaddr := by
    induction segments with
    | nil => exact fun low small => small
    | cons first rest ih =>
      rw [List.forall_mem_cons] at accepted
      intro low small
      rw [List.foldl_cons]
      apply ih accepted.2
      have top := accepted.1.virtualEnd
      split_ifs
      · exact small
      · omega
  have whole := bounded Elf.userElfMinVaddr (by decide)
  rw [Elf.imageFootprintSize]
  omega

/-- A segment touches the page of each of its addresses. -/
theorem touchesPage_of_address {segment : LoadSegment}
    (base : 0x1000000 ≤ segment.virtualAddress)
    (top : segment.virtualAddress + segment.memorySize ≤ 0x13fc000)
    (start : segment.virtualAddress ≤ address)
    (stop : address < segment.virtualAddress + segment.memorySize) :
    touchesPage (programPage (address / 4096 - 4096) * frameSize) segment := by
  have page : programPage (address / 4096 - 4096) * frameSize = address / 4096 * 4096 := by
    rw [programPage_eq, frameSize]
    omega
  rw [page, touchesPage, frameSize, decide_eq_true_eq]
  omega

/-- The pages of an accepted image are enough for all addresses of its segments, if they
are not too many for the frames of the root. -/
theorem page_of_segment
    (accepted : ∀ segment ∈ segments, Elf.SegmentAccepted image segment)
    (isPages : (UInt64.ofNat (Elf.imageFootprintSize segments)).toNat < 2 ^ 63 →
      pages = min (max 1 (((UInt64.ofNat (Elf.imageFootprintSize segments)).toNat + 4095) / 4096))
        984)
    (few : pages ≤ maxPrivateProgramPageCount)
    (isSegment : segment ∈ segments)
    (start : segment.virtualAddress ≤ address)
    (stop : address < segment.virtualAddress + segment.memorySize) :
    ∃ index < pages, address / frameSize = programPage index ∧
      touchesPage (programPage index * frameSize) segment := by
  have isAccepted := accepted segment isSegment
  have footprint := le_imageFootprintSize accepted isSegment (by omega)
  have limit := imageFootprintSize_le accepted
  have base : firstUserEntry ≤ segment.virtualAddress := isAccepted.virtualStart
  have top := isAccepted.virtualEnd
  have entry : firstUserEntry = 0x1000000 := rfl
  have bound : Elf.userElfMaxVaddr = 0x13fc000 := by decide
  have word : (UInt64.ofNat (Elf.imageFootprintSize segments)).toNat =
      Elf.imageFootprintSize segments :=
    UInt64.toNat_ofNat_of_lt' (by rw [UInt64.size]; omega)
  rw [word] at isPages
  rw [maxPrivateProgramPageCount] at few
  rw [entry] at base footprint
  rw [bound] at top limit
  generalize Elf.imageFootprintSize segments = size at footprint limit isPages
  have inside : address / 4096 - 4096 < pages := by
    have isPages := isPages (by omega)
    omega
  refine ⟨address / 4096 - 4096, inside, ?_, ?_⟩
  · rw [programPage_eq, frameSize]
    omega
  · exact touchesPage_of_address base top start stop

/-- Whatever was prepared before in the memory of a root, no page of it may be written
and executed once an ELF image is prepared, and the pages of the segments have the
permissions of the segments. -/
theorem prepared_elf_pages_exclusive
    {history : List Request} {segments : List LoadSegment}
    (fresh : Fresh memory)
    (registered : ∀ request ∈ history, Registered request)
    (accepted : imageSegments request.image = some segments)
    (layout : request.layout = memoryLayoutForPidWithProgramSize pid
      (UInt64.ofNat (Elf.imageFootprintSize segments)))
    (ran : prepareProcessPrivateMemory request (history.foldl memoryAfter memory) =
      .ok () after) :
    (∀ page leaf, OwnPage after.programFrameCount page → after.leaves page = some leaf →
      ¬(leaf.flags.writable = true ∧ leaf.flags.noExecute = false)) ∧
    ∀ segment ∈ segments, ∀ address, segment.virtualAddress ≤ address →
      address < segment.virtualAddress + segment.memorySize →
      ∃ leaf, after.leaves (address / frameSize) = some leaf ∧ leaf.flags.present ∧
        leaf.flags.userAccessible ∧ (segment.has Elf.pfW → leaf.flags.writable) ∧
        (segment.has Elf.pfX → leaf.flags.noExecute = false) := by
  have isSealed := fresh.isSealed.run registered
  obtain ⟨slot, pages, paginated, isPages⟩ := memoryLayout_paginated pid
    (UInt64.ofNat (Elf.imageFootprintSize segments))
  rw [← layout] at paginated
  have prepared := (prepareProcessPrivateMemory_spec paginated).of_ok rfl ran
  have few : pages ≤ maxPrivateProgramPageCount :=
    Nat.le_trans prepared.enough isSealed.few
  have programPages : ∀ index < pages, ∃ leaf,
      after.leaves (programPage index) = some leaf ∧
      elfPageFlags (programPage index * frameSize) segments = .ok leaf.flags := by
    intro index inside
    obtain ⟨leaf, flags, -, isFlags, isLeaf⟩ := prepared.programLeaves index inside
    rw [accepted] at isFlags
    exact ⟨_, isLeaf, isFlags⟩
  have allAccepted := imageSegments_accepted accepted
  constructor
  · intro page leaf own isLeaf
    by_cases inProgram : ∃ index < pages, page = programPage index
    · obtain ⟨index, inside, rfl⟩ := inProgram
      obtain ⟨found, isFound, isFlags⟩ := programPages index inside
      rw [isLeaf] at isFound
      cases isFound
      exact elfPageFlags_exclusive isFlags
    · have isSealedAfter : Sealed after := by
        have exclusive : ∀ page flags, page ≠ programPage 0 →
            Labels request pages page flags → flags.Exclusive := by
          rintro page flags - (rfl | ⟨index, inside, rfl, isFlags⟩)
          · exact fun exclusive => Bool.noConfusion exclusive.2
          · rw [accepted] at isFlags
            exact elfPageFlags_exclusive isFlags
        exact isSealed.relabel prepared.relabels exclusive
      apply isSealedAfter.pages page leaf own _ isLeaf
      rintro rfl
      have small : Elf.imageFootprintSize segments < 2 ^ 63 := by
        have limit := imageFootprintSize_le allAccepted
        have bound : Elf.userElfMaxVaddr = 0x13fc000 := by decide
        omega
      have word : (UInt64.ofNat (Elf.imageFootprintSize segments)).toNat =
          Elf.imageFootprintSize segments :=
        UInt64.toNat_ofNat_of_lt' (by rw [UInt64.size]; omega)
      rw [word] at isPages
      exact inProgram ⟨0, by have := isPages small; omega, rfl⟩
  · intro segment isSegment address start stop
    obtain ⟨index, inside, isPage, touches⟩ :=
      page_of_segment allAccepted isPages few isSegment start stop
    obtain ⟨leaf, isLeaf, isFlags⟩ := programPages index inside
    rw [isPage]
    exact ⟨leaf, isLeaf, elfPageFlags_of_touches isFlags isSegment touches⟩

/-- A flat image, whose only page may be written and executed. -/
def Sample.flatRequest : Request where
  layout := memoryLayoutForPidWithProgramSize 5 (UInt64.ofNat 1)
  image := [0x90]
  programPath := [0x2f, 0x61]
  arg := [0x61]
  active := fun _ => 0x90

theorem Sample.memory_fresh : Fresh (Sample.memory 2 0x42) := by
  refine ⟨by decide, ?_, ?_⟩
  · decide +kernel
  · decide +kernel

/-- An ELF image after a flat one. -/
theorem prepared_elf_pages_exclusive_afterFlat :
    ∃ after, prepareProcessPrivateMemory Sample.twoBytes
        ([Sample.flatRequest].foldl memoryAfter (Sample.memory 2 0x42)) = .ok () after ∧
      ∀ page leaf, OwnPage after.programFrameCount page → after.leaves page = some leaf →
        ¬(leaf.flags.writable = true ∧ leaf.flags.noExecute = false) := by
  have done : Sample.byteAfter Sample.twoBytes
      ([Sample.flatRequest].foldl memoryAfter (Sample.memory 2 0x42)) 0x1000000 = some 0xaa := by
    decide +kernel
  obtain ⟨after, ran, -⟩ := Sample.ran_of_byteAfter done
  have registered : ∀ request ∈ [Sample.flatRequest], Registered request := by
    intro request isRequest
    rw [List.mem_singleton.mp isRequest]
    exact .flat 5 (by decide) rfl
  exact ⟨after, ran, (prepared_elf_pages_exclusive Sample.memory_fresh registered
    Sample.accepted_twoBytes rfl ran).1⟩

/-! ## Successive programs in one root -/

/-- Every page of the root leads to its own frame, and no other page to one of them. -/
structure Mapped (memory : Memory) : Prop where
  program : ∀ index < memory.programFrameCount, ∃ flags,
    memory.leaves (programPage index) = some ⟨.program index, flags⟩
  stack : ∀ slot : Fin 8, ∀ index < 4, ∃ flags,
    memory.leaves (stackPage slot index) = some ⟨.stack slot index, flags⟩
  others : ∀ page leaf, ¬OwnPage memory.programFrameCount page →
    memory.leaves page = some leaf → ∃ number, leaf.frame = .other number

/-- The byte that a program reads at an address. -/
def Memory.userRead (memory : Memory) (address : Nat) : Option UInt8 :=
  match memory.leaves (address / frameSize) with
  | none => none
  | some leaf =>
    if leaf.flags.present ∧ leaf.flags.userAccessible then
      some (memory.frames leaf.frame (address % frameSize))
    else none

theorem Memory.userRead_eq {memory : Memory}
    (isLeaf : memory.leaves (address / frameSize) = some leaf) :
    memory.userRead address =
      if leaf.flags.present ∧ leaf.flags.userAccessible then
        some (memory.frames leaf.frame (address % frameSize))
      else none := by
  rw [userRead, isLeaf]

theorem Memory.frames_eq_paged (memory : Memory)
    (frame : Nat → FrameName)
    (small : offset < frameSize) :
    memory.frames (frame index) offset = memory.paged frame (index * frameSize + offset) := by
  have quotient : (index * frameSize + offset) / frameSize = index := by
    rw [frameSize] at small ⊢
    omega
  have remainder : (index * frameSize + offset) % frameSize = offset := by
    rw [frameSize] at small ⊢
    omega
  rw [paged, quotient, remainder]

/-- A segment of the image or the argument area covers the address. -/
def Overwritten (request : Request) (address : Nat) : Prop :=
  InArgArea address ∨ ∃ segment ∈ (imageSegments request.image).getD [],
    segment.virtualAddress ≤ address ∧ address < segment.virtualAddress + segment.memorySize

theorem overlaidAll_congr {left right : Buffer}
    (accepted : ∀ segment ∈ segments, Elf.SegmentAccepted image segment)
    (same : (∀ segment ∈ segments, ¬(segment.virtualAddress ≤ firstUserEntry + offset ∧
      firstUserEntry + offset < segment.virtualAddress + segment.memorySize)) →
        left offset = right offset) :
    overlaidAll image segments left offset = overlaidAll image segments right offset := by
  induction segments generalizing left right with
  | nil => exact same (by simp)
  | cons segment rest ih =>
    rw [List.forall_mem_cons] at accepted
    rw [overlaidAll, overlaidAll, List.foldl_cons, List.foldl_cons, ← overlaidAll, ← overlaidAll]
    refine ih accepted.2 fun outside => ?_
    have sizes := accepted.1.sizes
    have start : firstUserEntry ≤ segment.virtualAddress := accepted.1.virtualStart
    have length := length_segmentBytes accepted.1
    refine Buffer.splice_congr fun notZeros => Buffer.splice_congr fun notBytes => same ?_
    rw [List.length_replicate] at notZeros
    exact List.forall_mem_cons.mpr ⟨by omega, outside⟩

theorem seededProgram_congr {left right : Buffer}
    (same : ¬InArgArea (firstUserEntry + offset) → left offset = right offset) :
    seededProgram arg left offset = seededProgram arg right offset := by
  have pathStart : firstUserArgPathAddr = firstUserEntry + 0x340 := rfl
  have lenStart : firstUserArgLenAddr = firstUserEntry + 0x378 := rfl
  refine Buffer.splice_congr fun notLen => Buffer.splice_congr fun _ =>
    Buffer.splice_congr fun notPath => same ?_
  rw [List.length_replicate] at notPath
  rw [length_leBytes] at notLen
  rw [InArgArea]
  omega

theorem seededStack_congr {left right : Buffer} (same : left offset = right offset) :
    seededStack layout programPath arg left offset =
      seededStack layout programPath arg right offset := by
  rw [seededStack, seededStack]
  cases buildUserInitialStack layout programPath arg with
  | error error => exact same
  | ok built => exact Buffer.splice_congr fun _ => same

theorem refilled_congr {left right : Buffer}
    (same : offset / frameSize ∉ indexes → left offset = right offset) :
    refilled contents indexes left offset = refilled contents indexes right offset := by
  rw [refilled, refilled]
  split_ifs with listed
  · rfl
  · exact same listed

theorem accepted_getD (image : List UInt8) :
    ∀ segment ∈ (imageSegments image).getD [], Elf.SegmentAccepted image segment := by
  cases accepted : imageSegments image with
  | none => simp
  | some segments => exact imageSegments_accepted accepted

/-- The call leaves the same byte of the program area in two memories if it clears or
overwrites it, or they had the same. -/
theorem Prepared.program_alike (prepared : Prepared request slot pages left leftAfter)
    (prepared' : Prepared request slot pages right rightAfter)
    (same : offset / frameSize ∉ List.range pages → ¬Overwritten request (firstUserEntry + offset) →
      left.program offset = right.program offset) :
    leftAfter.program offset = rightAfter.program offset := by
  rw [prepared.program, prepared'.program]
  refine seededProgram_congr fun notArg => overlaidAll_congr (accepted_getD _) fun notSegment =>
    refilled_congr fun uncleared => same uncleared ?_
  rintro (isArg | ⟨segment, listed, isSegment⟩)
  · exact notArg isArg
  · exact notSegment segment listed isSegment

/-- A byte of the program area that the call neither clears nor overwrites is left. -/
theorem Prepared.program_kept (prepared : Prepared request slot pages before after)
    (uncleared : offset / frameSize ∉ List.range pages)
    (kept : ¬Overwritten request (firstUserEntry + offset)) :
    after.program offset = before.program offset := by
  obtain ⟨notArg, notSegment⟩ := not_or.mp kept
  have overlay := @overlaidAll_elsewhere _ _ (firstUserEntry + offset)
    (refilled (freshPage request) (List.range pages) before.program)
    (accepted_getD request.image) (Nat.le_add_right _ _)
    (fun segment listed isSegment => notSegment ⟨segment, listed, isSegment⟩)
  rw [Nat.add_sub_cancel_left] at overlay
  rw [prepared.program, seededProgram_elsewhere notArg, loadedProgram, overlay, refilled,
    if_neg uncleared]

/-- A page whose entry and frame have not changed reads as before. -/
theorem Memory.userRead_eq_of_same {before after : Memory}
    (leaves : after.leaves (address / frameSize) = before.leaves (address / frameSize))
    (frames : ∀ leaf, before.leaves (address / frameSize) = some leaf →
      after.frames leaf.frame = before.frames leaf.frame) :
    after.userRead address = before.userRead address := by
  rw [userRead, userRead, leaves]
  cases isLeaf : before.leaves (address / frameSize) with
  | none => rfl
  | some leaf =>
    dsimp only
    rw [frames leaf isLeaf]

/-- A page that is not one of the program's frames and not on its own stack reads as
before. -/
theorem Prepared.userRead_of_elsewhere (mapped : Mapped before)
    (prepared : Prepared request slot pages before after)
    (notProgram : ∀ index < before.programFrameCount, address / frameSize ≠ programPage index)
    (notStack : ∀ index < 4, address / frameSize ≠ stackPage slot index) :
    after.userRead address = before.userRead address := by
  apply Memory.userRead_eq_of_same
  · exact prepared.otherLeaves _ notStack fun index inside =>
      notProgram index (Nat.lt_of_lt_of_le inside prepared.enough)
  intro leaf isLeaf
  by_cases own : OwnPage before.programFrameCount (address / frameSize)
  · obtain ⟨index, inside, isPage⟩ | ⟨other, index, inside, isPage⟩ := own
    · exact absurd isPage (notProgram index inside)
    · obtain ⟨flags, isStack⟩ := mapped.stack other index inside
      rw [isPage, isStack] at isLeaf
      cases isLeaf
      apply prepared.elsewhere
      · exact fun _ => FrameName.noConfusion
      · intro place equal
        have sameSlot : other = slot := Fin.ext (FrameName.stack.inj equal).1
        exact notStack index inside (sameSlot ▸ isPage)
  · obtain ⟨number, isFrame⟩ := mapped.others _ leaf own isLeaf
    rw [isFrame]
    exact prepared.elsewhere _ (fun _ => FrameName.noConfusion) fun _ => FrameName.noConfusion

/-- What two memories have to have in common at an address that a call does not clear: a
program can read there in both or in neither, and reads the same unless the call overwrites
the byte in a frame of the program area. -/
def Alike (request : Request) (left right : Memory) (address : Nat) : Prop :=
  (left.userRead address).isSome = (right.userRead address).isSome ∧
    ((∃ index < left.programFrameCount, address / frameSize = programPage index) ∧
        Overwritten request address ∨
      left.userRead address = right.userRead address)

/-- A page that a preparation does not clear reads alike in two memories if and only if they
had in common what it does not overwrite. -/
theorem Prepared.userRead_alike (mapped : Mapped left)
    (mapped' : Mapped right)
    (count : left.programFrameCount = right.programFrameCount)
    (prepared : Prepared request slot pages left leftAfter)
    (prepared' : Prepared request slot pages right rightAfter)
    (notProgram : ∀ index < pages, address / frameSize ≠ programPage index)
    (notStack : ∀ index < 4, address / frameSize ≠ stackPage slot index) :
    leftAfter.userRead address = rightAfter.userRead address ↔
      Alike request left right address := by
  have small : address % frameSize < frameSize := Nat.mod_lt _ (by decide)
  rw [Alike]
  by_cases inProgram : ∃ index < left.programFrameCount, address / frameSize = programPage index
  · have ⟨index, inside, isPage⟩ := inProgram
    obtain ⟨flags, isLeft⟩ := mapped.program index inside
    obtain ⟨flags', isRight⟩ := mapped'.program index (count ▸ inside)
    rw [← isPage] at isLeft isRight
    have page := programPage_eq index
    have entry : firstUserEntry = 0x1000000 := rfl
    have uncleared : (index * frameSize + address % frameSize) / frameSize ∉ List.range pages := by
      rw [List.mem_range]
      intro cleared
      refine notProgram _ cleared ?_
      rw [isPage, programPage_eq, programPage_eq, frameSize]
      omega
    have isAddress : firstUserEntry + (index * frameSize + address % frameSize) = address := by
      rw [frameSize] at isPage ⊢
      omega
    rw [Memory.userRead_eq isLeft, Memory.userRead_eq isRight,
      Memory.userRead_eq ((prepared.otherLeaves _ notStack notProgram).trans isLeft),
      Memory.userRead_eq ((prepared'.otherLeaves _ notStack notProgram).trans isRight),
      Memory.frames_eq_paged _ .program small, Memory.frames_eq_paged _ .program small,
      Memory.frames_eq_paged _ .program small, Memory.frames_eq_paged _ .program small,
      and_iff_right inProgram]
    change (if _ then some (leftAfter.program _) else none) =
      (if _ then some (rightAfter.program _) else none) ↔ _
    by_cases overwritten : Overwritten request address
    · have same := prepared.program_alike prepared' fun _ kept =>
        absurd overwritten (isAddress ▸ kept)
      rw [same]
      split_ifs <;> simp [overwritten]
    · rw [prepared.program_kept uncleared (isAddress.symm ▸ overwritten),
        prepared'.program_kept uncleared (isAddress.symm ▸ overwritten), or_iff_right overwritten]
      exact ⟨fun same => ⟨congrArg Option.isSome same, same⟩, And.right⟩
  · have notFrame : ∀ index < left.programFrameCount,
        address / frameSize ≠ programPage index :=
      fun index inside equal => inProgram ⟨index, inside, equal⟩
    rw [prepared.userRead_of_elsewhere mapped notFrame notStack,
      prepared'.userRead_of_elsewhere mapped' (count ▸ notFrame) notStack,
      or_iff_right fun both => inProgram both.1]
    exact ⟨fun same => ⟨congrArg Option.isSome same, same⟩, And.right⟩

/-- Two memories of one root read alike after the same preparation if and only if, on the
pages that it does not clear, they had in common what it does not overwrite. -/
theorem prepared_memory_reads_alike (mapped : Mapped left)
    (mapped' : Mapped right)
    (count : left.programFrameCount = right.programFrameCount)
    (layout : request.layout = memoryLayoutForPidWithProgramSize pid size)
    (ran : prepareProcessPrivateMemory request left = .ok () leftAfter)
    (ran' : prepareProcessPrivateMemory request right = .ok () rightAfter)
    (address : Nat) :
    leftAfter.userRead address = rightAfter.userRead address ↔
      (address / frameSize ∉
          pageRange request.layout.programStart.toNat request.layout.programEnd.toNat →
        address / frameSize ∉
          pageRange request.layout.stackStart.toNat request.layout.stackTop.toNat →
        Alike request left right address) := by
  obtain ⟨slot, pages, paginated, -⟩ := memoryLayout_paginated pid size
  rw [← layout] at paginated
  have prepared := (prepareProcessPrivateMemory_spec paginated).of_ok rfl ran
  have prepared' := (prepareProcessPrivateMemory_spec paginated).of_ok rfl ran'
  have small : address % frameSize < frameSize := Nat.mod_lt _ (by decide)
  rw [paginated.programRange, paginated.stackRange, mem_range'_programPage,
    mem_range'_stackPage]
  by_cases inProgram : ∃ index < pages, address / frameSize = programPage index
  · refine iff_of_true ?_ fun uncleared => absurd inProgram uncleared
    obtain ⟨index, inside, isPage⟩ := inProgram
    obtain ⟨leaf, flags, isLeaf, isFlags, isAfter⟩ := prepared.programLeaves index inside
    obtain ⟨leaf', flags', isLeaf', isFlags', isAfter'⟩ := prepared'.programLeaves index inside
    obtain ⟨old, isOld⟩ := mapped.program index (Nat.lt_of_lt_of_le inside prepared.enough)
    obtain ⟨old', isOld'⟩ := mapped'.program index (Nat.lt_of_lt_of_le inside prepared'.enough)
    rw [isOld] at isLeaf
    rw [isOld'] at isLeaf'
    rw [isFlags] at isFlags'
    cases isLeaf
    cases isLeaf'
    cases isFlags'
    rw [← isPage] at isAfter isAfter'
    have cleared : (index * frameSize + address % frameSize) / frameSize ∈ List.range pages := by
      rw [List.mem_range, frameSize]
      omega
    have same := prepared.program_alike prepared' fun uncleared => absurd cleared uncleared
    rw [Memory.userRead_eq isAfter, Memory.userRead_eq isAfter',
      Memory.frames_eq_paged _ .program small, Memory.frames_eq_paged _ .program small,
      show leftAfter.paged .program = leftAfter.program from rfl,
      show rightAfter.paged .program = rightAfter.program from rfl, same]
  by_cases inStack : ∃ index < 4, address / frameSize = stackPage slot index
  · refine iff_of_true ?_ fun _ uncleared => absurd inStack uncleared
    obtain ⟨index, inside, isPage⟩ := inStack
    have isAfter := prepared.stackLeaves index inside
    have isAfter' := prepared'.stackLeaves index inside
    rw [← isPage] at isAfter isAfter'
    have cleared : (index * frameSize + address % frameSize) / frameSize ∈ List.range 4 := by
      rw [List.mem_range, frameSize]
      omega
    rw [Memory.userRead_eq isAfter, Memory.userRead_eq isAfter',
      Memory.frames_eq_paged _ (.stack slot) small, Memory.frames_eq_paged _ (.stack slot) small,
      prepared.stack, prepared'.stack, seededStack_congr]
    apply refilled_congr
    exact fun uncleared => absurd cleared uncleared
  · have alike := Prepared.userRead_alike mapped mapped' count prepared prepared'
      (fun index inside equal => inProgram ⟨index, inside, equal⟩)
      (fun index inside equal => inStack ⟨index, inside, equal⟩)
    exact ⟨fun same _ _ => alike.mp same, fun held => alike.mpr (held inProgram inStack)⟩

theorem Sample.memory_mapped (fill : UInt8) : Mapped (Sample.memory 2 fill) := by
  refine ⟨?_, ?_, ?_⟩
  · exact fun index inside => ⟨_, Sample.memory_fresh.program index inside⟩
  · exact fun slot index inside => ⟨_, Sample.memory_fresh.stack slot index inside⟩
  · intro page leaf notOwn isLeaf
    exfalso
    apply notOwn
    simp only [memory] at isLeaf ⊢
    split_ifs at isLeaf with inProgram inStack
    · exact .inl ⟨page - 4096, by omega, by rw [programPage_eq]; omega⟩
    · have small : (5120 - page) / 5 < 8 := by omega
      refine .inr ⟨⟨(5120 - page) / 5, small⟩, page - (5116 - 5 * ((5120 - page) / 5)),
        inStack.2.2, ?_⟩
      rw [stackPage_eq]
      dsimp only
      omega

/-- A program with one page and a segment on the second one. -/
def Sample.longImage : Request :=
  { Sample.request [Sample.oneByte 0x1001000 2] [0xaa] with
    layout := memoryLayoutForPidWithProgramSize 2 1 }

/-- The page is not cleared, but the segment overwrites what the roots were used for. -/
theorem prepared_memory_reads_alike_longImage :
    ∃ after, prepareProcessPrivateMemory Sample.longImage (Sample.memory 2 0) = .ok () after ∧
    ∃ other, prepareProcessPrivateMemory Sample.longImage (Sample.memory 2 0x42) =
        .ok () other ∧ after.userRead 0x1001000 = other.userRead 0x1001000 := by
  have done : ∀ fill ∈ [0, 0x42], Sample.byteAfter Sample.longImage (Sample.memory 2 fill)
      0x1001000 = some 0xaa := by
    decide +kernel
  have accepted : imageSegments Sample.longImage.image = some [Sample.oneByte 0x1001000 2] := by
    decide +kernel
  obtain ⟨after, ran, -⟩ := Sample.ran_of_byteAfter (done 0 (by decide))
  obtain ⟨other, ran', -⟩ := Sample.ran_of_byteAfter (done 0x42 (by decide))
  have overwritten : Overwritten Sample.longImage 0x1001000 := by
    rw [Overwritten, accepted]
    exact .inr ⟨_, List.mem_singleton_self _, by decide, by decide⟩
  exact ⟨after, ran, other, ran', (prepared_memory_reads_alike (Sample.memory_mapped 0)
    (Sample.memory_mapped 0x42) rfl rfl ran ran' 0x1001000).mpr fun _ _ =>
      ⟨by decide +kernel, .inl ⟨⟨1, by decide, by decide⟩, overwritten⟩⟩⟩

/-- What a program reads at an address after a preparation. -/
def Sample.readAfter (request : Request) (memory : Memory) (address : Nat) : Option UInt8 :=
  match prepareProcessPrivateMemory request memory with
  | .ok _ after => after.userRead address
  | .error _ _ => none

/-- The page after the program shows what the root was used for before. -/
theorem second_page_leaks :
    Sample.readAfter Sample.twoBytes (Sample.memory 2 0) 0x1001000 = some 0 ∧
    Sample.readAfter Sample.twoBytes (Sample.memory 2 0x42) 0x1001000 = some 0x42 ∧
    Sample.readAfter Sample.twoBytes (Sample.memory 2 0x42) 0x13f7000 = some 0x42 := by
  decide +kernel

end PrivateMemory
end Vantara
