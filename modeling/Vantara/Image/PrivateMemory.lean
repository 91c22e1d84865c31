import Vantara.Foundation.Attempt
import Vantara.Image.Elf
import Vantara.Image.InitialStack

/-!
# Private memory of a process

A prepared page-table root owns frames for the program area and for eight stacks.  Before
a program starts, the kernel clears and fills the frames that it uses and sets the
permissions of its pages.  The frames are named by their places in the root's record, so
that different names are different frames; the page tables are represented by the leaf
entry of each page whose parents are present.
-/

namespace Vantara
namespace PrivateMemory

open Foundation
open Elf (LoadSegment)

/-- Why a preparation fails. -/
inductive AddressSpaceError
  | frameAllocationFailed
  | missingPhysicalMemoryOffset
  | noKernelP4
  | noPreparedP4
  | privateMappingNotFound
  | privateMappingTooSmall
  | switchVerificationFailed
  | userMappingNotAccessible
  deriving DecidableEq, Repr

/-- A frame of a prepared root, or another one. -/
inductive FrameName
  | program (index : Nat)
  | stack (slot index : Nat)
  | other (number : Nat)
  deriving DecidableEq, Repr

/-- The flags of a page-table entry that the kernel uses. -/
structure PageFlags where
  present : Bool
  writable : Bool
  userAccessible : Bool
  noExecute : Bool
  deriving DecidableEq, Repr

/-- A leaf entry of the page tables. -/
structure Leaf where
  frame : FrameName
  flags : PageFlags
  deriving DecidableEq, Repr

/-- The memory behind a prepared root. -/
structure Memory where
  frames : FrameName → Buffer
  /-- The leaf entry of a page, by page number. -/
  leaves : Nat → Option Leaf
  programFrameCount : Nat

/-- Computations that prepare the memory behind a root. -/
abbrev Prepare := EStateM AddressSpaceError Memory

/-- The bytes of a frame, and where the program area starts. -/
def frameSize : Nat := 4096
def firstUserEntry : Nat := userBase.toNat

/-- The most pages of a program, and of a stack. -/
def maxPrivateProgramPageCount : Nat := 64
def privateStackPageCount : Nat := 4

/-- The flags of a page that may hold code, and of one that may not. -/
def userPageFlags : PageFlags := ⟨true, true, true, false⟩
def userDataPageFlags : PageFlags := { userPageFlags with noExecute := true }

/-- The pages that some bytes need. -/
def pagesForLen (len : Nat) : Nat := (len + (frameSize - 1)) / frameSize

/-- The loop `for item in list`. -/
def forEach (body : α → Prepare Unit) : List α → Prepare Unit
  | [] => pure ()
  | item :: rest => do
      body item
      forEach body rest

/-! ## Frames -/

/-- Replace the bytes of a frame. -/
def fillFrame (frame : FrameName) (contents : Buffer) : Prepare Unit := fun memory =>
  .ok () { memory with frames := Function.update memory.frames frame contents }

/-- Write bytes to a frame. -/
def storeAt (frame : FrameName) (offset : Nat) (bytes : List UInt8) : Prepare Unit :=
  fun memory =>
    .ok ()
      { memory with
        frames := Function.update memory.frames frame
          ((memory.frames frame).splice offset bytes) }

/-- The loop that writes bytes at an address and the following ones, page by page.  Every
turn writes a byte at least. -/
def writeSplit
    (locate : Nat → Except AddressSpaceError Nat)
    (base : Nat)
    (frame : Nat → FrameName) : Nat → Nat → List UInt8 → Prepare Unit
  | 0, _, _ => pure ()
  | turns + 1, address, bytes =>
    if bytes = [] then pure ()
    else
      match locate address with
      | .error error => throw error
      | .ok index => do
          let offset := (address - base) % frameSize
          let count := min bytes.length (frameSize - offset)
          storeAt (frame index) offset (bytes.take count)
          writeSplit locate base frame turns (address + count) (bytes.drop count)

/-- The program frame behind an address. -/
def privateProgramPageIndex (programFrameCount address : Nat) : Except AddressSpaceError Nat :=
  if address < firstUserEntry then .error .privateMappingNotFound
  else
    let index := (address - firstUserEntry) / frameSize
    if programFrameCount ≤ index then .error .privateMappingTooSmall else .ok index

/-- The stack frame behind an address. -/
def privateStackPageIndex (layout : UserMemoryLayout) (address : Nat) :
    Except AddressSpaceError Nat :=
  if address < layout.stackStart.toNat ∨ layout.stackTop.toNat ≤ address then
    .error .privateMappingNotFound
  else
    let index := (address - layout.stackStart.toNat) / frameSize
    if privateStackPageCount ≤ index then .error .privateMappingTooSmall else .ok index

/-- Write bytes to the program area. -/
def writePrivateUserBytes (address : Nat) (bytes : List UInt8) : Prepare Unit := do
  let memory ← get
  writeSplit (privateProgramPageIndex memory.programFrameCount) firstUserEntry .program
    bytes.length address bytes

/-- Write zeros to the program area. -/
def zeroPrivateUserBytes (address len : Nat) : Prepare Unit :=
  writePrivateUserBytes address (List.replicate len 0)

/-- Write bytes to the main stack. -/
def writePrivateUserStackBytes (layout : UserMemoryLayout) (address : Nat)
    (bytes : List UInt8) : Prepare Unit :=
  match stackSlotIndex layout.stackTop with
  | none => throw .privateMappingNotFound
  | some slot =>
    writeSplit (privateStackPageIndex layout) layout.stackStart.toNat (.stack slot)
      bytes.length address bytes

/-! ## Page-table entries -/

/-- Let a page lead to a frame of the root. -/
def remapExistingUserPageToPrivateFrame (page : Nat) (frame : FrameName) : Prepare Unit :=
  fun memory =>
    match memory.leaves page with
    | none => .error .privateMappingNotFound memory
    | some _ =>
      .ok ()
        { memory with
          leaves := Function.update memory.leaves page (some ⟨frame, userDataPageFlags⟩) }

/-- Change the flags of a page. -/
def setUserPageFlags (page : Nat) (flags : PageFlags) : Prepare Unit := fun memory =>
  match memory.leaves page with
  | none => .error .privateMappingNotFound memory
  | some leaf =>
    .ok ()
      { memory with leaves := Function.update memory.leaves page (some { leaf with flags }) }

/-! ## Preparing a program -/

/-- Whether `parse_elf64` accepts an image. -/
def isElfImage (image : List UInt8) : Bool :=
  match (Elf.parseElf64 image).run with
  | some (.ok _) => true
  | _ => false

/-- The segments that `load_segments` finds, eight at most. -/
def imageSegments (image : List UInt8) : Option (List LoadSegment) :=
  match (Elf.loadSegments image (List.replicate 8 LoadSegment.empty)).run with
  | some (.ok (count, segments)) => some (segments.take count)
  | _ => none

/-- The bytes of a segment in the image. -/
def segmentBytes (image : List UInt8) (segment : LoadSegment) : List UInt8 :=
  (image.drop segment.fileOffset).take segment.fileSize

/-- Copy a segment, and zeros after it. -/
def overlaySegment (image : List UInt8) (segment : LoadSegment) : Prepare Unit := do
  writePrivateUserBytes segment.virtualAddress (segmentBytes image segment)
  if segment.fileSize < segment.memorySize then
    zeroPrivateUserBytes (segment.virtualAddress + segment.fileSize)
      (segment.memorySize - segment.fileSize)

/-- Copy the segments of an ELF image. -/
def overlayElfSegmentsToPrivateFrames (image : List UInt8) : Prepare Unit :=
  match imageSegments image with
  | none => pure ()
  | some segments => forEach (overlaySegment image) segments

/-- Where the argument and its length are put. -/
def firstUserArgPathAddr : Nat := firstUserEntry + 0x340
def firstUserArgPathLen : Nat := 32
def firstUserArgLenAddr : Nat := firstUserEntry + 0x378

/-- Put the argument, cut off at 32 bytes, in its place. -/
def seedPrivateUserArg (arg : List UInt8) : Prepare Unit := do
  let arg := arg.take (min arg.length firstUserArgPathLen)
  zeroPrivateUserBytes firstUserArgPathAddr firstUserArgPathLen
  writePrivateUserBytes firstUserArgPathAddr arg
  writePrivateUserBytes firstUserArgLenAddr (leBytes arg.length 8)

/-- Put the initial block on the main stack. -/
def seedPrivateInitialStack (layout : UserMemoryLayout)
    (programPath arg : List UInt8) : Prepare Unit :=
  match buildUserInitialStack layout programPath arg with
  | .error _ => throw .privateMappingTooSmall
  | .ok stack => writePrivateUserStackBytes layout stack.stackPointer stack.bytes

/-- Whether a segment has addresses on a page, as the saturating sums compare. -/
def touchesPage (pageStart : Nat) (segment : LoadSegment) : Bool :=
  segment.virtualAddress < min (pageStart + frameSize) (2 ^ 64 - 1) ∧
    pageStart < min (segment.virtualAddress + segment.memorySize) (2 ^ 64 - 1)

/-- The flags of a page from the segments on it. -/
def elfPageFlags (pageStart : Nat) (segments : List LoadSegment) :
    Except AddressSpaceError PageFlags :=
  let hits := segments.filter (touchesPage pageStart)
  let writable := hits.any (·.has Elf.pfW)
  let executable := hits.any (·.has Elf.pfX)
  if writable ∧ executable then .error .userMappingNotAccessible
  else if hits = [] then .ok userDataPageFlags
  else .ok ⟨true, writable, true, !executable⟩

/-- The numbers of the pages from one address to another, which is not included. -/
def pageRange (start stop : Nat) : List Nat :=
  List.range' (start / frameSize) ((stop - 1) / frameSize + 1 - start / frameSize)

/-- The flags of a program page. -/
def programPageFlags (segments : Option (List LoadSegment)) (page : Nat) :
    Except AddressSpaceError PageFlags :=
  match segments with
  | some segments => elfPageFlags (page * frameSize) segments
  | none => .ok userPageFlags

/-- Set the flags of a page, if they can be found. -/
def protectPage (flagsOf : Nat → Except AddressSpaceError PageFlags) (page : Nat) : Prepare Unit :=
  match flagsOf page with
  | .error error => throw error
  | .ok flags => setUserPageFlags page flags

/-- Set the flags of all pages of a program. -/
def protectPrivateUserMemory (layout : UserMemoryLayout) (image : List UInt8) :
    Prepare Unit := do
  forEach (protectPage (programPageFlags (imageSegments image)))
    (pageRange layout.programStart.toNat layout.programEnd.toNat)
  forEach (protectPage fun _ => .ok userDataPageFlags)
    (pageRange layout.stackStart.toNat layout.stackTop.toNat)

/-- What a program is prepared from.  A flat image has been put at the start of the
program area of the active address space before. -/
structure Request where
  layout : UserMemoryLayout
  image : List UInt8
  programPath : List UInt8
  arg : List UInt8
  /-- The active address space, from the start of the program area on. -/
  active : Buffer

/-- The frame of a program page before the overlay. -/
def fillProgramFrame (request : Request) (index : Nat) : Prepare Unit :=
  fillFrame (.program index)
    (if isElfImage request.image then fun _ => 0
     else fun offset => request.active (index * frameSize + offset))

/-- Map the main stack, and fill the frames. -/
def prepareFrames (request : Request) (slot programPages stackPages : Nat) : Prepare Unit := do
  forEach
    (fun index => remapExistingUserPageToPrivateFrame
      (request.layout.stackStart.toNat / frameSize + index) (.stack slot index))
    (List.range stackPages)
  forEach (fillProgramFrame request) (List.range programPages)
  forEach (fun index => fillFrame (.stack slot index) fun _ => 0) (List.range stackPages)

/-- Prepare the memory of a program. -/
def prepareProcessPrivateMemory (request : Request) : Prepare Unit := do
  let memory ← get
  let layout := request.layout
  let programPageCount := pagesForLen (layout.programEnd.toNat - layout.programStart.toNat)
  if memory.programFrameCount < programPageCount then throw .privateMappingTooSmall
  else
    let stackPageCount := pagesForLen (layout.stackTop.toNat - layout.stackStart.toNat)
    match stackSlotIndex layout.stackTop with
    | none => throw .privateMappingNotFound
    | some slot =>
      if privateStackPageCount < stackPageCount then throw .privateMappingTooSmall
      else do
        prepareFrames request slot programPageCount stackPageCount
        overlayElfSegmentsToPrivateFrames request.image
        seedPrivateUserArg request.arg
        seedPrivateInitialStack layout request.programPath request.arg
        protectPrivateUserMemory layout request.image

end PrivateMemory
end Vantara
