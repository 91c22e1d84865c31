import Vantara.Foundation.Guarded
import Vantara.User.AddressSpace

/-!
# The ELF parser

The kernel reads a program image from its file header and its table of program
headers.  Every field is read from the bytes of the image at a computed place; reading
outside the image, and an overflow of the computation, stop the machine.
-/

namespace Vantara
namespace Elf

open Foundation

/-- What the file header of an executable says. -/
def elfMagic : List UInt8 := [0x7f, 0x45, 0x4c, 0x46]
def elfClass64 : UInt8 := 2
def elfData2Lsb : UInt8 := 1
def etExec : Nat := 2
def emX8664 : Nat := 0x3e
def elfVersionCurrent : Nat := 1

/-- The bytes of a program header. -/
def elf64ProgramHeaderSize : Nat := 56

/-- The type and the permissions of segments. -/
def ptLoad : Nat := 1
def pfX : Nat := 1
def pfW : Nat := 2
def pfR : Nat := 4

/-- The addresses that segments may have. -/
def userElfMinVaddr : Nat := userBase.toNat
def userElfMaxVaddr : Nat := (firstUserStackTop - userStackSize).toNat

/-- Where execution starts and where the program headers are. -/
structure ElfInfo where
  entry : Nat
  programHeaderOffset : Nat
  programHeaderEntrySize : Nat
  programHeaderCount : Nat
  deriving DecidableEq, Repr

/-- A part of the image that is loaded. -/
structure LoadSegment where
  fileOffset : Nat
  virtualAddress : Nat
  fileSize : Nat
  memorySize : Nat
  flags : Nat
  alignment : Nat
  deriving DecidableEq, Repr

/-- A slot of the output that is not filled. -/
def LoadSegment.empty : LoadSegment := ⟨0, 0, 0, 0, 0, 0⟩

/-- Why an image is refused. -/
inductive ElfError
  | tooSmall
  | badMagic
  | unsupportedClass
  | unsupportedEndian
  | unsupportedVersion
  | unsupportedType
  | unsupportedMachine
  | badProgramHeaderSize
  | programHeadersOutOfBounds
  | segmentOutOfBounds
  | segmentAddressOutOfBounds
  | segmentMemoryTooSmall
  | badSegmentFlags
  | badSegmentAlignment
  | tooManyLoadSegments
  deriving DecidableEq, Repr

/-- Computations of the parser. -/
abbrev Parse := Guarded ElfError

/-! ## Reading the image -/

section

variable (image : List UInt8)

/-- The byte at an index, which has to be inside the image. -/
def byteAt (index : Nat) : Parse UInt8 :=
  Guarded.unwrap image[index]?

/-- The number in some bytes of the image, in little-endian order. -/
def readLe (offset : Nat) : Nat → Parse Nat
  | 0 => pure 0
  | width + 1 => do
      let low ← readLe offset width
      let index ← Guarded.add offset width
      let byte ← byteAt image index
      pure (low + byte.toNat * 256 ^ width)

/-- Numbers of two, four and eight bytes. -/
def readU16 (offset : Nat) : Parse Nat := readLe image offset 2
def readU32 (offset : Nat) : Parse Nat := readLe image offset 4
def readU64 (offset : Nat) : Parse Nat := readLe image offset 8

/-- The bytes `image[start..stop]`. -/
def slice (start stop : Nat) : Parse (List UInt8) :=
  if start ≤ stop ∧ stop ≤ image.length then pure ((image.take stop).drop start)
  else Guarded.halt

/-! ## The headers -/

/-- The program headers have to lie in the image. -/
def validateProgramHeaderTable (offset entrySize count : Nat) : Parse Unit :=
  if count = 0 then pure ()
  else if entrySize < elf64ProgramHeaderSize then throw .badProgramHeaderSize
  else do
    let size ← Guarded.mul entrySize count
    -- `checked_add`, whose failure is an ordinary error
    if 2 ^ 64 ≤ offset + size then throw .programHeadersOutOfBounds
    else if image.length < offset + size then throw .programHeadersOutOfBounds
    else pure ()

/-- The information in the file header, if it is accepted. -/
def parseElf64 : Parse ElfInfo :=
  if image.length < 64 then throw .tooSmall
  else do
    let magic ← slice image 0 4
    if magic ≠ elfMagic then throw .badMagic
    else do
    let elfClass ← byteAt image 4
    if elfClass ≠ elfClass64 then throw .unsupportedClass
    else do
    let endian ← byteAt image 5
    if endian ≠ elfData2Lsb then throw .unsupportedEndian
    else do
    let version ← readU32 image 20
    if version ≠ elfVersionCurrent then throw .unsupportedVersion
    else do
    let elfType ← readU16 image 16
    if elfType ≠ etExec then throw .unsupportedType
    else do
    let machine ← readU16 image 18
    if machine ≠ emX8664 then throw .unsupportedMachine
    else do
    let programHeaderOffset ← readU64 image 32
    let programHeaderEntrySize ← readU16 image 54
    let programHeaderCount ← readU16 image 56
    validateProgramHeaderTable image programHeaderOffset programHeaderEntrySize
      programHeaderCount
    let entry ← readU64 image 24
    pure ⟨entry, programHeaderOffset, programHeaderEntrySize, programHeaderCount⟩

/-! ## The segments -/

/-- The bytes of a segment have to lie in the image. -/
def validateLoadSegment (segment : LoadSegment) : Parse Unit :=
  if segment.memorySize < segment.fileSize then throw .segmentMemoryTooSmall
  else if 2 ^ 64 ≤ segment.fileOffset + segment.fileSize then throw .segmentOutOfBounds
  else if image.length < segment.fileOffset + segment.fileSize then throw .segmentOutOfBounds
  else pure ()

end

/-- `is_power_of_two` of a 64-bit word. -/
def isPowerOfTwo (number : Nat) : Bool :=
  (List.range 64).any fun exponent => number = 2 ^ exponent

/-- A flag among the flags of a segment. -/
def LoadSegment.has (segment : LoadSegment) (flag : Nat) : Bool :=
  segment.flags &&& flag ≠ 0

/-- The flags of a segment that are not among some others, as a 32-bit word has them. -/
def LoadSegment.hasOtherThan (segment : LoadSegment) (flags : Nat) : Bool :=
  segment.flags &&& (flags ^^^ (2 ^ 32 - 1)) ≠ 0

/-- Flags, alignment and addresses have to be those of a user program. -/
def validateUserLoadSegment (segment : LoadSegment) : Parse Unit :=
  if segment.hasOtherThan (pfR ||| pfW ||| pfX) then throw .badSegmentFlags
  else if segment.has pfW ∧ segment.has pfX then throw .badSegmentFlags
  else if segment.alignment > 1 ∧ !isPowerOfTwo segment.alignment then
    throw .badSegmentAlignment
  else if segment.virtualAddress < userElfMinVaddr then throw .segmentAddressOutOfBounds
  else if 2 ^ 64 ≤ segment.virtualAddress + segment.memorySize then
    throw .segmentAddressOutOfBounds
  else if userElfMaxVaddr < segment.virtualAddress + segment.memorySize then
    throw .segmentAddressOutOfBounds
  else pure ()

/-- A number at some distance into a program header. -/
def readEntryField (image : List UInt8) (offset distance width : Nat) : Parse Nat := do
  let place ← Guarded.add offset distance
  readLe image place width

/-- A load segment from its program header. -/
def readSegment (image : List UInt8) (offset : Nat) : Parse LoadSegment := do
  let flags ← readEntryField image offset 4 4
  let fileOffset ← readEntryField image offset 8 8
  let virtualAddress ← readEntryField image offset 16 8
  let fileSize ← readEntryField image offset 32 8
  let memorySize ← readEntryField image offset 40 8
  let alignment ← readEntryField image offset 48 8
  pure ⟨fileOffset, virtualAddress, fileSize, memorySize, flags, alignment⟩

/-- Store a segment in the output slice, at an index that has to be inside it. -/
def storeSegment (output : List LoadSegment) (index : Nat) (segment : LoadSegment) :
    Parse (List LoadSegment) :=
  if index < output.length then pure (output.set index segment) else Guarded.halt

/-- The loop over the program headers, with the output slice and the number of segments
found; the result is that number and the slice. -/
def loadSegmentsLoop (image : List UInt8) (info : ElfInfo) :
    List Nat → Nat → List LoadSegment → Parse (Nat × List LoadSegment)
  | [], count, output => pure (count, output)
  | index :: rest, count, output => do
      let distance ← Guarded.mul index info.programHeaderEntrySize
      let offset ← Guarded.add info.programHeaderOffset distance
      let programType ← readU32 image offset
      if programType ≠ ptLoad then loadSegmentsLoop image info rest count output
      else if output.length ≤ count then throw .tooManyLoadSegments
      else do
        let segment ← readSegment image offset
        validateLoadSegment image segment
        validateUserLoadSegment segment
        let output ← storeSegment output count segment
        let count ← Guarded.add count 1
        loadSegmentsLoop image info rest count output

/-- The load segments of an image, in the output slice. -/
def loadSegments (image : List UInt8) (output : List LoadSegment) :
    Parse (Nat × List LoadSegment) := do
  let info ← parseElf64 image
  loadSegmentsLoop image info (List.range info.programHeaderCount) 0 output

/-- The addresses from the start of the program area to the end of the last segment. -/
def imageFootprintSize (segments : List LoadSegment) : Nat :=
  let high := segments.foldl
    (fun high segment =>
      if segment.memorySize = 0 then high
      else max high (min (segment.virtualAddress + segment.memorySize) (2 ^ 64 - 1)))
    userElfMinVaddr
  high - userElfMinVaddr

end Elf
end Vantara
