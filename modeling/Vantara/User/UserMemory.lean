import Vantara.User.Kernel

/-!
# User memory and the answers of other subsystems

Handlers read and write memory of the calling program and ask the file system,
the keyboard and the drivers.  These are not part of the kernel state modelled
here; a call carries what they answer, within the bounds that they guarantee.
-/

namespace Vantara

open Foundation

/-- How a range of user memory is accessed. -/
inductive UserAccess
  | read
  | write
  deriving DecidableEq, Repr

/-- The file system's answers during one call.  Counts never exceed the buffer. -/
structure FileSystemAnswers where
  listToBuffer : NormalizedPath → String → (capacity : Nat) → Option (Fin (capacity + 1))
  readToBuffer : NormalizedPath → String → (capacity : Nat) → Option (Fin (capacity + 1))
  readNode : VfsNodeId → Nat → (capacity : Nat) → Option (Fin (capacity + 1))
  writeNode : VfsNodeId → Nat → (source : List UInt8) → Option (Fin (source.length + 1))
  openFrom : NormalizedPath → String → Option OpenTarget
  createFrom : NormalizedPath → String → Option OpenTarget
  mkdirFrom : NormalizedPath → String → Bool
  unlinkFrom : NormalizedPath → String → Bool
  rmdirFrom : NormalizedPath → String → Bool
  renameFrom : NormalizedPath → String → String → Bool
  /-- The directory a path leads to. -/
  directoryFrom : NormalizedPath → String → Option NormalizedPath

/-- A file system that refuses everything. -/
def FileSystemAnswers.none : FileSystemAnswers where
  listToBuffer _ _ _ := .none
  readToBuffer _ _ _ := .none
  readNode _ _ _ := .none
  writeNode _ _ _ := .none
  openFrom _ _ := .none
  createFrom _ _ := .none
  mkdirFrom _ _ := false
  unlinkFrom _ _ := false
  rmdirFrom _ _ := false
  renameFrom _ _ _ := false
  directoryFrom _ _ := .none

/-- What a call finds outside the kernel state. -/
structure UserEnv where
  /-- The caller's memory. -/
  memory : UInt64 → UInt8
  /-- Whether the page tables permit an access to a range. -/
  accessible : UInt64 → UInt64 → UserAccess → Bool
  files : FileSystemAnswers
  /-- Bytes typed and not yet read. -/
  keyboard : List UInt8
  /-- Lengths of the process, bus and network listings. -/
  processListing : Nat
  pciListing : Nat
  networkListing : Nat
  /-- Bytes of the kernel log and of the driver report that fit a buffer. -/
  kernelLog : (capacity : Nat) → Fin (capacity + 1)
  driverReport : (capacity : Nat) → Fin (capacity + 1)

/-- A range of user memory that passed the checks. -/
structure UserRange where
  ptr : UInt64
  len : UInt64
  deriving DecidableEq, Repr

namespace Kernel

/-- Whether the program area or a stack of the current process holds a range. -/
def currentUserRangeOwned (kernel : Kernel) (ptr rangeEnd : UInt64) : Bool :=
  match kernel.currentProcess with
  | none => false
  | some process =>
    let layout := process.addressSpace.layout
    (decide (ptr ≥ layout.programStart) && decide (rangeEnd ≤ layout.programEnd)) ||
      process.threads.values.any fun thread =>
        match thread.userStackStart, thread.userStackTop with
        | some start, some top => decide (ptr ≥ start) && decide (rangeEnd ≤ top)
        | _, _ => false

/-- Check a range of user memory. -/
def checkedRange (kernel : Kernel) (env : UserEnv) (ptr len : UInt64) (access : UserAccess) :
    Except SyscallError UserRange :=
  if ptr = 0 ∨ len = 0 then
    .error .invalidArgument
  else
    match Word.checkedAdd ptr len with
    | none => .error .invalidArgument
    | some rangeEnd =>
      if !kernel.currentUserRangeOwned ptr rangeEnd then
        .error .invalidArgument
      else if !env.accessible ptr len access then
        .error .invalidArgument
      else
        .ok ⟨ptr, len⟩

/-- The bytes of a user range. -/
def readUserBytes (kernel : Kernel) (env : UserEnv) (ptr len : UInt64) :
    Except SyscallError (List UInt8) := do
  let range ← kernel.checkedRange env ptr len .read
  pure ((List.range range.len.toNat).map fun offset =>
    env.memory (range.ptr + UInt64.ofNat offset))

/-- Longest path a program may pass. -/
def maxPathLen : UInt64 := 128

/-- A text that a program passes. -/
def readUserStr (kernel : Kernel) (env : UserEnv) (ptr len : UInt64) : Except SyscallError String :=
  if len > maxPathLen then
    .error .invalidArgument
  else do
    let bytes ← kernel.readUserBytes env ptr len
    match String.fromUTF8? ⟨bytes.toArray⟩ with
    | some text => .ok text
    | none => .error .invalidArgument

/-- The length of a user range that may be written. -/
def userWriteRange (kernel : Kernel) (env : UserEnv) (ptr len : UInt64) :
    Except SyscallError Nat := do
  let range ← kernel.checkedRange env ptr len .write
  pure range.len.toNat

/-- Copy bytes to user memory. -/
def copyToUserBuffer (kernel : Kernel) (env : UserEnv) (ptr len : UInt64)
    (bytes : List UInt8) : Except SyscallError UInt64 :=
  if UInt64.ofNat bytes.length > len then
    .error .invalidArgument
  else do
    let _ ← kernel.userWriteRange env ptr (UInt64.ofNat bytes.length)
    .ok (UInt64.ofNat bytes.length)

end Kernel

end Vantara
