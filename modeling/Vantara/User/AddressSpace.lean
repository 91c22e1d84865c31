import Vantara.User.Thread

/-!
# User memory layout and the pool of private address spaces

Programs start at a fixed address below a region of stack slots.  A bounded pool
of prepared page-table roots supplies the private address spaces; each root
keeps track of which of its stack slots are taken.
-/

namespace Vantara

open Foundation

/-- Lowest user address, where every program starts. -/
def userBase : UInt64 := 0x1000000

/-- Top of the first user stack. -/
def firstUserStackTop : UInt64 := userBase + 0x400000

/-- Bytes of one page. -/
def pageSize : UInt64 := 4096

/-- Bytes of one user stack. -/
def userStackSize : UInt64 := pageSize * 4

/-- Bytes of one stack slot: a stack and its guard page. -/
def userStackSlotSize : UInt64 := userStackSize + pageSize

/-- Stack slots in an address space. -/
def userStackSlotCount : UInt64 := 8

/-- Lowest address of the stack region. -/
def userStackRegionStart : UInt64 :=
  firstUserStackTop - userStackSlotSize * userStackSlotCount

/-- Bytes between the program start and the stack region. -/
def userProgramAreaSize : UInt64 := userStackRegionStart - userBase

/-- The address ranges a process may use. -/
structure UserMemoryLayout where
  programStart : UInt64
  programEnd : UInt64
  stackStart : UInt64
  stackTop : UInt64
  deriving DecidableEq, Repr

/-- The layout of the kernel task, which owns no user memory. -/
def UserMemoryLayout.kernelPlaceholder : UserMemoryLayout :=
  ⟨0, 0, 0, 0⟩

/-- The stack top of a process; identifiers share the slots cyclically. -/
def stackTopForPid (pid : Pid) : UInt64 :=
  let slot := (if pid < 2 then 0 else pid - 2).toUInt64 % userStackSlotCount
  firstUserStackTop - slot * userStackSlotSize

/-- A program size rounded up to pages and kept inside the program area. -/
def alignUserProgramSize (size : UInt64) : UInt64 :=
  let size := max size pageSize
  min (Word.divCeil size pageSize * pageSize) userProgramAreaSize

/-- The layout of a process for a program of the given size. -/
def memoryLayoutForPidWithProgramSize (pid : Pid) (programSize : UInt64) : UserMemoryLayout :=
  let stackTop := stackTopForPid pid
  { programStart := userBase
    programEnd := userBase + alignUserProgramSize programSize
    stackStart := stackTop - userStackSize
    stackTop := stackTop }

/-- How an address space relates to the kernel's own. -/
inductive AddressSpaceKind
  | kernel
  | kernelSharedUser
  | preparedUser
  | isolatedUser
  deriving DecidableEq, Repr

/-- The address space of a process. -/
structure AddressSpace where
  kind : AddressSpaceKind
  p4Frame : Option UInt64
  p4Verified : Bool
  entryPoint : UInt64
  layout : UserMemoryLayout
  deriving DecidableEq, Repr

namespace AddressSpace

/-- The address space of the kernel task. -/
def kernelPlaceholder (entryPoint : UInt64) : AddressSpace :=
  ⟨.kernel, none, false, entryPoint, .kernelPlaceholder⟩

/-- User memory inside the kernel's page tables. -/
def kernelSharedUser (entryPoint : UInt64) (layout : UserMemoryLayout) : AddressSpace :=
  ⟨.kernelSharedUser, none, false, entryPoint, layout⟩

/-- A private root in use. -/
def isolatedUser
    (entryPoint : UInt64) (layout : UserMemoryLayout) (p4Frame : UInt64) : AddressSpace :=
  ⟨.isolatedUser, some p4Frame, true, entryPoint, layout⟩

/-- A private root whose switch was verified. -/
def verifiedPreparedUser
    (entryPoint : UInt64) (layout : UserMemoryLayout) (p4Frame : UInt64) : AddressSpace :=
  ⟨.preparedUser, some p4Frame, true, entryPoint, layout⟩

/-- A verified private root becomes an isolated address space. -/
def promotedIsolatedUser (space : AddressSpace) : AddressSpace :=
  match space.p4Frame with
  | some p4Frame =>
    if space.p4Verified then isolatedUser space.entryPoint space.layout p4Frame else space
  | none => space

end AddressSpace

/-- One prepared page-table root. -/
structure PreparedP4Slot where
  p4Frame : UInt64
  /-- Which stack slots are taken. -/
  stackInUse : List Bool
  inUse : Bool
  deriving DecidableEq, Repr

/-- Change the first element that passes a test. -/
def modifyFirst (test : α → Bool) (change : α → α) : List α → List α
  | [] => []
  | element :: rest =>
    if test element then change element :: rest
    else element :: modifyFirst test change rest

/-- The stack slot with the given top. -/
def stackSlotIndex (stackTop : UInt64) : Option Nat :=
  if stackTop > firstUserStackTop then
    none
  else
    let offset := firstUserStackTop - stackTop
    if offset % userStackSlotSize ≠ 0 then
      none
    else
      let index := (offset / userStackSlotSize).toNat
      if index < userStackSlotCount.toNat then some index else none

/-- The addresses of a stack slot. -/
def stackRangeForSlot (index : Nat) : UInt64 × UInt64 :=
  let stackTop := firstUserStackTop - UInt64.ofNat index * userStackSlotSize
  (stackTop - userStackSize, stackTop)

/-- The prepared page-table roots. -/
structure PrivateP4Pool where
  slots : List PreparedP4Slot
  deriving DecidableEq, Repr

namespace PrivateP4Pool

/-- Take the first free root. -/
def take (pool : PrivateP4Pool) : Option (UInt64 × PrivateP4Pool) := do
  let slot ← pool.slots.find? (!·.inUse)
  pure (slot.p4Frame,
    ⟨modifyFirst (!·.inUse) (fun slot => { slot with inUse := true }) pool.slots⟩)

/-- Return a root, and with it all its stack slots. -/
def release (pool : PrivateP4Pool) (p4Frame : UInt64) : PrivateP4Pool :=
  ⟨modifyFirst (fun slot => slot.p4Frame = p4Frame)
    (fun slot =>
      { slot with inUse := false, stackInUse := slot.stackInUse.map fun _ => false })
    pool.slots⟩

/-- Take a free stack slot of a root in use; the main stack's slot counts as
taken from then on, even if no other slot is free. -/
def reserveStackSlot (pool : PrivateP4Pool) (p4Frame mainStackTop : UInt64) :
    Option (UInt64 × UInt64) × PrivateP4Pool :=
  let live := fun slot : PreparedP4Slot => decide (slot.p4Frame = p4Frame) && slot.inUse
  match pool.slots.find? live, stackSlotIndex mainStackTop with
  | some slot, some mainIndex =>
    let taken := slot.stackInUse.set mainIndex true
    let withTaken := fun taken : List Bool =>
      (⟨modifyFirst live (fun slot => { slot with stackInUse := taken }) pool.slots⟩ :
        PrivateP4Pool)
    match taken.findIdx? (!·) with
    | some index => (some (stackRangeForSlot index), withTaken (taken.set index true))
    | none => (none, withTaken taken)
  | _, _ => (none, pool)

/-- Mark or return the stack slot that ends at an address. -/
def setStackSlot (pool : PrivateP4Pool) (test : PreparedP4Slot → Bool) (stackTop : UInt64)
    (taken : Bool) : PrivateP4Pool :=
  match stackSlotIndex stackTop with
  | none => pool
  | some index =>
    ⟨modifyFirst test (fun slot => { slot with stackInUse := slot.stackInUse.set index taken })
      pool.slots⟩

/-- Return one stack slot of a root in use. -/
def releaseStackSlot (pool : PrivateP4Pool) (p4Frame stackTop : UInt64) : PrivateP4Pool :=
  pool.setStackSlot (fun slot => decide (slot.p4Frame = p4Frame) && slot.inUse) stackTop false

/-- Preparing the memory of a process marks the slot of its main stack. -/
def markStackSlot (pool : PrivateP4Pool) (p4Frame stackTop : UInt64) : PrivateP4Pool :=
  pool.setStackSlot (fun slot => decide (slot.p4Frame = p4Frame)) stackTop true

end PrivateP4Pool

end Vantara
