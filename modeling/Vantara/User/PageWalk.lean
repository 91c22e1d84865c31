import Vantara.User.UserMemory
import Vantara.Foundation.Guarded

/-!
# Walking the active page tables

Before the kernel touches memory that a program names, it looks every page of the range
up in the four levels of the page tables that the processor uses, each of which it finds
behind the offset of physical memory.  An address that is not canonical stops the machine;
`none` stands for that.
-/

namespace Vantara

open Foundation

/-- Bits of a page-table entry. -/
def pagePresent : UInt64 := 0x1
def pageWritable : UInt64 := 0x2
def pageUserAccessible : UInt64 := 0x4
def pageHuge : UInt64 := 0x80

/-- The bits of an entry that name a frame. -/
def pageFrameMask : UInt64 := 0x000ffffffffff000

/-- What the processor finds in memory: the root it uses, and the entries of the table in
a frame. -/
structure PageTables where
  activeP4Frame : UInt64
  /-- A root starts a frame. -/
  isFrame : activeP4Frame &&& pageFrameMask = activeP4Frame
  entry : UInt64 → Nat → UInt64
  /-- Where physical memory is mapped, if the kernel knows. -/
  physicalMemoryOffset : Option UInt64

/-- The places of an address in the tables of the four levels. -/
def p4Index (address : UInt64) : Nat := address.toNat / 2 ^ 39 % 512
def p3Index (address : UInt64) : Nat := address.toNat / 2 ^ 30 % 512
def p2Index (address : UInt64) : Nat := address.toNat / 2 ^ 21 % 512
def p1Index (address : UInt64) : Nat := address.toNat / 2 ^ 12 % 512

/-- Whether an entry lets user mode through. -/
def flagsAllowUserAccess (entry : UInt64) (access : UserAccess) : Bool :=
  if entry &&& (pagePresent ||| pageUserAccessible) ≠ pagePresent ||| pageUserAccessible then
    false
  else
    decide (access ≠ .write) || decide (entry &&& pageWritable = pageWritable)

/-- The frame of the table that an entry points to. -/
def childTableFrame (entry : UInt64) : Option UInt64 :=
  if entry &&& pagePresent = 0 then
    none
  else if entry &&& pageHuge ≠ 0 then
    none
  else
    some (entry &&& pageFrameMask)

/-- The frame of the next table, if user mode may go there. -/
def accessibleChildFrame (entry : UInt64) (access : UserAccess) : Option UInt64 :=
  if !flagsAllowUserAccess entry access then none else childTableFrame entry

/-- A virtual address; the machine stops unless the upper bits are those of bit 47. -/
def virtAddr (address : UInt64) : Option UInt64 :=
  if address.toNat < 2 ^ 47 ∨ 2 ^ 64 - 2 ^ 47 ≤ address.toNat then some address else none

/-- The table in a frame, by way of the sum of two addresses that has to be canonical. -/
def pageTableMut (tables : PageTables) (physicalMemoryOffset frame : UInt64) :
    Option (Nat → UInt64) :=
  ((Word.checkedAdd physicalMemoryOffset frame).bind virtAddr).map fun _ => tables.entry frame

/-- Whether user mode may access a page, by its entries at all four levels. -/
def activeUserPageAccessible
    (tables : PageTables) (physicalMemoryOffset p4Frame address : UInt64) (access : UserAccess) :
    Option Bool := do
  let p4 ← pageTableMut tables physicalMemoryOffset p4Frame
  match accessibleChildFrame (p4 (p4Index address)) access with
  | none => some false
  | some p3Frame =>
    let p3 ← pageTableMut tables physicalMemoryOffset p3Frame
    match accessibleChildFrame (p3 (p3Index address)) access with
    | none => some false
    | some p2Frame =>
      let p2 ← pageTableMut tables physicalMemoryOffset p2Frame
      match accessibleChildFrame (p2 (p2Index address)) access with
      | none => some false
      | some p1Frame =>
        let p1 ← pageTableMut tables physicalMemoryOffset p1Frame
        some (flagsAllowUserAccess (p1 (p1Index address)) access)

/-- Look at one page after the other up to the last one. -/
def pagesAccessible
    (tables : PageTables) (physicalMemoryOffset p4Frame : UInt64) (access : UserAccess)
    (pageAddress lastPage : UInt64) :
    Option Bool :=
  match (virtAddr pageAddress).bind
      (activeUserPageAccessible tables physicalMemoryOffset p4Frame · access) with
  | none => none
  | some false => some false
  | some true =>
    if pageAddress = lastPage then
      some true
    else
      -- The overflow check is also what ends the loop.
      if _fits : pageAddress.toNat + pageSize.toNat < 2 ^ 64 then
        pagesAccessible tables physicalMemoryOffset p4Frame access (pageAddress + pageSize) lastPage
      else
        some false
termination_by 2 ^ 64 - pageAddress.toNat
decreasing_by
  have size : pageSize.toNat = 4096 := rfl
  rw [UInt64.toNat_add]
  omega

/-- Whether user mode may access every page of a range. -/
def activeUserRangeAccessible
    (tables : PageTables) (addressSpace : Option AddressSpace)
    (ptr len : UInt64) (access : UserAccess) :
    Option Bool :=
  if len = 0 then
    some false
  else
    match Word.checkedAdd ptr len with
    | none => some false
    | some rangeEnd =>
      if rangeEnd ≤ ptr then
        some false
      else
        match addressSpace with
        | none => some false
        | some addressSpace =>
          if addressSpace.p4Frame.any (decide <| tables.activeP4Frame ≠ ·) then
            some false
          else
            match tables.physicalMemoryOffset with
            | none => some false
            | some physicalMemoryOffset =>
              pagesAccessible tables physicalMemoryOffset tables.activeP4Frame access
                (ptr &&& ~~~(pageSize - 1)) ((rangeEnd - 1) &&& ~~~(pageSize - 1))

namespace Kernel

/-- Check a range of user memory against its owner and the page tables. -/
def checkUserRange
    (kernel : Kernel) (tables : PageTables) (ptr len : UInt64) (access : UserAccess) :
    Option (Except SyscallError UserRange) :=
  if ptr = 0 ∨ len = 0 then
    some (.error .invalidArgument)
  else
    match Word.checkedAdd ptr len with
    | none => some (.error .invalidArgument)
    | some rangeEnd =>
      if !kernel.currentUserRangeOwned ptr rangeEnd then
        some (.error .invalidArgument)
      else
        match activeUserRangeAccessible tables
            (kernel.currentProcess.map Process.addressSpace) ptr len access with
        | none => none
        | some false => some (.error .invalidArgument)
        | some true => some (.ok ⟨ptr, len⟩)

end Kernel

/-! ## What the walk finds -/

/-- The entries of an address at the four levels, from the root down. -/
def levelEntries (tables : PageTables) (p4Frame address : UInt64) : List UInt64 :=
  let p4Entry := tables.entry p4Frame (p4Index address)
  let p3Entry := tables.entry (p4Entry &&& pageFrameMask) (p3Index address)
  let p2Entry := tables.entry (p3Entry &&& pageFrameMask) (p2Index address)
  let p1Entry := tables.entry (p2Entry &&& pageFrameMask) (p1Index address)
  [p4Entry, p3Entry, p2Entry, p1Entry]

/-- An entry that is present and user-accessible, and writable if the access writes. -/
structure Permits (entry : UInt64) (access : UserAccess) : Prop where
  present : entry &&& pagePresent ≠ 0
  user : entry &&& pageUserAccessible ≠ 0
  writable : access = .write → entry &&& pageWritable ≠ 0

theorem permits_of_flags (allowed : flagsAllowUserAccess entry access = true) :
    Permits entry access := by
  unfold flagsAllowUserAccess at allowed
  split_ifs at allowed with flags
  have both : entry &&& (pagePresent ||| pageUserAccessible) =
      pagePresent ||| pageUserAccessible := not_not.mp flags
  refine ⟨?_, ?_, fun writes => ?_⟩
  · have bit : entry &&& pagePresent =
        entry &&& (pagePresent ||| pageUserAccessible) &&& pagePresent := by
      rw [UInt64.and_assoc]
      rfl
    rw [bit, both]
    decide
  · have bit : entry &&& pageUserAccessible =
        entry &&& (pagePresent ||| pageUserAccessible) &&& pageUserAccessible := by
      rw [UInt64.and_assoc]
      rfl
    rw [bit, both]
    decide
  · have writable : entry &&& pageWritable = pageWritable := by simpa [writes] using allowed
    rw [writable]
    decide

/-- The address of a frame behind the offset is canonical. -/
def CanonicalFrame (physicalMemoryOffset frame : UInt64) : Prop :=
  physicalMemoryOffset.toNat + frame.toNat < 2 ^ 47 ∨
    2 ^ 64 - 2 ^ 47 ≤ physicalMemoryOffset.toNat + frame.toNat ∧
      physicalMemoryOffset.toNat + frame.toNat < 2 ^ 64

/-- The table in a frame has a canonical address behind the offset, and so have the tables
that it leads to on so many levels below. -/
def PageTables.Mapped (tables : PageTables) (physicalMemoryOffset : UInt64) :
    Nat → UInt64 → Prop
  | 0, frame => CanonicalFrame physicalMemoryOffset frame
  | levels + 1, frame =>
    CanonicalFrame physicalMemoryOffset frame ∧
      ∀ index child, childTableFrame (tables.entry frame index) = some child →
        tables.Mapped physicalMemoryOffset levels child

theorem pageTableMut_of_canonical (canonical : CanonicalFrame physicalMemoryOffset frame) :
    pageTableMut tables physicalMemoryOffset frame = some (tables.entry frame) := by
  unfold CanonicalFrame at canonical
  have added : Word.checkedAdd physicalMemoryOffset frame = some (physicalMemoryOffset + frame) :=
    if_pos (by omega)
  have sum := (Word.toNat_of_checkedAdd added).2
  have isAddress : virtAddr (physicalMemoryOffset + frame) = some (physicalMemoryOffset + frame) :=
    if_pos (by omega)
  rw [pageTableMut, added, Option.bind_some, isAddress, Option.map_some]

theorem accessibleChildFrame_eq_some (found : accessibleChildFrame entry access = some frame) :
    flagsAllowUserAccess entry access = true ∧ childTableFrame entry = some frame ∧
      frame = entry &&& pageFrameMask := by
  unfold accessibleChildFrame at found
  split_ifs at found with refused
  refine ⟨by simpa using refused, found, ?_⟩
  unfold childTableFrame at found
  split_ifs at found
  exact (Option.some.inj found).symm

/-- If all tables are mapped, the walk comes to an end, and a page that passes it is permitted
at all four levels. -/
theorem activeUserPageAccessible_spec {tables : PageTables}
    (mapped : tables.Mapped physicalMemoryOffset 3 p4Frame)
    (address : UInt64) (access : UserAccess) :
    ∃ verdict,
      activeUserPageAccessible tables physicalMemoryOffset p4Frame address access = some verdict ∧
      (verdict = true → ∀ entry ∈ levelEntries tables p4Frame address, Permits entry access) := by
  obtain ⟨isP4, p4Children⟩ := mapped
  simp only [activeUserPageAccessible, pageTableMut_of_canonical isP4, Option.bind_eq_bind,
    Option.bind_some]
  split
  · exact ⟨false, rfl, nofun⟩
  next p3Frame found =>
  obtain ⟨p4Allowed, child, isChild⟩ := accessibleChildFrame_eq_some found
  obtain ⟨isP3, p3Children⟩ := p4Children _ p3Frame child
  rw [pageTableMut_of_canonical isP3, Option.bind_some]
  split
  · exact ⟨false, rfl, nofun⟩
  next p2Frame found =>
  subst isChild
  obtain ⟨p3Allowed, child, isChild⟩ := accessibleChildFrame_eq_some found
  obtain ⟨isP2, p2Children⟩ := p3Children _ p2Frame child
  rw [pageTableMut_of_canonical isP2, Option.bind_some]
  split
  · exact ⟨false, rfl, nofun⟩
  next p1Frame found =>
  subst isChild
  obtain ⟨p2Allowed, child, isChild⟩ := accessibleChildFrame_eq_some found
  rw [pageTableMut_of_canonical (p2Children _ p1Frame child), Option.bind_some]
  subst isChild
  refine ⟨_, rfl, fun p1Allowed entry listed => ?_⟩
  simp only [levelEntries, List.mem_cons, List.not_mem_nil, or_false] at listed
  rcases listed with rfl | rfl | rfl | rfl
  · exact permits_of_flags p4Allowed
  · exact permits_of_flags p3Allowed
  · exact permits_of_flags p2Allowed
  · exact permits_of_flags p1Allowed

/-- The first address of the page of an address. -/
theorem toNat_pageMask (address : UInt64) :
    (address &&& ~~~(pageSize - 1)).toNat = address.toNat / 4096 * 4096 := by
  have mask : (~~~(pageSize - 1)).toNat = (2 ^ 52 - 1) * 2 ^ 12 := by decide
  rw [UInt64.toNat_and, mask, show (4096 : Nat) = 2 ^ 12 from rfl]
  apply Nat.eq_of_testBit_eq
  intro index
  rw [Nat.testBit_and, Nat.testBit_mul_two_pow, Nat.testBit_mul_two_pow, Nat.testBit_div_two_pow,
    Nat.testBit_two_pow_sub_one]
  by_cases low : 12 ≤ index
  · by_cases high : index < 64
    · have inside : index - 12 < 52 := by omega
      simp [low, inside]
    · have beyond : address.toNat.testBit index = false :=
        Nat.testBit_lt_two_pow (Nat.lt_of_lt_of_le address.toNat_lt
          (Nat.pow_le_pow_right (by decide) (by omega)))
      simp [low, beyond]
  · simp [low]

/-- Below the top of user addresses the loop comes to an end, and it accepts only if
every page is permitted. -/
theorem pagesAccessible_spec
    {tables : PageTables} {pageAddress lastPage : UInt64}
    (mapped : tables.Mapped physicalMemoryOffset 3 p4Frame)
    (access : UserAccess) (steps : Nat)
    (apart : lastPage.toNat = pageAddress.toNat + 4096 * steps)
    (canonical : lastPage.toNat < 2 ^ 47) :
    ∃ verdict,
      pagesAccessible tables physicalMemoryOffset p4Frame access pageAddress lastPage =
        some verdict ∧
      (verdict = true → ∀ step ≤ steps, ∀ entry ∈ levelEntries tables p4Frame
        (UInt64.ofNat (pageAddress.toNat + 4096 * step)), Permits entry access) := by
  have size : pageSize.toNat = 4096 := rfl
  induction steps generalizing pageAddress with
  | zero =>
    have last : pageAddress = lastPage := UInt64.toNat_inj.mp (by omega)
    have address : virtAddr pageAddress = some pageAddress :=
      if_pos (.inl (by omega))
    obtain ⟨verdict, walked, permits⟩ := activeUserPageAccessible_spec mapped pageAddress access
    rw [pagesAccessible, address, Option.bind_some, walked]
    cases verdict with
    | false => exact ⟨false, rfl, nofun⟩
    | true =>
      refine ⟨true, if_pos last, fun _ step few => ?_⟩
      obtain rfl : step = 0 := by omega
      rw [Nat.mul_zero, Nat.add_zero, UInt64.ofNat_toNat]
      exact permits rfl
  | succ steps ih =>
    have notLast : pageAddress ≠ lastPage := by
      rintro rfl
      omega
    have address : virtAddr pageAddress = some pageAddress :=
      if_pos (.inl (by omega))
    have fits : pageAddress.toNat + pageSize.toNat < 2 ^ 64 := by omega
    have nextPage : (pageAddress + pageSize).toNat = pageAddress.toNat + 4096 := by
      rw [UInt64.toNat_add, size]
      omega
    obtain ⟨rest, ended, later⟩ := @ih (pageAddress + pageSize) (by omega)
    obtain ⟨verdict, walked, permits⟩ := activeUserPageAccessible_spec mapped pageAddress access
    rw [pagesAccessible, address, Option.bind_some, walked]
    cases verdict with
    | false => exact ⟨false, rfl, nofun⟩
    | true =>
      simp only [if_neg notLast, dif_pos fits]
      refine ⟨rest, ended, fun accepted step few => ?_⟩
      cases step with
      | zero =>
        rw [Nat.mul_zero, Nat.add_zero, UInt64.ofNat_toNat]
        exact permits rfl
      | succ step =>
        have found := later accepted step (by omega)
        rw [nextPage] at found
        rwa [show pageAddress.toNat + 4096 * (step + 1) =
          pageAddress.toNat + 4096 + 4096 * step by omega]

/-- A range below the top of user addresses: the check comes to an end, and it accepts
only through the root of the process and if all pages are permitted. -/
theorem activeUserRangeAccessible_spec
    {tables : PageTables} {addressSpace : AddressSpace} {ptr len : UInt64}
    (mapped : ∀ offset, tables.physicalMemoryOffset = some offset →
      tables.Mapped offset 3 tables.activeP4Frame)
    (access : UserAccess)
    (below : ptr.toNat + len.toNat ≤ 2 ^ 47) :
    ∃ verdict, activeUserRangeAccessible tables (some addressSpace) ptr len access =
        some verdict ∧
      (verdict = true →
        (∀ root, addressSpace.p4Frame = some root → tables.activeP4Frame = root) ∧
        ∀ page, page * 4096 < ptr.toNat + len.toNat → ptr.toNat < (page + 1) * 4096 →
          ∀ entry ∈ levelEntries tables tables.activeP4Frame (UInt64.ofNat (page * 4096)),
            Permits entry access) := by
  by_cases zero : len = 0
  · exact ⟨false, if_pos zero, nofun⟩
  have positive : 0 < len.toNat := by
    rw [Nat.pos_iff_ne_zero]
    exact fun none_left => zero (UInt64.toNat_inj.mp none_left)
  have sum : (ptr + len).toNat = ptr.toNat + len.toNat := by
    rw [UInt64.toNat_add]
    omega
  have added : Word.checkedAdd ptr len = some (ptr + len) := if_pos (by omega)
  have notWrapped : ¬ ptr + len ≤ ptr := by
    rw [UInt64.le_iff_toNat_le]
    omega
  unfold activeUserRangeAccessible
  rw [if_neg zero, added]
  simp only [if_neg notWrapped]
  by_cases foreign : addressSpace.p4Frame.any (decide <| tables.activeP4Frame ≠ ·) = true
  · exact ⟨false, if_pos foreign, nofun⟩
  rw [if_neg foreign]
  cases isOffset : tables.physicalMemoryOffset with
  | none => exact ⟨false, rfl, nofun⟩
  | some physicalMemoryOffset =>
    have lastByte : (ptr + len - 1).toNat = ptr.toNat + len.toNat - 1 := by
      have one : (1 : UInt64).toNat = 1 := rfl
      rw [UInt64.toNat_sub_of_le _ _ (by rw [UInt64.le_iff_toNat_le]; omega), sum, one]
    have firstPage := toNat_pageMask ptr
    have lastPage := toNat_pageMask (ptr + len - 1)
    rw [lastByte] at lastPage
    obtain ⟨verdict, ended, accepted⟩ := @pagesAccessible_spec _ _ tables
      (ptr &&& ~~~(pageSize - 1)) ((ptr + len - 1) &&& ~~~(pageSize - 1)) (mapped _ isOffset) access
      ((ptr.toNat + len.toNat - 1) / 4096 - ptr.toNat / 4096) (by omega) (by omega)
    refine ⟨verdict, ended, fun isTrue => ⟨fun root isRoot => ?_, fun page starts stops => ?_⟩⟩
    · by_contra differ
      rw [isRoot] at foreign
      exact foreign (by simpa using differ)
    · have place := accepted isTrue (page - ptr.toNat / 4096) (by omega)
      rwa [firstPage, show ptr.toNat / 4096 * 4096 + 4096 * (page - ptr.toNat / 4096) =
        page * 4096 by omega] at place

end Vantara
