import Vantara.Properties.ThreadStacks
import Vantara.User.PageWalk

/-!
# Ranges of user memory

Program areas end below the region of stacks, and a thread has a stack that the kernel
chose or one inside memory its process owned already.  All addresses that a process owns
are therefore far below the first address that is not canonical, and the check of a range
ends with an answer; a range that it accepts is owned by the process and accessible page
by page.
-/

namespace Vantara

open Foundation

/-- The program area and the stacks of a process end at the top of user memory. -/
structure Process.Bounded (process : Process) : Prop where
  area : process.addressSpace.layout.programEnd ≤ firstUserStackTop
  top : ∀ tid thread range, process.threads.get tid = some thread →
    thread.stackRange = some range → range.2 ≤ firstUserStackTop

/-- What holds of a range of memory that a process may use: it is not empty, lies in the
program area or in the stack of one thread, and all its pages are open to user mode at
the four levels of the page tables of the process. -/
structure Process.Usable
    (process : Process) (tables : PageTables) (ptr len : UInt64) (access : UserAccess) :
    Prop where
  pointer : ptr ≠ 0
  length : len ≠ 0
  fits : ptr.toNat + len.toNat < 2 ^ 64
  inside : (process.addressSpace.layout.programStart.toNat ≤ ptr.toNat ∧
      ptr.toNat + len.toNat ≤ process.addressSpace.layout.programEnd.toNat) ∨
    ∃ thread ∈ process.threads.values, ∃ start top, thread.userStackStart = some start ∧
      thread.userStackTop = some top ∧ start.toNat ≤ ptr.toNat ∧
      ptr.toNat + len.toNat ≤ top.toNat
  root : ∀ root, process.addressSpace.p4Frame = some root → tables.activeP4Frame = root
  pages : ∀ page, page * 4096 < ptr.toNat + len.toNat → ptr.toNat < (page + 1) * 4096 →
    ∀ entry ∈ levelEntries tables tables.activeP4Frame (UInt64.ofNat (page * 4096)),
      Permits entry access

/-- The roots have eight stack slots each. -/
def PrivateP4Pool.Sized (pool : PrivateP4Pool) : Prop :=
  ∀ slot ∈ pool.slots, slot.stackInUse.length = 8

/-- All processes keep to user memory, and so do the slots for their stacks. -/
structure ProcessTable.Bounded (table : ProcessTable) : Prop where
  processes : ∀ pid process, table.get pid = some process → process.Bounded
  sized : table.privatePool.Sized

theorem Process.Bounded.keep {process changed : Process}
    (bounded : process.Bounded)
    (keeps : process.KeepsStacks changed) :
    changed.Bounded := by
  refine ⟨keeps.space ▸ bounded.area, fun tid thread range found isRange => ?_⟩
  obtain ⟨old, foundOld, oldRange, -⟩ := keeps.had found isRange
  exact bounded.top tid old range foundOld oldRange

namespace PrivateP4Pool.Sized

variable {pool : PrivateP4Pool}

/-- The first slot that passes a test changes, but not in size. -/
theorem modifyFirst
    (sized : pool.Sized)
    (keeps : ∀ slot, (change slot).stackInUse.length = slot.stackInUse.length) :
    Sized ⟨Vantara.modifyFirst test change pool.slots⟩ := by
  intro slot listed
  rcases mem_modifyFirst listed with old | ⟨old, oldListed, -, rfl⟩
  · exact sized slot old
  · rw [keeps]
    exact sized old oldListed

theorem take (sized : pool.Sized) (taken : pool.take = some (root, after)) : after.Sized := by
  obtain ⟨slot, -, ⟨⟩⟩ := Option.bind_eq_some_iff.mp taken
  exact sized.modifyFirst fun _ => rfl

theorem setStackSlot (sized : pool.Sized) : (pool.setStackSlot test stackTop taken).Sized := by
  unfold PrivateP4Pool.setStackSlot
  split
  · exact sized
  · exact sized.modifyFirst fun _ => List.length_set

/-- A reserved stack is one of the slots, and they all end in user memory. -/
theorem reserveStackSlot (sized : pool.Sized) (root mainStackTop : UInt64) :
    (pool.reserveStackSlot root mainStackTop).2.Sized ∧
      ∀ range, (pool.reserveStackSlot root mainStackTop).1 = some range →
        range.2 ≤ firstUserStackTop := by
  have marked : ∀ marks : List Bool, marks.length = 8 →
      (pool.updateMarks root fun _ => marks).Sized := fun marks length =>
    (PrivateP4Pool.sameRoots_updateMarks _ fun _ _ => length).sized sized
  rcases pool.reserveStackSlot_cases root mainStackTop with
    none | ⟨marks, main, isMarks, cases⟩
  · rw [none]
    exact ⟨sized, nofun⟩
  obtain ⟨slot, found, rfl⟩ := Option.map_eq_some_iff.mp isMarks
  have length := sized slot (List.mem_of_find?_eq_some found)
  rcases cases with full | ⟨index, isFree, reserved⟩
  · rw [full]
    refine ⟨marked _ ?_, nofun⟩
    rw [List.length_set, length]
  · rw [reserved]
    refine ⟨marked _ ?_, fun range isRange => ?_⟩
    · rw [List.length_set, List.length_set, length]
    · have inside : index < 8 := by
        have bound := (List.getElem?_eq_some_iff.mp isFree).1
        rwa [List.length_set, length] at bound
      obtain rfl := Option.some.inj isRange
      have isTop := (stackRangeForSlot_toNat ⟨index, inside⟩).2
      have limit : firstUserStackTop.toNat = 0x1400000 := by decide
      rw [UInt64.le_iff_toNat_le, limit]
      dsimp only at isTop
      omega

end PrivateP4Pool.Sized

namespace ProcessTable.Bounded

variable {table after : ProcessTable}

/-- One process changes. -/
theorem change {changed : Process}
    (bounded : table.Bounded)
    (gets : ∀ other, after.get other = if other = pid then some changed else table.get other)
    (sized : after.privatePool.Sized)
    (own : changed.Bounded) :
    after.Bounded := by
  refine ⟨fun other process found => ?_, sized⟩
  rw [gets] at found
  split_ifs at found
  · cases found
    exact own
  · exact bounded.processes other process found

theorem of_same
    (bounded : table.Bounded)
    (gets : ∀ pid, after.get pid = table.get pid)
    (sized : after.privatePool.Sized) :
    after.Bounded :=
  ⟨fun pid process found => bounded.processes pid process (gets pid ▸ found), sized⟩

/-- A thread is added on a stack that ends in user memory. -/
theorem admitThread
    {process : Process} {thread : Thread}
    (bounded : table.Bounded)
    (found : table.get process.pid = some process)
    (top : ∀ range, thread.stackRange = some range → range.2 ≤ firstUserStackTop)
    (admitted : table.admitThread process thread = some after) :
    after.Bounded := by
  obtain ⟨pool, changed, gets, space, threads⟩ := admitThread_spec admitted
  have own := bounded.processes process.pid process found
  refine bounded.change gets (pool ▸ bounded.sized)
    ⟨space ▸ own.area, fun tid other range isOther isRange => ?_⟩
  rw [threads] at isOther
  split_ifs at isOther
  · cases isOther
    exact top range isRange
  · exact own.top tid other range isOther isRange

theorem createUserThread
    (bounded : table.Bounded)
    (top : ∀ process, table.get pid = some process → stackTop ≤ firstUserStackTop) :
    (table.createUserThread pid entry stackStart stackTop initialRsp arg).2.Bounded := by
  unfold ProcessTable.createUserThread
  split
  · exact bounded
  next process found =>
  split_ifs
  · exact bounded
  dsimp only
  have reserved : table.reserveTid.2.Bounded := bounded.of_same (fun _ => rfl) bounded.sized
  split
  · next admitted isAdmitted =>
      refine @admitThread _ _ process _ reserved ?_ (fun range isRange => ?_) isAdmitted
      · rw [pid_of_get found]
        exact found
      · cases isRange
        exact top process found
  · exact reserved

theorem createManagedUserThread (bounded : table.Bounded) :
    (table.createManagedUserThread pid entry arg).2.Bounded := by
  unfold ProcessTable.createManagedUserThread
  split
  · exact bounded
  next process found =>
  split_ifs
  · exact bounded
  split
  · exact bounded
  next root isRoot =>
  obtain ⟨sized, slots⟩ :=
    bounded.sized.reserveStackSlot root process.addressSpace.layout.stackTop
  generalize table.privatePool.reserveStackSlot root process.addressSpace.layout.stackTop = slot
    at sized slots
  dsimp only
  have pooled : { table with privatePool := slot.2 }.Bounded :=
    bounded.of_same (fun _ => rfl) sized
  split
  · exact pooled
  next stackStart stackTop isRange =>
  split
  · exact pooled
  next initialRsp _ =>
  have reserved : { table with privatePool := slot.2 }.reserveTid.2.Bounded :=
    pooled.of_same (fun _ => rfl) sized
  split
  · next admitted isAdmitted =>
      refine @admitThread _ _ process _ reserved ?_ (fun range hasRange => ?_) isAdmitted
      · rw [pid_of_get found]
        exact found
      · cases hasRange
        exact slots (stackStart, stackTop) isRange
  · exact reserved.of_same (fun _ => rfl) sized.setStackSlot

/-- A process changes, and a stack that it hands back is returned. -/
theorem exchange
    (bounded : table.Bounded)
    (exchanges : Exchanges table after process changed slot) :
    after.Bounded := by
  have own := bounded.processes process.pid process exchanges.found
  refine bounded.change exchanges.gets ?_ (own.keep exchanges.settles.keepsThreads.stacks)
  rw [exchanges.pool]
  cases slot with
  | none => exact bounded.sized
  | some given => exact bounded.sized.setStackSlot

end ProcessTable.Bounded

namespace Kernel

variable {kernel : Kernel}

/-- An owned range ends in user memory. -/
theorem le_of_owned
    (bounded : kernel.table.Bounded)
    (owned : kernel.currentUserRangeOwned ptr rangeEnd = true) :
    rangeEnd ≤ firstUserStackTop ∧ ∃ process, kernel.currentProcess = some process ∧
      ((process.addressSpace.layout.programStart ≤ ptr ∧
          rangeEnd ≤ process.addressSpace.layout.programEnd) ∨
        ∃ thread ∈ process.threads.values, ∃ start top, thread.userStackStart = some start ∧
          thread.userStackTop = some top ∧ start ≤ ptr ∧ rangeEnd ≤ top) := by
  unfold currentUserRangeOwned at owned
  cases current : kernel.currentProcess with
  | none =>
    rw [current] at owned
    cases owned
  | some process =>
    rw [current] at owned
    simp only [Bool.or_eq_true, Bool.and_eq_true, decide_eq_true_eq, List.any_eq_true] at owned
    have own : process.Bounded := by
      obtain ⟨pid, -, found⟩ := Option.bind_eq_some_iff.mp current
      exact bounded.processes pid process found
    rcases owned with ⟨starts, stops⟩ | ⟨thread, listed, within⟩
    · exact ⟨UInt64.le_trans stops own.area, process, rfl, .inl ⟨starts, stops⟩⟩
    · split at within
      · next start top isStart isTop =>
          simp only [Bool.and_eq_true, decide_eq_true_eq] at within
          have isRange : thread.stackRange = some (start, top) := by
            simp [Thread.stackRange, isStart, isTop]
          have below := own.top thread.tid thread (start, top)
            (ThreadStore.mem_values_iff.mp listed) isRange
          exact ⟨UInt64.le_trans within.2 below, process, rfl,
            .inr ⟨thread, listed, start, top, isStart, isTop, within.1, within.2⟩⟩
      · cases within

/-- A process is started on memory that ends in user memory. -/
theorem bounded_registered
    {table : ProcessTable} {space : AddressSpace}
    (bounded : table.Bounded)
    (now : UInt64) (program : UserProgram)
    (area : space.layout.programEnd ≤ firstUserStackTop)
    (top : space.layout.stackTop ≤ firstUserStackTop) :
    (table.registered now program space).Bounded := by
  obtain ⟨process, gets, pool, isSpace, threads⟩ := get_registered table now program space
  refine bounded.change gets (pool ▸ bounded.sized)
    ⟨isSpace ▸ area, fun tid thread range found isRange => ?_⟩
  obtain ⟨-, isStart, isTop⟩ := threads tid thread found
  simp only [Thread.stackRange, isStart, isTop, Option.some.injEq] at isRange
  rw [← isRange]
  exact top

theorem bounded_startProgram
    (bounded : kernel.table.Bounded)
    (program : UserProgram) (loaded : LoadedProgram) :
    (kernel.startProgram program loaded true).2.table.Bounded := by
  obtain ⟨index, area, isTop, -⟩ := memoryLayout_spec program.pid loaded.imageLen
  have area : (memoryLayoutForPidWithProgramSize program.pid loaded.imageLen).programEnd ≤
      firstUserStackTop := UInt64.le_trans area (by decide)
  have top : (memoryLayoutForPidWithProgramSize program.pid loaded.imageLen).stackTop ≤
      firstUserStackTop := by
    have slotTop := (stackRangeForSlot_toNat index).2
    have limit : firstUserStackTop.toNat = 0x1400000 := by decide
    rw [isTop, UInt64.le_iff_toNat_le]
    omega
  unfold startProgram registerExec addressSpaceFor
  dsimp only
  generalize memoryLayoutForPidWithProgramSize program.pid loaded.imageLen = layout at area top ⊢
  cases taken : kernel.table.privatePool.take with
  | none =>
    dsimp only [AddressSpace.kernelSharedUser]
    have registered := @bounded_registered _ (.kernelSharedUser loaded.entry
      { layout with
        stackTop := firstUserStackTop
        stackStart := firstUserStackTop - userStackSize })
      bounded kernel.ticks program area (UInt64.le_refl firstUserStackTop)
    exact registered.of_same (fun _ => rfl) registered.sized
  | some given =>
    dsimp only [AddressSpace.verifiedPreparedUser]
    have prepared : { kernel.table with privatePool := given.2 }.Bounded :=
      bounded.of_same (fun _ => rfl) (bounded.sized.take taken)
    have registered := @bounded_registered _ (.verifiedPreparedUser loaded.entry layout given.1)
      prepared kernel.ticks program area top
    exact registered.of_same (fun _ => rfl) registered.sized.setStackSlot

theorem bounded_reschedule (bounded : kernel.table.Bounded) (rescheduling : Rescheduling) :
    (kernel.reschedule rescheduling).table.Bounded := by
  refine ⟨fun pid changed found => ?_, bounded.sized⟩
  obtain ⟨process, isFound, keeps⟩ := keepsStacks_reschedule found
  exact (bounded.processes pid process isFound).keep keeps

theorem bounded_boot (images : List UserlandImage) (frames : List UInt64) :
    (boot images frames).table.Bounded := by
  have plain : (plainTable.values.all fun process =>
      decide (process.addressSpace.layout.programEnd ≤ firstUserStackTop) &&
        process.threads.values.all fun thread =>
          thread.stackRange.all fun range => decide (range.2 ≤ firstUserStackTop)) = true := by
    decide +kernel
  obtain ⟨next, isTable⟩ := boot_table images frames
  rw [isTable]
  refine ⟨fun pid process found => ?_, fun slot listed => ?_⟩
  · have checked := List.all_eq_true.mp plain process (KeyedStore.mem_of_get found)
    simp only [Bool.and_eq_true, decide_eq_true_eq, List.all_eq_true] at checked
    refine ⟨checked.1, fun tid thread range isThread isRange => ?_⟩
    have below := checked.2 thread (ThreadStore.mem_values_iff.mpr ?_)
    · rw [isRange] at below
      exact of_decide_eq_true below
    · rw [ThreadStore.tid_of_get isThread]
      exact isThread
  · obtain ⟨frame, -, rfl⟩ := List.mem_map.mp listed
    exact List.length_replicate

/-- The steps keep processes to user memory. -/
theorem stackInvariant_bounded : StackInvariant ProcessTable.Bounded where
  current _ _ _ bounded := bounded.of_same (fun _ => rfl) bounded.sized
  create _ _ _ _ _ _ _ bounded _ _ owned :=
    -- The new stack is part of memory that the process has already.
    bounded.createUserThread fun _ _ => (le_of_owned bounded owned).1
  spawn _ _ _ _ bounded _ := bounded.createManagedUserThread
  exchange bounded _ := bounded.exchange
  start _ program loaded bounded := bounded_startProgram bounded program loaded
  reschedule _ rescheduling bounded := bounded_reschedule bounded rescheduling

/-- Programs are started, and threads created, ended and joined in any order: if the tables are
where physical memory is mapped, the check of a range comes to an end for whichever thread
runs, and a range that it accepts is usable by its process. -/
theorem user_ranges_checked (images : List UserlandImage) (frames : List UInt64)
    (actions : List StackAction) (pid : Option Pid)
    (tid : Option Tid) (tables : PageTables)
    (mapped : ∀ offset, tables.physicalMemoryOffset = some offset →
      tables.Mapped offset 3 tables.activeP4Frame)
    (ptr len : UInt64) (access : UserAccess) :
    let kernel := (actions.foldl stackStep (boot images frames)).setCurrentUser pid tid
    ∃ answer, kernel.checkUserRange tables ptr len access = some answer ∧
      ∀ range, answer = .ok range → range = ⟨ptr, len⟩ ∧
        ∃ process, kernel.currentProcess = some process ∧
          process.Usable tables ptr len access := by
  intro kernel
  have bounded : kernel.table.Bounded := by
    exact stackInvariant_bounded.current _ pid tid
      (stackInvariant_bounded.run (bounded_boot images frames) actions)
  unfold checkUserRange
  by_cases zero : ptr = 0 ∨ len = 0
  · exact ⟨_, if_pos zero, nofun⟩
  rw [if_neg zero]
  obtain ⟨pointer, length⟩ := not_or.mp zero
  cases added : Word.checkedAdd ptr len with
  | none => exact ⟨_, rfl, nofun⟩
  | some rangeEnd =>
    obtain ⟨fits, isEnd⟩ := Word.toNat_of_checkedAdd added
    dsimp only
    by_cases foreign : (!kernel.currentUserRangeOwned ptr rangeEnd) = true
    · exact ⟨_, if_pos foreign, nofun⟩
    rw [if_neg foreign]
    have owned : kernel.currentUserRangeOwned ptr rangeEnd = true := by simpa using foreign
    obtain ⟨below, process, current, inside⟩ := le_of_owned bounded owned
    have limit : firstUserStackTop.toNat = 0x1400000 := by decide
    rw [UInt64.le_iff_toNat_le] at below
    obtain ⟨verdict, ended, accepted⟩ := @activeUserRangeAccessible_spec tables
      process.addressSpace ptr len mapped access (by omega)
    rw [current, Option.map_some, ended]
    cases verdict with
    | false => exact ⟨_, rfl, nofun⟩
    | true =>
      refine ⟨_, rfl, fun range isRange => ⟨(Except.ok.inj isRange).symm, process, rfl, ?_⟩⟩
      obtain ⟨root, pages⟩ := accepted rfl
      simp only [UInt64.le_iff_toNat_le, isEnd] at inside
      exact ⟨pointer, length, fits, inside, root, pages⟩

namespace Sample

/-- Page tables that open all of memory to user mode. -/
def openTables : PageTables := ⟨0x1000, rfl, fun _ _ => 0x2007, some 0x10000000000⟩

/-- The machine while the first thread of the process runs. -/
def rangeMachine : Kernel :=
  ((stackActions 4).foldl stackStep stackMachine).setCurrentUser (some 1) (some 4)

/-- A write across the boundary of two pages is accepted. -/
theorem checkUserRange_openTables :
    rangeMachine.checkUserRange openTables 0x1000ff0 0x20 .write =
      some (.ok ⟨0x1000ff0, 0x20⟩) := by
  have walked : pagesAccessible openTables 0x10000000000 0x1000 .write 0x1000000 0x1001000 =
      some true := by
    rw [pagesAccessible, pagesAccessible]
    decide +kernel
  have accessible : activeUserRangeAccessible openTables
      (rangeMachine.currentProcess.map Process.addressSpace) 0x1000ff0 0x20 .write =
        some true := by
    have current : rangeMachine.currentProcess.map Process.addressSpace =
        some (.verifiedPreparedUser 0x1000000
          (memoryLayoutForPidWithProgramSize 1 0x8000) 0x1000) := by
      decide +kernel
    rw [current]
    exact walked
  unfold checkUserRange
  rw [accessible]
  decide +kernel

end Sample

/-- The range belongs to the process that asked. -/
theorem user_ranges_checked_across_pages :
    Sample.openTables.Mapped 0x10000000000 3 Sample.openTables.activeP4Frame ∧
    ∃ process, Sample.rangeMachine.currentProcess = some process ∧
      process.Usable Sample.openTables 0x1000ff0 0x20 .write := by
  have child : childTableFrame 0x2007 = some 0x2000 := by decide
  have below : ∀ levels, Sample.openTables.Mapped 0x10000000000 levels 0x2000 := by
    intro levels
    induction levels with
    | zero => exact .inl (by decide)
    | succ levels ih =>
      exact ⟨.inl (by decide), fun _ _ found => Option.some.inj (child.symm.trans found) ▸ ih⟩
  have mapped : Sample.openTables.Mapped 0x10000000000 3 Sample.openTables.activeP4Frame :=
    ⟨.inl (by decide), fun _ _ found => Option.some.inj (child.symm.trans found) ▸ below 2⟩
  obtain ⟨answer, isAnswer, accepted⟩ := user_ranges_checked [⟨"init"⟩] [0x1000]
    (Sample.stackActions 4) (some 1) (some 4) Sample.openTables
    (fun _ isOffset => Option.some.inj isOffset ▸ mapped) 0x1000ff0 0x20 .write
  have isOk := Option.mem_unique isAnswer Sample.checkUserRange_openTables
  exact ⟨mapped, (accepted _ isOk).2⟩

end Kernel

end Vantara
