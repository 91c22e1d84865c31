import Vantara.Properties.ThreadStacks

/-!
# Records of threads

A process has room for sixteen threads and eight stacks.  The stack of a joined
thread can be used again, but its record is kept, so a process may end up with
free stacks and no room for another thread.
-/

namespace Vantara

open Foundation

/-! ## Threads that a process gets -/

namespace ProcessTable

variable {table after : ProcessTable}

/-- The process may have got a thread, which it owns. -/
def MayAdmit (process changed : Process) : Prop :=
  changed = process ∨ ∃ thread threads, thread.processId = process.pid ∧
    process.threads.insert thread = some threads ∧
      changed = (process.setThreads threads).refreshStateFromThreads

/-- Every process is the one it was or has got a thread. -/
def Grows (table after : ProcessTable) : Prop :=
  ∀ pid changed, after.get pid = some changed →
    ∃ process, table.get pid = some process ∧ MayAdmit process changed

theorem Grows.of_same (gets : ∀ pid, after.get pid = table.get pid) : table.Grows after :=
  fun pid changed found => ⟨changed, gets pid ▸ found, .inl rfl⟩

theorem grows_admitThread
    {process : Process} {thread : Thread}
    (found : table.get process.pid = some process)
    (owner : thread.processId = process.pid)
    (admitted : table.admitThread process thread = some after) :
    table.Grows after := by
  obtain ⟨threads, inserted, ⟨⟩⟩ := Option.bind_eq_some_iff.mp admitted
  intro other later isLater
  rw [get_enqueueReady, get_putProcess] at isLater
  split_ifs at isLater with same
  · cases isLater
    exact ⟨process, same ▸ found, .inr ⟨thread, threads, owner, inserted, rfl⟩⟩
  · exact ⟨later, isLater, .inl rfl⟩

theorem grows_createUserThread :
    table.Grows (table.createUserThread pid entry stackStart stackTop initialRsp arg).2 := by
  unfold ProcessTable.createUserThread
  split
  · exact .of_same fun _ => rfl
  next process found =>
  obtain rfl := pid_of_get found
  split_ifs
  · exact .of_same fun _ => rfl
  dsimp only
  split
  · next admitted isAdmitted =>
      exact @grows_admitThread table.reserveTid.2 _ process _ found rfl isAdmitted
  · exact .of_same fun _ => rfl

theorem grows_createManagedUserThread :
    table.Grows (table.createManagedUserThread pid entry arg).2 := by
  unfold ProcessTable.createManagedUserThread
  split
  · exact .of_same fun _ => rfl
  next process found =>
  obtain rfl := pid_of_get found
  split_ifs
  · exact .of_same fun _ => rfl
  split
  · exact .of_same fun _ => rfl
  next root isRoot =>
  generalize table.privatePool.reserveStackSlot root process.addressSpace.layout.stackTop = slot
  dsimp only
  split
  · exact .of_same fun _ => rfl
  split
  · exact .of_same fun _ => rfl
  split
  · next admitted isAdmitted =>
      exact @grows_admitThread { table with privatePool := slot.2 }.reserveTid.2 _ process _
        found rfl isAdmitted
  · exact .of_same fun _ => rfl

end ProcessTable

/-! ## The main thread -/

/-- The main thread belongs to the process and has the stack with which it started. -/
structure Process.MainPlaced (process : Process) : Prop where
  owner : process.threads.main.processId = process.pid
  managed : process.threads.main.kernelManagedStack = false
  slot : ∀ root, process.addressSpace.p4Frame = some root → ∃ index : Fin 8,
    process.threads.main.stackRange = some (stackRangeForSlot index) ∧
      process.addressSpace.layout.stackTop = (stackRangeForSlot index).2

namespace Process.MainPlaced

variable {process changed : Process}

theorem keep (placed : process.MainPlaced) (keeps : process.KeepsThreads changed) :
    changed.MainPlaced := by
  have isMain := changed.threads.get_mainTid
  rw [keeps.mainTid] at isMain
  obtain ⟨old, isOld, owner, stack⟩ := keeps.threads _ _ isMain
  obtain rfl := Option.mem_unique isOld process.threads.get_mainTid
  have same : changed.threads.main.SameStack process.threads.main := by
    rcases stack with same | ⟨managed, -⟩
    · exact same
    · rw [placed.managed] at managed
      cases managed
  refine ⟨?_, same.managed.trans placed.managed, ?_⟩
  · rw [owner, placed.owner, keeps.pid]
  · rw [same.range, keeps.space]
    exact placed.slot

theorem gain (placed : process.MainPlaced) (admits : ProcessTable.MayAdmit process changed) :
    changed.MainPlaced := by
  rcases admits with rfl | ⟨thread, threads, -, inserted, rfl⟩
  · exact placed
  obtain ⟨fresh, mainTid, gets⟩ := ThreadStore.insert_eq_some inserted
  have isMain := threads.get_mainTid
  rw [mainTid, gets, if_neg, process.threads.get_mainTid] at isMain
  · have same : threads.main = process.threads.main := (Option.some.inj isMain).symm
    refine ⟨?_, ?_, ?_⟩
    · exact (congrArg Thread.processId same).trans placed.owner
    · exact (congrArg Thread.kernelManagedStack same).trans placed.managed
    · intro root isRoot
      obtain ⟨index, isRange, isTop⟩ := placed.slot root isRoot
      exact ⟨index, (congrArg Thread.stackRange same).trans isRange, isTop⟩
  · intro isThread
    rw [← isThread, process.threads.get_mainTid] at fresh
    cases fresh

end Process.MainPlaced

/-- The main threads of all processes are where they started. -/
def ProcessTable.MainsPlaced (table : ProcessTable) : Prop :=
  ∀ pid process, table.get pid = some process → process.MainPlaced

namespace ProcessTable.MainsPlaced

variable {table after : ProcessTable}

theorem grow (placed : table.MainsPlaced) (grows : table.Grows after) : after.MainsPlaced := by
  intro pid changed found
  obtain ⟨process, isProcess, admits⟩ := grows pid changed found
  exact (placed pid process isProcess).gain admits

theorem exchange
    (placed : table.MainsPlaced)
    (exchanges : Exchanges table after process changed slot) :
    after.MainsPlaced := by
  intro other later isLater
  rw [exchanges.gets] at isLater
  split_ifs at isLater
  · cases isLater
    exact (placed _ process exchanges.found).keep exchanges.settles.keepsThreads
  · exact placed other later isLater

end ProcessTable.MainsPlaced

namespace Kernel

variable {kernel : Kernel}

theorem callInvariant_mainsPlaced : CallInvariant ProcessTable.MainsPlaced [] where
  current _ _ _ placed := placed
  create _ _ _ _ _ _ _ placed _ _ _ := placed.grow ProcessTable.grows_createUserThread
  spawn _ _ _ _ placed _ := placed.grow ProcessTable.grows_createManagedUserThread
  exchange placed _ := placed.exchange

theorem keepsThreads_startRun (process : Process) (now : UInt64) :
    process.KeepsThreads (process.startRun now) := by
  refine ⟨rfl, rfl, Process.mainTid_startRun, fun tid thread found => ?_⟩
  obtain ⟨old, foundOld, same, owner⟩ := threads_startRun found
  exact ⟨old, foundOld, owner, .inl same⟩

theorem mainPlaced_newProcess
    {table : ProcessTable} {space : AddressSpace} {name path : String}
    (slot : ∀ root, space.p4Frame = some root → ∃ index : Fin 8,
      (space.layout.stackStart, space.layout.stackTop) = stackRangeForSlot index) :
    (table.newProcess pid parent name path arg jobMode space tid).MainPlaced := by
  unfold ProcessTable.newProcess
  refine ⟨congrArg Thread.processId ThreadStore.main_withMain,
    congrArg Thread.kernelManagedStack ThreadStore.main_withMain, fun root isRoot => ?_⟩
  obtain ⟨index, isSlot⟩ := slot root isRoot
  refine ⟨index, (congrArg Thread.stackRange ThreadStore.main_withMain).trans ?_,
    congrArg Prod.snd isSlot⟩
  exact congrArg some isSlot

/-- A process is started with its main thread on the stack of its layout. -/
theorem mainsPlaced_registered
    {table : ProcessTable} {space : AddressSpace}
    (placed : table.MainsPlaced)
    (now : UInt64) (program : UserProgram)
    (slot : ∀ root, space.p4Frame = some root → ∃ index : Fin 8,
      (space.layout.stackStart, space.layout.stackTop) = stackRangeForSlot index) :
    (table.registered now program space).MainsPlaced := by
  have created : ∃ process : Process, process.MainPlaced ∧ ∀ other,
      (table.reserved program space).get other =
        if other = program.pid then some process else table.get other := by
    unfold ProcessTable.reserved ProcessTable.createReservedProcessWithJobMode
    dsimp only
    split_ifs
    all_goals
      exact ⟨_, mainPlaced_newProcess slot, fun _ => ProcessTable.get_putProcess⟩
  obtain ⟨process, isPlaced, gets⟩ := created
  intro other changed found
  rw [ProcessTable.registered, ProcessTable.get_startProcessRun
    ((gets program.pid).trans (if_pos rfl)), gets] at found
  split_ifs at found
  · cases found
    exact isPlaced.keep (keepsThreads_startRun process now)
  · exact placed other changed found

theorem mainsPlaced_startProgram
    (placed : kernel.table.MainsPlaced)
    (program : UserProgram) (loaded : LoadedProgram) :
    (kernel.startProgram program loaded true).2.table.MainsPlaced := by
  obtain ⟨index, -, isTop, isStart⟩ := memoryLayout_spec program.pid loaded.imageLen
  unfold startProgram registerExec addressSpaceFor
  dsimp only
  generalize memoryLayoutForPidWithProgramSize program.pid loaded.imageLen = layout at *
  cases taken : kernel.table.privatePool.take with
  | none =>
    dsimp only [AddressSpace.kernelSharedUser]
    exact @mainsPlaced_registered _ (.kernelSharedUser loaded.entry
      { layout with
        stackTop := firstUserStackTop
        stackStart := firstUserStackTop - userStackSize }) placed kernel.ticks program nofun
  | some given =>
    dsimp only [AddressSpace.verifiedPreparedUser]
    have prepared : { kernel.table with privatePool := given.2 }.MainsPlaced := placed
    have registered := @mainsPlaced_registered _
      (.verifiedPreparedUser loaded.entry layout given.1) prepared kernel.ticks program
      fun _ _ => ⟨index, Prod.ext isStart isTop⟩
    exact fun pid process found => registered pid process found

/-- The step leaves every thread to the process that owns it. -/
def StackAction.KeepsOwners : StackAction → Prop
  | .start _ _ => True
  | .call _ _ _ _ => True
  | .reschedule rescheduling => ∀ pid thread,
      (rescheduling.change pid thread).processId = thread.processId

theorem mainsPlaced_reschedule
    (placed : kernel.table.MainsPlaced)
    (owners : (StackAction.reschedule rescheduling).KeepsOwners) :
    (kernel.reschedule rescheduling).table.MainsPlaced := by
  intro pid changed found
  obtain ⟨process, isFound, rfl⟩ := found_of_reschedule found
  refine (placed pid process isFound).keep (.of_change
    (fun _ => rescheduling.change process.pid) rfl rfl rfl
    (fun _ => ThreadStore.get_modifyAll _ _ _) fun _ thread => ?_)
  exact ⟨owners process.pid thread, rescheduling.keepsStack process.pid thread⟩

theorem mainsPlaced_boot (images : List UserlandImage) (frames : List UInt64) :
    (boot images frames).table.MainsPlaced := by
  have plain : (plainTable.values.all fun process =>
      decide (process.threads.main.processId = process.pid) &&
        decide (process.threads.main.kernelManagedStack = false) &&
        decide (process.addressSpace.p4Frame = none)) = true := by
    decide +kernel
  obtain ⟨next, isTable⟩ := boot_table images frames
  rw [isTable]
  intro pid process found
  have checked := List.all_eq_true.mp plain process (KeyedStore.mem_of_get found)
  simp only [Bool.and_eq_true, decide_eq_true_eq] at checked
  obtain ⟨⟨owner, managed⟩, noRoot⟩ := checked
  refine ⟨owner, managed, fun root isRoot => ?_⟩
  rw [noRoot] at isRoot
  cases isRoot

theorem mainsPlaced_run
    (placed : kernel.table.MainsPlaced)
    (actions : List StackAction)
    (owners : ∀ action ∈ actions, action.KeepsOwners) :
    (actions.foldl stackStep kernel).table.MainsPlaced := by
  induction actions generalizing kernel with
  | nil => exact placed
  | cons action actions ih =>
    refine ih ?_ fun later listed => owners later (List.mem_cons_of_mem _ listed)
    cases action with
    | start program loaded => exact mainsPlaced_startProgram placed program loaded
    | call pid tid _ call =>
      have current : (kernel.setCurrentUser (some pid) (some tid)).table.MainsPlaced := placed
      exact callInvariant_mainsPlaced.serveThread current callerLives_nil call
    | reschedule =>
      exact mainsPlaced_reschedule placed (owners _ List.mem_cons_self)

end Kernel

/-! ## Room for another thread -/

/-- The marked slots include the one of the main stack. -/
theorem Process.MainPlaced.marked
    {process : Process} {marks : List Bool}
    (placed : process.MainPlaced)
    (stacked : process.Stacked marks)
    (isRoot : process.addressSpace.p4Frame = some root) :
    ∃ index : Fin 8, stackSlotIndex process.addressSpace.layout.stackTop = some index.val ∧
      marks[index.val]? = some true := by
  obtain ⟨index, isRange, isTop⟩ := placed.slot root isRoot
  obtain ⟨above, nonempty, isIndex, -⟩ := stackRangeForSlot_spec index
  refine ⟨index, isTop ▸ isIndex, ?_⟩
  rcases stacked.placed _ _ _ process.threads.get_mainTid isRange with
    ⟨-, -, below⟩ | ⟨own, isOwn, marked⟩
  · -- The slot does not lie in the program area.
    exact absurd (UInt64.lt_of_le_of_lt above nonempty) (UInt64.not_lt.mpr below)
  · have isOwnIndex := (stackRangeForSlot_spec own).2.2.1
    rw [← isOwn, isIndex] at isOwnIndex
    rw [Option.some.inj isOwnIndex]
    exact marked

/-- A free slot is found if there is one. -/
theorem PrivateP4Pool.reserveStackSlot_of_free
    {pool : PrivateP4Pool} {marks : List Bool} {main free : Nat}
    (isMarks : pool.marksOf root = some marks)
    (isMain : stackSlotIndex mainStackTop = some main)
    (marked : marks[main]? = some true)
    (isFree : marks[free]? = some false) :
    ∃ index, index < marks.length ∧
      (pool.reserveStackSlot root mainStackTop).1 = some (stackRangeForSlot index) := by
  obtain ⟨slot, found, rfl⟩ := Option.map_eq_some_iff.mp isMarks
  have isFound : pool.slots.find? (fun slot => decide (slot.p4Frame = root) && slot.inUse) =
      some slot := found
  obtain ⟨inside, isTrue⟩ := List.getElem?_eq_some_iff.mp marked
  have sameMarks : slot.stackInUse.set main true = slot.stackInUse := by
    rw [← isTrue, List.set_getElem_self]
  unfold reserveStackSlot
  dsimp only
  rw [isFound, isMain]
  dsimp only
  rw [sameMarks]
  cases first : slot.stackInUse.findIdx? (!·) with
  | none =>
    have taken := List.findIdx?_eq_none_iff.mp first false (List.mem_of_getElem? isFree)
    cases taken
  | some index =>
    exact ⟨index, (List.findIdx?_eq_some_iff_getElem.mp first).1, rfl⟩

/-- Below a slot's top there is room for the return address. -/
theorem checkedSub_stackRangeForSlot (index : Fin 8) :
    (Word.checkedSub ((stackRangeForSlot index).2 &&& ~~~0xf) 8).isSome = true := by
  revert index
  decide +kernel

namespace ThreadStore

theorem insert_isSome_iff
    {threads : ThreadStore} {thread : Thread}
    (owner : thread.processId = threads.main.processId) :
    (threads.insert thread).isSome = true ↔
      threads.values.length < maxThreadsPerProcess ∧ threads.get thread.tid = none := by
  unfold insert
  split_ifs with refused
  · simp only [owner, ne_eq, not_true, false_or] at refused
    refine iff_of_false Bool.false_ne_true fun free => ?_
    simp [free.2, Nat.not_le.mpr free.1] at refused
  · simpa [owner] using refused

end ThreadStore

/-- With a free slot, a thread is created exactly if there is a record and an identifier for
it. -/
theorem ProcessTable.createManagedUserThread_iff
    {table : ProcessTable} {process : Process} {marks : List Bool} {free : Nat}
    (found : table.get pid = some process)
    (isUser : process.kind = .userProcess)
    (isRoot : process.addressSpace.p4Frame = some root)
    (placed : process.MainPlaced)
    (stacked : process.Stacked marks)
    (isMarks : table.privatePool.marksOf root = some marks)
    (isFree : marks[free]? = some false) :
    (table.createManagedUserThread pid entry arg).1 = some table.nextTid ↔
      process.threads.values.length < maxThreadsPerProcess ∧
        process.threads.get table.nextTid = none := by
  obtain ⟨main, isMain, marked⟩ := placed.marked stacked isRoot
  obtain ⟨index, inside, reserved⟩ :=
    PrivateP4Pool.reserveStackSlot_of_free isMarks isMain marked isFree
  have inSlots : index < 8 := stacked.length ▸ inside
  obtain ⟨initialRsp, isRsp⟩ :=
    Option.isSome_iff_exists.mp (checkedSub_stackRangeForSlot ⟨index, inSlots⟩)
  dsimp only at isRsp
  generalize stackRangeForSlot index = range at reserved isRsp
  obtain ⟨stackStart, stackTop⟩ := range
  unfold createManagedUserThread
  rw [found]
  dsimp only
  rw [if_neg (by simp [isUser]), isRoot]
  dsimp only
  rw [reserved]
  dsimp only
  rw [isRsp]
  dsimp only
  have admits : ∀ (after : ProcessTable) (thread : Thread), thread.tid = table.nextTid →
      thread.processId = pid → ((after.admitThread process thread).isSome = true ↔
        process.threads.values.length < maxThreadsPerProcess ∧
          process.threads.get table.nextTid = none) := by
    intro after thread isTid isOwner
    rw [← isTid, ← ThreadStore.insert_isSome_iff
      (isOwner.trans ((pid_of_get found).symm.trans placed.owner.symm))]
    unfold admitThread
    cases process.threads.insert thread <;> rfl
  split
  · next admitted =>
      refine iff_of_true rfl ((admits _ _ ?_ ?_).mp (Option.isSome_iff_exists.mpr ⟨_, admitted⟩))
      · rfl
      · rfl
  · next refused =>
      refine iff_of_false (by simp) fun free =>
        Option.ne_none_iff_isSome.mpr ((admits _ _ ?_ ?_).mpr free) refused
      · rfl
      · rfl

namespace Kernel

/-- Programs are started, and threads created, ended and joined in any order: a process
with its own page tables and a free stack slot gets another thread precisely if it has
fewer than sixteen records of threads and the next identifier is not among them. -/
theorem spawn_succeeds
    {images : List UserlandImage} {frames : List UInt64}
    (distinct : (bootPool frames).roots.Nodup)
    (actions : List StackAction)
    (owners : ∀ action ∈ actions, action.KeepsOwners)
    {kernel : Kernel} {pid : Pid} {tid : Tid} {env : UserEnv} {entry arg : UInt64}
    {process : Process} {root : UInt64}
    (reached : kernel =
      (actions.foldl stackStep (boot images frames)).setCurrentUser (some pid) (some tid))
    (found : kernel.table.get pid = some process)
    (isUser : process.kind = .userProcess)
    (isRoot : process.addressSpace.p4Frame = some root)
    (isFree : ∃ slot ∈ kernel.table.privatePool.slots, slot.p4Frame = root ∧
      ∃ index : Fin 8, slot.stackInUse[index.val]? = some false)
    (valid : kernel.checkEntry env entry = .ok ()) :
    (kernel.spawnUserThread env entry arg).1 = .ok kernel.table.nextTid.toUInt64 ↔
      process.threads.values.length < maxThreadsPerProcess ∧
        process.threads.get kernel.table.nextTid = none := by
  have stacked : kernel.table.Stacked [] := by
    rw [reached]
    exact stackInvariant_stacked.current _ _ _
      (stackInvariant_stacked.run (stacked_boot images distinct) actions)
  have placed : kernel.table.MainsPlaced := by
    rw [reached]
    exact mainsPlaced_run (mainsPlaced_boot images frames) actions owners
  have current : kernel.currentUserProcess = some pid := by
    rw [reached]
    rfl
  obtain ⟨marks, isMarks, isStacked⟩ := stacked.processes pid process root
    List.not_mem_nil found isRoot
  obtain ⟨slot, listed, sameRoot, index, free⟩ := isFree
  have sameSlot := stacked.marks_of_mem isMarks listed sameRoot
  rw [← @ProcessTable.createManagedUserThread_iff pid root entry arg _ _ _ _ found isUser isRoot
    (placed pid process found) isStacked isMarks (sameSlot ▸ free)]
  unfold spawnUserThread
  rw [valid, current]
  dsimp only
  cases (kernel.table.createManagedUserThread pid entry arg).1 with
  | none => exact iff_of_false nofun nofun
  | some created => simp [tidAnswer, ← UInt64.toNat_inj, ← UInt32.toNat_inj]

namespace Sample

/-- The main thread creates a thread, which ends, and joins it. -/
def spawnRound (tid : Tid) : List StackAction :=
  [.call 1 4 env (.spawn 0x1000100 0), .call 1 tid env .exit,
    .call 1 4 env (.join (frame 31 tid.toUInt64 0 0 0))]

/-- A program that does so a number of times. -/
def spawnRounds (count : Nat) : List StackAction :=
  .start ⟨1, none, "init", "/bin/init", .empty, .foreground⟩ ⟨0x1000000, 0x8000⟩ ::
    (List.range count).flatMap fun round => spawnRound (5 + UInt32.ofNat round)

/-- The program is about to create the next thread. -/
def spawning (count : Nat) : Kernel :=
  ((spawnRounds count).foldl stackStep stackMachine).setCurrentUser (some 1) (some 4)

def spawningProcess : Process := ((spawning 2).table.get 1).get (by decide +kernel)

end Sample

/-- After two rounds there is room for further records. -/
theorem spawn_succeeds_third :
    (Sample.spawning 2).table.get 1 = some Sample.spawningProcess ∧
      Sample.spawningProcess.threads.values.length = 3 ∧
      ((Sample.spawning 2).spawnUserThread Sample.env 0x1000100 0).1 =
        .ok (Sample.spawning 2).table.nextTid.toUInt64 := by
  have found : (Sample.spawning 2).table.get 1 = some Sample.spawningProcess :=
    (Option.some_get _).symm
  have isRoot : Sample.spawningProcess.addressSpace.p4Frame = some 0x1000 := by decide +kernel
  refine ⟨found, by decide +kernel, ?_⟩
  refine @spawn_succeeds [⟨"init"⟩] [0x1000] (by decide +kernel) (Sample.spawnRounds 2) ?_
    (Sample.spawning 2) 1 4 Sample.env 0x1000100 0 Sample.spawningProcess 0x1000 rfl found
    (by decide +kernel) isRoot ?_ (by decide +kernel) |>.mpr
    ⟨by decide +kernel, by decide +kernel⟩
  · intro action listed
    rcases List.mem_cons.mp listed with rfl | later
    · trivial
    · obtain ⟨round, -, inRound⟩ := List.mem_flatMap.mp later
      simp only [Sample.spawnRound, List.mem_cons, List.not_mem_nil, or_false] at inRound
      rcases inRound with rfl | rfl | rfl <;> trivial
  · decide +kernel

/-- After fifteen rounds all threads but one are reaped and seven stacks are free, but
no thread can be created. -/
theorem spawn_fails_after_fifteen :
    ((Sample.spawning 15).table.get 1).map (fun process =>
        (process.threads.values.countP fun thread => decide (thread.state ≠ .reaped))) = some 1 ∧
      ((Sample.spawning 15).table.get 1).map (·.addressSpace.p4Frame) = some (some 0x1000) ∧
      (Sample.spawning 15).table.privatePool.slots.map
        (fun slot => (slot.p4Frame, slot.stackInUse)) =
          [(0x1000, [true, false, false, false, false, false, false, false])] ∧
      (Sample.spawning 15).checkEntry Sample.env 0x1000100 = .ok () ∧
      ((Sample.spawning 15).spawnUserThread Sample.env 0x1000100 0).1 =
        .error .invalidArgument := by
  decide +kernel

end Kernel

end Vantara
