import Vantara.Ledger.Card
import Vantara.Lifecycle.ScheduleMoves

/-!
# What the operations of the process table do to the sheet

Scheduling, waiting, stopping and collecting leave the sheet alone.  The lemmas
ask for a tidy sheet where an operation trusts the state of a thread to tell it
that the process has not ended.
-/

namespace Vantara

namespace PrivateP4Pool

/-- The roots of a pool never change. -/
theorem roots_modifyFirst {slots : List PreparedP4Slot}
    (sameRoot : ∀ slot, (change slot).p4Frame = slot.p4Frame) :
    PrivateP4Pool.roots ⟨modifyFirst test change slots⟩ = PrivateP4Pool.roots ⟨slots⟩ := by
  simp only [roots]
  induction slots with
  | nil => rfl
  | cons first rest ih =>
    rw [modifyFirst]
    split_ifs
    · simp [sameRoot]
    · simp [ih]

/-- Changes of the stack slots of a root leave the roots in use alone. -/
theorem used_modifyFirst {slots : List PreparedP4Slot}
    (sameRoot : ∀ slot, (change slot).p4Frame = slot.p4Frame)
    (sameUse : ∀ slot, (change slot).inUse = slot.inUse) :
    PrivateP4Pool.used ⟨modifyFirst test change slots⟩ = PrivateP4Pool.used ⟨slots⟩ := by
  ext root
  simp only [used, Set.mem_ofPred_eq]
  induction slots with
  | nil => rfl
  | cons first rest ih =>
    rw [modifyFirst]
    split_ifs
    · simp [sameRoot, sameUse]
    · simp [ih]

theorem used_setStackSlot {pool : PrivateP4Pool} :
    (pool.setStackSlot test stackTop taken).used = pool.used := by
  unfold setStackSlot
  split
  · rfl
  · exact used_modifyFirst (fun _ => rfl) fun _ => rfl

theorem roots_setStackSlot {pool : PrivateP4Pool} :
    (pool.setStackSlot test stackTop taken).roots = pool.roots := by
  unfold setStackSlot
  split
  · rfl
  · exact roots_modifyFirst fun _ => rfl

@[simp] theorem roots_reserveStackSlot {pool : PrivateP4Pool} :
    (pool.reserveStackSlot root stackTop).2.roots = pool.roots := by
  unfold reserveStackSlot
  dsimp only
  split
  · split
    · exact roots_modifyFirst fun _ => rfl
    · exact roots_modifyFirst fun _ => rfl
  · rfl

@[simp] theorem used_reserveStackSlot {pool : PrivateP4Pool} :
    (pool.reserveStackSlot root stackTop).2.used = pool.used := by
  unfold reserveStackSlot
  dsimp only
  split
  · split
    · exact used_modifyFirst (fun _ => rfl) fun _ => rfl
    · exact used_modifyFirst (fun _ => rfl) fun _ => rfl
  · rfl

end PrivateP4Pool

namespace Process

variable {process : Process}

theorem card_takeManagedStackRelease (tidy : ¬process.Loose) :
    (process.takeManagedStackRelease tid).2.card = process.card := by
  unfold takeManagedStackRelease
  split
  · split_ifs
    · split
      · exact card_modifyThread_of_same tidy (fun _ => rfl) (fun _ => id) fun _ => rfl
      · rfl
    · rfl
  · rfl

/-- A new thread joins a user process that has not ended. -/
theorem card_insert
    (tidy : ¬process.Loose)
    (user : process.kind = .userProcess)
    (live : process.state.terminal = false)
    (inserted : process.threads.insert added = some extended)
    (later : firstUserTid ≤ added.tid.toNat)
    (fresh : added.signalReturnContext = none) :
    (process.setThreads extended).card = process.card := by
  obtain ⟨absent, main, threads⟩ := ThreadStore.insert_eq_some inserted
  refine card_setThreads main tidy (fun tid thread found => ?_) fun tid => ?_
  · rw [threads] at found
    split_ifs at found with same
    · simp only [Misplaced, user, live, Bool.false_eq_true, false_and, false_or, same]
      omega
    · exact placed tidy found
  · rw [threads]
    split_ifs with same
    · simp [same, absent, fresh]
    · rfl

end Process

namespace ProcessTable

variable {table : ProcessTable}

theorem sheet_setStackSlot : ({ table with
      privatePool := table.privatePool.setStackSlot test stackTop taken } : ProcessTable).sheet =
    table.sheet :=
  Sheet.ext rfl PrivateP4Pool.used_setStackSlot
    (congrArg List.Nodup PrivateP4Pool.roots_setStackSlot) rfl rfl

@[simp] theorem sheet_releaseThreadStack : (table.releaseThreadStack slot).sheet = table.sheet := by
  cases slot with
  | none => rfl
  | some => exact sheet_setStackSlot

theorem sheet_foldl_enqueueReady {tids : List Tid} :
    (tids.foldl enqueueReady table).sheet = table.sheet := by
  induction tids generalizing table with
  | nil => rfl
  | cons tid rest ih =>
    rw [List.foldl_cons, ih, sheet_enqueueReady]

/-- The process is a user process that has not ended. -/
def Lives (table : ProcessTable) (pid : Pid) : Prop :=
  ∃ process, table.get pid = some process ∧ process.kind = .userProcess ∧
    process.state.terminal = false

/-! ## Threads -/

section

variable (tidy : table.sheet.Tidy)
include tidy

theorem sheet_admitThread
    (found : table.get process.pid = some process)
    (user : process.kind = .userProcess)
    (live : process.state.terminal = false)
    (later : firstUserTid ≤ starting.tid.toNat)
    (fresh : starting.signalReturnContext = none)
    (admitted : table.admitThread process starting = some after) :
    after.sheet = table.sheet := by
  obtain ⟨threads, inserted, ⟨⟩⟩ := Option.bind_eq_some_iff.mp admitted
  rw [sheet_enqueueReady]
  refine sheet_putProcess_of_card_eq found ?_
  rw [Process.card_refreshStateFromThreads]
  exact Process.card_insert (not_loose_of_get tidy found) user live inserted later fresh

theorem sheet_createUserThread (lives : table.Lives pid) :
    (table.createUserThread pid entry stackStart stackTop initialRsp arg).2.sheet =
      table.sheet := by
  obtain ⟨process, found, user, live⟩ := lives
  obtain rfl := pid_of_get found
  have reserved : table.reserveTid.2.sheet = table.sheet := sheet_reserveTid tidy
  simp only [createUserThread, found]
  split_ifs
  · rfl
  split
  · next admitted =>
      exact (sheet_admitThread (reserved ▸ tidy) (by exact found) user live (by exact tidy.1.1) rfl
        admitted).trans reserved
  · exact reserved

theorem sheet_createManagedUserThread (lives : table.Lives pid) :
    (table.createManagedUserThread pid entry arg).2.sheet = table.sheet := by
  obtain ⟨process, found, user, live⟩ := lives
  obtain rfl := pid_of_get found
  simp only [createManagedUserThread, found]
  split_ifs
  · rfl
  split
  · rfl
  next root isRoot =>
  have slot : ({ table with privatePool := (table.privatePool.reserveStackSlot root
      process.addressSpace.layout.stackTop).2 } : ProcessTable).sheet = table.sheet :=
    Sheet.ext rfl PrivateP4Pool.used_reserveStackSlot
      (congrArg List.Nodup PrivateP4Pool.roots_reserveStackSlot) rfl rfl
  have reserved := (sheet_reserveTid (slot ▸ tidy)).trans slot
  split
  · exact slot
  split
  · exact slot
  split
  · next admitted =>
      exact (sheet_admitThread (reserved ▸ tidy) (by exact found) user live (by exact tidy.1.1) rfl
        admitted).trans reserved
  · exact sheet_setStackSlot.trans reserved

/-- A thread that has not ended changes, and the process is summarized again. -/
theorem sheet_changeThread
    (found : table.get process.pid = some process)
    (owns : process.threads.get tid = some owned)
    (user : process.kind = .userProcess)
    (awake : owned.state.terminal = false)
    (keeps : ∀ owned, (change owned).signalReturnContext = owned.signalReturnContext) :
    (table.putProcess
      (process.modifyThread tid change keepsTid).refreshStateFromThreads).sheet =
        table.sheet := by
  have notLoose := not_loose_of_get tidy found
  refine sheet_putProcess_of_card_eq found ?_
  rw [Process.card_refreshStateFromThreads]
  exact Process.card_modifyThread_of_live notLoose user
    (Process.live_of_awake notLoose user owns awake) keeps

theorem sheet_blockThread
    (later : firstUserTid ≤ tid.toNat)
    (blocked : table.blockThread now tid context = some after) :
    after.sheet = table.sheet := by
  obtain ⟨process, owner, rest⟩ := Option.bind_eq_some_iff.mp blocked
  obtain ⟨owned, owns, rest⟩ := Option.bind_eq_some_iff.mp rest
  split_ifs at rest with notRunning
  cases rest
  have found := (getByTid_spec owner).1
  have running : owned.state = .running := by simpa using notRunning
  rw [sheet_record]
  exact sheet_changeThread tidy found owns
    (Process.user_of_tid (not_loose_of_get tidy found) owns later) (by rw [running]; rfl)
    fun _ => Thread.stopRun_signalReturnContext

theorem sheet_wakeThread (woken : table.wakeThread tid value = some after) :
    after.sheet = table.sheet := by
  obtain ⟨process, owner, rest⟩ := Option.bind_eq_some_iff.mp woken
  obtain ⟨owned, owns, rest⟩ := Option.bind_eq_some_iff.mp rest
  split_ifs at rest with notBlocked
  obtain ⟨context, saved, ⟨⟩⟩ := Option.bind_eq_some_iff.mp rest
  have found := (getByTid_spec owner).1
  have blocked : owned.state = .blocked := by simpa using notBlocked
  rw [sheet_enqueueReady]
  exact sheet_changeThread tidy found owns
    (Process.user_of_context (not_loose_of_get tidy found) owns saved)
    (by rw [blocked]; rfl) fun _ => rfl

theorem sheet_markThreadYielded
    (later : firstUserTid ≤ tid.toNat)
    (yielded : table.markThreadYielded now tid context = some after) :
    after.sheet = table.sheet := by
  obtain ⟨process, owner, rest⟩ := Option.bind_eq_some_iff.mp yielded
  obtain ⟨owned, owns, rest⟩ := Option.bind_eq_some_iff.mp rest
  split_ifs at rest with notRunning
  cases rest
  have found := (getByTid_spec owner).1
  have notLoose := not_loose_of_get tidy found
  have user := Process.user_of_tid notLoose owns later
  have running : owned.state = .running := by simpa using notRunning
  rw [sheet_record, sheet_enqueueReady]
  refine sheet_putProcess_of_card_eq found ?_
  rw [Process.card_refreshStateFromThreads, Process.card_setSleepingUntil]
  exact Process.card_modifyThread_of_live notLoose user
    (Process.live_of_awake notLoose user owns (by rw [running]; rfl))
    fun _ => Thread.stopRun_signalReturnContext

end

/-- A thread that ends is in its place. -/
theorem not_misplaced_of_ended
    {process : Process} {owned changed : Thread}
    (good : ¬process.Misplaced tid owned)
    (ended : changed.state.terminal = true)
    (context : changed.resumeContext.isSome = true → owned.resumeContext.isSome = true) :
    ¬process.Misplaced tid changed := by
  unfold Process.Misplaced at good ⊢
  cases kind : process.kind with
  | userProcess =>
    simp only [kind, ended, not_or] at good ⊢
    exact ⟨by simp, good.2⟩
  | kernelTask =>
    simp only [kind, not_or] at good ⊢
    exact ⟨fun saved => good.1 (context saved), good.2⟩

theorem card_reapedThread {process : Process} (tidy : ¬process.Loose) :
    (reapedThread process tid).card = process.card :=
  Process.card_modifyThread tidy
    (fun _ found => not_misplaced_of_ended (Process.placed tidy found) rfl id) fun _ => rfl

theorem sheet_joinThread (tidy : table.sheet.Tidy) (later : firstUserTid ≤ caller.toNat) :
    (table.joinThread now caller target context).2.sheet = table.sheet := by
  unfold joinThread
  split_ifs
  · rfl
  split
  case h_2 => rfl
  next process targetProcess owner targetOwner =>
  have found := (getByTid_spec owner).1
  have notLoose := not_loose_of_get tidy found
  split_ifs
  · rfl
  split
  case h_2 => rfl
  next owned callerThread foundTarget foundCaller =>
  split_ifs with reaped deadlock exited notRunning
  · rfl
  · rfl
  · rw [sheet_releaseThreadStack]
    have reapedCard : (reapedThread process target).card = process.card :=
      card_reapedThread notLoose
    have stillTidy := Process.not_loose_of_card_eq notLoose reapedCard
    refine sheet_putProcess_of_card_eq ?_
      ((Process.card_takeManagedStackRelease stillTidy).trans reapedCard)
    rw [Process.pid_takeManagedStackRelease]
    exact found
  · rfl
  · have running : callerThread.state = .running := by simpa using notRunning
    rw [sheet_record]
    exact sheet_changeThread tidy found foundCaller
      (Process.user_of_tid notLoose foundCaller later) (by rw [running]; rfl)
      fun _ => Thread.stopRun_signalReturnContext

theorem card_exitedThread (tidy : ¬process.Loose) :
    (exitedThread process now tid).card = process.card :=
  Process.card_modifyThread tidy
    (fun _ found => not_misplaced_of_ended (Process.placed tidy found) rfl (by simp))
    fun _ => Thread.stopRun_signalReturnContext

theorem card_wakeJoiners (tidy : ¬process.Loose) :
    (wakeJoiners process tid).card = process.card := by
  refine Process.card_setThreads rfl tidy (fun other thread found => ?_) fun other => ?_
  · rw [ThreadStore.get_modifyAll] at found
    obtain ⟨old, foundOld, rfl⟩ := Option.map_eq_some_iff.mp found
    have good := Process.placed tidy foundOld
    split_ifs with joining
    · -- The joining thread is blocked, so a user process that has it has not ended.
      have blocked : old.state = .blocked := by
        simp only [joins, Bool.and_eq_true, decide_eq_true_eq] at joining
        exact joining.1
      cases kind : process.kind with
      | userProcess =>
        exact Process.not_misplaced_of_live good kind
          (Process.live_of_awake tidy kind foundOld (by rw [blocked]; rfl))
      | kernelTask =>
        simp only [Process.Misplaced, kind, joinedThread, Option.isSome_map] at good ⊢
        exact good
    · exact good
  · rw [ThreadStore.get_modifyAll]
    cases process.threads.get other with
    | none => rfl
    | some thread =>
      simp only [Option.map_some, Option.bind_some]
      split_ifs <;> rfl

theorem card_settleExited (tidy : ¬process.Loose) :
    (settleExited process tid woken).2.card = process.card := by
  unfold settleExited
  split_ifs
  · have reaped := @card_reapedThread tid _ tidy
    exact (Process.card_takeManagedStackRelease
      (Process.not_loose_of_card_eq tidy reaped)).trans reaped
  · rfl

theorem sheet_markThreadExited
    (tidy : table.sheet.Tidy)
    (exited : table.markThreadExited now tid = some (owner, after)) :
    after.sheet = table.sheet := by
  obtain ⟨process, byTid, rest⟩ := Option.bind_eq_some_iff.mp exited
  split_ifs at rest
  cases rest
  have found := (getByTid_spec byTid).1
  have notLoose := not_loose_of_get tidy found
  have exitedCard : (exitedThread process now tid).card = process.card :=
    card_exitedThread notLoose
  have exitedTidy := Process.not_loose_of_card_eq notLoose exitedCard
  have wokenCard : (wakeJoiners (exitedThread process now tid) tid).card = process.card :=
    (card_wakeJoiners exitedTidy).trans exitedCard
  have wokenTidy := Process.not_loose_of_card_eq notLoose wokenCard
  rw [sheet_releaseThreadStack, sheet_foldl_enqueueReady]
  refine @sheet_putProcess_of_card_eq _ process _ ?_ ?_
  · rw [Process.refreshStateFromThreads_pid, pid_settleExited]
    exact found
  · rw [Process.card_refreshStateFromThreads, card_settleExited wokenTidy, wokenCard]

theorem sheet_setKernelThreadState
    (tidy : table.sheet.Tidy)
    (changed : table.setKernelThreadState now tid next = some after) :
    after.sheet = table.sheet := by
  obtain ⟨process, owner, rest⟩ := Option.bind_eq_some_iff.mp changed
  split_ifs at rest with notKernel
  obtain ⟨owned, -, ⟨⟩⟩ := Option.bind_eq_some_iff.mp rest
  have found := (getByTid_spec owner).1
  have notLoose := not_loose_of_get tidy found
  have kernel : process.kind = .kernelTask := by simpa using notKernel
  refine sheet_putProcess_of_card_eq found ?_
  rw [Process.card_refreshStateFromThreads]
  refine Process.card_modifyThread notLoose (fun thread inProcess => ?_) fun thread => ?_
  · have good := Process.placed notLoose inProcess
    have context : (shiftedThread now next thread).resumeContext = thread.resumeContext := by
      simp only [shiftedThread, Thread.startRun]
      split_ifs <;> simp
    simpa only [Process.Misplaced, kernel, context] using good
  · simp only [shiftedThread, Thread.startRun]
    split_ifs <;> simp

/-! ## Waiting, sleeping and collecting -/

/-- A process changes as a whole and does not end by it, or has ended before. -/
theorem sheet_putProcess_setState
    {process old : Process} {next : ProcessState}
    (tidy : table.sheet.Tidy)
    (found : table.get process.pid = some old)
    (card : process.card = old.card)
    (same : next.terminal = old.state.terminal) :
    (table.putProcess (process.setState next)).sheet = table.sheet := by
  have notLoose := Process.not_loose_of_card_eq (not_loose_of_get tidy found) card
  have ended : process.state.terminal = old.state.terminal := congrArg Card.ended card
  exact sheet_putProcess_of_card_eq found
    ((Process.card_setState_of_same notLoose (same.trans ended.symm)).trans card)

section

variable (tidy : table.sheet.Tidy)
include tidy

/-- The sheet when a process leaves the processor with a context. -/
theorem sheet_block
    (found : table.get process.pid = some process)
    (user : process.kind = .userProcess)
    (live : process.state.terminal = false) :
    (((table.removeFromReadyQueue process.pid).stopProcessRun process.pid).putProcess
      (((((process.stopRun now).setWaitingFor child).setSleepingUntil tick).setMainContext
        context).setState .blocked)).sheet = table.sheet := by
  have notLoose := not_loose_of_get tidy found
  have stopped : (process.stopRun now).card = process.card := Process.card_stopRun notLoose
  have kept : ((table.removeFromReadyQueue process.pid).stopProcessRun process.pid).sheet =
      table.sheet := sheet_leave tidy
  have stays : ((table.removeFromReadyQueue process.pid).stopProcessRun process.pid).get
      process.pid = some process := by
    simpa using found
  have card : ((((process.stopRun now).setWaitingFor child).setSleepingUntil tick).setMainContext
      context).card = process.card :=
    (Process.card_setMainContext (Process.not_loose_of_card_eq notLoose stopped) user live).trans
      stopped
  exact (sheet_putProcess_setState (kept ▸ tidy) (by exact stays) card
    (by exact live.symm)).trans kept

theorem sheet_markWaiting
    (lives : table.Lives pid)
    (waits : table.markWaiting now pid child context = some after) :
    after.sheet = table.sheet := by
  obtain ⟨process, found, user, live⟩ := lives
  obtain rfl := pid_of_get found
  simp only [markWaiting, get_removeFromReadyQueue, found, Option.some.injEq] at waits
  subst waits
  exact sheet_block tidy found user live

theorem sheet_markSleeping (lives : table.Lives pid) :
    (table.markSleeping now pid wakeTick context).2.sheet = table.sheet := by
  obtain ⟨process, found, user, live⟩ := lives
  obtain rfl := pid_of_get found
  simp only [markSleeping, get_removeFromReadyQueue, found]
  split_ifs
  · rfl
  · exact sheet_block tidy found user live

theorem sheet_startProcessRun
    (found : table.get pid = some process)
    (live : process.state.terminal = false) :
    (table.startProcessRun now pid).sheet = table.sheet := by
  obtain rfl := pid_of_get found
  simp only [startProcessRun, found]
  have notLoose := not_loose_of_get tidy found
  have entered : (process.setState .running).card = process.card :=
    Process.card_setState_of_same notLoose live.symm
  have started : (process.startRun now).card = (process.setState .running).card :=
    Process.card_modifyThread_of_same (Process.not_loose_of_card_eq notLoose entered)
      (by exact fun _ => rfl) (by exact fun _ => id) (by exact fun _ => rfl)
  exact (sheet_putProcess_of_card_eq (by exact found) (started.trans entered)).trans rfl

/-- An ended process is given up. -/
theorem sheet_putProcess_reaped
    (found : table.get process.pid = some process)
    (ended : process.state.terminal = true) :
    (table.putProcess (process.setState .reaped)).sheet = table.sheet :=
  sheet_putProcess_setState tidy found rfl ended.symm

theorem sheet_endWait : (table.endWait pid).sheet = table.sheet := by
  unfold endWait
  split
  · next process found =>
      obtain rfl := pid_of_get found
      have notLoose : ¬process.Loose := not_loose_of_get tidy found
      refine @sheet_putProcess_of_card_eq _ process _ (by exact found) ?_
      exact (Process.card_setMainContext_none (by exact notLoose)).trans rfl
  · rfl

end

theorem terminal_of_over {process : Process}
    (isOver : ¬(process.state ≠ .exited ∧ process.state ≠ .zombie)) :
    process.state.terminal = true := by
  cases state : process.state <;> simp_all [ProcessState.terminal]

theorem sheet_reapChild
    (tidy : table.sheet.Tidy)
    (collected : table.reapChild parent child = some (status, after)) :
    after.sheet = table.sheet := by
  obtain ⟨process, found, rest⟩ := Option.bind_eq_some_iff.mp collected
  split_ifs at rest with notParent notOver
  cases rest
  obtain rfl := pid_of_get found
  have reaped := sheet_putProcess_reaped tidy found (terminal_of_over notOver)
  split
  · next waiting inTable =>
      obtain rfl := pid_of_get inTable
      split_ifs
      · have notLoose : ¬waiting.Loose := not_loose_of_get (by exact reaped ▸ tidy) inTable
        refine (@sheet_putProcess_of_card_eq _ waiting _ (by exact inTable) ?_).trans reaped
        exact (Process.card_setMainContext_none (by exact notLoose)).trans rfl
      · exact reaped
  · exact reaped

theorem sheet_resumeWaitingParent
    (tidy : table.sheet.Tidy)
    (resumed : table.resumeWaitingParent now parent child = some (resume, after)) :
    after.sheet = table.sheet := by
  obtain ⟨ended, waiting, context, foundChild, foundParent, -, isOver, blocked, -, -, rfl⟩ :=
    resumeWaitingParent_spec resumed
  obtain rfl := pid_of_get foundChild
  have differ : parent ≠ ended.pid := by
    rintro rfl
    obtain rfl := Option.mem_unique foundChild foundParent
    simp [blocked] at isOver
  have reaped := sheet_putProcess_reaped tidy foundChild
    (by rcases isOver with isOver | isOver <;> rw [isOver] <;> rfl)
  have stays : ((table.putProcess (ended.setState .reaped)).record
      (.collected parent ended.pid (ended.exitStatus.getD 0))).get parent = some waiting := by
    simp [differ, foundParent]
  have tidyReaped : ((table.putProcess (ended.setState .reaped)).record
      (.collected parent ended.pid (ended.exitStatus.getD 0))).sheet.Tidy := reaped ▸ tidy
  have waited := @sheet_endWait _ tidyReaped parent
  rw [sheet_record, sheet_startProcessRun (waited ▸ tidyReaped) (get_endWait stays)
    (by simp [blocked, ProcessState.terminal]), waited, sheet_record, reaped]

theorem sheet_reapAll
    (zombies : ∀ process, test process = true → process.state = .zombie)
    (tidy : table.sheet.Tidy) :
    (table.reapAll test).sheet = table.sheet := by
  refine reapAll_induct (motive := fun after => after.sheet = table.sheet) rfl zombies ?_
  intro after process same found zombie
  exact (sheet_putProcess_reaped (same ▸ tidy) found (by rw [zombie]; rfl)).trans same

theorem sheet_wakeSleepingProcesses (tidy : table.sheet.Tidy) :
    (table.wakeSleepingProcesses now).sheet = table.sheet := by
  refine wakeSleepingProcesses_induct (motive := fun after => after.sheet = table.sheet) rfl ?_
  intro after process same found blocked _
  rw [sheet_enqueueReady, ← same]
  exact sheet_putProcess_setState (same ▸ tidy) found rfl (by rw [blocked]; rfl)

/-! ## Dispatching -/

/-- The thread named by a resumption belongs to a user process that has not ended. -/
def OnCpu (table : ProcessTable) (pid : Pid) (tid : Tid) : Prop :=
  ∃ process owned, table.get pid = some process ∧ process.threads.get tid = some owned ∧
    process.kind = .userProcess ∧ process.state = .running ∧ owned.state = .running

theorem sheet_dispatchThread
    (tidy : table.sheet.Tidy)
    (found : table.get process.pid = some process)
    (owns : process.threads.get tid = some owned)
    (ready : owned.state = .ready)
    (saved : owned.resumeContext = some context) :
    (table.dispatchThread now process tid).sheet = table.sheet ∧
      (table.dispatchThread now process tid).OnCpu process.pid tid := by
  have user := Process.user_of_context (not_loose_of_get tidy found) owns saved
  have live := Process.live_of_awake (not_loose_of_get tidy found) user owns
    (by rw [ready]; rfl)
  constructor
  · exact (sheet_changeThread (by exact tidy) (by exact found) owns user
      (by rw [ready]; rfl) (by exact fun _ => rfl)).trans rfl
  · refine ⟨enteredThread process now tid,
      { owned.startRun now with resumeContext := none, state := .running }, ?_, ?_, user, ?_, rfl⟩
    · exact get_putProcess.trans (if_pos rfl)
    · simp [enteredThread, owns]
    · have running : (process.threads.modify tid (fun thread =>
          { thread.startRun now with resumeContext := none, state := .running })
          (by intro thread; simp)).anyIn .running = true := by
        refine ThreadStore.anyIn_eq_true_iff.mpr ⟨tid,
          { owned.startRun now with resumeContext := none, state := .running }, ?_, rfl⟩
        simp [owns]
      change (if process.state.terminal then process.state else ThreadStore.summary _) = _
      rw [live, ThreadStore.summary]
      exact if_pos running

theorem sheet_scheduleLoop
    (tidy : table.sheet.Tidy)
    (scheduled : scheduleLoop now fuel table = (chosen, after)) :
    after.sheet = table.sheet ∧ ∀ resume, chosen = some resume →
      after.OnCpu resume.pid resume.tid := by
  induction fuel generalizing table with
  | zero =>
    cases scheduled
    exact ⟨rfl, by simp⟩
  | succ fuel ih =>
    cases popped : table.readyQueue.pop with
    | none =>
      rw [scheduleLoop, popped] at scheduled
      cases scheduled
      exact ⟨rfl, by simp⟩
    | some entry =>
      obtain ⟨tid, rest⟩ := entry
      rcases scheduleLoop_succ now fuel popped with
        ⟨process, owned, context, owner, owns, ready, saved, result⟩ |
          ⟨-, result⟩ <;> rw [result] at scheduled
      · cases scheduled
        have tidyRest : ({ table with readyQueue := rest } : ProcessTable).sheet.Tidy := tidy
        obtain ⟨kept, runs⟩ := sheet_dispatchThread tidyRest (getByTid_spec owner).1
          owns ready saved
        exact ⟨kept, by rintro _ ⟨⟩; exact runs⟩
      · have tidyRest : ({ table with readyQueue := rest } :
            ProcessTable).skipReady.sheet.Tidy := tidy
        have later := ih tidyRest scheduled
        exact later

theorem sheet_preemptRunningThread
    (tidy : table.sheet.Tidy)
    (later : firstUserTid ≤ tid.toNat)
    (preempted : table.preemptRunningThread now tid context = (chosen, after)) :
    after.sheet = table.sheet ∧ ∀ resume, chosen = some resume →
      after.OnCpu resume.pid resume.tid := by
  unfold preemptRunningThread at preempted
  split_ifs at preempted
  · cases preempted
    exact ⟨rfl, by simp⟩
  split at preempted
  · cases preempted
    exact ⟨rfl, by simp⟩
  · next yielded =>
      have kept := sheet_markThreadYielded tidy later yielded
      have scheduled := sheet_scheduleLoop (kept ▸ tidy) preempted
      exact ⟨scheduled.1.trans kept, scheduled.2⟩

end ProcessTable

end Vantara
