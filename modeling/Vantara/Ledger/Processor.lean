import Mathlib.Data.List.Find
import Vantara.Ledger.Changes

/-!
# The thread on the processor

While a thread is on the processor, the table says that it runs.  The operations
that its system calls perform on other threads and processes, and those that the
timer performs, leave it there.
-/

namespace Vantara

open Foundation
open Option (bind_eq_some_iff mem_unique)

namespace Process

variable {process : Process}

/-- A process with a running thread that has not ended is running. -/
theorem refreshStateFromThreads_running
    (live : process.state.terminal = false)
    (found : process.threads.get tid = some owned)
    (running : owned.state = .running) :
    process.refreshStateFromThreads.state = .running := by
  have any : process.threads.anyIn .running = true :=
    ThreadStore.anyIn_eq_true_iff.mpr ⟨tid, owned, found, running⟩
  simp [refreshStateFromThreads, live, ThreadStore.summary, any]

end Process

namespace ProcessTable

variable {table : ProcessTable}

namespace OnCpu

theorem of_get_eq {after : ProcessTable}
    (on : table.OnCpu pid tid)
    (same : after.get pid = table.get pid) :
    after.OnCpu pid tid := by
  obtain ⟨process, owned, found, rest⟩ := on
  exact ⟨process, owned, same.trans found, rest⟩

theorem lives (on : table.OnCpu pid tid) : table.Lives pid := by
  obtain ⟨process, owned, found, -, user, running, -⟩ := on
  exact ⟨process, found, user, by rw [running]; rfl⟩

/-- The identifier of the thread was drawn after boot. -/
theorem later (on : table.OnCpu pid tid) (tidy : table.sheet.Tidy) : firstUserTid ≤ tid.toNat := by
  obtain ⟨process, owned, found, owns, user, -⟩ := on
  exact Process.later_of_user (not_loose_of_get tidy found) owns user

/-- Another process is written. -/
theorem put_other (on : table.OnCpu pid tid) (differ : process.pid ≠ pid) :
    (table.putProcess process).OnCpu pid tid :=
  on.of_get_eq (get_putProcess.trans (if_neg differ.symm))

/-- A process is written that lets the thread run on if it is its own. -/
theorem put (process : Process)
    (on : table.OnCpu pid tid)
    (found : table.get changed.pid = some process)
    (kind : changed.kind = process.kind)
    (keeps : ∀ owned, process.threads.get tid = some owned → owned.state = .running →
      process.state = .running → changed.state = .running ∧
        ∃ renewed, changed.threads.get tid = some renewed ∧ renewed.state = .running) :
    (table.putProcess changed).OnCpu pid tid := by
  by_cases differ : changed.pid ≠ pid
  · exact on.put_other differ
  · obtain rfl := Classical.not_not.mp differ
    obtain ⟨old, owned, inTable, owns, user, running, threadRuns⟩ := on
    obtain rfl := mem_unique inTable found
    obtain ⟨state, renewed, inChanged, renewedRuns⟩ := keeps owned owns threadRuns running
    exact ⟨changed, renewed, get_putProcess.trans (if_pos rfl), inChanged, kind.trans user, state,
      renewedRuns⟩

/-- A process is written with other attributes. -/
theorem put_same
    (on : table.OnCpu pid tid)
    (found : table.get changed.pid = some process)
    (kind : changed.kind = process.kind)
    (state : changed.state = process.state)
    (threads : changed.threads = process.threads) :
    (table.putProcess changed).OnCpu pid tid :=
  on.put process found kind fun owned owns threadRuns running =>
    ⟨state.trans running, owned, threads ▸ owns, threadRuns⟩

/-- A process is written that did not run. -/
theorem put_idle
    (on : table.OnCpu pid tid)
    (found : table.get changed.pid = some process)
    (idle : process.state ≠ .running) :
    (table.putProcess changed).OnCpu pid tid := by
  refine on.put_other fun same => ?_
  obtain ⟨old, owned, inTable, -, -, running, -⟩ := on
  rw [← same] at inTable
  obtain rfl := mem_unique inTable found
  exact idle running

/-- A thread that does not run changes, and its process is summarized again. -/
theorem put_modifyThread
    (on : table.OnCpu pid tid)
    (found : table.get process.pid = some process)
    (owns : process.threads.get changedTid = some owned)
    (idle : owned.state ≠ .running) :
    (table.putProcess
      (process.modifyThread changedTid change keepsTid).refreshStateFromThreads).OnCpu
        pid tid := by
  refine on.put process (by exact found) rfl fun running inProcess threadRuns processRuns => ?_
  have differ : tid ≠ changedTid := by
    rintro rfl
    obtain rfl := mem_unique inProcess owns
    exact idle threadRuns
  have stays : (process.modifyThread changedTid change keepsTid).threads.get tid =
      some running := by
    simp [differ, inProcess]
  refine ⟨Process.refreshStateFromThreads_running ?_ stays threadRuns, running, stays, threadRuns⟩
  rw [Process.modifyThread_state, processRuns]
  rfl

end OnCpu

/-! ## Operations of system calls -/

theorem onCpu_admitThread
    (on : table.OnCpu pid tid)
    (found : table.get process.pid = some process)
    (admitted : table.admitThread process starting = some after) :
    after.OnCpu pid tid := by
  obtain ⟨threads, inserted, ⟨⟩⟩ := bind_eq_some_iff.mp admitted
  obtain ⟨absent, -, extended⟩ := ThreadStore.insert_eq_some inserted
  refine on.put process (by exact found) rfl fun running inProcess threadRuns processRuns => ?_
  have stays : (process.setThreads threads).threads.get tid = some running := by
    rw [Process.setThreads_threads, extended, if_neg, inProcess]
    rintro rfl
    rw [absent] at inProcess
    cases inProcess
  refine ⟨Process.refreshStateFromThreads_running ?_ stays threadRuns, running, stays, threadRuns⟩
  rw [Process.setThreads_state, processRuns]
  rfl

theorem onCpu_createUserThread (on : table.OnCpu pid tid) :
    (table.createUserThread owner entry stackStart stackTop initialRsp arg).2.OnCpu
      pid tid := by
  unfold createUserThread
  split
  · exact on
  next process found =>
  obtain rfl := pid_of_get found
  split_ifs
  · exact on
  dsimp only
  split
  · next admitted => exact onCpu_admitThread (by exact on) (by exact found) admitted
  · exact on

theorem onCpu_createManagedUserThread (on : table.OnCpu pid tid) :
    (table.createManagedUserThread owner entry arg).2.OnCpu pid tid := by
  unfold createManagedUserThread
  split
  · exact on
  next process found =>
  obtain rfl := pid_of_get found
  split_ifs
  · exact on
  split
  · exact on
  dsimp only
  split
  · exact on
  split
  · exact on
  split
  · next admitted => exact onCpu_admitThread (by exact on) (by exact found) admitted
  · exact on

theorem onCpu_releaseThreadStack (on : table.OnCpu pid tid) :
    (table.releaseThreadStack slot).OnCpu pid tid := by
  cases slot <;> exact on

theorem threads_takeManagedStackRelease {process : Process}
    (owns : process.threads.get tid = some owned) :
    ∃ renewed, (process.takeManagedStackRelease released).2.threads.get tid = some renewed ∧
      renewed.state = owned.state := by
  have view := congrArg (fun view => view.threads tid)
    (@Process.view_takeManagedStackRelease process released)
  rw [Process.view_thread owns] at view
  obtain ⟨renewed, inRenewed, sameView⟩ := Option.map_eq_some_iff.mp view
  exact ⟨renewed, inRenewed, congrArg Lifecycle.ThreadView.state sameView⟩

theorem kind_takeManagedStackRelease {process : Process} :
    (process.takeManagedStackRelease released).2.kind = process.kind :=
  congrArg Lifecycle.ProcessView.kind Process.view_takeManagedStackRelease

theorem state_takeManagedStackRelease {process : Process} :
    (process.takeManagedStackRelease released).2.state = process.state :=
  congrArg Lifecycle.ProcessView.state Process.view_takeManagedStackRelease

theorem onCpu_joinThread
    (on : table.OnCpu pid tid)
    (joined : table.joinThread now caller target context = (status, after))
    (notBlocked : status ≠ .blocked) :
    after.OnCpu pid tid := by
  unfold joinThread at joined
  split_ifs at joined
  · cases joined
    exact on
  split at joined
  case h_2 =>
    cases joined
    exact on
  next process targetProcess owner targetOwner =>
  split_ifs at joined with notSibling
  · cases joined
    exact on
  split at joined
  case h_2 =>
    cases joined
    exact on
  next owned callerThread foundTarget foundCaller =>
  split_ifs at joined with reaped deadlock exited notRunning
  · cases joined
    exact on
  · cases joined
    exact on
  · cases joined
    have found := (getByTid_spec owner).1
    have same : targetProcess = process := by
      have inTable := (getByTid_spec targetOwner).1
      rw [Classical.not_not.mp notSibling, found] at inTable
      exact (Option.some.inj inTable).symm
    subst same
    refine onCpu_releaseThreadStack (on.put targetProcess ?_ ?_ ?_)
    · rw [Process.pid_takeManagedStackRelease]
      exact found
    · exact kind_takeManagedStackRelease
    · intro running inProcess threadRuns processRuns
      have differ : tid ≠ target := by
        rintro rfl
        obtain rfl := mem_unique inProcess foundTarget
        simp [exited] at threadRuns
      have stays : (reapedThread targetProcess target).threads.get tid = some running := by
        simp [reapedThread, differ, inProcess]
      obtain ⟨renewed, inRenewed, sameState⟩ := threads_takeManagedStackRelease stays
      exact ⟨state_takeManagedStackRelease.trans processRuns, renewed, inRenewed,
        sameState.trans threadRuns⟩
  · cases joined
    exact on
  · cases joined
    exact absurd rfl notBlocked

theorem onCpu_wakeThread
    (on : table.OnCpu pid tid)
    (woken : table.wakeThread waiter value = some after) :
    after.OnCpu pid tid := by
  obtain ⟨process, owner, rest⟩ := bind_eq_some_iff.mp woken
  obtain ⟨owned, owns, rest⟩ := bind_eq_some_iff.mp rest
  split_ifs at rest with notBlocked
  obtain ⟨context, -, ⟨⟩⟩ := bind_eq_some_iff.mp rest
  have blocked : owned.state = .blocked := by simpa using notBlocked
  exact on.put_modifyThread (getByTid_spec owner).1 owns (by simp [blocked])

theorem onCpu_reapChild
    (on : table.OnCpu pid tid)
    (collected : table.reapChild parent child = some (status, after)) :
    after.OnCpu pid tid := by
  obtain ⟨process, found, rest⟩ := bind_eq_some_iff.mp collected
  split_ifs at rest with notParent notOver
  cases rest
  obtain rfl := pid_of_get found
  have ended := terminal_of_over notOver
  have idle : process.state ≠ .running := by
    intro running
    simp [running, ProcessState.terminal] at ended
  have reaped : ((table.putProcess (process.setState .reaped)).record
      (.collected parent process.pid (process.exitStatus.getD 0))).OnCpu pid tid :=
    on.put_idle found idle
  split
  · next waiting inTable =>
      obtain rfl := pid_of_get inTable
      split_ifs
      · refine reaped.put waiting (by exact inTable) rfl
          fun owned inProcess threadRuns processRuns => ⟨processRuns, ?_⟩
        by_cases same : tid = waiting.mainTid
        · subst same
          refine ⟨{ owned with resumeContext := none }, ?_, threadRuns⟩
          simp [Process.setMainContext, Process.modifyMainThread, inProcess]
        · refine ⟨owned, ?_, threadRuns⟩
          simp [Process.setMainContext, Process.modifyMainThread, inProcess, same]
      · exact reaped
  · exact reaped

theorem onCpu_continueUserProcess
    (on : table.OnCpu pid tid)
    (continued : table.continueUserProcess caller target = some after) :
    after.OnCpu pid tid := by
  obtain ⟨process, rfl, found, stopped, rfl⟩ := continueUserProcess_spec continued
  have continuedOn : (table.putProcess (process.setState .ready)).OnCpu pid tid :=
    on.put_idle (by exact found) (by simp [stopped])
  exact continuedOn

theorem onCpu_terminateUserProcess
    (on : table.OnCpu caller tid)
    (terminated : table.terminateUserProcess now caller targetPid status = .ok (report, after)) :
    after.OnCpu caller tid := by
  unfold terminateUserProcess at terminated
  split at terminated
  · cases terminated
  next target targeted =>
  obtain ⟨found, other, -, -⟩ := signalTarget_spec targeted
  have marked : (table.markExited now targetPid status).OnCpu caller tid :=
    on.of_get_eq (by rw [get_markExited found, if_neg other])
  dsimp only at terminated
  split at terminated
  · next parent told =>
      cases terminated
      obtain ⟨-, inTable, blocked, -⟩ := waitingParent_spec told
      obtain rfl := pid_of_get found
      have exited : (table.markExited now target.pid status).get target.pid =
          some (target.exitWith now status) := by
        rw [get_markExited found, if_pos rfl]
      have reaped : (((table.markExited now target.pid status).putProcess
          ((target.exitWith now status).setState .reaped)).record
            (.collected parent.pid target.pid status)).OnCpu caller tid :=
        marked.put_other fun same => other same.symm
      simp only [handOver, exited]
      split
      · next waiting foundWaiting =>
          have stillBlocked : waiting.state ≠ .running := by
            rw [get_record, get_putProcess] at foundWaiting
            split_ifs at foundWaiting
            · cases foundWaiting
              simp
            · obtain rfl := mem_unique foundWaiting inTable
              simp [blocked]
          have isWaiting := pid_of_get foundWaiting
          exact reaped.put_idle (by rw [← isWaiting] at foundWaiting; exact foundWaiting)
            stillBlocked
      · exact reaped
  · cases terminated
    exact marked

theorem onCpu_sendSignal
    (on : table.OnCpu caller tid)
    (sent : table.sendSignal now caller targetPid signal = .ok (delivery, after)) :
    after.OnCpu caller tid := by
  unfold sendSignal at sent
  split at sent
  · cases sent
  next target targeted =>
  obtain ⟨found, other, -, -⟩ := signalTarget_spec targeted
  obtain rfl := pid_of_get found
  have noted : ∀ mask, (table.addPendingSignal target signal mask).2.OnCpu caller tid :=
    fun mask => on.put_other (by exact fun same => other same.symm)
  split at sent
  · cases sent
  next mask isBit =>
  split_ifs at sent
  · cases sent
    exact noted mask
  · cases sent
    exact on
  · split at sent
    · next activated isActivated =>
        cases sent
        simp only [activateSignalHandler, found, Option.bind_eq_bind,
          Option.bind_some] at isActivated
        split_ifs at isActivated
        obtain ⟨original, -, ⟨⟩⟩ := bind_eq_some_iff.mp isActivated
        refine on.of_get_eq ?_
        rw [get_record, get_enqueueReady, get_putProcess]
        exact if_neg other
    · cases sent
      exact noted mask
  · split at sent
    · next report terminated isTerminated =>
        cases sent
        exact onCpu_terminateUserProcess on isTerminated
    · cases sent

/-! ## The timer -/

/-- A sweep leaves the processes alone that it does not visit. -/
theorem get_sweep
    {sweep : ProcessTable → Pid → ProcessTable} {pids : List Pid}
    (frame : ∀ {table pid other}, other ≠ pid → (sweep table pid).get other = table.get other)
    (unvisited : pid ∉ pids) :
    (pids.foldl sweep table).get pid = table.get pid := by
  induction pids generalizing table with
  | nil => rfl
  | cons first rest ih =>
    rw [List.mem_cons, not_or] at unvisited
    exact (ih unvisited.2).trans (frame unvisited.1)

theorem onCpu_wakeSleepingProcesses (on : table.OnCpu pid tid) :
    (table.wakeSleepingProcesses now).OnCpu pid tid := by
  refine wakeSleepingProcesses_induct (motive := (·.OnCpu pid tid)) on ?_
  intro after process on found blocked _
  exact on.put_idle found (by rw [blocked]; exact nofun)

theorem onCpu_reapAll
    (zombies : ∀ process, test process = true → process.state = .zombie)
    (on : table.OnCpu pid tid) :
    (table.reapAll test).OnCpu pid tid := by
  refine reapAll_induct (motive := (·.OnCpu pid tid)) on zombies ?_
  intro after process on found zombie
  exact on.put_idle found (by rw [zombie]; exact nofun)

theorem onCpu_compactReapedHistory (on : table.OnCpu pid tid) :
    (table.compactReapedHistory keep).OnCpu pid tid := by
  refine compactReapedHistory_induct (motive := (·.OnCpu pid tid)) on ?_
  intro after removed process on found reaped
  refine on.of_get_eq ((KeyedStore.get_remove _ _).trans (if_neg ?_))
  rintro rfl
  obtain ⟨old, -, inTable, -, -, running, -⟩ := on
  obtain rfl := mem_unique inTable found
  cases running.symm.trans reaped

theorem onCpu_setKernelThreadState
    (on : table.OnCpu pid tid)
    (changed : table.setKernelThreadState now kernelTid next = some after) :
    after.OnCpu pid tid := by
  obtain ⟨process, owner, rest⟩ := bind_eq_some_iff.mp changed
  split_ifs at rest with notKernel
  obtain ⟨owned, -, ⟨⟩⟩ := bind_eq_some_iff.mp rest
  refine on.put_other ?_
  obtain ⟨old, -, inTable, -, user, -⟩ := on
  rintro rfl
  have found := (getByTid_spec owner).1
  obtain rfl := mem_unique inTable found
  exact notKernel (by simp [user])

/-- The parent that is put back on the processor. -/
theorem onCpu_resumeWaitingParent
    (tidy : table.sheet.Tidy)
    (resumed : table.resumeWaitingParent now parent child = some (resume, after)) :
    ∃ tid, after.OnCpu parent tid ∧
      (after.get parent).map Process.mainTid = some tid := by
  obtain ⟨ended, waiting, context, foundChild, foundParent, -, isOver, blocked, -, saved, rfl⟩ :=
    resumeWaitingParent_spec resumed
  obtain rfl := pid_of_get foundChild
  have differ : parent ≠ ended.pid := by
    rintro rfl
    obtain rfl := mem_unique foundChild foundParent
    simp [blocked] at isOver
  have stays : ((table.putProcess (ended.setState .reaped)).record
      (.collected parent ended.pid (ended.exitStatus.getD 0))).get parent = some waiting := by
    simp [differ, foundParent]
  have user := Process.user_of_context (not_loose_of_get tidy foundParent) waiting.get_mainTid saved
  refine ⟨_, @onCpu_startProcessRun _ _ _ now (get_endWait stays) (by exact user), ?_⟩
  rw [get_record, get_startProcessRun (get_endWait stays), if_pos rfl]
  rfl

/-- A thread is looked up in the process that was written, if it was found there. -/
theorem getByTid_putProcess_map
    (found : table.get process.pid = some process)
    (samePid : changed.pid = process.pid)
    (sameTid : (changed.threads.get tid).isSome = (process.threads.get tid).isSome) :
    (table.putProcess changed).getByTid tid = (table.getByTid tid).map fun other =>
      if other.pid = changed.pid then changed else other := by
  have listed := KeyedStore.mem_of_get found
  have items : (table.putProcess changed).values = table.values.map fun other =>
      if other.pid = changed.pid then changed else other := by
    simp only [values, putProcess, KeyedStore.insert]
    rw [dif_pos ⟨process, listed, samePid.symm⟩]
  rw [getByTid, getByTid, items, List.find?_map]
  refine congrArg (Option.map _) (List.find?_congr fun other otherMem => ?_)
  dsimp only [Function.comp]
  split_ifs with isChanged
  · have same : other = process := KeyedStore.eq_of_mem_of_key_eq _ otherMem listed
      (isChanged.trans samePid)
    rw [same, sameTid]
  · rfl

/-- A thread is looked up in the same process after that process was written. -/
theorem getByTid_putProcess
    (owner : table.getByTid tid = some process)
    (samePid : changed.pid = process.pid)
    (sameTids : (changed.threads.get tid).isSome = true) :
    (table.putProcess changed).getByTid tid = some changed := by
  obtain ⟨found, thread, owns⟩ := getByTid_spec owner
  rw [getByTid_putProcess_map found samePid (by rw [sameTids, owns]; rfl), owner,
    Option.map_some, if_pos samePid.symm]

/-- If nothing can be exchanged for the thread on the processor, nothing changes. -/
theorem preemptRunningThread_none
    (preempted : table.preemptRunningThread now tid context = (none, after)) :
    after = table := by
  unfold preemptRunningThread at preempted
  split_ifs at preempted
  · cases preempted
    rfl
  split at preempted
  · cases preempted
    rfl
  next yielded isYielded =>
  exfalso
  obtain ⟨process, owner, rest⟩ := bind_eq_some_iff.mp isYielded
  obtain ⟨owned, owns, rest⟩ := bind_eq_some_iff.mp rest
  split_ifs at rest with notRunning
  cases rest
  -- The thread that yielded can run, so the scheduler finds something.
  have yieldedThread : (((process.modifyThread tid (fun thread =>
      { thread.stopRun now with resumeContext := some context, state := .ready })
      (by intro thread; simp)).setSleepingUntil none).refreshStateFromThreads).threads.get tid =
        some { owned.stopRun now with resumeContext := some context, state := .ready } := by
    simp [owns]
  have yieldedOwner := getByTid_putProcess owner (by exact rfl)
    (Option.isSome_of_eq_some yieldedThread)
  have unsaved := scheduleLoop_none (Nat.le_refl _) preempted (UniqueQueue.mem_push.mpr (.inl rfl))
    yieldedOwner yieldedThread rfl
  cases unsaved

end ProcessTable

end Vantara
