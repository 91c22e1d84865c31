import Vantara.Lifecycle.ThreadMoves

/-!
# Operations on whole processes as moves

Ending, waiting, sleeping, stopping, continuing, signalling and collecting are
single moves or short trails of the view.
-/

namespace Vantara

open Foundation Lifecycle

namespace Process

variable {process : Process}

/-- The view of a process that blocks as a whole. -/
theorem view_blockMain :
    (((((process.stopRun now).setWaitingFor child).setSleepingUntil tick).setMainContext
      saved).setState .blocked).view =
      { process.view with waitingFor := child, sleepingUntil := tick }.setMain .blocked
        { process.mainThread.view with state := .blocked, context := saved } := by
  rw [setMainContext, view_setState_modifyMainThread rfl]
  simp [threadStateForProcess]

/-- The view of a parent that learns a status. -/
theorem view_setMainResult_ready :
    ((process.setMainResult value).setState .ready).view =
      process.view.setMain .ready
        { process.mainThread.view with
          state := .ready
          context := process.mainThread.view.context.map fun context =>
            { context with rax := value } } :=
  view_setState_modifyMainThread rfl

/-- The view of a process whose main thread gets another context. -/
theorem view_setMainContext :
    (process.setMainContext context).view =
      process.view.setThread process.mainTid
        { process.mainThread.view with context := context } :=
  view_modifyMainThread

@[simp] theorem mainThread_setMainContext :
    (process.setMainContext context).mainThread =
      { process.mainThread with resumeContext := context } :=
  mainThread_modifyMainThread

@[simp] theorem mainTid_setMainContext :
    (process.setMainContext context).mainTid = process.mainTid := rfl

/-- The view of a process that is given up. -/
theorem view_giveUp :
    (process.giveUp now).view =
      { process.view.ended .reaped with
        status := some (process.exitStatus.getD 0)
        waitingFor := none
        sleepingUntil := none } := by
  refine ProcessView.ext rfl rfl rfl rfl rfl rfl rfl ?_ ?_
  · exact ThreadStore.mainTid_applyProcessState
  · funext other
    have ended := congrArg (fun view => view.threads other)
      (@view_setState_of_terminal (process.stopRun now) .reaped rfl)
    simp only [view_stopRun, view_threads, setState_threads, ProcessView.ended_threads] at ended
    simp only [giveUp, setMainContext, view_threads, modifyMainThread, modifyThread_threads,
      setSleepingUntil_threads, setWaitingFor_threads, setExitStatus_threads, setState_threads,
      ThreadStore.get_modify, ProcessView.ended_threads]
    split_ifs
    · calc
        _ = (((process.stopRun now).threads.applyProcessState .reaped).get other |>.map
              Thread.view).map fun view => { view with context := none } := by
          rw [Option.map_map, Option.map_map]
          rfl
        _ = _ := by
          rw [ended, Option.map_map]
          rfl
    · exact ended

end Process

/-- The process has a handler for a signal, and does not block it. -/
def Process.handles (process : Process) (signal : UInt64) : Bool :=
  (signalBit signal).any (fun mask => decide (process.blockedSignals &&& mask = 0)) &&
    decide (process.sigtermDisposition ≠ sigIgn) && decide (process.sigtermDisposition ≠ sigDfl)

namespace ProcessTable

variable {table : ProcessTable} {unborn : Set Pid} {cpu : Option (Pid × Tid)}

/-- The end of a live user process. -/
theorem markExited_moves
    (found : table.get pid = some process)
    (user : process.kind = .userProcess)
    (live : process.state.terminal = false) :
    Moves (table.view unborn cpu) (.finish pid process.parentPid status)
      ((table.markExited now pid status).view unborn
        (cpu.filter fun current => decide (current.1 ≠ pid))) := by
  obtain rfl := pid_of_get found
  refine (Moves.finish (view_found found) user live).of_eq ?_
  have terminal :
      (if process.parentPid.isSome = true then ProcessState.zombie else .exited).terminal =
        true := by
    split_ifs <;> rfl
  simp only [markExited, get_removeFromReadyQueue, found, view_record, view_putProcess,
    view_stopProcessRun, view_removeFromReadyQueue found, Process.exitWith,
    Process.view_setState_of_terminal _ terminal, Process.view_setSleepingUntil,
    Process.view_setExitStatus, Process.view_stopRun]
  rfl

/-- The wait bridge gives up a process that is not on the processor. -/
theorem markReaped_moves
    (found : table.get pid = some process)
    (user : process.kind = .userProcess) :
    ∃ reaped, table.markReaped now pid = some reaped ∧
      Moves (table.view unborn none) (.bridge pid) (reaped.view unborn none) := by
  obtain rfl := pid_of_get found
  refine ⟨_, by simp only [markReaped, get_removeFromReadyQueue, found]; rfl, ?_⟩
  refine (Moves.bridge rfl (view_found found) user).of_eq ?_
  have samePid : (process.giveUp now).pid = process.pid := by simp [Process.giveUp]
  rw [view_putProcess, samePid, Process.view_giveUp, view_stopProcessRun,
    view_removeFromReadyQueue found]
  rfl

/-- Waiting for a program that is about to be loaded. -/
theorem markWaiting_moves (caller : Tid)
    (found : table.get pid = some process)
    (pending : child ∈ unborn)
    (waits : table.markWaiting now pid child context = some waiting) :
    Moves (table.view unborn (some (pid, caller)))
      (.wait pid caller process.mainTid child context)
      (((waiting.record (.saved caller process.mainTid context)).record
        (.waiting pid caller child)).view unborn none) := by
  obtain rfl := pid_of_get found
  simp only [markWaiting, get_removeFromReadyQueue, found] at waits
  cases waits
  refine (Moves.wait rfl (view_found found) Process.view_main pending).of_eq ?_
  simp only [view_record, view_putProcess, view_stopProcessRun, view_removeFromReadyQueue found,
    Process.view_blockMain, Process.setState_pid, Process.setMainContext_pid,
    Process.setSleepingUntil_pid, Process.setWaitingFor_pid, Process.stopRun_pid]
  rfl

/-- A process goes to sleep if it runs. -/
theorem markSleeping_spec
    (unborn : Set Pid) (caller : Tid)
    (found : table.get pid = some process)
    (slept : table.markSleeping now pid wakeTick context = (accepted, sleeping)) :
    (accepted = true ∧ process.state = .running ∧
      Moves (table.view unborn (some (pid, caller)))
        (.sleep pid caller process.mainTid context)
        ((sleeping.record (.saved caller process.mainTid context)).view unborn none)) ∨
    (accepted = false ∧ process.state ≠ .running) := by
  obtain rfl := pid_of_get found
  simp only [markSleeping, get_removeFromReadyQueue, found] at slept
  split_ifs at slept with notRunning
  · cases slept
    exact .inr ⟨rfl, notRunning⟩
  · cases slept
    have running : process.state = .running := by simpa using notRunning
    refine .inl ⟨rfl, running, (Moves.sleep wakeTick rfl (view_found found) Process.view_main
      running).of_eq ?_⟩
    simp only [view_record, view_putProcess, view_stopProcessRun, view_removeFromReadyQueue found,
      Process.view_blockMain, Process.setState_pid, Process.setMainContext_pid,
      Process.setSleepingUntil_pid, Process.setWaitingFor_pid, Process.stopRun_pid]
    rfl

/-- A parent blocked on a process learns a status and becomes ready. -/
theorem notify_moves {informed : Process}
    (found : table.get pid = some process)
    (blocked : process.state = .blocked)
    (waiting : process.waitingFor = some child)
    (base : informed.view =
      { process.view with waitingFor := none, sleepingUntil := sleeping })
    (samePid : informed.pid = pid)
    (sameMain : informed.mainThread = process.mainThread)
    (sleep : sleeping = none ∨ sleeping = process.sleepingUntilTick)
    (told : ∃ event earlier, table.trace = event :: earlier ∧ Tells pid child event status) :
    Moves (table.view unborn cpu) (.notify pid child status)
      (((table.putProcess ((informed.setMainResult status).setState .ready)).enqueueReady
        process.mainTid).view unborn cpu) := by
  refine (Moves.notify sleeping (view_found found) Process.view_main blocked waiting
    sleep told).of_eq ?_
  simp only [view_enqueueReady, view_putProcess, Process.view_setMainResult_ready, base,
    sameMain, Process.setState_pid, Process.setMainResult_pid, samePid]
  rfl

/-- A parent is told only if it is blocked on the process. -/
theorem waitingParent_spec (told : table.waitingParent target = some parent) :
    target.parentPid = some parent.pid ∧ table.get parent.pid = some parent ∧
      parent.state = .blocked ∧ parent.waitingFor = some target.pid := by
  obtain ⟨foundParent, blocked⟩ := Option.filter_eq_some_iff.mp told
  obtain ⟨parentPid, isParent, inTable⟩ := Option.bind_eq_some_iff.mp foundParent
  obtain rfl := pid_of_get inTable
  simp only [Bool.and_eq_true, decide_eq_true_eq] at blocked
  exact ⟨isParent, inTable, blocked⟩

/-- Stopping a process while no user thread runs; a parent that waits for it is
told. -/
theorem stopUserProcess_trail :
    CausedTrail (· = .stop pid signal) (table.view unborn none)
      ((table.stopUserProcess now pid signal).2.view unborn none) := by
  unfold stopUserProcess
  simp only [get_removeFromReadyQueue]
  cases found : table.get pid with
  | none =>
    rw [view_removeFromReadyQueue_of_absent found]
    exact .start
  | some process =>
    obtain rfl := pid_of_get found
    dsimp only
    split_ifs with refused
    · refine .of_free (.single rfl ((Moves.forget (view_found found) ?_).of_eq
          (view_removeFromReadyQueue found)))
      cases kind : process.kind <;> simp_all
    · push Not at refused
      have stopped : Moves (table.view unborn none) (.stop process.pid signal)
          (((((table.removeFromReadyQueue process.pid).stopProcessRun process.pid).putProcess
            (((process.stopRun now).setSleepingUntil none).setState .stopped)).record
              (.stopped process.pid signal)).view unborn none) := by
        refine (Moves.stop rfl (view_found found) Process.view_main refused.1
          (by simpa using refused.2.1) refused.2.2).of_eq ?_
        simp only [view_record, view_putProcess, view_stopProcessRun,
          view_removeFromReadyQueue found, Process.view_setState_of_live .stopped rfl,
          Process.view_setSleepingUntil, Process.view_stopRun,
          Process.mainThread_setSleepingUntil, Process.mainThread_stopRun, Thread.view_stopRun]
        rfl
      split
      · next parent told =>
          obtain ⟨isParent, inTable, blocked, waiting⟩ := waitingParent_spec told
          exact .cons stopped rfl (.single rfl
            (notify_moves inTable blocked waiting rfl rfl rfl (.inr rfl)
              ⟨_, _, rfl, .stopped⟩))
      · exact .cons stopped rfl .start

/-- Only a stopped process is continued. -/
theorem continueUserProcess_spec
    (continued : table.continueUserProcess callerPid pid = some after) :
    ∃ process, process.pid = pid ∧ table.get process.pid = some process ∧
      process.state = .stopped ∧
      ((table.putProcess (process.setState .ready)).enqueueReady process.mainTid).record
        (.continued process.pid) = after := by
  obtain ⟨caller, -, rest⟩ := Option.bind_eq_some_iff.mp continued
  obtain ⟨process, found, rest⟩ := Option.bind_eq_some_iff.mp rest
  split_ifs at rest with denied notStopped
  obtain rfl := pid_of_get found
  exact ⟨process, rfl, found, by simpa using notStopped, Option.some.inj rest⟩

theorem continueUserProcess_moves
    (continued : table.continueUserProcess callerPid pid = some after) :
    Moves (table.view unborn cpu) (.resumeJob pid) (after.view unborn cpu) := by
  obtain ⟨process, rfl, found, stopped, rfl⟩ := continueUserProcess_spec continued
  refine (Moves.resumeJob (view_found found) Process.view_main stopped).of_eq ?_
  simp only [view_record, view_enqueueReady, view_putProcess,
    Process.view_setState_of_live .ready rfl]
  rfl

/-- The target of a signal is another live user process. -/
theorem signalTarget_spec (targeted : table.signalTarget callerPid targetPid = .ok target) :
    table.get targetPid = some target ∧ callerPid ≠ targetPid ∧
      target.kind = .userProcess ∧ target.state.terminal = false := by
  unfold signalTarget at targeted
  split_ifs at targeted with isSelf
  split at targeted
  · next caller found callerFound targetFound =>
      split_ifs at targeted with kernel terminal denied
      cases targeted
      exact ⟨targetFound, isSelf, by simpa using kernel, by simpa using terminal⟩
  · cases targeted

/-- A child that has ended is collected by its parent. -/
theorem collect_moves
    (found : table.get child = some process)
    (isOver : process.state = .exited ∨ process.state = .zombie)
    (isParent : process.parentPid = some parent)
    (kept : process.exitStatus.getD 0 = status) :
    Moves (table.view unborn cpu) (.collect parent child status)
      (((table.putProcess (process.setState .reaped)).record
        (.collected parent child status)).view unborn cpu) := by
  obtain rfl := pid_of_get found
  refine (Moves.collect (view_found found) isOver isParent kept).of_eq ?_
  simp only [view_record, view_putProcess, Process.view_setState_of_terminal .reaped rfl]
  rfl

theorem get_markExited (found : table.get pid = some process) :
    (table.markExited now pid status).get other =
      if other = pid then some (process.exitWith now status) else table.get other := by
  obtain rfl := pid_of_get found
  simp only [markExited, get_removeFromReadyQueue, found, get_record, get_putProcess,
    get_stopProcessRun]
  rfl

/-- Handing the status over to the parent that waits for it. -/
theorem handOver_trail
    (foundTarget : table.get targetPid = some target)
    (isOver : target.state = .exited ∨ target.state = .zombie)
    (isParent : target.parentPid = some parent.pid)
    (kept : target.exitStatus.getD 0 = status)
    (foundParent : table.get parent.pid = some parent)
    (blocked : parent.state = .blocked)
    (waiting : parent.waitingFor = some targetPid) :
    FreeTrail (table.view unborn cpu)
      ((table.handOver parent targetPid status).view unborn cpu) := by
  obtain rfl := pid_of_get foundTarget
  have differ : parent.pid ≠ target.pid := by
    intro same
    rw [same, foundTarget] at foundParent
    obtain rfl := Option.some.inj foundParent
    simp [blocked] at isOver
  have stays : ((table.putProcess (target.setState .reaped)).record
      (.collected parent.pid target.pid status)).get parent.pid = some parent := by
    simp [differ, foundParent]
  simp only [handOver, foundTarget, stays]
  exact .next (.single rfl (collect_moves foundTarget isOver isParent kept)) rfl
    (notify_moves stays blocked waiting rfl rfl rfl (.inl rfl) ⟨_, _, rfl, .collected⟩)

/-- Terminating another process; a parent that waits for it collects the status. -/
theorem terminateUserProcess_trail
    (elsewhere : ∀ tid, cpu ≠ some (targetPid, tid))
    (terminated : table.terminateUserProcess now callerPid targetPid status =
      .ok (report, after)) :
    FreeTrail (table.view unborn cpu) (after.view unborn cpu) := by
  unfold terminateUserProcess at terminated
  split at terminated
  · cases terminated
  next target targeted =>
    obtain ⟨found, differ, user, live⟩ := signalTarget_spec targeted
    obtain rfl := pid_of_get found
    have keeps : cpu.filter (fun current => decide (current.1 ≠ target.pid)) =
        cpu := by
      cases cpu with
      | none => rfl
      | some current =>
        refine Option.filter_eq_some_iff.mpr ⟨rfl, ?_⟩
        have := elsewhere current.2
        simp only [ne_eq, Option.some.injEq, Prod.ext_iff, and_true] at this
        simpa using this
    have finished : Moves (table.view unborn cpu) (.finish target.pid target.parentPid status)
        ((table.markExited now target.pid status).view unborn cpu) := by
      have moved := @markExited_moves table unborn cpu _ _ status now found user live
      rwa [keeps] at moved
    dsimp only at terminated
    split at terminated
    · next parent told =>
        obtain ⟨isParent, inTable, blocked, waiting⟩ := waitingParent_spec told
        cases terminated
        have ended : (table.markExited now target.pid status).get target.pid =
            some (target.exitWith now status) :=
          (get_markExited found).trans (if_pos rfl)
        refine Trail.trans (.single rfl finished) (handOver_trail ended ?_ isParent rfl inTable
          blocked waiting)
        simp [Process.exitWith, isParent]
    · cases terminated
      exact .single rfl finished

/-- A process that is not on the processor is diverted to a signal handler. -/
theorem activateSignalHandler_moves
    (elsewhere : ∀ tid, cpu ≠ some (pid, tid))
    (found : table.get pid = some process)
    (user : process.kind = .userProcess)
    (live : process.state.terminal = false)
    (activated : table.activateSignalHandler pid signal handler = some after) :
    Moves (table.view unborn cpu) (.handle pid process.mainTid)
      (after.view unborn cpu) := by
  obtain rfl := pid_of_get found
  simp only [activateSignalHandler, found, Option.bind_eq_bind, Option.bind_some] at activated
  split_ifs at activated with active
  obtain ⟨original, saved, ⟨⟩⟩ := Option.bind_eq_some_iff.mp activated
  refine (Moves.handle handler signal elsewhere (view_found found) Process.view_main user
    live (by simpa using active) saved).of_eq ?_
  simp only [view_record, view_enqueueReady, view_putProcess,
    Process.view_refreshStateFromThreads, Process.view_setSleepingUntil,
    Process.view_setWaitingFor, Process.view_modifyMainThread]
  rfl

theorem view_addPendingSignal (found : table.get pid = some target) :
    (table.addPendingSignal target signal mask).2.view unborn cpu =
      table.view unborn cpu :=
  view_putProcess_of_view_eq found rfl rfl

/-- The move of a signal that its target does not block and has a handler for. -/
def Diverts (table : ProcessTable) (pid : Pid) (signal : UInt64) (move : Move) : Prop :=
  (table.get pid).any (·.handles signal) = true ∧ ∃ main, move = .handle pid main

/-- Sending a signal: the target may be diverted to a handler or end. -/
theorem sendSignal_trail
    (elsewhere : ∀ tid, cpu ≠ some (targetPid, tid))
    (sent : table.sendSignal now callerPid targetPid signal = .ok (delivery, after)) :
    CausedTrail (table.Diverts targetPid signal) (table.view unborn cpu)
      (after.view unborn cpu) := by
  unfold sendSignal at sent
  split at sent
  · cases sent
  next target targeted =>
    obtain ⟨found, differ, user, live⟩ := signalTarget_spec targeted
    split at sent
    · cases sent
    next mask isMask =>
    split_ifs at sent with blocked ignored handled
    · have pending := congrArg (fun result => result.2.view unborn cpu)
        (Except.ok.inj sent)
      rw [view_addPendingSignal found] at pending
      exact pending ▸ .start
    · cases sent
      exact .start
    · split at sent
      · next activated isActivated =>
          cases sent
          refine .cons (activateSignalHandler_moves elsewhere found user live isActivated)
            ⟨?_, _, rfl⟩ .start
          simp [found, Process.handles, isMask, not_not.mp blocked, ignored, handled]
      · have pending := congrArg (fun result => result.2.view unborn cpu)
          (Except.ok.inj sent)
        rw [view_addPendingSignal found] at pending
        exact pending ▸ .start
    · split at sent
      · next report terminated isTerminated =>
          cases sent
          exact .of_free (terminateUserProcess_trail elsewhere isTerminated)
      · cases sent

theorem view_setSignalDisposition
    (changed : table.setSignalDisposition pid signal disposition = some (old, after)) :
    after.view unborn cpu = table.view unborn cpu := by
  unfold setSignalDisposition at changed
  split_ifs at changed
  obtain ⟨process, found, ⟨⟩⟩ := Option.bind_eq_some_iff.mp changed
  exact view_putProcess_of_view_eq found rfl rfl

theorem view_updateSignalMask
    (changed : table.updateSignalMask pid how mask = some (update, after)) :
    after.view unborn cpu = table.view unborn cpu := by
  obtain ⟨process, found, rest⟩ := Option.bind_eq_some_iff.mp changed
  split_ifs at rest
  cases rest
  exact view_putProcess_of_view_eq found rfl rfl

theorem view_setProcessGroup
    (changed : table.setProcessGroup callerPid targetPid group = .ok (moved, after)) :
    after.view unborn cpu = table.view unborn cpu := by
  unfold setProcessGroup at changed
  split at changed
  · next caller target callerFound targetFound =>
      dsimp only at changed
      generalize (if group = 0 then targetPid else group) = chosen at changed
      split_ifs at changed
      cases changed
      exact view_putProcess_of_view_eq targetFound rfl rfl
  · cases changed

theorem view_createSession (changed : table.createSession pid = .ok (moved, after)) :
    after.view unborn cpu = table.view unborn cpu := by
  unfold createSession at changed
  split at changed
  · cases changed
  · next process found =>
      split_ifs at changed
      cases changed
      exact view_putProcess_of_view_eq found rfl rfl

theorem view_setCredentials (changed : table.setCredentials pid credentials = some after) :
    after.view unborn cpu = table.view unborn cpu := by
  obtain ⟨process, found, ⟨⟩⟩ := Option.bind_eq_some_iff.mp changed
  exact view_putProcess_of_view_eq found rfl rfl

theorem view_setCwd (changed : table.setCwd pid cwd = some after) :
    after.view unborn cpu = table.view unborn cpu := by
  obtain ⟨process, found, ⟨⟩⟩ := Option.bind_eq_some_iff.mp changed
  exact view_putProcess_of_view_eq found rfl rfl

@[simp] theorem view_markIsolated :
    (table.markIsolated pid).view unborn cpu = table.view unborn cpu := by
  unfold markIsolated
  split
  · next process found => exact view_putProcess_of_view_eq found rfl rfl
  · rfl

end ProcessTable

end Vantara
