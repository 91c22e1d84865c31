import Vantara.Runtime
import Vantara.Lifecycle.Departures

/-!
# The landing value and the calling thread

The system call stub does not return to user mode when the result register holds
the landing value.  A thread to which that happens should be off the processor in
the process table.  It is not if the value was meant for the program, nor if the
call blocked the process on behalf of a thread other than the main one.
-/

namespace Vantara

open Foundation Lifecycle

namespace Kernel

variable {kernel : Kernel} {env : UserEnv} {frame : SyscallFrame}

/-! ## Landing values that leave the caller running -/

/-- The caller stays on the processor while it collects a child. -/
theorem runs_reapChild {table : ProcessTable}
    (runs : table.Runs pid tid process owned)
    (collected : table.reapChild pid child = some (status, reaped)) :
    ∃ process' owned', reaped.Runs pid tid process' owned' := by
  obtain ⟨ended, found, rest⟩ := Option.bind_eq_some_iff.mp collected
  split_ifs at rest with notParent notOver
  have differ : pid ≠ ended.pid := by
    rintro rfl
    obtain rfl := ProcessTable.pid_of_get found
    obtain rfl := Option.mem_unique found runs.found
    have live := runs.live
    revert notOver live
    cases ended.state <;> simp [ProcessState.terminal]
  have stays : ((table.putProcess (ended.setState .reaped)).record
      (.collected pid child (ended.exitStatus.getD 0))).get pid = some process := by
    simp [differ, runs.found]
  simp only [stays] at rest
  split_ifs at rest
  · cases rest
    obtain rfl := ProcessTable.pid_of_get runs.found
    obtain ⟨owned', owns, threadRuns⟩ : ∃ owned',
        ((process.setWaitingFor none).setMainContext none).threads.get tid = some owned' ∧
          owned'.state = .running := by
      simp only [Process.setMainContext, Process.modifyMainThread, Process.modifyThread_threads,
        Process.setWaitingFor_threads, ThreadStore.get_modify, runs.owns, Option.map_some]
      split_ifs
      · exact ⟨_, rfl, runs.threadRuns⟩
      · exact ⟨_, rfl, runs.threadRuns⟩
    exact ⟨(process.setWaitingFor none).setMainContext none, owned', by simp, runs.user,
      runs.live, owns, threadRuns⟩
  · cases rest
    exact ⟨process, owned, stays, runs.user, runs.live, runs.owns, runs.threadRuns⟩

/-- A handler's landing value reaches the result register. -/
theorem dispatch_eq
    (decoded : Syscall.decode frame.number = some call)
    (handled : kernel.handle env frame call = some (.ok value, after)) :
    kernel.syscallInterruptDispatch env frame = some (value, after) := by
  rw [syscallInterruptDispatch, decoded]
  simp only [handled, Option.map_some]
  rfl

/-- A call whose value collides with the landing value leaves its caller running. -/
theorem lands_of_collides
    (runs : kernel.Runs pid tid process owned)
    (clash : kernel.collides env frame = true) :
    ∃ after, kernel.syscallInterruptDispatch env frame = some (syscallReturnToKernel, after) ∧
      (after.viewAt (some (pid, tid))).Runs pid tid := by
  have found := runs.inTable.found
  have current := runs.currentProcess
  unfold collides at clash
  simp only [currentProcess, current, Option.bind_some, found, Option.any_some] at clash
  split at clash
  · next unknown =>
      refine ⟨kernel, ?_, runs_viewAt runs.inTable⟩
      rw [syscallInterruptDispatch, unknown]
      rfl
  · next decoded =>
      split at clash
      · next child _ isChild isCurrent =>
          cases isCurrent
          obtain ⟨ended, foundChild, landing⟩ := (Option.any_eq_true _ _).mp clash
          simp only [endedWithLandingValue, Bool.and_eq_true, Bool.or_eq_true,
            decide_eq_true_eq] at landing
          obtain ⟨⟨isParent, isOver⟩, landing⟩ := landing
          obtain ⟨reaped, collected⟩ :=
            reapChild_eq_some_iff.mpr ⟨ended, foundChild, isParent, isOver, landing⟩
          obtain ⟨_, _, found', user, live, owns, threadRuns⟩ :=
            runs_reapChild runs.inTable collected
          refine ⟨kernel.withTable (reaped.record (.answered pid child syscallReturnToKernel)),
            dispatch_eq decoded ?_, runs_viewAt ⟨found', user, live, owns, threadRuns⟩⟩
          simp [handle, waitForPendingChild, isChild, current, collected]
      · cases clash
  · next decoded =>
      have landing : process.pendingSignals = syscallReturnToKernel := by simpa using clash
      refine ⟨kernel, dispatch_eq decoded ?_, runs_viewAt runs.inTable⟩
      simp [handle, currentPendingSignals, orInvalid, currentProcess, current, found, landing]
  · next decoded =>
      obtain ⟨accepted, landing⟩ : kernel.acceptsSignalAction env frame.arg0 frame.arg1 = true ∧
          process.sigtermDisposition = syscallReturnToKernel := by simpa using clash
      have answered : kernel.setSignalAction env frame.arg0 frame.arg1 = _ :=
        ((setSignalAction_spec runs).resolve_right fun refused => by
          simp [accepted] at refused).2
      rw [landing] at answered
      obtain rfl := ProcessTable.pid_of_get found
      have stored : (kernel.table.putProcess { process with
          sigtermDisposition := frame.arg1 }).get process.pid =
            some { process with sigtermDisposition := frame.arg1 } :=
        ProcessTable.get_putProcess.trans (if_pos rfl)
      exact ⟨_, dispatch_eq decoded (congrArg some answered), runs_viewAt ⟨stored,
        runs.inTable.user, runs.inTable.live, runs.inTable.owns, runs.inTable.threadRuns⟩⟩
  · next decoded =>
      split at clash
      · next how _ isHow isProcess =>
          cases isProcess
          obtain ⟨⟨known, landing⟩, nothing⟩ : (frame.arg1 &&& ~~~sigtermMask = 0 ∧
              process.blockedSignals = syscallReturnToKernel) ∧
                deliversNothing process how frame.arg1 = true := by simpa using clash
          have quiet : MaskQuiet process frame := ⟨known, how, isHow, nothing⟩
          cases answered : kernel.updateSignalMask frame with
          | mk answer after =>
            cases updateSignalMask_spec runs answered with
            | refused loud | ended loud | handled loud => exact absurd quiet loud
            | returned _ sameView =>
              rw [landing] at answered
              refine ⟨_, dispatch_eq decoded (congrArg some answered), ?_⟩
              have stillRuns : (kernel.viewAt (some (pid, tid))).Runs pid tid :=
                runs_viewAt runs.inTable
              rw [viewAt, ← sameView] at stillRuns
              exact stillRuns
      · cases clash
  · next decoded =>
      obtain ⟨landing, room⟩ : kernel.ipc.nextEventId = syscallReturnToKernel ∧
          kernel.ipc.events.any Option.isNone = true := by simpa using clash
      have answered := createEvent_answer current
      rw [if_pos room, landing] at answered
      exact ⟨(kernel.withIpc kernel.createEvent).2,
        dispatch_eq decoded (by rw [handle, withIpc, answered]), runs_viewAt runs.inTable⟩
  · next decoded =>
      obtain ⟨landing, room⟩ : kernel.ipc.nextMessageQueueId = syscallReturnToKernel ∧
          kernel.ipc.messageQueues.any Option.isNone = true := by simpa using clash
      have answered := createMessageQueue_answer current
      rw [if_pos room, landing] at answered
      exact ⟨(kernel.withIpc kernel.createMessageQueue).2,
        dispatch_eq decoded (by rw [handle, withIpc, answered]), runs_viewAt runs.inTable⟩
  · cases clash

/-- A call that blocks the process for a thread other than the main one leaves its
caller running. -/
theorem lands_of_blocksProcess
    (runs : kernel.Runs pid tid process owned)
    (blocks : kernel.blocksProcess frame = true)
    (notMain : tid ≠ process.mainTid) :
    ∃ after, kernel.syscallInterruptDispatch env frame = some (syscallReturnToKernel, after) ∧
      (after.viewAt none).Runs pid tid := by
  have running : (kernel.viewAt (some (pid, tid))).Runs pid tid := runs_viewAt runs.inTable
  unfold blocksProcess at blocks
  split at blocks
  · next decoded =>
      obtain ⟨long, isRunning⟩ : frame.arg0 ≠ 0 ∧ process.state = .running := by
        simpa [currentProcess, runs.currentProcess, runs.inTable.found] using blocks
      cases answered : kernel.sleepCurrentUser frame with
      | mk answer after =>
        rcases sleepCurrentUser_spec runs answered with
          ⟨zero, -⟩ | ⟨-, -, rfl, leaves⟩ | ⟨-, notRunning, -⟩
        · exact absurd zero long
        · exact ⟨after, dispatch_eq decoded (congrArg some answered),
            leaves.departs.runs leaves.moves running rfl notMain.symm⟩
        · exact absurd isRunning notRunning
  · next decoded =>
      obtain ⟨child, isChild, blocks⟩ := (Option.any_eq_true _ _).mp blocks
      obtain ⟨pending, notCollectable⟩ : kernel.pendingPid = some child ∧
          kernel.collectable child = false := by simpa using blocks
      cases answered : kernel.waitForPendingChild frame with
      | mk answer after =>
        cases waitForPendingChild_spec runs answered with
        | refused _ nothing => exact absurd pending (nothing child isChild).2
        | collected isNamed collected =>
          obtain rfl := Option.mem_unique isChild isNamed
          obtain ⟨ended, found, isParent, isOver, -⟩ := reapChild_eq_some_iff.mp ⟨_, collected⟩
          rcases isOver with isOver | isOver <;>
            simp [collectable, found, isParent, runs.currentProcess, isOver] at notCollectable
        | waits _ _ _ moved =>
          exact ⟨after, dispatch_eq decoded (congrArg some answered),
            Departs.wait.runs moved running rfl notMain.symm⟩
  · cases blocks

/-- **The landing value.** When a system call of the thread on the processor ends
with the landing value, the thread has been taken off the processor, precisely if
the call hands out no value that collides with it and does not block the process
on behalf of a thread other than the main one. -/
theorem landing_checkedOut_iff
    (runs : kernel.Runs pid tid process owned)
    (owner : kernel.table.getByTid tid = some process) :
    (∀ after, kernel.syscallInterruptDispatch env frame = some (syscallReturnToKernel, after) →
      after.CheckedOut pid tid) ↔
    kernel.collides env frame = false ∧
      (kernel.blocksProcess frame = true → tid = process.mainTid) := by
  constructor
  · intro checkedOut
    constructor
    · by_contra clash
      obtain ⟨after, landed, running⟩ := lands_of_collides runs (by simpa using clash)
      exact not_checkedOut running (checkedOut after landed)
    · intro blocks
      by_contra notMain
      obtain ⟨after, landed, running⟩ := lands_of_blocksProcess runs blocks notMain
      exact not_checkedOut running (checkedOut after landed)
  · rintro ⟨clean, ownMain⟩ after landed
    unfold syscallInterruptDispatch at landed
    split at landed
    · next unknown => simp [collides, unknown] at clean
    · next call decoded =>
        obtain ⟨⟨answer, left⟩, handled, same⟩ := Option.map_eq_some_iff.mp landed
        obtain ⟨landing, rfl⟩ := Prod.mk.inj same
        exact checkedOut_of_handle runs owner decoded clean ownMain handled landing

/-- The first program sleeps, and its main thread is off the processor. -/
theorem landing_checkedOut_sleep :
    Sample.started.Runs 1 4 Sample.initProcess Sample.initThread ∧
      Sample.started.table.getByTid 4 = some Sample.initProcess ∧
      ∀ after, Sample.started.syscallInterruptDispatch Sample.env (Sample.frame 19 10 0 0 0) =
        some (syscallReturnToKernel, after) → after.CheckedOut 1 4 := by
  have runs : Sample.started.Runs 1 4 Sample.initProcess Sample.initThread :=
    ⟨by decide +kernel, by decide +kernel, (Option.some_get _).symm, by decide +kernel,
      by decide +kernel, (Option.some_get _).symm, by decide +kernel⟩
  have owner : Sample.started.table.getByTid 4 = some Sample.initProcess :=
    getByTid_of_pid (Option.some_get _).symm (by decide +kernel)
  exact ⟨runs, owner, (landing_checkedOut_iff runs owner).mpr
    ⟨by decide +kernel, by decide +kernel⟩⟩

/-- A call with an unknown number lands, and leaves its caller running. -/
theorem unknown_call_not_checkedOut :
    Transition.run step Sample.machine Sample.loadInit = some Sample.started ∧
      Sample.started.Runs 1 4 Sample.initProcess Sample.initThread ∧
      Sample.started.syscallInterruptDispatch Sample.env (Sample.frame 999 0 0 0 0) =
        some (syscallReturnToKernel, Sample.started) ∧
      ¬Sample.started.CheckedOut 1 4 :=
  ⟨(Option.some_get _).symm,
    ⟨by decide +kernel, by decide +kernel, (Option.some_get _).symm, by decide +kernel,
      by decide +kernel, (Option.some_get _).symm, by decide +kernel⟩,
    rfl, by decide +kernel⟩

end Kernel

end Vantara
