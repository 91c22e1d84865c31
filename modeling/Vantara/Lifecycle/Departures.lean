import Vantara.Lifecycle.Answers
import Vantara.Lifecycle.CallMoves

/-!
# Calls that take their caller off the processor

A thread that departs is off the processor in the process table, unless its call
blocked the main thread in its stead.  So a call that answers with the landing value
has taken its caller off, if the value was not meant for the program and the caller is
the main thread whenever the call blocks the process.
-/

namespace Vantara

open Foundation Lifecycle

namespace Lifecycle

/-- A thread is off the processor: it waits with a saved context, or it or its
process has ended. -/
def View.Off (view : View) (pid : Pid) (tid : Tid) : Prop :=
  ∀ process thread, view.process pid = some process → process.state.terminal = false →
    process.threads tid = some thread → thread.state.terminal = false →
    (thread.state = .blocked ∨ thread.state = .ready) ∧ thread.context.isSome = true

/-- A thread still counts as running. -/
def View.Runs (view : View) (pid : Pid) (tid : Tid) : Prop :=
  ∃ process thread, view.process pid = some process ∧ process.state.terminal = false ∧
    process.threads tid = some thread ∧ thread.state = .running

/-- The thread whose context a departure saves, if it blocks the process. -/
def Move.blockedMain : Move → Option Tid
  | .wait _ _ main _ _ | .sleep _ _ main _ => some main
  | _ => none

/-- A thread that departs is off the processor, unless its call blocked the main
thread in its stead. -/
theorem Departs.off (departs : Departs pid tid move) (moved : Moves view move after)
    (ownContext : ∀ main, move.blockedMain = some main → main = tid) :
    after.Off pid tid := by
  intro process' thread' found live owns threadLive
  cases departs with
  | park =>
    cases moved with
    | park _ _ _ _ parked =>
      simp only [View.setProcess_process, if_true, Option.some.injEq] at found
      subst found
      simp only [ProcessView.refresh_threads, ProcessView.setThread_threads, if_true,
        Option.some.injEq] at owns
      subst owns
      obtain ⟨waits, context, saved⟩ := parked.spec
      exact ⟨waits.symm, by simp [saved]⟩
  | exitThread =>
    cases moved with
    | exitThread _ _ _ terminal =>
      simp only [View.setProcess_process, if_true, Option.some.injEq] at found
      subst found
      simp only [ProcessView.refresh_threads, ProcessView.exitThread_threads, if_true]
        at owns
      obtain ⟨old, -, rfl⟩ := Option.map_eq_some_iff.mp owns
      simp [terminal] at threadLive
  | finish =>
    cases moved with
    | finish =>
      simp only [View.setProcess_process, if_true, Option.some.injEq] at found
      subst found
      simp only [ProcessView.ended_state] at live
      split_ifs at live <;> cases live
  | wait | sleep =>
    cases moved
    obtain rfl := ownContext _ rfl
    simp only [View.setProcess_process, if_true, Option.some.injEq] at found
    subst found
    simp only [ProcessView.setMain_threads, ProcessView.setThread_threads, if_true,
      Option.some.injEq] at owns
    subst owns
    exact ⟨.inl rfl, rfl⟩

/-- A thread whose call blocks the main thread in its stead still counts as
running. -/
theorem Departs.runs (departs : Departs pid tid move) (moved : Moves view move after)
    (running : view.Runs pid tid)
    (blocksMain : move.blockedMain = some main)
    (notMain : main ≠ tid) :
    after.Runs pid tid := by
  obtain ⟨process, thread, found, -, owns, threadRuns⟩ := running
  cases departs with
  | park | exitThread | finish => cases blocksMain
  | wait | sleep =>
    cases blocksMain
    cases moved
    obtain rfl := Option.mem_unique found ‹view.process pid = some _›
    exact ⟨_, thread, if_pos rfl, rfl, (if_neg notMain.symm).trans owns, threadRuns⟩

end Lifecycle

namespace Kernel

variable {kernel after : Kernel} {env : UserEnv} {frame : SyscallFrame}

/-- The thread is off the processor in the process table. -/
def CheckedOut (kernel : Kernel) (pid : Pid) (tid : Tid) : Prop :=
  ∀ process thread, kernel.table.get pid = some process → process.state.terminal = false →
    process.threads.get tid = some thread → thread.state.terminal = false →
    (thread.state = .blocked ∨ thread.state = .ready) ∧ thread.resumeContext.isSome = true

instance : Decidable (kernel.CheckedOut pid tid) :=
  decidable_of_iff
    ((kernel.table.get pid).all fun process => process.state.terminal ||
      (process.threads.get tid).all fun thread => thread.state.terminal ||
        (decide (thread.state = .blocked ∨ thread.state = .ready) &&
          thread.resumeContext.isSome)) (by
    simp only [CheckedOut, Option.all_eq_true, Bool.or_eq_true, Bool.and_eq_true,
      decide_eq_true_eq, ← Bool.not_eq_true]
    grind)

/-- Whether a process is a child of another that has ended with the landing value
as its status. -/
def endedWithLandingValue (parent : Pid) (child : Process) : Bool :=
  decide (child.parentPid = some parent) &&
    (decide (child.state = .exited) || decide (child.state = .zombie)) &&
      decide (child.exitStatus.getD 0 = syscallReturnToKernel)

/-- Whether a change of the disposition of the terminate request is accepted. -/
def acceptsSignalAction (kernel : Kernel) (env : UserEnv) (signal disposition : UInt64) : Bool :=
  decide (signal = sigterm) &&
    (decide (disposition ≤ sigIgn) || (kernel.checkEntry env disposition).isOk)

/-- Whether a call hands the program a value that is the landing value: the code
of the error for unknown calls, the status of a child, the old value of a signal
attribute, or a fresh identifier. -/
def collides (kernel : Kernel) (env : UserEnv) (frame : SyscallFrame) : Bool :=
  match Syscall.decode frame.number with
  | none => true
  | some .waitpid =>
    match Word.toUInt32? frame.arg0, kernel.currentUserProcess with
    | some child, some pid => (kernel.table.get child).any (endedWithLandingValue pid)
    | _, _ => false
  | some .sigpending =>
    kernel.currentProcess.any fun process =>
      decide (process.pendingSignals = syscallReturnToKernel)
  | some .sigaction =>
    kernel.acceptsSignalAction env frame.arg0 frame.arg1 &&
      kernel.currentProcess.any fun process =>
        decide (process.sigtermDisposition = syscallReturnToKernel)
  | some .sigprocmask =>
    match maskHow frame.arg0, kernel.currentProcess with
    | some how, some process =>
      decide (frame.arg1 &&& ~~~sigtermMask = 0) &&
        decide (process.blockedSignals = syscallReturnToKernel) &&
          deliversNothing process how frame.arg1
    | _, _ => false
  | some .eventCreate =>
    decide (kernel.ipc.nextEventId = syscallReturnToKernel) &&
      kernel.ipc.events.any Option.isNone
  | some .msgqCreate =>
    decide (kernel.ipc.nextMessageQueueId = syscallReturnToKernel) &&
      kernel.ipc.messageQueues.any Option.isNone
  | some _ => false

/-- Whether a child of the current process has ended and can be collected. -/
def collectable (kernel : Kernel) (child : Pid) : Bool :=
  (kernel.table.get child).any fun process =>
    decide (process.parentPid = kernel.currentUserProcess) &&
      (decide (process.state = .exited) || decide (process.state = .zombie))

/-- Whether a call blocks the process as a whole: a sleep, or a wait for the
program that is loaded next. -/
def blocksProcess (kernel : Kernel) (frame : SyscallFrame) : Bool :=
  match Syscall.decode frame.number with
  | some .sleepMs =>
    decide (frame.arg0 ≠ 0) &&
      kernel.currentProcess.any fun process => decide (process.state = .running)
  | some .waitpid =>
    (Word.toUInt32? frame.arg0).any fun child =>
      decide (kernel.pendingPid = some child) && !kernel.collectable child
  | _ => false

theorem checkedOut_of_off (off : (after.viewAt cpu).Off pid tid) : after.CheckedOut pid tid := by
  intro process thread found live owns threadLive
  exact off process.view thread.view (ProcessTable.view_found found) live
    (Process.view_thread owns) threadLive

/-- A thread that still counts as running is not off the processor. -/
theorem not_checkedOut (runs : (after.viewAt cpu).Runs pid tid) : ¬after.CheckedOut pid tid := by
  intro off
  obtain ⟨_, _, found, live, owns, threadRuns⟩ := runs
  obtain ⟨process, inTable, rfl⟩ := Option.map_eq_some_iff.mp found
  obtain ⟨owned, inProcess, rfl⟩ := Option.map_eq_some_iff.mp owns
  have running : owned.state = .running := threadRuns
  obtain ⟨waits, -⟩ := off process owned inTable live inProcess (by rw [running]; rfl)
  simp [running] at waits

theorem runs_viewAt (runs : after.table.Runs pid tid process owned) :
    (after.viewAt cpu).Runs pid tid :=
  ⟨process.view, owned.view, ProcessTable.view_found runs.found, runs.live,
    Process.view_thread runs.owns, runs.threadRuns⟩

/-! ## Calls that answer with a value of the kernel's -/

theorem createEvent_answer (current : kernel.currentUserProcess = some pid) :
    kernel.createEvent.1 =
      if kernel.ipc.events.any Option.isNone then .ok kernel.ipc.nextEventId
      else .error .wouldBlock := by
  simp only [createEvent, current, Ipc.occupy]
  split_ifs <;> rfl

theorem createMessageQueue_answer (current : kernel.currentUserProcess = some pid) :
    kernel.createMessageQueue.1 =
      if kernel.ipc.messageQueues.any Option.isNone then .ok kernel.ipc.nextMessageQueueId
      else .error .wouldBlock := by
  simp only [createMessageQueue, current, Ipc.occupy]
  split_ifs <;> rfl

/-- A fresh identifier is visible unless it is the landing value. -/
theorem visible_fresh (clean : (decide (fresh = syscallReturnToKernel) && hasRoom) = false) :
    Visible (if hasRoom = true then .ok fresh else .error .wouldBlock) := by
  refine .ite (fun room => .ok fun same => ?_) fun _ => .error (by decide)
  simp [same, room] at clean

theorem setSignalAction_spec (runs : kernel.Runs pid tid process owned) :
    (kernel.acceptsSignalAction env signal disposition = true ∧
      kernel.setSignalAction env signal disposition =
        (.ok process.sigtermDisposition, kernel.withTable
          (kernel.table.putProcess { process with sigtermDisposition := disposition }))) ∨
    (kernel.acceptsSignalAction env signal disposition = false ∧
      Visible (kernel.setSignalAction env signal disposition).1) := by
  unfold setSignalAction acceptsSignalAction
  by_cases isTerm : signal = sigterm
  · subst isTerm
    have replaced : kernel.table.setSignalDisposition pid sigterm disposition =
        some (process.sigtermDisposition,
          kernel.table.putProcess { process with sigtermDisposition := disposition }) := by
      simp [ProcessTable.setSignalDisposition, runs.inTable.found]
    by_cases small : disposition ≤ sigIgn
    · simp [small, UInt64.not_lt.mpr small, runs.currentProcess, replaced]
    · cases checked : kernel.checkEntry env disposition with
      | error refusal =>
        right
        have visible : Visible (.error refusal) := visible_of_refused (checked ▸ reports_checkEntry)
        simpa [small, UInt64.not_le.mp small, checked, Except.isOk, Except.toBool]
          using visible
      | ok =>
        simp [UInt64.not_le.mp small, Except.isOk, Except.toBool, runs.currentProcess, replaced]
  · right
    simpa [isTerm] using Outcome.error (by decide)

/-- Calls after which the calling thread stays on the processor. -/
def Syscall.returns : Syscall → Bool
  | .exit | .threadExit | .threadJoin | .yield | .sleepMs | .sigprocmask | .sigreturn
  | .eventWait | .waitpid => false
  | _ => true

/-- Such a call answers with the landing value only if the value collides. -/
theorem visible_handle
    (runs : kernel.Runs pid tid process owned)
    (decoded : Syscall.decode frame.number = some call)
    (clean : kernel.collides env frame = false)
    (returns : Syscall.returns call = true)
    (handled : kernel.handle env frame call = some (answer, after)) :
    Visible answer := by
  rw [collides, decoded] at clean
  cases call <;> try cases returns
  case exec => exact visible_execWithMode handled
  case execBg => exact visible_execWithMode handled
  case uptime =>
    obtain ⟨_, answered, ⟨⟩⟩ := Option.map_eq_some_iff.mp handled
    exact visible_uptimeToUser answered
  case reboot => cases handled
  all_goals obtain rfl : _ = answer := congrArg Prod.fst (Option.some.inj handled)
  case write => exact visible_commit visible_writeUserBuffer
  case getuid => exact .ok (toUInt64_ne _)
  case getgid => exact .ok (toUInt64_ne _)
  case whoami => exact visible_copyToUserBuffer
  case listdir => exact visible_listDirToUser
  case readFile => exact visible_readFileToUser
  case stat => exact visible_statToUser
  case openFile => exact visible_commit visible_openFile
  case read => exact visible_commit visible_readFdToUser
  case close => exact visible_commit visible_closeFd
  case procs => exact visible_listingToUser
  case kill => exact visible_terminateProcess
  case getcwd => exact visible_copyToUserBuffer
  case chdir => exact visible_chdirUser
  case setuser => exact visible_setCurrentUserName
  case pciList => exact visible_listingToUser
  case netdevList => exact visible_listingToUser
  case klogRead => exact visible_listingToUser
  case driverStatus => exact visible_listingToUser
  case abiInfo => exact .ok (by decide)
  case threadCreate => exact visible_createUserThread
  case threadSpawn => exact visible_spawnUserThread
  case pipe => exact visible_createPipe
  case eventCreate =>
    exact (createEvent_answer runs.currentProcess).symm ▸ visible_fresh clean
  case eventSignal => exact visible_signalEvent
  case eventClose => exact visible_commit visible_closeEvent
  case msgqCreate =>
    exact (createMessageQueue_answer runs.currentProcess).symm ▸ visible_fresh clean
  case msgqSend => exact visible_commit visible_sendMessage
  case msgqRecv => exact visible_commit visible_receiveMessage
  case msgqClose => exact visible_commit visible_closeMessageQueue
  case sigpending =>
    refine reports_valid.bind fun process found => .ok ?_
    simpa [found] using clean
  case sigaction =>
    rcases setSignalAction_spec runs with ⟨accepted, answered⟩ | ⟨-, visible⟩
    · rw [answered]
      refine .ok fun same => ?_
      simp [accepted, currentProcess, runs.currentProcess, runs.inTable.found, same] at clean
    · exact visible
  case getpgrp => exact visible_currentProcessGroup
  case setpgid => exact visible_setProcessGroup
  case getsid => exact visible_getSessionId
  case setsid => exact visible_createSession
  case create => exact visible_commit visible_createFile
  case unlink => exact visible_unlinkFile
  case rename => exact visible_renameFile
  case mkdir => exact visible_pathRequest
  case rmdir => exact visible_pathRequest

/-! ## Calls after which the caller may be off the processor -/

theorem Leaves.checkedOut
    (leaves : kernel.Leaves pid tid move after)
    (ownContext : ∀ main, move.blockedMain = some main → main = tid) :
    after.CheckedOut pid tid :=
  checkedOut_of_off (leaves.departs.off leaves.moves ownContext)

/-- Only a child that has ended and can be collected is collected. -/
theorem reapChild_eq_some_iff {table : ProcessTable} :
    (∃ reaped, table.reapChild pid child = some (status, reaped)) ↔
      ∃ ended, table.get child = some ended ∧ ended.parentPid = some pid ∧
        (ended.state = .exited ∨ ended.state = .zombie) ∧ ended.exitStatus.getD 0 = status := by
  constructor
  · rintro ⟨reaped, collected⟩
    obtain ⟨ended, found, rest⟩ := Option.bind_eq_some_iff.mp collected
    split_ifs at rest with notParent notOver
    cases rest
    exact ⟨ended, found, by simpa using notParent, by tauto, rfl⟩
  · rintro ⟨ended, found, isParent, isOver, rfl⟩
    have isOver' : ¬(ended.state ≠ .exited ∧ ended.state ≠ .zombie) := by tauto
    simp [ProcessTable.reapChild, found, isParent, isOver']

/-- A sleep of some length blocks a running process. -/
theorem blocksProcess_of_sleep
    (runs : kernel.Runs pid tid process owned)
    (decoded : Syscall.decode frame.number = some .sleepMs)
    (long : frame.arg0 ≠ 0)
    (running : process.state = .running) :
    kernel.blocksProcess frame = true := by
  simp [blocksProcess, decoded, long, currentProcess, runs.currentProcess, runs.inTable.found,
    running]

/-- A wait for the program that is loaded next blocks the process. -/
theorem blocksProcess_of_wait
    (current : kernel.currentUserProcess = some pid)
    (decoded : Syscall.decode frame.number = some .waitpid)
    (isChild : Word.toUInt32? frame.arg0 = some child)
    (notReaped : kernel.table.reapChild pid child = none)
    (pending : kernel.pendingPid = some child) :
    kernel.blocksProcess frame = true := by
  have notCollectable : kernel.collectable child = false := by
    by_contra isCollectable
    simp only [collectable, current, Bool.not_eq_false, Option.any_eq_true,
      Bool.and_eq_true, Bool.or_eq_true, decide_eq_true_eq] at isCollectable
    obtain ⟨ended, found, isParent, isOver⟩ := isCollectable
    obtain ⟨_, collected⟩ := reapChild_eq_some_iff.mpr ⟨ended, found, isParent, isOver, rfl⟩
    simp [notReaped] at collected
  simp [blocksProcess, decoded, isChild, pending, notCollectable]

/-- After a wait that answers with the landing value the caller is off the
processor, if no such status was collected and the caller is the main thread. -/
theorem WaitOutcome.checkedOut (outcome : WaitOutcome kernel pid tid process frame answer after)
    (current : kernel.currentUserProcess = some pid)
    (decoded : Syscall.decode frame.number = some .waitpid)
    (clean : kernel.collides env frame = false)
    (ownMain : kernel.blocksProcess frame = true → tid = process.mainTid)
    (landing : answer.register = syscallReturnToKernel) :
    after.CheckedOut pid tid := by
  cases outcome with
  | refused visible => exact absurd landing (register_ne_of_visible (.error visible))
  | @collected _ _ _ isChild collected =>
    obtain ⟨ended, found, isParent, isOver, rfl⟩ := reapChild_eq_some_iff.mp ⟨_, collected⟩
    have isLanding : ended.exitStatus.getD 0 = syscallReturnToKernel := landing
    rcases isOver with isOver | isOver <;>
      simp [collides, decoded, isChild, current, found, endedWithLandingValue, isParent, isOver,
        isLanding] at clean
  | @waits _ _ isChild notReaped pending moved =>
    have blocks := blocksProcess_of_wait current decoded isChild notReaped pending
    refine checkedOut_of_off (Departs.wait.off moved fun main isMain => ?_)
    rw [ownMain blocks]
    exact (Option.some.inj isMain).symm

/-- A call that answers with the landing value has taken its caller off the
processor, if the value does not collide and the caller is the main thread
whenever the call blocks the process. -/
theorem checkedOut_of_handle
    (runs : kernel.Runs pid tid process owned)
    (owner : kernel.table.getByTid tid = some process)
    (decoded : Syscall.decode frame.number = some call)
    (clean : kernel.collides env frame = false)
    (ownMain : kernel.blocksProcess frame = true → tid = process.mainTid)
    (handled : kernel.handle env frame call = some (answer, after))
    (landing : answer.register = syscallReturnToKernel) :
    after.CheckedOut pid tid := by
  have ownThread : ∀ {parking main}, (Move.park pid tid parking).blockedMain = some main →
    main = tid := by rintro _ _ ⟨⟩
  have hidden : ¬Visible answer := fun visible => register_ne_of_visible visible landing
  by_cases returns : Syscall.returns call = true
  · exact absurd (visible_handle runs decoded clean returns handled) hidden
  cases call <;> try cases returns rfl
  case exit =>
    cases handled
    exact (markCurrentUserExited_leaves runs).checkedOut (by rintro _ ⟨⟩)
  case threadExit =>
    rcases exitUserThread_spec runs owner (Option.some.inj handled) with
      ⟨-, leaves⟩ | ⟨rfl, -⟩
    · exact leaves.checkedOut (by rintro _ ⟨⟩)
    · exact absurd (.error (by decide)) hidden
  case threadJoin =>
    rcases joinUserThread_spec runs owner (Option.some.inj handled) with
      ⟨-, leaves⟩ | ⟨rfl | rfl, -⟩
    · exact leaves.checkedOut fun _ => ownThread
    · exact absurd (.ok zero_ne) hidden
    · exact absurd (.error (by decide)) hidden
  case yield =>
    rcases userYield_spec runs owner (Option.some.inj handled) with ⟨-, leaves⟩ | ⟨rfl, -⟩
    · exact leaves.checkedOut fun _ => ownThread
    · exact absurd (.ok zero_ne) hidden
  case sleepMs =>
    rcases sleepCurrentUser_spec runs (Option.some.inj handled) with
      ⟨-, rfl, -⟩ | ⟨long, running, -, leaves⟩ | ⟨-, -, rfl⟩
    · exact absurd (.ok zero_ne) hidden
    · have blocks := blocksProcess_of_sleep runs decoded long running
      refine leaves.checkedOut fun main isMain => ?_
      rw [ownMain blocks]
      exact (Option.some.inj isMain).symm
    · exact absurd (.error (by decide)) hidden
  case sigprocmask =>
    cases updateSignalMask_spec runs (Option.some.inj handled) with
    | refused => exact absurd (.error (by decide)) hidden
    | returned quiet =>
      obtain ⟨known, how, isHow, nothing⟩ := quiet
      have isLanding : process.blockedSignals = syscallReturnToKernel := landing
      simp [collides, decoded, isHow, currentProcess, runs.currentProcess,
        runs.inTable.found, known, nothing, isLanding] at clean
    | ended _ leaves => exact leaves.checkedOut (by rintro _ ⟨⟩)
    | handled _ leaves => exact leaves.checkedOut fun _ => ownThread
  case sigreturn =>
    cases restored : kernel.checkoutCurrentUserAfterSigreturn with
    | some left =>
      simp only [handle, restored] at handled
      cases handled
      obtain ⟨_, leaves⟩ := sigreturn_spec runs restored
      exact leaves.checkedOut fun _ => ownThread
    | none =>
      simp only [handle, restored] at handled
      cases handled
      exact absurd (.error (by decide)) hidden
  case eventWait =>
    rcases waitEvent_spec runs owner (Option.some.inj handled) with
      ⟨-, leaves⟩ | ⟨rfl | rfl | rfl, -⟩
    · exact leaves.checkedOut fun _ => ownThread
    · exact absurd (.ok zero_ne) hidden
    · exact absurd (.error (by decide)) hidden
    · exact absurd (.error (by decide)) hidden
  case waitpid =>
    exact (waitForPendingChild_spec runs (Option.some.inj handled)).checkedOut
      runs.currentProcess decoded clean ownMain landing

/-- The owner of a thread is known by its process identifier. -/
theorem getByTid_of_pid {table : ProcessTable}
    (found : table.get pid = some process)
    (named : (table.getByTid tid).map Process.pid = some pid) :
    table.getByTid tid = some process := by
  obtain ⟨owner, foundOwner, rfl⟩ := Option.map_eq_some_iff.mp named
  rw [foundOwner, ← found, (ProcessTable.getByTid_spec foundOwner).1]

end Kernel

end Vantara
