import Vantara.User.ProcessTable.Schedule
import Vantara.User.Ipc

/-!
# The kernel state and the current user thread

Besides the process table the kernel remembers which thread is on the processor,
which process ended last, which job owns the terminal, and what is queued for
loading.
-/

namespace Vantara

open Foundation

/-- Where one round of the kernel's event loop stands. -/
inductive LoopStage
  | input
  | pending
  | ready
  deriving DecidableEq, Repr

/-- What the processor executes. -/
inductive Mode
  /-- The current user thread. -/
  | user
  /-- The kernel's event loop. -/
  | eventLoop (stage : LoopStage)
  /-- Nothing any more: the kernel panicked or rebooted. -/
  | halted
  deriving DecidableEq, Repr

/-- The state of the kernel. -/
structure Kernel where
  table : ProcessTable
  currentUserProcess : Option Pid
  currentUserThread : Option Tid
  lastExitedProcess : Option Pid
  /-- The job that receives terminal signals; zero when there is none. -/
  terminalForegroundPid : Pid
  lastPreemptRequestTick : UInt64
  pendingPrograms : List UserProgram
  userShellWaitRequested : List UserShellWaitRequest
  ipc : Ipc
  ticks : UInt64
  /-- The terminal signal not yet delivered; zero when there is none. -/
  terminalSignal : UInt64
  /-- The userland registry, fixed when the kernel is built. -/
  images : List UserlandImage
  mode : Mode

namespace Kernel

/-- Ticks after which the timer asks for preemption. -/
def userPreemptQuantumTicks : UInt64 := 10

section

variable (kernel : Kernel)

/-- Name the thread on the processor, or none. -/
def setCurrentUser (pid : Option Pid) (tid : Option Tid) : Kernel :=
  { kernel with
    currentUserProcess := pid
    currentUserThread := tid
    table :=
      { kernel.table with
        currentUserPidAtomic := pid.getD 0
        currentUserTidAtomic := tid.getD 0
        timerPreemptPending := if pid.isNone then false else kernel.table.timerPreemptPending } }

/-- The thread on the processor, which is then named no longer. -/
def takeCurrentUser : Option (Pid × Tid) × Kernel :=
  (kernel.currentUserProcess.bind fun pid => kernel.currentUserThread.map fun tid => (pid, tid),
    kernel.setCurrentUser none none)

/-- The process on the processor. -/
def currentProcess : Option Process :=
  kernel.currentUserProcess.bind kernel.table.get

/-- Whether programs own the keyboard. -/
def userlandOwnsKeyboard : Bool :=
  !kernel.pendingPrograms.isEmpty || kernel.table.hasActiveUserSession

/-- Ask for preemption once per quantum while a process is current. -/
def recordTimerPreemptionCheck : Kernel :=
  if kernel.table.currentUserPidAtomic = 0 then
    kernel
  else if Word.saturatingSub kernel.ticks kernel.lastPreemptRequestTick <
      userPreemptQuantumTicks then
    kernel
  else
    { kernel with
      lastPreemptRequestTick := kernel.ticks
      table := { kernel.table with timerPreemptPending := true } }

/-- Forget a preemption request. -/
def consumeTimerPreemptRequestForYield : Kernel :=
  { kernel with table := { kernel.table with timerPreemptPending := false } }

/-- Exchange the current thread for another ready one if the timer asked for it. -/
def preemptCurrentUser (resumeContext : UserResumeContext) : Kernel :=
  if !kernel.table.timerPreemptPending || decide (kernel.table.currentUserTidAtomic = 0) then
    kernel
  else
    match kernel.table.preemptRunningThread kernel.ticks kernel.table.currentUserTidAtomic
        resumeContext with
    | (none, table) => { kernel with table := table }
    | (some resume, table) =>
      { kernel with
        currentUserProcess := some resume.pid
        currentUserThread := some resume.tid
        table :=
          { table with
            currentUserPidAtomic := resume.pid
            currentUserTidAtomic := resume.tid
            timerPreemptPending := false } }

/-- Return a private address space to the pool. -/
def releasePreparedP4Frame : Option UInt64 → Kernel
  | some p4Frame =>
    { kernel with
      table :=
        { kernel.table with privatePool := kernel.table.privatePool.release p4Frame } }
  | none => kernel

/-- The end of the process `pid`, which was on the processor. -/
def exitProcess (pid : Pid) (status : UInt64) : Kernel :=
  let p4Frame := kernel.table.p4FrameFor pid
  { kernel with
    table := kernel.table.markExited kernel.ticks pid status
    lastExitedProcess := some pid }.releasePreparedP4Frame p4Frame

/-- Close everything a process owns. -/
def closeProcessFiles (pid : Pid) : Kernel :=
  { kernel with ipc := kernel.ipc.closeProcessFiles pid }

/-- The current process exits. -/
def markCurrentUserExited (status : UInt64) : Option Pid × Kernel :=
  match kernel.takeCurrentUser with
  | (none, kernel) => (none, kernel)
  | (some (pid, _), kernel) =>
    (some pid, (kernel.closeProcessFiles pid).exitProcess pid status)

/-- The current process is ended by a fault or an exception. -/
def markCurrentUserFault (status : UInt64) : Option Pid × Kernel :=
  match kernel.takeCurrentUser with
  | (none, kernel) => (none, kernel)
  | (some (pid, _), kernel) =>
    let kernel := kernel.closeProcessFiles pid
    match kernel.table.get pid with
    | none => (none, kernel)
    | some _ => (some pid, kernel.exitProcess pid status)

/-- The current thread exits; refused for a main thread. -/
def markCurrentThreadExited : Option (Pid × Tid) × Kernel :=
  match kernel.takeCurrentUser with
  | (none, kernel) => (none, kernel)
  | (some (pid, tid), kernel) =>
    match kernel.table.markThreadExited kernel.ticks tid with
    | none => (none, kernel.setCurrentUser (some pid) (some tid))
    | some (_, table) => (some (pid, tid), { kernel with table := table })

/-- Give up the processor if the current thread is blocked. -/
def checkoutCurrentUserIfBlocked : Option Kernel := do
  let pid ← kernel.currentUserProcess
  let tid ← kernel.currentUserThread
  let process ← kernel.table.get pid
  let thread ← process.threads.get tid
  if thread.state ≠ .blocked then none else pure (kernel.setCurrentUser none none)

/-- The current thread gives up the processor and stays ready. -/
def checkoutCurrentUserIfYielded (resumeContext : UserResumeContext) : Bool × Kernel :=
  match kernel.takeCurrentUser with
  | (none, kernel) => (false, kernel)
  | (some (pid, tid), kernel) =>
    match kernel.table.markThreadYielded kernel.ticks tid resumeContext with
    | none => (false, kernel.setCurrentUser (some pid) (some tid))
    | some table => ((table.get pid).isSome, { kernel with table := table })

/-- The current thread is diverted to a signal handler. -/
def checkoutCurrentUserForSignalHandler (signal handler : UInt64) (original : UserResumeContext) :
    Option Kernel := do
  let pid ← kernel.currentUserProcess
  let tid ← kernel.currentUserThread
  let table ← kernel.table.activateRunningSignalHandler kernel.ticks pid tid signal handler
    original
  pure { kernel with table := table }.takeCurrentUser.2

/-- The current thread returns from its signal handler. -/
def checkoutCurrentUserAfterSigreturn : Option Kernel := do
  let pid ← kernel.currentUserProcess
  let tid ← kernel.currentUserThread
  let table ← kernel.table.restoreSignalContext kernel.ticks pid tid
  pure { kernel with table := table }.takeCurrentUser.2

/-- Dispatch the next ready thread, if any. -/
def scheduleNextReadyUser : Bool × Kernel :=
  match kernel.table.scheduleNextReadyUser kernel.ticks with
  | (none, table) => (false, { kernel with table := table })
  | (some resume, table) =>
    (true, { kernel with table := table }.setCurrentUser (some resume.pid) (some resume.tid))

/-- Put a waiting parent back on the processor. -/
def resumeWaitingParent (parentPid childPid : Pid) : Option Kernel := do
  let (_, table) ← kernel.table.resumeWaitingParent kernel.ticks parentPid childPid
  pure ({ kernel with table := table }.setCurrentUser (some parentPid)
    ((table.get parentPid).map Process.mainTid))

/-- Terminate another process and give up what it held. -/
def terminateUserProcess (callerPid targetPid : Pid) (status : UInt64) :
    Except ProcessTable.SignalTerminationError
      (ProcessTable.SignalTerminationReport × Kernel) :=
  match kernel.table.terminateUserProcess kernel.ticks callerPid targetPid status with
  | .error error => .error error
  | .ok (report, table) =>
    .ok (report,
      ({ kernel with table := table }.closeProcessFiles targetPid).releasePreparedP4Frame
        report.p4Frame)

/-- Send a signal to another process; if that terminates it, give up what it held. -/
def sendSignal (callerPid targetPid : Pid) (signal : UInt64) :
    Except ProcessTable.SignalTerminationError (ProcessTable.SignalDelivery × Kernel) :=
  match kernel.table.sendSignal kernel.ticks callerPid targetPid signal with
  | .error error => .error error
  | .ok (.terminated report, table) =>
    .ok (.terminated report,
      ({ kernel with table := table }.closeProcessFiles targetPid).releasePreparedP4Frame
        report.p4Frame)
  | .ok (delivery, table) => .ok (delivery, { kernel with table := table })

/-- A job no longer owns the terminal. -/
def clearTerminalForegroundJob (pid : Pid) : Kernel :=
  if kernel.terminalForegroundPid = pid then
    { kernel with terminalForegroundPid := 0 }
  else
    kernel

/-- Take out the first wait request for a child. -/
def takeUserShellWaitRequestForChild (childPid : Pid) : Option UserShellWaitRequest × Kernel :=
  (kernel.userShellWaitRequested.find? fun request => decide (request.childPid = childPid),
    { kernel with
      userShellWaitRequested := kernel.userShellWaitRequested.eraseP fun request =>
        decide (request.childPid = childPid) })

/-- A parent asks to be resumed when a child ends; the child owns the terminal. -/
def requestUserShellWait (shellPid childPid : Pid) : Kernel :=
  { kernel with
    terminalForegroundPid := childPid
    userShellWaitRequested := kernel.userShellWaitRequested ++ [⟨shellPid, childPid⟩] }

/-- Deliver a terminal signal to the foreground job. -/
def deliverTerminalSignal (signal : UInt64) : Bool × Kernel :=
  let pid := kernel.terminalForegroundPid
  if pid = 0 then
    (false, kernel)
  else if signal = sigint then
    let callerPid := ((kernel.table.get pid).bind Process.parentPid).getD 1
    match kernel.terminateUserProcess callerPid pid (128 + sigint) with
    | .error _ => (false, kernel)
    | .ok (_, kernel) =>
      (true, ((kernel.clearTerminalForegroundJob pid).takeUserShellWaitRequestForChild
        pid).2)
  else if signal = sigtstp then
    match kernel.table.stopUserProcess kernel.ticks pid signal with
    | (none, table) => (false, { kernel with table := table })
    | (some _, table) =>
      (true, (({ kernel with table := table }.clearTerminalForegroundJob
        pid).takeUserShellWaitRequestForChild pid).2)
  else
    (false, kernel)

/-- Queue a program for loading under a fresh identifier; the inner `none` is
the kernel's panic when no identifier is left. -/
def queueProgram (image : UserlandImage) (parentPid : Option Pid)
    (arg : UserProgramArg) (jobMode : JobMode) :
    Option (Pid × Kernel) := do
  let (pid, table) ← kernel.table.reservePid
  pure (pid,
    { kernel with
      table := table
      pendingPrograms := kernel.pendingPrograms ++
        [⟨pid, parentPid, image.name, image.path, arg, jobMode⟩] })

/-- The registered image meant by a path. -/
def findImage (path : String) : Option UserlandImage := do
  let normalized ← UserlandImage.normalizePath kernel.images path
  UserlandImage.find kernel.images normalized

/-- Request a program on behalf of the current process, or of `init`. -/
def requestPathWithArgAndMode (path : String) (arg : Option String) (jobMode : JobMode) :
    Except ProgramError (Option (Pid × Kernel)) :=
  match kernel.findImage path with
  | none => .error .notFound
  | some image =>
    match UserProgramArg.fromPath (arg.getD (defaultArgFor image.name)) with
    | .error error => .error error
    | .ok arg =>
      .ok (kernel.queueProgram image (kernel.currentUserProcess.or (some 1)) arg jobMode)

/-- Request the first program at boot; it has no parent. -/
def requestBootInit : Except ProgramError (Option (Pid × Kernel)) :=
  match kernel.findImage "init" with
  | none => .error .notFound
  | some image =>
    match UserProgramArg.fromPath (defaultArgFor image.name) with
    | .error error => .error error
    | .ok arg => .ok (kernel.queueProgram image none arg .foreground)

end

/-- What the loader found in an image. -/
structure LoadedProgram where
  entry : UInt64
  imageLen : UInt64
  deriving DecidableEq, Repr

/-- The address space for a program: a private one while the pool lasts, and
the kernel's page tables with the first stack otherwise. -/
def addressSpaceFor (kernel : Kernel) (program : UserProgram) (loaded : LoadedProgram) :
    AddressSpace × Kernel :=
  let layout := memoryLayoutForPidWithProgramSize program.pid loaded.imageLen
  match kernel.table.privatePool.take with
  | some (p4Frame, pool) =>
    (.verifiedPreparedUser loaded.entry layout p4Frame,
      { kernel with table := { kernel.table with privatePool := pool } })
  | none =>
    (.kernelSharedUser loaded.entry
      { layout with
        stackTop := firstUserStackTop
        stackStart := firstUserStackTop - userStackSize },
      kernel)

/-- Enter a loaded program in the process table as the running process. -/
def registerExec (kernel : Kernel) (program : UserProgram) (loaded : LoadedProgram) :
    AddressSpace × Kernel :=
  let (space, kernel) := kernel.addressSpaceFor program loaded
  let table := kernel.table.createReservedProcessWithJobMode program.pid program.parentPid
    program.name program.path program.arg program.jobMode space
  let table := table.startProcessRun kernel.ticks program.pid
  (space,
    { kernel with table := table }.setCurrentUser (some program.pid)
      ((table.get program.pid).map Process.mainTid))

end Kernel

end Vantara
