import Vantara.User.Descriptors

/-!
# System calls on threads and processes, and the dispatcher

Handlers that create, block, wake, signal or wait for threads and processes, and
the dispatcher behind the system call interrupt.  A handler that takes the
caller off the processor answers with the value that sends it to the landing.
-/

namespace Vantara

open Foundation

namespace Kernel

/-- The kernel with a new process table. -/
def withTable (kernel : Kernel) (table : ProcessTable) : Kernel :=
  { kernel with table := table }

/-- The answer for a thread identifier. -/
def tidAnswer : Option Tid → Answer
  | some tid => .ok tid.toUInt64
  | none => .error .invalidArgument

/-- Whether an address lies in the program area of the current process. -/
def checkEntry (kernel : Kernel) (env : UserEnv) (entry : UInt64) : Except SyscallError Unit := do
  let process ← orInvalid kernel.currentProcess
  let layout := process.addressSpace.layout
  if entry < layout.programStart ∨ entry ≥ layout.programEnd then
    .error .invalidArgument
  else do
    let _ ← kernel.checkedRange env entry 1 .read
    pure ()

/-- Start a thread on a stack slot of the kernel's choice. -/
def spawnUserThread (kernel : Kernel) (env : UserEnv) (entry arg : UInt64) : Answer × Kernel :=
  match kernel.checkEntry env entry, kernel.currentUserProcess with
  | .error error, _ => (.error error, kernel)
  | .ok _, none => (.error .invalidArgument, kernel)
  | .ok _, some pid =>
    let created := kernel.table.createManagedUserThread pid entry arg
    (tidAnswer created.1, kernel.withTable created.2)

/-- Smallest stack a program may give a thread. -/
def minUserThreadStackSize : UInt64 := 1024

/-- Largest stack a program may give a thread. -/
def maxUserThreadStackSize : UInt64 := 65536

section

variable (kernel : Kernel)

/-- The initial stack pointer of a thread on a checked stack. -/
def checkThread (env : UserEnv) (entry stackPtr stackLen : UInt64) :
    Except SyscallError (UInt64 × UInt64) :=
  if stackLen < minUserThreadStackSize ∨ stackLen > maxUserThreadStackSize then
    .error .invalidArgument
  else do
    kernel.checkEntry env entry
    let _ ← kernel.checkedRange env stackPtr stackLen .write
    let stackTop ← orInvalid (Word.checkedAdd stackPtr stackLen)
    let initialRsp ← orInvalid ((Word.checkedSub (stackTop &&& ~~~0xf) 8).filter
      fun rsp => decide (rsp ≥ stackPtr))
    pure (stackTop, initialRsp)

/-- Start a thread on a stack that the program supplies. -/
def createUserThread (env : UserEnv) (entry stackPtr stackLen arg : UInt64) : Answer × Kernel :=
  match kernel.checkThread env entry stackPtr stackLen, kernel.currentUserProcess with
  | .error error, _ => (.error error, kernel)
  | .ok _, none => (.error .invalidArgument, kernel)
  | .ok (stackTop, initialRsp), some pid =>
    let created :=
      kernel.table.createUserThread pid entry stackPtr stackTop initialRsp arg
    (tidAnswer created.1, kernel.withTable created.2)

/-- Wait for a sibling thread. -/
def joinUserThread (frame : SyscallFrame) : Answer × Kernel :=
  match Word.toUInt32? frame.arg0, kernel.currentUserThread with
  | some target, some caller =>
    match kernel.table.joinThread kernel.ticks caller target (.fromSyscallFrame frame) with
    | (.completed, table) => (.ok 0, kernel.withTable table)
    | (.blocked, table) => (.ok syscallReturnToKernel, kernel.withTable table)
    | (_, table) => (.error .invalidArgument, kernel.withTable table)
  | _, _ => (.error .invalidArgument, kernel)

/-- The current thread exits; refused for a main thread. -/
def exitUserThread : Answer × Kernel :=
  match kernel.markCurrentThreadExited with
  | (some _, kernel) => (.ok syscallReturnToKernel, kernel)
  | (none, kernel) => (.error .invalidArgument, kernel)

/-- Whether giving up the processor lets anything else run. -/
def hasOtherWork : Bool :=
  !kernel.pendingPrograms.isEmpty ||
    match kernel.currentUserThread with
    | some tid => kernel.table.hasReadyThreadExcept tid
    | none => false

/-- Give up the processor if anything else can run. -/
def userYield (frame : SyscallFrame) : Answer × Kernel :=
  if !kernel.hasOtherWork then
    (.ok 0, kernel)
  else
    let recorded :=
      match kernel.currentUserThread.bind kernel.table.recordThreadYield with
      | some table => kernel.withTable table
      | none => kernel
    match recorded.consumeTimerPreemptRequestForYield.checkoutCurrentUserIfYielded
        (.fromSyscallFrame frame) with
    | (true, kernel) => (.ok syscallReturnToKernel, kernel)
    | (false, kernel) => (.error .invalidArgument, kernel)

/-- Note which thread's call left its context in the main thread of a process. -/
def recordSaved (pid : Pid) (context : UserResumeContext)
    (table : ProcessTable) : ProcessTable :=
  match kernel.currentUserThread, kernel.table.get pid with
  | some caller, some process => table.record (.saved caller process.mainTid context)
  | _, _ => table

end

/-- Ticks that a sleep of the given milliseconds lasts. -/
def sleepTicks (durationMs : UInt64) : UInt64 :=
  max (Word.divCeil (Word.saturatingMul durationMs timerHz) 1000) 1

/-- Let the current process sleep. -/
def sleepCurrentUser (kernel : Kernel) (frame : SyscallFrame) : Answer × Kernel :=
  if frame.arg0 = 0 then
    (.ok 0, kernel)
  else
    match kernel.currentUserProcess with
    | none => (.error .invalidArgument, kernel)
    | some pid =>
      let wakeTick := Word.saturatingAdd kernel.ticks (sleepTicks frame.arg0)
      let context := UserResumeContext.fromSyscallFrame frame
      match kernel.table.markSleeping kernel.ticks pid wakeTick context with
      | (false, table) => (.error .invalidArgument, kernel.withTable table)
      | (true, table) =>
        (.ok syscallReturnToKernel,
          kernel.withTable (kernel.recordSaved pid context table))

/-- Wait for an event of the current process. -/
def waitEvent (kernel : Kernel) (frame : SyscallFrame) : Answer × Kernel :=
  match kernel.currentUserProcess, kernel.currentUserThread with
  | some pid, some tid =>
    let own := Ipc.isEvent pid frame.arg0
    let withEvent := fun event : Event =>
      { kernel.ipc with events := Ipc.setSlot own (some event) kernel.ipc.events }
    match Ipc.findSlot own kernel.ipc.events with
    | none => (.error .invalidArgument, kernel)
    | some event =>
      if event.signaled then
        (.ok 0, { kernel with ipc := withEvent { event with signaled := false } })
      else
        match event.enqueue tid with
        | none => (.error .wouldBlock, kernel)
        | some queued =>
          match kernel.table.blockThread kernel.ticks tid (.fromSyscallFrame frame) with
          | none =>
            (.error .invalidArgument,
              { kernel with ipc := withEvent (queued.remove tid) })
          | some table =>
            (.ok syscallReturnToKernel,
              { kernel with table := table, ipc := withEvent queued })
  | _, _ => (.error .invalidArgument, kernel)

/-- Take waiting threads from an event until one can be woken.  The fuel is the
number of threads that can wait. -/
def wakeFirstWaiter (table : ProcessTable) : Nat → Event → Option ProcessTable × Event
  | 0, event => (none, event)
  | fuel + 1, event =>
    match event.dequeue with
    | none => (none, event)
    | some (tid, event) =>
      match table.wakeThread tid 0 with
      | some woken => (some woken, event)
      | none => wakeFirstWaiter table fuel event

/-- Signal an event of the current process: wake one thread or latch the signal. -/
def signalEvent (kernel : Kernel) (handle : UInt64) : Answer × Kernel :=
  match kernel.currentUserProcess with
  | none => (.error .invalidArgument, kernel)
  | some pid =>
    let own := Ipc.isEvent pid handle
    let withEvent := fun event : Event =>
      { kernel.ipc with events := Ipc.setSlot own (some event) kernel.ipc.events }
    match Ipc.findSlot own kernel.ipc.events with
    | none => (.error .invalidArgument, kernel)
    | some event =>
      match wakeFirstWaiter kernel.table maxEventWaiters event with
      | (some table, event) =>
        (.ok 1, { kernel with table := table, ipc := withEvent event })
      | (none, event) =>
        (.ok 0, { kernel with ipc := withEvent { event with signaled := true } })

/-- Request a program with an optional argument; `none` is a panic. -/
def execWithMode
    (kernel : Kernel) (env : UserEnv) (pathPtr pathLen argPtr argLen : UInt64)
    (jobMode : JobMode) : Option (Answer × Kernel) :=
  let texts : Except SyscallError (String × Option String) := do
    let path ← kernel.readUserStr env pathPtr pathLen
    if argLen = 0 then
      pure (path, none)
    else do
      let arg ← kernel.readUserStr env argPtr argLen
      pure (path, some arg)
  match texts with
  | .error error => some (.error error, kernel)
  | .ok (path, arg) =>
    match kernel.requestPathWithArgAndMode path arg jobMode with
    | .error _ => some (.error .invalidArgument, kernel)
    | .ok queued => queued.map fun (pid, kernel) => (.ok pid.toUInt64, kernel)

/-- Run a program in the foreground. -/
def execUserProgram (kernel : Kernel) (env : UserEnv)
    (pathPtr pathLen argPtr argLen : UInt64) : Option (Answer × Kernel) :=
  kernel.execWithMode env pathPtr pathLen argPtr argLen .foreground

/-- Run a program in the background. -/
def execBackgroundUserProgram (kernel : Kernel) (env : UserEnv)
    (pathPtr pathLen argPtr argLen : UInt64) : Option (Answer × Kernel) :=
  kernel.execWithMode env pathPtr pathLen argPtr argLen .background

/-- The program that is loaded next. -/
def pendingPid (kernel : Kernel) : Option Pid :=
  kernel.pendingPrograms.head?.map UserProgram.pid

/-- Collect an ended child, or block until the program loaded next ends. -/
def waitForPendingChild (kernel : Kernel) (frame : SyscallFrame) : Answer × Kernel :=
  match Word.toUInt32? frame.arg0, kernel.currentUserProcess with
  | some pid, some parentPid =>
    match kernel.table.reapChild parentPid pid with
    | some (status, table) =>
      (.ok status, kernel.withTable (table.record (.answered parentPid pid status)))
    | none =>
      if kernel.pendingPid ≠ some pid then
        match kernel.table.waitTargetStatus parentPid pid with
        | .missing => (.error .noSuchProcess, kernel)
        | .notChild _ => (.error .notChild, kernel)
        | .notExited _ => (.error .wouldBlock, kernel)
        | .reapable => (.error .wouldBlock, kernel)
      else
        let context := UserResumeContext.fromSyscallFrame frame
        match kernel.table.markWaiting kernel.ticks parentPid pid context with
        | none => (.error .invalidArgument, kernel)
        | some table =>
          let table := kernel.recordSaved parentPid context table
          let table := table.record
            (.waiting parentPid (kernel.currentUserThread.getD 0) pid)
          (.ok syscallReturnToKernel,
            (kernel.withTable table).requestUserShellWait parentPid pid)
  | _, _ => (.error .invalidArgument, kernel)

/-- The error code for a signal that was not sent. -/
def signalError : ProcessTable.SignalTerminationError → SyscallError
  | .missing | .alreadyExited => .noSuchProcess
  | .permissionDenied | .kernelTask => .permissionDenied
  | .selfTarget => .invalidArgument

/-- Continue or terminate another process. -/
def terminateProcess (kernel : Kernel) (pid signal : UInt64) : Answer × Kernel :=
  match Word.toUInt32? pid, kernel.currentUserProcess with
  | some pid, some callerPid =>
    if signal = sigcont then
      match kernel.table.continueUserProcess callerPid pid with
      | some table => (.ok 0, kernel.withTable table)
      | none => (.error .invalidArgument, kernel)
    else if signal ≠ sigterm then
      (.error .invalidArgument, kernel)
    else
      match kernel.sendSignal callerPid pid signal with
      | .error error => (.error (signalError error), kernel)
      | .ok (.pending _ _ _, kernel) => (.ok 1, kernel)
      | .ok (.terminated report, kernel) =>
        (.ok 0,
          if report.parentWoken then
            (kernel.takeUserShellWaitRequestForChild report.pid).2
          else
            kernel)
      | .ok (_, kernel) => (.ok 0, kernel)
  | _, _ => (.error .invalidArgument, kernel)

/-- How a signal mask argument is combined with the old mask. -/
def maskHow (how : UInt64) : Option ProcessTable.SignalMaskHow :=
  if how = 0 then some .block
  else if how = 1 then some .unblock
  else if how = 2 then some .setMask
  else none

/-- Change the signal mask; a signal that becomes deliverable ends the process
or diverts the thread to a handler. -/
def updateSignalMask (kernel : Kernel) (frame : SyscallFrame) : Answer × Kernel :=
  if frame.arg1 &&& ~~~sigtermMask ≠ 0 then
    (.error .invalidArgument, kernel)
  else
    match maskHow frame.arg0, kernel.currentUserProcess with
    | some how, some pid =>
      match kernel.table.updateSignalMask pid how frame.arg1 with
      | none => (.error .invalidArgument, kernel)
      | some (update, table) =>
        let kernel := kernel.withTable table
        match update.deliveredSignal with
        | none => (.ok update.oldMask, kernel)
        | some signal =>
          match (kernel.table.get pid).filter fun _ => decide (signal = sigterm) with
          | none => (.error .invalidArgument, kernel)
          | some process =>
            let disposition := process.sigtermDisposition
            if disposition = sigIgn then
              (.ok update.oldMask, kernel)
            else if disposition = sigDfl then
              (.ok syscallReturnToKernel,
                (kernel.markCurrentUserExited (128 + signal)).2)
            else
              let original :=
                { UserResumeContext.fromSyscallFrame frame with rax := update.oldMask }
              match kernel.checkoutCurrentUserForSignalHandler signal disposition
                  original with
              | none => (.error .invalidArgument, kernel)
              | some kernel => (.ok syscallReturnToKernel, kernel)
    | _, _ => (.error .invalidArgument, kernel)

/-- Replace the disposition of the terminate request. -/
def setSignalAction (kernel : Kernel) (env : UserEnv) (signal disposition : UInt64) :
    Answer × Kernel :=
  if signal ≠ sigterm then
    (.error .invalidArgument, kernel)
  else
    let checked : Except SyscallError Unit :=
      if disposition > sigIgn then kernel.checkEntry env disposition else .ok ()
    match checked, kernel.currentUserProcess with
    | .error error, _ => (.error error, kernel)
    | .ok _, none => (.error .invalidArgument, kernel)
    | .ok _, some pid =>
      match kernel.table.setSignalDisposition pid signal disposition with
      | none => (.error .invalidArgument, kernel)
      | some (old, table) => (.ok old, kernel.withTable table)

/-- The error code for a refused change of process group or session. -/
def processGroupError : ProcessTable.ProcessGroupError → SyscallError
  | .missing => .noSuchProcess
  | .notChild | .differentSession => .permissionDenied
  | .sessionLeader | .groupMissing | .groupLeader => .invalidArgument

section

variable (kernel : Kernel)

/-- The answer of a change of process group or session. -/
def groupAnswer : Except ProcessTable.ProcessGroupError (Pid × ProcessTable) → Answer × Kernel
  | .ok (pid, table) => (.ok pid.toUInt64, kernel.withTable table)
  | .error error => (.error (processGroupError error), kernel)

/-- Move a process to a process group. -/
def setProcessGroup (pid processGroupId : UInt64) : Answer × Kernel :=
  match kernel.currentUserProcess with
  | none => (.error .invalidArgument, kernel)
  | some callerPid =>
    let target := if pid = 0 then some callerPid else Word.toUInt32? pid
    match target, Word.toUInt32? processGroupId with
    | some target, some group =>
      kernel.groupAnswer (kernel.table.setProcessGroup callerPid target group)
    | _, _ => (.error .invalidArgument, kernel)

/-- Lead a new session. -/
def createSession : Answer × Kernel :=
  match kernel.currentUserProcess with
  | none => (.error .noSuchProcess, kernel)
  | some pid => kernel.groupAnswer (kernel.table.createSession pid)

/-- The answer of a change that only succeeds or fails. -/
def unitAnswer : Option ProcessTable → Answer × Kernel
  | some table => (.ok 0, kernel.withTable table)
  | none => (.error .invalidArgument, kernel)

/-- Change the working directory. -/
def chdirUser (env : UserEnv) (pathPtr pathLen : UInt64) : Answer × Kernel :=
  match kernel.readUserStr env pathPtr pathLen, kernel.currentUserProcess with
  | .error error, _ => (.error error, kernel)
  | .ok _, none => (.error .invalidArgument, kernel)
  | .ok path, some pid =>
    match env.files.directoryFrom kernel.currentCwd path with
    | none => (.error .invalidArgument, kernel)
    | some next =>
      (.ok 0, kernel.withTable ((kernel.table.setCwd pid next).getD kernel.table))

/-- Act on behalf of another user. -/
def setCurrentUserName (env : UserEnv) (namePtr nameLen : UInt64) : Answer × Kernel :=
  match kernel.readUserStr env namePtr nameLen, kernel.currentUserProcess with
  | .error error, _ => (.error error, kernel)
  | .ok _, none => (.error .invalidArgument, kernel)
  | .ok name, some pid =>
    let bytes := name.toUTF8.toList
    if (trimAsciiSpaces bytes).isEmpty then
      (.error .invalidArgument, kernel)
    else
      kernel.unitAnswer
        (kernel.table.setCredentials pid (ProcessCredentials.fromUsername bytes))

/-- The result of a handler that changes only what processes have opened. -/
def withIpc (result : Answer × Ipc) : Answer × Kernel :=
  (result.1, { kernel with ipc := result.2 })

/-- Run the handler of a system call; `none` if the call never returns because
the kernel panics or reboots. -/
def handle (env : UserEnv) (frame : SyscallFrame) : Syscall → Option (Answer × Kernel)
  | .exit => some (.ok syscallReturnToKernel, (kernel.markCurrentUserExited frame.arg0).2)
  | .threadExit => some kernel.exitUserThread
  | .threadJoin => some (kernel.joinUserThread frame)
  | .write => some (kernel.withIpc
      (kernel.commit (kernel.writeUserBuffer env frame.arg0 frame.arg1 frame.arg2)))
  | .yield => some (kernel.userYield frame)
  | .sleepMs => some (kernel.sleepCurrentUser frame)
  | .sigprocmask => some (kernel.updateSignalMask frame)
  | .sigreturn => some
      (match kernel.checkoutCurrentUserAfterSigreturn with
      | some kernel => (.ok syscallReturnToKernel, kernel)
      | none => (.error .invalidArgument, kernel))
  | .reboot => none
  | .uptime => (kernel.uptimeToUser env frame.arg0 frame.arg1).map (·, kernel)
  | .getuid => some (.ok kernel.currentCredentials.uid.toUInt64, kernel)
  | .getgid => some (.ok kernel.currentCredentials.gid.toUInt64, kernel)
  | .whoami => some (kernel.whoamiToUser env frame.arg0 frame.arg1, kernel)
  | .listdir => some
      (kernel.listDirToUser env frame.arg0 frame.arg1 frame.arg2 frame.arg3, kernel)
  | .readFile => some
      (kernel.readFileToUser env frame.arg0 frame.arg1 frame.arg2 frame.arg3, kernel)
  | .stat => some
      (kernel.statToUser env frame.arg0 frame.arg1 frame.arg2 frame.arg3, kernel)
  | .openFile => some (kernel.withIpc
      (kernel.commit (kernel.openFile env frame.arg0 frame.arg1)))
  | .read => some (kernel.withIpc
      (kernel.commit (kernel.readFdToUser env frame.arg0 frame.arg1 frame.arg2)))
  | .close => some (kernel.withIpc (kernel.commit (kernel.closeFd frame.arg0)))
  | .exec => kernel.execUserProgram env frame.arg0 frame.arg1 frame.arg2 frame.arg3
  | .execBg =>
    kernel.execBackgroundUserProgram env frame.arg0 frame.arg1 frame.arg2 frame.arg3
  | .waitpid => some (kernel.waitForPendingChild frame)
  | .procs => some (kernel.procsToUser env frame.arg0 frame.arg1, kernel)
  | .kill => some (kernel.terminateProcess frame.arg0 frame.arg1)
  | .getcwd => some (kernel.getcwdToUser env frame.arg0 frame.arg1, kernel)
  | .chdir => some (kernel.chdirUser env frame.arg0 frame.arg1)
  | .setuser => some (kernel.setCurrentUserName env frame.arg0 frame.arg1)
  | .pciList => some (kernel.pciListToUser env frame.arg0 frame.arg1, kernel)
  | .netdevList => some (kernel.netdevListToUser env frame.arg0 frame.arg1, kernel)
  | .klogRead => some (kernel.kernelLogToUser env frame.arg0 frame.arg1, kernel)
  | .driverStatus => some (kernel.driverStatusToUser env frame.arg0 frame.arg1, kernel)
  | .abiInfo => some (.ok abiVersion, kernel)
  | .threadCreate => some
      (kernel.createUserThread env frame.arg0 frame.arg1 frame.arg2 frame.arg3)
  | .threadSpawn => some (kernel.spawnUserThread env frame.arg0 frame.arg1)
  | .pipe => some (kernel.withIpc (kernel.createPipe env frame.arg0 frame.arg1))
  | .eventCreate => some (kernel.withIpc kernel.createEvent)
  | .eventWait => some (kernel.waitEvent frame)
  | .eventSignal => some (kernel.signalEvent frame.arg0)
  | .eventClose => some (kernel.withIpc (kernel.commit (kernel.closeEvent frame.arg0)))
  | .msgqCreate => some (kernel.withIpc kernel.createMessageQueue)
  | .msgqSend => some (kernel.withIpc
      (kernel.commit (kernel.sendMessage env frame.arg0 frame.arg1 frame.arg2)))
  | .msgqRecv => some (kernel.withIpc
      (kernel.commit (kernel.receiveMessage env frame.arg0 frame.arg1 frame.arg2)))
  | .msgqClose => some (kernel.withIpc
      (kernel.commit (kernel.closeMessageQueue frame.arg0)))
  | .sigpending => some (kernel.currentPendingSignals, kernel)
  | .sigaction => some (kernel.setSignalAction env frame.arg0 frame.arg1)
  | .getpgrp => some (kernel.currentProcessGroup, kernel)
  | .setpgid => some (kernel.setProcessGroup frame.arg0 frame.arg1)
  | .getsid => some (kernel.getSessionId frame.arg0, kernel)
  | .setsid => some kernel.createSession
  | .create => some (kernel.withIpc
      (kernel.commit (kernel.createFile env frame.arg0 frame.arg1)))
  | .unlink => some (kernel.unlinkFile env frame.arg0 frame.arg1, kernel)
  | .rename => some
      (kernel.renameFile env frame.arg0 frame.arg1 frame.arg2 frame.arg3, kernel)
  | .mkdir => some (kernel.mkdirUser env frame.arg0 frame.arg1, kernel)
  | .rmdir => some (kernel.rmdirUser env frame.arg0 frame.arg1, kernel)

/-- The system call interrupt: the content of the result register and the new
state, or `none` if the call never returns. -/
def syscallInterruptDispatch (env : UserEnv) (frame : SyscallFrame) : Option (UInt64 × Kernel) :=
  match Syscall.decode frame.number with
  | none => some (SyscallError.unknownSyscall.code, kernel)
  | some call => (kernel.handle env frame call).map fun (answer, kernel) =>
    (answer.register, kernel)

end

end Kernel

end Vantara
