import Vantara.User.Process
import Vantara.Foundation.UniqueQueue

/-!
# The process table

The table owns the processes, the queue of threads waiting for the processor and
the counters from which identifiers are drawn.  The kernel variables that the
table's operations write besides (the atomic copies of the current identifiers,
the preemption flag and the pool of private address spaces) are kept with it.
-/

namespace Vantara

open Foundation

/-- What the operations do to processes and threads, as far as statements about
whole runs refer to it. -/
inductive TraceEvent
  /-- A process exited, was killed or faulted with a status. -/
  | ended (pid : Pid) (parent : Option Pid) (status : UInt64)
  /-- The status of an ended child was handed to its parent. -/
  | collected (parent child : Pid) (status : UInt64)
  /-- A process was stopped by a signal. -/
  | stopped (pid : Pid) (signal : UInt64)
  /-- A stopped process was continued. -/
  | continued (pid : Pid)
  /-- A call of one thread left a context in a thread. -/
  | saved (caller target : Tid) (context : UserResumeContext)
  /-- A thread was diverted to a signal handler. -/
  | handled (tid : Tid)
  /-- A thread returned from its signal handler. -/
  | restored (tid : Tid)
  /-- A thread was put on the processor with a saved context. -/
  | dispatched (pid : Pid) (tid : Tid) (context : UserResumeContext)
  /-- A thread blocked its process in a wait for a child. -/
  | waiting (pid : Pid) (tid : Tid) (child : Pid)
  /-- A wait for a child was answered at once. -/
  | answered (pid child : Pid) (status : UInt64)
  deriving DecidableEq, Repr

/-- The processes, the ready queue and the counters. -/
structure ProcessTable where
  processes : KeyedStore Process Process.pid
  readyQueue : UniqueQueue Tid
  nextPid : Pid
  nextTid : Tid
  userContextSwitches : Nat
  readyQueueSkips : UInt64
  /-- `CURRENT_USER_PID_ATOMIC`, zero when no process is current. -/
  currentUserPidAtomic : Pid
  /-- `CURRENT_USER_TID_ATOMIC`, zero when no thread is current. -/
  currentUserTidAtomic : Tid
  /-- `TIMER_PREEMPT_PENDING`. -/
  timerPreemptPending : Bool
  /-- `PRIVATE_P4_POOL`. -/
  privatePool : PrivateP4Pool
  /-- A history variable that the source does not have: what the operations did
  so far, latest first.  No operation reads it. -/
  trace : List TraceEvent

namespace ProcessTable

/-- The table at boot, with the private address spaces that could be prepared. -/
def new (privatePool : PrivateP4Pool) : ProcessTable where
  processes := .empty
  readyQueue := .empty
  nextPid := 1
  nextTid := 1
  userContextSwitches := 0
  readyQueueSkips := 0
  currentUserPidAtomic := 0
  currentUserTidAtomic := 0
  timerPreemptPending := false
  privatePool := privatePool
  trace := []

section

variable (table : ProcessTable)

/-- The process with an identifier. -/
def get (pid : Pid) : Option Process :=
  table.processes.get pid

/-- The processes, oldest first. -/
def values : List Process :=
  table.processes.items

/-- The first process that has a thread with the identifier. -/
def getByTid (tid : Tid) : Option Process :=
  table.values.find? fun process => (process.threads.get tid).isSome

/-- Write a process back under its identifier. -/
def putProcess (process : Process) : ProcessTable :=
  { table with processes := table.processes.insert process }

/-- Extend the history variable. -/
def record (event : TraceEvent) : ProcessTable :=
  { table with trace := event :: table.trace }

/-- Let a thread wait for the processor. -/
def enqueueReady (tid : Tid) : ProcessTable :=
  { table with readyQueue := table.readyQueue.push tid }

/-- Take every thread of a process out of the queue. -/
def removeFromReadyQueue (pid : Pid) : ProcessTable :=
  let tids :=
    match table.get pid with
    | some process => process.threads.values.map Thread.tid
    | none => []
  { table with readyQueue := table.readyQueue.retain fun queued => !tids.contains queued }

/-- Draw the next process identifier; the kernel panics when none is left. -/
def reservePid : Option (Pid × ProcessTable) :=
  if table.nextPid.toNat + 1 < 2 ^ 32 then
    some (table.nextPid, { table with nextPid := table.nextPid + 1 })
  else
    none

/-- Draw the next thread identifier; the last one is drawn again and again. -/
def reserveTid : Tid × ProcessTable :=
  (table.nextTid, { table with nextTid := Word.saturatingSucc table.nextTid })

/-- The process that a program request becomes; it inherits the working
directory, the credentials and the job of its parent. -/
def newProcess (pid : Pid) (parentPid : Option Pid)
    (name programPath : String) (arg : UserProgramArg)
    (jobMode : JobMode) (addressSpace : AddressSpace)
    (mainTid : Tid) :
    Process :=
  let kind :=
    if parentPid.isNone ∧ name = "kernel" ∧ programPath = "kernel" then
      ProcessKind.kernelTask
    else
      ProcessKind.userProcess
  let parent := parentPid.bind table.get
  let cwd :=
    match parent with
    | some parent => parent.cwd
    | none => .root
  let credentials :=
    match parent with
    | some parent => parent.credentials
    | none => .root
  let job :=
    match parent with
    | some parent =>
      match parent.kind with
      | .userProcess => (parent.processGroupId, parent.sessionId)
      | .kernelTask => (pid, pid)
    | none => (pid, pid)
  { pid := pid
    parentPid := parentPid
    processGroupId := job.1
    sessionId := job.2
    name := name
    programPath := programPath
    kind := kind
    threads := .withMain
      ((Thread.new mainTid pid kind.threadKind).withUserStack
        addressSpace.layout.stackStart addressSpace.layout.stackTop)
    credentials := credentials
    arg := arg
    cwd := cwd
    jobMode := jobMode
    state := .created
    addressSpace := addressSpace
    exitStatus := none
    waitingFor := none
    sleepingUntilTick := none
    pendingSignals := 0
    blockedSignals := 0
    sigtermDisposition := sigDfl }

/-- Enter a process under an identifier reserved before. -/
def createReservedProcessWithJobMode (pid : Pid) (parentPid : Option Pid)
    (name programPath : String) (arg : UserProgramArg)
    (jobMode : JobMode) (addressSpace : AddressSpace) :
    ProcessTable :=
  let table :=
    if pid ≥ table.nextPid then { table with nextPid := pid + 1 } else table
  let reserved := table.reserveTid
  reserved.2.putProcess
    (table.newProcess pid parentPid name programPath arg jobMode addressSpace reserved.1)

end

/-- Why a process group or session could not be changed. -/
inductive ProcessGroupError
  | missing
  | notChild
  | differentSession
  | sessionLeader
  | groupMissing
  | groupLeader
  deriving DecidableEq, Repr

section

variable (table : ProcessTable)

/-- Move a process, the caller or one of its children, to a process group. -/
def setProcessGroup (callerPid targetPid processGroupId : Pid) :
    Except ProcessGroupError (Pid × ProcessTable) :=
  match table.get callerPid, table.get targetPid with
  | some caller, some target =>
    if targetPid ≠ callerPid ∧ target.parentPid ≠ some callerPid then
      .error .notChild
    else if target.sessionId ≠ caller.sessionId then
      .error .differentSession
    else if target.sessionId = target.pid then
      .error .sessionLeader
    else
      let group := if processGroupId = 0 then targetPid else processGroupId
      if group ≠ targetPid ∧
          !table.values.any (fun process =>
            decide (process.sessionId = caller.sessionId ∧ process.processGroupId = group))
      then
        .error .groupMissing
      else
        .ok (group, table.putProcess { target with processGroupId := group })
  | _, _ => .error .missing

/-- Make a process the leader of a new session. -/
def createSession (pid : Pid) : Except ProcessGroupError (Pid × ProcessTable) :=
  match table.get pid with
  | none => .error .missing
  | some process =>
    if process.processGroupId = pid then
      .error .groupLeader
    else
      .ok (pid, table.putProcess { process with sessionId := pid, processGroupId := pid })

/-- Act on behalf of another user from now on. -/
def setCredentials (pid : Pid) (credentials : ProcessCredentials) : Option ProcessTable := do
  let process ← table.get pid
  pure (table.putProcess { process with credentials := credentials })

/-- Change the working directory. -/
def setCwd (pid : Pid) (cwd : NormalizedPath) : Option ProcessTable := do
  let process ← table.get pid
  pure (table.putProcess { process with cwd := cwd })

/-- Note that the process left the kernel's page tables. -/
def markIsolated (pid : Pid) : ProcessTable :=
  match table.get pid with
  | some process =>
    table.putProcess
      { process with addressSpace := process.addressSpace.promotedIsolatedUser }
  | none => table

/-- Whether some user process has not ended. -/
def hasActiveUserSession : Bool :=
  table.values.any fun process =>
    decide (process.kind = .userProcess) && !process.state.terminal

/-- The private address space of a process. -/
def p4FrameFor (pid : Pid) : Option UInt64 := do
  let process ← table.get pid
  process.addressSpace.p4Frame

/-- The thread with an identifier. -/
def thread (tid : Tid) : Option Thread := do
  let process ← table.getByTid tid
  process.threads.get tid

/-- The main thread of a process leaves the processor; if the process was
current, the atomic copies are cleared. -/
def stopProcessRun (pid : Pid) : ProcessTable :=
  if table.currentUserPidAtomic = pid then
    { table with
      currentUserPidAtomic := 0
      currentUserTidAtomic := 0
      timerPreemptPending := false }
  else
    table

/-- The main thread of a process enters the processor. -/
def startProcessRun (now : UInt64) (pid : Pid) : ProcessTable :=
  match table.get pid with
  | some process =>
    { table with
      timerPreemptPending := false
      currentUserPidAtomic := pid
      userContextSwitches := table.userContextSwitches + 1 }.putProcess (process.startRun now)
  | none => table

/-- The main thread of a process waits for the processor. -/
def markReady (pid : Pid) : ProcessTable :=
  match table.get pid with
  | some process =>
    (table.putProcess (process.setState .ready)).enqueueReady process.mainTid
  | none => table

/-- The process ends with a status; a parent, if any, may still collect it. -/
def markExited (now : UInt64) (pid : Pid) (status : UInt64) : ProcessTable :=
  let table := table.removeFromReadyQueue pid
  match table.get pid with
  | some process =>
    ((table.stopProcessRun pid).putProcess (process.exitWith now status)).record
      (.ended pid process.parentPid status)
  | none => table

/-- The record of a process is given up, whatever state it was in. -/
def markReaped (now : UInt64) (pid : Pid) : Option ProcessTable :=
  let table := table.removeFromReadyQueue pid
  match table.get pid with
  | some process =>
    some ((table.stopProcessRun pid).putProcess (process.giveUp now))
  | none => none

end

end ProcessTable

end Vantara
