import Vantara.User.ProcessTable

/-!
# Operations on single threads

Creation, exit, joining, blocking and waking of threads.  Every operation
recomputes the state of the process from its threads.
-/

namespace Vantara

open Foundation

namespace ProcessTable

/-- Outcome of a join. -/
inductive ThreadJoinStatus
  | missing
  | notSibling
  | selfJoin
  | deadlock
  | alreadyReaped
  | completed
  | blocked
  deriving DecidableEq, Repr

/-- Add a thread to the kernel task. -/
def createKernelThread (table : ProcessTable) : Option Tid × ProcessTable :=
  match table.values.find? fun process => decide (process.kind = .kernelTask) with
  | none => (none, table)
  | some process =>
    let reserved := table.reserveTid
    let thread := { Thread.new reserved.1 process.pid .kernel with state := .ready }
    match process.threads.insert thread with
    | none => (none, reserved.2)
    | some threads =>
      (some reserved.1,
        reserved.2.putProcess (process.setThreads threads).refreshStateFromThreads)

/-- A kernel thread after a change of its state, which starts or ends its run. -/
def shiftedThread (now : UInt64) (state : ThreadState) (thread : Thread) : Thread :=
  let stopped :=
    if thread.state = .running ∧ state ≠ .running then thread.stopRun now else thread
  let started := if state = .running then stopped.startRun now else stopped
  { started with state := state }

theorem tid_shiftedThread {thread : Thread} :
    (shiftedThread now state thread).tid = thread.tid := by
  simp only [shiftedThread, Thread.startRun]
  split_ifs <;> simp

/-- Move a thread of the kernel task into a state. -/
def setKernelThreadState (table : ProcessTable) (now : UInt64) (tid : Tid) (state : ThreadState) :
    Option ProcessTable := do
  let process ← table.getByTid tid
  if process.kind ≠ .kernelTask then
    none
  else
    let thread ← process.threads.get tid
    let process := process.modifyThread thread.tid (shiftedThread now state)
      fun _ => tid_shiftedThread
    pure (table.putProcess process.refreshStateFromThreads)

/-- A user thread about to start at an entry point with one argument. -/
def startingThread
    (tid : Tid) (pid : Pid) (entry stackStart stackTop initialRsp arg : UInt64) : Thread :=
  { (Thread.new tid pid .user).withUserStack stackStart stackTop with
    state := .ready
    resumeContext := some
      { UserResumeContext.empty with
        rip := entry, rsp := initialRsp, rflags := 0x202, rdi := arg } }

/-- Add a starting thread to a process and let it wait for the processor. -/
def admitThread (table : ProcessTable) (process : Process) (thread : Thread) :
    Option ProcessTable := do
  let threads ← process.threads.insert thread
  pure ((table.putProcess (process.setThreads threads).refreshStateFromThreads).enqueueReady
    thread.tid)

/-- Create a thread on a stack the program supplies. -/
def createUserThread (table : ProcessTable) (pid : Pid)
    (entry stackStart stackTop initialRsp arg : UInt64) :
    Option Tid × ProcessTable :=
  match table.get pid with
  | none => (none, table)
  | some process =>
    if process.kind ≠ .userProcess ∨
        !process.threads.stackRangeAvailable stackStart stackTop then
      (none, table)
    else
      let reserved := table.reserveTid
      let thread := startingThread reserved.1 pid entry stackStart stackTop initialRsp arg
      match reserved.2.admitThread process thread with
      | some admitted => (some reserved.1, admitted)
      | none => (none, reserved.2)

/-- Create a thread on a stack slot of the private address space. -/
def createManagedUserThread (table : ProcessTable) (pid : Pid) (entry arg : UInt64) :
    Option Tid × ProcessTable :=
  match table.get pid with
  | none => (none, table)
  | some process =>
    if process.kind ≠ .userProcess then
      (none, table)
    else
      match process.addressSpace.p4Frame with
      | none => (none, table)
      | some p4Frame =>
        let slot :=
          table.privatePool.reserveStackSlot p4Frame process.addressSpace.layout.stackTop
        let table := { table with privatePool := slot.2 }
        match slot.1 with
        | none => (none, table)
        | some (stackStart, stackTop) =>
          match Word.checkedSub (stackTop &&& ~~~0xf) 8 with
          | none => (none, table)
          | some initialRsp =>
            let reserved := table.reserveTid
            let thread :=
              (startingThread reserved.1 pid entry stackStart stackTop initialRsp
                arg).withKernelManagedStack
            match reserved.2.admitThread process thread with
            | some admitted => (some reserved.1, admitted)
            | none =>
              (none,
                { reserved.2 with
                  privatePool := reserved.2.privatePool.releaseStackSlot
                    p4Frame stackTop })

/-- Return a stack slot that a thread gave up. -/
def releaseThreadStack (table : ProcessTable) : Option (UInt64 × UInt64) → ProcessTable
  | some (p4Frame, stackTop) =>
    { table with privatePool := table.privatePool.releaseStackSlot p4Frame stackTop }
  | none => table

/-- A thread blocked until the given sibling exits. -/
def joins (tid : Tid) (thread : Thread) : Bool :=
  decide (thread.state = .blocked) && decide (thread.waitingFor = some tid)

/-- The joining thread after its sibling has exited. -/
def joinedThread (thread : Thread) : Thread :=
  { thread with
    waitingFor := none
    state := .ready
    resumeContext := thread.resumeContext.map fun context => { context with rax := 0 } }

/-- The process after one of its threads has exited. -/
def exitedThread (process : Process) (now : UInt64) (tid : Tid) : Process :=
  process.modifyThread tid
    (fun thread =>
      { thread.stopRun now with state := .exited, resumeContext := none, waitingFor := none })
    (by intro thread; simp)

/-- The threads that join the given one. -/
def joiningTids (process : Process) (tid : Tid) : List Tid :=
  (process.threads.values.filter (joins tid)).map Thread.tid

/-- The process after the threads that joined the given one have been woken. -/
def wakeJoiners (process : Process) (tid : Tid) : Process :=
  process.setThreads
    (process.threads.modifyAll
      (fun thread => if joins tid thread then joinedThread thread else thread)
      (by intro thread; split_ifs <;> rfl))

/-- The process in which nobody needs to join the given thread any more. -/
def reapedThread (process : Process) (tid : Tid) : Process :=
  process.modifyThread tid (fun thread => { thread with state := .reaped }) (fun _ => rfl)

/-- An exited thread that somebody joined is given up with its stack. -/
def settleExited (process : Process) (tid : Tid) (woken : List Tid) :
    Option (UInt64 × UInt64) × Process :=
  if woken ≠ [] then
    (reapedThread process tid).takeManagedStackRelease tid
  else
    (none, process)

/-- A thread other than the main thread exits; threads that join it are woken. -/
def markThreadExited (table : ProcessTable) (now : UInt64) (tid : Tid) :
    Option (Pid × ProcessTable) := do
  let process ← table.getByTid tid
  if tid = process.mainTid then
    none
  else
    let process := exitedThread process now tid
    let woken := joiningTids process tid
    let process := wakeJoiners process tid
    let released := settleExited process tid woken
    let table := table.putProcess released.2.refreshStateFromThreads
    let table :=
      { table with readyQueue := table.readyQueue.retain fun queued => decide (queued ≠ tid) }
    let table := woken.foldl enqueueReady table
    pure (process.pid, table.releaseThreadStack released.1)

/-- Wait for a sibling thread to exit. -/
def joinThread (table : ProcessTable) (now : UInt64) (callerTid targetTid : Tid)
    (resumeContext : UserResumeContext) :
    ThreadJoinStatus × ProcessTable :=
  if callerTid = targetTid then
    (.selfJoin, table)
  else
    match table.getByTid callerTid, table.getByTid targetTid with
    | some process, some targetProcess =>
      if targetProcess.pid ≠ process.pid then
        (.notSibling, table)
      else
        match targetProcess.threads.get targetTid, process.threads.get callerTid with
        | some target, some caller =>
          if target.state = .reaped then
            (.alreadyReaped, table)
          else if target.waitingFor = some callerTid then
            (.deadlock, table)
          else if target.state = .exited then
            let released :=
              (reapedThread process targetTid).takeManagedStackRelease targetTid
            (.completed, (table.putProcess released.2).releaseThreadStack released.1)
          else if caller.state ≠ .running then
            (.missing, table)
          else
            let process := process.modifyThread callerTid
              (fun thread =>
                { thread.stopRun now with
                  state := .blocked
                  waitingFor := some targetTid
                  resumeContext := some resumeContext })
              (by intro thread; simp)
            (.blocked,
              (table.putProcess process.refreshStateFromThreads).record
                (.saved callerTid callerTid resumeContext))
        | _, _ => (.missing, table)
    | _, _ => (.missing, table)

/-- Block a running thread. -/
def blockThread
    (table : ProcessTable) (now : UInt64) (tid : Tid) (resumeContext : UserResumeContext) :
    Option ProcessTable := do
  let process ← table.getByTid tid
  let thread ← process.threads.get tid
  if thread.state ≠ .running then
    none
  else
    let process := process.modifyThread tid
      (fun thread =>
        { thread.stopRun now with
          state := .blocked, waitingFor := none, resumeContext := some resumeContext })
      (by intro thread; simp)
    pure ((table.putProcess process.refreshStateFromThreads).record
      (.saved tid tid resumeContext))

/-- Wake a blocked thread, which then sees a value in its result register. -/
def wakeThread (table : ProcessTable) (tid : Tid) (returnValue : UInt64) :
    Option ProcessTable := do
  let process ← table.getByTid tid
  let thread ← process.threads.get tid
  if thread.state ≠ .blocked then
    none
  else
    let context ← thread.resumeContext
    let process := process.modifyThread tid
      (fun thread =>
        { thread with
          resumeContext := some { context with rax := returnValue }
          waitingFor := none
          state := .ready })
      (fun _ => rfl)
    pure ((table.putProcess process.refreshStateFromThreads).enqueueReady tid)

end ProcessTable

end Vantara
