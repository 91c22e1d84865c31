import Vantara.User.ProcessTable.Signals

/-!
# Waiting, sleeping and collecting

The operations by which a process blocks as a whole, by which parents collect
the status of their children, and by which records of ended processes are given
up.
-/

namespace Vantara

namespace ProcessTable

/-- What a parent learns about the target of a wait. -/
inductive WaitTargetStatus
  | missing
  | notChild (actualParent : Option Pid)
  | notExited (state : ProcessState)
  | reapable
  deriving DecidableEq, Repr

/-- A parent resumed by the end of its child. -/
structure WaitResume where
  parentPid : Pid
  childPid : Pid
  status : UInt64
  resumeContext : UserResumeContext
  p4Frame : Option UInt64
  deriving DecidableEq, Repr

section

variable (table : ProcessTable)

/-- Block a process until a child ends.  The context is stored in the main
thread, whichever thread made the call. -/
def markWaiting (now : UInt64) (pid childPid : Pid) (resumeContext : UserResumeContext) :
    Option ProcessTable :=
  let table := table.removeFromReadyQueue pid
  match table.get pid with
  | none => none
  | some process =>
    let waiting := (process.stopRun now).setWaitingFor (some childPid)
    let waiting := (waiting.setSleepingUntil none).setMainContext (some resumeContext)
    some ((table.stopProcessRun pid).putProcess (waiting.setState .blocked))

/-- Block a running process until a tick.  The context is stored in the main
thread, and the queue forgets the process even when the request is refused. -/
def markSleeping (now : UInt64) (pid : Pid) (wakeTick : UInt64)
    (resumeContext : UserResumeContext) :
    Bool × ProcessTable :=
  let table := table.removeFromReadyQueue pid
  match table.get pid with
  | none => (false, table)
  | some process =>
    if process.state ≠ .running then
      (false, table)
    else
      let sleeping := (process.stopRun now).setWaitingFor none
      let sleeping :=
        (sleeping.setSleepingUntil (some wakeTick)).setMainContext (some resumeContext)
      (true, (table.stopProcessRun pid).putProcess (sleeping.setState .blocked))

/-- Collect the status of a child that has ended. -/
def reapChild (parentPid childPid : Pid) : Option (UInt64 × ProcessTable) := do
  let process ← table.get childPid
  if process.parentPid ≠ some parentPid then
    none
  else if process.state ≠ .exited ∧ process.state ≠ .zombie then
    none
  else
    let status := process.exitStatus.getD 0
    let table :=
      (table.putProcess (process.setState .reaped)).record
        (.collected parentPid childPid status)
    let table :=
      match table.get parentPid with
      | some parent =>
        if parent.waitingFor = some childPid then
          table.putProcess ((parent.setWaitingFor none).setMainContext none)
        else
          table
      | none => table
    pure (status, table)

/-- What a parent would learn about the target of a wait. -/
def waitTargetStatus (parentPid childPid : Pid) : WaitTargetStatus :=
  match table.get childPid with
  | none => .missing
  | some process =>
    if process.parentPid ≠ some parentPid then
      .notChild process.parentPid
    else if process.state ≠ .exited ∧ process.state ≠ .zombie then
      .notExited process.state
    else
      .reapable

/-- A parent no longer waits, and gives up the context with which it waited. -/
def endWait (parentPid : Pid) : ProcessTable :=
  match table.get parentPid with
  | some parent =>
    table.putProcess (((parent.setWaitingFor none).setSleepingUntil none).setMainContext none)
  | none => table

/-- Put a parent blocked on an ended child back on the processor. -/
def resumeWaitingParent (now : UInt64) (parentPid childPid : Pid) :
    Option (WaitResume × ProcessTable) := do
  let child ← table.get childPid
  if child.parentPid ≠ some parentPid then
    none
  else if child.state ≠ .exited ∧ child.state ≠ .zombie then
    none
  else
    let status := child.exitStatus.getD 0
    let parent ← table.get parentPid
    if parent.state ≠ .blocked ∨ parent.waitingFor ≠ some childPid then
      none
    else
      let resumeContext ← parent.mainThread.resumeContext
      let table :=
        (table.putProcess (child.setState .reaped)).record
          (.collected parentPid childPid status)
      let table := table.endWait parentPid
      pure (⟨parentPid, childPid, status, resumeContext, parent.addressSpace.p4Frame⟩,
        (table.startProcessRun now parentPid).record
          (.dispatched parentPid parent.mainTid { resumeContext with rax := status }))

/-- Whether the parent of a process can no longer collect it. -/
def shouldInitReap (parentPid : Option Pid) : Bool :=
  match parentPid with
  | none => false
  | some parentPid =>
    match table.get parentPid with
    | some parent => parent.state.terminal
    | none => true

/-- Give up the records of processes found by a test made beforehand. -/
def reapAll (test : Process → Bool) : ProcessTable :=
  ((table.values.filter test).map Process.pid).foldl
    (fun table pid =>
      match table.get pid with
      | some process => table.putProcess (process.setState .reaped)
      | none => table)
    table

/-- Give up the records of zombies whose parent has ended or vanished. -/
def reapOrphanZombies : ProcessTable :=
  table.reapAll fun process =>
    decide (process.state = .zombie) && table.shouldInitReap process.parentPid

/-- Give up the records of background zombies. -/
def reapUnwaitedZombies : ProcessTable :=
  table.reapAll fun process =>
    decide (process.state = .zombie) && decide (process.jobMode = .background)

/-- Wake the processes whose sleep is over. -/
def wakeSleepingProcesses (nowTick : UInt64) : ProcessTable :=
  let due := table.values.filter fun process =>
    decide (process.state = .blocked) &&
      match process.sleepingUntilTick with
      | some wakeTick => decide (nowTick ≥ wakeTick)
      | none => false
  (due.map Process.pid).foldl
    (fun table pid =>
      match table.get pid with
      | some process =>
        (table.putProcess ((process.setSleepingUntil none).setState .ready)).enqueueReady
          process.mainTid
      | none => table)
    table

/-- Forget the oldest given-up records beyond the given number. -/
def compactReapedHistory (keep : Nat) : ProcessTable :=
  let reaped := (table.values.filter fun process => decide (process.state = .reaped)).map
    Process.pid
  (reaped.take (reaped.length - keep)).foldl
    (fun table pid =>
      let table := table.removeFromReadyQueue pid
      { table with processes := table.processes.remove pid })
    table

end

end ProcessTable

end Vantara
