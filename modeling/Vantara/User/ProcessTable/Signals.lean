import Vantara.User.ProcessTable.Threads

/-!
# Stopping, continuing and signalling processes

Signals stop, continue or terminate a whole process, or divert its main thread
to a handler.  A parent blocked on the process is woken with a status.
-/

namespace Vantara

namespace ProcessTable

/-- What a terminal signal did. -/
structure TerminalSignalReport where
  pid : Pid
  signal : UInt64
  status : UInt64
  stopped : Bool
  parentWoken : Bool
  deriving DecidableEq, Repr

/-- What a terminating signal did. -/
structure SignalTerminationReport where
  pid : Pid
  parentPid : Option Pid
  jobMode : JobMode
  status : UInt64
  parentWoken : Bool
  p4Frame : Option UInt64
  deriving DecidableEq, Repr

/-- Why a signal was not sent. -/
inductive SignalTerminationError
  | missing
  | permissionDenied
  | kernelTask
  | alreadyExited
  | selfTarget
  deriving DecidableEq, Repr

/-- What became of a signal. -/
inductive SignalDelivery
  | pending (pid : Pid) (signal pendingSignals : UInt64)
  | handled (pid : Pid) (signal handler : UInt64)
  | ignored (pid : Pid) (signal : UInt64)
  | terminated (report : SignalTerminationReport)
  deriving DecidableEq, Repr

/-- How a signal mask is combined with the old one. -/
inductive SignalMaskHow
  | block
  | unblock
  | setMask
  deriving DecidableEq, Repr

/-- The mask after a change. -/
def SignalMaskHow.combine (how : SignalMaskHow) (oldMask mask : UInt64) : UInt64 :=
  match how with
  | .block => oldMask ||| mask
  | .unblock => oldMask &&& ~~~mask
  | .setMask => mask

/-- Effect of a change of the signal mask. -/
structure SignalMaskUpdate where
  oldMask : UInt64
  newMask : UInt64
  deliveredSignal : Option UInt64
  deriving DecidableEq, Repr

section

variable (table : ProcessTable)

/-- The parent of a process that is blocked until the process ends. -/
def waitingParent (target : Process) : Option Process :=
  (target.parentPid.bind table.get).filter fun parent =>
    decide (parent.state = .blocked) && decide (parent.waitingFor = some target.pid)

/-- Stop a live process; a parent blocked on it is woken with a stop status.
The queue forgets the process even when the request is refused. -/
def stopUserProcess (now : UInt64) (pid : Pid) (signal : UInt64) :
    Option TerminalSignalReport × ProcessTable :=
  let table := table.removeFromReadyQueue pid
  match table.get pid with
  | none => (none, table)
  | some process =>
    if process.kind ≠ .userProcess ∨ process.state.terminal ∨ process.state = .stopped then
      (none, table)
    else
      let stopped := ((process.stopRun now).setSleepingUntil none).setState .stopped
      let table :=
        ((table.stopProcessRun pid).putProcess stopped).record (.stopped pid signal)
      let status := 128 + signal
      match table.waitingParent process with
      | some parent =>
        (some ⟨pid, signal, status, true, true⟩,
          (table.putProcess
            (((parent.setWaitingFor none).setMainResult status).setState
              .ready)).enqueueReady parent.mainTid)
      | none => (some ⟨pid, signal, status, true, false⟩, table)

/-- Continue a stopped process on behalf of a caller. -/
def continueUserProcess (callerPid pid : Pid) : Option ProcessTable := do
  let caller ← table.get callerPid
  let process ← table.get pid
  if caller.credentials.uid ≠ 0 ∧ caller.credentials.uid ≠ process.credentials.uid then
    none
  else if process.state ≠ .stopped then
    none
  else
    pure (((table.putProcess (process.setState .ready)).enqueueReady process.mainTid).record
      (.continued pid))

/-- The process a caller may signal: another live user process of its own user,
or any if the caller is the superuser. -/
def signalTarget (callerPid targetPid : Pid) : Except SignalTerminationError Process :=
  if callerPid = targetPid then
    .error .selfTarget
  else
    match table.get callerPid, table.get targetPid with
    | some caller, some target =>
      if target.kind ≠ .userProcess then
        .error .kernelTask
      else if target.state.terminal then
        .error .alreadyExited
      else if caller.credentials.uid ≠ 0 ∧
          caller.credentials.uid ≠ target.credentials.uid then
        .error .permissionDenied
      else
        .ok target
    | _, _ => .error .missing

/-- A parent that waited for a process becomes ready with its status. -/
def handOver (parent : Process) (targetPid : Pid) (status : UInt64) : ProcessTable :=
  let table :=
    match table.get targetPid with
    | some target => table.putProcess (target.setState .reaped)
    | none => table
  let table := table.record (.collected parent.pid targetPid status)
  let resumed :=
    match table.get parent.pid with
    | some parent =>
      table.putProcess
        ((((parent.setWaitingFor none).setSleepingUntil none).setMainResult status).setState
          .ready)
    | none => table
  resumed.enqueueReady parent.mainTid

/-- Terminate another process; a parent blocked on it collects the status. -/
def terminateUserProcess (now : UInt64) (callerPid targetPid : Pid) (status : UInt64) :
    Except SignalTerminationError (SignalTerminationReport × ProcessTable) :=
  match table.signalTarget callerPid targetPid with
  | .error error => .error error
  | .ok target =>
    let table := table.markExited now targetPid status
    let report := fun parentWoken : Bool =>
      (⟨targetPid, target.parentPid, target.jobMode, status, parentWoken,
        target.addressSpace.p4Frame⟩ : SignalTerminationReport)
    match table.waitingParent target with
    | some parent => .ok (report true, table.handOver parent targetPid status)
    | none => .ok (report false, table)

/-- Divert the saved context of a main thread to a signal handler. -/
def activateSignalHandler (pid : Pid) (signal handler : UInt64) : Option ProcessTable := do
  let process ← table.get pid
  let thread := process.mainThread
  if thread.signalReturnContext.isSome then
    none
  else
    let original ← thread.resumeContext
    let process := process.modifyMainThread
      (fun thread =>
        { thread with
          signalReturnContext := some original
          resumeContext := some { original with rip := handler, rdi := signal, rax := 0 }
          waitingFor := none
          state := .ready })
      (fun _ => rfl)
    let process :=
      ((process.setWaitingFor none).setSleepingUntil none).refreshStateFromThreads
    pure (((table.putProcess process).enqueueReady process.mainTid).record
      (.handled process.mainTid))

/-- Note a signal that cannot be delivered now. -/
def addPendingSignal (target : Process) (signal mask : UInt64) : SignalDelivery × ProcessTable :=
  let pending := target.pendingSignals ||| mask
  (.pending target.pid signal pending,
    table.putProcess { target with pendingSignals := pending })

/-- Send a signal to another process. -/
def sendSignal (now : UInt64) (callerPid targetPid : Pid) (signal : UInt64) :
    Except SignalTerminationError (SignalDelivery × ProcessTable) :=
  match table.signalTarget callerPid targetPid with
  | .error error => .error error
  | .ok target =>
    match signalBit signal with
    | none => .error .missing
    | some mask =>
      if target.blockedSignals &&& mask ≠ 0 then
        .ok (table.addPendingSignal target signal mask)
      else if target.sigtermDisposition = sigIgn then
        .ok (.ignored target.pid signal, table)
      else if target.sigtermDisposition ≠ sigDfl then
        match table.activateSignalHandler targetPid signal target.sigtermDisposition with
        | some activated =>
          .ok (.handled target.pid signal target.sigtermDisposition, activated)
        | none => .ok (table.addPendingSignal target signal mask)
      else
        match table.terminateUserProcess now callerPid targetPid (128 + signal) with
        | .ok (report, terminated) => .ok (.terminated report, terminated)
        | .error error => .error error

/-- Replace the disposition of the terminate request. -/
def setSignalDisposition (pid : Pid) (signal disposition : UInt64) :
    Option (UInt64 × ProcessTable) :=
  if signal ≠ sigterm then
    none
  else do
    let process ← table.get pid
    pure (process.sigtermDisposition,
      table.putProcess { process with sigtermDisposition := disposition })

/-- Divert a running thread to a signal handler. -/
def activateRunningSignalHandler (now : UInt64) (pid : Pid) (tid : Tid)
    (signal handler : UInt64) (original : UserResumeContext) :
    Option ProcessTable := do
  let process ← table.get pid
  let thread ← process.threads.get tid
  if thread.state ≠ .running ∨ thread.signalReturnContext.isSome then
    none
  else
    let process := process.modifyThread tid
      (fun thread =>
        { thread.stopRun now with
          signalReturnContext := some original
          resumeContext := some { original with rip := handler, rdi := signal, rax := 0 }
          state := .ready })
      (by intro thread; simp)
    let table := (table.putProcess process.refreshStateFromThreads).enqueueReady tid
    pure ((table.record (.saved tid tid original)).record (.handled tid))

/-- Return from a signal handler to the interrupted context. -/
def restoreSignalContext (now : UInt64) (pid : Pid) (tid : Tid) : Option ProcessTable := do
  let process ← table.get pid
  let thread ← process.threads.get tid
  if thread.state ≠ .running then
    none
  else
    let original ← thread.signalReturnContext
    let process := process.modifyThread tid
      (fun thread =>
        { thread.stopRun now with
          signalReturnContext := none
          resumeContext := some original
          state := .ready })
      (by intro thread; simp)
    let table := (table.putProcess process.refreshStateFromThreads).enqueueReady tid
    pure ((table.record (.restored tid)).record (.saved tid tid original))

end

/-- The pending signal that a mask lets through, lowest first. -/
def deliverable (process : Process) (mask : UInt64) : Option UInt64 :=
  lowestSignal (process.pendingSignals &&& ~~~mask)

/-- Change the signal mask; a pending signal that it no longer blocks is taken. -/
def updateSignalMask (table : ProcessTable) (pid : Pid) (how : SignalMaskHow) (mask : UInt64) :
    Option (SignalMaskUpdate × ProcessTable) := do
  let process ← table.get pid
  if process.kind ≠ .userProcess ∨ process.state.terminal then
    none
  else
    let oldMask := process.blockedSignals
    let newMask := how.combine oldMask mask
    let delivered := deliverable process newMask
    let pending :=
      match delivered with
      | some signal => process.pendingSignals &&& ~~~((signalBit signal).getD 0)
      | none => process.pendingSignals
    pure (⟨oldMask, newMask, delivered⟩,
      table.putProcess { process with blockedSignals := newMask, pendingSignals := pending })

end ProcessTable

end Vantara
