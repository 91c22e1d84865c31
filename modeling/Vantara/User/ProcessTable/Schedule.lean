import Vantara.User.ProcessTable.Waiting

/-!
# Yielding and dispatching threads

A running thread yields its place by saving its context and joining the ready
queue.  The scheduler takes the first queued thread that is still ready and has
a saved context; everything else it finds in the queue is skipped.
-/

namespace Vantara

open Foundation

namespace ProcessTable

/-- A thread about to return to user mode. -/
structure ScheduledUserResume where
  pid : Pid
  tid : Tid
  resumeContext : UserResumeContext
  p4Frame : Option UInt64
  deriving DecidableEq, Repr

/-- A running thread gives up the processor and stays ready. -/
def markThreadYielded
    (table : ProcessTable) (now : UInt64) (tid : Tid) (resumeContext : UserResumeContext) :
    Option ProcessTable := do
  let process ← table.getByTid tid
  let thread ← process.threads.get tid
  if thread.state ≠ .running then
    none
  else
    let process := process.modifyThread tid
      (fun thread =>
        { thread.stopRun now with resumeContext := some resumeContext, state := .ready })
      (by intro thread; simp)
    let process := (process.setSleepingUntil none).refreshStateFromThreads
    pure (((table.putProcess process).enqueueReady tid).record (.saved tid tid resumeContext))

/-- Count a queue entry that cannot be dispatched. -/
def skipReady (table : ProcessTable) : ProcessTable :=
  { table with readyQueueSkips := Word.saturatingAdd table.readyQueueSkips 1 }

/-- The process after one of its threads has entered the processor. -/
def enteredThread (process : Process) (now : UInt64) (tid : Tid) : Process :=
  (process.modifyThread tid
    (fun thread =>
      { thread.startRun now with resumeContext := none, state := .running })
    (by intro thread; simp)).refreshStateFromThreads

/-- Put a ready thread on the processor. -/
def dispatchThread (table : ProcessTable) (now : UInt64) (process : Process) (tid : Tid) :
    ProcessTable :=
  { table with userContextSwitches := table.userContextSwitches + 1 }.putProcess
    (enteredThread process now tid)

/-- Look at no more queue entries than the fuel allows. -/
def scheduleLoop (now : UInt64) : Nat → ProcessTable → Option ScheduledUserResume × ProcessTable
  | 0, table => (none, table)
  | fuel + 1, table =>
    match table.readyQueue.pop with
    | none => (none, table)
    | some (tid, rest) =>
      let table := { table with readyQueue := rest }
      match table.getByTid tid with
      | none => scheduleLoop now fuel table.skipReady
      | some process =>
        match process.threads.get tid with
        | none => scheduleLoop now fuel table.skipReady
        | some thread =>
          if thread.state ≠ .ready then
            scheduleLoop now fuel table.skipReady
          else
            match thread.resumeContext with
            | none => scheduleLoop now fuel table.skipReady
            | some resumeContext =>
              (some ⟨process.pid, tid, resumeContext, process.addressSpace.p4Frame⟩,
                (table.dispatchThread now process tid).record
                  (.dispatched process.pid tid resumeContext))

/-- Dispatch the first queued thread that can run. -/
def scheduleNextReadyUser (table : ProcessTable) (now : UInt64) :
    Option ScheduledUserResume × ProcessTable :=
  scheduleLoop now table.readyQueue.length table

/-- Whether another queued thread is ready. -/
def hasReadyThreadExcept (table : ProcessTable) (currentTid : Tid) : Bool :=
  table.readyQueue.items.any fun queued =>
    decide (queued ≠ currentTid) &&
      match (table.getByTid queued).bind fun process => process.threads.get queued with
      | some thread => decide (thread.state = .ready)
      | none => false

/-- Exchange the running thread for another ready one. -/
def preemptRunningThread
    (table : ProcessTable) (now : UInt64) (tid : Tid) (resumeContext : UserResumeContext) :
    Option ScheduledUserResume × ProcessTable :=
  if !table.hasReadyThreadExcept tid then
    (none, table)
  else
    match table.markThreadYielded now tid resumeContext with
    | none => (none, table)
    | some yielded => yielded.scheduleNextReadyUser now

/-- Count the yield of a running thread. -/
def recordThreadYield (table : ProcessTable) (tid : Tid) : Option ProcessTable := do
  let process ← table.getByTid tid
  let thread ← process.threads.get tid
  if thread.state ≠ .running then
    none
  else
    pure { table with userContextSwitches := table.userContextSwitches + 1 }

end ProcessTable

end Vantara
