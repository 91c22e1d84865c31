import Mathlib.Data.Set.Insert
import Vantara.User.ProcessTable

/-!
# What the life of processes depends on

The view of a process table keeps what decides which thread runs, and forgets
names, credentials, signal masks, memory and counters.  Processes and their
threads are partial functions, the ready queue is a set, and the thread on the
processor is part of the view.
-/

namespace Vantara
namespace Lifecycle

/-- What the life of a thread depends on. -/
@[ext]
structure ThreadView where
  state : ThreadState
  /-- Where the thread resumes. -/
  context : Option UserResumeContext
  /-- The interrupted context while a signal handler is active. -/
  interrupted : Option UserResumeContext
  /-- The sibling whose exit the thread awaits. -/
  joining : Option Tid

/-- What the life of a process depends on. -/
@[ext]
structure ProcessView where
  parent : Option Pid
  kind : ProcessKind
  jobMode : JobMode
  state : ProcessState
  status : Option UInt64
  /-- The child whose end the process awaits. -/
  waitingFor : Option Pid
  sleepingUntil : Option UInt64
  mainTid : Tid
  threads : Tid → Option ThreadView

namespace ProcessView

/-- The process with one thread put in place. -/
@[simps]
def setThread (process : ProcessView) (tid : Tid) (thread : ThreadView) : ProcessView :=
  { process with
    threads := fun other => if other = tid then some thread else process.threads other }

/-- Whether some thread is in a state. -/
def AnyIn (process : ProcessView) (state : ThreadState) : Prop :=
  ∃ tid thread, process.threads tid = some thread ∧ thread.state = state

open Classical in
/-- The state that summarizes the threads. -/
noncomputable def summary (process : ProcessView) : ProcessState :=
  if process.AnyIn .running then .running
  else if process.AnyIn .ready then .ready
  else if process.AnyIn .blocked then .blocked
  else if process.AnyIn .stopped then .stopped
  else .created

/-- The process whose state summarizes its threads, unless it has ended. -/
@[simps parent kind jobMode status waitingFor sleepingUntil mainTid threads]
noncomputable def refresh (process : ProcessView) : ProcessView :=
  { process with
    state := if process.state.terminal then process.state else process.summary }

/-- The process after its end: every thread has ended too. -/
@[simps]
def ended (process : ProcessView) (state : ProcessState) : ProcessView :=
  { process with
    state := state
    threads := fun tid => (process.threads tid).map fun thread =>
      { thread with state := threadStateForProcess state, context := none } }

/-- The process with a given state and main thread. -/
@[simps]
def setMain (process : ProcessView) (state : ProcessState) (main : ThreadView) : ProcessView :=
  { process.setThread process.mainTid main with state := state }

end ProcessView

/-- What the life of all processes depends on. -/
@[ext]
structure View where
  process : Pid → Option ProcessView
  queue : Set Tid
  /-- Thread identifiers from here on have not been drawn. -/
  tidBound : Nat
  /-- Process identifiers from here on have not been drawn. -/
  pidBound : Nat
  /-- The processes that wait to be loaded. -/
  unborn : Set Pid
  trace : List TraceEvent
  /-- The thread on the processor. -/
  cpu : Option (Pid × Tid)

/-- The view with one process put in place. -/
@[simps]
def View.setProcess (view : View) (pid : Pid) (process : ProcessView) : View :=
  { view with process := fun other => if other = pid then some process else view.process other }

/-- Only one process is another one. -/
def View.Becomes (view : View) (pid : Pid) (changed : ProcessView) (after : View) : Prop :=
  ∀ other, after.process other = if other = pid then some changed else view.process other

/-- The threads of a process. -/
def ProcessView.tids (process : ProcessView) : Set Tid :=
  { tid | (process.threads tid).isSome }

end Lifecycle

open Lifecycle

/-- What the life of the thread depends on. -/
@[simps]
def Thread.view (thread : Thread) : ThreadView where
  state := thread.state
  context := thread.resumeContext
  interrupted := thread.signalReturnContext
  joining := thread.waitingFor

/-- What the life of the process depends on. -/
@[simps kind state mainTid threads]
def Process.view (process : Process) : ProcessView where
  parent := process.parentPid
  kind := process.kind
  jobMode := process.jobMode
  state := process.state
  status := process.exitStatus
  waitingFor := process.waitingFor
  sleepingUntil := process.sleepingUntilTick
  mainTid := process.mainTid
  threads := fun tid => (process.threads.get tid).map Thread.view

/-- What the life of all processes depends on, given the programs that wait to
be loaded and the thread on the processor. -/
@[simps process]
def ProcessTable.view (table : ProcessTable) (unborn : Set Pid) (cpu : Option (Pid × Tid)) :
    View where
  process := fun pid => (table.get pid).map Process.view
  queue := { tid | tid ∈ table.readyQueue }
  tidBound := table.nextTid.toNat
  pidBound := table.nextPid.toNat
  unborn := unborn
  trace := table.trace
  cpu := cpu

end Vantara
