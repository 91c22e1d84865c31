import Vantara.User.Program

/-!
# Processes

A process groups threads with credentials, signals and an address space.  Its
state is written directly when the process as a whole changes and recomputed
from its threads when one of them changes.
-/

namespace Vantara

open Foundation

/-- Execution states of a process. -/
inductive ProcessState
  | created
  | ready
  | running
  | blocked
  | stopped
  | exited
  | zombie
  | reaped
  deriving DecidableEq, Repr

/-- The states from which a process never runs again. -/
def ProcessState.terminal : ProcessState → Bool
  | .exited | .zombie | .reaped => true
  | .created | .ready | .running | .blocked | .stopped => false

/-- The states from which a thread never runs again. -/
def ThreadState.terminal : ThreadState → Bool
  | .exited | .zombie | .reaped => true
  | .created | .ready | .running | .blocked | .stopped => false

/-- The thread state that mirrors a process state. -/
def threadStateForProcess : ProcessState → ThreadState
  | .created => .created
  | .ready => .ready
  | .running => .running
  | .blocked => .blocked
  | .stopped => .stopped
  | .exited => .exited
  | .zombie => .zombie
  | .reaped => .reaped

@[simp] theorem terminal_threadStateForProcess (state : ProcessState) :
    (threadStateForProcess state).terminal = state.terminal := by
  cases state <;> rfl

/-- Whether a process is the kernel's own or a user program. -/
inductive ProcessKind
  | kernelTask
  | userProcess
  deriving DecidableEq, Repr

/-- The kind of the threads of a process. -/
def ProcessKind.threadKind : ProcessKind → ThreadKind
  | .kernelTask => .kernel
  | .userProcess => .user

/-- Bytes of a user name. -/
def usernameMaxLen : Nat := 16

/-- On whose behalf a process acts. -/
structure ProcessCredentials where
  uid : UInt32
  gid : UInt32
  username : List UInt8
  deriving DecidableEq, Repr

/-- The bytes without leading and trailing spaces. -/
def trimAsciiSpaces (bytes : List UInt8) : List UInt8 :=
  ((bytes.dropWhile (· = 32)).reverse.dropWhile (· = 32)).reverse

namespace ProcessCredentials

/-- The superuser. -/
def root : ProcessCredentials :=
  ⟨0, 0, [114, 111, 111, 116]⟩

/-- The credentials of a user; every user but `root` is user 1000. -/
def fromUsername (name : List UInt8) : ProcessCredentials :=
  let name := trimAsciiSpaces name
  if name = root.username then root else ⟨1000, 1000, name.take usernameMaxLen⟩

end ProcessCredentials

/-- Terminate request. -/
def sigterm : UInt64 := 15

/-- Continue request. -/
def sigcont : UInt64 := 18

/-- Terminal stop request. -/
def sigtstp : UInt64 := 20

/-- Terminal interrupt. -/
def sigint : UInt64 := 2

/-- Default disposition of a signal. -/
def sigDfl : UInt64 := 0

/-- Disposition that ignores a signal. -/
def sigIgn : UInt64 := 1

/-- The bit of a signal in a signal mask. -/
def signalBit (signal : UInt64) : Option UInt64 :=
  if signal = 0 ∨ signal > 64 then none else some (1 <<< (signal - 1))

/-- The signals that programs may block: the terminate request alone. -/
def sigtermMask : UInt64 := 1 <<< (sigterm - 1)

/-- The lowest signal in a mask. -/
def lowestSignal (mask : UInt64) : Option UInt64 :=
  if mask ≠ 0 then some (UInt64.ofNat (Word.trailingZeros mask) + 1) else none

/-- A process. -/
structure Process where
  pid : Pid
  parentPid : Option Pid
  processGroupId : Pid
  sessionId : Pid
  name : String
  programPath : String
  kind : ProcessKind
  threads : ThreadStore
  credentials : ProcessCredentials
  arg : UserProgramArg
  cwd : NormalizedPath
  jobMode : JobMode
  state : ProcessState
  addressSpace : AddressSpace
  exitStatus : Option UInt64
  /-- The child whose end the process awaits. -/
  waitingFor : Option Pid
  sleepingUntilTick : Option UInt64
  pendingSignals : UInt64
  blockedSignals : UInt64
  sigtermDisposition : UInt64

namespace ThreadStore

/-- The threads after the process as a whole enters a state: its end reaches
every thread, any other state only the main thread. -/
def applyProcessState (threads : ThreadStore) (state : ProcessState) : ThreadStore :=
  if state.terminal then
    threads.modifyAll
      (fun thread =>
        { thread with
          state := threadStateForProcess state
          resumeContext := none
          lastStartedTick := none })
      (fun _ => rfl)
  else
    threads.modify threads.mainTid
      (fun thread => { thread with state := threadStateForProcess state })
      (fun _ => rfl)

/-- Whether some thread is in a state. -/
def anyIn (threads : ThreadStore) (state : ThreadState) : Bool :=
  threads.values.any fun thread => decide (thread.state = state)

/-- The process state that summarizes the threads. -/
def summary (threads : ThreadStore) : ProcessState :=
  if threads.anyIn .running then .running
  else if threads.anyIn .ready then .ready
  else if threads.anyIn .blocked then .blocked
  else if threads.anyIn .stopped then .stopped
  else .created

@[simp] theorem mainTid_applyProcessState :
    (applyProcessState threads state).mainTid = threads.mainTid := by
  unfold applyProcessState
  split <;> rfl

theorem get_applyProcessState_of_terminal (threads : ThreadStore)
    (terminal : state.terminal = true) :
    (threads.applyProcessState state).get tid =
      (threads.get tid).map fun thread =>
        { thread with
          state := threadStateForProcess state
          resumeContext := none
          lastStartedTick := none } := by
  simp [applyProcessState, terminal]

theorem get_applyProcessState_of_live (threads : ThreadStore) (live : state.terminal = false) :
    (threads.applyProcessState state).get tid =
      if tid = threads.mainTid then
        (threads.get tid).map fun thread =>
          { thread with state := threadStateForProcess state }
      else
        threads.get tid := by
  simp [applyProcessState, live]

theorem anyIn_eq_true_iff {threads : ThreadStore} : threads.anyIn state = true ↔
      ∃ tid thread, threads.get tid = some thread ∧ thread.state = state := by
  simp only [anyIn, List.any_eq_true, decide_eq_true_eq]
  constructor
  · rintro ⟨thread, threadMem, inState⟩
    exact ⟨thread.tid, thread, mem_values_iff.mp threadMem, inState⟩
  · rintro ⟨tid, thread, found, inState⟩
    have threadTid := tid_of_get found
    subst threadTid
    exact ⟨thread, mem_values_iff.mpr found, inState⟩

theorem terminal_summary (threads : ThreadStore) : threads.summary.terminal = false := by
  unfold summary
  split_ifs <;> rfl

end ThreadStore

namespace Process

section

variable (process : Process)

/-- Identifier of the main thread. -/
def mainTid : Tid :=
  process.threads.mainTid

/-- The main thread. -/
def mainThread : Thread :=
  process.threads.main

/-- The process with other threads. -/
@[simps pid parentPid kind jobMode state threads]
def setThreads (threads : ThreadStore) : Process :=
  { process with threads := threads }

/-- Await the end of a child, or of none. -/
@[simps pid parentPid kind jobMode state threads waitingFor]
def setWaitingFor (child : Option Pid) : Process :=
  { process with waitingFor := child }

/-- Sleep until a tick, or not. -/
@[simps pid parentPid kind jobMode state threads waitingFor]
def setSleepingUntil (wakeTick : Option UInt64) : Process :=
  { process with sleepingUntilTick := wakeTick }

/-- Leave a status behind. -/
@[simps pid parentPid kind jobMode state threads]
def setExitStatus (status : UInt64) : Process :=
  { process with exitStatus := some status }

/-- Change one thread. -/
@[simps pid parentPid kind jobMode state threads]
def modifyThread (tid : Tid)
    (change : Thread → Thread)
    (keepsTid : ∀ thread, (change thread).tid = thread.tid) :
    Process :=
  { process with threads := process.threads.modify tid change keepsTid }

/-- Change the main thread. -/
@[simps! pid parentPid kind jobMode state]
def modifyMainThread
    (change : Thread → Thread)
    (keepsTid : ∀ thread, (change thread).tid = thread.tid) :
    Process :=
  process.modifyThread process.mainTid change keepsTid

/-- Move the process as a whole into a state. -/
@[simps pid parentPid kind jobMode state threads]
def setState (state : ProcessState) : Process :=
  { process with
    state := state
    threads := process.threads.applyProcessState state }

/-- Recompute the state from the threads, unless the process has ended. -/
@[simps pid parentPid kind jobMode threads]
def refreshStateFromThreads : Process :=
  { process with
    state := if process.state.terminal then process.state else process.threads.summary }

/-- Give up the reserved stack of a thread: the root and stack top to release. -/
def takeManagedStackRelease (tid : Tid) : Option (UInt64 × UInt64) × Process :=
  match process.addressSpace.p4Frame, process.threads.get tid with
  | some p4Frame, some thread =>
    if thread.kernelManagedStack then
      match thread.userStackTop with
      | some stackTop =>
        (some (p4Frame, stackTop),
          process.modifyThread tid
            (fun thread =>
              { thread with
                userStackStart := none
                userStackTop := none
                kernelManagedStack := false })
            (fun _ => rfl))
      | none => (none, process)
    else
      (none, process)
  | _, _ => (none, process)

end

/-- The main thread leaves the processor. -/
@[simps! pid parentPid kind jobMode state]
def stopRun (now : UInt64) (process : Process) : Process :=
  process.modifyMainThread (Thread.stopRun now) (fun _ => Thread.stopRun_tid)

/-- The process enters the processor with its main thread. -/
@[simps! pid parentPid kind jobMode state]
def startRun (now : UInt64) (process : Process) : Process :=
  (process.setState .running).modifyMainThread (Thread.startRun now) (fun _ => rfl)

/-- Replace the context from which the main thread resumes. -/
@[simps! pid parentPid kind jobMode state]
def setMainContext (process : Process) (context : Option UserResumeContext) : Process :=
  process.modifyMainThread (fun thread => { thread with resumeContext := context }) (fun _ => rfl)

/-- The process after its end; a parent, if any, may still collect the status. -/
def exitWith (now : UInt64) (status : UInt64) (process : Process) : Process :=
  (((process.stopRun now).setExitStatus status).setSleepingUntil none).setState
    (if process.parentPid.isSome then .zombie else .exited)

/-- The process given up, whatever state it was in. -/
def giveUp (now : UInt64) (process : Process) : Process :=
  let reaped := (process.stopRun now).setState .reaped
  let reaped := reaped.setExitStatus (reaped.exitStatus.getD 0)
  ((reaped.setWaitingFor none).setSleepingUntil none).setMainContext none

/-- Write the result register of the main thread, if its context is saved. -/
@[simps! pid parentPid kind jobMode state]
def setMainResult (process : Process) (value : UInt64) : Process :=
  process.modifyMainThread
    (fun thread =>
      { thread with
        resumeContext := thread.resumeContext.map fun context => { context with rax := value } })
    (fun _ => rfl)

end Process

end Vantara
