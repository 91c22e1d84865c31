import Vantara.User.Dispatch
import Vantara.User.Landing
import Vantara.Foundation.Transition

/-!
# The running system

User code and the kernel's event loop take turns on one processor.  An action is
what happens next: a system call, an interrupt or a fault of the current thread,
one stage of the event loop, or something that the hardware does to the kernel
meanwhile.
-/

namespace Vantara

open Foundation

/-- Faults that end a user process. -/
inductive FaultKind
  | page
  | divideError
  | invalidOpcode
  | generalProtection
  deriving DecidableEq, Repr

/-- The status that a fault leaves. -/
def FaultKind.status : FaultKind → UInt64
  | .page => 0x0badf00d
  | .divideError => 0x0bad0000
  | .invalidOpcode => 0x0bad0006
  | .generalProtection => 0x0bad000d

/-- Control keys that the terminal turns into signals. -/
inductive TerminalKey
  | interrupt
  | suspend
  deriving DecidableEq, Repr

/-- The signal of a control key. -/
def TerminalKey.signal : TerminalKey → UInt64
  | .interrupt => sigint
  | .suspend => sigtstp

/-- What becomes of the program that is loaded next. -/
inductive LoadOutcome
  /-- The shared user mapping could not be prepared. -/
  | mappingFailed
  /-- The image could not be loaded. -/
  | loadFailed
  /-- The image was loaded; its private memory, if any, was prepared or not. -/
  | loaded (program : Kernel.LoadedProgram) (privateMemoryPrepared : Bool)
  deriving DecidableEq, Repr

/-- What happens next. -/
inductive Action
  /-- The current thread makes a system call. -/
  | syscall (frame : SyscallFrame) (env : UserEnv)
  /-- The timer interrupts the current thread. -/
  | timer (context : UserResumeContext)
  /-- The current thread faults. -/
  | fault (kind : FaultKind)
  /-- The event loop handles an input event, perhaps a shell command. -/
  | input (command : Option (String × Option String))
  /-- The event loop loads the next program. -/
  | pending (outcome : LoadOutcome)
  /-- The event loop looks for a ready thread. -/
  | ready
  /-- A control key is pressed. -/
  | terminalKey (key : TerminalKey)
  /-- The timer interrupts the kernel. -/
  | kernelTick
  /-- The kernel's own scheduler moves a kernel thread into a state. -/
  | kernelThread (tid : Tid) (state : ThreadState)

namespace Kernel

section

variable (kernel : Kernel)

/-- Count a timer interrupt; the kernel panics when the counter overflows. -/
def tick : Option Kernel :=
  if kernel.ticks.toNat + 1 < 2 ^ 64 then
    some { kernel with ticks := kernel.ticks + 1 }.recordTimerPreemptionCheck
  else
    none

/-- The kernel after a panic or a reboot. -/
def halt : Kernel :=
  { kernel with mode := .halted }

/-- The timer interrupts user code. -/
def timerInterrupt (context : UserResumeContext) : Kernel :=
  match kernel.tick with
  | none => kernel.halt
  | some kernel =>
    (kernel.withTable
      (kernel.table.wakeSleepingProcesses kernel.ticks)).preemptCurrentUser context

/-- The current thread faults. -/
def userFault (kind : FaultKind) : Kernel :=
  match kernel.markCurrentUserFault kind.status with
  | (some _, kernel) => kernel.userExitLanding
  | (none, kernel) =>
    match kind with
    | .page => kernel.userExitLanding
    | .divideError | .invalidOpcode | .generalProtection => kernel.halt

/-- The system call interrupt and what follows it. -/
def systemCall (frame : SyscallFrame) (env : UserEnv) : Kernel :=
  match kernel.syscallInterruptDispatch env frame with
  | none => kernel.halt
  | some (value, kernel) =>
    if value = syscallReturnToKernel then kernel.userExitLanding else kernel

/-- The shell handles a command while no program owns the keyboard. -/
def handleInput (command : Option (String × Option String)) : Kernel :=
  match command with
  | none => kernel
  | some (path, arg) =>
    if kernel.userlandOwnsKeyboard then
      kernel
    else
      match kernel.requestPathWithArgAndMode path arg .foreground with
      | .error _ => kernel
      | .ok none => kernel.halt
      | .ok (some (_, kernel)) => kernel

/-- Enter a loaded program in the process table and prepare its private memory, which ends
with marking the slot of its main stack. -/
def startProgram (program : UserProgram) (loaded : LoadedProgram)
    (privateMemoryPrepared : Bool) : AddressSpace × Kernel :=
  let (space, kernel) := kernel.registerExec program loaded
  match space.p4Frame, privateMemoryPrepared with
  | some p4Frame, true =>
    (space, kernel.withTable
      { kernel.table with
        privatePool := kernel.table.privatePool.markStackSlot p4Frame space.layout.stackTop })
  | _, _ => (space, kernel)

/-- Load the next program and enter it. -/
def runPendingUserProgram (outcome : LoadOutcome) : Bool × Kernel :=
  match kernel.pendingPrograms with
  | [] => (false, kernel)
  | program :: rest =>
    let kernel := { kernel with pendingPrograms := rest }
    match outcome with
    | .mappingFailed => (false, kernel)
    | .loadFailed => (false, kernel)
    | .loaded loaded privateMemoryPrepared =>
      let (space, kernel) := kernel.startProgram program loaded privateMemoryPrepared
      if space.p4Verified then
        if privateMemoryPrepared then
          (true, kernel.withTable (kernel.table.markIsolated program.pid))
        else
          (false, kernel)
      else
        (true, kernel)

/-- Deliver the terminal signal; it stays if a foreground job did not take it. -/
def deliverPendingSignal : Kernel :=
  let signal := kernel.terminalSignal
  if signal = 0 then
    kernel
  else
    match { kernel with terminalSignal := 0 }.deliverTerminalSignal signal with
    | (true, kernel) => kernel
    | (false, kernel) =>
      if kernel.terminalForegroundPid ≠ 0 then
        { kernel with terminalSignal := signal }
      else
        kernel

/-- Deliver the terminal signal, wake sleepers and dispatch a ready thread. -/
def runReadyUserProcess : Bool × Kernel :=
  let kernel := kernel.deliverPendingSignal
  (kernel.withTable
    (kernel.table.wakeSleepingProcesses kernel.ticks)).scheduleNextReadyUser

/-- Stay in the event loop unless something else took over. -/
def continueLoop (stage : LoopStage) : Kernel :=
  if kernel.mode = .halted then kernel else { kernel with mode := .eventLoop stage }

/-- The next state; `none` if the action cannot happen. -/
def step (action : Action) : Option Kernel :=
  match kernel.mode, action with
  | .user, .syscall frame env => some (kernel.systemCall frame env)
  | .user, .timer context => some (kernel.timerInterrupt context)
  | .user, .fault kind => some (kernel.userFault kind)
  | .eventLoop .input, .input command =>
    some ((kernel.handleInput command).continueLoop .pending)
  | .eventLoop .pending, .pending outcome =>
    match kernel.runPendingUserProgram outcome with
    | (true, kernel) => some { kernel with mode := .user }
    | (false, kernel) => some (kernel.continueLoop .ready)
  | .eventLoop .ready, .ready => some (enterUserOrLoop kernel.runReadyUserProcess)
  | .halted, _ => none
  | _, .terminalKey key => some { kernel with terminalSignal := key.signal }
  | _, .kernelTick => some (kernel.tick.getD kernel.halt)
  | _, .kernelThread tid state =>
    (kernel.table.setKernelThreadState kernel.ticks tid state).map kernel.withTable
  | _, _ => none

end

/-- The prepared page-table roots at boot, at most eight. -/
def bootPool (p4Frames : List UInt64) : PrivateP4Pool :=
  ⟨(p4Frames.take 8).map fun p4Frame => ⟨p4Frame, List.replicate 8 false, false⟩⟩

/-- The process table at boot: the kernel task and its idle thread. -/
def bootTable (p4Frames : List UInt64) : ProcessTable :=
  ((ProcessTable.new (bootPool p4Frames)).createReservedProcessWithJobMode 0 none "kernel"
    "kernel" .empty .foreground (.kernelPlaceholder 0)).markReady 0
      |>.createKernelThread.2

/-- The kernel before its first program is requested. -/
def bootKernel (images : List UserlandImage) (p4Frames : List UInt64) : Kernel where
  table := bootTable p4Frames
  currentUserProcess := none
  currentUserThread := none
  lastExitedProcess := none
  terminalForegroundPid := 0
  lastPreemptRequestTick := 0
  pendingPrograms := []
  userShellWaitRequested := []
  ipc := .new
  ticks := 0
  terminalSignal := 0
  images := images
  mode := .eventLoop .input

/-- The kernel when its event loop starts: `init` is queued if it exists, and
the event loop runs in a kernel thread of its own. -/
def boot (images : List UserlandImage) (p4Frames : List UInt64) : Kernel :=
  let kernel := bootKernel images p4Frames
  let kernel :=
    match kernel.requestBootInit with
    | .ok (some (_, kernel)) => kernel
    | _ => kernel
  let created := kernel.table.createKernelThread
  kernel.withTable
    ((created.1.bind fun tid => created.2.setKernelThreadState 0 tid .running).getD created.2)

/-! ## A small machine

Sample runs start on a machine with two programs and no private page tables.  Its
memory holds the name of the second program, and every access is permitted.
-/

namespace Sample

/-- A machine with `init` and a shell. -/
def machine : Kernel := boot [⟨"init"⟩, ⟨"sh"⟩] []

/-- Where the memory holds the name of the shell, and how long that is. -/
def shellName : UInt64 := 0x1000200
def shellNameLen : UInt64 := 2

/-- The memory around a system call. -/
def env : UserEnv where
  memory address := [115, 104].getD (address - shellName).toNat 0
  accessible _ _ _ := true
  files := .none
  keyboard := []
  processListing := 0
  pciListing := 0
  networkListing := 0
  kernelLog _ := 0
  driverReport _ := 0

/-- The frame of a system call at an address. -/
def frameAt (rip number arg0 arg1 arg2 arg3 : UInt64) : SyscallFrame :=
  ⟨number, arg0, arg1, arg2, arg3, 0, 0, rip, 0x13ff000, 0x202,
    0, 0, 0, 0, 0, 0, 0, 0, 0, 0, 0, 0, 0, 0⟩

/-- The frame of a system call. -/
def frame (number arg0 arg1 arg2 arg3 : UInt64) : SyscallFrame :=
  frameAt 0x1000100 number arg0 arg1 arg2 arg3

/-- The current thread makes a system call. -/
def call (number arg0 arg1 : UInt64) : Action := .syscall (frame number arg0 arg1 0 0) env

/-- The current thread starts another. -/
def startThread : Action := .syscall (frame 29 0x1000000 0x1010000 1024 0) env

/-- The event loop loads the next program. -/
def load : Action := .pending (.loaded ⟨0x1000000, 0x40000⟩ true)

/-- The first program is loaded. -/
def loadInit : List Action := [.input none, load]

/-- It asks for a shell, in the foreground or the background. -/
def execShell : Action := call 13 shellName shellNameLen
def execShellBg : Action := call 18 shellName shellNameLen

/-- It starts a shell and lets it run. -/
def loadShell : List Action := loadInit ++ [execShell, call 17 0 0, .input none, load]

/-- The shell installs a handler, and the first program asks it to terminate. -/
def askShell : List Action := loadShell ++ [call 44 15 0x1000300, call 17 0 0, call 16 2 15]

/-- The machine when its first program starts, that program and its thread. -/
def started : Kernel := (Transition.run step machine loadInit).get (by decide +kernel)
def initProcess : Process := (started.table.get 1).get (by decide +kernel)
def initThread : Thread := (initProcess.threads.get 4).get (by decide +kernel)

end Sample

end Kernel

end Vantara
