import Vantara.User.ProcessTable.Threads

/-!
# The scheduler of kernel threads

Kernel threads have a task control block each and wait in a queue of their own.
Whether a thread is ready, running or blocked is kept in the process table, the
tick a task sleeps until in its control block, and whose turn comes next in the
queue; the operations below update these one at a time.
-/

namespace Vantara

open Foundation

namespace ProcessTable

/-- State of a thread of the kernel task. -/
def kernelThreadState (table : ProcessTable) (tid : Tid) : Option ThreadState := do
  let process ← table.getByTid tid
  if process.kind = .kernelTask then
    (process.threads.get tid).map Thread.state
  else
    none

/-- The table once the kernel task is created, before any scheduler task. -/
def initProcessTable (privatePool : PrivateP4Pool) : ProcessTable :=
  ((ProcessTable.new privatePool).createReservedProcessWithJobMode 0 none "kernel" "kernel"
    .empty .foreground (.kernelPlaceholder 0)).markReady 0

end ProcessTable

/-- Size of the stack of a task. -/
def defaultStackSize : UInt64 := 8 * 1024

/-- Words of the frame the timer interrupt saves. -/
def kernelInterruptFrameWords : UInt64 := 18

/-- What the scheduler keeps of a kernel thread. -/
structure TaskControlBlock where
  tid : Tid
  savedInterruptFrame : UInt64
  hasStarted : Bool
  wakeAtTick : Option UInt64
  exitCode : Option Int32
  deriving DecidableEq, Repr

namespace TaskControlBlock

/-- Address of the frame prepared at the top of a fresh stack. -/
def initializeInterruptFrame (stackStart : UInt64) : UInt64 :=
  let aligned := (stackStart + defaultStackSize) &&& ~~~0xf
  let stackTop := if aligned < 8 then 0 else aligned - 8
  stackTop - kernelInterruptFrameWords * 8

/-- The block of a task that has not run yet, on a stack at the given address. -/
def new (tid : Tid) (stackStart : UInt64) : TaskControlBlock where
  tid := tid
  savedInterruptFrame := initializeInterruptFrame stackStart
  hasStarted := false
  wakeAtTick := none
  exitCode := none

/-- Whether the wake tick has come.  The source compares the optional ticks, and
a missing tick is below every tick. -/
def wakeDue (task : TaskControlBlock) (tick : UInt64) : Bool :=
  match task.wakeAtTick with
  | none => true
  | some wakeTick => decide (wakeTick ≤ tick)

end TaskControlBlock

/-- The scheduler, with the statics its operations read and write. -/
structure Scheduler where
  /-- The tasks in the order of their identifiers, which is that of creation. -/
  tasks : KeyedStore TaskControlBlock TaskControlBlock.tid
  readyQueue : List Tid
  currentTaskId : Option Tid
  idleTaskId : Option Tid
  totalContextSwitches : Nat
  liveSwitching : Bool
  processes : ProcessTable
  preemptDisableDepth : Nat
  preemptDeferred : Bool

namespace Scheduler

/-- The scheduler at boot. -/
def new (processes : ProcessTable) : Scheduler where
  tasks := .empty
  readyQueue := []
  currentTaskId := none
  idleTaskId := none
  totalContextSwitches := 0
  liveSwitching := false
  processes := processes
  preemptDisableDepth := 0
  preemptDeferred := false

section

variable (sched : Scheduler)

/-- State of a kernel thread. -/
def threadState (tid : Tid) : Option ThreadState :=
  sched.processes.kernelThreadState tid

/-- Move a kernel thread into a state; whether that succeeded is ignored. -/
@[simps tasks readyQueue currentTaskId idleTaskId liveSwitching preemptDisableDepth]
def setThreadState (now : UInt64) (tid : Tid) (state : ThreadState) : Scheduler :=
  { sched with
    processes :=
      (sched.processes.setKernelThreadState now tid state).getD sched.processes }

/-- Let a task wait at the end of the queue, even if it waits there already. -/
@[simps tasks readyQueue currentTaskId idleTaskId liveSwitching
  processes preemptDisableDepth]
def enqueue (tid : Tid) : Scheduler :=
  { sched with readyQueue := sched.readyQueue ++ [tid] }

/-- Change the block of a task. -/
@[simps tasks readyQueue currentTaskId idleTaskId liveSwitching
  processes preemptDisableDepth]
def modifyTask (tid : Tid) (change : TaskControlBlock → TaskControlBlock)
    (keepsTid : ∀ task, (change task).tid = task.tid) :
    Scheduler :=
  { sched with tasks := sched.tasks.modify tid change keepsTid }

/-- Give a new kernel thread a block; the kernel panics when none can be created. -/
def addTask (stackStart : UInt64) : Option (Tid × Scheduler) :=
  match sched.processes.createKernelThread with
  | (none, _) => none
  | (some tid, processes) =>
    some (tid,
      { sched with
        tasks := sched.tasks.insert (.new tid stackStart)
        processes := processes })

/-- Create a task that waits for its turn. -/
def createTask (stackStart : UInt64) : Option (Tid × Scheduler) := do
  let (tid, sched) ← sched.addTask stackStart
  pure (tid, sched.enqueue tid)

/-- Create the task that runs when no other can, unless it exists. -/
def createIdleTask (stackStart : UInt64) : Option (Tid × Scheduler) :=
  match sched.idleTaskId with
  | some idleTid => some (idleTid, sched)
  | none => do
      let (tid, sched) ← sched.addTask stackStart
      pure (tid, { sched with idleTaskId := some tid })

/-- Whether a task is blocked and its wake tick has come. -/
def dueAt (tick : UInt64) (task : TaskControlBlock) : Bool :=
  decide (sched.threadState task.tid = some .blocked) && task.wakeDue tick

/-- Queue the blocked tasks whose wake tick has come; their threads stay blocked. -/
def wakeSleepingTasksAt (tick : UInt64) : Scheduler :=
  { sched with
    tasks := sched.tasks.modifyAll
      (fun task =>
        if sched.dueAt tick task then { task with wakeAtTick := none } else task)
      (by intro task; split_ifs <;> rfl)
    readyQueue := sched.readyQueue ++
      (sched.tasks.items.filter (sched.dueAt tick)).map TaskControlBlock.tid }

/-- Take the first waiting task, or else the idle task. -/
def schedule (now : UInt64) : Option Tid × Scheduler :=
  let sched := sched.wakeSleepingTasksAt now
  match sched.readyQueue with
  | tid :: waiting => (some tid, { sched with readyQueue := waiting })
  | [] => (sched.idleTaskId, sched)

/-- Make a task ready and let it wait for its turn. -/
def markTaskReady (now : UInt64) (tid : Tid) : Scheduler :=
  (sched.setThreadState now tid .ready).enqueue tid

/-- Give a task the processor. -/
def markTaskRunning (now : UInt64) (tid : Tid) : Scheduler :=
  { sched with currentTaskId := some tid }.setThreadState now tid .running

/-- Block a task. -/
def markTaskBlocked (now : UInt64) (tid : Tid) : Scheduler :=
  sched.setThreadState now tid .blocked

/-- End a task. -/
def markTaskZombie (now : UInt64) (tid : Tid) (exitCode : Int32) : Scheduler :=
  (sched.modifyTask tid (fun task => { task with exitCode := some exitCode })
    fun _ => rfl).setThreadState now tid .zombie

/-- Block the current task, unless it is the idle one, and note when to wake it. -/
def sleepCurrentUntil (now wakeAtTick : UInt64) : Scheduler :=
  match sched.currentTaskId with
  | none => sched
  | some tid =>
    if some tid = sched.idleTaskId then
      sched
    else
      (sched.modifyTask tid (fun task => { task with wakeAtTick := some wakeAtTick })
        fun _ => rfl).setThreadState now tid .blocked

/-- Make the current task ready again, whatever state it is in, unless it is the
idle one. -/
def requeueCurrent (now : UInt64) : Scheduler :=
  match sched.currentTaskId with
  | none => sched
  | some tid =>
    if some tid = sched.idleTaskId then sched else sched.markTaskReady now tid

/-- Count a change of the current task. -/
@[simps tasks readyQueue currentTaskId idleTaskId liveSwitching
  processes preemptDisableDepth]
def countSwitch : Scheduler :=
  { sched with totalContextSwitches := sched.totalContextSwitches + 1 }

/-- Give the processor to the next task. -/
def yieldNow (now : UInt64) : Scheduler :=
  match (sched.requeueCurrent now).schedule now with
  | (some nextTid, sched) => (sched.markTaskRunning now nextTid).countSwitch
  | (none, sched) => sched

/-- Note that a task has run. -/
def markStarted (tid : Tid) : Scheduler :=
  sched.modifyTask tid (fun task => { task with hasStarted := true }) fun _ => rfl

/-- The bookkeeping before the first task is entered; the kernel panics when there
is no task, or the task has no block. -/
def startFirstTask (now : UInt64) : Option Scheduler :=
  match sched.schedule now with
  | (none, _) => none
  | (some tid, sched) =>
    let sched := (sched.markTaskRunning now tid).countSwitch
    match sched.tasks.get tid with
    | none => none
    | some _ => some { sched.markStarted tid with liveSwitching := true }

/-- Keep the frame a task was interrupted with. -/
def saveFrame (tid : Tid) (frame : UInt64) : Scheduler :=
  sched.modifyTask tid (fun task => { task with savedInterruptFrame := frame })
    fun _ => rfl

/-- Switch tasks from the timer interrupt: the frame to return through, with bit
zero set for a task that is entered for the first time. -/
def preemptFromTimer (now frame : UInt64) : Option UInt64 × Scheduler :=
  if !sched.liveSwitching then
    (none, sched)
  else if sched.preemptDisableDepth ≠ 0 then
    (none, { sched with preemptDeferred := true })
  else
    let sched := { sched with preemptDeferred := false }
    match sched.currentTaskId with
    | none => (none, sched)
    | some currentTid =>
      match sched.tasks.get currentTid with
      | none => (none, sched)
      | some _ =>
        match ((sched.saveFrame currentTid frame).requeueCurrent now).schedule now with
        | (none, sched) => (none, sched)
        | (some nextTid, sched) =>
          let sched := sched.markTaskRunning now nextTid
          if nextTid = currentTid then
            (none, sched)
          else
            let sched := sched.countSwitch
            match sched.tasks.get nextTid with
            | none => (none, sched)
            | some next =>
              let freshEntry : UInt64 := if next.hasStarted then 0 else 1
              (some (next.savedInterruptFrame ||| freshEntry),
                sched.markStarted nextTid)

end

end Scheduler

end Vantara
