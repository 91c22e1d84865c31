import Vantara.Scheduler.KernelThreads

/-!
# Kernel threads take turns

Once the first task is entered, the timer interrupt alone moves the processor from
task to task.  The current task and the queue behind it are always a rotation of the
tasks in the order of their creation, and the frame a task is resumed through is the
one it was interrupted with, or the prepared one if it never ran.
-/

namespace Vantara

open Foundation

namespace Scheduler

/-- A timer interrupt: the frame it saved, the tick, and how deeply preemption is
disabled. -/
structure Call where
  frame : UInt64
  now : UInt64
  preemptDisableDepth : Nat

/-- What is remembered of a served interrupt. -/
structure Entry where
  frame : UInt64
  before : Option Tid
  returned : Option UInt64
  after : Option Tid

/-- Serve a timer interrupt. -/
def serve (sched : Scheduler) (call : Call) : Option UInt64 × Scheduler :=
  { sched with preemptDisableDepth := call.preemptDisableDepth }.preemptFromTimer
    call.now call.frame

/-- Serve timer interrupts, the latest of which comes first in the list, and in the
record. -/
def serveAll (start : Scheduler) : List Call → List Entry × Scheduler
  | [] => ([], start)
  | call :: earlier =>
    let past := start.serveAll earlier
    let served := past.2.serve call
    (⟨call.frame, past.2.currentTaskId, served.1, served.2.currentTaskId⟩ :: past.1, served.2)

/-- Create one task after the other. -/
def createTasks : Scheduler → List UInt64 → Option (List Tid × Scheduler)
  | sched, [] => some ([], sched)
  | sched, stackStart :: rest => do
      let (tid, sched) ← sched.createTask stackStart
      let (tids, sched) ← sched.createTasks rest
      pure (tid :: tids, sched)

/-- Create the idle task and the others, and enter the first: the identifiers and the
scheduler then. -/
def startUp (processes : ProcessTable) (idleStack : UInt64) (stackStarts : List UInt64)
    (now : UInt64) :
    Option (Tid × List Tid × Scheduler) := do
  let (idle, sched) ← (Scheduler.new processes).createIdleTask idleStack
  let (order, sched) ← sched.createTasks stackStarts
  let sched ← sched.startFirstTask now
  pure (idle, order, sched)

/-- The frame last passed while a task was the current one. -/
def lastFrame (history : List Entry) (tid : Tid) : Option UInt64 :=
  (history.find? fun entry => decide (entry.before = some tid)).map Entry.frame

/-- Whether a task was entered for the first time. -/
def Entry.enters (entry : Entry) (tid : Tid) : Bool :=
  decide (entry.after = some tid) &&
    match entry.returned with
    | some value => value.toNat % 2 == 1
    | none => false

/-! ## Frames and bit zero -/

theorem sub_even {left right : UInt64}
    (leftEven : left.toNat % 2 = 0)
    (rightEven : right.toNat % 2 = 0) :
    (left - right).toNat % 2 = 0 := by
  rw [UInt64.toNat_sub]
  omega

theorem initializeInterruptFrame_even (stackStart : UInt64) :
    (TaskControlBlock.initializeInterruptFrame stackStart).toNat % 2 = 0 := by
  have aligned : ((stackStart + defaultStackSize) &&& ~~~0xf).toNat % 2 = 0 := by
    have notOdd : ¬ ((stackStart + defaultStackSize) &&& ~~~0xf).toNat % 2 = 1 := by
      rw [UInt64.toNat_and, Nat.and_mod_two_eq_one]
      exact fun odd => absurd odd.2 (by decide)
    omega
  unfold TaskControlBlock.initializeInterruptFrame
  apply sub_even
  · split_ifs
    · rfl
    · exact sub_even aligned rfl
  · rfl

theorem or_one_frame_odd (frame : UInt64) : (frame ||| 1).toNat % 2 = 1 := by
  rw [UInt64.toNat_or, Nat.or_mod_two_eq_one]
  exact .inr rfl

/-! ## The tasks before the first one is entered -/

/-- A scheduler with the idle task and the given tasks on their stacks, none of which
was entered. -/
structure Made (idle : Tid) (created : List (Tid × UInt64))
    (sched : Scheduler) : Prop where
  kernel : KernelLeads sched.processes
  idleTask : sched.idleTaskId = some idle
  queue : sched.readyQueue = created.map Prod.fst
  distinct : (created.map Prod.fst).Nodup
  apart : idle ∉ created.map Prod.fst
  ready : ∀ tid, tid = idle ∨ tid ∈ created.map Prod.fst →
    sched.threadState tid = some .ready
  blocks : ∀ tid, (sched.tasks.get tid).isSome ↔ tid = idle ∨ tid ∈ created.map Prod.fst
  fresh : ∀ tid stack, (tid, stack) ∈ created →
    sched.tasks.get tid = some (.new tid stack)

variable {sched after : Scheduler}

theorem made_createIdleTask (kernel : KernelLeads table)
    (made : (Scheduler.new table).createIdleTask stackStart = some (idle, after)) :
    Made idle [] after := by
  obtain ⟨⟨tid, added⟩, addedEq, rest⟩ := Option.bind_eq_some_iff.mp made
  cases rest
  have kernelNew : KernelLeads (Scheduler.new table).processes := kernel
  obtain ⟨kernelAfter, fresh, states, addedIs⟩ := addTask_spec kernelNew addedEq
  have tasks : added.tasks = (Scheduler.new table).tasks.insert (.new idle stackStart) := by
    rw [addedIs]
  have queue : added.readyQueue = [] := by rw [addedIs]; rfl
  refine ⟨kernelAfter, rfl, queue, List.nodup_nil, List.not_mem_nil, ?_, fun tid => ?_, by simp⟩
  · rintro tid (rfl | impossible)
    · exact (states tid).trans (if_pos rfl)
    · cases impossible
  · show (added.tasks.get tid).isSome ↔ _
    rw [tasks, KeyedStore.get_insert]
    by_cases same : tid = idle
    · simp [same, TaskControlBlock.new]
    · simp [same, TaskControlBlock.new, Scheduler.new]

theorem Made.createTask (made : Made idle created sched)
    (new : sched.createTask stackStart = some (tid, after)) :
    Made idle (created ++ [(tid, stackStart)]) after := by
  obtain ⟨⟨tid', added⟩, addedEq, rest⟩ := Option.bind_eq_some_iff.mp new
  cases rest
  obtain ⟨kernelAfter, fresh, states, addedIs⟩ := addTask_spec made.kernel addedEq
  have tasks : (added.enqueue tid).tasks = sched.tasks.insert (.new tid stackStart) := by
    rw [enqueue_tasks, addedIs]
  have notBefore : ¬ (tid = idle ∨ tid ∈ created.map Prod.fst) := fun known => by
    have ready := made.ready tid known
    rw [fresh] at ready
    cases ready
  have map_created : (created ++ [(tid, stackStart)]).map Prod.fst =
      created.map Prod.fst ++ [tid] := by simp
  have get_tasks : ∀ other, (added.enqueue tid).tasks.get other =
      if other = tid then some (.new tid stackStart) else sched.tasks.get other := by
    intro other
    rw [tasks, KeyedStore.get_insert]
    rfl
  refine ⟨kernelAfter, ?_, ?_, ?_, ?_, fun other known => ?_, fun other => ?_,
    fun other stack mem => ?_⟩
  · rw [enqueue_idleTaskId, addedIs]
    exact made.idleTask
  · rw [enqueue_readyQueue, addedIs, map_created]
    exact congrArg (· ++ [tid]) made.queue
  · rw [map_created, List.nodup_append]
    refine ⟨made.distinct, List.nodup_singleton tid, ?_⟩
    rintro other otherMem _ newMem rfl
    exact notBefore (.inr (List.mem_singleton.mp newMem ▸ otherMem))
  · rw [map_created, List.mem_append, List.mem_singleton]
    rintro (old | same)
    · exact made.apart old
    · exact notBefore (.inl same.symm)
  · refine (states other).trans ?_
    split_ifs with same
    · rfl
    · rw [map_created, List.mem_append, List.mem_singleton] at known
      exact made.ready other (by tauto)
  · rw [get_tasks, map_created, List.mem_append, List.mem_singleton]
    by_cases same : other = tid
    · simp [same]
    · rw [if_neg same, made.blocks]
      tauto
  · rw [get_tasks]
    rcases List.mem_append.mp mem with old | new
    · have differ : other ≠ tid := by
        rintro rfl
        exact notBefore (.inr (List.mem_map_of_mem old))
      rw [if_neg differ]
      exact made.fresh other stack old
    · obtain ⟨rfl, rfl⟩ := Prod.mk.inj (List.mem_singleton.mp new)
      exact if_pos rfl

theorem Made.createTasks (made : Made idle created sched)
    (new : sched.createTasks stackStarts = some (tids, after)) :
    Made idle (created ++ tids.zip stackStarts) after ∧ tids.length = stackStarts.length := by
  induction stackStarts generalizing created sched tids with
  | nil =>
    cases new
    simpa using made
  | cons stackStart rest ih =>
    obtain ⟨⟨tid, one⟩, oneEq, more⟩ := Option.bind_eq_some_iff.mp new
    obtain ⟨⟨others, last⟩, othersEq, made_all⟩ := Option.bind_eq_some_iff.mp more
    cases made_all
    obtain ⟨madeAfter, lengths⟩ := ih (made.createTask oneEq) othersEq
    refine ⟨?_, by simp [lengths]⟩
    simpa using madeAfter

/-! ## Turns -/

/-- What the block of a task says about the past: a task that was not entered has the
prepared frame, and any other that is not current the frame it was interrupted with. -/
structure Reports (history : List Entry) (current tid : Tid) (stack : UInt64)
    (block : TaskControlBlock) : Prop where
  even : block.savedInterruptFrame.toNat % 2 = 0
  unentered : block.hasStarted = false →
    tid ≠ current ∧
      (∀ entry ∈ history, entry.before ≠ some tid ∧ entry.after ≠ some tid) ∧
      block.savedInterruptFrame = TaskControlBlock.initializeInterruptFrame stack
  interrupted : block.hasStarted = true → tid ≠ current →
    lastFrame history tid = some block.savedInterruptFrame

/-- After a number of turns the tasks stand in the order of their creation, rotated as
often, with the current task in front. -/
structure Turn (idle : Tid) (created : List (Tid × UInt64)) (history : List Entry) (turns : Nat)
    (current : Tid)
    (sched : Scheduler) : Prop where
  kernel : KernelLeads sched.processes
  live : sched.liveSwitching = true
  idleTask : sched.idleTaskId = some idle
  distinct : (created.map Prod.fst).Nodup
  apart : idle ∉ created.map Prod.fst
  currentTask : sched.currentTaskId = some current
  queue : (created.map Prod.fst).rotate turns = current :: sched.readyQueue
  states : ∀ tid, tid = idle ∨ tid ∈ created.map Prod.fst →
    sched.threadState tid = some (if tid = current then .running else .ready)
  blocks : ∀ tid, (sched.tasks.get tid).isSome ↔ tid = idle ∨ tid ∈ created.map Prod.fst
  reports : ∀ tid stack, (tid, stack) ∈ created →
    ∃ block, sched.tasks.get tid = some block ∧
      Reports history current tid stack block

/-- No one is woken where no task is blocked. -/
theorem undisturbed_of_not_blocked
    (notBlocked : ∀ tid, (sched.tasks.get tid).isSome →
      sched.threadState tid ≠ some .blocked) :
    sched.Undisturbed now := by
  intro task taskMem
  have state := notBlocked task.tid (by rw [KeyedStore.get_of_mem taskMem]; rfl)
  simp [dueAt, state]

/-- Entering the first task starts the turns. -/
theorem Made.startFirstTask (made : Made idle created sched)
    (some_created : created ≠ [])
    (started : sched.startFirstTask now = some after) :
    ∃ current, Turn idle created [] 0 current after := by
  obtain ⟨⟨first, firstStack⟩, others, rfl⟩ := List.exists_cons_of_ne_nil some_created
  have undisturbed : sched.Undisturbed now := by
    apply undisturbed_of_not_blocked
    intro tid present
    rw [made.ready tid ((made.blocks tid).mp present)]
    simp
  have scheduled := schedule_cons undisturbed made.queue
  have block := made.fresh first firstStack List.mem_cons_self
  have notIdle : idle ≠ first := fun same => made.apart (same ▸ List.mem_cons_self)
  have get_first : (({ sched with readyQueue := others.map Prod.fst }.markTaskRunning now
      first).countSwitch).tasks.get first = some (.new first firstStack) := block
  simp only [Scheduler.startFirstTask, scheduled] at started
  rw [get_first] at started
  obtain rfl := Option.some.inj started
  have states := threadState_setThreadState made.kernel now first .running
  have get_tasks : ∀ tid, (sched.tasks.modify first
      (fun task => { task with hasStarted := true }) fun _ => rfl).get tid =
        if tid = first then some { TaskControlBlock.new first firstStack with hasStarted := true }
        else sched.tasks.get tid := by
    intro tid
    rw [KeyedStore.get_modify]
    split_ifs with same
    · rw [same, block]
      rfl
    · rfl
  refine ⟨first, ⟨kernelLeads_setThreadState made.kernel now first .running, rfl, made.idleTask,
    made.distinct, made.apart, rfl, List.rotate_zero _, fun tid known => ?_, fun tid => ?_,
    fun tid stack mem => ?_⟩⟩
  · refine (states tid).trans ?_
    rw [made.ready tid known]
    split_ifs <;> rfl
  · rw [← made.blocks]
    refine (Iff.of_eq (congrArg (fun block => Option.isSome block = true) (get_tasks tid))).trans ?_
    split_ifs with same
    · simp [same, block]
    · rfl
  · by_cases same : tid = first
    · subst same
      refine ⟨_, (get_tasks tid).trans (if_pos rfl), initializeInterruptFrame_even firstStack,
        fun unentered => ?_, fun _ differ => absurd rfl differ⟩
      cases unentered
    · refine ⟨_, (get_tasks tid).trans ((if_neg same).trans (made.fresh tid stack mem)),
        initializeInterruptFrame_even stack, fun _ => ⟨same, by simp, rfl⟩, fun entered => ?_⟩
      cases entered

variable {idle current next : Tid} {created : List (Tid × UInt64)} {history : List Entry}

theorem lastFrame_cons_of_ne (differ : entry.before ≠ some tid) :
    lastFrame (entry :: history) tid = lastFrame history tid := by
  rw [lastFrame, List.find?_cons_of_neg (by simpa using differ), lastFrame]

theorem lastFrame_cons (same : entry.before = some tid) :
    lastFrame (entry :: history) tid = some entry.frame := by
  rw [lastFrame, List.find?_cons_of_pos (by simpa using same), Option.map_some]

/-- A task that neither had nor got the processor keeps its block, and what the block
says stays right. -/
theorem Reports.push (reports : Reports history current tid stack block)
    (before : entry.before = some current)
    (notBefore : tid ≠ current)
    (after : entry.after = some next)
    (notAfter : tid ≠ next) :
    Reports (entry :: history) next tid stack block := by
  have notNamed : entry.before ≠ some tid ∧ entry.after ≠ some tid := by
    rw [before, after]
    exact ⟨fun same => notBefore (Option.some.inj same).symm,
      fun same => notAfter (Option.some.inj same).symm⟩
  refine ⟨reports.even, fun unentered => ?_, fun entered _ => ?_⟩
  · obtain ⟨-, unnamed, frame⟩ := reports.unentered unentered
    refine ⟨notAfter, fun other otherMem => ?_, frame⟩
    rcases List.mem_cons.mp otherMem with rfl | old
    · exact notNamed
    · exact unnamed other old
  · rw [lastFrame_cons_of_ne notNamed.1]
    exact reports.interrupted entered notBefore

/-- The block of the task that stays or becomes current says nothing yet. -/
theorem Reports.running
    (even : block.savedInterruptFrame.toNat % 2 = 0)
    (entered : block.hasStarted = true) :
    Reports history tid tid stack block :=
  ⟨even, fun unentered => absurd (unentered.symm.trans entered) (by simp),
    fun _ differ => absurd rfl differ⟩

theorem Turn.current_mem (turn : Turn idle created history turns current sched) :
    current ∈ created.map Prod.fst := by
  rw [← @List.mem_rotate _ _ _ turns, turn.queue]
  exact List.mem_cons_self

/-- The scheduler when the timer asks it for the next task. -/
def interrupted (sched : Scheduler) (current : Tid) (call : Call) : Scheduler :=
  ({ sched with
    preemptDisableDepth := call.preemptDisableDepth
    preemptDeferred := false }.saveFrame current call.frame).markTaskReady call.now current

theorem Turn.threadState_interrupted (turn : Turn idle created history turns current sched)
    (call : Call)
    (known : tid = idle ∨ tid ∈ created.map Prod.fst) :
    (sched.interrupted current call).threadState tid = some .ready := by
  have state := turn.states tid known
  refine (threadState_setThreadState turn.kernel call.now current .ready tid).trans ?_
  split_ifs with same
  · rw [state, Option.map_some]
  · rw [state, if_neg same]

theorem get_interrupted (sched : Scheduler) (current : Tid) (call : Call) (tid : Tid) :
    (sched.interrupted current call).tasks.get tid =
      if tid = current then
        (sched.tasks.get tid).map fun task => { task with savedInterruptFrame := call.frame }
      else sched.tasks.get tid := by
  exact sched.tasks.get_modify current
    (fun task => { task with savedInterruptFrame := call.frame }) fun _ => rfl

theorem Turn.undisturbed_interrupted (turn : Turn idle created history turns current sched)
    (call : Call) :
    (sched.interrupted current call).Undisturbed call.now := by
  apply undisturbed_of_not_blocked
  intro tid present
  have known : tid = idle ∨ tid ∈ created.map Prod.fst := by
    rw [← turn.blocks]
    rw [get_interrupted] at present
    split_ifs at present
    · simpa using present
    · exact present
  rw [turn.threadState_interrupted call known]
  simp

/-- With preemption enabled the timer runs the next task of the queue behind which the
current one waits. -/
theorem Turn.serve_enabled (turn : Turn idle created history turns current sched) (call : Call)
    (enabled : call.preemptDisableDepth = 0) :
    sched.serve call =
      match (sched.interrupted current call).schedule call.now with
      | (none, sched) => (none, sched)
      | (some nextTid, sched) =>
        let sched := sched.markTaskRunning call.now nextTid
        if nextTid = current then
          (none, sched)
        else
          match sched.tasks.get nextTid with
          | none => (none, sched.countSwitch)
          | some next =>
            (some (next.savedInterruptFrame ||| if next.hasStarted then 0 else 1),
              sched.countSwitch.markStarted nextTid) := by
  have present := (turn.blocks current).mpr (.inr turn.current_mem)
  obtain ⟨block, block_eq⟩ := Option.isSome_iff_exists.mp present
  have notIdle : sched.idleTaskId ≠ some current := by
    rw [turn.idleTask]
    exact fun same => turn.apart (Option.some.inj same ▸ turn.current_mem)
  have requeued : ({ sched with
      preemptDisableDepth := call.preemptDisableDepth
      preemptDeferred := false }.saveFrame current call.frame).requeueCurrent call.now =
        sched.interrupted current call :=
    requeueCurrent_eq turn.currentTask notIdle
  unfold serve preemptFromTimer
  rw [if_neg (by simp [turn.live]), if_neg (not_not_intro enabled)]
  simp only
  split
  · rename_i none_current
    rw [turn.currentTask] at none_current
    cases none_current
  · rename_i tid isCurrent
    obtain rfl : current = tid := Option.mem_unique turn.currentTask isCurrent
    rw [block_eq]
    simp only
    rw [requeued]
    rcases (sched.interrupted current call).schedule call.now with ⟨_ | nextTid, chosen⟩
    · rfl
    · simp only
      split_ifs
      · rfl
      · rfl

/-- The scheduler once the timer has found the next task. -/
def turned (sched : Scheduler) (current next : Tid) (waiting : List Tid) (call : Call) :
    Scheduler :=
  { sched.interrupted current call with readyQueue := waiting }.markTaskRunning call.now next

theorem Turn.next_mem (turn : Turn idle created history turns current sched)
    (queue : sched.readyQueue ++ [current] = next :: waiting) :
    (created.map Prod.fst).rotate (turns + 1) = next :: waiting ∧
      next ∈ created.map Prod.fst := by
  have rotated : (created.map Prod.fst).rotate (turns + 1) = next :: waiting := by
    rw [← List.rotate_rotate, turn.queue, List.rotate_cons_succ, List.rotate_zero, queue]
  refine ⟨rotated, ?_⟩
  rw [← @List.mem_rotate _ _ _ (turns + 1), rotated]
  exact List.mem_cons_self

/-- The next turn, for a scheduler that keeps its tasks and their reports. -/
theorem Turn.advance (turn : Turn idle created history turns current sched) (call : Call)
    (queue : sched.readyQueue ++ [current] = next :: waiting)
    (turned : Scheduler.turned sched current next waiting call = moved)
    (tasks : ∀ tid, (after.tasks.get tid).isSome = (sched.tasks.get tid).isSome)
    (others : after = { moved with
      tasks := after.tasks, totalContextSwitches := after.totalContextSwitches })
    (reports : ∀ tid stack, (tid, stack) ∈ created →
      ∃ block, after.tasks.get tid = some block ∧ Reports later next tid stack block) :
    Turn idle created later (turns + 1) next after := by
  subst turned
  have kernel : KernelLeads (sched.interrupted current call).processes :=
    kernelLeads_setThreadState turn.kernel call.now current .ready
  refine ⟨?_, ?_, ?_, turn.distinct, turn.apart, ?_, ?_, fun tid known => ?_, fun tid => ?_,
    reports⟩
  · rw [others]
    exact kernelLeads_setThreadState kernel call.now next .running
  · rw [others]
    exact turn.live
  · rw [others]
    exact turn.idleTask
  · rw [others]
    rfl
  · rw [others]
    exact (turn.next_mem queue).1
  · have state := threadState_setThreadState kernel call.now next .running tid
    have moved : after.threadState tid = ((sched.interrupted current call).setThreadState
        call.now next .running).threadState tid := by
      rw [threadState, others]
      rfl
    rw [moved, state, turn.threadState_interrupted call known]
    split_ifs <;> rfl
  · rw [tasks, turn.blocks]

/-- What is known of a served interrupt: the value with bit zero clear is the frame last
passed while the task was current, and the value with bit zero set is the prepared frame
of a task that never had the processor. -/
def Entry.Told (created : List (Tid × UInt64)) (older : List Entry) (entry : Entry) : Prop :=
  ∀ value, entry.returned = some value →
    ∃ tid stack, entry.after = some tid ∧ (tid, stack) ∈ created ∧ entry.before ≠ some tid ∧
      ((value.toNat % 2 = 0 ∧ lastFrame older tid = some value) ∨
        (value = TaskControlBlock.initializeInterruptFrame stack ||| 1 ∧
          ∀ old ∈ older, old.before ≠ some tid ∧ old.after ≠ some tid))

/-- What is remembered of the service of a call. -/
def record (sched : Scheduler) (call : Call) : Entry :=
  ⟨call.frame, sched.currentTaskId, (sched.serve call).1,
    (sched.serve call).2.currentTaskId⟩

/-- With preemption disabled only the flag changes. -/
theorem serve_disabled
    (live : sched.liveSwitching = true)
    (call : Call)
    (disabled : call.preemptDisableDepth ≠ 0) :
    sched.serve call =
      (none, { sched with
        preemptDisableDepth := call.preemptDisableDepth
        preemptDeferred := true }) := by
  unfold serve preemptFromTimer
  rw [if_neg (by simp [live]), if_pos disabled]

section

variable (turn : Turn idle created history turns current sched) (call : Call)
include turn call

/-- One interrupt with preemption disabled leaves the turn where it is. -/
theorem Turn.disabled (disabled : call.preemptDisableDepth ≠ 0) :
    Turn idle created (sched.record call :: history) turns current
        (sched.serve call).2 ∧
      (sched.record call).Told created history := by
  have served := serve_disabled turn.live call disabled
  constructor
  · have before : (sched.record call).before = some current := turn.currentTask
    have after : (sched.record call).after = some current := by
      rw [record, served]
      exact turn.currentTask
    rw [served]
    refine ⟨turn.kernel, turn.live, turn.idleTask, turn.distinct, turn.apart, turn.currentTask,
      turn.queue, turn.states, turn.blocks, fun tid stack mem => ?_⟩
    obtain ⟨block, found, reports⟩ := turn.reports tid stack mem
    refine ⟨block, found, ?_⟩
    by_cases same : tid = current
    · subst same
      cases entered : block.hasStarted with
      | true => exact .running reports.even entered
      | false => exact absurd rfl (reports.unentered entered).1
    · exact reports.push before same after same
  · intro value returned
    rw [record, served] at returned
    cases returned

/-- The block of the interrupted task holds the frame it was interrupted with. -/
theorem Turn.reports_interrupted (mem : (current, stack) ∈ created) :
    ∃ block, (sched.interrupted current call).tasks.get current = some block ∧
      block.savedInterruptFrame = call.frame ∧ block.hasStarted = true := by
  obtain ⟨block, found, reports⟩ := turn.reports current stack mem
  refine ⟨{ block with savedInterruptFrame := call.frame }, ?_, rfl, ?_⟩
  · rw [get_interrupted, if_pos rfl, found, Option.map_some]
  · cases entered : block.hasStarted with
    | true => rfl
    | false => exact absurd rfl (reports.unentered entered).1

/-- The timer comes back to the only task. -/
theorem Turn.serve_same
    (enabled : call.preemptDisableDepth = 0)
    (queue : sched.readyQueue ++ [current] = current :: waiting) :
    sched.serve call = (none, sched.turned current current waiting call) := by
  have asked : (sched.interrupted current call).readyQueue = current :: waiting := queue
  rw [turn.serve_enabled call enabled, schedule_cons (turn.undisturbed_interrupted call) asked]
  exact if_pos rfl

/-- The timer goes on to another task. -/
theorem Turn.serve_other
    (enabled : call.preemptDisableDepth = 0)
    (queue : sched.readyQueue ++ [current] = next :: waiting)
    (differ : next ≠ current)
    (found : sched.tasks.get next = some block) :
    sched.serve call =
      (some (block.savedInterruptFrame ||| if block.hasStarted then 0 else 1),
        (sched.turned current next waiting call).countSwitch.markStarted next) := by
  have asked : (sched.interrupted current call).readyQueue = next :: waiting := queue
  have found' : (sched.turned current next waiting call).tasks.get next = some block := by
    refine (get_interrupted sched current call next).trans ?_
    rw [if_neg differ, found]
  rw [turn.serve_enabled call enabled, schedule_cons (turn.undisturbed_interrupted call) asked]
  rw [turned] at found'
  simp only [if_neg differ, found']
  rfl

theorem Turn.enabled_same
    (even : call.frame.toNat % 2 = 0)
    (enabled : call.preemptDisableDepth = 0)
    (queue : sched.readyQueue ++ [current] = current :: waiting) :
    Turn idle created (sched.record call :: history) (turns + 1) current
        (sched.serve call).2 ∧
      (sched.record call).Told created history := by
  have served := turn.serve_same call enabled queue
  have get_tasks := get_interrupted sched current call
  constructor
  · have before : (sched.record call).before = some current := turn.currentTask
    have after : (sched.record call).after = some current := by
      rw [record, served]
      rfl
    rw [served]
    refine turn.advance call queue rfl (fun tid => ?_) rfl fun tid stack mem => ?_
    · refine (congrArg Option.isSome (get_tasks tid)).trans ?_
      split_ifs <;> simp
    · by_cases same : tid = current
      · subst same
        obtain ⟨block, found, frame, entered⟩ := turn.reports_interrupted call mem
        exact ⟨block, found, .running (frame ▸ even) entered⟩
      · obtain ⟨block, found, reports⟩ := turn.reports tid stack mem
        exact ⟨block, (get_tasks tid).trans ((if_neg same).trans found),
          reports.push before same after same⟩
  · intro value returned
    rw [record, served] at returned
    cases returned

theorem Turn.enabled_other
    (even : call.frame.toNat % 2 = 0)
    (enabled : call.preemptDisableDepth = 0)
    (queue : sched.readyQueue ++ [current] = next :: waiting)
    (differ : next ≠ current) :
    Turn idle created (sched.record call :: history) (turns + 1) next
        (sched.serve call).2 ∧
      (sched.record call).Told created history := by
  obtain ⟨⟨next', nextStack⟩, nextMem, rfl⟩ := List.mem_map.mp (turn.next_mem queue).2
  obtain ⟨nextBlock, nextFound, nextReports⟩ := turn.reports next' nextStack nextMem
  have served := turn.serve_other call enabled queue differ nextFound
  have get_tasks : ∀ tid, ((sched.turned current next' waiting call).countSwitch.markStarted
      next').tasks.get tid =
        if tid = next' then ((sched.interrupted current call).tasks.get tid).map fun task =>
          { task with hasStarted := true }
        else (sched.interrupted current call).tasks.get tid := fun tid =>
    (sched.interrupted current call).tasks.get_modify next'
      (fun task => { task with hasStarted := true }) fun _ => rfl
  have before : (sched.record call).before = some current := turn.currentTask
  have after : (sched.record call).after = some next' := by
    rw [record, served]
    rfl
  constructor
  · rw [served]
    refine turn.advance call queue rfl (fun tid => ?_) rfl fun tid stack mem => ?_
    · rw [get_tasks, get_interrupted]
      split_ifs <;> simp
    · rw [get_tasks]
      by_cases isNext : tid = next'
      · subst isNext
        rw [if_pos rfl, get_interrupted, if_neg differ, nextFound, Option.map_some]
        exact ⟨_, rfl, .running nextReports.even rfl⟩
      · rw [if_neg isNext]
        by_cases same : tid = current
        · subst same
          obtain ⟨block, found, frame, entered⟩ := turn.reports_interrupted call mem
          refine ⟨block, found, frame ▸ even, fun unentered => ?_, fun _ _ => ?_⟩
          · rw [entered] at unentered
            cases unentered
          · rw [lastFrame_cons before, frame]
            rfl
        · obtain ⟨block, found, reports⟩ := turn.reports tid stack mem
          rw [get_interrupted, if_neg same]
          exact ⟨block, found, reports.push before same after isNext⟩
  · intro value returned
    have value_eq : value = nextBlock.savedInterruptFrame |||
        if nextBlock.hasStarted then 0 else 1 := by
      rw [record, served] at returned
      exact (Option.some.inj returned).symm
    refine ⟨next', nextStack, after, nextMem, ?_, ?_⟩
    · rw [before]
      exact fun same => differ (Option.some.inj same).symm
    · cases entered : nextBlock.hasStarted with
      | true =>
        rw [entered, if_pos rfl, UInt64.or_zero] at value_eq
        subst value_eq
        exact .inl ⟨nextReports.even, nextReports.interrupted entered differ⟩
      | false =>
        obtain ⟨-, unnamed, frame⟩ := nextReports.unentered entered
        rw [entered, if_neg Bool.false_ne_true, frame] at value_eq
        exact .inr ⟨value_eq, unnamed⟩

/-- One interrupt advances the turn by one if preemption is enabled. -/
theorem Turn.serve (even : call.frame.toNat % 2 = 0) :
    ∃ next, Turn idle created (sched.record call :: history)
        (turns + if call.preemptDisableDepth = 0 then 1 else 0) next (sched.serve call).2 ∧
      (sched.record call).Told created history := by
  by_cases enabled : call.preemptDisableDepth = 0
  · rw [if_pos enabled]
    obtain ⟨next, waiting, queue⟩ := List.exists_cons_of_ne_nil
      (show sched.readyQueue ++ [current] ≠ [] by simp)
    by_cases same : next = current
    · subst same
      exact ⟨next, turn.enabled_same call even enabled queue⟩
    · exact ⟨next, turn.enabled_other call even enabled queue same⟩
  · rw [if_neg enabled]
    exact ⟨current, turn.disabled call enabled⟩

end

/-- How many interrupts found preemption enabled. -/
def enabledCalls (calls : List Call) : Nat :=
  calls.countP fun call => decide (call.preemptDisableDepth = 0)

/-- Any interrupts advance the turns as often as preemption was enabled. -/
theorem Turn.serveAll
    (turn : Turn idle created [] 0 current start)
    (even : ∀ call ∈ calls, call.frame.toNat % 2 = 0) :
    (∃ next, Turn idle created (start.serveAll calls).1 (enabledCalls calls) next
      (start.serveAll calls).2) ∧
      ∀ entry older, entry :: older <:+ (start.serveAll calls).1 →
        entry.Told created older := by
  induction calls with
  | nil =>
    refine ⟨⟨current, turn⟩, fun entry older suffix => ?_⟩
    exact absurd (List.eq_nil_of_suffix_nil suffix) (by simp)
  | cons call earlier ih =>
    obtain ⟨⟨reached, past⟩, told⟩ :=
      ih fun old oldMem => even old (List.mem_cons_of_mem call oldMem)
    obtain ⟨next, turned, new⟩ := past.serve call (even call List.mem_cons_self)
    refine ⟨⟨next, ?_⟩, fun entry older suffix => ?_⟩
    · have counted : enabledCalls (call :: earlier) = enabledCalls earlier +
          if call.preemptDisableDepth = 0 then 1 else 0 := by
        simp [enabledCalls, List.countP_cons]
      rw [counted]
      exact turned
    · rcases List.suffix_cons_iff.mp suffix with whole | old
      · obtain ⟨rfl, rfl⟩ := List.cons.inj whole
        exact new
      · exact told entry older old

/-- A task that is entered for the first time had not been entered before. -/
theorem countP_enters_le_one
    (told : ∀ entry older, entry :: older <:+ history → entry.Told created older)
    (tid : Tid) :
    history.countP (fun entry => entry.enters tid) ≤ 1 := by
  induction history with
  | nil => simp
  | cons entry older ih =>
    have count_older := ih fun other rest suffix =>
      told other rest (suffix.trans (List.suffix_cons entry older))
    rw [List.countP_cons]
    split_ifs with enters
    · have none_older : older.countP (fun old => old.enters tid) = 0 := by
        rw [List.countP_eq_zero]
        intro old oldMem oldEnters
        simp only [Entry.enters, Bool.and_eq_true, decide_eq_true_eq] at enters oldEnters
        cases returned : entry.returned with
        | none => simp [returned] at enters
        | some value =>
          obtain ⟨other, stack, after, -, -, facts⟩ :=
            told entry older (List.suffix_refl _) value returned
          obtain rfl : other = tid := Option.mem_unique after enters.1
          have odd : value.toNat % 2 = 1 := by simpa [returned] using enters.2
          rcases facts with ⟨even, -⟩ | ⟨-, unnamed⟩
          · omega
          · exact (unnamed old oldMem).2 oldEnters.1
      omega
    · omega

/-- What it means that the tasks take turns, from what is remembered of the interrupts
and the scheduler after them. -/
structure TakesTurns (idle : Tid) (order : List Tid) (stackStarts : List UInt64) (calls : List Call)
    (history : List Entry)
    (sched : Scheduler) : Prop where
  /-- The tasks are the idle one and those created, one for each stack. -/
  tasks : order.length = stackStarts.length ∧ order.Nodup ∧ idle ∉ order ∧
    ∀ tid, (sched.tasks.get tid).isSome ↔ tid = idle ∨ tid ∈ order
  /-- A created task is the current one or waits exactly once. -/
  waits : ∀ tid ∈ order,
    (sched.currentTaskId = some tid ∧ tid ∉ sched.readyQueue) ∨
      (sched.currentTaskId ≠ some tid ∧ sched.readyQueue.count tid = 1)
  /-- The current task, and no other, is running. -/
  running : ∃ current ∈ order, sched.currentTaskId = some current ∧
    ∀ tid, tid = idle ∨ tid ∈ order →
      (sched.threadState tid = some .running ↔ tid = current)
  /-- The tasks become current in the order of creation, over and over. -/
  cyclic : sched.currentTaskId = order[enabledCalls calls % order.length]?
  /-- With bit zero clear the value is the frame last passed while the task was current,
  with bit zero set it is the prepared frame of a task that had not run. -/
  frames : ∀ entry older, entry :: older <:+ history → ∀ value, entry.returned = some value →
    ∃ tid stack, entry.after = some tid ∧ (tid, stack) ∈ order.zip stackStarts ∧
      (value.toNat % 2 = 0 → lastFrame (entry :: older) tid = some value) ∧
      (value.toNat % 2 = 1 →
        value = TaskControlBlock.initializeInterruptFrame stack ||| 1 ∧
          ∀ old ∈ entry :: older, old.before ≠ some tid)
  /-- A task is entered for the first time at most once. -/
  once : ∀ tid, history.countP (fun entry => entry.enters tid) ≤ 1
  /-- With preemption disabled an interrupt changes nothing but the flag. -/
  disabled : ∀ call : Call, call.preemptDisableDepth ≠ 0 →
    sched.serve call =
      (none, { sched with
        preemptDisableDepth := call.preemptDisableDepth
        preemptDeferred := true })

theorem Turn.waits (turn : Turn idle created history turns current sched)
    (mem : tid ∈ created.map Prod.fst) :
    (sched.currentTaskId = some tid ∧ tid ∉ sched.readyQueue) ∨
      (sched.currentTaskId ≠ some tid ∧ sched.readyQueue.count tid = 1) := by
  have distinct : (current :: sched.readyQueue).Nodup := by
    rw [← turn.queue, List.nodup_rotate]
    exact turn.distinct
  rw [turn.currentTask]
  by_cases same : tid = current
  · subst same
    exact .inl ⟨rfl, (List.nodup_cons.mp distinct).1⟩
  · refine .inr ⟨fun equal => same (Option.some.inj equal).symm, ?_⟩
    have queued : tid ∈ current :: sched.readyQueue := by
      rw [← turn.queue, List.mem_rotate]
      exact mem
    exact List.count_eq_one_of_mem (List.nodup_cons.mp distinct).2
      ((List.mem_cons.mp queued).resolve_left same)

theorem Entry.Told.frames
    (told : entry.Told created older)
    (returned : entry.returned = some value) :
    ∃ tid stack, entry.after = some tid ∧ (tid, stack) ∈ created ∧
      (value.toNat % 2 = 0 → lastFrame (entry :: older) tid = some value) ∧
      (value.toNat % 2 = 1 →
        value = TaskControlBlock.initializeInterruptFrame stack ||| 1 ∧
          ∀ old ∈ entry :: older, old.before ≠ some tid) := by
  obtain ⟨tid, stack, after, mem, notBefore, facts⟩ := told value returned
  refine ⟨tid, stack, after, mem, ?_⟩
  rw [lastFrame_cons_of_ne notBefore]
  rcases facts with ⟨even, frame⟩ | ⟨prepared, unnamed⟩
  · exact ⟨fun _ => frame, fun odd => absurd (even.symm.trans odd) (by simp)⟩
  · have odd := or_one_frame_odd (TaskControlBlock.initializeInterruptFrame stack)
    rw [← prepared] at odd
    refine ⟨fun even => absurd (even.symm.trans odd) (by simp), fun _ => ⟨prepared, ?_⟩⟩
    intro old oldMem
    rcases List.mem_cons.mp oldMem with rfl | earlier
    · exact notBefore
    · exact (unnamed old earlier).1

/-- After the idle task and at least one other are created and the first is entered, the
timer interrupts let the tasks take turns. -/
theorem tasks_take_turns (kernel : KernelLeads table)
    (nonempty : stackStarts ≠ [])
    (started : startUp table idleStack stackStarts now = some (idle, order, start))
    (even : ∀ call ∈ calls, call.frame.toNat % 2 = 0) :
    TakesTurns idle order stackStarts calls (start.serveAll calls).1 (start.serveAll calls).2 := by
  obtain ⟨⟨idle', first⟩, idleEq, rest⟩ := Option.bind_eq_some_iff.mp started
  obtain ⟨⟨order', second⟩, orderEq, rest⟩ := Option.bind_eq_some_iff.mp rest
  obtain ⟨third, startedEq, rest⟩ := Option.bind_eq_some_iff.mp rest
  cases rest
  obtain ⟨made, lengths⟩ := (made_createIdleTask kernel idleEq).createTasks orderEq
  rw [List.nil_append] at made
  have order_eq : (order.zip stackStarts).map Prod.fst = order :=
    List.map_fst_zip lengths.le
  have some_created : order.zip stackStarts ≠ [] := by
    intro empty
    rw [empty, List.map_nil] at order_eq
    rw [← order_eq, List.length_nil] at lengths
    exact nonempty (List.length_eq_zero_iff.mp lengths.symm)
  obtain ⟨current, turn⟩ := made.startFirstTask some_created startedEq
  obtain ⟨⟨next, turned⟩, told⟩ := turn.serveAll even
  have next_mem := turned.current_mem
  have distinct := turned.distinct
  have apart := turned.apart
  have blocks := turned.blocks
  have states := turned.states
  have queue := turned.queue
  rw [order_eq] at next_mem distinct apart blocks states queue
  have positive : 0 < order.length := List.length_pos_of_mem next_mem
  refine ⟨⟨lengths, distinct, apart, blocks⟩, fun tid mem =>
    turned.waits (order_eq.symm ▸ mem : tid ∈ (order.zip stackStarts).map Prod.fst),
    ⟨next, next_mem, turned.currentTask, fun tid known => ?_⟩, ?_,
    fun entry older suffix value returned => (told entry older suffix).frames returned,
    countP_enters_le_one told, fun call => serve_disabled turned.live call⟩
  · rw [states tid known]
    split_ifs with same
    · simp [same]
    · simp [same]
  · rw [← List.head?_rotate (Nat.mod_lt _ positive), List.rotate_mod, queue, turned.currentTask]
    rfl

/-- Two tasks take four turns, one of which finds preemption disabled. -/
theorem tasks_take_turns_two :
    ∃ idle order start,
      startUp (.initProcessTable ⟨[]⟩) 0x10000 [0x20000, 0x30000] 0 = some (idle, order, start) ∧
      TakesTurns idle order [0x20000, 0x30000]
        [⟨0x21000, 3, 0⟩, ⟨0x31000, 2, 0⟩, ⟨0x21000, 1, 1⟩, ⟨0x20f00, 1, 0⟩]
        (start.serveAll
          [⟨0x21000, 3, 0⟩, ⟨0x31000, 2, 0⟩, ⟨0x21000, 1, 1⟩, ⟨0x20f00, 1, 0⟩]).1
        (start.serveAll
          [⟨0x21000, 3, 0⟩, ⟨0x31000, 2, 0⟩, ⟨0x21000, 1, 1⟩, ⟨0x20f00, 1, 0⟩]).2 := by
  have starts : (startUp (.initProcessTable ⟨[]⟩) 0x10000 [0x20000, 0x30000] 0).isSome := by
    decide +kernel
  obtain ⟨⟨idle, order, start⟩, started⟩ := Option.isSome_iff_exists.mp starts
  exact ⟨idle, order, start, started,
    tasks_take_turns (KernelLeads.initProcessTable ⟨[]⟩) (by simp) started (by decide)⟩

end Scheduler

end Vantara
