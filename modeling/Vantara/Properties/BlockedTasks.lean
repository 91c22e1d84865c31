import Vantara.Scheduler.KernelThreads
import Vantara.Foundation.Transition

/-!
# Blocked kernel threads and the queue

The queue of the scheduler, the states of the threads and the wake ticks are
updated separately.  This module says which operations keep them in step: as long
as no queued task is blocked or ended, no waiting or current task is queued once
more, a task is scheduled around only while no blocked task is due, and the current
task is not blocked or ended when it gives up its turn, only ready threads and the
idle task are scheduled.  None of this is checked, and runs that leave these bounds
schedule blocked tasks.
-/

namespace Vantara

open Foundation

namespace Scheduler

/-- What the rest of the kernel asks of the scheduler. -/
inductive Operation
  | createTask (stackStart : UInt64)
  | createIdleTask (stackStart : UInt64)
  | startFirstTask
  | schedule
  | yieldNow
  | preemptFromTimer (preemptDisableDepth : Nat) (frame : UInt64)
  | markTaskBlocked (tid : Tid)
  | markTaskReady (tid : Tid)
  | markTaskZombie (tid : Tid) (exitCode : Int32)
  | sleepCurrentUntil (wakeAtTick : UInt64)

/-- An operation and the timer tick at which it is performed. -/
structure Action where
  operation : Operation
  now : UInt64

/-- Perform an operation; `none` where the kernel panics. -/
def perform (sched : Scheduler) (action : Action) : Option Scheduler :=
  match action.operation with
  | .createTask stackStart => (sched.createTask stackStart).map Prod.snd
  | .createIdleTask stackStart => (sched.createIdleTask stackStart).map Prod.snd
  | .startFirstTask => sched.startFirstTask action.now
  | .schedule => some (sched.schedule action.now).2
  | .yieldNow => some (sched.yieldNow action.now)
  | .preemptFromTimer depth frame =>
    some ({ sched with preemptDisableDepth := depth }.preemptFromTimer action.now frame).2
  | .markTaskBlocked tid => some (sched.markTaskBlocked action.now tid)
  | .markTaskReady tid => some (sched.markTaskReady action.now tid)
  | .markTaskZombie tid exitCode => some (sched.markTaskZombie action.now tid exitCode)
  | .sleepCurrentUntil wakeAtTick => some (sched.sleepCurrentUntil action.now wakeAtTick)

/-- The scheduler as it is when an operation calls `schedule`, if it does. -/
def asks (sched : Scheduler) (action : Action) : Option Scheduler :=
  match action.operation with
  | .startFirstTask | .schedule => some sched
  | .yieldNow => some (sched.requeueCurrent action.now)
  | .preemptFromTimer depth frame =>
    if sched.liveSwitching ∧ depth = 0 then
      match sched.currentTaskId with
      | some tid =>
        if (sched.tasks.get tid).isSome then
          some (({ sched with
            preemptDisableDepth := 0
            preemptDeferred := false }.saveFrame tid frame).requeueCurrent action.now)
        else
          none
      | none => none
    else
      none
  | _ => none

/-- The current task, if it is not the idle one. -/
def busyTask (sched : Scheduler) : Option Tid :=
  if sched.currentTaskId = sched.idleTaskId then none else sched.currentTaskId

/-- The current task is neither blocked nor ended. -/
def CurrentRuns (sched : Scheduler) : Prop :=
  ∀ tid ∈ sched.busyTask,
    sched.threadState tid ≠ some .blocked ∧ sched.threadState tid ≠ some .zombie

instance (sched : Scheduler) : Decidable sched.CurrentRuns :=
  Option.decidableForallMem sched.busyTask

instance (sched : Scheduler) (tick : UInt64) : Decidable (sched.Undisturbed tick) :=
  List.decidableBAll _ sched.tasks.items

/-- When the separate records stay in step: the tasks an operation blocks, ends or
makes ready are not queued, and no one is to be woken where a task is scheduled. -/
def InStep (sched : Scheduler) (action : Action) : Prop :=
  match action.operation with
  | .createTask _ | .createIdleTask _ => True
  | .startFirstTask | .schedule => sched.Undisturbed action.now
  | .yieldNow | .preemptFromTimer _ _ =>
    sched.Undisturbed action.now ∧ sched.CurrentRuns
  | .markTaskBlocked tid =>
    tid ∉ sched.readyQueue ∧ sched.idleTaskId ≠ some tid ∧
      sched.threadState tid ≠ some .zombie
  | .markTaskReady tid =>
    tid ∉ sched.readyQueue ∧ sched.busyTask ≠ some tid ∧
      sched.threadState tid ≠ none ∧ sched.threadState tid ≠ some .zombie ∧
      (sched.threadState tid = some .blocked →
        ∀ task ∈ sched.tasks.get tid, task.wakeDue action.now)
  | .markTaskZombie tid _ =>
    tid ∉ sched.readyQueue ∧ sched.idleTaskId ≠ some tid
  | .sleepCurrentUntil _ =>
    ∀ tid ∈ sched.busyTask, sched.threadState tid ≠ some .zombie

instance (sched : Scheduler) (action : Action) : Decidable (sched.InStep action) :=
  match action with
  | ⟨.createTask _, _⟩ => isTrue trivial
  | ⟨.createIdleTask _, _⟩ => isTrue trivial
  | ⟨.startFirstTask, now⟩ => inferInstanceAs (Decidable (sched.Undisturbed now))
  | ⟨.schedule, now⟩ => inferInstanceAs (Decidable (sched.Undisturbed now))
  | ⟨.yieldNow, _⟩ => inferInstanceAs (Decidable (_ ∧ _))
  | ⟨.preemptFromTimer _ _, _⟩ => inferInstanceAs (Decidable (_ ∧ _))
  | ⟨.markTaskBlocked _, _⟩ => inferInstanceAs (Decidable (_ ∧ _ ∧ _))
  | ⟨.markTaskReady _, _⟩ =>
    inferInstanceAs (Decidable (_ ∧ _ ∧ _ ∧ _ ∧ (_ → ∀ task ∈ _, TaskControlBlock.wakeDue task _)))
  | ⟨.markTaskZombie _ _, _⟩ => inferInstanceAs (Decidable (_ ∧ _))
  | ⟨.sleepCurrentUntil _, _⟩ => Option.decidableForallMem sched.busyTask

variable {sched after : Scheduler} {now : UInt64}

theorem busyTask_eq_some_iff :
    sched.busyTask = some tid ↔
      sched.currentTaskId = some tid ∧ sched.idleTaskId ≠ some tid := by
  unfold busyTask
  split_ifs with same
  · simp [same]
  · constructor
    · intro current
      exact ⟨current, fun idle => same (current.trans idle.symm)⟩
    · exact And.left

theorem requeueCurrent_of_busy (busy : sched.busyTask = some tid) :
    sched.requeueCurrent now = sched.markTaskReady now tid := by
  obtain ⟨current, notIdle⟩ := busyTask_eq_some_iff.mp busy
  exact requeueCurrent_eq current notIdle

theorem requeueCurrent_of_not_busy (notBusy : sched.busyTask = none) :
    sched.requeueCurrent now = sched := by
  unfold requeueCurrent
  cases current : sched.currentTaskId with
  | none => rfl
  | some tid =>
    refine if_pos (Eq.symm ?_)
    by_contra notIdle
    rw [busyTask_eq_some_iff.mpr ⟨current, notIdle⟩] at notBusy
    cases notBusy

/-- The waiting tasks are ready and wait once each, and the idle task can run. -/
structure Lined (sched : Scheduler) : Prop where
  kernel : KernelLeads sched.processes
  distinct : sched.readyQueue.Nodup
  ready : ∀ tid ∈ sched.readyQueue, sched.threadState tid = some .ready
  idle : ∀ tid, sched.idleTaskId = some tid →
    sched.threadState tid ≠ none ∧ sched.threadState tid ≠ some .blocked ∧
      sched.threadState tid ≠ some .zombie

/-- Between operations the current task does not wait. -/
structure Settled (sched : Scheduler) : Prop extends Lined sched where
  current : ∀ tid, sched.busyTask = some tid →
    tid ∉ sched.readyQueue ∧ sched.threadState tid ≠ none

/-- The invariant reads the queue, the idle task and the process table only. -/
theorem Lined.congr
    (lined : sched.Lined)
    (processes : after.processes = sched.processes)
    (queue : after.readyQueue = sched.readyQueue)
    (idle : after.idleTaskId = sched.idleTaskId) :
    after.Lined := by
  have states : ∀ tid, after.threadState tid = sched.threadState tid := fun tid => by
    rw [threadState, processes, threadState]
  refine ⟨processes ▸ lined.kernel, queue ▸ lined.distinct, fun tid queued => ?_,
    fun tid isIdle => ?_⟩
  · rw [states]
    exact lined.ready tid (queue ▸ queued)
  · rw [states]
    exact lined.idle tid (idle ▸ isIdle)

theorem Settled.congr
    (settled : sched.Settled)
    (processes : after.processes = sched.processes)
    (queue : after.readyQueue = sched.readyQueue)
    (idle : after.idleTaskId = sched.idleTaskId)
    (current : after.currentTaskId = sched.currentTaskId) :
    after.Settled := by
  refine ⟨settled.toLined.congr processes queue idle, fun tid busy => ?_⟩
  rw [busyTask_eq_some_iff, current, idle, ← busyTask_eq_some_iff] at busy
  rw [queue, threadState, processes]
  exact settled.current tid busy

/-- A task that does not wait may change its state; the idle task must stay able to
run. -/
theorem Lined.setThreadState
    (lined : sched.Lined)
    (notQueued : tid ∉ sched.readyQueue)
    (idleRuns : sched.idleTaskId = some tid → state ≠ .blocked ∧ state ≠ .zombie) :
    (sched.setThreadState now tid state).Lined := by
  refine ⟨kernelLeads_setThreadState lined.kernel now tid state, lined.distinct,
    fun other queued => ?_, fun other isIdle => ?_⟩
  · have differ : other ≠ tid := fun same => notQueued (same ▸ queued)
    rw [threadState_setThreadState lined.kernel, if_neg differ]
    exact lined.ready other queued
  · rw [threadState_setThreadState lined.kernel]
    have able := lined.idle other isIdle
    split_ifs with same
    · have runs := idleRuns (same ▸ isIdle)
      cases before : sched.threadState other with
      | none => exact absurd before able.1
      | some _ => simp [runs.1, runs.2]
    · exact able

theorem Settled.setThreadState
    (settled : sched.Settled)
    (notQueued : tid ∉ sched.readyQueue)
    (idleRuns : sched.idleTaskId = some tid → state ≠ .blocked ∧ state ≠ .zombie) :
    (sched.setThreadState now tid state).Settled := by
  refine ⟨settled.toLined.setThreadState notQueued idleRuns, fun other busy => ?_⟩
  have before := settled.current other busy
  refine ⟨before.1, ?_⟩
  rw [threadState_setThreadState settled.kernel]
  split_ifs
  · simpa using before.2
  · exact before.2

/-- A ready task that does not wait yet may join the queue. -/
theorem Lined.enqueue
    (lined : sched.Lined)
    (notQueued : tid ∉ sched.readyQueue)
    (ready : sched.threadState tid = some .ready) :
    (sched.enqueue tid).Lined := by
  refine ⟨lined.kernel, ?_, fun other queued => ?_, lined.idle⟩
  · rw [enqueue_readyQueue, List.nodup_append]
    refine ⟨lined.distinct, List.nodup_singleton tid, ?_⟩
    intro other queued new newMem same
    rw [List.mem_singleton.mp newMem] at same
    exact notQueued (same ▸ queued)
  · rcases List.mem_append.mp queued with before | new
    · exact lined.ready other before
    · obtain rfl := List.mem_singleton.mp new
      exact ready

theorem Settled.enqueue
    (settled : sched.Settled)
    (notQueued : tid ∉ sched.readyQueue)
    (ready : sched.threadState tid = some .ready)
    (notBusy : sched.busyTask ≠ some tid) :
    (sched.enqueue tid).Settled := by
  refine ⟨settled.toLined.enqueue notQueued ready, fun other busy => ?_⟩
  have before := settled.current other busy
  refine ⟨fun queued => ?_, before.2⟩
  rcases List.mem_append.mp queued with old | new
  · exact before.1 old
  · obtain rfl := List.mem_singleton.mp new
    exact notBusy busy

theorem threadState_set (kernel : KernelLeads sched.processes)
    (present : sched.threadState tid ≠ none)
    (state : ThreadState) :
    (sched.setThreadState now tid state).threadState tid = some state := by
  rw [threadState_setThreadState kernel, if_pos rfl]
  cases before : sched.threadState tid with
  | none => exact absurd before present
  | some _ => rfl

/-- Giving up the turn keeps the queue in order. -/
theorem Settled.requeueCurrent (settled : sched.Settled) : (sched.requeueCurrent now).Lined := by
  cases busy : sched.busyTask with
  | none =>
    rw [requeueCurrent_of_not_busy busy]
    exact settled.toLined
  | some tid =>
    rw [requeueCurrent_of_busy busy]
    have before := settled.current tid busy
    have set := @Lined.setThreadState sched now tid .ready settled.toLined before.1 (by simp)
    exact set.enqueue before.1 (threadState_set settled.kernel before.2 .ready)

/-- The two ways in which a task is chosen: the first in the queue, or the idle task
when no one waits. -/
theorem Lined.schedule_cases (lined : sched.Lined) (undisturbed : sched.Undisturbed now) :
    (∃ tid waiting, sched.readyQueue = tid :: waiting ∧
        sched.threadState tid = some .ready ∧
        sched.schedule now = (some tid, { sched with readyQueue := waiting })) ∨
      (sched.readyQueue = [] ∧
        sched.schedule now = (sched.idleTaskId, sched)) := by
  cases queue : sched.readyQueue with
  | nil => exact .inr ⟨rfl, schedule_nil undisturbed queue⟩
  | cons tid waiting =>
    have ready := lined.ready tid (by rw [queue]; exact List.mem_cons_self)
    exact .inl ⟨tid, waiting, rfl, ready, schedule_cons undisturbed queue⟩

/-- The queue without its first task. -/
theorem Lined.tail (lined : sched.Lined) (queue : sched.readyQueue = tid :: waiting) :
    { sched with readyQueue := waiting }.Lined ∧ tid ∉ waiting := by
  have distinct := lined.distinct
  rw [queue, List.nodup_cons] at distinct
  refine ⟨⟨lined.kernel, distinct.2, fun other queued => ?_, lined.idle⟩, distinct.1⟩
  exact lined.ready other (queue ▸ List.mem_cons_of_mem tid queued)

section

variable (lined : sched.Lined) (undisturbed : sched.Undisturbed now)
include lined undisturbed

/-- What is scheduled is the idle task or a ready one; it stops waiting. -/
theorem Lined.schedule (scheduled : sched.schedule now = (some tid, after)) :
    (sched.idleTaskId = some tid ∨ sched.threadState tid = some .ready) ∧
      after.Lined ∧ tid ∉ after.readyQueue ∧
      after = { sched with readyQueue := after.readyQueue } := by
  rcases lined.schedule_cases undisturbed with
    ⟨first, waiting, queue, ready, chosen⟩ | ⟨queue, chosen⟩
  · rw [chosen, Prod.mk.injEq, Option.some.injEq] at scheduled
    obtain ⟨rfl, rfl⟩ := scheduled
    exact ⟨.inr ready, (lined.tail queue).1, (lined.tail queue).2, rfl⟩
  · rw [chosen, Prod.mk.injEq] at scheduled
    obtain ⟨idle, rfl⟩ := scheduled
    refine ⟨.inl idle, lined, ?_, rfl⟩
    rw [queue]
    exact List.not_mem_nil

/-- The scheduled task becomes the current one, and no other thread changes. -/
theorem Lined.run (scheduled : sched.schedule now = (some tid, after)) :
    (after.markTaskRunning now tid).Settled ∧
      ∀ other, other ≠ tid →
        (after.markTaskRunning now tid).threadState other = sched.threadState other := by
  obtain ⟨chosen, linedAfter, notQueued, afterEq⟩ := lined.schedule undisturbed scheduled
  have processes : after.processes = sched.processes := by rw [afterEq]
  have idleEq : after.idleTaskId = sched.idleTaskId := by rw [afterEq]
  have present : sched.threadState tid ≠ none := by
    rcases chosen with idle | ready
    · exact (lined.idle tid idle).1
    · simp [ready]
  have current : { after with currentTaskId := some tid }.Lined :=
    linedAfter.congr rfl rfl rfl
  have states := threadState_setThreadState current.kernel now tid .running
  refine ⟨⟨current.setThreadState notQueued (by simp), fun other busy => ?_⟩,
    fun other differ => ?_⟩
  · obtain rfl : tid = other := Option.some.inj (busyTask_eq_some_iff.mp busy).1
    refine ⟨notQueued, ?_⟩
    rw [markTaskRunning, states, if_pos rfl, threadState, processes]
    simpa [threadState] using present
  · rw [markTaskRunning, states, if_neg differ, threadState, processes, threadState]

/-- When nothing can be scheduled, nothing changes. -/
theorem Lined.schedule_none (scheduled : sched.schedule now = (none, after)) :
    sched.readyQueue = [] ∧ after = sched := by
  rcases lined.schedule_cases undisturbed with
    ⟨first, waiting, queue, ready, chosen⟩ | ⟨queue, chosen⟩
  · rw [chosen] at scheduled
    cases scheduled
  · rw [chosen] at scheduled
    exact ⟨queue, (Prod.mk.inj scheduled).2.symm⟩

end

/-- Saving a frame and unblocking threads disturbs no one. -/
theorem Undisturbed.congr
    (undisturbed : sched.Undisturbed now)
    (blocked : ∀ tid, after.threadState tid = some .blocked →
      sched.threadState tid = some .blocked)
    (tasks : ∀ task ∈ after.tasks.items, ∃ old ∈ sched.tasks.items,
      task.tid = old.tid ∧ task.wakeAtTick = old.wakeAtTick) :
    after.Undisturbed now := by
  intro task taskMem
  obtain ⟨old, oldMem, sameTid, sameTick⟩ := tasks task taskMem
  have notDue := undisturbed old oldMem
  simp only [dueAt, TaskControlBlock.wakeDue, Bool.and_eq_false_imp, decide_eq_true_eq,
    sameTid, sameTick] at notDue ⊢
  exact fun isBlocked => notDue (blocked old.tid isBlocked)

theorem Undisturbed.saveFrame (undisturbed : sched.Undisturbed now) (tid : Tid) (frame : UInt64) :
    (sched.saveFrame tid frame).Undisturbed now := by
  refine undisturbed.congr (fun _ => id) fun task taskMem => ?_
  obtain ⟨old, oldMem, rfl⟩ := List.mem_map.mp taskMem
  refine ⟨old, oldMem, ?_⟩
  split_ifs <;> exact ⟨rfl, rfl⟩

theorem Settled.undisturbed_requeueCurrent
    (settled : sched.Settled)
    (undisturbed : sched.Undisturbed now) :
    (sched.requeueCurrent now).Undisturbed now := by
  cases busy : sched.busyTask with
  | none => rwa [requeueCurrent_of_not_busy busy]
  | some tid =>
    rw [requeueCurrent_of_busy busy]
    refine undisturbed.congr (fun other isBlocked => ?_) fun task taskMem =>
      ⟨task, taskMem, rfl, rfl⟩
    have state : (sched.markTaskReady now tid).threadState other = _ :=
      threadState_setThreadState settled.kernel now tid .ready other
    rw [state] at isBlocked
    split_ifs at isBlocked
    · cases before : sched.threadState other with
      | none | some _ => simp [before] at isBlocked
    · exact isBlocked

/-- A thread that is blocked or has ended. -/
def Parked (sched : Scheduler) (tid : Tid) (state : ThreadState) : Prop :=
  (state = .blocked ∨ state = .zombie) ∧ sched.threadState tid = some state

theorem CurrentRuns.busyTask_ne (runs : sched.CurrentRuns) (parked : sched.Parked tid state) :
    sched.busyTask ≠ some tid := by
  intro busy
  have current := runs tid busy
  rw [parked.2] at current
  rcases parked.1 with rfl | rfl
  · exact current.1 rfl
  · exact current.2 rfl

theorem Parked.requeueCurrent
    (parked : sched.Parked tid state)
    (settled : sched.Settled)
    (runs : sched.CurrentRuns) :
    (sched.requeueCurrent now).Parked tid state := by
  cases busy : sched.busyTask with
  | none => rwa [requeueCurrent_of_not_busy busy]
  | some current =>
    rw [requeueCurrent_of_busy busy]
    have differ : tid ≠ current := fun same =>
      runs.busyTask_ne parked (same ▸ busy)
    refine ⟨parked.1, ?_⟩
    refine (threadState_setThreadState settled.kernel now current .ready tid).trans ?_
    rw [if_neg differ]
    exact parked.2

/-- A parked thread is not scheduled. -/
theorem Parked.not_scheduled
    (parked : sched.Parked tid state)
    (lined : sched.Lined)
    (undisturbed : sched.Undisturbed now) :
    (sched.schedule now).1 ≠ some tid := by
  intro scheduled
  have chosen := (lined.schedule undisturbed (Prod.ext scheduled rfl)).1
  rcases chosen with idle | ready
  · have able := (lined.idle tid idle).2
    rw [parked.2] at able
    rcases parked.1 with rfl | rfl
    · exact able.1 rfl
    · exact able.2 rfl
  · rw [parked.2] at ready
    rcases parked.1 with rfl | rfl <;> cases ready

/-- Two schedulers that differ in the blocks of the tasks, the counters and the flags
only. -/
structure Like (after sched : Scheduler) : Prop where
  processes : after.processes = sched.processes
  queue : after.readyQueue = sched.readyQueue
  idle : after.idleTaskId = sched.idleTaskId
  current : after.currentTaskId = sched.currentTaskId

theorem Like.settled (alike : Like after sched) (settled : sched.Settled) : after.Settled :=
  settled.congr alike.processes alike.queue alike.idle alike.current

theorem Like.threadState (alike : Like after sched) (tid : Tid) :
    after.threadState tid = sched.threadState tid := by
  rw [Scheduler.threadState, alike.processes, Scheduler.threadState]

/-- The timer switches to the scheduled task, or leaves the tasks alone. -/
theorem preemptFromTimer_cases (sched : Scheduler) (depth : Nat) (frame : UInt64) :
    (sched.asks ⟨.preemptFromTimer depth frame, now⟩ = none ∧
        Like ({ sched with preemptDisableDepth := depth }.preemptFromTimer now frame).2
          sched) ∨
      ∃ asked, sched.asks ⟨.preemptFromTimer depth frame, now⟩ = some asked ∧
        match asked.schedule now with
        | (some tid, chosen) =>
          Like ({ sched with preemptDisableDepth := depth }.preemptFromTimer now frame).2
            (chosen.markTaskRunning now tid)
        | (none, chosen) =>
          Like ({ sched with preemptDisableDepth := depth }.preemptFromTimer now frame).2
            chosen := by
  by_cases enabled : sched.liveSwitching = true ∧ depth = 0
  · obtain ⟨live, rfl⟩ := enabled
    simp only [asks, preemptFromTimer, live, Bool.not_true, Bool.false_eq_true, if_false,
      ne_eq, not_true_eq_false, and_self, if_true]
    cases current : sched.currentTaskId with
    | none => exact .inl ⟨rfl, rfl, rfl, rfl, by simp [current]⟩
    | some tid =>
      simp only
      cases block : sched.tasks.get tid with
      | none => exact .inl ⟨by simp, rfl, rfl, rfl, current.symm⟩
      | some task =>
        refine .inr ⟨_, if_pos rfl, ?_⟩
        simp only
        split
        · rename_i next chosen scheduled
          simp only [scheduled]
          split_ifs
          · exact ⟨rfl, rfl, rfl, rfl⟩
          · split <;> exact ⟨rfl, rfl, rfl, rfl⟩
        · rename_i chosen scheduled
          simp only [scheduled]
          exact ⟨rfl, rfl, rfl, rfl⟩
  · refine .inl ⟨if_neg enabled, ?_⟩
    unfold preemptFromTimer
    cases live : sched.liveSwitching with
    | false => exact ⟨rfl, rfl, rfl, rfl⟩
    | true =>
      have disabled : depth ≠ 0 := fun zero => enabled ⟨live, zero⟩
      simp only [Bool.not_true, Bool.false_eq_true, if_false, if_pos disabled]
      exact ⟨rfl, rfl, rfl, rfl⟩

/-- Giving up the turn readies the scheduler for its choice. -/
theorem Settled.turn
    (settled : sched.Settled)
    (undisturbed : sched.Undisturbed now)
    (runs : sched.CurrentRuns) :
    (sched.requeueCurrent now).Lined ∧
      (sched.requeueCurrent now).Undisturbed now ∧
      ((sched.requeueCurrent now).readyQueue = [] →
        sched.requeueCurrent now = sched) ∧
      ∀ tid state, sched.Parked tid state →
        (sched.requeueCurrent now).Parked tid state := by
  refine ⟨settled.requeueCurrent, settled.undisturbed_requeueCurrent undisturbed, ?_,
    fun tid state parked => parked.requeueCurrent settled runs⟩
  intro empty
  cases busy : sched.busyTask with
  | none => exact requeueCurrent_of_not_busy busy
  | some tid =>
    rw [requeueCurrent_of_busy busy] at empty
    simp [Scheduler.markTaskReady] at empty

/-- Where a task is scheduled, the queue is in order, no one is to be woken, and
parked threads are still parked. -/
theorem Settled.asks
    (settled : sched.Settled)
    (inStep : sched.InStep action)
    (called : sched.asks action = some asked) :
    asked.Lined ∧ asked.Undisturbed action.now ∧
      (asked.readyQueue = [] → Like asked sched) ∧
      ∀ tid state, sched.Parked tid state → asked.Parked tid state := by
  obtain ⟨operation, now⟩ := action
  cases operation with
  | startFirstTask | schedule =>
    cases called
    exact ⟨settled.toLined, inStep, fun _ => ⟨rfl, rfl, rfl, rfl⟩, fun _ _ => id⟩
  | yieldNow =>
    cases called
    obtain ⟨lined, undisturbed, empty, parked⟩ := settled.turn inStep.1 inStep.2
    refine ⟨lined, undisturbed, fun none_waits => ?_, parked⟩
    rw [empty none_waits]
    exact ⟨rfl, rfl, rfl, rfl⟩
  | preemptFromTimer depth frame =>
    simp only [Scheduler.asks] at called
    split_ifs at called
    split at called
    · rename_i tid current
      split_ifs at called
      let saved := { sched with
        preemptDisableDepth := 0, preemptDeferred := false }.saveFrame tid frame
      have alike : Like saved sched := ⟨rfl, rfl, rfl, rfl⟩
      have undisturbed : saved.Undisturbed now :=
        @Undisturbed.saveFrame { sched with
          preemptDisableDepth := 0, preemptDeferred := false } now inStep.1 tid frame
      have runs : saved.CurrentRuns := inStep.2
      obtain ⟨lined, calm, empty, parked⟩ := (alike.settled settled).turn undisturbed runs
      obtain rfl : saved.requeueCurrent now = asked := Option.some.inj called
      refine ⟨lined, calm, fun none_waits => ?_, parked⟩
      rw [empty none_waits]
      exact alike
    · cases called
  | createTask | createIdleTask | markTaskBlocked | markTaskReady | markTaskZombie
  | sleepCurrentUntil => cases called

/-- After its choice the scheduler is settled again, and parked threads stay parked. -/
theorem Lined.chosen
    (lined : asked.Lined)
    (undisturbed : asked.Undisturbed now)
    (settled : sched.Settled)
    (empty : asked.readyQueue = [] → Like asked sched)
    (taken : match asked.schedule now with
      | (some tid, chosen) => Like after (chosen.markTaskRunning now tid)
      | (none, chosen) => Like after chosen) :
    after.Settled ∧ ∀ tid state, asked.Parked tid state → after.Parked tid state := by
  split at taken
  · rename_i next chosen scheduled
    obtain ⟨settledAfter, states⟩ := lined.run undisturbed scheduled
    refine ⟨taken.settled settledAfter, fun tid state parked => ⟨parked.1, ?_⟩⟩
    have differ : tid ≠ next := by
      rintro rfl
      exact parked.not_scheduled lined undisturbed (by rw [scheduled])
    rw [taken.threadState, states tid differ]
    exact parked.2
  · rename_i chosen scheduled
    obtain ⟨none_waits, rfl⟩ := lined.schedule_none undisturbed scheduled
    refine ⟨taken.settled ((empty none_waits).settled settled),
      fun tid state parked => ⟨parked.1, ?_⟩⟩
    rw [taken.threadState]
    exact parked.2

/-- A new thread changes neither the queue nor the state of another thread. -/
theorem Settled.addTask
    (settled : sched.Settled)
    (added : sched.addTask stackStart = some (tid, after)) :
    after.Settled ∧ tid ∉ after.readyQueue ∧ after.threadState tid = some .ready ∧
      after.currentTaskId = sched.currentTaskId ∧
      after.idleTaskId = sched.idleTaskId ∧
      sched.threadState tid = none ∧
      ∀ other, other ≠ tid → after.threadState other = sched.threadState other := by
  obtain ⟨kernel, fresh, states, afterEq⟩ := addTask_spec settled.kernel added
  have queue : after.readyQueue = sched.readyQueue := by rw [afterEq]
  have idle : after.idleTaskId = sched.idleTaskId := by rw [afterEq]
  have current : after.currentTaskId = sched.currentTaskId := by rw [afterEq]
  have keeps : ∀ other, sched.threadState other ≠ none →
      other ≠ tid ∧ after.threadState other = sched.threadState other := by
    intro other present
    have differ : other ≠ tid := fun same => present (same ▸ fresh)
    exact ⟨differ, (states other).trans (if_neg differ)⟩
  refine ⟨⟨⟨kernel, queue ▸ settled.distinct, fun other queued => ?_, fun other isIdle => ?_⟩,
    fun other busy => ?_⟩, fun queued => ?_, (states tid).trans (if_pos rfl), current, idle, fresh,
    fun other differ => (states other).trans (if_neg differ)⟩
  · have ready := settled.ready other (queue ▸ queued)
    rw [(keeps other (by simp [ready])).2]
    exact ready
  · have able := settled.idle other (idle ▸ isIdle)
    rw [(keeps other able.1).2]
    exact able
  · rw [busyTask_eq_some_iff, current, idle, ← busyTask_eq_some_iff] at busy
    have before := settled.current other busy
    rw [queue, (keeps other before.2).2]
    exact before
  · have ready := settled.ready tid (queue ▸ queued)
    rw [fresh] at ready
    cases ready

/-- The queue without the task that was taken from it. -/
theorem Settled.schedule (settled : sched.Settled) (undisturbed : sched.Undisturbed now) :
    (sched.schedule now).2.Settled ∧
      ∀ tid, (sched.schedule now).2.threadState tid = sched.threadState tid := by
  rcases settled.toLined.schedule_cases undisturbed with
    ⟨first, waiting, queue, ready, chosen⟩ | ⟨queue, chosen⟩
  · rw [chosen]
    refine ⟨⟨(settled.toLined.tail queue).1, fun tid busy => ?_⟩, fun _ => rfl⟩
    have before := settled.current tid busy
    rw [queue] at before
    exact ⟨fun queued => before.1 (List.mem_cons_of_mem first queued), before.2⟩
  · rw [chosen]
    exact ⟨settled, fun _ => rfl⟩

/-- Bookkeeping that leaves all other threads alone, and the one thread parked unless
it is made ready. -/
theorem Parked.setThreadState
    (parked : sched.Parked tid state)
    (kernel : KernelLeads sched.processes)
    (allowed : tid = target → next = .blocked ∧ state ≠ .zombie ∨ next = .zombie) :
    ∃ state', (sched.setThreadState now target next).Parked tid state' ∧
      (state = .zombie → state' = .zombie) := by
  have states := threadState_setThreadState kernel now target next tid
  by_cases same : tid = target
  · rw [if_pos same, parked.2, Option.map_some] at states
    rcases allowed same with ⟨rfl, alive⟩ | rfl
    · exact ⟨.blocked, ⟨.inl rfl, states⟩, fun ended => absurd ended alive⟩
    · exact ⟨.zombie, ⟨.inr rfl, states⟩, fun _ => rfl⟩
  · rw [if_neg same] at states
    exact ⟨state, ⟨parked.1, states.trans parked.2⟩, id⟩

/-- What a step keeps: a settled scheduler, and every parked thread that it does not
make ready. -/
structure Held (sched after : Scheduler) (operation : Operation) : Prop where
  settled : after.Settled
  parked : ∀ tid state, sched.Parked tid state → operation ≠ .markTaskReady tid →
    ∃ state', after.Parked tid state' ∧ (state = .zombie → state' = .zombie)

/-- A step that leaves parked threads as they are. -/
theorem Held.of_same
    (settled : after.Settled)
    (same : ∀ tid state, sched.Parked tid state → after.Parked tid state) :
    Held sched after operation :=
  ⟨settled, fun tid state parked _ => ⟨state, same tid state parked, id⟩⟩

theorem Settled.held_createTask
    (settled : sched.Settled)
    (performed : (sched.createTask stackStart).map Prod.snd = some after) :
    Held sched after (.createTask stackStart) := by
  obtain ⟨⟨tid, created⟩, createdEq, rfl⟩ := Option.map_eq_some_iff.mp performed
  obtain ⟨⟨tid', added⟩, addedEq, made⟩ := Option.bind_eq_some_iff.mp createdEq
  cases made
  obtain ⟨settledAfter, notQueued, ready, current, idle, fresh, states⟩ :=
    settled.addTask addedEq
  refine .of_same (settledAfter.enqueue notQueued ready fun busy => ?_) fun other state parked => ?_
  · rw [busyTask_eq_some_iff, current, idle, ← busyTask_eq_some_iff] at busy
    exact (settled.current tid busy).2 fresh
  · have differ : other ≠ tid := by
      rintro rfl
      rw [Parked, fresh] at parked
      cases parked.2
    exact ⟨parked.1, (states other differ).trans parked.2⟩

theorem Settled.held_createIdleTask
    (settled : sched.Settled)
    (performed : (sched.createIdleTask stackStart).map Prod.snd = some after) :
    Held sched after (.createIdleTask stackStart) := by
  obtain ⟨⟨tid, created⟩, createdEq, rfl⟩ := Option.map_eq_some_iff.mp performed
  unfold createIdleTask at createdEq
  split at createdEq
  · cases createdEq
    exact .of_same settled fun _ _ => id
  · rename_i noIdle
    obtain ⟨⟨tid', added⟩, addedEq, made⟩ := Option.bind_eq_some_iff.mp createdEq
    cases made
    obtain ⟨settledAfter, notQueued, ready, current, idle, fresh, states⟩ :=
      settled.addTask addedEq
    refine .of_same ⟨⟨settledAfter.kernel, settledAfter.distinct, settledAfter.ready,
      fun other isIdle => ?_⟩, fun other busy => ?_⟩ fun other state parked => ?_
    · obtain rfl : tid = other := Option.some.inj isIdle
      have able : added.threadState tid ≠ none ∧ added.threadState tid ≠ some .blocked ∧
          added.threadState tid ≠ some .zombie := by
        simp [ready]
      exact able
    · have busyBefore : added.busyTask = some other :=
        busyTask_eq_some_iff.mpr ⟨(busyTask_eq_some_iff.mp busy).1, by simp [idle, noIdle]⟩
      exact settledAfter.current other busyBefore
    · have differ : other ≠ tid := by
        rintro rfl
        rw [Parked, fresh] at parked
        cases parked.2
      exact ⟨parked.1, (states other differ).trans parked.2⟩

/-- An operation that calls `schedule` and runs the task it is given. -/
theorem Settled.held_choice
    (settled : sched.Settled)
    (inStep : sched.InStep action)
    (called : sched.asks action = some asked)
    (taken : match asked.schedule action.now with
      | (some tid, chosen) => Like after (chosen.markTaskRunning action.now tid)
      | (none, chosen) => Like after chosen) :
    Held sched after operation := by
  obtain ⟨lined, undisturbed, empty, parked⟩ := settled.asks inStep called
  obtain ⟨settledAfter, kept⟩ := lined.chosen undisturbed settled empty taken
  exact .of_same settledAfter fun tid state before => kept tid state (parked tid state before)

theorem startFirstTask_taken (started : sched.startFirstTask now = some after) :
    match sched.schedule now with
    | (some tid, chosen) => Like after (chosen.markTaskRunning now tid)
    | (none, chosen) => Like after chosen := by
  unfold startFirstTask at started
  split at started
  · cases started
  · rename_i tid chosen scheduled
    rw [scheduled]
    simp only at started ⊢
    split at started
    · cases started
    · cases started
      exact ⟨rfl, rfl, rfl, rfl⟩

theorem yieldNow_taken (sched : Scheduler) :
    match (sched.requeueCurrent now).schedule now with
    | (some tid, chosen) => Like (sched.yieldNow now) (chosen.markTaskRunning now tid)
    | (none, chosen) => Like (sched.yieldNow now) chosen := by
  unfold yieldNow
  rcases (sched.requeueCurrent now).schedule now with ⟨_ | tid, chosen⟩
  · exact ⟨rfl, rfl, rfl, rfl⟩
  · exact ⟨rfl, rfl, rfl, rfl⟩

theorem Settled.held_sleepCurrentUntil
    (settled : sched.Settled)
    (inStep : sched.InStep ⟨.sleepCurrentUntil wakeAtTick, now⟩) :
    Held sched (sched.sleepCurrentUntil now wakeAtTick)
      (.sleepCurrentUntil wakeAtTick) := by
  unfold Scheduler.sleepCurrentUntil
  cases current : sched.currentTaskId with
  | none => exact .of_same settled fun _ _ => id
  | some tid =>
    by_cases idle : some tid = sched.idleTaskId
    · simp only [if_pos idle]
      exact .of_same settled fun _ _ => id
    · simp only [if_neg idle]
      have busy : sched.busyTask = some tid :=
        busyTask_eq_some_iff.mpr ⟨current, fun isIdle => idle isIdle.symm⟩
      have noted : (sched.modifyTask tid
          (fun task => { task with wakeAtTick := some wakeAtTick }) fun _ => rfl).Settled :=
        settled.congr rfl rfl rfl rfl
      refine ⟨noted.setThreadState (settled.current tid busy).1
        fun isIdle => absurd isIdle.symm idle, fun other state parked _ => ?_⟩
      refine Parked.setThreadState parked noted.kernel fun same => .inl ⟨rfl, fun ended => ?_⟩
      exact inStep tid busy (by rw [← same, parked.2, ended])

/-- Every operation that keeps in step leaves the scheduler settled, and makes no
parked thread ready that it does not name. -/
theorem Settled.perform
    (settled : sched.Settled)
    (inStep : sched.InStep action)
    (performed : sched.perform action = some after) :
    Held sched after action.operation := by
  obtain ⟨operation, now⟩ := action
  cases operation with
  | createTask => exact settled.held_createTask performed
  | createIdleTask => exact settled.held_createIdleTask performed
  | startFirstTask =>
    exact settled.held_choice inStep rfl (startFirstTask_taken performed)
  | schedule =>
    cases performed
    obtain ⟨settledAfter, states⟩ := settled.schedule inStep
    exact .of_same settledAfter fun tid state parked =>
      ⟨parked.1, (states tid).trans parked.2⟩
  | yieldNow =>
    cases performed
    exact settled.held_choice inStep rfl (yieldNow_taken sched)
  | preemptFromTimer depth frame =>
    cases performed
    rcases @preemptFromTimer_cases now sched depth frame with
      ⟨-, still⟩ | ⟨asked, called, taken⟩
    · exact .of_same (still.settled settled) fun tid state parked =>
        ⟨parked.1, (still.threadState tid).trans parked.2⟩
    · exact settled.held_choice inStep called taken
  | markTaskBlocked =>
    cases performed
    refine ⟨settled.setThreadState inStep.1 fun idle => absurd idle inStep.2.1,
      fun other state parked _ => ?_⟩
    refine parked.setThreadState settled.kernel fun same => .inl ⟨rfl, fun ended => ?_⟩
    exact inStep.2.2 (by rw [← same, parked.2, ended])
  | markTaskReady tid =>
    cases performed
    obtain ⟨notQueued, notBusy, present, -, -⟩ := inStep
    have set : (sched.setThreadState now tid .ready).Settled :=
      settled.setThreadState notQueued (by simp)
    have ready := @threadState_set sched now tid settled.kernel present .ready
    refine ⟨set.enqueue notQueued ready notBusy, fun other state parked unnamed => ?_⟩
    have differ : other ≠ tid := fun same => unnamed (congrArg _ same.symm)
    have kept := threadState_setThreadState settled.kernel now tid .ready other
    rw [if_neg differ] at kept
    exact ⟨state, ⟨parked.1, kept.trans parked.2⟩, id⟩
  | markTaskZombie tid exitCode =>
    cases performed
    have noted : (sched.modifyTask tid
        (fun task => { task with exitCode := some exitCode }) fun _ => rfl).Settled :=
      settled.congr rfl rfl rfl rfl
    refine ⟨noted.setThreadState inStep.1 fun idle => absurd idle inStep.2,
      fun other state parked _ => ?_⟩
    exact Parked.setThreadState parked noted.kernel fun _ => .inr rfl
  | sleepCurrentUntil =>
    cases performed
    exact settled.held_sleepCurrentUntil inStep

theorem settled_new (kernel : KernelLeads table) : (new table).Settled :=
  ⟨⟨kernel, List.nodup_nil, by simp [new], by simp [new]⟩, by simp [new, busyTask]⟩

/-- The schedulers that operations in step lead to. -/
abbrev ReachedInStep (start : Scheduler) : Scheduler → Prop :=
  Transition.ReachableWhere perform InStep start

theorem Settled.reached (settled : sched.Settled) (reached : ReachedInStep sched later) :
    later.Settled :=
  reached.invariant settled fun _ _ _ before inStep performed =>
    (before.perform inStep performed).settled

/-- A parked thread stays parked until it is made ready. -/
theorem Parked.reached
    (parked : sched.Parked tid state)
    (settled : sched.Settled)
    (reached : Transition.ReachableWhere perform
      (fun sched action => sched.InStep action ∧ action.operation ≠ .markTaskReady tid)
      sched later) :
    later.Settled ∧ ∃ state', later.Parked tid state' := by
  apply reached.invariant ⟨settled, state, parked⟩
  rintro before action after ⟨settled, state, parked⟩ ⟨inStep, unnamed⟩ performed
  have held := settled.perform inStep performed
  obtain ⟨state', parkedAfter, -⟩ := held.parked tid state parked unnamed
  exact ⟨held.settled, state', parkedAfter⟩

/-- A thread that has ended is never made ready again. -/
theorem Parked.reached_zombie
    (parked : sched.Parked tid .zombie)
    (settled : sched.Settled)
    (reached : ReachedInStep sched later) :
    later.Settled ∧ later.Parked tid .zombie := by
  apply reached.invariant ⟨settled, parked⟩
  rintro before action after ⟨settled, parked⟩ inStep performed
  have held := settled.perform inStep performed
  have unnamed : action.operation ≠ .markTaskReady tid := by
    intro named
    rw [InStep, named] at inStep
    exact inStep.2.2.2.1 parked.2
  obtain ⟨state', parkedAfter, ended⟩ := held.parked tid .zombie parked unnamed
  obtain rfl := ended rfl
  exact ⟨held.settled, parkedAfter⟩

/-- A thread that is parked now is not scheduled by an operation in step. -/
theorem Parked.not_chosen
    (parked : sched.Parked tid state)
    (settled : sched.Settled)
    (inStep : sched.InStep action)
    (called : sched.asks action = some asked) :
    (asked.schedule action.now).1 ≠ some tid := by
  obtain ⟨lined, undisturbed, -, kept⟩ := settled.asks inStep called
  exact (kept tid state parked).not_scheduled lined undisturbed

/-- Whether an operation blocks or ends a given thread. -/
def Parks (sched : Scheduler) (action : Action) (tid : Tid) : Prop :=
  match action.operation with
  | .markTaskBlocked target => target = tid ∧ sched.threadState tid ≠ none
  | .markTaskZombie target _ => target = tid ∧ sched.threadState tid ≠ none
  | .sleepCurrentUntil _ => sched.busyTask = some tid
  | _ => False

/-- Blocking, sleeping and ending park the thread. -/
theorem Settled.parks
    (settled : sched.Settled)
    (parks : sched.Parks action tid)
    (performed : sched.perform action = some after) :
    ∃ state, after.Parked tid state := by
  obtain ⟨operation, now⟩ := action
  cases operation with
  | markTaskBlocked =>
    cases performed
    obtain ⟨rfl, present⟩ := parks
    exact ⟨.blocked, .inl rfl, threadState_set settled.kernel present .blocked⟩
  | markTaskZombie target exitCode =>
    cases performed
    obtain ⟨rfl, present⟩ := parks
    have noted : (sched.modifyTask target
        (fun task => { task with exitCode := some exitCode }) fun _ => rfl).Settled :=
      settled.congr rfl rfl rfl rfl
    exact ⟨.zombie, .inr rfl, threadState_set noted.kernel present .zombie⟩
  | sleepCurrentUntil wakeAtTick =>
    cases performed
    obtain ⟨current, notIdle⟩ := busyTask_eq_some_iff.mp parks
    have noted : (sched.modifyTask tid
        (fun task => { task with wakeAtTick := some wakeAtTick }) fun _ => rfl).Settled :=
      settled.congr rfl rfl rfl rfl
    refine ⟨.blocked, .inl rfl, ?_⟩
    simp only [Scheduler.sleepCurrentUntil, current, if_neg fun idle => notIdle (Eq.symm idle)]
    exact threadState_set noted.kernel (settled.current tid parks).2 .blocked
  | createTask | createIdleTask | startFirstTask | schedule | yieldNow | preemptFromTimer
  | markTaskReady => exact parks.elim

/-- While the operations keep in step, no task waits twice; what an operation
schedules is the idle task or a ready one; a task that was blocked or put to sleep is
not scheduled before it is made ready, which a sleeping task is at its wake tick at
the earliest; and a task that has ended is never scheduled. -/
theorem blocked_tasks_wait (kernel : KernelLeads table)
    (reached : ReachedInStep (new table) sched) :
    sched.readyQueue.Nodup ∧
      (∀ action asked tid, sched.InStep action → sched.asks action = some asked →
        (asked.schedule action.now).1 = some tid →
        asked.readyQueue.Nodup ∧
          (asked.idleTaskId = some tid ∨ asked.threadState tid = some .ready)) ∧
      (∀ action after tid, sched.InStep action → sched.Parks action tid →
        sched.perform action = some after →
        ∀ later, Transition.ReachableWhere perform
            (fun before next => before.InStep next ∧ next.operation ≠ .markTaskReady tid)
            after later →
          ∀ next asked, later.InStep next → later.asks next = some asked →
            (asked.schedule next.now).1 ≠ some tid) ∧
      ∀ tid later, sched.threadState tid = some .zombie → ReachedInStep sched later →
        ∀ next asked, later.InStep next → later.asks next = some asked →
          (asked.schedule next.now).1 ≠ some tid := by
  have settled := (settled_new kernel).reached reached
  refine ⟨settled.distinct, ?_, ?_, ?_⟩
  · intro action asked tid inStep called scheduled
    obtain ⟨lined, undisturbed, -, -⟩ := settled.asks inStep called
    exact ⟨lined.distinct, (lined.schedule undisturbed (Prod.ext scheduled rfl)).1⟩
  · intro action after tid inStep parks performed later laterReached next asked nextInStep called
    obtain ⟨state, parked⟩ := settled.parks parks performed
    have settledAfter := (settled.perform inStep performed).settled
    obtain ⟨settledLater, state', parkedLater⟩ := parked.reached settledAfter laterReached
    exact parkedLater.not_chosen settledLater nextInStep called
  · intro tid later ended laterReached next asked nextInStep called
    have parked : sched.Parked tid .zombie := ⟨.inr rfl, ended⟩
    obtain ⟨settledLater, parkedLater⟩ := parked.reached_zombie settled laterReached
    exact parkedLater.not_chosen settledLater nextInStep called

namespace Sample

/-- The scheduler of a booted kernel. -/
def booted : Scheduler := Scheduler.new (.initProcessTable ⟨[]⟩)

/-- An idle task and two tasks, of which the first is put to sleep and the second is
entered and takes its turns. -/
def sleeper : List Action :=
  [⟨.createIdleTask 0x10000, 0⟩, ⟨.createTask 0x20000, 0⟩, ⟨.createTask 0x30000, 0⟩,
    ⟨.yieldNow, 0⟩, ⟨.sleepCurrentUntil 10, 0⟩, ⟨.startFirstTask, 1⟩, ⟨.yieldNow, 9⟩]

end Sample

/-- In the sample run a task sleeps and its thread is blocked while the other runs. -/
theorem blocked_tasks_wait_sleeper :
    ∃ sched, ReachedInStep Sample.booted sched ∧
      sched.threadState 3 = some .blocked ∧ sched.currentTaskId = some 4 ∧
      sched.readyQueue.Nodup := by
  let outcome := Transition.runWhere perform
    (fun sched action => decide (sched.InStep action)) Sample.booted Sample.sleeper
  have observed : (outcome.map fun sched =>
      (sched.threadState 3, sched.currentTaskId)) =
        some (some .blocked, some 4) := by
    decide +kernel
  obtain ⟨sched, performed, states⟩ := Option.map_eq_some_iff.mp observed
  have reached : ReachedInStep Sample.booted sched :=
    (Transition.reachableWhere_of_runWhere performed).mono fun _ _ => of_decide_eq_true
  obtain ⟨blocked, current⟩ := Prod.mk.inj states
  exact ⟨sched, reached, blocked, current,
    (blocked_tasks_wait (KernelLeads.initProcessTable ⟨[]⟩) reached).1⟩

/-- A blocked task without a wake tick is queued and scheduled at once, still blocked;
a task that sleeps until tick ten is scheduled at tick five, and one that has ended is
scheduled, because the current task is made ready when it gives up its turn; and making
a waiting task ready queues it twice. -/
theorem blocked_task_scheduled :
    ((Transition.run perform Sample.booted
        [⟨.createTask 0x10000, 0⟩, ⟨.yieldNow, 0⟩, ⟨.markTaskBlocked 2, 0⟩]).map fun sched =>
      ((sched.schedule 0).1, sched.threadState 2)) =
        some (some 2, some .blocked) ∧
      ((Transition.run perform Sample.booted
          [⟨.createTask 0x10000, 0⟩, ⟨.yieldNow, 0⟩, ⟨.sleepCurrentUntil 10, 0⟩]).map
        fun sched => (sched.asks ⟨.yieldNow, 5⟩).map fun asked =>
          (asked.schedule 5).1) = some (some (some 2)) ∧
      ((Transition.run perform Sample.booted
          [⟨.createTask 0x10000, 0⟩, ⟨.yieldNow, 0⟩, ⟨.markTaskZombie 2 0, 0⟩]).map
        fun sched => (sched.asks ⟨.yieldNow, 0⟩).map fun asked =>
          (asked.schedule 0).1) = some (some (some 2)) ∧
      ((Transition.run perform Sample.booted
          [⟨.createTask 0x10000, 0⟩, ⟨.markTaskReady 2, 0⟩]).map fun sched =>
        sched.readyQueue) = some [2, 2] := by
  decide +kernel

end Scheduler

end Vantara
