import Vantara.Scheduler.Tasks
import Mathlib.Data.List.Rotate

/-!
# Threads of the kernel task

The kernel task is the first process of the table and the only one of its kind,
so that its threads are found under their identifiers.  In such a table creating a
kernel thread and changing the state of one have the expected effect on the states,
and each operation of the scheduler is described by what it does to the queue, the
current task and these states.
-/

namespace Vantara

open Foundation

/-- The kernel task comes first, and all other processes are user processes. -/
structure KernelHome (table : ProcessTable) (home : Process)
    (others : List Process) : Prop where
  values : table.values = home :: others
  kernel : home.kind = .kernelTask
  users : ∀ other ∈ others, other.kind ≠ .kernelTask

/-- The table was initialised with the kernel task. -/
def KernelLeads (table : ProcessTable) : Prop :=
  ∃ home others, KernelHome table home others

namespace KernelHome

variable {table : ProcessTable} {home : Process} {others : List Process}

section

variable (first : KernelHome table home others)
include first

theorem getByTid_eq (present : (home.threads.get tid).isSome) : table.getByTid tid = some home := by
  rw [ProcessTable.getByTid, first.values]
  exact List.find?_cons_of_pos present

theorem getByTid_of_absent
    (absent : home.threads.get tid = none)
    (found : table.getByTid tid = some process) :
    process.kind ≠ .kernelTask := by
  rw [ProcessTable.getByTid, first.values, List.find?_cons_of_neg (by simp [absent])] at found
  exact first.users process (List.mem_of_find?_eq_some found)

/-- The kernel threads are the threads of the kernel task. -/
theorem kernelThreadState_eq (tid : Tid) :
    table.kernelThreadState tid = (home.threads.get tid).map Thread.state := by
  unfold ProcessTable.kernelThreadState
  cases thread : home.threads.get tid with
  | some thread' =>
    rw [first.getByTid_eq (by simp [thread])]
    simp [first.kernel, thread]
  | none =>
    cases found : table.getByTid tid with
    | none => rfl
    | some process => simp [first.getByTid_of_absent thread found]

/-- Writing the kernel task back leaves it in its place. -/
theorem put {changed : Process}
    (samePid : changed.pid = home.pid)
    (kernel : changed.kind = .kernelTask) :
    KernelHome (table.putProcess changed) changed others := by
  have items : table.processes.items = home :: others := first.values
  have distinct : ∀ other ∈ others, other.pid ≠ home.pid := by
    intro other otherMem equal
    have nodup := table.processes.keysDistinct
    rw [items, List.map_cons, List.nodup_cons] at nodup
    exact nodup.1 (equal ▸ List.mem_map_of_mem otherMem)
  have present : ∃ other ∈ table.processes.items, other.pid = changed.pid :=
    ⟨home, by simp [items], samePid.symm⟩
  refine ⟨?_, kernel, first.users⟩
  rw [ProcessTable.values, ProcessTable.putProcess, KeyedStore.insert, dif_pos present]
  simp only [items, List.map_cons, samePid, if_true, List.cons.injEq, true_and]
  calc others.map (fun other => if other.pid = home.pid then changed else other)
      = others.map id := List.map_congr_left fun other otherMem =>
        if_neg (distinct other otherMem)
    _ = others := List.map_id others

end

end KernelHome

namespace KernelLeads

variable {table after : ProcessTable}

/-- Moving a kernel thread into a state changes the state of no other. -/
theorem setKernelThreadState (first : KernelLeads table) (now : UInt64) (tid : Tid)
    (state : ThreadState) :
    KernelLeads ((table.setKernelThreadState now tid state).getD table) ∧
      ∀ other, ((table.setKernelThreadState now tid state).getD table).kernelThreadState other =
        if other = tid then (table.kernelThreadState other).map fun _ => state
        else table.kernelThreadState other := by
  obtain ⟨home, others, home_first⟩ := first
  cases found : home.threads.get tid with
  | none =>
    have refused : table.setKernelThreadState now tid state = none := by
      unfold ProcessTable.setKernelThreadState
      cases owner : table.getByTid tid with
      | none => rfl
      | some process => simp [home_first.getByTid_of_absent found owner]
    rw [refused, Option.getD_none]
    refine ⟨⟨home, others, home_first⟩, fun other => ?_⟩
    split_ifs with same
    · rw [same, home_first.kernelThreadState_eq, found]
      rfl
    · rfl
  | some thread =>
    have threadTid := ThreadStore.tid_of_get found
    let changed := (home.modifyThread tid (ProcessTable.shiftedThread now state)
      fun _ => ProcessTable.tid_shiftedThread).refreshStateFromThreads
    have done : table.setKernelThreadState now tid state =
        some (table.putProcess changed) := by
      unfold ProcessTable.setKernelThreadState
      rw [home_first.getByTid_eq (by simp [found])]
      simp [home_first.kernel, found, changed, threadTid]
    have home_after : KernelHome (table.putProcess changed) changed others :=
      home_first.put (by simp [changed]) (by simp [changed, home_first.kernel])
    rw [done, Option.getD_some]
    refine ⟨⟨changed, others, home_after⟩, fun other => ?_⟩
    rw [home_after.kernelThreadState_eq, home_first.kernelThreadState_eq]
    simp only [changed, Process.refreshStateFromThreads_threads, Process.modifyThread_threads,
      ThreadStore.get_modify]
    split_ifs with same
    · rw [same, found]
      rfl
    · rfl

/-- A new kernel thread is ready and leaves the other states alone. -/
theorem createKernelThread (first : KernelLeads table)
    (created : table.createKernelThread = (some tid, after)) :
    KernelLeads after ∧
      table.kernelThreadState tid = none ∧
      ∀ other, after.kernelThreadState other =
        if other = tid then some .ready else table.kernelThreadState other := by
  obtain ⟨home, others, home_first⟩ := first
  unfold ProcessTable.createKernelThread at created
  rw [home_first.values, List.find?_cons_of_pos (by simp [home_first.kernel])] at created
  simp only at created
  split at created
  · cases created
  · rename_i threads inserted
    obtain ⟨fresh, -, get_threads⟩ := ThreadStore.insert_eq_some inserted
    simp only [Prod.mk.injEq, Option.some.injEq] at created
    obtain ⟨rfl, rfl⟩ := created
    have reserved_first : KernelHome table.reserveTid.2 home others :=
      ⟨home_first.values, home_first.kernel, home_first.users⟩
    have home_after := @KernelHome.put _ _ _ reserved_first
      (home.setThreads threads).refreshStateFromThreads (by simp) (by simp [home_first.kernel])
    refine ⟨⟨_, _, home_after⟩, ?_, fun other => ?_⟩
    · rw [home_first.kernelThreadState_eq, show home.threads.get table.reserveTid.1 = none
        from fresh]
      rfl
    · rw [home_after.kernelThreadState_eq, home_first.kernelThreadState_eq]
      simp only [Process.refreshStateFromThreads_threads, Process.setThreads_threads, get_threads]
      by_cases same : other = table.reserveTid.1
      · simp [same, Thread.new]
      · simp [same, Thread.new]

/-- The table starts with the kernel task alone. -/
theorem initProcessTable (privatePool : PrivateP4Pool) :
    KernelLeads (.initProcessTable privatePool) :=
  ⟨_, [], rfl, rfl, by simp⟩

end KernelLeads

namespace Scheduler

variable {sched : Scheduler}

theorem kernelLeads_setThreadState (first : KernelLeads sched.processes) (now : UInt64) (tid : Tid)
    (state : ThreadState) :
    KernelLeads (sched.setThreadState now tid state).processes :=
  (first.setKernelThreadState now tid state).1

theorem threadState_setThreadState (first : KernelLeads sched.processes) (now : UInt64) (tid : Tid)
    (state : ThreadState) (other : Tid) :
    (sched.setThreadState now tid state).threadState other =
      if other = tid then (sched.threadState other).map fun _ => state
      else sched.threadState other :=
  (first.setKernelThreadState now tid state).2 other

/-- A new task has a block of its own and a ready thread. -/
theorem addTask_spec (first : KernelLeads sched.processes)
    (added : sched.addTask stackStart = some (tid, after)) :
    KernelLeads after.processes ∧
      sched.threadState tid = none ∧
      (∀ other, after.threadState other =
        if other = tid then some .ready else sched.threadState other) ∧
      after = { sched with
        tasks := sched.tasks.insert (.new tid stackStart)
        processes := after.processes } := by
  unfold addTask at added
  split at added
  · cases added
  · rename_i created processes createdEq
    cases added
    obtain ⟨firstAfter, fresh, states⟩ := first.createKernelThread createdEq
    exact ⟨firstAfter, fresh, states, rfl⟩

/-- A current task other than the idle one waits behind the others. -/
theorem requeueCurrent_eq
    (current : sched.currentTaskId = some tid)
    (notIdle : sched.idleTaskId ≠ some tid) :
    sched.requeueCurrent now = sched.markTaskReady now tid := by
  simp only [requeueCurrent, current]
  exact if_neg fun idle => notIdle idle.symm

/-- No blocked task is to be woken at the tick. -/
def Undisturbed (sched : Scheduler) (tick : UInt64) : Prop :=
  ∀ task ∈ sched.tasks.items, sched.dueAt tick task = false

theorem wakeSleepingTasksAt_eq (undisturbed : sched.Undisturbed tick) :
    sched.wakeSleepingTasksAt tick = sched := by
  have none_due : sched.tasks.items.filter (sched.dueAt tick) = [] :=
    List.filter_eq_nil_iff.mpr fun task taskMem => by simp [undisturbed task taskMem]
  have kept : sched.tasks.modifyAll
      (fun task =>
        if sched.dueAt tick task then { task with wakeAtTick := none } else task)
      (by intro task; split_ifs <;> rfl) = sched.tasks :=
    sched.tasks.modifyAll_eq_self _ _ fun task taskMem => by
      simp [undisturbed task taskMem]
  rw [wakeSleepingTasksAt, none_due, kept, List.map_nil, List.append_nil]

/-- While no one is to be woken, the first task of the queue is next. -/
theorem schedule_cons
    (undisturbed : sched.Undisturbed now)
    (queue : sched.readyQueue = tid :: waiting) :
    sched.schedule now = (some tid, { sched with readyQueue := waiting }) := by
  simp only [schedule, wakeSleepingTasksAt_eq undisturbed, queue]

/-- While no one is to be woken and no one waits, the idle task is next. -/
theorem schedule_nil (undisturbed : sched.Undisturbed now) (queue : sched.readyQueue = []) :
    sched.schedule now = (sched.idleTaskId, sched) := by
  simp only [schedule, wakeSleepingTasksAt_eq undisturbed, queue]

end Scheduler

end Vantara
