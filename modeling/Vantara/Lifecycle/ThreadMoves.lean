import Vantara.Lifecycle.Sound
import Vantara.Lifecycle.TableView

/-!
# Operations on threads as moves

Creating, exiting, joining, blocking, waking and yielding a thread are single
moves of the view, provided that thread identifiers are left to draw.
-/

namespace Vantara

open Foundation Lifecycle
open Option (bind_eq_bind bind_eq_some_iff bind_some map_eq_some_iff map_map)
open Process (view_modifyThread view_refreshStateFromThreads view_thread)

namespace ThreadStore

theorem view_insert {process : Process} (inserted : process.threads.insert thread = some extended) :
    (process.setThreads extended).view = process.view.setThread thread.tid thread.view := by
  obtain ⟨-, sameMain, threads⟩ := insert_eq_some inserted
  refine ProcessView.ext rfl rfl rfl rfl rfl rfl rfl sameMain ?_
  funext other
  by_cases same : other = thread.tid <;> simp [threads, same]

end ThreadStore

namespace ProcessTable

variable {table : ProcessTable} {unborn : Set Pid} {cpu : Option (Pid × Tid)}

/-- Whether a thread identifier can still be drawn for one thread only. -/
def tidsLeft (table : ProcessTable) : Prop :=
  table.nextTid.toNat + 1 < 2 ^ 32

instance (table : ProcessTable) : Decidable table.tidsLeft :=
  inferInstanceAs (Decidable (_ < _))

/-- In a sound view, looking a thread up finds the process that has it. -/
theorem getByTid_eq (sound : Sound (table.view unborn cpu))
    (found : table.get pid = some process)
    (owns : process.threads.get tid = some owned) :
    table.getByTid tid = some process := by
  obtain ⟨owner, foundOwner⟩ := exists_getByTid found owns
  obtain ⟨inTable, other, otherThread⟩ := getByTid_spec foundOwner
  have samePid : owner.pid = pid :=
    sound.oneOwner (view_found inTable) (view_found found)
      (by rw [view_thread otherThread]; rfl) (by rw [view_thread owns]; rfl)
  rw [samePid, found] at inTable
  rw [foundOwner, inTable]

/-- A user thread that runs, as the table has it. -/
structure Runs
    (table : ProcessTable) (pid : Pid) (tid : Tid) (process : Process) (owned : Thread) :
    Prop where
  found : table.get pid = some process
  user : process.kind = .userProcess
  live : process.state.terminal = false
  owns : process.threads.get tid = some owned
  threadRuns : owned.state = .running

/-- The thread on the processor runs. -/
theorem runs_of_sound (sound : Sound (table.view unborn (some (pid, tid)))) :
    ∃ process owned, table.Runs pid tid process owned ∧ process.state = .running ∧
      table.getByTid tid = some process := by
  obtain ⟨view, threadView, found, user, running, owns, threadRuns⟩ :=
    sound.onCpu rfl
  obtain ⟨process, inTable, rfl⟩ := map_eq_some_iff.mp found
  obtain ⟨owned, inProcess, rfl⟩ := map_eq_some_iff.mp owns
  have live : process.state.terminal = false := by
    rw [show process.state = .running from running]
    rfl
  exact ⟨process, owned, ⟨inTable, user, live, inProcess, threadRuns⟩, running,
    getByTid_eq sound inTable inProcess⟩

theorem view_reserveTid (left : table.tidsLeft) :
    table.reserveTid.2.view unborn cpu =
      { table.view unborn cpu with tidBound := table.nextTid.toNat + 1 } := by
  have bound : (Word.saturatingSucc table.nextTid).toNat = table.nextTid.toNat + 1 := by
    rw [Word.toNat_saturatingSucc]
    unfold tidsLeft at left
    omega
  refine View.ext rfl rfl ?_ rfl rfl rfl rfl
  exact bound

section

variable (left : table.tidsLeft) (found : table.get pid = some process)
  (current : cpu = some (pid, caller))
include left found current

/-- A thread is admitted to the process on the processor. -/
theorem admitThread_moves
    (admitted : table.reserveTid.2.admitThread process starting = some after)
    (drawn : starting.tid = table.nextTid)
    (starts : starting.view = .starting context) :
    Moves (table.view unborn cpu) (.spawn pid table.nextTid)
      (after.view unborn cpu) := by
  obtain rfl := pid_of_get found
  obtain ⟨threads, inserted, ⟨⟩⟩ := bind_eq_some_iff.mp admitted
  refine (Moves.spawn context current (view_found found) rfl).of_eq ?_
  simp only [view_enqueueReady, view_putProcess, view_reserveTid left,
    view_refreshStateFromThreads, ThreadStore.view_insert inserted, drawn, starts]
  rfl

/-- Creating a thread on a supplied stack. -/
theorem createUserThread_trail :
    FreeTrail (table.view unborn cpu)
      ((table.createUserThread pid entry stackStart stackTop initialRsp arg).2.view unborn
        cpu) := by
  simp only [createUserThread, found]
  split_ifs with refused
  · exact .start
  · split
    · next admitted inserted =>
        exact .single rfl (admitThread_moves left found current inserted rfl rfl)
    · refine .single rfl ((Moves.drawTid (Nat.le_succ table.nextTid.toNat)).of_eq ?_)
      exact view_reserveTid left

/-- Creating a thread on a stack slot of the private address space. -/
theorem createManagedUserThread_trail :
    FreeTrail (table.view unborn cpu)
      ((table.createManagedUserThread pid entry arg).2.view unborn cpu) := by
  simp only [createManagedUserThread, found]
  split_ifs with refused
  · exact .start
  · split
    · exact .start
    · next p4Frame hasFrame =>
        -- The pool of private address spaces is not part of the view.
        generalize table.privatePool.reserveStackSlot p4Frame
          process.addressSpace.layout.stackTop = slot
        have sameView : ({ table with privatePool := slot.2 } : ProcessTable).view unborn
            cpu = table.view unborn cpu := rfl
        split
        · exact .start
        · next stackStart stackTop hasSlot =>
            split
            · exact .start
            · rw [← sameView]
              split
              · next admitted inserted =>
                  exact .single rfl
                    (admitThread_moves (by exact left) (by exact found) current inserted rfl rfl)
              · refine .single rfl ((Moves.drawTid (Nat.le_succ table.nextTid.toNat)).of_eq ?_)
                exact view_reserveTid left

end

section

variable (unborn) (now : UInt64) (context : UserResumeContext)
  (runs : table.Runs pid tid process owned) (owner : table.getByTid tid = some process)
include unborn now context runs owner

/-- Blocking the thread on the processor. -/
theorem blockThread_moves :
    ∃ blocked, table.blockThread now tid context = some blocked ∧
      Moves (table.view unborn (some (pid, tid))) (.park pid tid (.blocks context))
        (blocked.view unborn none) := by
  obtain ⟨found, user, live, owns, threadRuns⟩ := runs
  obtain rfl := pid_of_get found
  refine ⟨_, by simp [blockThread, owner, owns, threadRuns]; rfl, ?_⟩
  refine (Moves.park_blocked rfl (view_found found) (view_thread owns)
    (.blocks none) rfl).of_eq ?_
  simp only [view_record, view_putProcess, view_refreshStateFromThreads,
    view_modifyThread owns]
  rfl

/-- The thread on the processor yields it. -/
theorem markThreadYielded_moves :
    ∃ yielded, table.markThreadYielded now tid context = some yielded ∧
      Moves (table.view unborn (some (pid, tid))) (.park pid tid (.yields context))
        (yielded.view unborn none) := by
  obtain ⟨found, user, live, owns, threadRuns⟩ := runs
  obtain rfl := pid_of_get found
  refine ⟨_, by simp [markThreadYielded, owner, owns, threadRuns]; rfl, ?_⟩
  refine (Moves.park_ready none rfl (view_found found) (view_thread owns)
    .yields (.inl rfl) rfl).of_eq ?_
  simp only [view_record, view_enqueueReady, view_putProcess, Process.view_setSleepingUntil,
    view_refreshStateFromThreads, view_modifyThread owns]
  rfl

end

/-- The thread on the processor is diverted to a signal handler. -/
theorem activateRunningSignalHandler_moves
    (runs : table.Runs pid tid process owned)
    (activated : table.activateRunningSignalHandler now pid tid signal handler original =
      some after) :
    Moves (table.view unborn (some (pid, tid))) (.park pid tid (.entersHandler original))
      (after.view unborn none) := by
  obtain ⟨found, user, live, owns, threadRuns⟩ := runs
  obtain rfl := pid_of_get found
  simp only [activateRunningSignalHandler, found, owns, threadRuns, bind_eq_bind,
    bind_some, ne_eq, not_true_eq_false, false_or] at activated
  split_ifs at activated with active
  cases activated
  refine (Moves.park_ready process.sleepingUntilTick rfl (view_found found)
    (view_thread owns)
    (.entersHandler handler signal (by simpa using active)) (.inr rfl) rfl).of_eq ?_
  simp only [view_record, view_enqueueReady, view_putProcess,
    view_refreshStateFromThreads, view_modifyThread owns,
    Thread.stopRun_waitingFor]
  rfl

/-- The thread on the processor returns from its signal handler. -/
theorem restoreSignalContext_moves
    (runs : table.Runs pid tid process owned)
    (restored : table.restoreSignalContext now pid tid = some after) :
    ∃ original, Moves (table.view unborn (some (pid, tid)))
      (.park pid tid (.leavesHandler original)) (after.view unborn none) := by
  obtain ⟨found, user, live, owns, threadRuns⟩ := runs
  obtain rfl := pid_of_get found
  simp only [restoreSignalContext, found, owns, threadRuns, bind_eq_bind,
    bind_some, ne_eq, not_true_eq_false, if_false] at restored
  obtain ⟨original, active, ⟨⟩⟩ := bind_eq_some_iff.mp restored
  refine ⟨original, (Moves.park_ready process.sleepingUntilTick rfl (view_found found)
    (view_thread owns)
    (.leavesHandler active) (.inr rfl) rfl).of_eq ?_⟩
  simp only [view_record, view_enqueueReady, view_putProcess,
    view_refreshStateFromThreads, view_modifyThread owns,
    Thread.stopRun_waitingFor]
  rfl

/-- Waking a thread of the process on the processor. -/
theorem wakeThread_moves
    (sound : Sound (table.view unborn (some (pid, caller))))
    (belongs : ∀ other process, table.get other = some process →
      (process.threads.get tid).isSome = true → other = pid)
    (woken : table.wakeThread tid 0 = some after) :
    Moves (table.view unborn (some (pid, caller))) (.wake pid tid)
      (after.view unborn (some (pid, caller))) := by
  obtain ⟨process, owner, rest⟩ := bind_eq_some_iff.mp woken
  obtain ⟨found, owned, owns⟩ := getByTid_spec owner
  obtain rfl := belongs _ _ found (by simp [owns])
  simp only [owns, bind_eq_bind, bind_some] at rest
  split_ifs at rest with blocked
  obtain ⟨context, saved, ⟨⟩⟩ := bind_eq_some_iff.mp rest
  refine (Moves.wake rfl (view_found found) (view_thread owns)
    (by simpa using blocked) saved).of_eq ?_
  simp only [view_enqueueReady, view_putProcess, view_refreshStateFromThreads,
    view_modifyThread owns]
  rfl

/-- Joining a thread: the caller stays on the processor unless it blocks. -/
theorem joinThread_spec
    (runs : table.Runs pid caller process owned)
    (owner : table.getByTid caller = some process)
    (joined : table.joinThread now caller target context = (status, after)) :
    (status = .blocked ∧ Moves (table.view unborn (some (pid, caller)))
      (.park pid caller (.blocks context)) (after.view unborn none)) ∨
    (status ≠ .blocked ∧ FreeTrail (table.view unborn (some (pid, caller)))
      (after.view unborn (some (pid, caller)))) := by
  obtain ⟨found, user, live, owns, threadRuns⟩ := runs
  obtain rfl := pid_of_get found
  unfold joinThread at joined
  split_ifs at joined with isSelf
  · cases joined
    exact .inr ⟨by simp, .start⟩
  simp only [owner] at joined
  split at joined
  case h_2 => cases joined; exact .inr ⟨by simp, .start⟩
  next callerProcess targetProcess callerIs targetOwner =>
    obtain rfl : process = callerProcess := Option.some.inj callerIs
    split_ifs at joined with otherProcess
    · cases joined
      exact .inr ⟨by simp, .start⟩
    obtain ⟨targetFound, targetThread, inTarget⟩ := getByTid_spec targetOwner
    have samePid : targetProcess.pid = process.pid := by simpa using otherProcess
    obtain rfl : targetProcess = process :=
      Option.mem_unique targetFound (samePid ▸ found)
    simp only [inTarget, owns] at joined
    split_ifs at joined with reaped deadlock exited notRunning
    · cases joined
      exact .inr ⟨by simp, .start⟩
    · cases joined
      exact .inr ⟨by simp, .start⟩
    · cases joined
      refine .inr ⟨by simp, .single rfl ((Moves.reapThread rfl (view_found found)
        (view_thread inTarget) exited).of_eq ?_)⟩
      simp only [view_releaseThreadStack, view_putProcess, Process.view_takeManagedStackRelease,
        Process.pid_takeManagedStackRelease, reapedThread, view_modifyThread inTarget]
      rfl
    · cases joined
      exact .inr ⟨by simp, .start⟩
    · cases joined
      refine .inl ⟨rfl, (Moves.park_blocked rfl (view_found found)
        (view_thread owns) (.blocks (some target)) rfl).of_eq ?_⟩
      simp only [view_record, view_putProcess, view_refreshStateFromThreads,
        view_modifyThread owns, Thread.stopRun_signalReturnContext]
      rfl

theorem mem_foldl_enqueueReady {tids : List Tid} :
    queued ∈ (tids.foldl enqueueReady table).readyQueue ↔
      queued ∈ table.readyQueue ∨ queued ∈ tids := by
  induction tids generalizing table with
  | nil => simp
  | cons first rest ih =>
    rw [List.foldl_cons, ih]
    simp [enqueueReady]
    tauto

/-- Queueing threads changes nothing but the queue. -/
theorem view_foldl_enqueueReady {tids : List Tid} :
    (tids.foldl enqueueReady table).view unborn cpu =
      { table.view unborn cpu with
        queue := { queued | queued ∈ table.readyQueue ∨ queued ∈ tids } } := by
  have frame : (tids.foldl enqueueReady table).processes = table.processes ∧
      (tids.foldl enqueueReady table).nextTid = table.nextTid ∧
      (tids.foldl enqueueReady table).nextPid = table.nextPid ∧
      (tids.foldl enqueueReady table).trace = table.trace := by
    induction tids generalizing table with
    | nil => exact ⟨rfl, rfl, rfl, rfl⟩
    | cons first rest ih => exact ih
  refine View.ext ?_ ?_ (congrArg UInt32.toNat frame.2.1) (congrArg UInt32.toNat frame.2.2.1) rfl
    frame.2.2.2 rfl
  · funext pid
    simp [get, frame.1]
  · ext queued
    exact mem_foldl_enqueueReady

theorem joins_iff : joins tid owned = true ↔ owned.view.Joins tid := by
  simp [joins, ThreadView.Joins]

/-- The threads an exit wakes. -/
theorem mem_joiningTids {process : Process} :
    queued ∈ joiningTids (exitedThread process now tid) tid ↔
      queued ∈ process.view.joiners tid := by
  simp only [joiningTids, List.mem_map, List.mem_filter, ThreadStore.mem_values_iff,
    ProcessView.joiners, Set.mem_ofPred_eq]
  constructor
  · rintro ⟨owned, ⟨found, isJoining⟩, rfl⟩
    by_cases same : owned.tid = tid
    · simp only [exitedThread, Process.modifyThread_threads, same, ThreadStore.get_modify,
        if_true] at found
      obtain ⟨original, -, rfl⟩ := map_eq_some_iff.mp found
      simp [joins] at isJoining
    · refine ⟨owned.view, same, ?_, joins_iff.mp isJoining⟩
      simp only [exitedThread, Process.modifyThread_threads, ThreadStore.get_modify, same,
        if_false] at found
      simp [found]
  · rintro ⟨view, differ, found, isJoining⟩
    obtain ⟨owned, owns, rfl⟩ := map_eq_some_iff.mp found
    obtain rfl := ThreadStore.tid_of_get owns
    exact ⟨owned, ⟨by simp [exitedThread, differ, owns], joins_iff.mpr isJoining⟩, rfl⟩

/-- The view of the threads after an exit. -/
theorem view_wakeJoiners {process : Process} :
    (wakeJoiners (exitedThread process now tid) tid).view =
      process.view.exitThread tid .exited := by
  refine ProcessView.ext rfl rfl rfl rfl rfl rfl rfl rfl ?_
  funext other
  cases found : process.threads.get other with
  | none => simp [wakeJoiners, exitedThread, found]
  | some owned =>
    by_cases same : other = tid
    · subst same
      simp [wakeJoiners, exitedThread, found, joins, Thread.view]
    · by_cases isJoining : joins tid owned = true
      · simp [wakeJoiners, exitedThread, found, same, isJoining, joins_iff.mp isJoining]
        rfl
      · have notJoining : ¬owned.view.Joins tid := fun joining =>
          isJoining (joins_iff.mpr joining)
        simp [wakeJoiners, exitedThread, found, same, isJoining, notJoining]

theorem view_reapedThread_wakeJoiners {process : Process} :
    (reapedThread (wakeJoiners (exitedThread process now tid) tid) tid).view =
      process.view.exitThread tid .reaped := by
  refine ProcessView.ext rfl rfl rfl rfl rfl rfl rfl rfl ?_
  funext other
  have exited := congrArg (fun view => view.threads other)
    (@view_wakeJoiners now tid process)
  by_cases same : other = tid
  · subst same
    simp only [ProcessView.exitThread_threads, if_true, Process.view_threads] at exited ⊢
    simp only [reapedThread, Process.modifyThread_threads, ThreadStore.get_modify, if_true,
      map_map]
    calc
      _ = (((wakeJoiners (exitedThread process now other) other).threads.get other).map
            Thread.view).map fun view => { view with state := .reaped } := by
        rw [map_map]
        rfl
      _ = _ := by
        rw [exited, map_map, map_map]
        rfl
  · simpa [reapedThread, same] using exited

/-- However an exit is settled, it shows as the exit of one thread. -/
theorem view_settleExited {process : Process} :
    ∃ state : ThreadState, state.terminal = true ∧
      (settleExited (wakeJoiners (exitedThread process now tid) tid) tid woken).2.view =
        process.view.exitThread tid state := by
  unfold settleExited
  split_ifs
  · exact ⟨.reaped, rfl, by simp [view_reapedThread_wakeJoiners]⟩
  · exact ⟨.exited, rfl, view_wakeJoiners⟩

theorem pid_settleExited {process : Process} :
    (settleExited process tid woken).2.pid = process.pid := by
  unfold settleExited
  split_ifs
  · exact Process.pid_takeManagedStackRelease
  · rfl

/-- The thread on the processor exits unless it is the main thread. -/
theorem markThreadExited_moves
    (runs : table.Runs pid tid process owned)
    (byTid : table.getByTid tid = some process)
    (exited : table.markThreadExited now tid = some (owner, after)) :
    Moves (table.view unborn (some (pid, tid))) (.exitThread pid tid)
      (after.view unborn none) := by
  obtain ⟨found, user, live, owns, threadRuns⟩ := runs
  obtain rfl := pid_of_get found
  simp only [markThreadExited, byTid, bind_eq_bind, bind_some] at exited
  split_ifs at exited with isMain
  cases exited
  obtain ⟨state, terminal, sameView⟩ := @view_settleExited now tid
    (joiningTids (exitedThread process now tid) tid) process
  refine (Moves.exitThread rfl (view_found found) isMain terminal).of_eq ?_
  rw [view_releaseThreadStack, view_foldl_enqueueReady]
  refine View.ext ?_ ?_ rfl rfl rfl rfl rfl
  · have stored := @view_putProcess table unborn none
      (settleExited (wakeJoiners (exitedThread process now tid) tid) tid
        (joiningTids (exitedThread process now tid) tid)).2.refreshStateFromThreads
    rw [view_refreshStateFromThreads, sameView, Process.refreshStateFromThreads_pid,
      pid_settleExited] at stored
    have processes := congrArg View.process stored
    exact processes
  · ext queued
    simp [mem_joiningTids, putProcess]

end ProcessTable

end Vantara
