import Vantara.Lifecycle.ProcessMoves

/-!
# Collecting, resuming and sweeping as trails

Collecting a child, resuming a waiting parent, and the sweeps that give up
zombies, wake sleepers and forget old records.
-/

namespace Vantara

open Foundation Lifecycle

namespace ProcessTable

variable {table : ProcessTable} {unborn : Set Pid} {cpu : Option (Pid × Tid)}

/-- Collecting an ended child; a wait for it is given up. -/
theorem reapChild_trail (collected : table.reapChild parentPid childPid = some (status, after)) :
    after.trace = .collected parentPid childPid status :: table.trace ∧
      FreeTrail (table.view unborn cpu) (after.view unborn cpu) := by
  obtain ⟨child, found, rest⟩ := Option.bind_eq_some_iff.mp collected
  split_ifs at rest with notParent notOver
  cases rest
  have isOver : child.state = .exited ∨ child.state = .zombie := by
    by_contra neither
    push Not at neither
    exact notOver neither
  refine ⟨?_, Trail.trans (.single rfl (collect_moves found isOver (by simpa using notParent) rfl))
    ?_⟩
  · split
    · split_ifs <;> rfl
    · rfl
  split
  · next parent inTable =>
      split_ifs with waiting
      · obtain rfl := pid_of_get inTable
        refine .single rfl ((Moves.dropWait (view_found inTable) Process.view_main
          waiting).of_eq ?_)
        simp only [view_putProcess, Process.view_setMainContext, Process.view_setWaitingFor]
        rfl
      · exact .start
  · exact .start

end ProcessTable

namespace Process

variable {process : Process}

/-- The view of a process that enters the processor. -/
theorem view_startRun :
    (process.startRun now).view =
      process.view.setMain .running { process.mainThread.view with state := .running } :=
  (view_modifyThread_of_view_eq fun _ => Thread.view_startRun).trans
    (view_setState_of_live .running rfl)

/-- The view of a parent that is resumed on the processor. -/
theorem view_resumed :
    ((((process.setWaitingFor none).setSleepingUntil none).setMainContext none).startRun
      now).view =
      { process.view with waitingFor := none, sleepingUntil := none }.setMain .running
        { process.mainThread.view with state := .running, context := none } := by
  rw [view_startRun, mainThread_setMainContext, view_setMainContext]
  refine ProcessView.ext rfl rfl rfl rfl rfl rfl rfl rfl ?_
  funext other
  by_cases same : other = process.mainTid <;> simp [same]

@[simp] theorem mainTid_startRun : (process.startRun now).mainTid = process.mainTid :=
  ThreadStore.mainTid_applyProcessState

end Process

namespace ProcessTable

variable {table : ProcessTable} {unborn : Set Pid} {cpu : Option (Pid × Tid)}

theorem get_startProcessRun (found : table.get pid = some process) :
    (table.startProcessRun now pid).get other =
      if other = pid then some (process.startRun now) else table.get other := by
  obtain rfl := pid_of_get found
  simp only [startProcessRun, found, get_putProcess]
  rfl

theorem view_startProcessRun (found : table.get pid = some process) :
    (table.startProcessRun now pid).view unborn cpu =
      (table.view unborn cpu).setProcess pid (process.startRun now).view := by
  obtain rfl := pid_of_get found
  simp only [startProcessRun, found, view_putProcess]
  rfl

/-- When a parent can be resumed, and what its resumption does. -/
theorem resumeWaitingParent_spec
    (resumed : table.resumeWaitingParent now parentPid childPid = some (resume, after)) :
    ∃ child parent context, table.get childPid = some child ∧
      table.get parentPid = some parent ∧ child.parentPid = some parentPid ∧
      (child.state = .exited ∨ child.state = .zombie) ∧ parent.state = .blocked ∧
      parent.waitingFor = some childPid ∧ parent.mainThread.resumeContext = some context ∧
      after = ((((table.putProcess (child.setState .reaped)).record
        (.collected parentPid childPid (child.exitStatus.getD 0))).endWait
          parentPid).startProcessRun now parentPid).record
            (.dispatched parentPid parent.mainTid
              { context with rax := child.exitStatus.getD 0 }) := by
  obtain ⟨child, foundChild, rest⟩ := Option.bind_eq_some_iff.mp resumed
  split_ifs at rest with notParent notOver
  obtain ⟨parent, foundParent, rest⟩ := Option.bind_eq_some_iff.mp rest
  split_ifs at rest with notWaiting
  obtain ⟨context, saved, ⟨⟩⟩ := Option.bind_eq_some_iff.mp rest
  have isOver : child.state = .exited ∨ child.state = .zombie := by
    by_contra neither
    push Not at neither
    exact notOver neither
  push Not at notWaiting
  exact ⟨child, parent, context, foundChild, foundParent, by simpa using notParent, isOver,
    notWaiting.1, notWaiting.2, saved, rfl⟩

theorem get_endWait (found : table.get pid = some process) :
    (table.endWait pid).get pid =
      some (((process.setWaitingFor none).setSleepingUntil none).setMainContext none) := by
  obtain rfl := pid_of_get found
  simp [endWait, found]

theorem view_endWait (found : table.get pid = some process) :
    (table.endWait pid).view unborn cpu =
      (table.view unborn cpu).setProcess pid
        (((process.setWaitingFor none).setSleepingUntil none).setMainContext none).view := by
  obtain rfl := pid_of_get found
  simp [endWait, found]

/-- Putting a parent blocked on an ended child back on the processor. -/
theorem resumeWaitingParent_trail
    (user : ∀ parent, table.get parentPid = some parent → parent.kind = .userProcess)
    (resumed : table.resumeWaitingParent now parentPid childPid = some (resume, after)) :
    ∃ tid, (after.get parentPid).map Process.mainTid = some tid ∧
      FreeTrail (table.view unborn none) (after.view unborn (some (parentPid, tid))) := by
  obtain ⟨child, parent, context, foundChild, foundParent, isParent, isOver, blocked, waiting,
    saved, rfl⟩ := resumeWaitingParent_spec resumed
  have differ : parentPid ≠ childPid := by
    rintro rfl
    obtain rfl := Option.mem_unique foundChild foundParent
    simp [blocked] at isOver
  have first : Moves (table.view unborn none) _ _ :=
    collect_moves foundChild isOver isParent rfl
  have stays : ((table.putProcess (child.setState .reaped)).record
      (.collected parentPid childPid (child.exitStatus.getD 0))).get parentPid = some parent := by
    simp [pid_of_get foundChild, differ, foundParent]
  have history : ∃ earlier, ((table.putProcess (child.setState .reaped)).record
      (.collected parentPid childPid (child.exitStatus.getD 0))).trace =
        .collected parentPid childPid (child.exitStatus.getD 0) :: earlier :=
    ⟨_, rfl⟩
  generalize ((table.putProcess (child.setState .reaped)).record
      (.collected parentPid childPid (child.exitStatus.getD 0))) = collected at first stays history
  refine ⟨parent.mainTid, ?_, .next (.single rfl first) rfl
    ((Moves.resume _ rfl (view_found stays) Process.view_main (user parent foundParent) blocked
      waiting saved history).of_eq ?_)⟩
  · simp [get_startProcessRun (get_endWait stays)]
  · rw [view_record, view_startProcessRun (get_endWait stays), view_endWait stays,
      Process.view_resumed, View.setProcess_setProcess]
    rfl

/-- A sweep visits processes that were found to be due beforehand, each once, and
leaves the others alone. -/
theorem sweep_induct
    {motive : ProcessTable → Prop} (due : Process → Prop)
    {sweep : ProcessTable → Pid → ProcessTable} {pids : List Pid}
    (step : ∀ {table pid process}, motive table → table.get pid = some process →
      due process → motive (sweep table pid))
    (frame : ∀ {table pid other}, other ≠ pid → (sweep table pid).get other = table.get other)
    (distinct : pids.Nodup)
    (allDue : ∀ pid ∈ pids, ∃ process, table.get pid = some process ∧ due process)
    (start : motive table) :
    motive (pids.foldl sweep table) := by
  induction pids generalizing table with
  | nil => exact start
  | cons pid rest ih =>
    obtain ⟨notAgain, restDistinct⟩ := List.nodup_cons.mp distinct
    obtain ⟨process, found, isDue⟩ := allDue pid List.mem_cons_self
    refine ih restDistinct (fun other otherMem => ?_) (step start found isDue)
    have differ : other ≠ pid := fun same => notAgain (same ▸ otherMem)
    rw [frame differ]
    exact allDue other (List.mem_cons_of_mem _ otherMem)

/-- The processes that pass a test, named by their identifiers. -/
theorem sweep_targets (table : ProcessTable) (test : Process → Bool) :
    ((table.values.filter test).map Process.pid).Nodup ∧
      ∀ pid ∈ (table.values.filter test).map Process.pid,
        ∃ process, table.get pid = some process ∧ test process = true := by
  refine ⟨table.processes.keysDistinct.sublist (List.filter_sublist.map _), ?_⟩
  intro pid listed
  obtain ⟨process, processMem, rfl⟩ := List.mem_map.mp listed
  obtain ⟨inTable, passes⟩ := List.mem_filter.mp processMem
  exact ⟨process, KeyedStore.get_of_mem inTable, passes⟩

/-- Giving up one record leaves all others alone. -/
theorem frame_reap (differ : other ≠ pid) :
    ProcessTable.get
      (match table.get pid with
        | some process => table.putProcess (process.setState .reaped)
        | none => table) other = table.get other := by
  cases visited : table.get pid with
  | none => rfl
  | some process =>
    obtain rfl := pid_of_get visited
    simp [differ]

section Sweeps

variable {motive : ProcessTable → Prop} (start : motive table)
include start

theorem reapAll_induct
    {test : Process → Bool}
    (zombies : ∀ process, test process = true → process.state = .zombie)
    (step : ∀ {table process}, motive table → table.get process.pid = some process →
      process.state = .zombie → motive (table.putProcess (process.setState .reaped))) :
    motive (table.reapAll test) := by
  obtain ⟨distinct, listed⟩ := sweep_targets table test
  refine sweep_induct (fun process => process.state = .zombie) ?_ frame_reap distinct ?_ start
  · intro table pid process holds found zombie
    obtain rfl := pid_of_get found
    simpa only [found] using step holds found zombie
  · intro pid pidMem
    obtain ⟨process, found, passes⟩ := listed pid pidMem
    exact ⟨process, found, zombies process passes⟩

theorem wakeSleepingProcesses_induct
    (step : ∀ {table process}, motive table → table.get process.pid = some process →
      process.state = .blocked → process.sleepingUntilTick.isSome = true →
      motive ((table.putProcess ((process.setSleepingUntil none).setState .ready)).enqueueReady
        process.mainTid)) :
    motive (table.wakeSleepingProcesses now) := by
  refine sweep_induct (fun process => process.state = .blocked ∧
    process.sleepingUntilTick.isSome = true) ?_ ?_ (sweep_targets table _).1 ?_ start
  · intro table pid process holds found asleep
    obtain rfl := pid_of_get found
    simpa only [found] using step holds found asleep.1 asleep.2
  · intro table pid other differ
    cases found : table.get pid with
    | none => rfl
    | some process =>
      obtain rfl := pid_of_get found
      simp [differ]
  · intro pid pidMem
    obtain ⟨process, found, passes⟩ := (sweep_targets table _).2 pid pidMem
    refine ⟨process, found, ?_⟩
    cases sleeping : process.sleepingUntilTick <;> simp_all

theorem compactReapedHistory_induct
    (step : ∀ {table pid process}, motive table → table.get pid = some process →
      process.state = .reaped → motive { table.removeFromReadyQueue pid with
        processes := (table.removeFromReadyQueue pid).processes.remove pid }) :
    motive (table.compactReapedHistory keep) := by
  obtain ⟨distinct, listed⟩ := sweep_targets table
    (fun process => decide (process.state = .reaped))
  refine sweep_induct (fun process => process.state = .reaped) step ?_
    (distinct.sublist (List.take_sublist _ _)) ?_ start
  · intro table pid other differ
    exact (KeyedStore.get_remove _ _).trans (if_neg differ)
  · intro pid pidMem
    obtain ⟨process, found, passes⟩ := listed pid (List.mem_of_mem_take pidMem)
    exact ⟨process, found, of_decide_eq_true passes⟩

end Sweeps

/-- Giving up zombies. -/
theorem reapAll_trail (zombies : ∀ process, test process = true → process.state = .zombie) :
    FreeTrail (table.view unborn cpu) ((table.reapAll test).view unborn cpu) := by
  refine reapAll_induct (motive := fun after => FreeTrail (table.view unborn cpu)
    (after.view unborn cpu)) .start zombies ?_
  intro table process trail found zombie
  refine trail.trans (.single rfl ((Moves.reap (view_found found) zombie).of_eq ?_))
  simp [Process.view_setState_of_terminal .reaped rfl]

theorem reapOrphanZombies_trail :
    FreeTrail (table.view unborn cpu)
      (table.reapOrphanZombies.view unborn cpu) :=
  reapAll_trail (by simp +contextual)

theorem reapUnwaitedZombies_trail :
    FreeTrail (table.view unborn cpu)
      (table.reapUnwaitedZombies.view unborn cpu) :=
  reapAll_trail (by simp +contextual)

/-- Waking the processes whose sleep is over. -/
theorem wakeSleepingProcesses_trail :
    FreeTrail (table.view unborn cpu)
      ((table.wakeSleepingProcesses now).view unborn cpu) := by
  refine wakeSleepingProcesses_induct (motive := fun after =>
    FreeTrail (table.view unborn cpu) (after.view unborn cpu)) .start ?_
  intro table process trail found blocked asleep
  refine trail.trans (.single rfl
    ((Moves.awaken (view_found found) Process.view_main blocked asleep).of_eq ?_))
  simp only [view_enqueueReady, view_putProcess, Process.view_setState_of_live .ready rfl,
    Process.view_setSleepingUntil, Process.mainThread_setSleepingUntil]
  rfl

/-- Forgetting records that have been given up. -/
theorem compactReapedHistory_trail :
    FreeTrail (table.view unborn cpu)
      ((table.compactReapedHistory keep).view unborn cpu) := by
  refine compactReapedHistory_induct (motive := fun after =>
    FreeTrail (table.view unborn cpu) (after.view unborn cpu)) .start ?_
  intro table pid process trail found reaped
  refine trail.trans (.single rfl ((Moves.remove (view_found found) reaped).of_eq ?_))
  refine View.ext ?_ ?_ rfl rfl rfl rfl rfl
  · funext other
    by_cases same : other = pid <;> simp [view, get, removeFromReadyQueue, same]
  · have queue := congrArg View.queue
      (@view_removeFromReadyQueue table unborn cpu _ _ found)
    exact queue

end ProcessTable

end Vantara
