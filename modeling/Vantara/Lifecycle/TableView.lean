import Vantara.Lifecycle.Moves
import Vantara.User.ProcessTable.Schedule

/-!
# How table operations change the view

Each primitive of the process table is described by its effect on the view, so
that the operations built from them can be matched with moves.
-/

namespace Vantara

open Foundation Lifecycle

namespace Thread

@[simp] theorem view_stopRun : (stopRun now thread).view = thread.view := by
  simp [view]

@[simp] theorem view_startRun : (startRun now thread).view = thread.view := rfl

end Thread

namespace Process

variable {process : Process}

/-- The main thread is there. -/
@[simp] theorem get_mainTid : process.threads.get process.mainTid = some process.mainThread :=
  process.threads.get_mainTid

/-- A thread of the process, in the view. -/
theorem view_thread (owns : process.threads.get tid = some owned) :
    process.view.threads tid = some owned.view := by
  simp [owns]

theorem view_main : process.view.threads process.view.mainTid = some process.mainThread.view := by
  simp

@[simp] theorem view_setWaitingFor :
    (process.setWaitingFor child).view = { process.view with waitingFor := child } := rfl

@[simp] theorem view_setSleepingUntil :
    (process.setSleepingUntil tick).view = { process.view with sleepingUntil := tick } := rfl

@[simp] theorem view_setExitStatus :
    (process.setExitStatus left).view = { process.view with status := some left } := rfl

@[simp] theorem mainThread_setWaitingFor :
    (process.setWaitingFor child).mainThread = process.mainThread := rfl

@[simp] theorem mainThread_setSleepingUntil :
    (process.setSleepingUntil tick).mainThread = process.mainThread := rfl

@[simp] theorem mainTid_setWaitingFor :
    (process.setWaitingFor child).mainTid = process.mainTid := rfl

@[simp] theorem mainTid_setSleepingUntil :
    (process.setSleepingUntil tick).mainTid = process.mainTid := rfl

@[simp] theorem mainTid_modifyMainThread :
    (process.modifyMainThread change keepsTid).mainTid = process.mainTid := rfl

@[simp] theorem mainTid_refreshStateFromThreads :
    process.refreshStateFromThreads.mainTid = process.mainTid := rfl

/-- The view of a process one of whose threads changes. -/
theorem view_modifyThread (found : process.threads.get tid = some thread) :
    (process.modifyThread tid change keepsTid).view =
      process.view.setThread tid (change thread).view := by
  refine ProcessView.ext rfl rfl rfl rfl rfl rfl rfl rfl ?_
  funext other
  by_cases same : other = tid
  · subst same
    simp [modifyThread, found]
  · simp [modifyThread, same]

theorem view_modifyMainThread :
    (process.modifyMainThread change keepsTid).view =
      process.view.setThread process.mainTid (change process.mainThread).view :=
  view_modifyThread get_mainTid

/-- A change of a thread that its view does not show. -/
theorem view_modifyThread_of_view_eq (sameView : ∀ thread, (change thread).view = thread.view) :
    (process.modifyThread tid change keepsTid).view = process.view := by
  refine ProcessView.ext rfl rfl rfl rfl rfl rfl rfl rfl ?_
  funext other
  by_cases same : other = tid <;> simp [same, Function.comp_def, sameView]

@[simp] theorem view_stopRun : (process.stopRun now).view = process.view :=
  view_modifyThread_of_view_eq fun _ => Thread.view_stopRun

@[simp] theorem view_takeManagedStackRelease :
    (process.takeManagedStackRelease tid).2.view = process.view := by
  unfold takeManagedStackRelease
  split
  · split_ifs
    · split
      · exact view_modifyThread_of_view_eq fun _ => rfl
      · rfl
    · rfl
  · rfl

@[simp] theorem pid_takeManagedStackRelease :
    (process.takeManagedStackRelease tid).2.pid = process.pid := by
  unfold takeManagedStackRelease
  split
  · split_ifs
    · split <;> rfl
    · rfl
  · rfl

@[simp] theorem mainThread_modifyMainThread :
    (process.modifyMainThread change keepsTid).mainThread = change process.mainThread := by
  have found : (process.modifyMainThread change keepsTid).threads.get process.mainTid =
      some (change process.mainThread) := by
    simp [modifyMainThread, modifyThread]
  have main := @get_mainTid (process.modifyMainThread change keepsTid)
  exact Option.mem_unique main found

theorem view_setState_of_live (next : ProcessState) (live : next.terminal = false) :
    (process.setState next).view =
      process.view.setMain next
        { process.mainThread.view with state := threadStateForProcess next } := by
  refine ProcessView.ext rfl rfl rfl rfl rfl rfl rfl ?_ ?_
  · simp [mainTid, setState]
  · funext other
    change ((process.threads.applyProcessState next).get other).map Thread.view = _
    rw [ThreadStore.get_applyProcessState_of_live _ live]
    change Option.map Thread.view (if other = process.mainTid then _ else _) = _
    by_cases same : other = process.mainTid
    · subst same
      simp [Thread.view]
    · simp [same]

/-- The view of a process that changes its main thread and enters a state. -/
theorem view_setState_modifyMainThread (live : next.terminal = false) :
    ((process.modifyMainThread change keepsTid).setState next).view =
      process.view.setMain next
        { (change process.mainThread).view with state := threadStateForProcess next } := by
  rw [view_setState_of_live _ live, view_modifyMainThread, mainThread_modifyMainThread]
  refine ProcessView.ext rfl rfl rfl rfl rfl rfl rfl rfl ?_
  funext other
  by_cases same : other = process.mainTid <;> simp [same]

@[simp] theorem mainThread_stopRun :
    (process.stopRun now).mainThread = process.mainThread.stopRun now :=
  mainThread_modifyMainThread

theorem view_setState_of_terminal (next : ProcessState) (terminal : next.terminal = true) :
    (process.setState next).view = process.view.ended next := by
  refine ProcessView.ext rfl rfl rfl rfl rfl rfl rfl ?_ ?_
  · simp [mainTid, setState]
  · funext other
    change ((process.threads.applyProcessState next).get other).map Thread.view = _
    rw [ThreadStore.get_applyProcessState_of_terminal _ terminal]
    simp [Thread.view, Function.comp_def]

theorem anyIn_view : process.view.AnyIn sought ↔ process.threads.anyIn sought = true := by
  rw [ThreadStore.anyIn_eq_true_iff]
  constructor
  · rintro ⟨tid, thread, found, inState⟩
    obtain ⟨original, foundOriginal, rfl⟩ := Option.map_eq_some_iff.mp found
    exact ⟨tid, original, foundOriginal, inState⟩
  · rintro ⟨tid, thread, found, inState⟩
    exact ⟨tid, thread.view, by simp [found], inState⟩

theorem summary_view : process.view.summary = process.threads.summary := by
  simp only [ProcessView.summary, ThreadStore.summary, anyIn_view]

@[simp] theorem view_refreshStateFromThreads :
    process.refreshStateFromThreads.view = process.view.refresh := by
  unfold refreshStateFromThreads ProcessView.refresh
  rw [summary_view]
  rfl

theorem mem_tids_view : tid ∈ process.view.tids ↔ (process.threads.get tid).isSome = true := by
  simp [ProcessView.tids]

end Process

namespace Lifecycle

@[simp] theorem View.setProcess_setProcess {view : View} :
    (view.setProcess pid old).setProcess pid new = view.setProcess pid new := by
  refine View.ext ?_ rfl rfl rfl rfl rfl rfl
  funext other
  by_cases same : other = pid <;> simp [same]

end Lifecycle

namespace ProcessTable

variable {table : ProcessTable} {unborn : Set Pid} {cpu : Option (Pid × Tid)}

@[simp] theorem get_putProcess :
    (table.putProcess process).get pid =
      if pid = process.pid then some process else table.get pid :=
  KeyedStore.get_insert _ _

theorem pid_of_get (found : table.get pid = some process) : process.pid = pid :=
  KeyedStore.key_of_get found

/-- Looking a thread up finds a process of the table that has it. -/
theorem getByTid_spec (found : table.getByTid tid = some process) :
    table.get process.pid = some process ∧ ∃ thread, process.threads.get tid = some thread :=
  ⟨KeyedStore.get_of_mem (List.mem_of_find?_eq_some found),
    Option.isSome_iff_exists.mp (by simpa using List.find?_some found)⟩

theorem exists_getByTid
    (found : table.get pid = some process)
    (owns : process.threads.get tid = some owned) :
    ∃ owner, table.getByTid tid = some owner := by
  refine Option.isSome_iff_exists.mp (List.find?_isSome.mpr ⟨process, ?_, by simp [owns]⟩)
  exact KeyedStore.mem_of_get found

/-- A process of the table, in the view. -/
theorem view_found (found : table.get pid = some process) :
    (table.view unborn cpu).process pid = some process.view := by
  simp [found]

@[simp] theorem mem_view_queue :
    tid ∈ (table.view unborn cpu).queue ↔ tid ∈ table.readyQueue := Iff.rfl

@[simp] theorem view_putProcess :
    (table.putProcess process).view unborn cpu =
      (table.view unborn cpu).setProcess process.pid process.view := by
  refine View.ext ?_ rfl rfl rfl rfl rfl rfl
  funext other
  by_cases same : other = process.pid <;> simp [same]

@[simp] theorem view_record :
    (table.record event).view unborn cpu =
      { table.view unborn cpu with
        trace := event :: (table.view unborn cpu).trace } := rfl

@[simp] theorem view_enqueueReady :
    (table.enqueueReady tid).view unborn cpu =
      { table.view unborn cpu with
        queue := insert tid (table.view unborn cpu).queue } := by
  refine View.ext rfl ?_ rfl rfl rfl rfl rfl
  ext other
  simp [view, enqueueReady]

theorem view_removeFromReadyQueue (found : table.get pid = some process) :
    (table.removeFromReadyQueue pid).view unborn cpu =
      { table.view unborn cpu with
        queue := (table.view unborn cpu).queue \ process.view.tids } := by
  refine View.ext rfl ?_ rfl rfl rfl rfl rfl
  ext other
  simp only [view, removeFromReadyQueue, found, UniqueQueue.mem_retain, Set.mem_ofPred_eq,
    Set.mem_sdiff, Process.mem_tids_view]
  refine and_congr_right fun _ => ?_
  rw [Bool.not_eq_true', ← Bool.not_eq_true, List.contains_iff_mem]
  refine not_congr ⟨fun listed => ?_, fun owned => ?_⟩
  · obtain ⟨thread, listedThread, rfl⟩ := List.mem_map.mp listed
    simp [ThreadStore.mem_values_iff.mp listedThread]
  · obtain ⟨thread, owns⟩ := Option.isSome_iff_exists.mp owned
    obtain rfl := ThreadStore.tid_of_get owns
    exact List.mem_map.mpr ⟨thread, ThreadStore.mem_values_iff.mpr owns, rfl⟩

theorem view_removeFromReadyQueue_of_absent (absent : table.get pid = none) :
    (table.removeFromReadyQueue pid).view unborn cpu = table.view unborn cpu := by
  refine View.ext rfl ?_ rfl rfl rfl rfl rfl
  ext other
  simp [view, removeFromReadyQueue, absent]

@[simp] theorem view_stopProcessRun :
    (table.stopProcessRun pid).view unborn cpu = table.view unborn cpu := by
  unfold stopProcessRun
  split_ifs <;> rfl

@[simp] theorem view_releaseThreadStack :
    (table.releaseThreadStack slot).view unborn cpu = table.view unborn cpu := by
  cases slot <;> rfl

@[simp] theorem get_removeFromReadyQueue :
    (table.removeFromReadyQueue pid).get other = table.get other := rfl

@[simp] theorem get_stopProcessRun : (table.stopProcessRun pid).get other = table.get other := by
  unfold stopProcessRun
  split_ifs <;> rfl

@[simp] theorem get_record : (table.record event).get pid = table.get pid := rfl

@[simp] theorem get_enqueueReady : (table.enqueueReady tid).get pid = table.get pid := rfl

@[simp] theorem trace_record : (table.record event).trace = event :: table.trace := rfl

/-- Rewriting fields that the view does not keep does not change it. -/
theorem view_putProcess_of_view_eq
    (found : table.get pid = some process)
    (samePid : changed.pid = process.pid)
    (sameView : changed.view = process.view) :
    (table.putProcess changed).view unborn cpu = table.view unborn cpu := by
  obtain rfl := pid_of_get found
  refine View.ext ?_ rfl rfl rfl rfl rfl rfl
  funext other
  by_cases same : other = process.pid <;> simp [same, samePid, sameView, found]

end ProcessTable

end Vantara
