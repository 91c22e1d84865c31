import Vantara.Properties.Resources

/-!
# The background reaper

The reaper gives up the records of background programs that have ended.  It looks
at the job mode only, although a shell may wait for a background program too; the
status it then waits for is lost.
-/

namespace Vantara

open Foundation

namespace ProcessTable

variable {table : ProcessTable} {test : Process → Bool} {pid : Pid} {process : Process}

/-- A sweep changes each record it visits once. -/
theorem get_sweep_of_visited
    {sweep : ProcessTable → Pid → ProcessTable} {change : Process → Process} {pids : List Pid}
    (frame : ∀ {table pid other}, other ≠ pid → (sweep table pid).get other = table.get other)
    (changes : ∀ {table pid process}, table.get pid = some process →
      (sweep table pid).get pid = some (change process))
    (distinct : pids.Nodup)
    (visited : pid ∈ pids)
    (found : table.get pid = some process) :
    (pids.foldl sweep table).get pid = some (change process) := by
  induction pids generalizing table with
  | nil => cases visited
  | cons first rest ih =>
    obtain ⟨firstOnce, restDistinct⟩ := List.nodup_cons.mp distinct
    rcases List.mem_cons.mp visited with rfl | later
    · exact (get_sweep frame firstOnce).trans (changes found)
    · have differ : pid ≠ first := fun same => firstOnce (same ▸ later)
      exact ih restDistinct later ((frame differ).trans found)

/-- The reaper gives up the records it looks for. -/
theorem get_reapAll_of_due (found : table.get pid = some process) (due : test process = true) :
    (table.reapAll test).get pid = some (process.setState .reaped) := by
  have visited : pid ∈ (table.values.filter test).map Process.pid := by
    obtain rfl := pid_of_get found
    exact List.mem_map_of_mem (List.mem_filter.mpr ⟨KeyedStore.mem_of_get found, due⟩)
  refine @get_sweep_of_visited table pid process _ (Process.setState · .reaped) _ ?_ ?_
    (sweep_targets table test).1 visited found
  · exact frame_reap
  · intro table pid process found
    obtain rfl := pid_of_get found
    simp [found]

/-- Some process waits for this one. -/
def awaited (table : ProcessTable) (pid : Pid) : Bool :=
  table.values.any fun process => decide (process.waitingFor = some pid)

/-- Nobody waits for a background program that has ended. -/
def reapsUnwaitedOnly (table : ProcessTable) : Bool :=
  table.values.all fun process =>
    decide (process.state = .zombie ∧ process.jobMode = .background →
      table.awaited process.pid = false)

/-- The reaper leaves every ended process with a waiter as it is and gives up every background
one without if and only if nobody waits for an ended background program. -/
theorem reapUnwaitedZombies_respects_waiters (table : ProcessTable) :
    ((∀ pid process, table.get pid = some process → process.state = .zombie →
      table.awaited pid = true → table.reapUnwaitedZombies.get pid = some process) ∧
    ∀ pid process, table.get pid = some process → process.state = .zombie →
      process.jobMode = .background → table.awaited pid = false →
        table.reapUnwaitedZombies.get pid = some (process.setState .reaped)) ↔
      table.reapsUnwaitedOnly = true := by
  have due : ∀ pid process, table.get pid = some process → process.state = .zombie →
      process.jobMode = .background →
        table.reapUnwaitedZombies.get pid = some (process.setState .reaped) :=
    fun _ _ found zombie background => get_reapAll_of_due found (by simp [zombie, background])
  constructor
  · rintro ⟨spared, -⟩
    refine List.all_eq_true.mpr fun process listed => decide_eq_true ?_
    rintro ⟨zombie, background⟩
    have found := table.processes.get_of_mem listed
    refine eq_false_of_ne_true fun isAwaited => ?_
    have same := (spared _ _ found zombie isAwaited).symm.trans (due _ _ found zombie background)
    have reaped := congrArg (Option.map Process.state) same
    simp [zombie] at reaped
  · intro unwaited
    refine ⟨?_, fun _ _ found zombie background _ => due _ _ found zombie background⟩
    intro pid process found zombie isAwaited
    refine get_reapAll_of_spared found ?_
    have noWaiter := of_decide_eq_true
      (List.all_eq_true.mp unwaited process (KeyedStore.mem_of_get found))
    rw [pid_of_get found, isAwaited] at noWaiter
    simp only [zombie, true_and, Bool.true_eq_false, imp_false] at noWaiter
    simp [noWaiter]

end ProcessTable

namespace Kernel

/-- The table when the background program of `abandonRun` has ended: the shell waits for it. -/
def awaitedBackgroundExit : ProcessTable := (abandonKernel.markCurrentUserExited 7).2.table

/-- The reaper takes the status away from the waiting shell. -/
theorem reapUnwaitedZombies_takes_awaited :
    Transition.run step privateMachine abandonRun = some abandonKernel ∧
      (awaitedBackgroundExit.get 1).map Process.waitingFor = some (some 2) ∧
      (awaitedBackgroundExit.get 2).map Process.state = some .zombie ∧
      (awaitedBackgroundExit.get 2).map Process.exitStatus = some (some 7) ∧
      (awaitedBackgroundExit.resumeWaitingParent 0 1 2).isSome = true ∧
      (awaitedBackgroundExit.reapUnwaitedZombies.get 2).map Process.state = some .reaped ∧
      (awaitedBackgroundExit.reapUnwaitedZombies.resumeWaitingParent 0 1 2).isSome = false := by
  refine ⟨(Option.some_get _).symm, by decide +kernel, by decide +kernel, by decide +kernel,
    by decide +kernel, by decide +kernel, by decide +kernel⟩

end Kernel

end Vantara
