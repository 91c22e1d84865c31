import Vantara.User.Dispatch

/-!
# The copies of the current identifiers

The timer interrupt finds the thread on the processor through atomic copies of
the current identifiers.  Operations on other processes, and those after which
the calling thread stays on the processor, leave the copies alone.
-/

namespace Vantara

namespace ProcessTable

variable {table : ProcessTable}

/-- The copies of the identifiers on the processor. -/
def atomics (table : ProcessTable) : Pid × Tid :=
  (table.currentUserPidAtomic, table.currentUserTidAtomic)

@[simp] theorem atomics_putProcess : (table.putProcess process).atomics = table.atomics := rfl

@[simp] theorem atomics_record : (table.record event).atomics = table.atomics := rfl

@[simp] theorem atomics_releaseThreadStack :
    (table.releaseThreadStack slot).atomics = table.atomics := by
  cases slot <;> rfl

theorem atomics_joinThread :
    (table.joinThread now caller target context).2.atomics = table.atomics := by
  unfold joinThread
  repeat' split
  all_goals simp

theorem atomics_admitThread (admitted : table.admitThread process starting = some after) :
    after.atomics = table.atomics := by
  obtain ⟨threads, -, ⟨⟩⟩ := Option.bind_eq_some_iff.mp admitted
  rfl

theorem atomics_createUserThread :
    (table.createUserThread pid entry stackStart stackTop initialRsp arg).2.atomics =
      table.atomics := by
  unfold createUserThread
  split
  · rfl
  split_ifs
  · rfl
  dsimp only
  split
  · next inserted => exact (atomics_admitThread inserted).trans rfl
  · rfl

theorem atomics_createManagedUserThread :
    (table.createManagedUserThread pid entry arg).2.atomics = table.atomics := by
  unfold createManagedUserThread
  split
  · rfl
  split_ifs
  · rfl
  split
  · rfl
  dsimp only
  split
  · rfl
  split
  · rfl
  split
  · next inserted => exact (atomics_admitThread inserted).trans rfl
  · rfl

theorem atomics_wakeThread (woken : table.wakeThread tid value = some after) :
    after.atomics = table.atomics := by
  obtain ⟨process, -, rest⟩ := Option.bind_eq_some_iff.mp woken
  obtain ⟨owned, -, rest⟩ := Option.bind_eq_some_iff.mp rest
  split_ifs at rest
  obtain ⟨context, -, ⟨⟩⟩ := Option.bind_eq_some_iff.mp rest
  rfl

theorem atomics_reapChild (collected : table.reapChild parentPid childPid = some (status, after)) :
    after.atomics = table.atomics := by
  obtain ⟨child, -, rest⟩ := Option.bind_eq_some_iff.mp collected
  split_ifs at rest
  cases rest
  repeat' split
  all_goals rfl

theorem atomics_continueUserProcess
    (continued : table.continueUserProcess callerPid pid = some after) :
    after.atomics = table.atomics := by
  obtain ⟨caller, -, rest⟩ := Option.bind_eq_some_iff.mp continued
  obtain ⟨process, -, rest⟩ := Option.bind_eq_some_iff.mp rest
  split_ifs at rest
  cases rest
  rfl

/-- Stopping the run of another process than the current one. -/
theorem atomics_stopProcessRun (differ : table.currentUserPidAtomic ≠ pid) :
    (table.stopProcessRun pid).atomics = table.atomics := by
  rw [stopProcessRun, if_neg differ]

theorem atomics_markExited (differ : table.currentUserPidAtomic ≠ pid) :
    (table.markExited now pid status).atomics = table.atomics := by
  unfold markExited
  dsimp only
  split
  · exact atomics_stopProcessRun differ
  · rfl

theorem atomics_handOver : (table.handOver parent pid status).atomics = table.atomics := by
  unfold handOver
  repeat' split
  all_goals simp
  all_goals (repeat' split)
  all_goals rfl

theorem atomics_terminateUserProcess
    (differ : table.currentUserPidAtomic ≠ targetPid)
    (terminated : table.terminateUserProcess now callerPid targetPid status =
      .ok (report, after)) :
    after.atomics = table.atomics := by
  unfold terminateUserProcess at terminated
  split at terminated
  · cases terminated
  dsimp only at terminated
  split at terminated
  · cases terminated
    rw [atomics_handOver, atomics_markExited differ]
  · cases terminated
    exact atomics_markExited differ

theorem atomics_sendSignal
    (differ : table.currentUserPidAtomic ≠ targetPid)
    (sent : table.sendSignal now callerPid targetPid signal = .ok (delivery, after)) :
    after.atomics = table.atomics := by
  unfold sendSignal at sent
  split at sent
  · cases sent
  split at sent
  · cases sent
  split_ifs at sent
  · cases sent
    rfl
  · cases sent
    rfl
  · split at sent
    · next activated isActivated =>
        cases sent
        obtain ⟨process, -, rest⟩ := Option.bind_eq_some_iff.mp isActivated
        dsimp only at rest
        split_ifs at rest
        obtain ⟨original, -, ⟨⟩⟩ := Option.bind_eq_some_iff.mp rest
        rfl
    · cases sent
      rfl
  · split at sent
    · next report terminated isTerminated =>
        cases sent
        exact atomics_terminateUserProcess differ isTerminated
    · cases sent
theorem atomics_setSignalDisposition
    (changed : table.setSignalDisposition pid signal disposition = some (old, after)) :
    after.atomics = table.atomics := by
  unfold setSignalDisposition at changed
  split_ifs at changed
  obtain ⟨process, -, ⟨⟩⟩ := Option.bind_eq_some_iff.mp changed
  rfl

theorem atomics_updateSignalMask
    (changed : table.updateSignalMask pid how mask = some (update, after)) :
    after.atomics = table.atomics := by
  obtain ⟨process, -, rest⟩ := Option.bind_eq_some_iff.mp changed
  split_ifs at rest
  cases rest
  rfl

theorem atomics_setProcessGroup
    (changed : table.setProcessGroup callerPid targetPid group = .ok (moved, after)) :
    after.atomics = table.atomics := by
  unfold setProcessGroup at changed
  split at changed
  · dsimp only at changed
    generalize (if group = 0 then targetPid else group) = chosen at changed
    split_ifs at changed
    cases changed
    rfl
  · cases changed

theorem atomics_createSession (changed : table.createSession pid = .ok (moved, after)) :
    after.atomics = table.atomics := by
  unfold createSession at changed
  split at changed
  · cases changed
  · split_ifs at changed
    cases changed
    rfl

theorem atomics_setCredentials (changed : table.setCredentials pid credentials = some after) :
    after.atomics = table.atomics := by
  obtain ⟨process, -, ⟨⟩⟩ := Option.bind_eq_some_iff.mp changed
  rfl

theorem atomics_setCwd (changed : table.setCwd pid cwd = some after) :
    after.atomics = table.atomics := by
  obtain ⟨process, -, ⟨⟩⟩ := Option.bind_eq_some_iff.mp changed
  rfl

/-- Waking sleepers leaves the processor alone. -/
theorem atomics_wakeSleepingProcesses :
    (table.wakeSleepingProcesses now).atomics = table.atomics := by
  unfold wakeSleepingProcesses
  dsimp only
  generalize (table.values.filter _).map Process.pid = pids
  induction pids generalizing table with
  | nil => rfl
  | cons pid rest ih =>
    rw [List.foldl_cons, ih]
    split <;> rfl

end ProcessTable

end Vantara
