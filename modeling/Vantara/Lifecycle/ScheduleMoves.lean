import Vantara.Lifecycle.WaitMoves

/-!
# Dispatching and loading as trails

The scheduler skips what cannot run and dispatches the first thread that can.
Loading a program enters a new process that runs at once.
-/

namespace Vantara

open Foundation Lifecycle

namespace ProcessTable

variable {table : ProcessTable} {unborn : Set Pid} {cpu : Option (Pid × Tid)}

/-- The view after the next queue entry has been taken out. -/
theorem view_popped (popped : table.readyQueue.pop = some (tid, rest)) :
    ({ table with readyQueue := rest } : ProcessTable).view unborn cpu =
      { table.view unborn cpu with
        queue := (table.view unborn cpu).queue \ {tid} } := by
  refine View.ext rfl ?_ rfl rfl rfl rfl rfl
  ext other
  change other ∈ rest ↔ other ∈ table.readyQueue ∧ other ≠ tid
  rw [UniqueQueue.mem_iff_of_pop popped]
  constructor
  · intro waits
    refine ⟨.inr waits, ?_⟩
    rintro rfl
    exact UniqueQueue.not_mem_of_pop popped waits
  · rintro ⟨rfl | waits, differ⟩
    · exact absurd rfl differ
    · exact waits

/-- A queue entry is skipped only if it cannot run. -/
theorem skip_moves (sound : Sound (table.view unborn cpu))
    (popped : table.readyQueue.pop = some (tid, rest))
    (unready : ∀ process owned, table.getByTid tid = some process →
      process.threads.get tid = some owned → owned.state = .ready → owned.resumeContext = none) :
    Moves (table.view unborn cpu) (.skip tid)
      (({ table with readyQueue := rest } : ProcessTable).skipReady.view unborn cpu) := by
  refine (Moves.skip ?_).of_eq (view_popped popped)
  intro pid process thread found owns ready
  obtain ⟨process, inTable, rfl⟩ := Option.map_eq_some_iff.mp found
  obtain ⟨owned, inProcess, rfl⟩ := Option.map_eq_some_iff.mp owns
  exact unready process owned (getByTid_eq sound inTable inProcess) inProcess ready

theorem view_enteredThread (owns : process.threads.get tid = some owned) :
    (enteredThread process now tid).view =
      (process.view.setThread tid
        { owned.view with state := .running, context := none }).refresh :=
  Process.view_refreshStateFromThreads.trans
    (congrArg ProcessView.refresh (Process.view_modifyThread owns))

/-- A ready thread with a context is dispatched. -/
theorem dispatch_moves
    (popped : table.readyQueue.pop = some (tid, rest))
    (found : table.get process.pid = some process)
    (owns : process.threads.get tid = some owned)
    (ready : owned.state = .ready)
    (saved : owned.resumeContext = some context) :
    Moves (table.view unborn none) (.dispatch process.pid tid context)
      (((({ table with readyQueue := rest } : ProcessTable).dispatchThread now process tid).record
        (.dispatched process.pid tid context)).view unborn (some (process.pid, tid))) := by
  have queued : tid ∈ (table.view unborn none).queue :=
    (UniqueQueue.mem_iff_of_pop popped).mpr (.inl rfl)
  refine (Moves.dispatch rfl queued (view_found found) (Process.view_thread owns)
    ready saved).of_eq ?_
  have queue := congrArg View.queue (@view_popped table unborn none _ _ popped)
  refine View.ext ?_ queue rfl rfl rfl rfl rfl
  have processes := congrArg View.process
    (@view_putProcess table unborn none (enteredThread process now tid))
  rw [view_enteredThread owns] at processes
  exact processes

/-- One round of the scheduler's loop: the next entry is dispatched if it can
run, and skipped otherwise. -/
theorem scheduleLoop_succ
    (now : UInt64) (fuel : Nat)
    (popped : table.readyQueue.pop = some (tid, rest)) :
    (∃ process owned context, table.getByTid tid = some process ∧
      process.threads.get tid = some owned ∧ owned.state = .ready ∧
      owned.resumeContext = some context ∧
      scheduleLoop now (fuel + 1) table =
        (some ⟨process.pid, tid, context, process.addressSpace.p4Frame⟩,
          (({ table with readyQueue := rest } : ProcessTable).dispatchThread now process
            tid).record (.dispatched process.pid tid context))) ∨
    (∀ process owned, table.getByTid tid = some process →
      process.threads.get tid = some owned → owned.state = .ready →
        owned.resumeContext = none) ∧
      scheduleLoop now (fuel + 1) table =
        scheduleLoop now fuel ({ table with readyQueue := rest } : ProcessTable).skipReady := by
  have sameOwner : ({ table with readyQueue := rest } : ProcessTable).getByTid tid =
      table.getByTid tid := rfl
  simp only [scheduleLoop, popped, sameOwner]
  cases owner : table.getByTid tid with
  | none => exact .inr (by simp)
  | some process =>
    obtain ⟨found, owned, owns⟩ := getByTid_spec owner
    simp only [owns]
    by_cases ready : owned.state = .ready
    · cases saved : owned.resumeContext with
      | none =>
        refine .inr ⟨?_, by simp [ready]⟩
        rintro _ _ ⟨⟩ foundThread' _
        simp_all
      | some context =>
        exact .inl ⟨process, owned, context, rfl, owns, ready, saved, by simp [ready]⟩
    · refine .inr ⟨?_, by simp [ready]⟩
      rintro _ _ ⟨⟩ foundThread' isReady
      simp_all

/-- The scheduler's loop: skips, then at most one dispatch. -/
theorem scheduleLoop_trail (sound : Sound (table.view unborn none))
    (scheduled : scheduleLoop now fuel table = (chosen, after)) :
    FreeTrail (table.view unborn none)
      (after.view unborn (chosen.map fun resume => (resume.pid, resume.tid))) := by
  induction fuel generalizing table with
  | zero =>
    cases scheduled
    exact .start
  | succ fuel ih =>
    cases popped : table.readyQueue.pop with
    | none =>
      rw [scheduleLoop, popped] at scheduled
      cases scheduled
      exact .start
    | some entry =>
      obtain ⟨tid, rest⟩ := entry
      rcases scheduleLoop_succ now fuel popped with
        ⟨process, owned, context, owner, owns, ready, saved, result⟩ |
          ⟨unready, result⟩ <;> rw [result] at scheduled
      · cases scheduled
        exact .single rfl
          (dispatch_moves popped (getByTid_spec owner).1 owns ready saved)
      · have skipped := skip_moves sound popped unready
        exact Trail.trans (.single rfl skipped)
          (ih (sound.preserved skipped) scheduled)

/-- If the scheduler finds nothing to dispatch, no queued thread could run. -/
theorem scheduleLoop_none
    (enough : table.readyQueue.length ≤ fuel)
    (scheduled : scheduleLoop now fuel table = (none, after))
    (queued : tid ∈ table.readyQueue)
    (owner : table.getByTid tid = some process)
    (owns : process.threads.get tid = some owned)
    (ready : owned.state = .ready) :
    owned.resumeContext = none := by
  induction fuel generalizing table with
  | zero =>
    rw [UniqueQueue.mem_def, List.eq_nil_of_length_eq_zero (Nat.le_zero.mp enough)] at queued
    cases queued
  | succ fuel ih =>
    cases popped : table.readyQueue.pop with
    | none =>
      rw [UniqueQueue.mem_def, UniqueQueue.pop_eq_none_iff.mp popped] at queued
      cases queued
    | some entry =>
      obtain ⟨next, rest⟩ := entry
      rcases scheduleLoop_succ now fuel popped with
        ⟨_, _, _, -, -, -, -, result⟩ | ⟨unready, result⟩ <;> rw [result] at scheduled
      · cases scheduled
      · rcases (UniqueQueue.mem_iff_of_pop popped).mp queued with rfl | waits
        · exact unready process owned owner owns ready
        · refine ih ?_ scheduled waits owner
          have length := UniqueQueue.length_of_pop popped
          change rest.length ≤ fuel
          omega

/-- A thread that yields can be dispatched again. -/
theorem yielded_runs (moved : Moves first (.park pid tid (.yields context)) after) :
    tid ∈ after.queue ∧ ∃ process thread, after.process pid = some process ∧
      process.threads tid = some thread ∧ thread.state = .ready ∧
      thread.context = some context := by
  cases moved with
  | park _ _ _ _ parked =>
    cases parked with
    | yields =>
      exact ⟨.inr ⟨rfl, rfl⟩, _, _, if_pos rfl, if_pos rfl, rfl, rfl⟩

/-- Exchanging the thread on the processor for the next one that can run. -/
theorem preemptRunningThread_trail
    (sound : Sound (table.view unborn (some (pid, tid))))
    (preempted : table.preemptRunningThread now tid context = (chosen, after)) :
    FreeTrail (table.view unborn (some (pid, tid)))
      (after.view unborn
        (match chosen with
        | some resume => some (resume.pid, resume.tid)
        | none => some (pid, tid))) := by
  unfold preemptRunningThread at preempted
  split_ifs at preempted with alone
  · cases preempted
    exact .start
  · obtain ⟨process, owned, runs, -, owner⟩ := runs_of_sound sound
    obtain ⟨yielded, result, moved⟩ := markThreadYielded_moves unborn now context runs owner
    simp only [result] at preempted
    have soundYielded := sound.preserved moved
    have trail := scheduleLoop_trail soundYielded preempted
    cases chosen with
    | some resume => exact Trail.trans (.single rfl moved) trail
    | none =>
      -- The thread that yielded can run, so the scheduler finds something.
      obtain ⟨queued, process, thread, found, owns, ready, saved⟩ := yielded_runs moved
      obtain ⟨process, inTable, rfl⟩ := Option.map_eq_some_iff.mp found
      obtain ⟨owned, inProcess, rfl⟩ := Option.map_eq_some_iff.mp owns
      have unsaved := scheduleLoop_none (Nat.le_refl _) preempted queued
        (getByTid_eq soundYielded inTable inProcess) inProcess ready
      simp [unsaved] at saved

theorem view_shiftedThread :
    (shiftedThread now next owned).view = { owned.view with state := next } := by
  simp only [shiftedThread, Thread.startRun]
  split_ifs <;> simp [Thread.view]

/-- The kernel's own scheduler moves one of its threads. -/
theorem setKernelThreadState_moves
    (changed : table.setKernelThreadState now tid next = some after) :
    ∃ pid, Moves (table.view unborn cpu) (.kernelThread pid tid)
      (after.view unborn cpu) := by
  obtain ⟨process, owner, rest⟩ := Option.bind_eq_some_iff.mp changed
  obtain ⟨found, owned, owns⟩ := getByTid_spec owner
  split_ifs at rest with notKernel
  simp only [owns, Option.bind_eq_bind, Option.bind_some] at rest
  cases rest
  obtain rfl := ThreadStore.tid_of_get owns
  refine ⟨process.pid, (Moves.kernelThread next (view_found found) (by simpa using notKernel)
    (Process.view_thread owns)).of_eq ?_⟩
  rw [view_putProcess, Process.view_refreshStateFromThreads, Process.view_modifyThread owns,
    view_shiftedThread]
  rfl

/-- A process in its first run, if the request was not for the kernel itself. -/
theorem view_startRun_newProcess
    (isUser : ¬(parentPid.isNone ∧ name = "kernel" ∧ programPath = "kernel")) :
    ((table.newProcess pid parentPid name programPath arg jobMode space tid).startRun now).view =
      .launched parentPid jobMode tid := by
  rw [Process.view_startRun]
  have main : (table.newProcess pid parentPid name programPath arg jobMode space tid).mainThread =
      ((Thread.new tid pid (if parentPid.isNone ∧ name = "kernel" ∧ programPath = "kernel" then
        ProcessKind.kernelTask else .userProcess).threadKind).withUserStack
          space.layout.stackStart space.layout.stackTop) :=
    ThreadStore.main_withMain
  rw [main]
  refine ProcessView.ext rfl (if_neg isUser) rfl rfl rfl rfl rfl rfl ?_
  funext other
  change (if other = tid then _ else Option.map Thread.view (ThreadStore.get _ other)) = _
  by_cases same : other = tid
  · rw [if_pos same, ProcessView.launched_threads, if_pos same]
    rfl
  · rw [if_neg same, ProcessView.launched_threads, if_neg same]
    change Option.map Thread.view ((ThreadStore.withMain _).get other) = none
    rw [ThreadStore.get_withMain]
    exact congrArg (Option.map Thread.view) (if_neg same)

/-- A process whose identifier was drawn gets the next thread. -/
theorem created_of_drawn
    (parentPid : Option Pid) (name programPath : String) (arg : UserProgramArg)
    (jobMode : JobMode) (space : AddressSpace)
    (drawn : pid.toNat < table.nextPid.toNat) :
    table.createReservedProcessWithJobMode pid parentPid name programPath arg jobMode space =
        table.reserveTid.2.putProcess
          (table.newProcess pid parentPid name programPath arg jobMode space table.nextTid) ∧
      (table.createReservedProcessWithJobMode pid parentPid name programPath arg jobMode
          space).get pid =
        some (table.newProcess pid parentPid name programPath arg jobMode space table.nextTid) := by
  have notLater : ¬pid ≥ table.nextPid := by
    rw [ge_iff_le, UInt32.le_iff_toNat_le]
    omega
  unfold createReservedProcessWithJobMode
  rw [if_neg notLater]
  exact ⟨rfl, get_putProcess.trans (if_pos rfl)⟩

/-- A program that waits to be loaded enters the processor as a process. -/
theorem launch_moves
    (left : table.tidsLeft)
    (pending : pid ∈ unborn)
    (drawn : pid.toNat < table.nextPid.toNat)
    (isUser : ¬(parentPid.isNone ∧ name = "kernel" ∧ programPath = "kernel")) :
    (((table.createReservedProcessWithJobMode pid parentPid name programPath arg jobMode
        space).startProcessRun now pid).get pid).map Process.mainTid = some table.nextTid ∧
      Moves (table.view unborn none) (.launch pid)
        (((table.createReservedProcessWithJobMode pid parentPid name programPath arg jobMode
          space).startProcessRun now pid).view (unborn \ {pid})
            (some (pid, table.nextTid))) := by
  obtain ⟨created, found⟩ := created_of_drawn parentPid name programPath arg jobMode space drawn
  generalize table.createReservedProcessWithJobMode pid parentPid name programPath arg jobMode
    space = after at created found ⊢
  refine ⟨?_, (Moves.launch parentPid jobMode rfl pending rfl).of_eq ?_⟩
  · rw [get_startProcessRun found, if_pos rfl]
    exact congrArg some Process.mainTid_startRun
  · rw [view_startProcessRun found, view_startRun_newProcess isUser, created, view_putProcess,
      view_reserveTid left]
    exact congrArg
      (fun view => { view with
        tidBound := table.nextTid.toNat + 1
        unborn := unborn \ {pid}
        cpu := some (pid, table.nextTid) })
      (View.setProcess_setProcess :
        (View.setProcess (table.view unborn none) pid _).setProcess pid _ = _)

end ProcessTable

end Vantara
