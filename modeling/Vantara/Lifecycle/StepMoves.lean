import Vantara.Ledger.Boot
import Vantara.Lifecycle.ServeMoves

/-!
# Steps and runs as sequences of moves

Every step of the system is a sequence of moves, nearly all of them free.  So what
holds at boot and is preserved by the moves that a step may make holds in every run.
-/

namespace Vantara

open Foundation Lifecycle

theorem ProcessTable.atomics_setKernelThreadState {table after : ProcessTable}
    (changed : table.setKernelThreadState now tid state = some after) :
    after.atomics = table.atomics := by
  obtain ⟨process, -, rest⟩ := Option.bind_eq_some_iff.mp changed
  split_ifs at rest
  obtain ⟨owned, -, ⟨⟩⟩ := Option.bind_eq_some_iff.mp rest
  rfl

namespace Kernel

variable {kernel after landing : Kernel} {cpu next : Option (Pid × Tid)}
  {env : UserEnv} {frame : SyscallFrame} {action : Action}

/-- Whether a step leaves the thread on the processor off it, although it still
counts as running: a call whose answer is taken for the landing value, one that
blocks the process on behalf of a thread other than the main one, or a program
whose private memory could not be prepared. -/
def strands (kernel : Kernel) : Action → Bool
  | .syscall frame env =>
    kernel.collides env frame ||
      (kernel.blocksProcess frame &&
        decide (kernel.currentUserThread ≠ kernel.currentProcess.map Process.mainTid))
  | .pending (.loaded _ false) => kernel.table.privatePool.take.isSome
  | _ => false

/-- The moves that a step may make. -/
inductive Permitted
    (kernel : Kernel) (action : Action) (cpu : Option (Pid × Tid)) (view : View) :
    Move → Prop
  | free {move}
      (isFree : move.free = true) :
      Permitted kernel action cpu view move
  /-- The wait bridge gives up a shell. -/
  | bridge {pid} :
      Permitted kernel action cpu view (.bridge pid)
  | abandon
      (stranded : kernel.strands action = true) :
      Permitted kernel action cpu view .abandon
  /-- A system call makes the move that it is for. -/
  | call {frame env call move}
      (first : view = kernel.viewAt cpu)
      (isCall : action = .syscall frame env)
      (decoded : Syscall.decode frame.number = some call)
      (starts : kernel.CallStarts frame call move) :
      Permitted kernel action cpu view move
  /-- The terminal stops its foreground job. -/
  | stop {pid signal}
      (first : view = kernel.viewAt cpu)
      (isReady : action = .ready)
      (suspends : kernel.terminalSignal = sigtstp)
      (isSignal : kernel.terminalSignal = signal)
      (foreground : kernel.terminalForegroundPid = pid) :
      Permitted kernel action cpu view (.stop pid signal)

/-- Everything is in order between two steps. -/
structure InOrder (kernel : Kernel) (cpu : Option (Pid × Tid)) : Prop where
  steady : kernel.Steady cpu
  inMode : kernel.InMode cpu

/-- A step is a sequence of the moves that it may make, and everything stays in
order. -/
def Steps (kernel : Kernel) (action : Action) (cpu : Option (Pid × Tid))
    (after : Kernel) : Prop :=
  ∃ next, Trail Moves (kernel.Permitted action cpu) (kernel.viewAt cpu)
      (after.viewAt next) ∧ after.InOrder next

/-- Nothing happens to the life of processes. -/
theorem Steps.same
    (steady : after.Steady cpu)
    (view : after.viewAt cpu = kernel.viewAt cpu)
    (inMode : after.InMode cpu) :
    kernel.Steps action cpu after :=
  ⟨cpu, view ▸ .start, steady, inMode⟩

theorem permitted_of_loop (trail : LoopTrail first last) :
    Trail Moves (kernel.Permitted action cpu) first last := by
  refine trail.mono fun view move permitted => ?_
  rcases permitted with isFree | ⟨pid, rfl⟩
  · exact .free isFree
  · exact .bridge

/-- The kernel lands after moves of the step. -/
theorem Steps.land
    (trail : Trail Moves (kernel.Permitted action cpu) (kernel.viewAt cpu)
      (landing.viewAt none))
    (steady : landing.Steady none) :
    kernel.Steps action cpu landing.userExitLanding := by
  obtain ⟨next, goes, inMode⟩ := steady.land
  exact ⟨next, trail.trans (permitted_of_loop goes.trail), goes.steady, inMode⟩

theorem Steady.withMode (steady : kernel.Steady cpu) (mode : Mode) :
    { kernel with mode := mode }.Steady cpu := by
  have goes : kernel.GoesOn cpu kernel cpu := ⟨.start, steady⟩
  exact (goes.withMode mode).steady

/-- The system stops for good. -/
theorem Steps.halt (steady : kernel.Steady cpu) : kernel.Steps action cpu kernel.halt :=
  .same (steady.withMode .halted) rfl ⟨nofun, nofun⟩

/-! ## System calls -/

/-- A thread is taken off the processor and still counts as running. -/
theorem Steady.abandon (steady : kernel.Steady cpu) :
    Moves (kernel.viewAt cpu) .abandon (kernel.viewAt none) ∧ kernel.Steady none := by
  have moved : Moves (kernel.viewAt cpu) .abandon (kernel.viewAt none) := .abandon
  have trail : Trail Moves (fun _ _ => True) (kernel.viewAt cpu) (kernel.viewAt none) :=
    .single trivial moved
  exact ⟨moved, steady.of_trail trail (.of_eq rfl rfl rfl rfl) nofun⟩

/-- A call that answers with the landing value and leaves its caller on the
processor strands it. -/
theorem strands_of_stays
    (steady : kernel.Steady (some (pid, tid)))
    (decoded : Syscall.decode frame.number = some call)
    (handled : kernel.handle env frame call = some (answer, after))
    (steadyAfter : after.Steady (some (pid, tid)))
    (landing : answer.register = syscallReturnToKernel) :
    kernel.strands (.syscall frame env) = true := by
  obtain ⟨process, owned, runs, -, owner⟩ := steady.runs
  obtain ⟨stillProcess, stillOwned, stillRuns, -⟩ := steadyAfter.runs
  have stillOn : (after.viewAt none).Runs pid tid := runs_viewAt stillRuns.inTable
  have notOff : ¬after.CheckedOut pid tid := not_checkedOut stillOn
  by_contra clean
  simp only [strands, Bool.not_eq_true, Bool.or_eq_false_iff, Bool.and_eq_false_iff,
    decide_eq_false_iff_not, not_not] at clean
  refine notOff (checkedOut_of_handle runs owner decoded clean.1 (fun blocks => ?_) handled landing)
  have isMain := clean.2.resolve_left (by simp [blocks])
  rw [runs.currentThread, currentProcess, runs.currentProcess, Option.bind_some,
    runs.inTable.found] at isMain
  exact Option.some.inj isMain

theorem steps_systemCall
    (steady : kernel.Steady (some (pid, tid)))
    (left : kernel.table.tidsLeft)
    (isUser : kernel.mode = .user) :
    kernel.Steps (.syscall frame env) (some (pid, tid)) (kernel.systemCall frame env) := by
  unfold systemCall
  split
  · exact .halt steady
  next value called dispatched =>
  unfold syscallInterruptDispatch at dispatched
  split at dispatched
  · next unknown =>
      cases dispatched
      have lands : SyscallError.unknownSyscall.code = syscallReturnToKernel := by decide
      rw [if_pos lands]
      obtain ⟨moved, abandoned⟩ := steady.abandon
      refine .land (.single (.abandon ?_) moved) abandoned
      simp [strands, collides, unknown]
  next call decoded =>
  obtain ⟨⟨answer, reached⟩, handled, ⟨⟩⟩ := Option.map_eq_some_iff.mp dispatched
  cases called_handle steady left decoded handled with
  | stays trail steadyAfter mode =>
    have permitted : Trail Moves (kernel.Permitted (.syscall frame env) (some (pid, tid)))
        (kernel.viewAt (some (pid, tid))) (called.viewAt (some (pid, tid))) := by
      refine trail.mono fun view move permitted => ?_
      rcases permitted with isFree | ⟨first, starts⟩
      · exact .free isFree
      · exact .call first rfl decoded starts
    split_ifs with landing
    · obtain ⟨moved, abandoned⟩ := steadyAfter.abandon
      exact .land (.next permitted
        (.abandon (strands_of_stays steady decoded handled steadyAfter landing)) moved) abandoned
    · refine ⟨_, permitted, steadyAfter, fun _ => rfl, fun isLoop => ?_⟩
      rw [mode, isUser] at isLoop
      cases isLoop
  | leaves moved permitted steadyAfter =>
    have lands : Answer.register (.ok syscallReturnToKernel) = syscallReturnToKernel := rfl
    rw [if_pos lands]
    refine .land (.single ?_ moved) steadyAfter
    rcases permitted with isFree | starts
    · exact .free isFree
    · exact .call rfl rfl decoded starts

/-! ## Interrupts -/

theorem steps_userFault (steady : kernel.Steady (some (pid, tid))) :
    kernel.Steps (.fault kind) (some (pid, tid)) (kernel.userFault kind) := by
  obtain ⟨process, owned, runs, -⟩ := steady.runs
  have present : ((kernel.setCurrentUser none none).closeProcessFiles pid).table.get pid =
      some process := runs.inTable.found
  have faulted : kernel.markCurrentUserFault kind.status = (some pid,
      ((kernel.setCurrentUser none none).closeProcessFiles pid).exitProcess pid kind.status) := by
    simp only [markCurrentUserFault, takeCurrentUser_eq runs, present]
  rw [userFault, faulted]
  have leaves := @exitProcess_leaves _ _ _ _ _ runs kind.status
  have trail : Trail Moves (kernel.Permitted (.fault kind) (some (pid, tid)))
      (kernel.viewAt (some (pid, tid))) _ := .single (.free rfl) leaves.moves
  exact .land trail (steady.of_trail trail (leaves.books.keeps runs) (by rintro _ _ ⟨⟩))

/-- The clock does not matter to the life of processes. -/
theorem Steady.tick (steady : kernel.Steady cpu) (ticked : kernel.tick = some after) :
    after.viewAt cpu = kernel.viewAt cpu ∧ after.Steady cpu ∧
      after.mode = kernel.mode := by
  unfold Kernel.tick at ticked
  split_ifs at ticked
  cases ticked
  unfold recordTimerPreemptionCheck
  split_ifs
  all_goals
    have trail : Trail Moves (fun _ _ => True) (kernel.viewAt cpu)
        (kernel.viewAt cpu) := .start
    exact ⟨rfl, steady.of_trail trail (.of_eq rfl rfl rfl rfl) (fun _ _ => steady.current), rfl⟩

theorem Steady.wakeSleepers (steady : kernel.Steady cpu) :
    kernel.GoesOn cpu
      (kernel.withTable (kernel.table.wakeSleepingProcesses kernel.ticks)) cpu := by
  have trail : FreeTrail (kernel.viewAt cpu)
      ((kernel.withTable (kernel.table.wakeSleepingProcesses kernel.ticks)).viewAt cpu) :=
    ProcessTable.wakeSleepingProcesses_trail
  refine steady.goesOn (.of_free trail) (.of_eq rfl rfl rfl rfl) fun _ _ isOn => ?_
  obtain ⟨process, thread, named⟩ := steady.current isOn
  exact ⟨process, thread, ProcessTable.atomics_wakeSleepingProcesses.trans named⟩

/-- Another thread may be on the processor after the quantum. -/
theorem Steady.preempt (steady : kernel.Steady (some (pid, tid))) (context : UserResumeContext) :
    ∃ pid' tid', kernel.GoesOn (some (pid, tid)) (kernel.preemptCurrentUser context)
        (some (pid', tid')) ∧ (kernel.preemptCurrentUser context).mode = kernel.mode := by
  obtain ⟨isProcess, isThread, atomics⟩ := steady.current rfl
  have named : kernel.table.currentUserTidAtomic = tid := congrArg Prod.snd atomics
  unfold preemptCurrentUser
  split_ifs
  · exact ⟨pid, tid, ⟨.start, steady⟩, rfl⟩
  rw [named]
  split
  · next table preempted =>
      obtain rfl := ProcessTable.preemptRunningThread_none preempted
      exact ⟨pid, tid, ⟨.start, steady⟩, rfl⟩
  · next resume table preempted =>
      have trail := ProcessTable.preemptRunningThread_trail steady.sound preempted
      refine ⟨resume.pid, resume.tid, steady.goesOn (.of_free trail) (.of_eq rfl rfl rfl rfl) ?_,
        rfl⟩
      rintro _ _ ⟨⟩
      exact ⟨rfl, rfl, rfl⟩

theorem steps_timerInterrupt
    (steady : kernel.Steady (some (pid, tid)))
    (isUser : kernel.mode = .user) :
    kernel.Steps (.timer context) (some (pid, tid)) (kernel.timerInterrupt context) := by
  unfold timerInterrupt
  split
  · exact .halt steady
  next ticked isTicked =>
  obtain ⟨view, steadyTicked, mode⟩ := steady.tick isTicked
  have woken := steadyTicked.wakeSleepers
  obtain ⟨pid', tid', goes, sameMode⟩ := woken.steady.preempt context
  refine ⟨some (pid', tid'), ?_, goes.steady, fun _ => rfl, fun isLoop => ?_⟩
  · rw [← view]
    exact permitted_of_loop (woken.trans goes).trail
  · have isMode := sameMode.trans (mode.trans isUser)
    rw [isMode] at isLoop
    cases isLoop

/-! ## The event loop -/

theorem inMode_continueLoop (kernel : Kernel) (stage : LoopStage) :
    (kernel.continueLoop stage).InMode none := by
  unfold continueLoop
  split_ifs with halted
  · exact ⟨fun isUser => absurd (halted.symm.trans isUser) nofun, fun _ => rfl⟩
  · exact ⟨nofun, fun _ => rfl⟩

theorem viewAt_continueLoop : (kernel.continueLoop stage).viewAt cpu = kernel.viewAt cpu := by
  unfold continueLoop
  split_ifs <;> rfl

theorem Steady.continueLoop (steady : kernel.Steady cpu) :
    (kernel.continueLoop stage).Steady cpu := by
  unfold Kernel.continueLoop
  split_ifs
  · exact steady
  · exact steady.withMode _

theorem steps_input (steady : kernel.Steady none) :
    kernel.Steps (.input command) none ((kernel.handleInput command).continueLoop .pending) := by
  have handled : Trail Moves (kernel.Permitted (.input command) none) (kernel.viewAt none)
      ((kernel.handleInput command).viewAt none) ∧ (kernel.handleInput command).Steady none := by
    unfold handleInput
    split
    · exact ⟨.start, steady⟩
    split_ifs
    · exact ⟨.start, steady⟩
    split
    · exact ⟨.start, steady⟩
    · exact ⟨.start, steady.withMode .halted⟩
    · next requested =>
        obtain ⟨moved, steadyAfter, -⟩ := steady.requestPath requested
        exact ⟨.single (.free rfl) moved, steadyAfter⟩
  refine ⟨none, ?_, handled.2.continueLoop, inMode_continueLoop _ _⟩
  rw [viewAt_continueLoop]
  exact handled.1

/-- The program that was to be loaded next is given up. -/
theorem Steady.discard
    (steady : kernel.Steady cpu)
    (isNext : kernel.pendingPrograms = program :: rest) :
    { kernel with pendingPrograms := rest }.unborn = kernel.unborn \ {program.pid} ∧
    Moves (kernel.viewAt cpu) (.discard program.pid)
        ({ kernel with pendingPrograms := rest }.viewAt cpu) ∧
      { kernel with pendingPrograms := rest }.Steady cpu := by
  have once := steady.pendingOnce
  rw [isNext, List.map_cons, List.nodup_cons] at once
  have unborn : { kernel with pendingPrograms := rest }.unborn =
      kernel.unborn \ {program.pid} := by
    ext pid
    simp only [Kernel.unborn, isNext, List.mem_cons, Set.mem_sdiff, Set.mem_ofPred_eq,
      Set.mem_singleton_iff]
    constructor
    · rintro ⟨other, listed, rfl⟩
      exact ⟨⟨other, .inr listed, rfl⟩, fun same => once.1 (same ▸ List.mem_map_of_mem listed)⟩
    · rintro ⟨⟨other, rfl | listed, rfl⟩, differ⟩
      · exact absurd rfl differ
      · exact ⟨other, listed, rfl⟩
  have moved : Moves (kernel.viewAt cpu) (.discard program.pid)
      ({ kernel with pendingPrograms := rest }.viewAt cpu) := by
    refine Moves.of_eq (.discard ⟨program, by simp [isNext], rfl⟩) ?_
    rw [viewAt, unborn]
    rfl
  have trail : Trail Moves (fun _ _ => True) (kernel.viewAt cpu)
      ({ kernel with pendingPrograms := rest }.viewAt cpu) := .single trivial moved
  refine ⟨unborn, moved, steady.of_trail trail ⟨?_, fun _ => id, .inl rfl, fun _ _ => .inl⟩
    fun _ _ => steady.current⟩
  rw [isNext]
  exact List.suffix_cons _ _

/-- The pool of private address spaces does not matter to the life of processes. -/
theorem addressSpaceFor_eq (prepared : kernel.addressSpaceFor program loaded = (space, after)) :
    (∃ pool, after =
      { kernel with table := { kernel.table with privatePool := pool } }) ∧
      (space.p4Verified = true → kernel.table.privatePool.take.isSome = true) := by
  unfold addressSpaceFor at prepared
  dsimp only at prepared
  split at prepared
  · next taken =>
      cases prepared
      exact ⟨⟨_, rfl⟩, fun _ => by simp [taken]⟩
  · cases prepared
    exact ⟨⟨kernel.table.privatePool, rfl⟩, nofun⟩

/-- The program that was to be loaded next enters the processor. -/
theorem Steady.registerExec
    (steady : kernel.Steady none)
    (left : kernel.table.tidsLeft)
    (isNext : kernel.pendingPrograms = program :: rest)
    (registered : { kernel with pendingPrograms := rest }.registerExec program loaded =
      (space, after)) :
    ∃ tid, Moves (kernel.viewAt none) (.launch program.pid)
        (after.viewAt (some (program.pid, tid))) ∧ after.Steady (some (program.pid, tid)) ∧
      (space.p4Verified = true → kernel.table.privatePool.take.isSome = true) := by
  obtain ⟨unborn, -, dropped⟩ := steady.discard isNext
  unfold Kernel.registerExec at registered
  cases prepared : { kernel with pendingPrograms := rest }.addressSpaceFor program loaded with
  | mk own middle =>
  rw [prepared] at registered
  cases registered
  obtain ⟨⟨pool, rfl⟩, verified⟩ := addressSpaceFor_eq prepared
  have pending : program.pid ∈ kernel.unborn := ⟨program, by simp [isNext], rfl⟩
  have isUser := steady.pendingUser (show program ∈ kernel.pendingPrograms by simp [isNext])
  let table : ProcessTable := { kernel.table with privatePool := pool }
  let entered := (table.createReservedProcessWithJobMode program.pid program.parentPid
    program.name program.path program.arg program.jobMode space).startProcessRun kernel.ticks
      program.pid
  have launched : (entered.get program.pid).map Process.mainTid = some kernel.table.nextTid ∧
      Moves (table.view kernel.unborn none) (.launch program.pid)
        (entered.view (kernel.unborn \ {program.pid})
          (some (program.pid, kernel.table.nextTid))) :=
    ProcessTable.launch_moves left pending (steady.sound.unbornDrawn pending).1 isUser
  obtain ⟨isMain, moved⟩ := launched
  rw [← unborn] at moved
  have trail : Trail Moves (fun _ _ => True) (kernel.viewAt none)
      (entered.view ({ kernel with pendingPrograms := rest } : Kernel).unborn
        (some (program.pid, kernel.table.nextTid))) := .single trivial moved
  refine ⟨kernel.table.nextTid, moved, steady.of_trail trail
    ⟨isNext ▸ List.suffix_cons _ _, fun _ => id, .inl rfl, fun _ _ => .inl⟩ ?_, verified⟩
  rintro _ _ ⟨⟩
  refine ⟨rfl, isMain, ?_⟩
  simp only [setCurrentUser, ProcessTable.atomics, Option.getD_some]
  exact congrArg _ (congrArg (Option.getD · 0) isMain)

theorem Steady.startProgram
    (steady : kernel.Steady none)
    (left : kernel.table.tidsLeft)
    (isNext : kernel.pendingPrograms = program :: rest)
    (started : { kernel with pendingPrograms := rest }.startProgram program loaded prepared =
      (space, after)) :
    ∃ tid, Moves (kernel.viewAt none) (.launch program.pid)
        (after.viewAt (some (program.pid, tid))) ∧ after.Steady (some (program.pid, tid)) ∧
      (space.p4Verified = true → kernel.table.privatePool.take.isSome = true) := by
  unfold Kernel.startProgram at started
  cases registered : { kernel with pendingPrograms := rest }.registerExec program loaded with
  | mk own entering =>
  rw [registered] at started
  obtain ⟨tid, moved, entered, verified⟩ := steady.registerExec left isNext registered
  dsimp only at started
  split at started
  · cases started
    -- The pool of private address spaces is not part of the view.
    have trail : Trail Moves (fun _ _ => True) (entering.viewAt (some (program.pid, tid)))
        (entering.viewAt (some (program.pid, tid))) := .start
    exact ⟨tid, moved, entered.of_trail (by exact trail) (.of_eq rfl rfl rfl rfl)
      fun _ _ => entered.current, verified⟩
  · cases started
    exact ⟨tid, moved, entered, verified⟩

/-- A program is loaded, or given up. -/
theorem steps_pending
    (steady : kernel.Steady none)
    (left : kernel.table.tidsLeft)
    (attempted : kernel.runPendingUserProgram outcome = (entered, after)) :
    kernel.Steps (.pending outcome) none
      (if entered then { after with mode := .user } else after.continueLoop .ready) := by
  have loops : ∀ {reached : Kernel}, Trail Moves (kernel.Permitted (.pending outcome) none)
      (kernel.viewAt none) (reached.viewAt none) → reached.Steady none →
      kernel.Steps (.pending outcome) none (reached.continueLoop .ready) := by
    intro reached trail steadyReached
    refine ⟨none, ?_, steadyReached.continueLoop, inMode_continueLoop _ _⟩
    rw [viewAt_continueLoop]
    exact trail
  unfold runPendingUserProgram at attempted
  split at attempted
  · cases attempted
    exact loops .start steady
  next program rest isNext =>
  obtain ⟨-, dropped, steadyDropped⟩ := steady.discard isNext
  dsimp only at attempted
  split at attempted
  · cases attempted
    exact loops (.single (.free rfl) dropped) steadyDropped
  · cases attempted
    exact loops (.single (.free rfl) dropped) steadyDropped
  next loaded prepared =>
  cases started : ({ kernel with pendingPrograms := rest } : Kernel).startProgram program loaded
      prepared with
  | mk space entering =>
  rw [started] at attempted
  obtain ⟨tid, moved, steadyEntering, verified⟩ := steady.startProgram left isNext started
  have isolated : (entering.withTable (entering.table.markIsolated program.pid)).Steady
      (some (program.pid, tid)) := by
    have trail : Trail Moves (fun _ _ => True) (entering.viewAt (some (program.pid, tid)))
        ((entering.withTable (entering.table.markIsolated program.pid)).viewAt
          (some (program.pid, tid))) := by
      rw [viewAt, viewAt, withTable, ProcessTable.view_markIsolated]
      exact .start
    refine steadyEntering.of_trail trail (.of_eq rfl rfl rfl rfl) fun _ _ isOn => ?_
    obtain ⟨process, thread, named⟩ := steadyEntering.current isOn
    refine ⟨process, thread, Eq.trans ?_ named⟩
    unfold withTable ProcessTable.markIsolated
    split <;> rfl
  dsimp only at attempted
  split_ifs at attempted with isVerified isPrepared
  · cases attempted
    refine ⟨some (program.pid, tid), .single (.free rfl) (moved.of_eq ?_), isolated.withMode _,
      fun _ => rfl, by rintro _ ⟨⟩⟩
    exact ProcessTable.view_markIsolated
  · cases attempted
    obtain ⟨abandoned, steadyLeft⟩ := steadyEntering.abandon
    refine loops (.next (.single (.free rfl) moved) (.abandon ?_) abandoned) steadyLeft
    rw [Bool.not_eq_true] at isPrepared
    rw [isPrepared]
    exact verified isVerified
  · cases attempted
    exact ⟨some (program.pid, tid), .single (.free rfl) moved, steadyEntering.withMode _,
      fun _ => rfl, by rintro _ ⟨⟩⟩

/-! ## The ready stage -/

/-- A job that was stopped or killed no longer owns the terminal. -/
theorem Steady.signalled (steady : kernel.Steady none) :
    ((kernel.clearTerminalForegroundJob pid).takeUserShellWaitRequestForChild pid).2.Steady none ∧
      ((kernel.clearTerminalForegroundJob pid).takeUserShellWaitRequestForChild pid).2.viewAt none =
        kernel.viewAt none := by
  have cleared := @Steady.clearTerminalForegroundJob _ _ pid steady
  refine ⟨(@Steady.takeRequest _ _ pid cleared.steady).steady, ?_⟩
  unfold Kernel.clearTerminalForegroundJob
  split_ifs <;> rfl

theorem Steady.deliverTerminalSignal
    (steady : kernel.Steady none)
    (delivered : kernel.deliverTerminalSignal signal = (taken, after)) :
    CausedTrail (fun move => signal = sigtstp ∧ move = .stop kernel.terminalForegroundPid signal)
      (kernel.viewAt none) (after.viewAt none) ∧ after.Steady none := by
  unfold Kernel.deliverTerminalSignal at delivered
  dsimp only at delivered
  split_ifs at delivered with noJob isInt isStop
  · cases delivered
    exact ⟨.start, steady⟩
  · split at delivered
    · cases delivered
      exact ⟨.start, steady⟩
    · next report ended terminated =>
        cases delivered
        unfold terminateUserProcess at terminated
        split at terminated
        · cases terminated
        next table isTerminated =>
        cases terminated
        have trail : FreeTrail (kernel.viewAt none)
            ((kernel.withTable table).viewAt none) :=
          ProcessTable.terminateUserProcess_trail nofun isTerminated
        have steadyEnded : (kernel.withTable table).Steady none :=
          steady.of_trail trail (.of_eq rfl rfl rfl rfl) nofun
        obtain ⟨steadyAfter, view⟩ := @Steady.signalled _ kernel.terminalForegroundPid
          (@Steady.released _ _ kernel.terminalForegroundPid report.p4Frame steadyEnded)
        refine ⟨?_, steadyAfter⟩
        rw [viewAt_releasePreparedP4Frame] at view
        refine .of_free (Eq.mpr ?_ trail)
        exact congrArg _ view
  · have trail : CausedTrail
        (fun move => signal = sigtstp ∧ move = .stop kernel.terminalForegroundPid signal)
        (kernel.viewAt none)
        ((kernel.withTable (kernel.table.stopUserProcess kernel.ticks
          kernel.terminalForegroundPid signal).2).viewAt none) :=
      ProcessTable.stopUserProcess_trail.mono fun _ _ permitted =>
        permitted.imp_right fun caused => ⟨caused.1, isStop, caused.2⟩
    have steadyStopped := steady.of_trail trail (.of_eq rfl rfl rfl rfl) nofun
    split at delivered
    · next table stopped =>
        cases delivered
        rw [stopped] at trail steadyStopped
        exact ⟨trail, steadyStopped⟩
    · next report table stopped =>
        cases delivered
        rw [stopped] at trail steadyStopped
        obtain ⟨steadyAfter, view⟩ := @Steady.signalled _ kernel.terminalForegroundPid steadyStopped
        refine ⟨?_, steadyAfter⟩
        exact Eq.mpr (congrArg _ view) trail
  · cases delivered
    exact ⟨.start, steady⟩

/-- The terminal's signal does not matter to the life of processes until it is
delivered. -/
theorem Steady.withTerminalSignal (steady : kernel.Steady cpu) (signal : UInt64) :
    { kernel with terminalSignal := signal }.Steady cpu := by
  have trail : Trail Moves (fun _ _ => True) (kernel.viewAt cpu)
      ({ kernel with terminalSignal := signal }.viewAt cpu) := .start
  exact steady.of_trail trail (.of_eq rfl rfl rfl rfl) fun _ _ => steady.current

theorem Steady.deliverPendingSignal (steady : kernel.Steady none) :
    CausedTrail (fun move => kernel.terminalSignal = sigtstp ∧
          move = .stop kernel.terminalForegroundPid kernel.terminalSignal)
        (kernel.viewAt none) (kernel.deliverPendingSignal.viewAt none) ∧
      kernel.deliverPendingSignal.Steady none := by
  unfold Kernel.deliverPendingSignal
  dsimp only
  split_ifs
  · exact ⟨.start, steady⟩
  have cleared := steady.withTerminalSignal 0
  split
  · next delivered => exact cleared.deliverTerminalSignal delivered
  · next delivered =>
      obtain ⟨trail, steadyAfter⟩ := cleared.deliverTerminalSignal delivered
      split_ifs
      · exact ⟨trail, steadyAfter.withTerminalSignal _⟩
      · exact ⟨trail, steadyAfter⟩

theorem steps_ready (steady : kernel.Steady none) :
    kernel.Steps .ready none (enterUserOrLoop kernel.runReadyUserProcess) := by
  obtain ⟨trail, steadyAfter⟩ := steady.deliverPendingSignal
  have permitted : Trail Moves (kernel.Permitted .ready none) (kernel.viewAt none)
      (kernel.deliverPendingSignal.viewAt none) := by
    refine trail.mono fun view move permitted => ?_
    rcases permitted with isFree | ⟨first, suspends, rfl⟩
    · exact .free isFree
    · exact .stop first rfl suspends rfl rfl
  have woken := steadyAfter.wakeSleepers
  obtain ⟨next, goes, inMode⟩ := woken.steady.enterUserOrLoop
  exact ⟨next, permitted.trans (permitted_of_loop (woken.trans goes).trail), goes.steady, inMode⟩

/-! ## All actions -/

theorem InMode.of_mode (inMode : kernel.InMode cpu) (mode : after.mode = kernel.mode) :
    after.InMode cpu :=
  ⟨fun isUser => inMode.user (mode ▸ isUser), fun isLoop => inMode.loop (mode ▸ isLoop)⟩

theorem InOrder.steps
    (inOrder : kernel.InOrder cpu)
    (left : kernel.table.tidsLeft)
    (stepped : kernel.step action = some after) :
    kernel.Steps action cpu after := by
  obtain ⟨steady, inMode⟩ := inOrder
  have onCpu : kernel.mode = .user → ∃ pid tid, cpu = some (pid, tid) := by
    intro isUser
    obtain ⟨⟨pid, tid⟩, isOn⟩ := Option.isSome_iff_exists.mp (inMode.user isUser)
    exact ⟨pid, tid, isOn⟩
  unfold step at stepped
  split at stepped
  · next mode =>
      cases stepped
      obtain ⟨pid, tid, rfl⟩ := onCpu mode
      exact steps_systemCall steady left mode
  · next mode =>
      cases stepped
      obtain ⟨pid, tid, rfl⟩ := onCpu mode
      exact steps_timerInterrupt steady mode
  · next mode =>
      cases stepped
      obtain ⟨pid, tid, rfl⟩ := onCpu mode
      exact steps_userFault steady
  · next mode =>
      cases stepped
      obtain rfl := inMode.loop mode
      exact steps_input steady
  · next outcome mode =>
      obtain rfl := inMode.loop mode
      cases attempted : kernel.runPendingUserProgram outcome with
      | mk entered reached =>
        have reaches := steps_pending steady left attempted
        rw [attempted] at stepped
        cases entered <;> cases stepped <;> exact reaches
  · next mode =>
      cases stepped
      obtain rfl := inMode.loop mode
      exact steps_ready steady
  · cases stepped
  · cases stepped
    exact .same (steady.withTerminalSignal _) rfl (inMode.of_mode rfl)
  · cases stepped
    cases ticked : kernel.tick with
    | none => exact .halt steady
    | some reached =>
      obtain ⟨view, steadyTicked, mode⟩ := steady.tick ticked
      exact .same steadyTicked view (inMode.of_mode mode)
  · next _ _ tid state _ =>
      obtain ⟨table, changed, ⟨⟩⟩ := Option.map_eq_some_iff.mp stepped
      obtain ⟨pid, moved⟩ := @ProcessTable.setKernelThreadState_moves _ kernel.unborn cpu
        _ _ _ _ changed
      have trail : Trail Moves (kernel.Permitted (.kernelThread tid state) cpu)
          (kernel.viewAt cpu) ((kernel.withTable table).viewAt cpu) :=
        .single (.free rfl) moved
      refine ⟨cpu, trail, steady.of_trail trail (.of_eq rfl rfl rfl rfl) fun _ _ isOn => ?_,
        inMode.of_mode rfl⟩
      obtain ⟨process, thread, named⟩ := steady.current isOn
      exact ⟨process, thread, (ProcessTable.atomics_setKernelThreadState changed).trans named⟩
  · cases stepped

end Kernel

end Vantara
