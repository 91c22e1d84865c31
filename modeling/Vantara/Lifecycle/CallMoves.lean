import Vantara.Lifecycle.ScheduleMoves
import Vantara.Lifecycle.Atomics
import Vantara.Lifecycle.Waiters

/-!
# System calls that take the caller off the processor

Each handler that may take the calling thread off the processor either does so
by one move, and then answers with the landing value, or leaves it there.
-/

namespace Vantara

open Foundation Lifecycle

namespace Lifecycle

/-- The moves that take a thread off the processor by its own call. -/
inductive Departs (pid : Pid) (tid : Tid) : Move → Prop
  | park : Departs pid tid (.park pid tid parking)
  | exitThread : Departs pid tid (.exitThread pid tid)
  | finish : Departs pid tid (.finish pid parent status)
  | wait : Departs pid tid (.wait pid tid main child context)
  | sleep : Departs pid tid (.sleep pid tid main context)

end Lifecycle

namespace Kernel

variable {kernel : Kernel} {frame : SyscallFrame}

/-- The processes that wait to be loaded. -/
def unborn (kernel : Kernel) : Set Pid :=
  { pid | ∃ program ∈ kernel.pendingPrograms, program.pid = pid }

/-- What the life of processes depends on, given the thread on the processor. -/
def viewAt (kernel : Kernel) (cpu : Option (Pid × Tid)) : View :=
  kernel.table.view kernel.unborn cpu

/-- The calling thread of a system call. -/
structure Runs
    (kernel : Kernel) (pid : Pid) (tid : Tid) (process : Process) (owned : Thread) :
    Prop where
  currentProcess : kernel.currentUserProcess = some pid
  currentThread : kernel.currentUserThread = some tid
  inTable : kernel.table.Runs pid tid process owned

/-- What the kernel keeps besides the process table is the same, except that
events may have lost waiters and that the caller may await an event of its own
process. -/
structure SameBooks (kernel after : Kernel) : Prop where
  pending : after.pendingPrograms = kernel.pendingPrograms
  requests : after.userShellWaitRequested = kernel.userShellWaitRequested
  foreground : after.terminalForegroundPid = kernel.terminalForegroundPid
  waiters : after.Awaits waiter owner → kernel.Awaits waiter owner ∨
    kernel.currentUserProcess = some owner ∧ kernel.currentUserThread = some waiter

/-- The caller leaves the processor by a move of its own, and nothing else
changes. -/
structure Leaves
    (kernel : Kernel) (pid : Pid) (tid : Tid) (move : Move) (after : Kernel) :
    Prop where
  moves : Moves (kernel.viewAt (some (pid, tid))) move (after.viewAt none)
  departs : Departs pid tid move
  books : kernel.SameBooks after

@[simp] theorem viewAt_releasePreparedP4Frame :
    (kernel.releasePreparedP4Frame slot).viewAt cpu = kernel.viewAt cpu := by
  cases slot <;> rfl

/-- The books are the same if they are literally the same. -/
theorem SameBooks.of_eq
    (pending : after.pendingPrograms = kernel.pendingPrograms)
    (requests : after.userShellWaitRequested = kernel.userShellWaitRequested)
    (foreground : after.terminalForegroundPid = kernel.terminalForegroundPid)
    (events : after.ipc.events = kernel.ipc.events) :
    kernel.SameBooks after :=
  ⟨pending, requests, foreground, fun awaits => .inl (by rwa [Awaits, events] at awaits)⟩

theorem SameBooks.releasePreparedP4Frame (same : kernel.SameBooks after) :
    kernel.SameBooks (after.releasePreparedP4Frame slot) := by
  cases slot with
  | none => exact same
  | some => exact ⟨same.pending, same.requests, same.foreground, same.waiters⟩

section

variable (runs : kernel.Runs pid tid process owned)
include runs

/-- The thread that is taken off the processor. -/
theorem takeCurrentUser_eq :
    kernel.takeCurrentUser = (some (pid, tid), kernel.setCurrentUser none none) := by
  simp [takeCurrentUser, runs.currentProcess, runs.currentThread]

/-- Naming another thread, or none, leaves the table of processes alone. -/
theorem Runs.setCurrentUser :
    (kernel.setCurrentUser namedPid namedTid).table.Runs pid tid process owned :=
  let ⟨found, user, live, owns, threadRuns⟩ := runs.inTable
  ⟨found, user, live, owns, threadRuns⟩

/-- The end of the process on the processor. -/
theorem exitProcess_leaves :
    kernel.Leaves pid tid (.finish pid process.parentPid status)
      (((kernel.setCurrentUser none none).closeProcessFiles pid).exitProcess pid status) := by
  obtain ⟨-, -, found, user, live, -, -⟩ := runs
  refine ⟨?_, .finish, ?_⟩
  · have moved := @ProcessTable.markExited_moves
      (kernel.setCurrentUser none none).table kernel.unborn (some (pid, tid)) _ _ status
      kernel.ticks found user live
    simp only [ne_eq, not_true_eq_false, decide_false, Option.filter_some, Bool.false_eq_true,
      if_false] at moved
    rw [exitProcess, viewAt_releasePreparedP4Frame]
    exact moved
  · have same : kernel.SameBooks ((kernel.setCurrentUser none none).closeProcessFiles pid) :=
      ⟨rfl, rfl, rfl, fun awaits => .inl awaits.of_closeProcessFiles⟩
    exact SameBooks.releasePreparedP4Frame
      ⟨same.pending, same.requests, same.foreground, same.waiters⟩

theorem markCurrentUserExited_leaves :
    kernel.Leaves pid tid (.finish pid process.parentPid status)
      (kernel.markCurrentUserExited status).2 := by
  simp only [markCurrentUserExited, takeCurrentUser_eq runs]
  exact exitProcess_leaves runs

/-- A thread exits unless it is the main thread. -/
theorem exitUserThread_spec
    (owner : kernel.table.getByTid tid = some process)
    (exited : kernel.exitUserThread = (answer, after)) :
    (answer = .ok syscallReturnToKernel ∧ kernel.Leaves pid tid (.exitThread pid tid) after) ∨
    (answer = .error .invalidArgument ∧
      after = (kernel.setCurrentUser none none).setCurrentUser (some pid) (some tid)) := by
  simp only [exitUserThread, markCurrentThreadExited, takeCurrentUser_eq runs] at exited
  split at exited
  · next left departed =>
      cases exited
      split at departed
      · cases departed
      · next exitedOf table isExited =>
          cases departed
          refine .inl ⟨rfl, ?_, .exitThread, .of_eq rfl rfl rfl rfl⟩
          have moved : Moves ((kernel.setCurrentUser none none).viewAt (some (pid, tid))) _ _ :=
            ProcessTable.markThreadExited_moves runs.setCurrentUser owner isExited
          exact moved
  · next stayed =>
      cases exited
      split at stayed
      · cases stayed
        exact .inr ⟨rfl, rfl⟩
      · cases stayed

/-- Joining a sibling blocks the caller, or is answered at once. -/
theorem joinUserThread_spec
    (owner : kernel.table.getByTid tid = some process)
    (joined : kernel.joinUserThread frame = (answer, after)) :
    (answer = .ok syscallReturnToKernel ∧
      kernel.Leaves pid tid (.park pid tid (.blocks (.fromSyscallFrame frame))) after) ∨
    ((answer = .ok 0 ∨ answer = .error .invalidArgument) ∧
      FreeTrail (kernel.viewAt (some (pid, tid))) (after.viewAt (some (pid, tid))) ∧
      ∃ table, after = kernel.withTable table ∧ table.atomics = kernel.table.atomics) := by
  unfold joinUserThread at joined
  rw [runs.currentThread] at joined
  split at joined
  · next target caller _ isCaller =>
      cases isCaller
      have atomics := @ProcessTable.atomics_joinThread kernel.table kernel.ticks tid target
        (.fromSyscallFrame frame)
      cases result : kernel.table.joinThread kernel.ticks tid target
          (.fromSyscallFrame frame) with
      | mk status table =>
        rw [result] at joined atomics
        rcases ProcessTable.joinThread_spec runs.inTable owner result with
          ⟨rfl, moved⟩ | ⟨notBlocked, trail⟩
        · cases joined
          exact .inl ⟨rfl, moved, .park, .of_eq rfl rfl rfl rfl⟩
        · have answered : (answer = .ok 0 ∨ answer = .error .invalidArgument) ∧
              after = kernel.withTable table := by
            cases status <;> simp_all
          obtain ⟨answered, rfl⟩ := answered
          exact .inr ⟨answered, trail, table, rfl, atomics⟩
  · cases joined
    exact .inr ⟨.inr rfl, .start, _, rfl, rfl⟩

end

/-- The caller gives up the processor and stays ready. -/
theorem checkoutCurrentUserIfYielded_leaves (context : UserResumeContext)
    (runs : kernel.Runs pid tid process owned)
    (owner : kernel.table.getByTid tid = some process) :
    ∃ after, kernel.checkoutCurrentUserIfYielded context = (true, after) ∧
      kernel.Leaves pid tid (.park pid tid (.yields context)) after := by
  have stillRuns : (kernel.setCurrentUser none none).table.Runs pid tid process owned :=
    runs.setCurrentUser
  obtain ⟨table, result, moved⟩ :=
    ProcessTable.markThreadYielded_moves kernel.unborn kernel.ticks context stillRuns owner
  have stays : (table.get pid).isSome = true := by
    obtain ⟨-, process, -, found, -⟩ := ProcessTable.yielded_runs moved
    obtain ⟨_, inTable, -⟩ := Option.map_eq_some_iff.mp found
    simp [inTable]
  refine ⟨(kernel.setCurrentUser none none).withTable table, ?_, moved, .park,
    .of_eq rfl rfl rfl rfl⟩
  simp only [checkoutCurrentUserIfYielded, takeCurrentUser_eq runs]
  rw [show (kernel.setCurrentUser none none).ticks = kernel.ticks from rfl, result]
  simp only [stays, withTable]
  rfl

section

variable (runs : kernel.Runs pid tid process owned)
include runs

/-- The caller yields if anything else can run. -/
theorem userYield_spec
    (owner : kernel.table.getByTid tid = some process)
    (yielded : kernel.userYield frame = (answer, after)) :
    (answer = .ok syscallReturnToKernel ∧
      kernel.Leaves pid tid (.park pid tid (.yields (.fromSyscallFrame frame))) after) ∨
    (answer = .ok 0 ∧ after = kernel) := by
  unfold userYield at yielded
  split_ifs at yielded with alone
  · cases yielded
    exact .inr ⟨rfl, rfl⟩
  · left
    obtain ⟨currentProcess, currentThread, found, user, live, owns, threadRuns⟩ := runs
    have counted : kernel.table.recordThreadYield tid =
        some { kernel.table with
          userContextSwitches := kernel.table.userContextSwitches + 1 } := by
      simp [ProcessTable.recordThreadYield, owner, owns, threadRuns]
    simp only [currentThread, Option.bind_some, counted] at yielded
    have recorded : (kernel.withTable { kernel.table with
        userContextSwitches := kernel.table.userContextSwitches + 1
        }).consumeTimerPreemptRequestForYield.Runs pid tid process owned :=
      ⟨currentProcess, currentThread, found, user, live, owns, threadRuns⟩
    obtain ⟨left, result, moves, departs, books⟩ :=
      checkoutCurrentUserIfYielded_leaves (.fromSyscallFrame frame) recorded owner
    rw [result] at yielded
    cases yielded
    exact ⟨rfl, moves, departs, books.pending, books.requests, books.foreground, books.waiters⟩

/-- The process sleeps if it runs and is asked to. -/
theorem sleepCurrentUser_spec
    (slept : kernel.sleepCurrentUser frame = (answer, after)) :
    (frame.arg0 = 0 ∧ answer = .ok 0 ∧ after = kernel) ∨
    (frame.arg0 ≠ 0 ∧ process.state = .running ∧ answer = .ok syscallReturnToKernel ∧
      kernel.Leaves pid tid (.sleep pid tid process.mainTid (.fromSyscallFrame frame)) after) ∨
    (frame.arg0 ≠ 0 ∧ process.state ≠ .running ∧ answer = .error .invalidArgument) := by
  unfold sleepCurrentUser at slept
  split_ifs at slept with zero
  · cases slept
    exact .inl ⟨zero, rfl, rfl⟩
  simp only [runs.currentProcess] at slept
  split at slept
  · next table result =>
      cases slept
      obtain ⟨_, notRunning⟩ := (ProcessTable.markSleeping_spec kernel.unborn tid
        runs.inTable.found result).resolve_left (by simp)
      exact .inr (.inr ⟨zero, notRunning, rfl⟩)
  · next table result =>
      cases slept
      obtain ⟨-, running, moved⟩ := (ProcessTable.markSleeping_spec kernel.unborn tid
        runs.inTable.found result).resolve_right (by simp)
      have saved : kernel.recordSaved pid (.fromSyscallFrame frame) table =
          table.record (.saved tid process.mainTid (.fromSyscallFrame frame)) := by
        simp [recordSaved, runs.currentThread, runs.inTable.found]
      refine .inr (.inl ⟨zero, running, rfl, ?_, .sleep, .of_eq rfl rfl rfl rfl⟩)
      rw [saved]
      exact moved

/-- Waiting for an event blocks the caller, or is answered at once. -/
theorem waitEvent_spec
    (owner : kernel.table.getByTid tid = some process)
    (waited : kernel.waitEvent frame = (answer, after)) :
    (answer = .ok syscallReturnToKernel ∧
      kernel.Leaves pid tid (.park pid tid (.blocks (.fromSyscallFrame frame))) after) ∨
    ((answer = .ok 0 ∨ answer = .error .invalidArgument ∨ answer = .error .wouldBlock) ∧
      kernel.SameBooks after ∧ ∃ ipc, after = { kernel with ipc := ipc }) := by
  unfold waitEvent at waited
  split at waited
  case h_2 =>
    cases waited
    exact .inr ⟨.inr (.inl rfl), .of_eq rfl rfl rfl rfl, _, rfl⟩
  next caller callerThread isCaller isThread =>
    obtain rfl := Option.mem_unique isCaller runs.currentProcess
    obtain rfl := Option.mem_unique isThread runs.currentThread
    dsimp only at waited
    split at waited
    · cases waited
      exact .inr ⟨.inr (.inl rfl), .of_eq rfl rfl rfl rfl, _, rfl⟩
    next event foundEvent =>
      obtain ⟨listed, ownedBy⟩ := Ipc.mem_of_findEvent foundEvent
      split_ifs at waited with signaled
      · cases waited
        refine .inr ⟨.inl rfl, ⟨rfl, rfl, rfl, fun awaits => .inl ?_⟩, _, rfl⟩
        rcases awaits.of_setSlot with old | ⟨_, ⟨⟩, owner, waits⟩
        · exact old
        · exact ⟨event, listed, owner, waits⟩
      split at waited
      · cases waited
        exact .inr ⟨.inr (.inr rfl), .of_eq rfl rfl rfl rfl, _, rfl⟩
      next queued enqueued =>
        obtain ⟨sameOwner, waiters⟩ := Event.enqueue_spec enqueued
        obtain ⟨blocked, result, moved⟩ := ProcessTable.blockThread_moves kernel.unborn
          kernel.ticks (.fromSyscallFrame frame) runs.inTable owner
        simp only [result] at waited
        cases waited
        refine .inl ⟨rfl, moved, .park, rfl, rfl, rfl, fun awaits => ?_⟩
        obtain ⟨slot, slotMem, slotOwner, waits⟩ := awaits
        rcases Ipc.mem_setSlot slotMem with old | ⟨⟨⟩⟩
        · exact .inl ⟨slot, old, slotOwner, waits⟩
        · rcases waiters _ waits with old | rfl
          · exact .inl ⟨event, listed, sameOwner.symm.trans slotOwner, old⟩
          · exact .inr ⟨by rw [isCaller, ← ownedBy, ← sameOwner, slotOwner], isThread⟩

/-- Returning from a signal handler, if one is active. -/
theorem sigreturn_spec
    (restored : kernel.checkoutCurrentUserAfterSigreturn = some after) :
    ∃ original, kernel.Leaves pid tid (.park pid tid (.leavesHandler original)) after := by
  simp only [checkoutCurrentUserAfterSigreturn, runs.currentProcess, runs.currentThread,
    Option.bind_eq_bind, Option.bind_some] at restored
  obtain ⟨table, result, ⟨⟩⟩ := Option.bind_eq_some_iff.mp restored
  obtain ⟨original, moved⟩ := ProcessTable.restoreSignalContext_moves runs.inTable result
  exact ⟨original, moved, .park, .of_eq rfl rfl rfl rfl⟩

/-- The caller is diverted to a signal handler, unless one is active. -/
theorem checkoutForSignalHandler_leaves
    (activated : kernel.checkoutCurrentUserForSignalHandler signal handler original =
      some after) :
    kernel.Leaves pid tid (.park pid tid (.entersHandler original)) after := by
  simp only [checkoutCurrentUserForSignalHandler, runs.currentProcess, runs.currentThread,
    Option.bind_eq_bind, Option.bind_some] at activated
  obtain ⟨table, result, ⟨⟩⟩ := Option.bind_eq_some_iff.mp activated
  have moved : Moves (kernel.viewAt (some (pid, tid))) _ _ :=
    ProcessTable.activateRunningSignalHandler_moves runs.inTable result
  exact ⟨moved, .park, .of_eq rfl rfl rfl rfl⟩

end

/-- What a wait for a child does. -/
inductive WaitOutcome
    (kernel : Kernel) (pid : Pid) (tid : Tid) (process : Process) (frame : SyscallFrame) :
    Answer → Kernel → Prop
  /-- It is refused: there is nothing to collect and nothing to wait for. -/
  | refused :
      refusal ≠ SyscallError.unknownSyscall →
      (∀ child, Word.toUInt32? frame.arg0 = some child →
        kernel.table.reapChild pid child = none ∧ kernel.pendingPid ≠ some child) →
      WaitOutcome kernel pid tid process frame (.error refusal) kernel
  /-- The child has ended and its status is collected. -/
  | collected :
      Word.toUInt32? frame.arg0 = some child →
      kernel.table.reapChild pid child = some (status, reaped) →
      WaitOutcome kernel pid tid process frame (.ok status)
        (kernel.withTable (reaped.record (.answered pid child status)))
  /-- The process blocks until the program loaded next has ended. -/
  | waits :
      Word.toUInt32? frame.arg0 = some child →
      kernel.table.reapChild pid child = none →
      kernel.pendingPid = some child →
      Moves (kernel.viewAt (some (pid, tid)))
        (.wait pid tid process.mainTid child (.fromSyscallFrame frame)) (after.viewAt none) →
      kernel.SameBooks { after with
        userShellWaitRequested := kernel.userShellWaitRequested
        terminalForegroundPid := kernel.terminalForegroundPid } →
      after.userShellWaitRequested = kernel.userShellWaitRequested ++ [⟨pid, child⟩] →
      after.terminalForegroundPid = child →
      WaitOutcome kernel pid tid process frame (.ok syscallReturnToKernel) after

theorem mem_unborn_of_pendingPid (pending : kernel.pendingPid = some child) :
    child ∈ kernel.unborn := by
  obtain ⟨program, isFirst, rfl⟩ := Option.map_eq_some_iff.mp pending
  exact ⟨program, List.mem_of_mem_head? isFirst, rfl⟩

theorem waitForPendingChild_spec
    (runs : kernel.Runs pid tid process owned)
    (waited : kernel.waitForPendingChild frame = (answer, after)) :
    WaitOutcome kernel pid tid process frame answer after := by
  unfold waitForPendingChild at waited
  split at waited
  case h_2 neither =>
    cases waited
    exact .refused (by decide) fun child isChild =>
      (neither child pid isChild runs.currentProcess).elim
  next child parent isChild isParent =>
    obtain rfl := Option.mem_unique isParent runs.currentProcess
    split at waited
    · next status table reaped =>
        cases waited
        exact .collected isChild reaped
    next notReaped =>
    split_ifs at waited with notPending
    · have nothing : ∀ named, Word.toUInt32? frame.arg0 = some named →
          kernel.table.reapChild parent named = none ∧ kernel.pendingPid ≠ some named := by
        intro named isNamed
        obtain rfl := Option.mem_unique isChild isNamed
        exact ⟨notReaped, notPending⟩
      split at waited <;> cases waited <;> exact .refused (by decide) nothing
    · have pending : kernel.pendingPid = some child := by simpa using notPending
      dsimp only at waited
      split at waited
      · next missing =>
          simp [ProcessTable.markWaiting, runs.inTable.found] at missing
      next table result =>
        have moved := ProcessTable.markWaiting_moves tid runs.inTable.found
          (mem_unborn_of_pendingPid pending) result
        have saved : kernel.recordSaved parent (.fromSyscallFrame frame) table =
            table.record (.saved tid process.mainTid (.fromSyscallFrame frame)) := by
          simp [recordSaved, runs.currentThread, runs.inTable.found]
        rw [saved, runs.currentThread] at waited
        cases waited
        exact .waits isChild notReaped pending moved (.of_eq rfl rfl rfl rfl) rfl rfl

/-- Whether a change of the signal mask delivers nothing, or only what is ignored. -/
def deliversNothing (process : Process) (how : ProcessTable.SignalMaskHow) (mask : UInt64) : Bool :=
  match ProcessTable.deliverable process (how.combine process.blockedSignals mask) with
  | none => true
  | some signal => decide (signal = sigterm) && decide (process.sigtermDisposition = sigIgn)

/-- Whether a change of the signal mask is accepted and delivers no signal. -/
def MaskQuiet (process : Process) (frame : SyscallFrame) : Prop :=
  frame.arg1 &&& ~~~sigtermMask = 0 ∧
    ∃ how, maskHow frame.arg0 = some how ∧ deliversNothing process how frame.arg1 = true

/-- What a change of the signal mask does. -/
inductive MaskOutcome
    (kernel : Kernel) (pid : Pid) (tid : Tid) (process : Process) (frame : SyscallFrame) :
    Answer → Kernel → Prop
  /-- It is refused. -/
  | refused :
      ¬MaskQuiet process frame →
      changed.view kernel.unborn = kernel.table.view kernel.unborn →
      changed.atomics = kernel.table.atomics →
      MaskOutcome kernel pid tid process frame (.error .invalidArgument)
        (kernel.withTable changed)
  /-- The old mask is returned. -/
  | returned :
      MaskQuiet process frame →
      changed.view kernel.unborn = kernel.table.view kernel.unborn →
      changed.atomics = kernel.table.atomics →
      MaskOutcome kernel pid tid process frame (.ok process.blockedSignals)
        (kernel.withTable changed)
  /-- A delivered signal ends the process. -/
  | ended :
      ¬MaskQuiet process frame →
      kernel.Leaves pid tid (.finish pid process.parentPid status) after →
      MaskOutcome kernel pid tid process frame (.ok syscallReturnToKernel) after
  /-- A delivered signal diverts the thread to its handler. -/
  | handled :
      ¬MaskQuiet process frame →
      kernel.Leaves pid tid (.park pid tid (.entersHandler original)) after →
      MaskOutcome kernel pid tid process frame (.ok syscallReturnToKernel) after

/-- The process after a change of its signal mask. -/
theorem updateSignalMask_table {table : ProcessTable} (runs : table.Runs pid tid process owned) :
    ∃ pending, table.updateSignalMask pid how mask =
      some (⟨process.blockedSignals, how.combine process.blockedSignals mask,
          ProcessTable.deliverable process (how.combine process.blockedSignals mask)⟩,
        table.putProcess { process with
          blockedSignals := how.combine process.blockedSignals mask
          pendingSignals := pending }) := by
  have accepted : ¬(process.kind ≠ .userProcess ∨ process.state.terminal = true) := by
    simp [runs.user, runs.live]
  rw [ProcessTable.updateSignalMask, runs.found]
  exact ⟨_, if_neg accepted⟩

/-- A change of the table that the caller's part of the view does not show. -/
theorem Leaves.of_viewAt_eq
    (leaves : before.Leaves pid tid move after)
    (sameView : before.viewAt (some (pid, tid)) = kernel.viewAt (some (pid, tid)))
    (books : kernel.SameBooks before)
    (sameProcess : before.currentUserProcess = kernel.currentUserProcess)
    (sameThread : before.currentUserThread = kernel.currentUserThread) :
    kernel.Leaves pid tid move after where
  moves := sameView ▸ leaves.moves
  departs := leaves.departs
  books := by
    refine ⟨leaves.books.pending.trans books.pending, leaves.books.requests.trans books.requests,
      leaves.books.foreground.trans books.foreground, fun awaits => ?_⟩
    rcases leaves.books.waiters awaits with old | current
    · exact books.waiters old
    · exact .inr ⟨sameProcess ▸ current.1, sameThread ▸ current.2⟩

theorem updateSignalMask_spec
    (runs : kernel.Runs pid tid process owned)
    (updated : kernel.updateSignalMask frame = (answer, after)) :
    MaskOutcome kernel pid tid process frame answer after := by
  unfold updateSignalMask at updated
  split_ifs at updated with unknown
  · cases updated
    exact .refused (fun quiet => unknown quiet.1) rfl rfl
  split at updated
  case h_2 neither =>
    cases updated
    refine .refused ?_ rfl rfl
    rintro ⟨-, how, isHow, -⟩
    exact neither how pid isHow runs.currentProcess
  next how caller isHow isCaller =>
    obtain rfl := Option.mem_unique isCaller runs.currentProcess
    obtain ⟨pending, result⟩ := @updateSignalMask_table caller tid process owned how frame.arg1 _
      runs.inTable
    have sameView := funext fun cpu =>
      @ProcessTable.view_updateSignalMask _ kernel.unborn cpu _ _ _ _ _ result
    have atomics := ProcessTable.atomics_updateSignalMask result
    have known : frame.arg1 &&& ~~~sigtermMask = 0 := by simpa using unknown
    have quiet_iff : MaskQuiet process frame ↔
        deliversNothing process how frame.arg1 = true := by
      constructor
      · rintro ⟨-, named, isNamed, nothing⟩
        rwa [Option.mem_unique isHow isNamed]
      · exact fun nothing => ⟨known, how, isHow, nothing⟩
    obtain rfl := ProcessTable.pid_of_get runs.inTable.found
    rw [result] at updated
    generalize changed : kernel.table.putProcess { process with
      blockedSignals := how.combine process.blockedSignals frame.arg1
      pendingSignals := pending } = table at updated sameView atomics
    have stored : table.get process.pid = some { process with
        blockedSignals := how.combine process.blockedSignals frame.arg1
        pendingSignals := pending } := by
      rw [← changed, ProcessTable.get_putProcess]
      exact if_pos rfl
    have changedRuns : (kernel.withTable table).Runs process.pid tid { process with
        blockedSignals := how.combine process.blockedSignals frame.arg1
        pendingSignals := pending } owned :=
      ⟨runs.currentProcess, runs.currentThread, stored, runs.inTable.user, runs.inTable.live,
        runs.inTable.owns, runs.inTable.threadRuns⟩
    dsimp only at updated
    split at updated
    · next nothing =>
        cases updated
        exact .returned (quiet_iff.mpr (by simp [deliversNothing, nothing])) sameView atomics
    next signal isSignal =>
      rw [show (kernel.withTable table).table = table from rfl, stored] at updated
      split at updated
      · next other =>
          cases updated
          refine .refused (fun quiet => ?_) sameView atomics
          have nothing := quiet_iff.mp quiet
          simp_all [deliversNothing]
      next deliveredTo accepted =>
        obtain ⟨⟨⟩, isTerm⟩ := Option.filter_eq_some_iff.mp accepted
        dsimp only at updated
        split_ifs at updated with ignored default
        · cases updated
          exact .returned (quiet_iff.mpr (by simp_all [deliversNothing])) sameView atomics
        all_goals
          have loud : ¬MaskQuiet process frame := by
            rw [quiet_iff, deliversNothing, isSignal]
            simp [ignored]
        · cases updated
          exact .ended loud ((markCurrentUserExited_leaves changedRuns).of_viewAt_eq
            (congrFun sameView _) (.of_eq rfl rfl rfl rfl) rfl rfl)
        · split at updated
          · cases updated
            exact .refused loud sameView atomics
          next handled activated =>
            cases updated
            exact .handled loud ((checkoutForSignalHandler_leaves changedRuns
              activated).of_viewAt_eq (congrFun sameView _) (.of_eq rfl rfl rfl rfl) rfl rfl)

end Kernel

end Vantara
