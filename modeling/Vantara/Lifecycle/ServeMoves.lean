import Vantara.Lifecycle.Departures
import Vantara.Lifecycle.LandingMoves

/-!
# System calls as sequences of moves

A system call either leaves its caller on the processor, after free moves and
perhaps the move that the call is for, or takes it off by one move and then answers
with the landing value.  Either way everything stays in order.
-/

namespace Vantara

open Foundation Lifecycle

namespace Kernel

variable {kernel after : Kernel} {env : UserEnv} {frame : SyscallFrame} {call : Syscall}

/-- The moves that are not free and that a system call makes at its start. -/
def CallStarts (kernel : Kernel) (frame : SyscallFrame) (call : Syscall) : Move → Prop
  | .wait _ _ _ _ _ | .sleep _ _ _ _ => kernel.blocksProcess frame = true
  | .handle pid _ =>
    call = .kill ∧ Word.toUInt32? frame.arg0 = some pid ∧ frame.arg1 = sigterm ∧
      (kernel.table.get pid).any (·.handles sigterm) = true
  | _ => False

/-- What a system call does to the thread on the processor and to everything else. -/
inductive Called
    (kernel : Kernel) (frame : SyscallFrame) (call : Syscall) (pid : Pid) (tid : Tid) :
    Answer → Kernel → Prop
  /-- The caller stays on the processor. -/
  | stays {after answer}
      (trail : CausedTrail (kernel.CallStarts frame call) (kernel.viewAt (some (pid, tid)))
        (after.viewAt (some (pid, tid))))
      (steady : after.Steady (some (pid, tid)))
      (mode : after.mode = kernel.mode) :
      Called kernel frame call pid tid answer after
  /-- The caller leaves the processor. -/
  | leaves {after move}
      (moved : Moves (kernel.viewAt (some (pid, tid))) move (after.viewAt none))
      (permitted : move.free = true ∨ kernel.CallStarts frame call move)
      (steady : after.Steady none) :
      Called kernel frame call pid tid (.ok syscallReturnToKernel) after

namespace Called

theorem same (steady : kernel.Steady (some (pid, tid))) :
    kernel.Called frame call pid tid answer kernel :=
  .stays .start steady rfl

theorem of_eq
    (called : kernel.Called frame call pid tid result.1 result.2)
    (same : result = (answer, after)) :
    kernel.Called frame call pid tid answer after := by
  subst same
  exact called

section

variable (steady : kernel.Steady (some (pid, tid)))
include steady

/-- Only the process table changes. -/
theorem of_trail {table : ProcessTable}
    (trail : CausedTrail (kernel.CallStarts frame call) (kernel.viewAt (some (pid, tid)))
      (table.view kernel.unborn (some (pid, tid))))
    (atomics : table.atomics = kernel.table.atomics) :
    kernel.Called frame call pid tid answer (kernel.withTable table) := by
  have trail : CausedTrail (kernel.CallStarts frame call) (kernel.viewAt (some (pid, tid)))
      ((kernel.withTable table).viewAt (some (pid, tid))) := trail
  refine .stays trail (steady.of_trail trail (.of_eq rfl rfl rfl rfl) fun _ _ isOn => ?_) rfl
  obtain ⟨process, thread, named⟩ := steady.current isOn
  exact ⟨process, thread, atomics.trans named⟩

/-- The process table changes in what the life of processes does not depend on. -/
theorem of_view {table : ProcessTable}
    (view : table.view kernel.unborn (some (pid, tid)) = kernel.viewAt (some (pid, tid)))
    (atomics : table.atomics = kernel.table.atomics) :
    kernel.Called frame call pid tid answer (kernel.withTable table) :=
  .of_trail steady (view ▸ .start) atomics

theorem of_leaves
    (leaves : kernel.Leaves pid tid move after)
    (permitted : move.free = true ∨ kernel.CallStarts frame call move) :
    kernel.Called frame call pid tid (.ok syscallReturnToKernel) after := by
  obtain ⟨process, owned, runs, -⟩ := steady.runs
  have trail : Trail Moves (fun _ _ => True) (kernel.viewAt (some (pid, tid)))
      (after.viewAt none) := .single trivial leaves.moves
  exact .leaves leaves.moves permitted
    (steady.of_trail trail (leaves.books.keeps runs) nofun)

/-- Only what processes have opened changes. -/
theorem of_ipc {ipc : Ipc}
    (waiters : ∀ waiter owner, ({ kernel with ipc := ipc } : Kernel).Awaits waiter owner →
      kernel.Awaits waiter owner) :
    kernel.Called frame call pid tid answer { kernel with ipc := ipc } := by
  have trail : CausedTrail (kernel.CallStarts frame call) (kernel.viewAt (some (pid, tid)))
      (({ kernel with ipc := ipc } : Kernel).viewAt (some (pid, tid))) := .start
  refine .stays trail (steady.of_trail trail ?_ fun _ _ => steady.current) rfl
  exact ⟨List.suffix_rfl, fun _ => id, .inl rfl, fun _ _ awaits => .inl (waiters _ _ awaits)⟩

/-- A handler that leaves the events alone. -/
theorem of_commit (keeps : kernel.KeepsEvents result) :
    kernel.Called frame call pid tid (kernel.withIpc (kernel.commit result)).1
      (kernel.withIpc (kernel.commit result)).2 :=
  of_ipc steady fun _ _ awaits => awaits_commit keeps awaits

end

end Called

/-! ## Threads -/

section

variable (steady : kernel.Steady (some (pid, tid)))
include steady

theorem called_exitUserThread (exited : kernel.exitUserThread = (answer, after)) :
    kernel.Called frame call pid tid answer after := by
  obtain ⟨process, owned, runs, -, owner⟩ := steady.runs
  rcases exitUserThread_spec runs owner exited with ⟨rfl, leaves⟩ | ⟨rfl, rfl⟩
  · exact .of_leaves steady leaves (.inl rfl)
  · have trail : CausedTrail (kernel.CallStarts frame call) (kernel.viewAt (some (pid, tid)))
        (((kernel.setCurrentUser none none).setCurrentUser (some pid) (some tid)).viewAt
          (some (pid, tid))) := .start
    refine .stays trail (steady.of_trail trail (.of_eq rfl rfl rfl rfl) ?_) rfl
    rintro _ _ ⟨⟩
    exact ⟨rfl, rfl, rfl⟩

theorem called_joinUserThread (joined : kernel.joinUserThread frame = (answer, after)) :
    kernel.Called frame call pid tid answer after := by
  obtain ⟨process, owned, runs, -, owner⟩ := steady.runs
  rcases joinUserThread_spec runs owner joined with ⟨rfl, leaves⟩ | ⟨-, trail, table, rfl, atomics⟩
  · exact .of_leaves steady leaves (.inl rfl)
  · exact .of_trail steady (.of_free trail) atomics

theorem called_userYield (yielded : kernel.userYield frame = (answer, after)) :
    kernel.Called frame call pid tid answer after := by
  obtain ⟨process, owned, runs, -, owner⟩ := steady.runs
  rcases userYield_spec runs owner yielded with ⟨rfl, leaves⟩ | ⟨rfl, rfl⟩
  · exact .of_leaves steady leaves (.inl rfl)
  · exact .same steady

theorem called_sleepCurrentUser
    (decoded : Syscall.decode frame.number = some .sleepMs)
    (slept : kernel.sleepCurrentUser frame = (answer, after)) :
    kernel.Called frame .sleepMs pid tid answer after := by
  obtain ⟨process, owned, runs, running, -⟩ := steady.runs
  rcases sleepCurrentUser_spec runs slept with
    ⟨-, rfl, rfl⟩ | ⟨long, -, rfl, leaves⟩ | ⟨-, notRunning, -⟩
  · exact .same steady
  · exact .of_leaves steady leaves (.inr (blocksProcess_of_sleep runs decoded long running))
  · exact absurd running notRunning

theorem called_spawnUserThread (left : kernel.table.tidsLeft) :
    kernel.Called frame call pid tid (kernel.spawnUserThread env entry arg).1
      (kernel.spawnUserThread env entry arg).2 := by
  obtain ⟨process, owned, runs, -⟩ := steady.runs
  unfold spawnUserThread
  split
  · exact .same steady
  · exact .same steady
  next caller _ isCaller =>
    obtain rfl := Option.mem_unique isCaller runs.currentProcess
    exact .of_trail steady
      (.of_free (ProcessTable.createManagedUserThread_trail left runs.inTable.found rfl))
      ProcessTable.atomics_createManagedUserThread

theorem called_createUserThread (left : kernel.table.tidsLeft) :
    kernel.Called frame call pid tid (kernel.createUserThread env entry stackPtr stackLen arg).1
      (kernel.createUserThread env entry stackPtr stackLen arg).2 := by
  obtain ⟨process, owned, runs, -⟩ := steady.runs
  unfold createUserThread
  split
  · exact .same steady
  · exact .same steady
  next caller _ isCaller =>
    obtain rfl := Option.mem_unique isCaller runs.currentProcess
    exact .of_trail steady
      (.of_free (ProcessTable.createUserThread_trail left runs.inTable.found rfl))
      ProcessTable.atomics_createUserThread

/-! ## Events -/

theorem called_waitEvent (waited : kernel.waitEvent frame = (answer, after)) :
    kernel.Called frame call pid tid answer after := by
  obtain ⟨process, owned, runs, -, owner⟩ := steady.runs
  rcases waitEvent_spec runs owner waited with ⟨rfl, leaves⟩ | ⟨-, books, ipc, rfl⟩
  · exact .of_leaves steady leaves (.inl rfl)
  · have trail : CausedTrail (kernel.CallStarts frame call) (kernel.viewAt (some (pid, tid)))
        (({ kernel with ipc := ipc } : Kernel).viewAt (some (pid, tid))) := .start
    exact .stays trail (steady.of_trail trail (books.keeps runs) fun _ _ => steady.current) rfl

end

/-- The thread that is woken first has waited, and the others that wait have waited
before. -/
theorem wakeFirstWaiter_spec {table : ProcessTable}
    (woken : wakeFirstWaiter table fuel event = (result, rest)) :
    rest.ownerPid = event.ownerPid ∧
      (∀ waiter, some waiter ∈ rest.waiters → some waiter ∈ event.waiters) ∧
      ∀ reached, result = some reached →
        ∃ tid, some tid ∈ event.waiters ∧ table.wakeThread tid 0 = some reached := by
  induction fuel generalizing event with
  | zero =>
    cases woken
    exact ⟨rfl, fun _ => id, nofun⟩
  | succ fuel ih =>
    rw [wakeFirstWaiter] at woken
    split at woken
    · cases woken
      exact ⟨rfl, fun _ => id, nofun⟩
    next tid shorter dequeued =>
      obtain ⟨first, sameOwner, waited⟩ := Event.dequeue_spec dequeued
      split at woken
      · next reached isWoken =>
          cases woken
          refine ⟨sameOwner, waited, ?_⟩
          rintro _ ⟨⟩
          exact ⟨tid, first, isWoken⟩
      · obtain ⟨owner, waitedRest, wakes⟩ := ih woken
        refine ⟨owner.trans sameOwner, fun waiter listed => waited _ (waitedRest _ listed),
          fun reached isReached => ?_⟩
        obtain ⟨later, listed, isWoken⟩ := wakes reached isReached
        exact ⟨later, waited _ listed, isWoken⟩

theorem called_signalEvent
    (steady : kernel.Steady (some (pid, tid)))
    (signaled : kernel.signalEvent slot = (answer, after)) :
    kernel.Called frame call pid tid answer after := by
  obtain ⟨process, owned, runs, -⟩ := steady.runs
  unfold signalEvent at signaled
  split at signaled
  · cases signaled
    exact .same steady
  next caller isCaller =>
  obtain rfl := Option.mem_unique isCaller runs.currentProcess
  dsimp only at signaled
  split at signaled
  · cases signaled
    exact .same steady
  next event foundEvent =>
  obtain ⟨listed, ownedBy⟩ := Ipc.mem_of_findEvent foundEvent
  -- Whoever still waits has waited for the event before.
  have fewer : ∀ {middle : Kernel} {left : Event}, middle.ipc.events =
      Ipc.setSlot (Ipc.isEvent caller slot) (some left) kernel.ipc.events →
      left.ownerPid = event.ownerPid →
      (∀ waiter, some waiter ∈ left.waiters → some waiter ∈ event.waiters) →
      ∀ waiter owner, middle.Awaits waiter owner → kernel.Awaits waiter owner := by
    rintro middle left events sameOwner waited waiter owner ⟨found, inEvents, isOwner, waits⟩
    rw [events] at inEvents
    rcases Ipc.mem_setSlot inEvents with old | ⟨⟨⟩⟩
    · exact ⟨found, old, isOwner, waits⟩
    · exact ⟨event, listed, sameOwner.symm.trans isOwner, waited _ waits⟩
  split at signaled
  · next table rest isWoken =>
      cases signaled
      obtain ⟨sameOwner, waited, wakes⟩ := wakeFirstWaiter_spec isWoken
      obtain ⟨waiter, waits, woken⟩ := wakes _ rfl
      have ownedWaiter := steady.waiters ⟨event, listed, ownedBy, waits⟩
      have moved : Moves (kernel.viewAt (some (caller, tid))) (.wake caller waiter)
          (table.view kernel.unborn (some (caller, tid))) := by
        refine ProcessTable.wakeThread_moves steady.sound (fun other process found has => ?_) woken
        exact ownedWaiter.only (ProcessTable.view_found found) (by simpa using has)
      have trail : CausedTrail (kernel.CallStarts frame call) (kernel.viewAt (some (caller, tid)))
          (table.view kernel.unborn (some (caller, tid))) := .single (.inl rfl) moved
      refine .stays trail (steady.of_trail trail ⟨List.suffix_rfl, fun _ => id, .inl rfl,
        fun _ _ awaits => .inl (fewer rfl sameOwner waited _ _ awaits)⟩ fun _ _ isOn => ?_) rfl
      obtain ⟨process, thread, named⟩ := steady.current isOn
      exact ⟨process, thread, (ProcessTable.atomics_wakeThread woken).trans named⟩
  · next rest notWoken =>
      cases signaled
      obtain ⟨sameOwner, waited, -⟩ := wakeFirstWaiter_spec notWoken
      exact .of_ipc steady
        (@fewer { kernel with ipc := _ } { rest with signaled := true } rfl sameOwner waited)

/-! ## Programs -/

/-- A request for a program. -/
theorem Steady.queueProgram
    (steady : kernel.Steady cpu)
    (queued : kernel.queueProgram image parent arg jobMode = some (pid, after)) :
    Moves (kernel.viewAt cpu) (.request pid) (after.viewAt cpu) ∧
      after.Steady cpu ∧ after.mode = kernel.mode := by
  obtain ⟨⟨reserved, table⟩, isReserved, ⟨⟩⟩ := Option.bind_eq_some_iff.mp queued
  unfold ProcessTable.reservePid at isReserved
  split_ifs at isReserved with fits
  cases isReserved
  have drawn : (kernel.table.nextPid + 1).toNat = kernel.table.nextPid.toNat + 1 := by
    rw [UInt32.toNat_add]
    exact Nat.mod_eq_of_lt fits
  let requested : Kernel :=
    { kernel with
      table := { kernel.table with nextPid := kernel.table.nextPid + 1 }
      pendingPrograms := kernel.pendingPrograms ++
        [⟨kernel.table.nextPid, parent, image.name, image.path, arg, jobMode⟩] }
  have unborn : requested.unborn = insert kernel.table.nextPid kernel.unborn := by
    ext other
    simp only [Kernel.unborn, requested, List.mem_append, List.mem_singleton,
      Set.mem_ofPred_eq, Set.mem_insert_iff]
    constructor
    · rintro ⟨program, old | rfl, rfl⟩
      · exact .inr ⟨program, old, rfl⟩
      · exact .inl rfl
    · rintro (rfl | ⟨program, old, rfl⟩)
      · exact ⟨_, .inr rfl, rfl⟩
      · exact ⟨program, .inl old, rfl⟩
  have moved : Moves (kernel.viewAt cpu) (.request kernel.table.nextPid)
      (requested.viewAt cpu) := by
    refine Moves.of_eq (.request rfl) ?_
    rw [viewAt, unborn]
    exact View.ext rfl rfl rfl drawn rfl rfl rfl
  refine ⟨moved, ?_, rfl⟩
  constructor
  case sound => exact steady.sound.preserved moved
  case kernelFirst => exact steady.kernelFirst.extends moved.extends
  case current => exact steady.current
  case requests =>
    intro request listed
    obtain ⟨notKernel, old, born, background⟩ := steady.requests listed
    refine ⟨notKernel, ?_, ?_, background⟩
    · change _ < (kernel.table.nextPid + 1).toNat
      omega
    · intro pending
      rw [unborn] at pending
      rcases pending with isNext | isOld
      · rw [isNext] at old
        exact absurd old (Nat.lt_irrefl _)
      · exact born isOld
  case pendingOnce =>
    change ((kernel.pendingPrograms ++ [_]).map UserProgram.pid).Nodup
    rw [List.map_append, List.nodup_append]
    refine ⟨steady.pendingOnce, List.nodup_singleton _, ?_⟩
    intro old isOld new isNew same
    obtain ⟨program, listed, rfl⟩ := List.mem_map.mp isOld
    have isNew : new = kernel.table.nextPid := by simpa using isNew
    have earlier := (steady.sound.unbornDrawn
      (show program.pid ∈ (kernel.viewAt cpu).unborn from ⟨program, listed, rfl⟩)).1
    rw [same, isNew] at earlier
    exact absurd earlier (Nat.lt_irrefl _)
  case pendingUser =>
    intro program listed
    rcases List.mem_append.mp listed with old | new
    · exact steady.pendingUser old
    · obtain rfl := List.mem_singleton.mp new
      rintro ⟨-, -, isKernel⟩
      have slash := congrArg String.toList isKernel
      simp [UserlandImage.path] at slash
  case waiters => exact fun awaits => (steady.waiters awaits).extends moved.extends

theorem Steady.requestPath
    (steady : kernel.Steady cpu)
    (requested : kernel.requestPathWithArgAndMode path arg jobMode = .ok (some (pid, after))) :
    Moves (kernel.viewAt cpu) (.request pid) (after.viewAt cpu) ∧
      after.Steady cpu ∧ after.mode = kernel.mode := by
  unfold requestPathWithArgAndMode at requested
  split at requested
  · cases requested
  split at requested
  · cases requested
  · exact steady.queueProgram (Except.ok.inj requested)

section

variable (steady : kernel.Steady (some (pid, tid)))
include steady

theorem called_execWithMode
    (requested : kernel.execWithMode env pathPtr pathLen argPtr argLen jobMode =
      some (answer, after)) :
    kernel.Called frame call pid tid answer after := by
  unfold execWithMode at requested
  dsimp only at requested
  split at requested
  · cases requested
    exact .same steady
  split at requested
  · cases requested
    exact .same steady
  next queued isQueued =>
    obtain ⟨⟨child, reached⟩, rfl, ⟨⟩⟩ := Option.map_eq_some_iff.mp requested
    obtain ⟨moved, steadyAfter, mode⟩ := steady.requestPath isQueued
    exact .stays (.single (.inl rfl) moved) steadyAfter mode

/-- The process on the processor is not the kernel, has been drawn and is in the
table. -/
theorem Steady.ofCaller :
    pid ≠ 0 ∧ pid.toNat < kernel.table.nextPid.toNat ∧ pid ∉ kernel.unborn := by
  obtain ⟨process, thread, found, user, -⟩ := steady.sound.onCpu rfl
  refine ⟨fun isZero => ?_, steady.sound.pidDrawn found, fun pending => ?_⟩
  · have isKernel := (steady.kernelFirst.kernelTask found).mpr isZero
    rw [user] at isKernel
    cases isKernel
  · have absent := (steady.sound.unbornDrawn (show pid ∈ (kernel.viewAt _).unborn from pending)).2
    rw [found] at absent
    cases absent

theorem called_waitForPendingChild
    (decoded : Syscall.decode frame.number = some .waitpid)
    (waited : kernel.waitForPendingChild frame = (answer, after)) :
    kernel.Called frame .waitpid pid tid answer after := by
  obtain ⟨process, owned, runs, -⟩ := steady.runs
  cases waitForPendingChild_spec runs waited with
  | refused => exact .same steady
  | @collected child status reaped _ collected =>
    obtain ⟨history, trail⟩ := @ProcessTable.reapChild_trail _ kernel.unborn
      (some (pid, tid)) _ _ _ _ collected
    have answered : Moves (reaped.view kernel.unborn (some (pid, tid)))
        (.answer pid child status)
        ((reaped.record (.answered pid child status)).view kernel.unborn
          (some (pid, tid))) := .answer ⟨_, history⟩
    have atomics : reaped.atomics = kernel.table.atomics :=
      ProcessTable.atomics_reapChild collected
    exact .of_trail steady (.of_free (.next trail rfl answered)) atomics
  | @waits child _ isChild notReaped pending moved books requests foreground =>
    refine .leaves moved (.inr
      (blocksProcess_of_wait runs.currentProcess decoded isChild notReaped pending)) ?_
    have unborn : after.unborn = kernel.unborn := by
      rw [Kernel.unborn, Kernel.unborn, show after.pendingPrograms = _ from books.pending]
    have isUnborn : child ∈ kernel.unborn := mem_unborn_of_pendingPid pending
    obtain ⟨notKernel, drawn, born⟩ := steady.ofCaller
    have later : kernel.table.nextPid.toNat ≤ after.table.nextPid.toNat := moved.extends.pidBound
    -- The child that now owns the terminal has not been loaded yet.
    have settles : ∀ {shell}, shell ≠ 0 → shell.toNat < kernel.table.nextPid.toNat →
        shell ∉ kernel.unborn → after.Settled shell := by
      intro shell notZero isDrawn isBorn
      refine ⟨notZero, isDrawn.trans_le later, unborn ▸ isBorn, fun isChild => ?_⟩
      rw [foreground] at isChild
      exact isBorn (isChild ▸ isUnborn)
    constructor
    case sound => exact steady.sound.preserved moved
    case kernelFirst => exact steady.kernelFirst.extends moved.extends
    case current => rintro _ _ ⟨⟩
    case requests =>
      intro request listed
      rw [requests] at listed
      rcases List.mem_append.mp listed with old | new
      · have settled := steady.requests old
        exact settles settled.notKernel settled.drawn settled.born
      · obtain rfl := List.mem_singleton.mp new
        exact settles notKernel drawn born
    case pendingOnce =>
      rw [show after.pendingPrograms = _ from books.pending]
      exact steady.pendingOnce
    case pendingUser =>
      intro program listed
      rw [show after.pendingPrograms = _ from books.pending] at listed
      exact steady.pendingUser listed
    case waiters =>
      intro waiter owner awaits
      have owned := (books.keeps runs).waiters waiter owner awaits
      have ownedBy : OwnedBy (kernel.viewAt (some (pid, tid))) waiter owner :=
        owned.elim steady.waiters fun current => steady.sound.ownedBy current
      exact ownedBy.extends moved.extends

/-! ## Attributes of the calling process -/

theorem called_setSignalAction :
    kernel.Called frame call pid tid (kernel.setSignalAction env signal disposition).1
      (kernel.setSignalAction env signal disposition).2 := by
  unfold setSignalAction
  split_ifs
  · exact .same steady
  all_goals
    dsimp only
    split
    · exact .same steady
    · exact .same steady
    next caller _ isCaller =>
    split
    · exact .same steady
    next old table replaced =>
    exact .of_view steady (ProcessTable.view_setSignalDisposition replaced)
      (ProcessTable.atomics_setSignalDisposition replaced)

theorem called_setProcessGroup :
    kernel.Called frame call pid tid (kernel.setProcessGroup target group).1
      (kernel.setProcessGroup target group).2 := by
  unfold setProcessGroup
  split
  · exact .same steady
  next caller isCaller =>
  dsimp only
  split
  case h_2 => exact .same steady
  next moving joining _ _ =>
  cases moved : kernel.table.setProcessGroup caller moving joining with
  | error _ => exact .same steady
  | ok result =>
    exact .of_view steady (ProcessTable.view_setProcessGroup moved)
      (ProcessTable.atomics_setProcessGroup moved)

theorem called_createSession :
    kernel.Called frame call pid tid kernel.createSession.1 kernel.createSession.2 := by
  unfold createSession
  split
  · exact .same steady
  next caller isCaller =>
  cases created : kernel.table.createSession caller with
  | error _ => exact .same steady
  | ok result =>
    exact .of_view steady (ProcessTable.view_createSession created)
      (ProcessTable.atomics_createSession created)

theorem called_chdirUser :
    kernel.Called frame call pid tid (kernel.chdirUser env pathPtr pathLen).1
      (kernel.chdirUser env pathPtr pathLen).2 := by
  unfold chdirUser
  split
  · exact .same steady
  · exact .same steady
  next caller _ isCaller =>
  split
  · exact .same steady
  next directory _ =>
  cases changed : kernel.table.setCwd caller directory with
  | none => exact .of_view steady rfl rfl
  | some table =>
    exact .of_view steady (ProcessTable.view_setCwd changed)
      (ProcessTable.atomics_setCwd changed)

theorem called_setCurrentUserName :
    kernel.Called frame call pid tid (kernel.setCurrentUserName env namePtr nameLen).1
      (kernel.setCurrentUserName env namePtr nameLen).2 := by
  unfold setCurrentUserName
  split
  · exact .same steady
  · exact .same steady
  next caller _ isCaller =>
  dsimp only
  split_ifs
  · exact .same steady
  generalize ProcessCredentials.fromUsername _ = credentials
  cases changed : kernel.table.setCredentials caller credentials with
  | none => exact .same steady
  | some table =>
    exact .of_view steady (ProcessTable.view_setCredentials changed)
      (ProcessTable.atomics_setCredentials changed)

/-! ## Signals -/

theorem called_updateSignalMask (masked : kernel.updateSignalMask frame = (answer, after)) :
    kernel.Called frame call pid tid answer after := by
  obtain ⟨process, owned, runs, -⟩ := steady.runs
  cases updateSignalMask_spec runs masked with
  | refused _ sameView atomics | returned _ sameView atomics =>
    exact .of_view steady (congrFun sameView _) atomics
  | ended _ leaves | handled _ leaves => exact .of_leaves steady leaves (.inl rfl)

theorem called_sigreturn
    (returned : (match kernel.checkoutCurrentUserAfterSigreturn with
      | some kernel => ((.ok syscallReturnToKernel : Answer), kernel)
      | none => (.error .invalidArgument, kernel)) = (answer, after)) :
    kernel.Called frame call pid tid answer after := by
  obtain ⟨process, owned, runs, -⟩ := steady.runs
  split at returned
  · next restored =>
      cases returned
      obtain ⟨original, leaves⟩ := sigreturn_spec runs restored
      exact .of_leaves steady leaves (.inl rfl)
  · cases returned
    exact .same steady

end

/-- A process that ended gives up what it held. -/
theorem Steady.released (steady : kernel.Steady cpu) :
    ((kernel.closeProcessFiles pid).releasePreparedP4Frame root).Steady cpu := by
  have trail : Trail Moves (fun _ _ => True) (kernel.viewAt cpu)
      (((kernel.closeProcessFiles pid).releasePreparedP4Frame root).viewAt cpu) := by
    rw [viewAt_releasePreparedP4Frame]
    exact .start
  cases root with
  | none =>
    exact steady.of_trail trail ⟨List.suffix_rfl, fun _ => id, .inl rfl,
      fun _ _ awaits => .inl awaits.of_closeProcessFiles⟩ fun _ _ => steady.current
  | some root =>
    refine steady.of_trail trail ⟨List.suffix_rfl, fun _ => id, .inl rfl,
      fun _ _ awaits => .inl ?_⟩ fun _ _ => steady.current
    obtain ⟨event, listed, rest⟩ := awaits
    exact ⟨event, Ipc.mem_closeProcessFiles listed, rest⟩

/-- Nobody sends a signal to the process on the processor but that process. -/
theorem elsewhere_of_ne (other : caller ≠ target) :
    ∀ thread, (some (caller, tid) : Option (Pid × Tid)) ≠ some (target, thread) := by
  rintro thread ⟨⟩
  exact other rfl

/-- A signal that is sent to another process. -/
theorem Steady.sendSignal
    (steady : kernel.Steady (some (pid, tid)))
    (sent : kernel.sendSignal pid target signal = .ok (delivery, after)) :
    CausedTrail (kernel.table.Diverts target signal) (kernel.viewAt (some (pid, tid)))
        (after.viewAt (some (pid, tid))) ∧
      after.Steady (some (pid, tid)) ∧ after.mode = kernel.mode := by
  obtain ⟨-, -, atomics⟩ := steady.current rfl
  have spec : ∀ {delivery table}, kernel.table.sendSignal kernel.ticks pid target signal =
      .ok (delivery, table) →
      CausedTrail (kernel.table.Diverts target signal) (kernel.viewAt (some (pid, tid)))
        ((kernel.withTable table).viewAt (some (pid, tid))) ∧
      (kernel.withTable table).Steady (some (pid, tid)) := by
    intro delivery table isSent
    have other : pid ≠ target := by
      unfold ProcessTable.sendSignal at isSent
      split at isSent
      · cases isSent
      · next process targeted => exact (ProcessTable.signalTarget_spec targeted).2.1
    have trail : CausedTrail (kernel.table.Diverts target signal) (kernel.viewAt (some (pid, tid)))
        ((kernel.withTable table).viewAt (some (pid, tid))) :=
      ProcessTable.sendSignal_trail (elsewhere_of_ne other) isSent
    refine ⟨trail, steady.of_trail trail (.of_eq rfl rfl rfl rfl) fun _ _ isOn => ?_⟩
    obtain ⟨process, thread, named⟩ := steady.current isOn
    refine ⟨process, thread, (ProcessTable.atomics_sendSignal ?_ isSent).trans named⟩
    rw [show kernel.table.currentUserPidAtomic = pid from congrArg Prod.fst atomics]
    exact other
  unfold Kernel.sendSignal at sent
  split at sent
  · cases sent
  · next report table isSent =>
      cases sent
      obtain ⟨trail, steadySent⟩ := spec isSent
      refine ⟨?_, steadySent.released, by cases report.p4Frame <;> rfl⟩
      rw [viewAt_releasePreparedP4Frame]
      exact trail
  · next delivered table _ isSent =>
      cases sent
      exact ⟨(spec isSent).1, (spec isSent).2, rfl⟩

theorem called_terminateProcess
    (steady : kernel.Steady (some (pid, tid)))
    (requested : kernel.terminateProcess frame.arg0 frame.arg1 = (answer, after)) :
    kernel.Called frame .kill pid tid answer after := by
  obtain ⟨process, owned, runs, -⟩ := steady.runs
  unfold terminateProcess at requested
  split at requested
  case h_2 =>
    cases requested
    exact .same steady
  next target caller isTarget isCaller =>
  obtain rfl := Option.mem_unique isCaller runs.currentProcess
  split_ifs at requested with isCont otherSignal
  · split at requested
    · next table continued =>
        cases requested
        exact .of_trail steady
          (.single (.inl rfl) (ProcessTable.continueUserProcess_moves continued))
          (ProcessTable.atomics_continueUserProcess continued)
    · cases requested
      exact .same steady
  · cases requested
    exact .same steady
  have isTerm : frame.arg1 = sigterm := not_not.mp otherSignal
  have served : ∀ {delivery reached answer},
      kernel.sendSignal caller target frame.arg1 = .ok (delivery, reached) →
      kernel.Called frame .kill caller tid answer reached := by
    intro delivery reached answer sent
    obtain ⟨trail, steadySent, mode⟩ := steady.sendSignal sent
    refine .stays (trail.mono fun _ _ permitted => permitted.imp_right ?_) steadySent mode
    rintro ⟨first, handles, main, rfl⟩
    exact ⟨first, rfl, isTarget, isTerm, isTerm ▸ handles⟩
  split at requested
  · cases requested
    exact .same steady
  · next sent =>
      cases requested
      exact served sent
  · next report reached sent =>
      cases requested
      split_ifs
      · obtain ⟨trail, steadySent, mode⟩ := steady.sendSignal sent
        have taken := @Steady.takeRequest _ _ report.pid steadySent
        refine @Called.stays _ _ _ _ _ (reached.takeUserShellWaitRequestForChild report.pid).2 _
          (trail.mono fun _ _ permitted => permitted.imp_right ?_) taken.steady mode
        rintro ⟨first, handles, main, rfl⟩
        exact ⟨first, rfl, isTarget, isTerm, isTerm ▸ handles⟩
      · exact served sent
  · next sent =>
      cases requested
      exact served sent

/-! ## The dispatcher -/

/-- Every system call of the thread on the processor. -/
theorem called_handle
    (steady : kernel.Steady (some (pid, tid)))
    (left : kernel.table.tidsLeft)
    (decoded : Syscall.decode frame.number = some call)
    (handled : kernel.handle env frame call = some (answer, after)) :
    kernel.Called frame call pid tid answer after := by
  cases call
  case exit =>
    cases handled
    obtain ⟨process, owned, runs, -⟩ := steady.runs
    exact .of_leaves steady (markCurrentUserExited_leaves runs) (.inl rfl)
  case uptime =>
    obtain ⟨_, -, ⟨⟩⟩ := Option.map_eq_some_iff.mp handled
    exact .same steady
  case reboot => cases handled
  case exec => exact called_execWithMode steady handled
  case execBg => exact called_execWithMode steady handled
  all_goals have handled := Option.some.inj handled
  case threadExit => exact called_exitUserThread steady handled
  case threadJoin => exact called_joinUserThread steady handled
  case yield => exact called_userYield steady handled
  case sleepMs => exact called_sleepCurrentUser steady decoded handled
  case sigprocmask => exact called_updateSignalMask steady handled
  case sigreturn => exact called_sigreturn steady handled
  case eventWait => exact called_waitEvent steady handled
  case eventSignal => exact called_signalEvent steady handled
  case waitpid => exact called_waitForPendingChild steady decoded handled
  case kill => exact called_terminateProcess steady handled
  all_goals refine .of_eq ?_ handled
  case write => exact .of_commit steady keepsEvents_writeUserBuffer
  case openFile => exact .of_commit steady keepsEvents_openFile
  case read => exact .of_commit steady keepsEvents_readFdToUser
  case close => exact .of_commit steady keepsEvents_closeFd
  case create => exact .of_commit steady keepsEvents_createFile
  case msgqSend => exact .of_commit steady keepsEvents_sendMessage
  case msgqRecv => exact .of_commit steady keepsEvents_receiveMessage
  case msgqClose => exact .of_commit steady keepsEvents_closeMessageQueue
  case eventClose => exact .of_ipc steady fun _ _ => awaits_closeEvent
  case eventCreate => exact .of_ipc steady fun _ _ => awaits_createEvent
  case pipe => exact .of_ipc steady fun _ _ awaits => by rwa [Awaits, events_createPipe] at awaits
  case msgqCreate =>
    exact .of_ipc steady fun _ _ awaits => by rwa [Awaits, events_createMessageQueue] at awaits
  case threadCreate => exact called_createUserThread steady left
  case threadSpawn => exact called_spawnUserThread steady left
  case chdir => exact called_chdirUser steady
  case setuser => exact called_setCurrentUserName steady
  case sigaction => exact called_setSignalAction steady
  case setpgid => exact called_setProcessGroup steady
  case setsid => exact called_createSession steady
  all_goals exact .same steady

end Kernel

end Vantara
