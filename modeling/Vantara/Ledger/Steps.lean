import Vantara.Ledger.Calls

/-!
# Steps of the kernel as entries in the ledger

Every step of the running system is a sequence of entries in the ledger.  Each
entry is tied to the action that causes it, and in user mode the processor is
occupied by a live thread that the kernel names.
-/

namespace Vantara

open Foundation

namespace Kernel

variable {kernel : Kernel}

/-- The shell that a landing gives up because it cannot be resumed. -/
def bridgedShell (kernel : Kernel) : Option Pid :=
  if kernel.checkoutCurrentUserIfBlocked.isSome || !kernel.pendingPrograms.isEmpty then
    none
  else
    let kernel := kernel.maintainProcessTable
    kernel.lastExitSummary.bind fun childPid =>
      let taken := (kernel.clearTerminalForegroundJob childPid).takeUserShellWaitRequestForChild
        childPid
      taken.1.bind fun request =>
        if (taken.2.resumeWaitingParent request.shellPid request.childPid).isSome then
          none
        else
          some request.shellPid

/-- An action reaches the landing in a state. -/
def LandsAt (kernel : Kernel) (action : Action) (landing : Kernel) : Prop :=
  match action with
  | .syscall frame env =>
    kernel.syscallInterruptDispatch env frame = some (syscallReturnToKernel, landing)
  | .fault kind => (kernel.markCurrentUserFault kind.status).2 = landing
  | _ => False

/-- The entries that the landing makes. -/
def LandingCauses (landing : Kernel) (_ : Ledger) : Entry → Prop
  | .giveUp pid => landing.bridgedShell = some pid
  | .forget => True
  | _ => False

/-- The entries that the kernel makes on its own account. -/
def LoopCauses (kernel : Kernel) (action : Action) (ledger : Ledger) : Entry → Prop
  | .launch _ _ | .drop _ => ledger = kernel.ledger ∧ ∃ outcome, action = .pending outcome
  | .draw program =>
    ledger = kernel.ledger ∧ (∃ command, action = .input command) ∧
      program.parentPid = kernel.currentUserProcess.or (some 1)
  | .giveUp pid => ∃ landing, kernel.LandsAt action landing ∧ landing.bridgedShell = some pid
  | .finish _ | .forget => True
  | _ => False

/-- The entries that the handler of a system call makes. -/
def SyscallCauses (kernel : Kernel) (frame : SyscallFrame) (ledger : Ledger) (entry : Entry) :
    Prop :=
  ∃ call, Syscall.decode frame.number = some call ∧ kernel.CallCauses frame call ledger entry

/-- The entries that an action makes, and the ledger in which it makes them. -/
def Causes (kernel : Kernel) (action : Action) (ledger : Ledger) (entry : Entry) : Prop :=
  (∃ frame env call, action = .syscall frame env ∧ Syscall.decode frame.number = some call ∧
    kernel.CallCauses frame call ledger entry) ∨
  kernel.LoopCauses action ledger entry

/-- Some thread is on the processor. -/
def Occupied (kernel : Kernel) : Prop :=
  ∃ pid tid, kernel.Attends pid tid

/-- The ledger is in order, and in user mode the processor is occupied. -/
structure Orderly (kernel : Kernel) : Prop where
  filed : kernel.ledger.Filed
  occupied : kernel.mode = .user → kernel.Occupied

/-- A step is a sequence of entries after which the processor is occupied in user
mode. -/
structure Keeps (kernel : Kernel) (action : Action) (after : Kernel) : Prop where
  writes : Trail Posts (kernel.Causes action) kernel.ledger after.ledger
  occupied : after.mode = .user → after.Occupied

theorem Trail.filed
    {permits : Ledger → Entry → Prop} {first last : Ledger}
    (trail : Trail Posts permits first last)
    (filed : first.Filed) :
    last.Filed :=
  trail.invariant filed fun _ _ _ filed _ posts => filed.preserved posts

theorem Trail.of_loop (trail : Trail Posts (kernel.LoopCauses action) first last) :
    Trail Posts (kernel.Causes action) first last :=
  trail.mono fun _ _ caused => .inr caused

/-! ## The landing -/

theorem sheet_reapZombies {table : ProcessTable} (tidy : table.sheet.Tidy) :
    table.reapUnwaitedZombies.reapOrphanZombies.sheet = table.sheet := by
  have unwaited : table.reapUnwaitedZombies.sheet = table.sheet :=
    ProcessTable.sheet_reapAll (by simp +contextual) tidy
  have orphans : table.reapUnwaitedZombies.reapOrphanZombies.sheet =
      table.reapUnwaitedZombies.sheet :=
    ProcessTable.sheet_reapAll (by simp +contextual) (unwaited ▸ tidy)
  exact orphans.trans unwaited

theorem posts_maintainProcessTable (filed : kernel.ledger.Filed) :
    Posts kernel.ledger .forget kernel.maintainProcessTable.ledger := by
  have forgets : kernel.table.sheet.Forgets kernel.maintainProcessTable.table.sheet := by
    have zombies := sheet_reapZombies filed.tidy
    rw [← zombies]
    exact ProcessTable.forgets_compactReapedHistory
  exact .forget forgets

theorem attends_maintainProcessTable (attends : kernel.Attends pid tid) :
    kernel.maintainProcessTable.Attends pid tid := by
  unfold maintainProcessTable
  exact ⟨attends.process, attends.thread, ProcessTable.onCpu_compactReapedHistory
    (ProcessTable.onCpu_reapAll (by simp +contextual)
      (ProcessTable.onCpu_reapAll (by simp +contextual) attends.runs))⟩

/-- Forgetting records goes before anything else. -/
theorem Trail.forget {landing : Kernel}
    (filed : kernel.ledger.Filed)
    (before : Trail Posts landing.LandingCauses first kernel.ledger) :
    Trail Posts landing.LandingCauses first kernel.maintainProcessTable.ledger :=
  .next before (by exact trivial) (posts_maintainProcessTable filed)

theorem ledger_clearTerminalForegroundJob :
    (kernel.clearTerminalForegroundJob pid).ledger = kernel.ledger := by
  unfold clearTerminalForegroundJob
  split_ifs <;> rfl

/-- A parent back on the processor. -/
theorem resumeWaitingParent_ledger
    (filed : kernel.ledger.Filed)
    (resumed : kernel.resumeWaitingParent parent child = some after) :
    after.ledger = kernel.ledger ∧ after.Occupied := by
  obtain ⟨⟨resume, table⟩, isResumed, ⟨⟩⟩ := Option.bind_eq_some_iff.mp resumed
  have sheet := ProcessTable.sheet_resumeWaitingParent filed.tidy isResumed
  obtain ⟨tid, runs, main⟩ := ProcessTable.onCpu_resumeWaitingParent filed.tidy isResumed
  have same : ({ kernel with table := table } : Kernel).ledger = kernel.ledger :=
    Ledger.ext sheet rfl rfl
  have tidy : table.sheet.Tidy := sheet ▸ filed.tidy
  refine ⟨(ledger_setCurrentUser tidy ?_).trans same, parent, tid, rfl, main, runs⟩
  rintro named isNamed
  obtain rfl := Option.mem_unique main isNamed
  exact runs.later tidy

theorem posts_giveUp {middle : Kernel}
    (filed : kernel.ledger.Filed)
    (same : kernel.bridgeWait request = (middle.table.markReaped middle.ticks request.shellPid).elim
      middle fun table => { middle with table := table })
    (sameLedger : middle.ledger = kernel.ledger) :
    (kernel.bridgeWait request).ledger = kernel.ledger ∨
      Posts kernel.ledger (.giveUp request.shellPid) (kernel.bridgeWait request).ledger := by
  have tidy : middle.table.sheet.Tidy := (sameLedger ▸ filed : middle.ledger.Filed).tidy
  rw [same, ← sameLedger]
  cases reaped : middle.table.markReaped middle.ticks request.shellPid with
  | none => exact .inl rfl
  | some table =>
    obtain ⟨process, found, sheet⟩ := ProcessTable.sheet_markReaped tidy reaped
    exact .inr (.of_eq (.giveUp (ProcessTable.card_of_get found)) (Ledger.ext sheet rfl rfl))

/-- The wait bridge gives up its shell. -/
theorem posts_bridgeWait (filed : kernel.ledger.Filed) (request : UserShellWaitRequest) :
    (kernel.bridgeWait request).ledger = kernel.ledger ∨
      Posts kernel.ledger (.giveUp request.shellPid) (kernel.bridgeWait request).ledger := by
  cases collected : kernel.table.reapChild request.shellPid request.childPid with
  | none =>
    refine posts_giveUp filed ?_ rfl
    simp only [bridgeWait, collected]
    cases kernel.table.markReaped kernel.ticks request.shellPid <;> rfl
  | some result =>
    refine @posts_giveUp _ _ { kernel with table := result.2 } filed ?_ ?_
    · simp only [bridgeWait, collected]
      cases result.2.markReaped kernel.ticks request.shellPid <;> rfl
    · exact Ledger.ext (ProcessTable.sheet_reapChild filed.tidy collected) rfl rfl

/-- The answer to the wait request for the process that ended last. -/
theorem updateUserShellRespawn_cases
    (answered : kernel.updateUserShellRespawn summary = (resumed, after)) :
    resumed = false ∧ after.ledger = kernel.ledger ∨
      ∃ childPid request cleared, summary = some childPid ∧
        (kernel.clearTerminalForegroundJob childPid).takeUserShellWaitRequestForChild childPid =
          (some request, cleared) ∧
        cleared.ledger = kernel.ledger ∧
        ((∃ parent, resumed = true ∧ after = parent.maintainProcessTable ∧
            cleared.resumeWaitingParent request.shellPid request.childPid = some parent) ∨
          resumed = false ∧ after = cleared.bridgeWait request ∧
            cleared.resumeWaitingParent request.shellPid request.childPid = none) := by
  unfold updateUserShellRespawn at answered
  split at answered
  · cases answered
    exact .inl ⟨rfl, rfl⟩
  next childPid =>
  have same : ((kernel.clearTerminalForegroundJob childPid).takeUserShellWaitRequestForChild
      childPid).2.ledger = kernel.ledger := ledger_clearTerminalForegroundJob
  split at answered
  · next isTaken =>
      cases answered
      exact .inl ⟨rfl, congrArg (ledger ∘ Prod.snd) isTaken |>.symm.trans same⟩
  · next request cleared isTaken =>
      rw [isTaken] at same
      refine .inr ⟨childPid, request, cleared, rfl, isTaken, same, ?_⟩
      split at answered
      · next parent isResumed =>
          cases answered
          exact .inl ⟨parent, rfl, rfl, isResumed⟩
      · next notResumed =>
          cases answered
          exact .inr ⟨rfl, rfl, notResumed⟩

/-- A thread is dispatched, or none was found. -/
theorem scheduleNextReadyUser_ledger
    (filed : kernel.ledger.Filed)
    (scheduled : kernel.scheduleNextReadyUser = (dispatched, after)) :
    after.ledger = kernel.ledger ∧ (dispatched = true → after.Occupied) := by
  unfold scheduleNextReadyUser at scheduled
  split at scheduled
  · next table chosen =>
      cases scheduled
      obtain ⟨sheet, -⟩ := ProcessTable.sheet_scheduleLoop filed.tidy chosen
      exact ⟨Ledger.ext sheet rfl rfl, nofun⟩
  · next resume table chosen =>
      cases scheduled
      obtain ⟨sheet, runs⟩ := ProcessTable.sheet_scheduleLoop filed.tidy chosen
      have same : ({ kernel with table := table } : Kernel).ledger = kernel.ledger :=
        Ledger.ext sheet rfl rfl
      have tidy : table.sheet.Tidy := sheet ▸ filed.tidy
      have isOn := runs resume rfl
      refine ⟨(ledger_setCurrentUser tidy ?_).trans same, fun _ =>
        ⟨resume.pid, resume.tid, rfl, rfl, isOn⟩⟩
      rintro _ ⟨⟩
      exact isOn.later tidy

theorem enterUserOrLoop_ledger (filed : kernel.ledger.Filed) :
    (enterUserOrLoop kernel.scheduleNextReadyUser).ledger = kernel.ledger ∧
      ((enterUserOrLoop kernel.scheduleNextReadyUser).mode = .user →
        (enterUserOrLoop kernel.scheduleNextReadyUser).Occupied) := by
  cases scheduled : kernel.scheduleNextReadyUser with
  | mk dispatched after =>
    obtain ⟨same, occupied⟩ := scheduleNextReadyUser_ledger filed scheduled
    refine ⟨same, fun isUser => ?_⟩
    cases dispatched with
    | false => cases isUser
    | true =>
      obtain ⟨pid, tid, attends⟩ := occupied rfl
      exact ⟨pid, tid, attends.process, attends.thread, attends.runs⟩

/-- What the landing writes down. -/
theorem userExitLanding_writes {landing : Kernel} (filed : landing.ledger.Filed) :
    Trail Posts landing.LandingCauses landing.ledger landing.userExitLanding.ledger ∧
      (landing.userExitLanding.mode = .user → landing.userExitLanding.Occupied) := by
  unfold userExitLanding
  split
  · next left isBlocked =>
      have same : left.ledger = landing.ledger :=
        eq_of_checkoutIfBlocked isBlocked ▸ ledger_leaveCurrentUser filed.tidy
      refine ⟨?_, nofun⟩
      rw [← same] at filed ⊢
      have forgets := Trail.forget filed (.start : Trail Posts landing.LandingCauses _ _)
      -- Otherwise the ledgers are compared by unfolding the sweeps.
      generalize left.maintainProcessTable = kept at forgets ⊢
      exact forgets
  next notBlocked =>
  have maintained : Trail Posts landing.LandingCauses landing.ledger
      landing.maintainProcessTable.ledger := Trail.forget filed .start
  split_ifs with hasPending
  · refine ⟨?_, nofun⟩
    generalize landing.maintainProcessTable = kept at maintained ⊢
    exact maintained
  have maintainedFiled := Trail.filed maintained filed
  dsimp only
  cases answered : landing.maintainProcessTable.updateUserShellRespawn
      landing.maintainProcessTable.lastExitSummary with
  | mk resumed after =>
  have reached : Trail Posts landing.LandingCauses landing.ledger after.ledger ∧
      (resumed = true → after.Occupied) := by
    obtain ⟨rfl, same⟩ | ⟨childPid, request, cleared, isSummary, isTaken, same, outcome⟩ :=
      updateUserShellRespawn_cases answered
    · refine ⟨?_, nofun⟩
      rw [same]
      exact maintained
    rw [← same] at maintained maintainedFiled
    obtain ⟨parent, rfl, rfl, isResumed⟩ | ⟨rfl, rfl, notResumed⟩ := outcome
    · obtain ⟨sameResumed, pid, tid, attends⟩ :=
        resumeWaitingParent_ledger maintainedFiled isResumed
      rw [← sameResumed] at maintained maintainedFiled
      exact ⟨Trail.forget maintainedFiled maintained, fun _ =>
        ⟨pid, tid, attends_maintainProcessTable attends⟩⟩
    · refine ⟨?_, nofun⟩
      obtain unchanged | posts := posts_bridgeWait maintainedFiled request
      · rw [unchanged]
        exact maintained
      · refine .next maintained ?_ posts
        simp [LandingCauses, bridgedShell, notBlocked, hasPending, isSummary, isTaken, notResumed]
  obtain ⟨reached, isOccupied⟩ := reached
  cases resumed with
  | true =>
    refine ⟨reached, fun _ => ?_⟩
    obtain ⟨pid, tid, attends⟩ := isOccupied rfl
    exact ⟨pid, tid, attends.process, attends.thread, attends.runs⟩
  | false =>
    have maintainedAgain := Trail.forget (Trail.filed reached filed) reached
    obtain ⟨same, occupied⟩ := enterUserOrLoop_ledger (Trail.filed maintainedAgain filed)
    refine ⟨?_, occupied⟩
    rw [same]
    exact maintainedAgain

theorem userExitLanding_ledger {landing : Kernel}
    (filed : landing.ledger.Filed)
    (lands : kernel.LandsAt action landing) :
    Trail Posts (kernel.LoopCauses action) landing.ledger landing.userExitLanding.ledger ∧
      (landing.userExitLanding.mode = .user → landing.userExitLanding.Occupied) := by
  obtain ⟨writes, occupied⟩ := userExitLanding_writes filed
  refine ⟨writes.mono fun _ entry caused => ?_, occupied⟩
  cases entry with
  | giveUp => exact ⟨landing, lands, caused⟩
  | forget => trivial
  | _ => cases caused

/-! ## The actions -/

theorem Keeps.of_ledger
    (ledger : after.ledger = kernel.ledger)
    (occupied : after.mode = .user → after.Occupied) :
    kernel.Keeps action after :=
  ⟨by rw [ledger]; exact .start, occupied⟩

/-- Something changes that neither the ledger nor the processor depends on. -/
theorem Occupied.of_same {after : Kernel}
    (occupied : kernel.Occupied)
    (process : after.currentUserProcess = kernel.currentUserProcess)
    (thread : after.currentUserThread = kernel.currentUserThread)
    (table : ∀ pid, after.table.get pid = kernel.table.get pid) :
    after.Occupied := by
  obtain ⟨pid, tid, attends⟩ := occupied
  exact ⟨pid, tid, process.trans attends.process, thread.trans attends.thread,
    attends.runs.of_get_eq (table pid)⟩

section

variable (filed : kernel.ledger.Filed) (attends : kernel.Attends pid tid)
include filed attends

/-- What the handler of a system call does before the landing. -/
theorem syscallInterruptDispatch_writes
    (dispatched : kernel.syscallInterruptDispatch env frame = some (value, called)) :
    Trail Posts (kernel.SyscallCauses frame) kernel.ledger called.ledger ∧
      (value ≠ syscallReturnToKernel → called.Attends pid tid) := by
  unfold syscallInterruptDispatch at dispatched
  split at dispatched
  · cases dispatched
    exact ⟨.start, fun _ => attends⟩
  · next call decoded =>
      obtain ⟨⟨answer, after⟩, handled, ⟨⟩⟩ := Option.map_eq_some_iff.mp dispatched
      obtain ⟨writes, stays⟩ := serves_handle filed attends handled
      exact ⟨writes.mono fun _ _ caused => ⟨call, decoded, caused⟩, stays⟩

theorem syscallInterruptDispatch_ledger
    (dispatched : kernel.syscallInterruptDispatch env frame = some (value, called)) :
    Trail Posts (kernel.Causes (.syscall frame env)) kernel.ledger called.ledger ∧
      (value ≠ syscallReturnToKernel → called.Attends pid tid) := by
  obtain ⟨writes, stays⟩ := syscallInterruptDispatch_writes filed attends dispatched
  exact ⟨writes.mono fun _ _ ⟨call, decoded, caused⟩ =>
    .inl ⟨frame, env, call, rfl, decoded, caused⟩, stays⟩

theorem keeps_systemCall : kernel.Keeps (.syscall frame env) (kernel.systemCall frame env) := by
  unfold systemCall
  split
  · exact .of_ledger rfl nofun
  next value called dispatched =>
  obtain ⟨writes, stays⟩ := syscallInterruptDispatch_ledger filed attends dispatched
  split_ifs with returns
  · subst returns
    obtain ⟨landed, occupied⟩ := @userExitLanding_ledger kernel (.syscall frame env) called
      (Trail.filed writes filed) dispatched
    exact ⟨writes.trans (Trail.of_loop landed), occupied⟩
  · exact ⟨writes, fun _ => ⟨pid, tid, stays returns⟩⟩

end

theorem markCurrentUserFault_eq (attends : kernel.Attends pid tid) :
    kernel.markCurrentUserFault status =
      (some pid, (kernel.markCurrentUserExited status).2) := by
  obtain ⟨process, found, -⟩ := attends.runs.lives
  have stays : ((kernel.setCurrentUser none none).closeProcessFiles pid).table.get pid =
      some process := found
  simp only [markCurrentUserFault, markCurrentUserExited, attends.takeCurrentUser, stays]

theorem keeps_userFault (filed : kernel.ledger.Filed) (attends : kernel.Attends pid tid) :
    kernel.Keeps (.fault kind) (kernel.userFault kind) := by
  have posts := @posts_markCurrentUserExited _ _ _ kind.status filed attends
  have writes : Trail Posts (kernel.LoopCauses (.fault kind)) kernel.ledger
      (kernel.markCurrentUserExited kind.status).2.ledger := .single (by exact trivial) posts
  have lands : kernel.LandsAt (.fault kind) (kernel.markCurrentUserExited kind.status).2 := by
    simp only [LandsAt, markCurrentUserFault_eq attends]
  obtain ⟨landed, occupied⟩ := userExitLanding_ledger (filed.preserved posts) lands
  rw [userFault, markCurrentUserFault_eq attends]
  exact ⟨Trail.of_loop (writes.trans landed), occupied⟩

theorem tick_spec (ticked : kernel.tick = some after) :
    after.ledger = kernel.ledger ∧ after.mode = kernel.mode ∧
      after.table.get = kernel.table.get ∧
      after.currentUserProcess = kernel.currentUserProcess ∧
      after.currentUserThread = kernel.currentUserThread := by
  unfold tick at ticked
  split_ifs at ticked
  cases ticked
  unfold recordTimerPreemptionCheck
  split_ifs <;> exact ⟨rfl, rfl, rfl, rfl, rfl⟩

theorem keeps_preemptCurrentUser (filed : kernel.ledger.Filed) (occupied : kernel.Occupied) :
    (kernel.preemptCurrentUser context).ledger = kernel.ledger ∧
      (kernel.preemptCurrentUser context).Occupied := by
  unfold preemptCurrentUser
  split_ifs with idle
  · exact ⟨rfl, occupied⟩
  have later : firstUserTid ≤ kernel.table.currentUserTidAtomic.toNat := by
    refine filed.tidy.1.2.resolve_left fun isZero => idle ?_
    simp [isZero]
  split
  · next table preempted =>
      obtain rfl := ProcessTable.preemptRunningThread_none preempted
      exact ⟨rfl, occupied⟩
  · next resume table preempted =>
      obtain ⟨sheet, runs⟩ :=
        ProcessTable.sheet_preemptRunningThread filed.tidy later preempted
      have tidy : table.sheet.Tidy := sheet ▸ filed.tidy
      have isOn := runs resume rfl
      refine ⟨Ledger.ext (Eq.trans ?_ sheet) rfl rfl, resume.pid, resume.tid, rfl, rfl, isOn⟩
      exact Sheet.ext rfl rfl rfl
        (propext (iff_of_true ⟨tidy.1.1, .inr (isOn.later tidy)⟩ tidy.1)) rfl

theorem keeps_timerInterrupt (filed : kernel.ledger.Filed) (occupied : kernel.Occupied) :
    kernel.Keeps (.timer context) (kernel.timerInterrupt context) := by
  unfold timerInterrupt
  split
  · exact .of_ledger rfl nofun
  next ticked isTicked =>
  obtain ⟨same, -, sameGet, sameProcess, sameThread⟩ := tick_spec isTicked
  have tidy : ticked.table.sheet.Tidy := (same ▸ filed : ticked.ledger.Filed).tidy
  have woken : (ticked.withTable (ticked.table.wakeSleepingProcesses ticked.ticks)).ledger =
      kernel.ledger := by
    rw [← same]
    exact Ledger.ext (ProcessTable.sheet_wakeSleepingProcesses tidy) rfl rfl
  obtain ⟨pid, tid, attends⟩ := occupied.of_same sameProcess sameThread (congrFun sameGet)
  have wokenOccupied : (ticked.withTable
      (ticked.table.wakeSleepingProcesses ticked.ticks)).Occupied :=
    ⟨pid, tid, attends.process, attends.thread,
      ProcessTable.onCpu_wakeSleepingProcesses attends.runs⟩
  rw [← woken] at filed
  obtain ⟨preempted, isOccupied⟩ := @keeps_preemptCurrentUser _ context filed wokenOccupied
  exact .of_ledger (preempted.trans woken) fun _ => isOccupied

theorem continueLoop_ledger :
    (kernel.continueLoop stage).ledger = kernel.ledger ∧
      (kernel.continueLoop stage).mode ≠ .user := by
  unfold continueLoop
  split_ifs with halted
  · exact ⟨rfl, by simp [halted]⟩
  · exact ⟨rfl, nofun⟩

theorem keeps_handleInput :
    kernel.Keeps (.input command) ((kernel.handleInput command).continueLoop stage) := by
  obtain ⟨same, notUser⟩ := @continueLoop_ledger (kernel.handleInput command) stage
  refine ⟨?_, fun isUser => absurd isUser notUser⟩
  rw [same]
  unfold handleInput
  split
  · exact .start
  split_ifs
  · exact .start
  split
  · exact .start
  · exact .start
  · next pid queued requested =>
      obtain ⟨program, -, parent, posts, -⟩ := posts_requestPath requested
      refine .single ?_ posts
      exact .inr ⟨rfl, ⟨_, rfl⟩, parent⟩

/-- The address space for a program takes a free root, if there is one. -/
theorem addressSpaceFor_spec (prepared : kernel.addressSpaceFor program loaded = (space, after)) :
    after = { kernel with table := { kernel.table with privatePool := after.table.privatePool } } ∧
      after.table.sheet = Ledger.takeRoot kernel.table.sheet space.p4Frame ∧
      (kernel.table.sheet.distinct → ∀ own, space.p4Frame = some own →
        own ∉ kernel.table.sheet.used) := by
  unfold addressSpaceFor at prepared
  dsimp only at prepared
  split at prepared
  · next root pool taken =>
      cases prepared
      obtain ⟨used, roots, free⟩ := PrivateP4Pool.used_take taken
      refine ⟨rfl, Sheet.ext rfl ?_ ?_ rfl rfl, ?_⟩
      · refine used.trans ?_
        ext own
        simp [Ledger.takeRoot, AddressSpace.verifiedPreparedUser]
      · simp [ProcessTable.sheet, roots]
      · rintro distinct _ ⟨⟩
        exact free distinct
  · cases prepared
    refine ⟨rfl, Sheet.ext rfl ?_ rfl rfl rfl, nofun⟩
    ext own
    simp [Ledger.takeRoot, AddressSpace.kernelSharedUser]

/-- A loaded program enters the processor. -/
theorem posts_registerExec
    (filed : kernel.ledger.Filed)
    (queued : kernel.pendingPrograms = program :: rest)
    (registered : ({ kernel with pendingPrograms := rest } : Kernel).registerExec program loaded =
      (space, after)) :
    Posts kernel.ledger (.launch program space.p4Frame) after.ledger ∧
      ∃ tid, after.Attends program.pid tid := by
  obtain ⟨-, drawn, isUser⟩ := @filed.queued program (by simp [queued])
  unfold registerExec at registered
  cases prepared : ({ kernel with pendingPrograms := rest } : Kernel).addressSpaceFor program
      loaded with
  | mk own middle =>
  rw [prepared] at registered
  cases registered
  obtain ⟨isMiddle, sheet, free⟩ := addressSpaceFor_spec prepared
  have tidy : middle.table.sheet.Tidy := by
    rw [sheet]
    exact ⟨filed.tidy.1, filed.tidy.2⟩
  have drawnMiddle : program.pid.toNat < middle.table.nextPid.toNat := by
    rw [isMiddle]
    exact drawn
  obtain ⟨launched, main, runs⟩ := ProcessTable.sheet_launch program.arg program.jobMode space
    middle.ticks tidy drawnMiddle isUser
  have later : firstUserTid ≤ middle.table.nextTid.toNat := tidy.1.1
  have named : ∀ entered : ProcessTable, entered.sheet.Tidy →
      (entered.get program.pid).map Process.mainTid = some middle.table.nextTid →
      (({ middle with table := entered } : Kernel).setCurrentUser (some program.pid)
        ((entered.get program.pid).map Process.mainTid)).ledger =
      ({ middle with table := entered } : Kernel).ledger := by
    intro entered enteredTidy isMain
    refine ledger_setCurrentUser enteredTidy fun tid isTid => ?_
    obtain rfl := Option.mem_unique isMain isTid
    exact later
  refine ⟨?_, middle.table.nextTid, rfl, main, runs⟩
  have enteredTidy : (middle.table.sheet.setCard program.pid (ProcessTable.launchedCard
      middle.table.sheet program.pid program.parentPid space.p4Frame middle.table.nextTid)).Tidy :=
    tidy.setCard (by exact id)
  rw [← launched] at enteredTidy
  rw [named _ enteredTidy main]
  refine Posts.of_eq (.launch middle.table.nextTid queued free) (Ledger.ext ?_ ?_ ?_)
  · refine launched.trans ?_
    rw [sheet]
    rfl
  · rw [isMiddle]
    rfl
  · rw [isMiddle]
    rfl

theorem posts_startProgram
    (filed : kernel.ledger.Filed)
    (queued : kernel.pendingPrograms = program :: rest)
    (started : ({ kernel with pendingPrograms := rest } : Kernel).startProgram program loaded
      prepared = (space, after)) :
    Posts kernel.ledger (.launch program space.p4Frame) after.ledger ∧
      ∃ tid, after.Attends program.pid tid := by
  unfold startProgram at started
  cases registered : ({ kernel with pendingPrograms := rest } : Kernel).registerExec program
      loaded with
  | mk own entering =>
  rw [registered] at started
  obtain ⟨posts, tid, attends⟩ := posts_registerExec filed queued registered
  dsimp only at started
  split at started
  · cases started
    exact ⟨posts.of_eq (Ledger.ext ProcessTable.sheet_setStackSlot rfl rfl), tid,
      attends.process, attends.thread, attends.runs⟩
  · cases started
    exact ⟨posts, tid, attends⟩

/-- A program that could be loaded starts. -/
theorem posts_runPendingUserProgram
    (filed : kernel.ledger.Filed)
    (isNext : kernel.pendingPrograms = program :: rest)
    (attempted : kernel.runPendingUserProgram (.loaded loaded prepared) = (entered, after)) :
    (∃ root, Posts kernel.ledger (.launch program root) after.ledger) ∧
      (entered = true → after.Occupied) := by
  simp only [runPendingUserProgram, isNext] at attempted
  cases started : ({ kernel with pendingPrograms := rest } : Kernel).startProgram program loaded
      prepared with
  | mk space entering =>
  rw [started] at attempted
  obtain ⟨posts, tid, attends⟩ := posts_startProgram filed isNext started
  dsimp only at attempted
  split_ifs at attempted
  · cases attempted
    have same : (entering.withTable (entering.table.markIsolated program.pid)).ledger =
        entering.ledger := Ledger.ext ProcessTable.sheet_markIsolated rfl rfl
    refine ⟨⟨_, posts.of_eq same⟩, fun _ =>
      ⟨program.pid, tid, attends.process, attends.thread, ?_⟩⟩
    obtain ⟨process, owned, found, rest⟩ := attends.runs
    simp only [withTable, ProcessTable.markIsolated, found]
    obtain isPid := ProcessTable.pid_of_get found
    rw [← isPid] at attends found ⊢
    exact attends.runs.put_same found rfl rfl rfl
  · cases attempted
    exact ⟨⟨_, posts⟩, by rintro ⟨⟩⟩
  · cases attempted
    exact ⟨⟨_, posts⟩, fun _ => ⟨program.pid, tid, attends⟩⟩

/-- A program is loaded, or given up. -/
theorem keeps_runPendingUserProgram
    (filed : kernel.ledger.Filed)
    (attempted : kernel.runPendingUserProgram outcome = (entered, after)) :
    Trail Posts (kernel.Causes (.pending outcome)) kernel.ledger after.ledger ∧
      (entered = true → after.Occupied) := by
  cases queue : kernel.pendingPrograms with
  | nil =>
    simp only [runPendingUserProgram, queue] at attempted
    cases attempted
    exact ⟨.start, nofun⟩
  | cons program rest =>
    have dropped : Trail Posts (kernel.Causes (.pending outcome)) kernel.ledger
        ({ kernel with pendingPrograms := rest } : Kernel).ledger := by
      have posts : Posts kernel.ledger (.drop program)
          ({ kernel with pendingPrograms := rest } : Kernel).ledger := .drop queue
      refine .single ?_ posts
      exact .inr ⟨rfl, outcome, rfl⟩
    cases outcome with
    | mappingFailed | loadFailed =>
      simp only [runPendingUserProgram, queue] at attempted
      cases attempted
      exact ⟨dropped, nofun⟩
    | loaded =>
      obtain ⟨⟨root, posts⟩, occupied⟩ := posts_runPendingUserProgram filed queue attempted
      refine ⟨.single ?_ posts, occupied⟩
      exact .inr ⟨rfl, _, rfl⟩

/-- The program that is loaded next is the one that starts. -/
theorem posts_launch_of_step
    (filed : kernel.ledger.Filed)
    (isNext : kernel.pendingPrograms = program :: rest)
    (started : kernel.step (.pending (.loaded loaded prepared)) = some after) :
    ∃ root, Posts kernel.ledger (.launch program root) after.ledger := by
  have mode : kernel.mode = .eventLoop .pending := by
    unfold step at started
    split at started <;> first | assumption | contradiction
  cases attempted : kernel.runPendingUserProgram (.loaded loaded prepared) with
  | mk entered entering =>
  obtain ⟨⟨root, posts⟩, -⟩ := posts_runPendingUserProgram filed isNext attempted
  refine ⟨root, posts.of_eq ?_⟩
  simp only [step, mode, attempted] at started
  cases entered with
  | true =>
    cases started
    rfl
  | false =>
    cases started
    exact continueLoop_ledger.1

/-! ## The ready stage -/

theorem ledger_takeUserShellWaitRequestForChild :
    (kernel.takeUserShellWaitRequestForChild pid).2.ledger = kernel.ledger :=
  rfl

theorem deliverTerminalSignal_ledger
    {start : Kernel} {action : Action}
    (filed : kernel.ledger.Filed)
    (delivered : kernel.deliverTerminalSignal signal = (taken, after)) :
    Trail Posts (start.LoopCauses action) kernel.ledger after.ledger := by
  unfold deliverTerminalSignal at delivered
  dsimp only at delivered
  split_ifs at delivered
  · cases delivered
    exact .start
  · split at delivered
    · cases delivered
      exact .start
    · next report ended terminated =>
        cases delivered
        unfold terminateUserProcess at terminated
        split at terminated
        · cases terminated
        next table isTerminated =>
        cases terminated
        have posts := posts_terminateUserProcess filed isTerminated
        rw [ledger_takeUserShellWaitRequestForChild, ledger_clearTerminalForegroundJob]
        refine .single ?_ posts
        exact trivial
  · have sheet : (kernel.table.stopUserProcess kernel.ticks kernel.terminalForegroundPid
        signal).2.sheet = kernel.table.sheet := ProcessTable.sheet_stopUserProcess filed.tidy
    split at delivered
    · next table stopped =>
        cases delivered
        rw [stopped] at sheet
        have same : ({ kernel with table := table } : Kernel).ledger = kernel.ledger :=
          Ledger.ext sheet rfl rfl
        rw [same]
        exact .start
    · next report table stopped =>
        cases delivered
        rw [stopped] at sheet
        have same : ({ kernel with table := table } : Kernel).ledger = kernel.ledger :=
          Ledger.ext sheet rfl rfl
        rw [ledger_takeUserShellWaitRequestForChild, ledger_clearTerminalForegroundJob, same]
        exact .start
  · cases delivered
    exact .start

theorem deliverPendingSignal_ledger
    {start : Kernel} {action : Action}
    (filed : kernel.ledger.Filed) :
    Trail Posts (start.LoopCauses action) kernel.ledger kernel.deliverPendingSignal.ledger := by
  unfold deliverPendingSignal
  dsimp only
  split_ifs
  · exact .start
  have cleared : ({ kernel with terminalSignal := 0 } : Kernel).ledger.Filed := filed
  split
  · next delivered =>
      have writes := @deliverTerminalSignal_ledger _ _ _ _ start action (by exact cleared) delivered
      exact writes
  · next after delivered =>
      have writes := @deliverTerminalSignal_ledger _ _ _ _ start action (by exact cleared) delivered
      split_ifs <;> exact writes

theorem keeps_runReadyUserProcess (filed : kernel.ledger.Filed) :
    kernel.Keeps .ready (enterUserOrLoop kernel.runReadyUserProcess) := by
  have writes : Trail Posts (kernel.LoopCauses .ready) kernel.ledger
      kernel.deliverPendingSignal.ledger := deliverPendingSignal_ledger filed
  unfold runReadyUserProcess
  dsimp only
  generalize kernel.deliverPendingSignal = delivered at writes
  have deliveredFiled := Trail.filed writes filed
  have woken : (delivered.withTable (delivered.table.wakeSleepingProcesses
      delivered.ticks)).ledger = delivered.ledger :=
    Ledger.ext (ProcessTable.sheet_wakeSleepingProcesses deliveredFiled.tidy) rfl rfl
  obtain ⟨same, occupied⟩ := enterUserOrLoop_ledger (woken ▸ deliveredFiled)
  refine ⟨?_, occupied⟩
  rw [same, woken]
  exact Trail.of_loop writes

/-! ## All actions -/

/-- Every step is a sequence of entries of its own. -/
theorem Orderly.keeps (orderly : kernel.Orderly) (stepped : kernel.step action = some after) :
    kernel.Keeps action after := by
  unfold step at stepped
  split at stepped
  · next mode =>
      cases stepped
      obtain ⟨pid, tid, attends⟩ := orderly.occupied mode
      exact keeps_systemCall orderly.filed attends
  · next mode =>
      cases stepped
      exact keeps_timerInterrupt orderly.filed (orderly.occupied mode)
  · next mode =>
      cases stepped
      obtain ⟨pid, tid, attends⟩ := orderly.occupied mode
      exact keeps_userFault orderly.filed attends
  · cases stepped
    exact keeps_handleInput
  · split at stepped
    · next attempted =>
        cases stepped
        obtain ⟨writes, occupied⟩ := keeps_runPendingUserProgram orderly.filed attempted
        exact ⟨writes, fun _ => (occupied rfl).of_same rfl rfl fun _ => rfl⟩
    · next attempted =>
        cases stepped
        obtain ⟨writes, -⟩ := keeps_runPendingUserProgram orderly.filed attempted
        obtain ⟨same, notUser⟩ := @continueLoop_ledger _ .ready
        refine ⟨?_, fun isUser => absurd isUser notUser⟩
        rw [same]
        exact writes
  · cases stepped
    exact keeps_runReadyUserProcess orderly.filed
  · cases stepped
  · cases stepped
    exact .of_ledger rfl fun mode => (orderly.occupied mode).of_same rfl rfl fun _ => rfl
  · cases stepped
    cases ticked : kernel.tick with
    | none => exact .of_ledger rfl nofun
    | some next =>
      obtain ⟨same, sameMode, sameGet, sameProcess, sameThread⟩ := tick_spec ticked
      refine .of_ledger same fun mode => ?_
      rw [Option.getD_some] at mode
      exact (orderly.occupied (sameMode ▸ mode)).of_same sameProcess sameThread
        (congrFun sameGet)
  · next tid next _ _ =>
      obtain ⟨table, changed, ⟨⟩⟩ := Option.map_eq_some_iff.mp stepped
      refine .of_ledger (Ledger.ext (ProcessTable.sheet_setKernelThreadState orderly.filed.tidy
        changed) rfl rfl) fun mode => ?_
      obtain ⟨pid, tid, attends⟩ := orderly.occupied mode
      exact ⟨pid, tid, attends.process, attends.thread,
        ProcessTable.onCpu_setKernelThreadState attends.runs changed⟩
  · cases stepped

theorem systemCall_of_step (stepped : kernel.step (.syscall frame env) = some after) :
    kernel.mode = .user ∧ after = kernel.systemCall frame env := by
  unfold step at stepped
  split at stepped
  case h_1 mode isSyscall =>
    cases isSyscall
    exact ⟨mode, (Option.some.inj stepped).symm⟩
  all_goals contradiction

theorem userFault_of_step (stepped : kernel.step (.fault kind) = some after) :
    kernel.mode = .user ∧ after = kernel.userFault kind := by
  unfold step at stepped
  split at stepped
  case h_3 mode isFault =>
    cases isFault
    exact ⟨mode, (Option.some.inj stepped).symm⟩
  all_goals contradiction

/-- Every step leaves the kernel in order. -/
theorem Orderly.preserved (orderly : kernel.Orderly) (stepped : kernel.step action = some after) :
    after.Orderly :=
  ⟨Trail.filed (orderly.keeps stepped).writes orderly.filed, (orderly.keeps stepped).occupied⟩

end Kernel

end Vantara
