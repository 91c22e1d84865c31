import Vantara.Ledger.Boot

/-!
# The wait bridge

When the process that ended last has a wait request, the landing resumes the shell
that made it, or gives the shell up if it cannot be resumed.  Whether a live shell
is given up depends on what the shell and its child are doing at the landing.
-/

namespace Vantara

open Foundation

namespace ProcessTable

variable {table : ProcessTable}

/-- A sweep leaves the processes alone that it does not look for. -/
theorem get_reapAll_of_spared
    (found : table.get pid = some process)
    (spared : test process = false) :
    (table.reapAll test).get pid = some process := by
  refine (get_sweep frame_reap ?_).trans found
  intro listed
  obtain ⟨swept, isSwept, due⟩ := (sweep_targets table test).2 pid listed
  rw [found] at isSwept
  cases isSwept
  rw [spared] at due
  cases due

/-- Only records that were given up are forgotten. -/
theorem get_compactReapedHistory_of_kept
    (found : table.get pid = some process)
    (kept : process.state ≠ .reaped) :
    (table.compactReapedHistory keep).get pid = some process := by
  refine (get_sweep ?_ ?_).trans found
  · intro table pid other differ
    exact (KeyedStore.get_remove _ _).trans (if_neg differ)
  · intro listed
    obtain ⟨swept, isSwept, isReaped⟩ := (sweep_targets table
      fun process => decide (process.state = .reaped)).2 pid (List.mem_of_mem_take listed)
    rw [found] at isSwept
    cases isSwept
    exact kept (of_decide_eq_true isReaped)

end ProcessTable

open ProcessTable (get_reapAll_of_spared)

/-- The shell is blocked until the child ends and can be resumed. -/
def Process.waitsFor (shell : Process) (childPid : Pid) : Bool :=
  decide (shell.state = .blocked) && decide (shell.waitingFor = some childPid) &&
    shell.mainThread.resumeContext.isSome

/-- The process has ended, and the shell may still collect it. -/
def Process.collectable (child : Process) (shellPid : Pid) : Bool :=
  decide (child.parentPid = some shellPid) &&
    (decide (child.state = .exited) ||
      decide (child.state = .zombie) && decide (child.jobMode = .foreground))

/-- The process has a card and has not ended. -/
def Ledger.Lives (pid : Pid) (ledger : Ledger) : Prop :=
  ∃ card, ledger.sheet.card pid = some card ∧ card.ended = false

namespace Kernel

variable {kernel landing : Kernel} {images : List UserlandImage} {frames : List UInt64}

/-- The shell of a request has ended or vanished. -/
def shellEnded (kernel : Kernel) (request : UserShellWaitRequest) : Bool :=
  (kernel.table.get request.shellPid).all fun shell => shell.state.terminal

/-- The shell of a request can be resumed with the status of its child. -/
def resumable (kernel : Kernel) (request : UserShellWaitRequest) : Bool :=
  (kernel.table.get request.shellPid).any (·.waitsFor request.childPid) &&
    (kernel.table.get request.childPid).any (·.collectable request.shellPid)

/-- The first request for the process that ended last. -/
def requestAnswered (landing : Kernel) : Option UserShellWaitRequest :=
  landing.userShellWaitRequested.find? fun request =>
    decide (landing.lastExitedProcess = some request.childPid)

/-- The shell of that request can be resumed if it is live, unless the landing does not
answer requests now. -/
def answersWaits (landing : Kernel) : Bool :=
  landing.checkoutCurrentUserIfBlocked.isSome || !landing.pendingPrograms.isEmpty ||
    landing.requestAnswered.all fun request =>
      landing.shellEnded request || landing.resumable request

/-- Maintenance leaves live processes alone. -/
theorem get_maintainProcessTable_of_live
    (found : kernel.table.get pid = some process)
    (live : process.state.terminal = false) :
    kernel.maintainProcessTable.table.get pid = some process := by
  have notZombie : process.state ≠ .zombie := by
    intro zombie
    rw [zombie] at live
    cases live
  have notReaped : process.state ≠ .reaped := by
    intro reaped
    rw [reaped] at live
    cases live
  refine ProcessTable.get_compactReapedHistory_of_kept ?_ notReaped
  refine get_reapAll_of_spared ?_ (by simp [notZombie])
  exact get_reapAll_of_spared found (by simp [notZombie])

/-- Maintenance leaves a child alone that its shell may still collect. -/
theorem get_maintainProcessTable_of_collectable
    (found : kernel.table.get childPid = some child)
    (collectable : child.collectable shellPid = true)
    (foundShell : kernel.table.get shellPid = some shell)
    (live : shell.state.terminal = false) :
    kernel.maintainProcessTable.table.get childPid = some child := by
  simp only [Process.collectable, Bool.and_eq_true, Bool.or_eq_true, decide_eq_true_eq]
    at collectable
  obtain ⟨isParent, isOver⟩ := collectable
  have notReaped : child.state ≠ .reaped := by
    intro reaped
    rw [reaped] at isOver
    simp at isOver
  refine ProcessTable.get_compactReapedHistory_of_kept ?_ notReaped
  obtain ended | ⟨zombie, foreground⟩ := isOver
  · refine get_reapAll_of_spared ?_ (by simp [ended])
    exact get_reapAll_of_spared found (by simp [ended])
  · -- The second sweep looks at the parent in the table that the first one left.
    have notShell : shell.state ≠ .zombie := by
      intro isZombie
      rw [isZombie] at live
      cases live
    have stillShell : kernel.table.reapUnwaitedZombies.get shellPid = some shell :=
      get_reapAll_of_spared foundShell (by simp [notShell])
    refine get_reapAll_of_spared ?_ ?_
    · exact get_reapAll_of_spared found (by simp [foreground])
    · simp [ProcessTable.shouldInitReap, isParent, stillShell, live]

theorem isSome_resumeWaitingParent :
    (kernel.resumeWaitingParent parentPid childPid).isSome =
      (kernel.table.resumeWaitingParent kernel.ticks parentPid childPid).isSome := by
  unfold resumeWaitingParent
  cases kernel.table.resumeWaitingParent kernel.ticks parentPid childPid <;> rfl

/-- A shell that waits for a child it may collect can be resumed. -/
theorem resumeWaitingParent_isSome
    (foundShell : kernel.table.get shellPid = some shell)
    (waits : shell.waitsFor childPid = true)
    (found : kernel.table.get childPid = some child)
    (collectable : child.collectable shellPid = true) :
    (kernel.resumeWaitingParent shellPid childPid).isSome = true := by
  simp only [Process.waitsFor, Bool.and_eq_true, decide_eq_true_eq] at waits
  obtain ⟨⟨blocked, waiting⟩, saved⟩ := waits
  obtain ⟨context, isSaved⟩ := Option.isSome_iff_exists.mp saved
  simp only [Process.collectable, Bool.and_eq_true, Bool.or_eq_true, decide_eq_true_eq]
    at collectable
  obtain ⟨isParent, isOver⟩ := collectable
  have notRefused : ¬(child.state ≠ .exited ∧ child.state ≠ .zombie) := by
    rintro ⟨notExited, notZombie⟩
    obtain ended | ⟨zombie, -⟩ := isOver
    · exact notExited ended
    · exact notZombie zombie
  rw [isSome_resumeWaitingParent]
  simp [ProcessTable.resumeWaitingParent, found, isParent, notRefused,
    foundShell, blocked, waiting, isSaved]

theorem live_of_waitsFor {shell : Process} (waits : shell.waitsFor childPid = true) :
    shell.state.terminal = false := by
  simp only [Process.waitsFor, Bool.and_eq_true, decide_eq_true_eq] at waits
  rw [waits.1.1]
  rfl

/-- A request that can be answered at the landing is answered there. -/
theorem resumed_of_resumable (resumable : landing.resumable request = true) :
    (landing.maintainProcessTable.resumeWaitingParent request.shellPid
      request.childPid).isSome = true := by
  simp only [Kernel.resumable, Bool.and_eq_true, Option.any_eq_true] at resumable
  obtain ⟨⟨shell, foundShell, waits⟩, child, found, collectable⟩ := resumable
  have live := live_of_waitsFor waits
  exact resumeWaitingParent_isSome (get_maintainProcessTable_of_live foundShell live) waits
    (get_maintainProcessTable_of_collectable found collectable foundShell live) collectable

/-- A shell that is given up made the request that could not be answered. -/
theorem bridgedShell_cases (bridged : landing.bridgedShell = some shellPid) :
    landing.checkoutCurrentUserIfBlocked = none ∧ landing.pendingPrograms = [] ∧
      ∃ request, landing.requestAnswered = some request ∧ request.shellPid = shellPid ∧
        landing.resumable request = false := by
  unfold bridgedShell at bridged
  split_ifs at bridged with early
  simp only [Bool.or_eq_true, not_or, Bool.not_eq_true, Option.isSome_eq_false_iff,
    Option.isNone_iff_eq_none, Bool.not_eq_false', List.isEmpty_iff] at early
  refine ⟨early.1, early.2, ?_⟩
  obtain ⟨childPid, isSummary, rest⟩ := Option.bind_eq_some_iff.mp bridged
  obtain ⟨request, isTaken, refused⟩ := Option.bind_eq_some_iff.mp rest
  have isLast : landing.lastExitedProcess = some childPid := by
    obtain ⟨last, isLast, rest⟩ := Option.bind_eq_some_iff.mp isSummary
    obtain ⟨-, -, ⟨⟩⟩ := Option.bind_eq_some_iff.mp rest
    exact isLast
  have sameRequests : (landing.maintainProcessTable.clearTerminalForegroundJob
      childPid).userShellWaitRequested = landing.userShellWaitRequested := by
    unfold clearTerminalForegroundJob
    split_ifs <;> rfl
  have sameTable : ((landing.maintainProcessTable.clearTerminalForegroundJob
      childPid).takeUserShellWaitRequestForChild childPid).2.table =
        landing.maintainProcessTable.table := by
    unfold clearTerminalForegroundJob takeUserShellWaitRequestForChild
    split_ifs <;> rfl
  have sameTicks : ((landing.maintainProcessTable.clearTerminalForegroundJob
      childPid).takeUserShellWaitRequestForChild childPid).2.ticks =
        landing.maintainProcessTable.ticks := by
    unfold clearTerminalForegroundJob takeUserShellWaitRequestForChild
    split_ifs <;> rfl
  have isFirst : landing.requestAnswered = some request := by
    rw [requestAnswered, ← sameRequests, isLast]
    simpa [takeUserShellWaitRequestForChild, eq_comm] using isTaken
  split_ifs at refused with isResumed
  refine ⟨request, isFirst, Option.some.inj refused, ?_⟩
  by_contra couldResume
  have resumed := resumed_of_resumable (Bool.not_eq_false _ ▸ couldResume)
  rw [isSome_resumeWaitingParent, sameTable, sameTicks] at isResumed
  rw [isSome_resumeWaitingParent] at resumed
  exact isResumed resumed

/-- A shell that is given up although its request can be answered had ended. -/
theorem ended_of_bridged
    (answers : landing.answersWaits = true)
    (bridged : landing.bridgedShell = some shellPid)
    (found : landing.table.get shellPid = some shell) :
    shell.state.terminal = true := by
  obtain ⟨notBlocked, nothingPending, request, isFirst, rfl, refused⟩ :=
    bridgedShell_cases bridged
  simpa [answersWaits, notBlocked, nothingPending, isFirst, refused, shellEnded, found]
    using answers

/-- The landing leaves a card alone that is not of the shell given up. -/
theorem lives_of_entry {ledger after : Ledger}
    (spared : landing.bridgedShell ≠ some pid)
    (lives : ledger.Lives pid)
    (caused : landing.LandingCauses ledger entry)
    (posts : Posts ledger entry after) :
    after.Lives pid := by
  obtain ⟨card, inSheet, isLive⟩ := lives
  cases posts with
  | giveUp =>
    refine ⟨card, ?_, isLive⟩
    simp only [Ledger.setCard_sheet, Sheet.setCard_card]
    rw [if_neg]
    · exact inSheet
    · rintro rfl
      exact spared caused
  | forget forgets =>
    rcases forgets.kept pid with same | ⟨-, old, isOld, ended⟩
    · exact ⟨card, same.trans inSheet, isLive⟩
    · rw [inSheet] at isOld
      cases isOld
      rw [isLive] at ended
      cases ended
  | _ => cases caused

/-- The landing leaves a process alone that is not the shell given up. -/
theorem live_of_landing
    (filed : landing.ledger.Filed)
    (found : landing.table.get pid = some process)
    (live : process.state.terminal = false)
    (spared : landing.bridgedShell ≠ some pid) :
    ∃ later, landing.userExitLanding.table.get pid = some later ∧
      later.state.terminal = false := by
  have kept : landing.userExitLanding.ledger.Lives pid :=
    (userExitLanding_writes filed).1.invariant
      ⟨process.card, ProcessTable.card_of_get found, live⟩
      fun _ _ _ lives caused posts => lives_of_entry spared lives caused posts
  obtain ⟨card, inSheet, isLive⟩ := kept
  obtain ⟨later, isLater, rfl⟩ := Option.map_eq_some_iff.mp inSheet
  exact ⟨later, isLater, isLive⟩

/-- What a landing starts from is in order. -/
theorem filed_of_lands
    (orderly : kernel.Orderly)
    (isUser : kernel.mode = .user)
    (lands : kernel.LandsAt action landing) :
    landing.ledger.Filed := by
  obtain ⟨pid, tid, attends⟩ := orderly.occupied isUser
  cases action with
  | «syscall» frame env =>
    have writes := (syscallInterruptDispatch_ledger orderly.filed attends lands).1
    exact Trail.filed writes orderly.filed
  | fault =>
    obtain rfl := lands
    rw [markCurrentUserFault_eq attends]
    exact orderly.filed.preserved (posts_markCurrentUserExited orderly.filed attends)
  | _ => cases lands

/-- While a live shell whose request for the process that ended last comes first can be
resumed, the landing leaves all live processes alive. -/
theorem landing_spares_live (reachable : Transition.Reachable step (boot images frames) kernel)
    (isUser : kernel.mode = .user)
    (lands : kernel.LandsAt action landing)
    (answers : landing.answersWaits = true)
    (found : landing.table.get pid = some process)
    (live : process.state.terminal = false) :
    ∃ later, landing.userExitLanding.table.get pid = some later ∧
      later.state.terminal = false := by
  have filed := filed_of_lands (orderly_of_reachable reachable) isUser lands
  refine live_of_landing filed found live fun bridged => ?_
  rw [ended_of_bridged answers bridged found] at live
  cases live

/-- A system call whose answer is the landing value lands in the state it left. -/
theorem landsAt_get
    (isSome : (kernel.syscallInterruptDispatch env frame).isSome = true)
    (value : ((kernel.syscallInterruptDispatch env frame).get isSome).1 = syscallReturnToKernel) :
    kernel.LandsAt (.syscall frame env)
      ((kernel.syscallInterruptDispatch env frame).get isSome).2 :=
  (Option.some_get isSome).symm.trans (congrArg some (Prod.ext value rfl))

/-- The shell starts a program and waits for it. -/
def waitRun (number : UInt64) : List Action :=
  Sample.loadInit ++ [Sample.call number Sample.shellName Sample.shellNameLen,
    Sample.call 14 2 0, .input none, Sample.load]

/-- The program runs while the shell waits for it, and then exits. -/
def foregroundWait : Kernel :=
  (Transition.run step Sample.machine (waitRun 13)).get (by decide +kernel)
def foregroundExit : Kernel :=
  ((foregroundWait.syscallInterruptDispatch Sample.env (Sample.frame 1 7 0 0 0)).get
    (by decide +kernel)).2

theorem landing_spares_live_foreground :
    Transition.run step Sample.machine (waitRun 13) = some foregroundWait ∧
      (foregroundExit.table.get 1).map Process.state = some .blocked ∧
      ∃ later, foregroundExit.userExitLanding.table.get 1 = some later ∧
        later.state.terminal = false := by
  have performed : Transition.run step Sample.machine (waitRun 13) = some foregroundWait :=
    (Option.some_get _).symm
  have lands : foregroundWait.LandsAt (Sample.call 1 7 0) foregroundExit :=
    landsAt_get _ (by decide +kernel)
  refine ⟨performed, by decide +kernel, ?_⟩
  exact landing_spares_live (Transition.reachable_of_run performed) (by decide +kernel) lands
    (by decide +kernel) (Option.some_get (by decide +kernel)).symm (by decide +kernel)

/-- The program runs in the background while the shell waits for it, and then exits. -/
def backgroundWait : Kernel :=
  (Transition.run step Sample.machine (waitRun 18)).get (by decide +kernel)
def backgroundExit : Kernel :=
  ((backgroundWait.syscallInterruptDispatch Sample.env (Sample.frame 1 7 0 0 0)).get
    (by decide +kernel)).2

/-- The zombie is collected before the request is looked at, so that the shell cannot
be resumed: its record is given up although it has neither exited nor been killed. -/
theorem background_exit_destroys_shell :
    Transition.run step Sample.machine (waitRun 18) = some backgroundWait ∧
      backgroundWait.LandsAt (Sample.call 1 7 0) backgroundExit ∧
      backgroundExit.lastExitedProcess = some 2 ∧
      (backgroundExit.table.get 1).map Process.state = some .blocked ∧
      (backgroundExit.userExitLanding.table.get 1).map Process.state = some .reaped := by
  refine ⟨(Option.some_get _).symm, ?_, by decide +kernel, by decide +kernel, by decide +kernel⟩
  exact landsAt_get _ (by decide +kernel)

end Kernel

end Vantara
