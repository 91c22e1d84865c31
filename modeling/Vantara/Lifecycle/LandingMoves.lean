import Vantara.Lifecycle.StayMoves

/-!
# The landing as a sequence of moves

What the kernel does on its own account once a thread has left the processor is a
sequence of free moves, except that the wait bridge may give up a shell.
-/

namespace Vantara

open Foundation Lifecycle

namespace ProcessTable

variable {table : ProcessTable}

theorem atomics_foldl
    {sweep : ProcessTable → Pid → ProcessTable} {pids : List Pid}
    (keeps : ∀ table pid, (sweep table pid).atomics = table.atomics) :
    (pids.foldl sweep table).atomics = table.atomics := by
  induction pids generalizing table with
  | nil => rfl
  | cons pid rest ih =>
    rw [List.foldl_cons, ih, keeps]

theorem atomics_reapAll : (table.reapAll test).atomics = table.atomics := by
  refine atomics_foldl fun table pid => ?_
  split <;> rfl

theorem atomics_compactReapedHistory : (table.compactReapedHistory keep).atomics = table.atomics :=
  atomics_foldl fun _ _ => rfl

end ProcessTable

namespace Lifecycle

/-- Trails of moves that the kernel makes on its own account. -/
abbrev LoopTrail : View → View → Prop :=
  Trail Moves fun _ move => move.free = true ∨ ∃ pid, move = .bridge pid

theorem LoopTrail.of_free (trail : FreeTrail first last) : LoopTrail first last :=
  trail.mono fun _ _ => .inl

end Lifecycle

namespace Kernel

variable {kernel middle after landing : Kernel} {cpu between next : Option (Pid × Tid)}

/-- The kernel goes on by moves of its own, and everything stays in order. -/
structure GoesOn
    (kernel : Kernel) (cpu : Option (Pid × Tid)) (after : Kernel)
    (next : Option (Pid × Tid)) : Prop where
  trail : LoopTrail (kernel.viewAt cpu) (after.viewAt next)
  steady : after.Steady next

theorem GoesOn.trans
    (earlier : kernel.GoesOn cpu middle between)
    (later : middle.GoesOn between after next) :
    kernel.GoesOn cpu after next :=
  ⟨earlier.trail.trans later.trail, later.steady⟩

/-- Moves after which the books have only lost entries. -/
theorem Steady.goesOn
    (steady : kernel.Steady cpu)
    (trail : LoopTrail (kernel.viewAt cpu) (after.viewAt next))
    (books : kernel.KeepsBooks cpu after)
    (current : ∀ pid tid, next = some (pid, tid) →
      after.currentUserProcess = some pid ∧ after.currentUserThread = some tid ∧
        after.table.atomics = (pid, tid)) :
    kernel.GoesOn cpu after next :=
  ⟨trail, steady.of_trail trail books current⟩

/-- Nobody needs to be named while no thread is on the processor. -/
theorem Steady.leave (steady : kernel.Steady none) :
    kernel.GoesOn none (kernel.setCurrentUser none none) none :=
  steady.goesOn .start (.of_eq rfl rfl rfl rfl) nofun

/-- Maintenance. -/
theorem Steady.maintain (steady : kernel.Steady cpu) :
    kernel.GoesOn cpu kernel.maintainProcessTable cpu := by
  unfold maintainProcessTable
  have trail := (@ProcessTable.reapUnwaitedZombies_trail kernel.table kernel.unborn cpu).trans
    ProcessTable.reapOrphanZombies_trail |>.trans
      (@ProcessTable.compactReapedHistory_trail _ _ _ defaultReapedHistoryLimit)
  have atomics : (kernel.table.reapUnwaitedZombies.reapOrphanZombies.compactReapedHistory
      defaultReapedHistoryLimit).atomics = kernel.table.atomics := by
    refine ProcessTable.atomics_compactReapedHistory.trans ?_
    exact ProcessTable.atomics_reapAll.trans ProcessTable.atomics_reapAll
  generalize kernel.table.reapUnwaitedZombies.reapOrphanZombies.compactReapedHistory
    defaultReapedHistoryLimit = swept at trail atomics ⊢
  refine steady.goesOn (.of_free trail) (.of_eq rfl rfl rfl rfl) fun pid tid isOn => ?_
  obtain ⟨process, thread, named⟩ := steady.current isOn
  exact ⟨process, thread, atomics.trans named⟩

/-- Mode and stage do not matter to the order of things. -/
theorem GoesOn.withMode (goes : kernel.GoesOn cpu after next) (mode : Mode) :
    kernel.GoesOn cpu { after with mode := mode } next :=
  goes.trans (goes.steady.goesOn .start (.of_eq rfl rfl rfl rfl) fun _ _ => goes.steady.current)

theorem Steady.clearTerminalForegroundJob (steady : kernel.Steady cpu) :
    kernel.GoesOn cpu (kernel.clearTerminalForegroundJob pid) cpu := by
  unfold Kernel.clearTerminalForegroundJob
  split_ifs
  · refine steady.goesOn .start ⟨List.suffix_rfl, fun _ => id, .inr rfl, fun _ _ => .inl⟩ ?_
    exact fun _ _ => steady.current
  · exact ⟨.start, steady⟩

/-- Wait requests that are taken out are in order. -/
theorem Steady.takeRequest (steady : kernel.Steady cpu) :
    kernel.GoesOn cpu (kernel.takeUserShellWaitRequestForChild child).2 cpu := by
  refine steady.goesOn .start ⟨List.suffix_rfl, ?_, .inl rfl, fun _ _ => .inl⟩ ?_
  · exact fun _ listed => List.mem_of_mem_eraseP listed
  · exact fun _ _ => steady.current

/-- Shells that asked to be resumed are user processes. -/
theorem Steady.user_of_settled
    (steady : kernel.Steady cpu)
    (settled : pid ≠ 0)
    (found : kernel.table.get pid = some process) :
    process.kind = .userProcess := by
  have kernelTask := steady.kernelFirst.kernelTask (ProcessTable.view_found found)
  cases kind : process.kind with
  | userProcess => rfl
  | kernelTask => exact absurd (kernelTask.mp kind) settled

/-- A parent is back on the processor. -/
theorem Steady.resume
    (steady : kernel.Steady none)
    (settled : parent ≠ 0)
    (resumed : kernel.resumeWaitingParent parent child = some after) :
    ∃ tid, kernel.GoesOn none after (some (parent, tid)) := by
  obtain ⟨⟨resume, table⟩, isResumed, ⟨⟩⟩ := Option.bind_eq_some_iff.mp resumed
  obtain ⟨tid, isMain, trail⟩ := ProcessTable.resumeWaitingParent_trail
    (fun _ found => steady.user_of_settled settled found) isResumed
  refine ⟨tid, steady.goesOn (.of_free trail) (.of_eq rfl rfl rfl rfl) ?_⟩
  rintro _ _ ⟨⟩
  refine ⟨rfl, isMain, ?_⟩
  simp [setCurrentUser, ProcessTable.atomics, isMain]

/-- The wait bridge. -/
theorem Steady.bridgeWait (steady : kernel.Steady none) (settled : request.shellPid ≠ 0) :
    kernel.GoesOn none (kernel.bridgeWait request) none := by
  unfold Kernel.bridgeWait
  extract_lets middle
  have earlier : kernel.GoesOn none middle none := by
    cases collected : kernel.table.reapChild request.shellPid request.childPid with
    | none =>
      simp only [middle, collected]
      exact ⟨.start, steady⟩
    | some result =>
      simp only [middle, collected]
      have trail : FreeTrail (kernel.viewAt none)
          (({ kernel with table := result.2 } : Kernel).viewAt none) :=
        (ProcessTable.reapChild_trail collected).2
      exact steady.goesOn (.of_free trail) (.of_eq rfl rfl rfl rfl) (by rintro _ _ ⟨⟩)
  clear_value middle
  split
  next table isReaped =>
    cases found : middle.table.get request.shellPid with
    | none => simp [ProcessTable.markReaped, found] at isReaped
    | some process =>
      have user := earlier.steady.user_of_settled settled found
      obtain ⟨reaped, reaps, moved⟩ := ProcessTable.markReaped_moves found user
      obtain rfl := Option.mem_unique isReaped reaps
      refine earlier.trans (earlier.steady.goesOn ?_ (.of_eq rfl rfl rfl rfl) (by rintro _ _ ⟨⟩))
      exact .single (.inr ⟨_, rfl⟩) moved
  · exact earlier

/-- The next ready thread. -/
theorem Steady.schedule
    (steady : kernel.Steady none)
    (scheduled : kernel.scheduleNextReadyUser = (dispatched, after)) :
    ∃ next, kernel.GoesOn none after next ∧ (dispatched = true ↔ next.isSome = true) := by
  unfold scheduleNextReadyUser at scheduled
  split at scheduled
  · next table chosen =>
      cases scheduled
      have trail := ProcessTable.scheduleLoop_trail steady.sound chosen
      exact ⟨none, steady.goesOn (.of_free trail) (.of_eq rfl rfl rfl rfl) nofun, by simp⟩
  · next resume table chosen =>
      cases scheduled
      have trail := ProcessTable.scheduleLoop_trail steady.sound chosen
      refine ⟨some (resume.pid, resume.tid), steady.goesOn (.of_free trail)
        (.of_eq rfl rfl rfl rfl) ?_, by simp⟩
      rintro _ _ ⟨⟩
      exact ⟨rfl, rfl, rfl⟩

/-- The mode agrees with the processor: user code runs exactly while a thread is on
it, and the event loop while none is. -/
structure InMode (kernel : Kernel) (cpu : Option (Pid × Tid)) : Prop where
  user : kernel.mode = .user → cpu.isSome = true
  loop : kernel.mode = .eventLoop stage → cpu = none

theorem Steady.enterUserOrLoop (steady : kernel.Steady none) :
    ∃ next, kernel.GoesOn none (Kernel.enterUserOrLoop kernel.scheduleNextReadyUser) next ∧
      (Kernel.enterUserOrLoop kernel.scheduleNextReadyUser).InMode next := by
  cases scheduled : kernel.scheduleNextReadyUser with
  | mk dispatched after =>
    obtain ⟨next, goes, isSome⟩ := steady.schedule scheduled
    refine ⟨next, goes.withMode _, ?_⟩
    cases dispatched with
    | true => exact ⟨fun _ => isSome.mp rfl, nofun⟩
    | false =>
      refine ⟨nofun, fun _ => ?_⟩
      cases next with
      | none => rfl
      | some => exact absurd (isSome.mpr rfl) (by simp)

/-- The answer to the wait request for the process that ended last. -/
theorem Steady.respawn
    (steady : kernel.Steady none)
    (answered : kernel.updateUserShellRespawn summary = (resumed, after)) :
    ∃ next, kernel.GoesOn none after next ∧ (resumed = true ↔ next.isSome = true) := by
  unfold updateUserShellRespawn at answered
  split at answered
  · cases answered
    exact ⟨none, ⟨.start, steady⟩, by simp⟩
  next childPid =>
  have cleared := @Steady.clearTerminalForegroundJob _ _ childPid steady
  have taken := cleared.trans (@Steady.takeRequest _ _ childPid cleared.steady)
  split at answered
  · next isTaken =>
      cases answered
      rw [isTaken] at taken
      exact ⟨none, taken, by simp⟩
  · next request rest isTaken =>
      have listed : request ∈ (kernel.clearTerminalForegroundJob
          childPid).userShellWaitRequested := by
        have found := congrArg Prod.fst isTaken
        exact List.mem_of_find?_eq_some found
      have settled := (cleared.steady.requests listed).notKernel
      rw [isTaken] at taken
      split at answered
      · next parent isResumed =>
          cases answered
          obtain ⟨tid, resumed⟩ := taken.steady.resume settled isResumed
          exact ⟨_, (taken.trans resumed).trans resumed.steady.maintain, by simp⟩
      · cases answered
        exact ⟨none, taken.trans (taken.steady.bridgeWait settled), by simp⟩

/-- What the kernel does when no thread is on the processor any more. -/
theorem Steady.land (steady : landing.Steady none) :
    ∃ next, landing.GoesOn none landing.userExitLanding next ∧
      landing.userExitLanding.InMode next := by
  unfold userExitLanding
  split
  · next left isBlocked =>
      obtain rfl := eq_of_checkoutIfBlocked isBlocked
      have left := steady.leave
      exact ⟨none, (left.trans left.steady.maintain).withMode _, nofun, fun _ => rfl⟩
  split_ifs with hasPending
  · exact ⟨none, steady.maintain.withMode _, nofun, fun _ => rfl⟩
  have maintained := steady.maintain
  dsimp only
  cases answered : landing.maintainProcessTable.updateUserShellRespawn
      landing.maintainProcessTable.lastExitSummary with
  | mk resumed after =>
    obtain ⟨next, goes, isSome⟩ := maintained.steady.respawn answered
    have reached := maintained.trans goes
    cases resumed with
    | true => exact ⟨next, reached.withMode _, fun _ => isSome.mp rfl, nofun⟩
    | false =>
      obtain rfl : next = none := by
        cases next with
        | none => rfl
        | some => exact absurd (isSome.mpr rfl) (by simp)
      have again := reached.trans reached.steady.maintain
      obtain ⟨last, entered, inMode⟩ := again.steady.enterUserOrLoop
      exact ⟨last, again.trans entered, inMode⟩

end Kernel

end Vantara
