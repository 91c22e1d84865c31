import Vantara.User.Kernel

/-!
# The landing after user code

Control comes here whenever a thread does not return to user mode.  The landing
gives up the processor of a blocked thread, collects records of ended processes,
resumes the parent that waits for the process that ended last, and otherwise
dispatches the next ready thread.
-/

namespace Vantara

namespace Kernel

/-- Records of ended processes that are kept. -/
def defaultReapedHistoryLimit : Nat := 16

/-- Collect zombies nobody waits for and forget old records. -/
def maintainProcessTable (kernel : Kernel) : Kernel :=
  { kernel with
    table := kernel.table.reapUnwaitedZombies.reapOrphanZombies.compactReapedHistory
      defaultReapedHistoryLimit }

/-- The process that ended last, if its record is still there. -/
def lastExitSummary (kernel : Kernel) : Option Pid := do
  let pid ← kernel.lastExitedProcess
  let _ ← kernel.table.get pid
  pure pid

/-- Collect a child on behalf of a parent that cannot be resumed, and give up
the parent: the wait bridge. -/
def bridgeWait (kernel : Kernel) (request : UserShellWaitRequest) : Kernel :=
  let kernel :=
    match kernel.table.reapChild request.shellPid request.childPid with
    | some (_, table) => { kernel with table := table }
    | none => kernel
  match kernel.table.markReaped kernel.ticks request.shellPid with
  | some table => { kernel with table := table }
  | none => kernel

/-- Answer the wait request for the process that ended last; true if the parent
is back on the processor. -/
def updateUserShellRespawn (kernel : Kernel) (lastExit : Option Pid) : Bool × Kernel :=
  match lastExit with
  | none => (false, kernel)
  | some childPid =>
    match (kernel.clearTerminalForegroundJob childPid).takeUserShellWaitRequestForChild
        childPid with
    | (none, kernel) => (false, kernel)
    | (some request, kernel) =>
      match kernel.resumeWaitingParent request.shellPid request.childPid with
      | some kernel => (true, kernel.maintainProcessTable)
      | none => (false, kernel.bridgeWait request)

/-- Enter user mode or a new round of the event loop. -/
def enterUserOrLoop (dispatched : Bool × Kernel) : Kernel :=
  { dispatched.2 with mode := if dispatched.1 then .user else .eventLoop .input }

/-- A caller that is blocked leaves the processor. -/
theorem eq_of_checkoutIfBlocked {kernel left : Kernel}
    (isBlocked : kernel.checkoutCurrentUserIfBlocked = some left) :
    left = kernel.setCurrentUser none none := by
  obtain ⟨pid, -, rest⟩ := Option.bind_eq_some_iff.mp isBlocked
  obtain ⟨tid, -, rest⟩ := Option.bind_eq_some_iff.mp rest
  obtain ⟨process, -, rest⟩ := Option.bind_eq_some_iff.mp rest
  obtain ⟨owned, -, rest⟩ := Option.bind_eq_some_iff.mp rest
  split_ifs at rest
  cases rest
  rfl

/-- What the kernel does when a thread does not return to user mode. -/
def userExitLanding (kernel : Kernel) : Kernel :=
  match kernel.checkoutCurrentUserIfBlocked with
  | some kernel => { kernel.maintainProcessTable with mode := .eventLoop .input }
  | none =>
    if !kernel.pendingPrograms.isEmpty then
      { kernel.maintainProcessTable with mode := .eventLoop .input }
    else
      let kernel := kernel.maintainProcessTable
      match kernel.updateUserShellRespawn kernel.lastExitSummary with
      | (true, kernel) => { kernel with mode := .user }
      | (false, kernel) => enterUserOrLoop kernel.maintainProcessTable.scheduleNextReadyUser

end Kernel

end Vantara
