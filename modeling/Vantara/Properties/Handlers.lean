import Vantara.Properties.PendingSignals

/-!
# Signal handlers

A thread that enters a signal handler keeps the context it was interrupted in
until it returns from the handler, and resumes in exactly that context.
-/

namespace Vantara

open Foundation
open Option (bind_eq_some_iff bind_some mem_unique)

namespace ProcessTable

variable {table after : ProcessTable}

/-- A thread is ready and queued with a saved context. -/
def Queued (table : ProcessTable) (pid : Pid) (tid : Tid) (context : UserResumeContext) : Prop :=
  ∃ process thread, table.get pid = some process ∧ process.threads.get tid = some thread ∧
    thread.state = .ready ∧ thread.resumeContext = some context ∧ tid ∈ table.readyQueue

/-- The context to which the signal handler of a thread returns. -/
def returnContext (table : ProcessTable) (pid : Pid) (tid : Tid) : Option UserResumeContext :=
  (table.get pid).bind fun process => (process.threads.get tid).bind Thread.signalReturnContext

theorem returnContext_eq :
    table.returnContext pid tid = (table.sheet.card pid).bind (Card.handlers · tid) := by
  cases found : table.get pid <;> simp [returnContext, found]

/-- A thread of a process is changed, becomes ready and is queued. -/
theorem queued_of_modify
    {process changed : Process} {change : Thread → Thread}
    {keepsTid : ∀ thread, (change thread).tid = thread.tid}
    (owns : process.threads.get tid = some owned)
    (ready : (change owned).state = .ready)
    (saved : (change owned).resumeContext = some context)
    (threads : changed.threads = process.threads.modify tid change keepsTid) :
    ((table.putProcess changed).enqueueReady tid).Queued changed.pid tid context := by
  refine ⟨changed, change owned, by simp, ?_, ready, saved, by simp [enqueueReady]⟩
  rw [threads, ThreadStore.get_modify, if_pos rfl, owns, Option.map_some]

theorem Queued.record (queued : table.Queued pid tid context) :
    (table.record event).Queued pid tid context :=
  queued

theorem queued_activateSignalHandler
    (found : table.get pid = some process)
    (saved : process.mainThread.resumeContext = some original)
    (activated : table.activateSignalHandler pid signal handler = some after) :
    after.Queued pid process.mainTid { original with rip := handler, rdi := signal, rax := 0 } := by
  simp only [activateSignalHandler, found, Option.bind_eq_bind, bind_some] at activated
  split_ifs at activated
  simp only [saved, bind_some] at activated
  obtain rfl := pid_of_get found
  obtain ⟨⟩ := Option.some.inj activated
  exact Queued.record (queued_of_modify process.get_mainTid rfl rfl rfl)

theorem queued_activateRunningSignalHandler
    (activated : table.activateRunningSignalHandler now pid tid signal handler original =
      some after) :
    after.Queued pid tid { original with rip := handler, rdi := signal, rax := 0 } := by
  obtain ⟨process, found, rest⟩ := bind_eq_some_iff.mp activated
  obtain ⟨owned, owns, rest⟩ := bind_eq_some_iff.mp rest
  split_ifs at rest
  obtain rfl := pid_of_get found
  obtain ⟨⟩ := Option.some.inj rest
  exact Queued.record (Queued.record (queued_of_modify owns rfl rfl rfl))

/-- A running thread in a handler returns to the context it was interrupted in. -/
theorem queued_restoreSignalContext
    (on : table.OnCpu pid tid)
    (active : table.returnContext pid tid = some original) :
    ∃ restored, table.restoreSignalContext now pid tid = some restored ∧
      restored.Queued pid tid original ∧ restored.returnContext pid tid = none := by
  obtain ⟨process, owned, found, owns, user, -, running⟩ := on
  simp only [returnContext, found, owns, bind_some] at active
  simp only [restoreSignalContext, found, Option.bind_eq_bind, bind_some, owns,
    running, ne_eq, not_true_eq_false, if_false, active]
  obtain rfl := pid_of_get found
  refine ⟨_, rfl, Queued.record (Queued.record (queued_of_modify owns rfl rfl rfl)), ?_⟩
  simp [returnContext, Process.modifyThread, owns]

end ProcessTable

open ProcessTable (card_of_get returnContext_eq)

namespace Ledger

variable {ledger after : Ledger}

/-- The handler of a thread returns to a context unless its process has ended. -/
structure Returns (pid : Pid) (tid : Tid) (context : UserResumeContext) (ledger : Ledger) :
    Prop where
  past : ledger.Past pid
  holds : ledger.sheet.card pid = some card → card.ended = true ∨ card.handlers tid = some context

/-- Only the return from the handler changes where it returns to. -/
theorem Returns.preserved
    (returns : ledger.Returns pid tid context)
    (unreturned : entry ≠ .leave pid tid)
    (posts : Posts ledger entry after) :
    after.Returns pid tid context := by
  refine ⟨returns.past.preserved posts, fun inSheet => ?_⟩
  obtain ⟨card, found, amends⟩ := returns.past.card posts inSheet
  have old := returns.holds found
  cases amends with
  | untouched | regroup | lead | credit | dispose | mask | pend => exact old
  | finish | giveUp => exact .inl rfl
  | @enter entered _ _ idle =>
    refine old.imp_right fun active => ?_
    have differ : tid ≠ entered := by
      rintro rfl
      rw [idle] at active
      cases active
    simpa [Card.setHandler, differ] using active
  | @leave left =>
    refine old.imp_right fun active => ?_
    have differ : tid ≠ left := by
      rintro rfl
      exact unreturned rfl
    simpa [Card.setHandler, differ] using active

/-- A thread enters a handler by the entry for it alone. -/
theorem idle_of_posts (posts : Posts ledger entry after)
    (unentered : ∀ original, entry ≠ .enter pid tid original)
    (idle : (ledger.sheet.card pid).bind (Card.handlers · tid) = none) :
    (after.sheet.card pid).bind (Card.handlers · tid) = none := by
  rw [Option.bind_eq_none_iff]
  intro now inSheet
  obtain ⟨program, root, main, -, -, rfl⟩ | ⟨card, found, amends⟩ := posts.card inSheet
  · rfl
  rw [found, bind_some] at idle
  cases amends with
  | untouched | finish | giveUp | regroup | lead | credit | dispose | mask | pend => exact idle
  | @enter entered original =>
    have differ : tid ≠ entered := by
      rintro rfl
      exact unentered original rfl
    simpa [Card.setHandler, differ] using idle
  | leave =>
    simp only [Card.setHandler]
    split_ifs
    · rfl
    · exact idle

end Ledger

namespace Kernel

variable {kernel after : Kernel} {images : List UserlandImage} {frames : List UInt64}

/-- A thread returns from its signal handler. -/
def sigreturns (kernel : Kernel) (pid : Pid) (tid : Tid) (action : Action) : Bool :=
  match action with
  | .syscall frame _ =>
    decide (Syscall.decode frame.number = some .sigreturn ∧
      kernel.currentUserProcess = some pid ∧ kernel.currentUserThread = some tid)
  | _ => false

theorem returns_step
    (orderly : kernel.Orderly)
    (returns : kernel.ledger.Returns pid tid context)
    (silent : kernel.sigreturns pid tid action = false)
    (stepped : kernel.step action = some after) :
    after.ledger.Returns pid tid context := by
  refine (orderly.keeps stepped).writes.invariant returns ?_
  intro ledger entry next held caused posts
  refine held.preserved ?_ posts
  rintro rfl
  obtain ⟨frame, env, call, rfl, decoded, -, rfl, isCaller, isThread⟩ | absurdity := caused
  · simp [sigreturns, decoded, isCaller, isThread] at silent
  · exact absurdity

/-- The context of a handler survives every run in which the thread does not return
from it. -/
theorem returnContext_of_run
    (orderly : kernel.Orderly)
    (active : kernel.table.returnContext pid tid = some context)
    (silent : Transition.ReachableWhere step
      (fun kernel action => kernel.sigreturns pid tid action = false) kernel later)
    (found : later.table.get pid = some process) :
    process.state.terminal = true ∨ later.table.returnContext pid tid = some context := by
  rw [returnContext_eq] at active
  obtain ⟨card, inSheet, isContext⟩ := bind_eq_some_iff.mp active
  have returns : kernel.ledger.Returns pid tid context := by
    refine ⟨orderly.filed.past inSheet, fun again => ?_⟩
    cases inSheet.symm.trans again
    exact .inr isContext
  have both : later.Orderly ∧ later.ledger.Returns pid tid context := by
    clear found
    induction silent with
    | start => exact ⟨orderly, returns⟩
    | next _ permitted stepped ih =>
      obtain ⟨lateOrderly, lateReturns⟩ := ih
      exact ⟨lateOrderly.preserved stepped,
        returns_step lateOrderly lateReturns permitted stepped⟩
  refine (both.2.holds (card_of_get found)).imp_right fun stays => ?_
  rw [returnContext_eq, card_of_get found]
  exact stays

theorem queued_of_checkout
    (entered : kernel.checkoutCurrentUserForSignalHandler signal handler original = some after)
    (attends : kernel.Attends pid tid) :
    after.table.Queued pid tid { original with rip := handler, rdi := signal, rax := 0 } := by
  obtain ⟨caller, isCaller, rest⟩ := bind_eq_some_iff.mp entered
  obtain rfl := mem_unique isCaller attends.process
  obtain ⟨callerTid, isTid, rest⟩ := bind_eq_some_iff.mp rest
  obtain rfl := mem_unique isTid attends.thread
  obtain ⟨table, activated, ⟨⟩⟩ := bind_eq_some_iff.mp rest
  have queued := ProcessTable.queued_activateRunningSignalHandler activated
  exact queued

section

variable (filed : kernel.ledger.Filed) (idle : kernel.table.returnContext pid tid = none)
  (active : after.table.returnContext pid tid = some context)
include filed idle active

/-- A thread that enters a handler on request of another process is queued for it. -/
theorem queued_of_sendSignal
    (sent : kernel.sendSignal caller target sigterm = .ok (delivery, after)) :
    ∃ process thread, kernel.table.get pid = some process ∧
      process.threads.get tid = some thread ∧ thread.resumeContext = some context ∧
      after.table.Queued pid tid
        { context with rip := process.sigtermDisposition, rdi := sigterm, rax := 0 } := by
  rw [returnContext_eq] at idle active
  have unchanged : ∀ {entry}, Posts kernel.ledger entry after.ledger →
      (∀ original, entry ≠ .enter pid tid original) → False := by
    intro entry posts unentered
    have still := Ledger.idle_of_posts posts unentered idle
    cases still.symm.trans active
  unfold sendSignal at sent
  split at sent
  · cases sent
  · next report table isSent =>
      cases sent
      obtain ⟨_, -, -, -, -, ⟨_, ⟨⟩, terminated⟩ | ⟨still, -⟩⟩ := sendSignal_cases isSent
      · exact (unchanged (posts_terminateUserProcess filed terminated) (by rintro _ ⟨⟩)).elim
      · exact absurd rfl (still report)
  · next delivered table unended isSent =>
      cases sent
      obtain ⟨process, found, -, user, live, ⟨report, rfl, -⟩ | ⟨-, outcome⟩⟩ :=
        sendSignal_cases isSent
      · exact absurd rfl (unended report)
      have onSheet := card_of_get found
      obtain rfl | activated | ⟨-, rfl⟩ := outcome
      · cases idle.symm.trans active
      · obtain ⟨original, saved, wasIdle, sheet⟩ :=
          ProcessTable.sheet_activateSignalHandler filed.tidy found user live activated
        have queued := ProcessTable.queued_activateSignalHandler found saved activated
        simp only [sheet, Sheet.setCard_card] at active
        split_ifs at active with isTarget
        · subst isTarget
          rw [onSheet, bind_some] at idle
          simp only [bind_some, Card.setHandler] at active
          split_ifs at active with isMain
          · subst isMain
            obtain rfl := Option.some.inj active
            exact ⟨process, process.mainThread, found, process.get_mainTid, saved, queued⟩
          · cases idle.symm.trans active
        · cases idle.symm.trans active
      · obtain rfl := ProcessTable.pid_of_get found
        have posts : Posts kernel.ledger (.pend process.pid) _ := .pend onSheet ⟨user, live⟩
        exact (unchanged (posts.of_eq
          (Ledger.ext (@ProcessTable.sheet_addPendingSignal _ _ sigterm _) rfl rfl))
            (by rintro _ ⟨⟩)).elim

theorem queued_of_terminateProcess
    (requested : kernel.terminateProcess target signal = (answer, after)) :
    ∃ process thread, kernel.table.get pid = some process ∧
      process.threads.get tid = some thread ∧ thread.resumeContext = some context ∧
      after.table.Queued pid tid
        { context with rip := process.sigtermDisposition, rdi := sigterm, rax := 0 } := by
  have moved : after.table.sheet ≠ kernel.table.sheet := by
    intro same
    rw [returnContext_eq] at idle active
    rw [same, idle] at active
    cases active
  unfold terminateProcess at requested
  split at requested
  case h_2 =>
    cases requested
    exact absurd rfl moved
  next targetPid caller _ _ =>
  split_ifs at requested with continues notTerm
  · split at requested
    · next table continued =>
        cases requested
        exact absurd (ProcessTable.sheet_continueUserProcess filed.tidy continued) moved
    · cases requested
      exact absurd rfl moved
  · cases requested
    exact absurd rfl moved
  push Not at notTerm
  subst notTerm
  split at requested
  · cases requested
    exact absurd rfl moved
  · next sent =>
      cases requested
      exact queued_of_sendSignal filed idle active sent
  · next sent =>
      cases requested
      split_ifs at active ⊢
      · have queued := queued_of_sendSignal filed idle (by exact active) sent
        exact queued
      · exact queued_of_sendSignal filed idle active sent
  · next sent =>
      cases requested
      exact queued_of_sendSignal filed idle active sent

/-- A thread that enters a handler because it lets a pending request through. -/
theorem queued_of_updateSignalMask
    (attends : kernel.Attends caller running)
    (sigterms : kernel.ledger.Sigterms)
    (masked : kernel.updateSignalMask frame = (answer, after)) :
    ∃ process, kernel.table.get pid = some process ∧ pid = caller ∧ tid = running ∧
      context =
        { UserResumeContext.fromSyscallFrame frame with rax := process.blockedSignals } ∧
      after.table.Queued pid tid
        { context with rip := process.sigtermDisposition, rdi := sigterm, rax := 0 } := by
  obtain ⟨process, found, user, live⟩ := attends.runs.lives
  have onSheet := card_of_get found
  have unmoved : ∀ {entry : Entry} {before : Kernel}, Posts before.ledger entry after.ledger →
      (∀ original, entry ≠ .enter pid tid original) →
      before.table.returnContext pid tid = none → False := by
    intro entry before posts unentered beforeIdle
    rw [returnContext_eq] at beforeIdle active
    have still := Ledger.idle_of_posts posts unentered beforeIdle
    cases still.symm.trans active
  obtain rfl | ⟨how, isHow, valid, mask, rfl, changed, isChanged, outcome⟩ :=
    updateSignalMask_cases attends found (sigterms _ _ onSheet) masked
  · cases idle.symm.trans active
  obtain ⟨changedAttends, changedFound, sheet⟩ := attends_masked attends found isChanged
  have posts : Posts kernel.ledger (.mask caller) changed.ledger :=
    .of_eq (.mask (how.combine process.blockedSignals frame.arg1) onSheet ⟨user, live⟩)
      (Ledger.ext sheet (by rw [isChanged]; rfl) (by rw [isChanged]; rfl))
  have changedIdle : changed.table.returnContext pid tid = none := by
    rw [returnContext_eq] at idle ⊢
    exact Ledger.idle_of_posts posts nofun idle
  have changedFiled := filed.preserved posts
  obtain ⟨-, rfl, -⟩ | ⟨-, ⟨-, rfl, -⟩ | ⟨-, -, rfl⟩ |
    ⟨-, -, original, isOriginal, ⟨entered, -⟩ | ⟨-, rfl⟩⟩⟩ := outcome
  · cases changedIdle.symm.trans active
  · cases changedIdle.symm.trans active
  · exact (unmoved (posts_markCurrentUserExited changedFiled changedAttends) nofun
      changedIdle).elim
  · have enters := posts_checkoutForSignalHandler changedFiled changedAttends entered
    by_cases isSelf : pid = caller ∧ tid = running
    · obtain ⟨rfl, rfl⟩ := isSelf
      have isContext : context = original := by
        rw [returnContext_eq] at active
        obtain ⟨now, inSheet, handler⟩ := bind_eq_some_iff.mp active
        obtain ⟨card, -, -, rfl⟩ := enters.card_of_enter inSheet
        simpa [Card.setHandler] using handler.symm
      refine ⟨process, found, rfl, rfl, isContext.trans isOriginal, ?_⟩
      rw [isContext]
      exact queued_of_checkout entered changedAttends
    · refine (unmoved enters ?_ changedIdle).elim
      rintro _ ⟨⟩
      exact isSelf ⟨rfl, rfl⟩
  · cases changedIdle.symm.trans active

end

/-- A thread on the processor returns from its handler to the interrupted context. -/
theorem queued_of_sigreturn
    (attends : kernel.Attends pid tid)
    (active : kernel.table.returnContext pid tid = some context) :
    ∃ after, kernel.checkoutCurrentUserAfterSigreturn = some after ∧
      after.table.Queued pid tid context ∧ after.table.returnContext pid tid = none := by
  obtain ⟨restored, isRestored, queued, idle⟩ :=
    @ProcessTable.queued_restoreSignalContext _ _ _ _ kernel.ticks attends.runs active
  refine ⟨{ kernel with table := restored }.takeCurrentUser.2, ?_, queued, idle⟩
  simp [checkoutCurrentUserAfterSigreturn, attends.process, attends.thread, isRestored]

/-- The landing leaves the context of a handler alone. -/
theorem returnContext_of_landing {called : Kernel}
    (filed : called.ledger.Filed)
    (lands : kernel.LandsAt (.syscall frame env) called)
    (active : called.table.returnContext pid tid = some context)
    (found : called.userExitLanding.table.get pid = some process) :
    process.state.terminal = true ∨
      called.userExitLanding.table.returnContext pid tid = some context := by
  rw [returnContext_eq] at active
  obtain ⟨card, inSheet, isContext⟩ := bind_eq_some_iff.mp active
  have returns : called.ledger.Returns pid tid context := by
    refine ⟨filed.past inSheet, fun again => ?_⟩
    cases inSheet.symm.trans again
    exact .inr isContext
  have landed : called.userExitLanding.ledger.Returns pid tid context := by
    refine (userExitLanding_ledger filed lands).1.invariant returns ?_
    intro ledger entry next held caused posts
    refine held.preserved ?_ posts
    rintro rfl
    exact caused
  refine (landed.holds (card_of_get found)).imp_right fun stays => ?_
  rw [returnContext_eq, card_of_get found]
  exact stays

/-- A thread that enters a handler is queued for it with its context changed where the
handler needs it.  The context itself is kept while the process lives until the
thread returns from the handler, and then the thread is queued with that context. -/
theorem signal_handler_round_trip
    (reachable : Transition.Reachable step (boot images frames) kernel)
    (pid : Pid) (tid : Tid) (context : UserResumeContext) :
    (∀ (frame : SyscallFrame) answer after,
      kernel.terminateProcess frame.arg0 frame.arg1 = (answer, after) →
      kernel.table.returnContext pid tid = none →
      after.table.returnContext pid tid = some context →
      ∃ process thread, kernel.table.get pid = some process ∧
        process.threads.get tid = some thread ∧ thread.resumeContext = some context ∧
        after.table.Queued pid tid
          { context with rip := process.sigtermDisposition, rdi := sigterm, rax := 0 }) ∧
    (∀ (frame : SyscallFrame) answer after, kernel.mode = .user →
      kernel.updateSignalMask frame = (answer, after) →
      kernel.table.returnContext pid tid = none →
      after.table.returnContext pid tid = some context →
      ∃ process, kernel.table.get pid = some process ∧
        kernel.currentUserProcess = some pid ∧ kernel.currentUserThread = some tid ∧
        context =
          { UserResumeContext.fromSyscallFrame frame with rax := process.blockedSignals } ∧
        after.table.Queued pid tid
          { context with rip := process.sigtermDisposition, rdi := sigterm, rax := 0 }) ∧
    (∀ (frame : SyscallFrame) env called process, kernel.mode = .user →
      kernel.syscallInterruptDispatch env frame = some (syscallReturnToKernel, called) →
      called.table.returnContext pid tid = some context →
      called.userExitLanding.table.get pid = some process →
      process.state.terminal = true ∨
        called.userExitLanding.table.returnContext pid tid = some context) ∧
    (kernel.table.returnContext pid tid = some context →
      (∀ later process,
        Transition.ReachableWhere step
          (fun kernel action => kernel.sigreturns pid tid action = false) kernel later →
        later.table.get pid = some process →
        process.state.terminal = true ∨ later.table.returnContext pid tid = some context) ∧
      (kernel.mode = .user → kernel.currentUserProcess = some pid →
        kernel.currentUserThread = some tid →
        ∃ after, kernel.checkoutCurrentUserAfterSigreturn = some after ∧
          after.table.Queued pid tid context ∧ after.table.returnContext pid tid = none)) := by
  have orderly := orderly_of_reachable reachable
  refine ⟨fun frame answer after requested idle active => ?_,
    fun frame answer after inUserMode masked idle active => ?_,
    fun frame env called process inUserMode dispatched active found => ?_,
    fun active => ⟨fun later process silent found => ?_, fun inUserMode isCaller isThread => ?_⟩⟩
  · exact queued_of_terminateProcess orderly.filed idle active requested
  · obtain ⟨caller, running, attends⟩ := orderly.occupied inUserMode
    obtain ⟨process, found, rfl, rfl, isContext, queued⟩ := queued_of_updateSignalMask orderly.filed
      idle active attends (sigterms_of_reachable reachable) masked
    exact ⟨process, found, attends.process, attends.thread, isContext, queued⟩
  · obtain ⟨caller, running, attends⟩ := orderly.occupied inUserMode
    have writes := (syscallInterruptDispatch_ledger orderly.filed attends dispatched).1
    exact @returnContext_of_landing kernel _ _ _ _ _ _ called (Trail.filed writes orderly.filed)
      dispatched active found
  · exact returnContext_of_run orderly active silent found
  · obtain ⟨caller, running, attends⟩ := orderly.occupied inUserMode
    obtain rfl := mem_unique isCaller attends.process
    obtain rfl := mem_unique isThread attends.thread
    exact queued_of_sigreturn attends active

/-- The shell has been asked to terminate and runs its handler. -/
def inHandlerRun : List Action :=
  Sample.askShell ++ [Sample.call 17 0 0]

def inHandler : Kernel :=
  (Transition.run step Sample.machine inHandlerRun).get (by decide +kernel)

/-- The context in which the shell was interrupted. -/
def interruptedContext : UserResumeContext :=
  (inHandler.table.returnContext 2 5).get (by decide +kernel)

theorem signal_handler_round_trip_inHandler :
    Transition.run step Sample.machine inHandlerRun = some inHandler ∧
      inHandler.table.returnContext 2 5 = some interruptedContext ∧
      interruptedContext.rip = 0x1000100 ∧
      ∃ after, inHandler.checkoutCurrentUserAfterSigreturn = some after ∧
        after.table.Queued 2 5 interruptedContext ∧ after.table.returnContext 2 5 = none := by
  have performed : Transition.run step Sample.machine inHandlerRun = some inHandler :=
    (Option.some_get _).symm
  have active : inHandler.table.returnContext 2 5 = some interruptedContext :=
    (Option.some_get _).symm
  exact ⟨performed, active, by decide +kernel,
    ((signal_handler_round_trip (Transition.reachable_of_run performed) 2 5
      interruptedContext).2.2.2 active).2 (by decide +kernel) (by decide +kernel)
      (by decide +kernel)⟩

end Kernel

end Vantara
