import Vantara.Properties.Signals

/-!
# Pending signals are not dropped

A terminate request that is pending stays so until it is applied: the process
ends, a handler is entered, or the request is ignored.  The one exception is a
change of the signal mask by a thread that is in a handler already: the request
is taken out of the pending set before the attempt to enter the handler fails.
-/

namespace Vantara

open Foundation
open ProcessTable (card_of_get get_putProcess pid_of_get)

namespace Ledger

variable {ledger after : Ledger}

/-- The process has ended, a terminate request is pending for it, or something else
is known of its card. -/
def Owed (excused : Card → Prop) (pid : Pid) (ledger : Ledger) : Prop :=
  ∀ card, ledger.sheet.card pid = some card →
    card.ended = true ∨ card.title.pending &&& sigtermMask ≠ 0 ∨ excused card

/-- Every entry but a change of the signal mask leaves pending what is pending. -/
theorem Owed.preserved
    (owed : ledger.Owed excused pid)
    (sigterms : ledger.Sigterms)
    (keeps : ∀ card now, Amends pid card entry now → excused card → excused now)
    (started : ∀ program root, entry = .launch program root → program.pid ≠ pid)
    (unmasked : entry ≠ .mask pid)
    (posts : Posts ledger entry after) :
    after.Owed excused pid := by
  intro now inSheet
  obtain ⟨program, root, main, isLaunch, isPid, -⟩ | ⟨card, found, amends⟩ := posts.card inSheet
  · exact absurd isPid (started program root isLaunch)
  obtain ended | pending | isExcused := owed card found
  · left
    cases amends <;> first | exact ended | rfl
  · cases amends with
    | untouched | finish | giveUp | regroup | lead | credit | dispose | enter | leave =>
      exact .inr (.inl pending)
    | mask => exact absurd rfl unmasked
    | pend =>
      refine .inr (.inl ?_)
      change (card.title.pending ||| sigtermMask) &&& sigtermMask ≠ 0
      rw [(sigterms pid card found).or_sigtermMask]
      decide
  · exact .inr (.inr (keeps card now amends isExcused))

/-- The pending request may have been ignored or have entered a handler. -/
def Applied (card now : Card) : Prop :=
  card.title.disposition = sigIgn ∨ ∃ tid, card.handlers tid = none ∧ now.handlers tid ≠ none

theorem Applied.amended (applied : Applied card now)
    (unreturned : ∀ tid, entry ≠ .leave pid tid)
    (amends : Amends pid now entry next) :
    Applied card next := by
  obtain ignored | ⟨tid, idle, active⟩ := applied
  · exact .inl ignored
  · refine .inr ⟨tid, idle, ?_⟩
    cases amends with
    | untouched | finish | giveUp | regroup | lead | credit | dispose | mask | pend => exact active
    | enter =>
      simp only [Card.setHandler]
      split_ifs
      · exact Option.some_ne_none _
      · exact active
    | leave => exact absurd rfl (unreturned _)

end Ledger

namespace Kernel

variable {kernel after : Kernel} {images : List UserlandImage} {frames : List UInt64}

/-- A change of the signal mask that lets a pending request through to a handler is
made by a thread that is not in a handler. -/
def masksOutsideHandler (kernel : Kernel) (action : Action) : Bool :=
  match action with
  | .syscall frame _ =>
    match Syscall.decode frame.number with
    | some .sigprocmask =>
      kernel.currentProcess.all fun process =>
        decide (frame.arg1 &&& ~~~sigtermMask ≠ 0) ||
        ((maskHow frame.arg0).all fun how =>
          (ProcessTable.deliverable process
            (how.combine process.blockedSignals frame.arg1)).isNone) ||
        decide (process.sigtermDisposition = sigIgn ∨ process.sigtermDisposition = sigDfl) ||
        ((kernel.currentUserThread.bind process.threads.get).all fun thread =>
          thread.signalReturnContext.isNone)
    | _ => true
  | _ => true

/-- The process under another mask, without the request that the mask lets through. -/
def maskedProcess (process : Process) (mask : UInt64) : Process :=
  { process with
    blockedSignals := mask
    pendingSignals := ProcessTable.stillPending process.pendingSignals mask }

section

variable (attends : kernel.Attends pid tid) (found : kernel.table.get pid = some process)
include attends found

/-- What a change of the signal mask does. -/
theorem updateSignalMask_cases (only : OnlySigterm process.pendingSignals)
    (masked : kernel.updateSignalMask frame = (answer, after)) :
    after = kernel ∨
    ∃ how, maskHow frame.arg0 = some how ∧ frame.arg1 &&& ~~~sigtermMask = 0 ∧
      ∃ mask, mask = how.combine process.blockedSignals frame.arg1 ∧
      ∃ changed, changed = kernel.withTable (kernel.table.putProcess (maskedProcess process mask)) ∧
      ((ProcessTable.deliverable process mask = none ∧ after = changed ∧
          ∃ value, answer = .ok value) ∨
        ProcessTable.deliverable process mask = some sigterm ∧
          ((process.sigtermDisposition = sigIgn ∧ after = changed ∧ ∃ value, answer = .ok value) ∨
            (process.sigtermDisposition = sigDfl ∧ answer = .ok syscallReturnToKernel ∧
              after = (changed.markCurrentUserExited (128 + sigterm)).2) ∨
            process.sigtermDisposition ≠ sigIgn ∧ process.sigtermDisposition ≠ sigDfl ∧
              ∃ original, original =
                  { UserResumeContext.fromSyscallFrame frame with rax := process.blockedSignals } ∧
                (changed.checkoutCurrentUserForSignalHandler sigterm process.sigtermDisposition
                    original = some after ∧ answer = .ok syscallReturnToKernel ∨
                  changed.checkoutCurrentUserForSignalHandler sigterm process.sigtermDisposition
                    original = none ∧ after = changed))) := by
  unfold updateSignalMask at masked
  split_ifs at masked with invalid
  · cases masked
    exact .inl rfl
  split at masked
  case h_2 =>
    cases masked
    exact .inl rfl
  next how caller isHow isCaller =>
  obtain rfl := Option.mem_unique isCaller attends.process
  split at masked
  · cases masked
    exact .inl rfl
  next update table updated =>
  obtain ⟨same, isFound, -, -, isOldMask, isMask, isDelivered, rfl⟩ :=
    ProcessTable.sheet_updateSignalMask updated
  obtain rfl := Option.mem_unique isFound found
  refine .inr ⟨how, isHow, by simpa using invalid, update.newMask, isMask, _, rfl, ?_⟩
  have isPid := pid_of_get found
  have stays : (kernel.withTable (kernel.table.putProcess
      (maskedProcess same update.newMask))).table.get caller =
        some (maskedProcess same update.newMask) := by
    rw [← isPid]
    exact get_putProcess.trans (if_pos rfl)
  obtain ⟨-, nothing⟩ | ⟨-, something⟩ := lowestSignal_sigterm only (~~~update.newMask)
  · rw [nothing] at isDelivered
    simp only [isDelivered] at masked
    cases masked
    exact .inl ⟨nothing, rfl, _, rfl⟩
  refine .inr ⟨something, ?_⟩
  rw [something] at isDelivered
  simp only [isDelivered] at masked
  rw [show (kernel.withTable (kernel.table.putProcess { same with
    blockedSignals := update.newMask
    pendingSignals := ProcessTable.stillPending same.pendingSignals update.newMask })).table.get
      caller = some (maskedProcess same update.newMask) from stays] at masked
  simp only [decide_true, Option.filter_some, if_true] at masked
  split_ifs at masked with ignored default
  · cases masked
    exact .inl ⟨ignored, rfl, _, rfl⟩
  · cases masked
    exact .inr (.inl ⟨default, rfl, rfl⟩)
  · refine .inr (.inr ⟨ignored, default,
      { UserResumeContext.fromSyscallFrame frame with rax := update.oldMask },
      by rw [isOldMask], ?_⟩)
    split at masked
    · next refused =>
        cases masked
        exact .inr ⟨refused, rfl⟩
    · next entered =>
        cases masked
        exact .inl ⟨entered, rfl⟩

/-- A running thread that is not in a handler can enter one. -/
theorem checkoutForSignalHandler_isSome
    (free : ∀ thread, process.threads.get tid = some thread →
      thread.signalReturnContext = none) :
    kernel.checkoutCurrentUserForSignalHandler signal handler original ≠ none := by
  obtain ⟨same, owned, isFound, owns, -, -, running⟩ := attends.runs
  obtain rfl := Option.mem_unique isFound found
  simp [checkoutCurrentUserForSignalHandler, attends.process, attends.thread,
    ProcessTable.activateRunningSignalHandler, found, owns, running, free owned owns]

/-- The state in which the signal mask has been replaced. -/
theorem attends_masked
    (isChanged : changed =
      kernel.withTable (kernel.table.putProcess (maskedProcess process mask))) :
    changed.Attends pid tid ∧ changed.table.get pid = some (maskedProcess process mask) ∧
      changed.table.sheet = kernel.table.sheet.setCard pid (maskedProcess process mask).card := by
  subst isChanged
  obtain rfl := pid_of_get found
  exact ⟨⟨attends.process, attends.thread, attends.runs.put_same found rfl rfl rfl⟩,
    get_putProcess.trans (if_pos rfl), ProcessTable.sheet_putProcess⟩

/-- Under the condition a handler that is to be entered can be entered. -/
theorem not_refused_of_permitted
    (isMask : Syscall.decode frame.number = some .sigprocmask)
    (permitted : kernel.masksOutsideHandler (.syscall frame env) = true)
    (isHow : maskHow frame.arg0 = some how)
    (valid : frame.arg1 &&& ~~~sigtermMask = 0)
    (delivered : ProcessTable.deliverable process
      (how.combine process.blockedSignals frame.arg1) = some signal)
    (notIgnored : process.sigtermDisposition ≠ sigIgn)
    (notDefault : process.sigtermDisposition ≠ sigDfl)
    (isChanged : changed =
      kernel.withTable (kernel.table.putProcess (maskedProcess process mask))) :
    changed.checkoutCurrentUserForSignalHandler signal handler original ≠ none := by
  obtain ⟨changedAttends, changedFound, -⟩ := attends_masked attends found isChanged
  refine checkoutForSignalHandler_isSome changedAttends changedFound fun thread inProcess => ?_
  have isThread : process.threads.get tid = some thread := inProcess
  simpa [masksOutsideHandler, isMask, currentProcess, attends.process, attends.thread, found, isHow,
    valid, delivered, notIgnored, notDefault, isThread] using permitted

theorem updateSignalMask_error (only : OnlySigterm process.pendingSignals)
    (isMask : Syscall.decode frame.number = some .sigprocmask)
    (permitted : kernel.masksOutsideHandler (.syscall frame env) = true)
    (masked : kernel.updateSignalMask frame = (.error error, after)) :
    after = kernel := by
  obtain rfl | ⟨how, isHow, valid, mask, rfl, changed, isChanged, outcome⟩ :=
    updateSignalMask_cases attends found only masked
  · rfl
  obtain ⟨-, -, _, ⟨⟩⟩ | ⟨delivered, ⟨-, -, _, ⟨⟩⟩ | ⟨-, ⟨⟩, -⟩ |
    ⟨notIgnored, notDefault, original, -, ⟨-, ⟨⟩⟩ | ⟨refused, -⟩⟩⟩ := outcome
  exact absurd refused (not_refused_of_permitted attends found isMask permitted isHow valid
    delivered notIgnored notDefault isChanged)

end

/-- A change of the signal mask applies the request that it lets through. -/
theorem updateSignalMask_owed
    (filed : kernel.ledger.Filed)
    (attends : kernel.Attends pid tid)
    (found : kernel.table.get pid = some process)
    (only : OnlySigterm process.pendingSignals)
    (pending : process.pendingSignals &&& sigtermMask ≠ 0)
    (isMask : Syscall.decode frame.number = some .sigprocmask)
    (permitted : kernel.masksOutsideHandler (.syscall frame env) = true)
    (masked : kernel.updateSignalMask frame = (answer, after)) :
    after.ledger.Owed (Ledger.Applied process.card) pid := by
  obtain rfl | ⟨how, isHow, valid, mask, rfl, changed, isChanged, outcome⟩ :=
    updateSignalMask_cases attends found only masked
  · intro card inSheet
    cases (card_of_get found).symm.trans inSheet
    exact .inr (.inl pending)
  obtain ⟨changedAttends, changedFound, sheet⟩ := attends_masked attends found isChanged
  obtain ⟨same, isFound, user, live⟩ := attends.runs.lives
  obtain rfl : process = same := Option.mem_unique found isFound
  have changedFiled : changed.ledger.Filed := by
    have posts : Posts kernel.ledger (.mask pid) changed.ledger :=
      .of_eq (.mask (how.combine process.blockedSignals frame.arg1)
        (card_of_get found) ⟨user, live⟩)
        (Ledger.ext sheet (by rw [isChanged]; rfl) (by rw [isChanged]; rfl))
    exact filed.preserved posts
  have onSheet : changed.ledger.sheet.card pid = some (maskedProcess process
      (how.combine process.blockedSignals frame.arg1)).card :=
    card_of_get changedFound
  obtain ⟨nothing, rfl, -⟩ | ⟨delivered, ⟨ignored, rfl, -⟩ | ⟨-, -, rfl⟩ |
    ⟨notIgnored, notDefault, original, -, ⟨entered, -⟩ | ⟨refused, -⟩⟩⟩ := outcome
  · intro card inSheet
    cases onSheet.symm.trans inSheet
    refine .inr (.inl ?_)
    have stays : ProcessTable.stillPending process.pendingSignals
        (how.combine process.blockedSignals frame.arg1) = process.pendingSignals := by
      have noSignal : lowestSignal (process.pendingSignals &&&
        ~~~how.combine process.blockedSignals frame.arg1) = none := nothing
      simp only [ProcessTable.stillPending, noSignal]
    change ProcessTable.stillPending process.pendingSignals _ &&& sigtermMask ≠ 0
    rw [stays]
    exact pending
  · intro card inSheet
    exact .inr (.inr (.inl ignored))
  · intro card inSheet
    have posts := @posts_markCurrentUserExited _ _ _ (128 + sigterm) changedFiled changedAttends
    exact .inl (posts.ended_of_finish inSheet)
  · intro card inSheet
    have posts := posts_checkoutForSignalHandler changedFiled changedAttends entered
    obtain ⟨masked, maskedFound, idle, rfl⟩ := posts.card_of_enter inSheet
    cases onSheet.symm.trans maskedFound
    refine .inr (.inr (.inr ⟨tid, idle, ?_⟩))
    simp [Card.setHandler]
  · exact absurd refused (not_refused_of_permitted attends found isMask permitted isHow valid
      delivered notIgnored notDefault isChanged)

theorem sigterms_of_reachable (reachable : Transition.Reachable step (boot images frames) kernel) :
    kernel.ledger.Sigterms := by
  refine ledger_invariant (atBoot_boot images frames).sigterms ?_ reachable
  intro _ _ _ _ _ ledger entry after _ sigterms _ posts
  exact sigterms.preserved posts

/-- The signal mask of the process is not replaced by an action. -/
def Unmasked (kernel : Kernel) (pid : Pid) (action : Action) : Prop :=
  ∀ frame env, action = .syscall frame env → Syscall.decode frame.number = some .sigprocmask →
    kernel.currentUserProcess ≠ some pid

/-- A step in which a process does not replace its signal mask drops nothing. -/
theorem owed_of_unmasked
    (orderly : kernel.Orderly)
    (sigterms : kernel.ledger.Sigterms)
    (found : kernel.table.get pid = some process)
    (pending : process.pendingSignals &&& sigtermMask ≠ 0)
    (unmasked : kernel.Unmasked pid action)
    (stepped : kernel.step action = some after) :
    after.ledger.Owed (fun _ => False) pid := by
  have onSheet := card_of_get found
  have writes := (orderly.keeps stepped).writes
  generalize after.ledger = last at writes ⊢
  induction writes with
  | start =>
    intro card inSheet
    cases onSheet.symm.trans inSheet
    exact .inr (.inl pending)
  | next earlier caused posts ih =>
    have stillSigterms := earlier.invariant sigterms fun _ _ _ held _ made => held.preserved made
    refine ih.preserved stillSigterms (fun _ _ _ => False.elim) ?_ ?_ posts
    · rintro program root rfl rfl
      obtain ⟨_, _, _, -, -, ⟨⟩⟩ | ⟨rfl, -⟩ := caused
      have absent := (orderly.filed.queued posts.queued_of_launch).1
      rw [ledger_sheet, onSheet] at absent
      cases absent
    · rintro rfl
      obtain ⟨frame, env, call, rfl, decoded, -, rfl, isCaller⟩ | absurdity := caused
      · exact unmasked frame env rfl decoded isCaller
      · exact absurdity

/-- What the landing does keeps the process excused. -/
theorem owed_of_landing (trail : Trail Posts (kernel.LoopCauses (.syscall frame env)) first last)
    (sigterms : first.Sigterms)
    (owed : first.Owed (Ledger.Applied card) pid) :
    last.Owed (Ledger.Applied card) pid := by
  induction trail with
  | start => exact owed
  | next earlier caused posts ih =>
    have stillSigterms := earlier.invariant sigterms fun _ _ _ held _ made => held.preserved made
    refine ih.preserved stillSigterms
      (fun before now amends applied => applied.amended ?_ amends) ?_ ?_ posts
    · rintro tid rfl
      exact caused
    · rintro program root rfl
      obtain ⟨-, _, ⟨⟩⟩ := caused
    · rintro rfl
      exact caused

theorem owed_of_masked
    (orderly : kernel.Orderly)
    (sigterms : kernel.ledger.Sigterms)
    (found : kernel.table.get pid = some process)
    (pending : process.pendingSignals &&& sigtermMask ≠ 0)
    (isMask : Syscall.decode frame.number = some .sigprocmask)
    (isCaller : kernel.currentUserProcess = some pid)
    (permitted : kernel.masksOutsideHandler (.syscall frame env) = true)
    (stepped : kernel.step (.syscall frame env) = some after) :
    after.ledger.Owed (Ledger.Applied process.card) pid := by
  obtain ⟨mode, rfl⟩ := systemCall_of_step stepped
  obtain ⟨caller, tid, attends⟩ := orderly.occupied mode
  obtain rfl := Option.mem_unique isCaller attends.process
  have onSheet := card_of_get found
  cases masked : kernel.updateSignalMask frame with
  | mk answer called =>
  have owed := updateSignalMask_owed orderly.filed attends found (sigterms _ _ onSheet) pending
    isMask permitted masked
  have dispatched : kernel.syscallInterruptDispatch env frame = some (answer.register, called) := by
    simp [syscallInterruptDispatch, isMask, handle, masked]
  have writes := (serves_updateSignalMask orderly.filed attends masked).writes
  have filed := Trail.filed writes orderly.filed
  have calledSigterms := writes.invariant sigterms fun _ _ _ held _ made => held.preserved made
  simp only [systemCall, dispatched]
  split_ifs with returns
  · have lands : kernel.LandsAt (.syscall frame env) called :=
      dispatched.trans (by rw [returns])
    exact owed_of_landing (userExitLanding_ledger filed lands).1 calledSigterms owed
  · exact owed

/-- A pending terminate request stays pending until it is applied, and a change of
the signal mask that fails changes nothing, as long as no thread lets a request
through to a handler while it is in one. -/
theorem pending_signal_applied (reachable : Transition.Reachable step (boot images frames) kernel)
    (permitted : kernel.masksOutsideHandler action = true)
    (stepped : kernel.step action = some after) :
    (∀ pid process, kernel.table.get pid = some process →
      process.pendingSignals &&& sigtermMask ≠ 0 →
      ∀ now, after.table.get pid = some now →
        now.state.terminal = true ∨ now.pendingSignals &&& sigtermMask ≠ 0 ∨
          process.sigtermDisposition = sigIgn ∨
          ∃ tid, (process.threads.get tid).bind Thread.signalReturnContext = none ∧
            (now.threads.get tid).bind Thread.signalReturnContext ≠ none) ∧
    ∀ frame env error result, action = .syscall frame env →
      Syscall.decode frame.number = some .sigprocmask →
      kernel.updateSignalMask frame = (.error error, result) →
      ∀ pid, (result.table.get pid).map (fun process =>
          (process.blockedSignals, process.pendingSignals)) =
        (kernel.table.get pid).map fun process =>
          (process.blockedSignals, process.pendingSignals) := by
  have orderly := orderly_of_reachable reachable
  have sigterms := sigterms_of_reachable reachable
  constructor
  · intro pid process found pending now isNow
    have owed : after.ledger.Owed (Ledger.Applied process.card) pid := by
      by_cases unmasked : kernel.Unmasked pid action
      · intro card inSheet
        obtain ended | stays | absurdity :=
          owed_of_unmasked orderly sigterms found pending unmasked stepped card inSheet
        · exact .inl ended
        · exact .inr (.inl stays)
        · exact absurdity.elim
      · simp only [Unmasked, not_forall, not_not] at unmasked
        obtain ⟨frame, env, rfl, isMask, isCaller⟩ := unmasked
        exact owed_of_masked orderly sigterms found pending isMask isCaller permitted stepped
    exact owed now.card (card_of_get isNow)
  · rintro frame env error result rfl isMask masked pid
    obtain ⟨mode, -⟩ := systemCall_of_step stepped
    obtain ⟨caller, tid, attends⟩ := orderly.occupied mode
    obtain ⟨process, found, -⟩ := attends.runs.lives
    have only := sigterms _ _ (card_of_get found)
    rw [updateSignalMask_error attends found only isMask permitted masked]

/-- The shell installs a handler and blocks the request, which then comes. -/
def blockedRun : List Action :=
  Sample.loadShell ++ [Sample.call 44 15 0x1000300, Sample.call 42 0 sigtermMask,
    Sample.call 17 0 0, Sample.call 16 2 15, Sample.call 17 0 0]

def blockedKernel : Kernel :=
  (Transition.run step Sample.machine blockedRun).get (by decide +kernel)

/-- The shell lets the request through. -/
def unblock : Action := Sample.call 42 1 sigtermMask

def unblockedKernel : Kernel := (blockedKernel.step unblock).get (by decide +kernel)
def blockedShell : Process := (blockedKernel.table.get 2).get (by decide +kernel)
def unblockedShell : Process := (unblockedKernel.table.get 2).get (by decide +kernel)

theorem pending_signal_applied_blockedRun :
    Transition.run step Sample.machine blockedRun = some blockedKernel ∧
      blockedKernel.step unblock = some unblockedKernel ∧
      blockedShell.pendingSignals = sigtermMask ∧ unblockedShell.pendingSignals = 0 ∧
      (unblockedShell.state.terminal = true ∨
        unblockedShell.pendingSignals &&& sigtermMask ≠ 0 ∨
        blockedShell.sigtermDisposition = sigIgn ∨
        ∃ tid, (blockedShell.threads.get tid).bind Thread.signalReturnContext = none ∧
          (unblockedShell.threads.get tid).bind Thread.signalReturnContext ≠ none) := by
  have performed : Transition.run step Sample.machine blockedRun = some blockedKernel :=
    (Option.some_get _).symm
  have stepped : blockedKernel.step unblock = some unblockedKernel := (Option.some_get _).symm
  refine ⟨performed, stepped, by decide +kernel, by decide +kernel, ?_⟩
  exact (pending_signal_applied (Transition.reachable_of_run performed) (by decide +kernel)
    stepped).1 2 blockedShell (Option.some_get _).symm (by decide +kernel) unblockedShell
      (Option.some_get _).symm

/-- The request comes twice; the second one finds the handler active, and the shell
replaces its mask from within the handler. -/
def maskInHandlerRun : List Action :=
  Sample.askShell ++ [Sample.call 16 2 15, Sample.call 17 0 0]

/-- The call fails, but the request is no longer pending; the shell is alive, and its
handler was entered only once. -/
theorem maskInHandlerRun_drops_request :
    ((Transition.run step Sample.machine maskInHandlerRun).bind fun kernel =>
        (kernel.table.get 2).map fun process => (process.pendingSignals,
          (kernel.updateSignalMask (Sample.frame 42 2 0 0 0)).1.register)) =
      some (sigtermMask, SyscallError.invalidArgument.code) ∧
    ((Transition.run step Sample.machine (maskInHandlerRun ++ [Sample.call 42 2 0])).bind
        fun kernel => (kernel.table.get 2).map fun process =>
          (process.pendingSignals, process.state, process.mainThread.signalReturnContext.isSome)) =
      some (0, .running, true) := by
  decide +kernel

end Kernel

end Vantara
