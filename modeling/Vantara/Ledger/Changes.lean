import Vantara.Ledger.Operations

/-!
# Operations that change the sheet

The end of processes, signals, process groups and sessions, credentials and the
page-table roots are written down on the cards.  Every lemma names the card that
an operation changes and what it changes there.
-/

namespace Vantara

open Foundation
open Option (bind_eq_bind bind_eq_some_iff bind_some)

namespace Card

/-- The card of a process that has ended. -/
@[simps]
def close (card : Card) : Card :=
  { card with ended := true }

/-- The card with the context to which the handler of a thread returns, or none. -/
@[simps]
def setHandler (card : Card) (tid : Tid) (context : Option UserResumeContext) : Card :=
  { card with handlers := fun other => if other = tid then context else card.handlers other }

/-- The card with another title. -/
@[simps]
def retitle (card : Card) (change : Title → Title) : Card :=
  { card with title := change card.title }

end Card

/-- Records of ended processes may be gone, and nothing else has changed. -/
structure Sheet.Forgets (sheet after : Sheet) : Prop where
  kept : ∀ pid, after.card pid = sheet.card pid ∨
    after.card pid = none ∧ ∃ card, sheet.card pid = some card ∧ card.ended = true
  rest : after = { sheet with card := after.card }

theorem Sheet.Tidy.setCard
    {sheet : Sheet} {changed : Card}
    (tidy : sheet.Tidy)
    (placed : ¬changed.loose) :
    (sheet.setCard pid changed).Tidy := by
  refine ⟨tidy.1, fun other found inSheet => ?_⟩
  simp only [Sheet.setCard_card] at inSheet
  split_ifs at inSheet
  · cases inSheet
    exact placed
  · exact tidy.2 other found inSheet

theorem Sheet.Forgets.refl {sheet : Sheet} : sheet.Forgets sheet :=
  ⟨fun _ => .inl rfl, rfl⟩

theorem Sheet.Forgets.trans {first second third : Sheet}
    (earlier : first.Forgets second)
    (later : second.Forgets third) :
    first.Forgets third := by
  refine ⟨fun pid => ?_, by rw [later.rest, earlier.rest]⟩
  rcases later.kept pid with same | ⟨gone, card, found, ended⟩
  · rw [same]
    exact earlier.kept pid
  · rcases earlier.kept pid with same | ⟨goneEarlier, -⟩
    · exact .inr ⟨gone, card, same ▸ found, ended⟩
    · rw [goneEarlier] at found
      cases found

/-- A root may have been released, and nothing else has changed. -/
structure Sheet.Releases (sheet : Sheet) (root : Option UInt64) (after : Sheet) : Prop where
  others : ∀ other, some other ≠ root → (other ∈ after.used ↔ other ∈ sheet.used)
  released : sheet.distinct → ∀ own, root = some own → own ∉ after.used
  rest : after = { sheet with used := after.used }

/-- The first element that passes the test is changed in its place. -/
theorem modifyFirst_of_find {elements : List α} (found : elements.find? test = some first) :
    ∃ front back, elements = front ++ first :: back ∧
      modifyFirst test change elements = front ++ change first :: back := by
  induction elements with
  | nil => cases found
  | cons head rest ih =>
    cases passes : test head with
    | true =>
      rw [List.find?_cons_of_pos passes] at found
      cases found
      exact ⟨[], rest, rfl, by simp [modifyFirst, passes]⟩
    | false =>
      rw [List.find?_cons_of_neg (by simp [passes])] at found
      obtain ⟨front, back, same, changed⟩ := ih found
      exact ⟨head :: front, back, by simp [same], by simp [modifyFirst, passes, changed]⟩

theorem modifyFirst_of_none (absent : elements.find? test = none) :
    modifyFirst test change elements = elements := by
  induction elements with
  | nil => rfl
  | cons head rest ih =>
    rw [List.find?_cons] at absent
    cases passes : test head with
    | true => simp [passes] at absent
    | false =>
      rw [passes] at absent
      simp [modifyFirst, passes, ih absent]

namespace PrivateP4Pool

variable {pool : PrivateP4Pool}

/-- Slots with the same root are the same if the roots are distinct. -/
theorem eq_of_root_eq
    (distinct : pool.roots.Nodup)
    (listed : left ∈ pool.slots)
    (listedRight : right ∈ pool.slots)
    (same : left.p4Frame = right.p4Frame) :
    left = right :=
  List.inj_on_of_nodup_map distinct listed listedRight same

theorem used_take (taken : pool.take = some (root, after)) :
    after.used = insert root pool.used ∧ after.roots = pool.roots ∧
      (pool.roots.Nodup → root ∉ pool.used) := by
  obtain ⟨slot, found, ⟨⟩⟩ := bind_eq_some_iff.mp taken
  have free : slot.inUse = false := by simpa using List.find?_some found
  refine ⟨?_, roots_modifyFirst fun _ => rfl, ?_⟩
  · obtain ⟨front, back, slots, changed⟩ :=
      @modifyFirst_of_find _ _ _ (fun slot => { slot with inUse := true }) _ found
    ext other
    simp only [used, changed, Set.mem_insert_iff, Set.mem_ofPred_eq]
    simp only [slots, List.mem_append, List.mem_cons]
    constructor
    · rintro ⟨changed, inFront | rfl | inBack, rfl, inUse⟩
      · exact .inr ⟨changed, .inl inFront, rfl, inUse⟩
      · exact .inl rfl
      · exact .inr ⟨changed, .inr (.inr inBack), rfl, inUse⟩
    · rintro (rfl | ⟨old, inFront | rfl | inBack, rfl, inUse⟩)
      · exact ⟨_, .inr (.inl rfl), rfl, rfl⟩
      · exact ⟨old, .inl inFront, rfl, inUse⟩
      · exact ⟨_, .inr (.inl rfl), rfl, rfl⟩
      · exact ⟨old, .inr (.inr inBack), rfl, inUse⟩
  · rintro distinct ⟨other, otherMem, same, inUse⟩
    obtain rfl := eq_of_root_eq distinct otherMem (List.mem_of_find?_eq_some found) same
    simp [free] at inUse

/-- A root that is released is no longer in use, and neither are its stack slots. -/
theorem release_cases (pool : PrivateP4Pool) (root : UInt64) :
    (∀ slot ∈ pool.slots, slot.p4Frame ≠ root) ∧ pool.release root = pool ∨
      ∃ front slot back, pool.slots = front ++ slot :: back ∧ slot.p4Frame = root ∧
        (pool.release root).slots = front ++
          { slot with inUse := false, stackInUse := slot.stackInUse.map fun _ => false } ::
            back := by
  cases found : pool.slots.find? fun slot => decide (slot.p4Frame = root) with
  | none =>
    refine .inl ⟨fun slot listed => by simpa using List.find?_eq_none.mp found slot listed, ?_⟩
    rw [release, modifyFirst_of_none found]
  | some slot =>
    obtain ⟨front, back, slots, changed⟩ := modifyFirst_of_find found
    exact .inr ⟨front, slot, back, slots, by simpa using List.find?_some found, changed⟩

theorem used_release_of_ne (differ : other ≠ root) :
    other ∈ (pool.release root).used ↔ other ∈ pool.used := by
  rcases pool.release_cases root with ⟨-, same⟩ | ⟨front, slot, back, slots, isRoot, changed⟩
  · rw [same]
  · simp only [used, changed, Set.mem_ofPred_eq]
    simp only [slots, List.mem_append, List.mem_cons]
    constructor
    · rintro ⟨changed, inFront | rfl | inBack, rfl, inUse⟩
      · exact ⟨changed, .inl inFront, rfl, inUse⟩
      · cases inUse
      · exact ⟨changed, .inr (.inr inBack), rfl, inUse⟩
    · rintro ⟨old, inFront | rfl | inBack, rfl, inUse⟩
      · exact ⟨old, .inl inFront, rfl, inUse⟩
      · exact absurd isRoot differ
      · exact ⟨old, .inr (.inr inBack), rfl, inUse⟩

theorem not_mem_used_release (distinct : pool.roots.Nodup) : root ∉ (pool.release root).used := by
  rcases pool.release_cases root with ⟨absent, same⟩ | ⟨front, slot, back, slots, isRoot, changed⟩
  · rw [same]
    rintro ⟨slot, listed, isRoot, -⟩
    exact absent slot listed isRoot
  · rw [roots, slots, List.map_append, List.map_cons] at distinct
    clear slots
    have alone := List.nodup_middle.mp distinct
    rw [List.nodup_cons, ← List.map_append, isRoot] at alone
    rintro ⟨other, otherMem, sameRoot, inUse⟩
    simp only [changed, List.mem_append, List.mem_cons] at otherMem
    rcases otherMem with inFront | rfl | inBack
    · exact alone.1 (List.mem_map.mpr ⟨other, List.mem_append_left _ inFront, sameRoot⟩)
    · cases inUse
    · exact alone.1 (List.mem_map.mpr ⟨other, List.mem_append_right _ inBack, sameRoot⟩)

end PrivateP4Pool

namespace Process

variable {process : Process}

theorem card_exitWith (tidy : ¬process.Loose) :
    (process.exitWith now status).card = process.card.close := by
  have stopped : (process.stopRun now).card = process.card := card_stopRun tidy
  unfold exitWith
  rw [card_setState (by exact not_loose_of_card_eq tidy stopped), card_setSleepingUntil,
    card_setExitStatus, stopped]
  split_ifs <;> rfl

theorem card_giveUp (tidy : ¬process.Loose) : (process.giveUp now).card = process.card.close := by
  have stopped : (process.stopRun now).card = process.card := card_stopRun tidy
  have stoppedTidy := not_loose_of_card_eq tidy stopped
  have reapedTidy : ¬((process.stopRun now).setState .reaped).Loose :=
    not_loose_setState stoppedTidy
  have reaped : ((process.stopRun now).setState .reaped).card = process.card.close := by
    rw [card_setState stoppedTidy, stopped]
    rfl
  exact (card_setMainContext_none (by exact reapedTidy)).trans reaped

/-- A thread enters or leaves a signal handler. -/
theorem card_modifyThread_handler
    (tidy : ¬process.Loose)
    (user : process.kind = .userProcess)
    (live : process.state.terminal = false)
    (found : process.threads.get tid = some owned)
    (handler : (change owned).signalReturnContext = context) :
    (process.modifyThread tid change keepsTid).card = process.card.setHandler tid context := by
  refine Card.ext rfl rfl (propext (iff_of_false ?_ tidy)) (funext fun other => ?_)
  · rintro ⟨other, thread, inProcess, misplaced⟩
    rw [modifyThread_threads, ThreadStore.get_modify] at inProcess
    split_ifs at inProcess with same
    · subst same
      exact not_misplaced_of_live (placed tidy found) user live misplaced
    · exact placed tidy inProcess misplaced
  · simp only [card_handlers, modifyThread_threads, ThreadStore.get_modify,
      Card.setHandler_handlers]
    split_ifs with same
    · simp [same, found, handler]
    · rfl

end Process

namespace ProcessTable

variable {table : ProcessTable}

/-! ## Ends of processes -/

section

variable (tidy : table.sheet.Tidy)
include tidy

theorem sheet_markExited (found : table.get pid = some process) :
    (table.markExited now pid status).sheet = table.sheet.setCard pid process.card.close := by
  obtain rfl := pid_of_get found
  have left := @sheet_leave _ process.pid tidy
  simp only [markExited, get_removeFromReadyQueue, found, sheet_record, sheet_putProcess]
  rw [Process.card_exitWith (not_loose_of_get tidy found)]
  exact congrArg (Sheet.setCard · process.pid process.card.close) left

theorem sheet_markReaped
    (reaped : table.markReaped now pid = some after) :
    ∃ process, table.get pid = some process ∧
      after.sheet = table.sheet.setCard pid process.card.close := by
  simp only [markReaped, get_removeFromReadyQueue] at reaped
  cases found : table.get pid with
  | none => simp [found] at reaped
  | some process =>
    obtain rfl := pid_of_get found
    simp only [found, Option.some.injEq] at reaped
    refine ⟨process, rfl, ?_⟩
    have samePid : (process.giveUp now).pid = process.pid := by simp [Process.giveUp]
    rw [← reaped, sheet_putProcess, Process.card_giveUp (not_loose_of_get tidy found),
      sheet_leave tidy, samePid]

theorem sheet_stopUserProcess : (table.stopUserProcess now pid signal).2.sheet = table.sheet := by
  simp only [stopUserProcess, get_removeFromReadyQueue]
  cases found : table.get pid with
  | none => rfl
  | some process =>
    obtain rfl := pid_of_get found
    dsimp only
    split_ifs with refused
    · rfl
    push Not at refused
    have live : process.state.terminal = false := by simpa using refused.2.1
    have notLoose := not_loose_of_get tidy found
    have left := @sheet_leave _ process.pid tidy
    have stays : ((table.removeFromReadyQueue process.pid).stopProcessRun process.pid).get
        process.pid = some process := by
      simpa using found
    have stopped : ((((table.removeFromReadyQueue process.pid).stopProcessRun
        process.pid).putProcess (((process.stopRun now).setSleepingUntil none).setState
          .stopped)).record (.stopped process.pid signal)).sheet = table.sheet := by
      rw [sheet_record]
      exact (sheet_putProcess_setState (left ▸ tidy) (by exact stays)
        (by exact Process.card_stopRun notLoose) (by exact live.symm)).trans left
    split
    · next parent told =>
        obtain ⟨-, inTable, blocked, -⟩ := waitingParent_spec told
        have parentTidy := not_loose_of_get (stopped ▸ tidy) inTable
        rw [sheet_enqueueReady]
        exact (sheet_putProcess_setState (stopped ▸ tidy) (by exact inTable)
          (by exact Process.card_setMainResult (by exact parentTidy))
          (by rw [blocked]; rfl)).trans stopped
    · exact stopped

theorem sheet_continueUserProcess
    (continued : table.continueUserProcess caller pid = some after) :
    after.sheet = table.sheet := by
  obtain ⟨process, rfl, found, stopped, rfl⟩ := continueUserProcess_spec continued
  rw [sheet_record, sheet_enqueueReady]
  exact sheet_putProcess_setState tidy found rfl (by rw [stopped]; rfl)

theorem sheet_handOver
    (foundTarget : table.get target.pid = some target)
    (ended : target.state.terminal = true)
    (foundParent : table.get parent.pid = some parent)
    (blocked : parent.state = .blocked) :
    (table.handOver parent target.pid status).sheet = table.sheet := by
  have differ : parent.pid ≠ target.pid := by
    intro same
    rw [same, foundTarget] at foundParent
    obtain rfl := Option.some.inj foundParent
    simp [blocked, ProcessState.terminal] at ended
  have reaped := sheet_putProcess_reaped tidy foundTarget ended
  have stays : (table.putProcess (target.setState .reaped)).get parent.pid = some parent := by
    simp [differ, foundParent]
  have parentTidy := not_loose_of_get (reaped ▸ tidy) stays
  simp only [handOver, foundTarget, get_record, stays, sheet_enqueueReady]
  refine (@sheet_putProcess_setState _ _ parent _ (by exact reaped ▸ tidy) (by exact stays) ?_
    ?_).trans reaped
  · exact Process.card_setMainResult (by exact parentTidy)
  · rw [blocked]
    rfl

theorem sheet_terminateUserProcess
    (terminated : table.terminateUserProcess now caller targetPid status = .ok (report, after)) :
    ∃ target, table.get targetPid = some target ∧ caller ≠ targetPid ∧
      target.kind = .userProcess ∧ target.state.terminal = false ∧
      report.p4Frame = target.addressSpace.p4Frame ∧
      after.sheet = table.sheet.setCard targetPid target.card.close := by
  unfold terminateUserProcess at terminated
  split at terminated
  · cases terminated
  next target targeted =>
  obtain ⟨found, other, user, live⟩ := signalTarget_spec targeted
  obtain rfl := pid_of_get found
  have marked : (table.markExited now target.pid status).sheet = _ := sheet_markExited tidy found
  dsimp only at terminated
  split at terminated
  · next parent told =>
      cases terminated
      refine ⟨target, found, other, user, live, rfl, ?_⟩
      obtain ⟨-, inTable, blocked, -⟩ := waitingParent_spec told
      have tidyMarked : (table.markExited now target.pid status).sheet.Tidy := by
        rw [marked]
        exact tidy.setCard (not_loose_of_get tidy found)
      rw [← marked]
      have exited : (table.markExited now target.pid status).get target.pid =
          some (target.exitWith now status) := by
        rw [get_markExited found, if_pos rfl]
      refine @sheet_handOver _ tidyMarked (target.exitWith now status) _ _ exited ?_ inTable
        blocked
      change ProcessState.terminal (if _ then _ else _) = true
      split_ifs <;> rfl
  · cases terminated
    exact ⟨target, found, other, user, live, rfl, marked⟩

/-! ## Signals -/

theorem sheet_activateSignalHandler
    (found : table.get pid = some process)
    (user : process.kind = .userProcess)
    (live : process.state.terminal = false)
    (activated : table.activateSignalHandler pid signal handler = some after) :
    ∃ original, process.mainThread.resumeContext = some original ∧
      process.mainThread.signalReturnContext = none ∧
      after.sheet =
        table.sheet.setCard pid (process.card.setHandler process.mainTid (some original)) := by
  simp only [activateSignalHandler, found, bind_eq_bind, bind_some] at activated
  split_ifs at activated with active
  obtain ⟨original, saved, ⟨⟩⟩ := bind_eq_some_iff.mp activated
  obtain rfl := pid_of_get found
  refine ⟨original, saved, by simpa using active, ?_⟩
  rw [sheet_record, sheet_enqueueReady, sheet_putProcess, Process.card_refreshStateFromThreads,
    Process.card_setSleepingUntil, Process.card_setWaitingFor]
  exact congrArg (table.sheet.setCard process.pid) (Process.card_modifyThread_handler
    (not_loose_of_get tidy found) user live Process.get_mainTid rfl)

theorem sheet_activateRunningSignalHandler
    (lives : table.Lives pid)
    (activated : table.activateRunningSignalHandler now pid tid signal handler original =
      some after) :
    ∃ process owned, table.get pid = some process ∧ process.threads.get tid = some owned ∧
      owned.signalReturnContext = none ∧
      after.sheet = table.sheet.setCard pid (process.card.setHandler tid (some original)) := by
  obtain ⟨process, found, user, live⟩ := lives
  simp only [activateRunningSignalHandler, found, bind_eq_bind,
    bind_some] at activated
  obtain ⟨owned, owns, rest⟩ := bind_eq_some_iff.mp activated
  split_ifs at rest with refused
  cases rest
  push Not at refused
  obtain rfl := pid_of_get found
  refine ⟨process, owned, found, owns, by simpa using refused.2, ?_⟩
  rw [sheet_record, sheet_record, sheet_enqueueReady, sheet_putProcess,
    Process.card_refreshStateFromThreads]
  exact congrArg (table.sheet.setCard process.pid) (Process.card_modifyThread_handler
    (not_loose_of_get tidy found) user live owns rfl)

theorem sheet_restoreSignalContext
    (lives : table.Lives pid)
    (restored : table.restoreSignalContext now pid tid = some after) :
    ∃ process, table.get pid = some process ∧
      after.sheet = table.sheet.setCard pid (process.card.setHandler tid none) := by
  obtain ⟨process, found, user, live⟩ := lives
  simp only [restoreSignalContext, found, bind_eq_bind, bind_some] at restored
  obtain ⟨owned, owns, rest⟩ := bind_eq_some_iff.mp restored
  split_ifs at rest with notRunning
  obtain ⟨original, -, ⟨⟩⟩ := bind_eq_some_iff.mp rest
  obtain rfl := pid_of_get found
  refine ⟨process, found, ?_⟩
  rw [sheet_record, sheet_record, sheet_enqueueReady, sheet_putProcess,
    Process.card_refreshStateFromThreads]
  exact congrArg (table.sheet.setCard process.pid) (Process.card_modifyThread_handler
    (not_loose_of_get tidy found) user live owns rfl)

end

theorem sheet_addPendingSignal :
    (table.addPendingSignal target signal mask).2.sheet =
      table.sheet.setCard target.pid
        (target.card.retitle fun title => { title with pending := title.pending ||| mask }) :=
  sheet_putProcess

theorem sheet_setSignalDisposition
    (replaced : table.setSignalDisposition pid signal disposition = some (old, after)) :
    ∃ process, table.get pid = some process ∧
      after.sheet = table.sheet.setCard pid
        (process.card.retitle fun title => { title with disposition := disposition }) := by
  unfold setSignalDisposition at replaced
  split_ifs at replaced
  obtain ⟨process, found, ⟨⟩⟩ := bind_eq_some_iff.mp replaced
  obtain rfl := pid_of_get found
  exact ⟨process, found, sheet_putProcess⟩

/-- The pending signals that stay when a mask is installed. -/
def stillPending (pending mask : UInt64) : UInt64 :=
  match lowestSignal (pending &&& ~~~mask) with
  | some signal => pending &&& ~~~((signalBit signal).getD 0)
  | none => pending

theorem sheet_updateSignalMask
    (updated : table.updateSignalMask pid how mask = some (update, after)) :
    ∃ process, table.get pid = some process ∧ process.kind = .userProcess ∧
      process.state.terminal = false ∧ update.oldMask = process.blockedSignals ∧
      update.newMask = how.combine process.blockedSignals mask ∧
      update.deliveredSignal = lowestSignal (process.pendingSignals &&& ~~~update.newMask) ∧
      after = table.putProcess { process with
        blockedSignals := update.newMask
        pendingSignals := stillPending process.pendingSignals update.newMask } := by
  obtain ⟨process, found, rest⟩ := bind_eq_some_iff.mp updated
  split_ifs at rest with refused
  cases rest
  push Not at refused
  exact ⟨process, found, by simpa using refused.1, by simpa using refused.2, rfl, rfl, rfl, rfl⟩

/-! ## Jobs and credentials -/

theorem sheet_setProcessGroup
    (moved : table.setProcessGroup caller target group = .ok (joined, after)) :
    ∃ callerProcess process, table.get caller = some callerProcess ∧
      table.get target = some process ∧
      process.sessionId = callerProcess.sessionId ∧ process.sessionId ≠ process.pid ∧
      (joined = target ∨ ∃ member ∈ table.values, member.sessionId = callerProcess.sessionId ∧
        member.processGroupId = joined) ∧
      after.sheet = table.sheet.setCard target
        (process.card.retitle fun title => { title with group := joined }) := by
  unfold setProcessGroup at moved
  split at moved
  case h_2 => cases moved
  next callerProcess process foundCaller found =>
  dsimp only at moved
  generalize chosen : (if group = 0 then target else group) = joining at moved
  split_ifs at moved with notChild otherSession leader missing
  cases moved
  obtain rfl := pid_of_get found
  refine ⟨callerProcess, process, foundCaller, found, by simpa using otherSession, leader, ?_,
    sheet_putProcess⟩
  by_cases own : joined = process.pid
  · exact .inl own
  · right
    simpa [own] using missing

theorem sheet_createSession (created : table.createSession pid = .ok (session, after)) :
    ∃ process, table.get pid = some process ∧ process.processGroupId ≠ pid ∧
      after.sheet = table.sheet.setCard pid
        (process.card.retitle fun title => { title with group := pid, session := pid }) := by
  unfold createSession at created
  split at created
  · cases created
  next process found =>
  split_ifs at created with leader
  cases created
  obtain rfl := pid_of_get found
  exact ⟨process, found, leader, sheet_putProcess⟩

theorem sheet_setCredentials (changed : table.setCredentials pid credentials = some after) :
    ∃ process, table.get pid = some process ∧
      after.sheet = table.sheet.setCard pid
        (process.card.retitle fun title => { title with credentials := credentials }) := by
  obtain ⟨process, found, ⟨⟩⟩ := bind_eq_some_iff.mp changed
  obtain rfl := pid_of_get found
  exact ⟨process, found, sheet_putProcess⟩

theorem sheet_setCwd (changed : table.setCwd pid cwd = some after) : after.sheet = table.sheet := by
  obtain ⟨process, found, ⟨⟩⟩ := bind_eq_some_iff.mp changed
  obtain rfl := pid_of_get found
  exact sheet_putProcess_of_card_eq found rfl

theorem sheet_markIsolated : (table.markIsolated pid).sheet = table.sheet := by
  unfold markIsolated
  split
  · next process found =>
      obtain rfl := pid_of_get found
      refine sheet_putProcess_of_card_eq found ?_
      have root : process.addressSpace.promotedIsolatedUser.p4Frame =
          process.addressSpace.p4Frame := by
        unfold AddressSpace.promotedIsolatedUser
        split
        · next isRoot =>
            split_ifs
            · exact isRoot.symm
            · rfl
        · rfl
      exact Card.ext (Title.ext rfl rfl rfl rfl rfl rfl root rfl rfl rfl) rfl rfl rfl
  · rfl

/-! ## Page-table roots, new processes and old records -/

/-- The card of a process in its first run. -/
def launchedCard (sheet : Sheet) (pid : Pid) (parent : Option Pid) (root : Option UInt64)
    (main : Tid) : Card :=
  let job :=
    match parent.bind sheet.card with
    | some card =>
      match card.title.kind with
      | .userProcess => (card.title.group, card.title.session)
      | .kernelTask => (pid, pid)
    | none => (pid, pid)
  { title :=
      { parent := parent
        kind := .userProcess
        main := main
        group := job.1
        session := job.2
        credentials :=
          match parent.bind sheet.card with
          | some card => card.title.credentials
          | none => .root
        root := root
        pending := 0
        blocked := 0
        disposition := sigDfl }
    ended := false
    loose := False
    handlers := fun _ => none }

theorem sheet_releaseRoot {root : UInt64} :
    table.sheet.Releases (some root)
      ({ table with privatePool := table.privatePool.release root } : ProcessTable).sheet := by
  refine ⟨fun other differ => ?_, fun distinct own isOwn => ?_, ?_⟩
  · exact PrivateP4Pool.used_release_of_ne fun same => differ (congrArg some same)
  · cases isOwn
    exact PrivateP4Pool.not_mem_used_release distinct
  · exact Sheet.ext rfl rfl
      (congrArg List.Nodup (PrivateP4Pool.roots_modifyFirst fun _ => rfl)) rfl rfl

theorem bind_sheet_card {parent : Option Pid} :
    parent.bind table.sheet.card = (parent.bind table.get).map Process.card := by
  cases parent <;> rfl

theorem sheet_newProcess
    (isUser : ¬(parentPid.isNone ∧ name = "kernel" ∧ programPath = "kernel"))
    (later : firstUserTid ≤ tid.toNat) :
    (table.newProcess pid parentPid name programPath arg jobMode space tid).card =
      launchedCard table.sheet pid parentPid space.p4Frame tid := by
  have kind : (table.newProcess pid parentPid name programPath arg jobMode space tid).kind =
      .userProcess := if_neg isUser
  have onlyMain : ∀ {other thread}, (table.newProcess pid parentPid name programPath arg jobMode
      space tid).threads.get other = some thread →
        other = tid ∧ thread.signalReturnContext = none := by
    intro other thread found
    simp only [newProcess, ThreadStore.get_withMain] at found
    split_ifs at found with same
    cases found
    exact ⟨same, rfl⟩
  refine Card.ext ?_ rfl (propext (iff_of_false ?_ id)) (funext fun other => ?_)
  · rw [launchedCard, bind_sheet_card]
    cases parent : parentPid.bind table.get with
    | none =>
      refine Title.ext rfl kind rfl ?_ ?_ ?_ rfl rfl rfl rfl <;>
        simp [Process.title, newProcess, parent]
    | some process =>
      cases isKind : process.kind <;> refine Title.ext rfl kind rfl ?_ ?_ ?_ rfl rfl rfl rfl <;>
        simp [Process.title, newProcess, parent, isKind]
  · rintro ⟨other, thread, found, misplaced⟩
    obtain ⟨rfl, -⟩ := onlyMain found
    simp only [Process.Misplaced, kind] at misplaced
    rcases misplaced with ⟨ended, -⟩ | early
    · cases ended
    · omega
  · cases found : (table.newProcess pid parentPid name programPath arg jobMode space
        tid).threads.get other with
    | none => simp [found, launchedCard]
    | some thread => simp [found, launchedCard, (onlyMain found).2]

/-- A process enters the processor with its main thread. -/
theorem onCpu_startProcessRun
    (found : table.get pid = some process)
    (user : process.kind = .userProcess) :
    (table.startProcessRun now pid).OnCpu pid process.mainTid := by
  have main : (process.startRun now).view.threads process.mainTid =
      some { process.mainThread.view with state := .running } := by
    rw [Process.view_startRun]
    simp
  obtain ⟨owned, owns, view⟩ := Option.map_eq_some_iff.mp main
  refine ⟨process.startRun now, owned, ?_, owns, user, rfl,
    congrArg Lifecycle.ThreadView.state view⟩
  rw [get_startProcessRun found, if_pos rfl]

/-- A program that waits to be loaded enters the processor as a process. -/
theorem sheet_launch
    (arg : UserProgramArg) (jobMode : JobMode) (space : AddressSpace) (now : UInt64)
    (tidy : table.sheet.Tidy)
    (drawn : pid.toNat < table.nextPid.toNat)
    (isUser : ¬(parentPid.isNone ∧ name = "kernel" ∧ programPath = "kernel")) :
    ((table.createReservedProcessWithJobMode pid parentPid name programPath arg jobMode
        space).startProcessRun now pid).sheet =
      table.sheet.setCard pid (launchedCard table.sheet pid parentPid space.p4Frame table.nextTid) ∧
    (((table.createReservedProcessWithJobMode pid parentPid name programPath arg jobMode
        space).startProcessRun now pid).get pid).map Process.mainTid = some table.nextTid ∧
    ((table.createReservedProcessWithJobMode pid parentPid name programPath arg jobMode
        space).startProcessRun now pid).OnCpu pid table.nextTid := by
  obtain ⟨created, found⟩ := created_of_drawn parentPid name programPath arg jobMode space drawn
  generalize table.createReservedProcessWithJobMode pid parentPid name programPath arg jobMode
    space = after at created found ⊢
  have card : (table.newProcess pid parentPid name programPath arg jobMode space
      table.nextTid).card = launchedCard table.sheet pid parentPid space.p4Frame table.nextTid :=
    sheet_newProcess isUser tidy.1.1
  have createdSheet : after.sheet = table.sheet.setCard pid
      (launchedCard table.sheet pid parentPid space.p4Frame table.nextTid) := by
    rw [created, sheet_putProcess, sheet_reserveTid tidy, card]
    rfl
  have createdTidy : after.sheet.Tidy := by
    rw [createdSheet]
    exact tidy.setCard id
  refine ⟨(sheet_startProcessRun createdTidy found rfl).trans createdSheet, ?_, ?_⟩
  · rw [get_startProcessRun found, if_pos rfl]
    exact congrArg some Process.mainTid_startRun
  · exact onCpu_startProcessRun found (if_neg isUser)

theorem forgets_compactReapedHistory :
    table.sheet.Forgets (table.compactReapedHistory keep).sheet := by
  refine compactReapedHistory_induct (motive := fun after => table.sheet.Forgets after.sheet)
    .refl ?_
  intro after pid process forgets found reaped
  refine forgets.trans ⟨fun other => ?_, rfl⟩
  simp only [sheet_card]
  unfold ProcessTable.get
  rw [KeyedStore.get_remove]
  split_ifs with same
  · subst same
    have ended : process.state.terminal = true := reaped ▸ rfl
    exact .inr ⟨rfl, process.card, congrArg _ found, ended⟩
  · exact .inl rfl

end ProcessTable

end Vantara
