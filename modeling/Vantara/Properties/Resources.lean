import Vantara.Properties.AddressSpaces
import Vantara.Properties.WaitBridge

/-!
# What a process leaves behind

When a process ends, everything it had open is closed and its page-table root goes
back to the pool.  The wait bridge is the exception: it gives up the record of a
process without closing or returning anything.
-/

namespace Vantara

open Foundation

/-- The entries by which somebody gets something. -/
def Entry.acquires : Entry → Prop
  | .launch _ _ | .own _ => True
  | _ => False

namespace Ledger

variable {ledger after start : Ledger} {pid : Pid} {root : Option UInt64}

/-- The process lives and has the root. -/
def Held (pid : Pid) (root : Option UInt64) (ledger : Ledger) : Prop :=
  ∃ card, ledger.sheet.card pid = some card ∧ card.ended = false ∧ card.title.root = root

/-- The process has ended and left nothing behind. -/
structure Freed (pid : Pid) (root : Option UInt64) (ledger : Ledger) : Prop where
  gone : ledger.sheet.card pid = some card → card.ended = true
  bare : ledger.ipc.Bare pid
  returned : ∀ own, root = some own → own ∉ ledger.sheet.used

theorem Held.not_freed (held : ledger.Held pid root) : ¬ledger.Freed pid root := by
  obtain ⟨card, inSheet, live, -⟩ := held
  intro freed
  rw [freed.gone inSheet] at live
  cases live

/-- One card changes, but neither in its root nor in whether the process has ended. -/
theorem Held.setCard {changed : Card}
    (held : ledger.Held pid root)
    (found : ledger.sheet.card other = some card)
    (sameRoot : changed.title.root = card.title.root)
    (sameEnd : changed.ended = card.ended) :
    (ledger.setCard other changed).Held pid root := by
  obtain ⟨own, inSheet, live, isRoot⟩ := held
  by_cases isOther : pid = other
  · subst isOther
    rw [found] at inSheet
    cases inSheet
    exact ⟨changed, by simp, sameEnd.trans live, sameRoot.trans isRoot⟩
  · exact ⟨own, by simp [isOther, inSheet], live, isRoot⟩

/-- One card changes, but the process does not come back to life. -/
theorem Freed.setCard {changed : Card}
    (freed : ledger.Freed pid root)
    (found : ledger.sheet.card other = some card)
    (ends : card.ended = true → changed.ended = true) :
    (ledger.setCard other changed).Freed pid root where
  gone := by
    intro own inSheet
    simp only [setCard_sheet, Sheet.setCard_card] at inSheet
    split_ifs at inSheet with isOther
    · cases inSheet
      subst isOther
      exact ends (freed.gone found)
    · exact freed.gone inSheet
  bare := freed.bare
  returned := freed.returned

/-- The end of a process frees what that process held. -/
theorem Held.finish {sheet : Sheet}
    (held : ledger.Held pid root)
    (accounts : ledger.ipc.Accounts)
    (distinct : ledger.sheet.distinct)
    (found : ledger.sheet.card ending = some card)
    (released : (ledger.sheet.setCard ending card.close).Releases card.title.root sheet) :
    Held pid root { ledger with sheet := sheet, ipc := ledger.ipc.closeProcessFiles ending } ∨
      Freed pid root
        { ledger with sheet := sheet, ipc := ledger.ipc.closeProcessFiles ending } := by
  have cards : sheet.card = (ledger.sheet.setCard ending card.close).card :=
    (congrArg Sheet.card released.rest).trans rfl
  obtain ⟨own, inSheet, live, isRoot⟩ := held
  by_cases isEnding : pid = ending
  · subst isEnding
    rw [found] at inSheet
    cases inSheet
    refine .inr ⟨fun {later} isLater => ?_, Ipc.bare_closeProcessFiles accounts, ?_⟩
    · simp only [cards, Sheet.setCard_card, if_true, Option.some.injEq] at isLater
      rw [← isLater]
      rfl
    · intro own isOwn
      exact released.released distinct own (isRoot.trans isOwn)
  · refine .inl ⟨own, ?_, live, isRoot⟩
    simp only [cards, Sheet.setCard_card, isEnding, if_false, inSheet]

/-- What was freed stays free when another process ends. -/
theorem Freed.finish
    {sheet : Sheet} {card : Card}
    (freed : ledger.Freed pid root)
    (distinct : ledger.sheet.distinct)
    (released : (ledger.sheet.setCard ending card.close).Releases card.title.root sheet) :
    Freed pid root { ledger with sheet := sheet, ipc := ledger.ipc.closeProcessFiles ending } where
  gone := by
    intro later isLater
    have cards : sheet.card = (ledger.sheet.setCard ending card.close).card :=
      (congrArg Sheet.card released.rest).trans rfl
    simp only [cards, Sheet.setCard_card] at isLater
    split_ifs at isLater
    · cases isLater
      rfl
    · exact freed.gone isLater
  bare := freed.bare.closeProcessFiles
  returned := by
    intro own isOwn inUse
    by_cases isReleased : some own = card.title.root
    · exact released.released distinct own isReleased.symm inUse
    · exact freed.returned own isOwn ((released.others own isReleased).mp inUse)

theorem Held.forget {sheet : Sheet}
    (held : ledger.Held pid root)
    (forgets : ledger.sheet.Forgets sheet) :
    (ledger.setSheet sheet).Held pid root := by
  obtain ⟨own, inSheet, live, isRoot⟩ := held
  rcases forgets.kept pid with same | ⟨-, card, found, ended⟩
  · exact ⟨own, same.trans inSheet, live, isRoot⟩
  · rw [inSheet] at found
    cases found
    rw [live] at ended
    cases ended

theorem Freed.forget {sheet : Sheet}
    (freed : ledger.Freed pid root)
    (forgets : ledger.sheet.Forgets sheet) :
    (ledger.setSheet sheet).Freed pid root where
  gone := by
    intro card inSheet
    rcases forgets.kept pid with same | ⟨gone, -⟩
    · exact freed.gone (same.symm.trans inSheet)
    · cases gone.symm.trans inSheet
  bare := freed.bare
  returned := by
    intro own isOwn
    have used : sheet.used = ledger.sheet.used := (congrArg Sheet.used forgets.rest).trans rfl
    rw [setSheet_sheet, used]
    exact freed.returned own isOwn

/-- Every entry but a give-up frees all that a process held when it ends. -/
theorem Held.preserved
    (held : ledger.Held pid root)
    (filed : ledger.Filed)
    (accounts : ledger.ipc.Accounts)
    (distinct : ledger.sheet.distinct)
    (spared : entry ≠ .giveUp pid)
    (posts : Posts ledger entry after) :
    after.Held pid root ∨ after.Freed pid root := by
  cases posts with
  | launch _ queued =>
    obtain ⟨card, inSheet, live, isRoot⟩ := held
    refine .inl ⟨card, ?_, live, isRoot⟩
    have absent := (filed.queued (queued ▸ List.mem_cons_self)).1
    simp only [Sheet.setCard_card, takeRoot_card]
    rw [if_neg]
    · exact inSheet
    · rintro rfl
      rw [absent] at inSheet
      cases inSheet
  | draw | drop | own => exact .inl held
  | finish found _ released => exact held.finish accounts distinct found released
  | giveUp =>
    obtain ⟨own, inSheet, live, isRoot⟩ := held
    refine .inl ⟨own, ?_, live, isRoot⟩
    simp only [setCard_sheet, Sheet.setCard_card]
    rw [if_neg]
    · exact inSheet
    · rintro rfl
      exact spared rfl
  | forget forgets => exact .inl (held.forget forgets)
  | regroup _ found | lead found | credit _ found | dispose _ found | mask _ found | pend found
  | enter _ found | leave found =>
    exact .inl (held.setCard found rfl rfl)

/-- What was freed stays free until somebody gets something again. -/
theorem Freed.preserved
    (freed : ledger.Freed pid root)
    (distinct : ledger.sheet.distinct)
    (keeps : ¬entry.acquires)
    (posts : Posts ledger entry after) :
    after.Freed pid root := by
  cases posts with
  | launch | own => exact absurd trivial keeps
  | draw | drop => exact ⟨freed.gone, freed.bare, freed.returned⟩
  | finish _ _ released => exact freed.finish distinct released
  | giveUp found => exact freed.setCard found fun _ => rfl
  | forget forgets => exact freed.forget forgets
  | regroup _ found | lead found | credit _ found | dispose _ found | mask _ found | pend found
  | enter _ found | leave found =>
    exact freed.setCard found id

/-- Pipes are counted rightly and roots are distinct. -/
structure Sorted (ledger : Ledger) : Prop where
  accounts : ledger.ipc.Accounts
  exclusive : ledger.Exclusive

theorem Sorted.preserved
    (sorted : ledger.Sorted)
    (fresh : ∀ pid, entry = .own pid → ledger.ipc.drawsFresh = true)
    (posts : Posts ledger entry after) :
    after.Sorted := by
  refine ⟨?_, sorted.exclusive.preserved posts⟩
  cases posts with
  | own _ accounts => exact accounts (fresh _ rfl) sorted.accounts
  | finish => exact Ipc.accounts_closeProcessFiles sorted.accounts
  | _ => exact sorted.accounts

/-- A process that lived at the start of a step is watched until it ends. -/
structure Watched (pid : Pid) (root : Option UInt64) (ledger : Ledger) : Prop where
  filed : ledger.Filed
  sorted : ledger.Sorted
  either : ledger.Held pid root ∨ ledger.Freed pid root

/-- Only the first entry of a step gives something to somebody. -/
theorem Watched.preserved
    (watched : ledger.Watched pid root)
    (lived : start.Held pid root)
    (fresh : start.ipc.drawsFresh = true)
    (first : entry.acquires → ledger = start)
    (spared : entry ≠ .giveUp pid)
    (posts : Posts ledger entry after) :
    after.Watched pid root := by
  refine ⟨watched.filed.preserved posts, ?_, ?_⟩
  · refine watched.sorted.preserved ?_ posts
    rintro pid rfl
    rw [first trivial]
    exact fresh
  · rcases watched.either with held | freed
    · exact held.preserved watched.filed watched.sorted.accounts
        watched.sorted.exclusive.distinct spared posts
    · refine .inr (freed.preserved watched.sorted.exclusive.distinct ?_ posts)
      intro acquires
      rw [first acquires] at freed
      exact lived.not_freed freed

/-- A process from the past has ended as long as it has a record. -/
structure Over (pid : Pid) (ledger : Ledger) : Prop where
  past : ledger.Past pid
  ended : ledger.sheet.card pid = some card → card.ended = true

theorem Over.preserved (held : ledger.Over pid) (posts : Posts ledger entry after) :
    after.Over pid := by
  refine ⟨held.past.preserved posts, fun inSheet => ?_⟩
  obtain ⟨card, found, amends⟩ := held.past.card posts inSheet
  have old := held.ended found
  cases amends with
  | finish | giveUp => rfl
  | untouched | credit | regroup | lead | dispose | mask | pend | enter | leave => exact old

end Ledger

namespace Kernel

variable {kernel after landing : Kernel} {images : List UserlandImage} {frames : List UInt64}
  {root : Option UInt64}

/-- If the action reaches the landing, every live shell that asked for the process
that ended last can be resumed there. -/
def answersAtLanding (kernel : Kernel) : Action → Bool
  | .syscall frame env =>
    (kernel.syscallInterruptDispatch env frame).all fun (value, landing) =>
      decide (value ≠ syscallReturnToKernel) || landing.answersWaits
  | .fault kind => (kernel.markCurrentUserFault kind.status).2.answersWaits
  | _ => true

/-- The next pipe gets an identifier of its own, and no live shell is given up. -/
def leavesNothing (kernel : Kernel) (action : Action) : Bool :=
  kernel.ipc.drawsFresh && kernel.answersAtLanding action

theorem answersWaits_of_lands
    (answers : kernel.answersAtLanding action = true)
    (lands : kernel.LandsAt action landing) :
    landing.answersWaits = true := by
  cases action with
  | «syscall» frame env =>
    have dispatched : kernel.syscallInterruptDispatch env frame =
      some (syscallReturnToKernel, landing) := lands
    simpa [answersAtLanding, dispatched] using answers
  | fault =>
    obtain rfl := lands
    exact answers
  | _ => cases lands

theorem accounts_new : Ipc.new.Accounts := by
  intro owner
  refine ⟨fun pipeId => by simp [Ipc.new], fun {pipe} listed => ?_⟩
  simp [Ipc.new] at listed

theorem sorted_of_reachable
    (distinct : (bootPool frames).roots.Nodup)
    (reachable : Transition.ReachableWhere step
      (fun kernel action => kernel.leavesNothing action = true) (boot images frames) kernel) :
    kernel.ledger.Sorted := by
  have frameDistinct : (frames.take 8).Nodup := by
    simpa [PrivateP4Pool.roots, bootPool, Function.comp_def] using distinct
  have atBoot := atBoot_boot images frames
  refine ledger_invariant ⟨?_, atBoot.exclusive frameDistinct⟩ ?_ reachable
  · rw [atBoot.unopened]
    exact accounts_new
  · intro kernel action _ permitted _ ledger entry after _ sorted caused posts
    refine sorted.preserved ?_ posts
    rintro pid rfl
    obtain ⟨frame, env, call, -, -, rfl, -⟩ | looped := caused
    · exact (Bool.and_eq_true_iff.mp permitted).1
    · cases looped

theorem held_of_get
    (found : kernel.table.get pid = some process)
    (live : process.state.terminal = false) :
    kernel.ledger.Held pid process.addressSpace.p4Frame :=
  ⟨process.card, ProcessTable.card_of_get found, live, rfl⟩

theorem get_of_held (held : kernel.ledger.Held pid root) :
    ∃ process, kernel.table.get pid = some process ∧ process.state.terminal = false := by
  obtain ⟨card, inSheet, live, -⟩ := held
  obtain ⟨process, found, rfl⟩ := Option.map_eq_some_iff.mp inSheet
  exact ⟨process, found, live⟩

theorem freed_of_entry {ledger last : Ledger}
    (freed : ledger.Freed pid root)
    (caused : landing.LandingCauses ledger entry)
    (posts : Posts ledger entry last) :
    last.Freed pid root := by
  cases posts with
  | giveUp found => exact freed.setCard found fun _ => rfl
  | forget forgets => exact freed.forget forgets
  | _ => cases caused

/-- A process that lived when the landing was reached lives on, and one that had
ended has left nothing behind. -/
theorem watched_of_landing
    (watched : landing.ledger.Watched pid root)
    (answers : landing.answersWaits = true) :
    (∃ later, landing.userExitLanding.table.get pid = some later ∧
      later.state.terminal = false) ∨ landing.userExitLanding.ledger.Freed pid root := by
  rcases watched.either with held | freed
  · obtain ⟨process, found, live⟩ := get_of_held held
    refine .inl (live_of_landing watched.filed found live fun bridged => ?_)
    rw [ended_of_bridged answers bridged found] at live
    cases live
  · exact .inr ((userExitLanding_writes watched.filed).1.invariant freed
      fun _ _ _ freed caused posts => freed_of_entry freed caused posts)

/-- A process is watched up to the landing. -/
theorem watched_of_syscall
    (watched : kernel.ledger.Watched pid root)
    (lived : kernel.ledger.Held pid root)
    (fresh : kernel.ipc.drawsFresh = true)
    (attends : kernel.Attends caller tid)
    (dispatched : kernel.syscallInterruptDispatch env frame = some (value, after)) :
    after.ledger.Watched pid root := by
  refine (syscallInterruptDispatch_writes watched.filed attends dispatched).1.invariant watched ?_
  rintro ledger entry last watched ⟨call, -, caused⟩ posts
  refine watched.preserved lived fresh ?_ ?_ posts
  · intro acquires
    cases entry with
    | launch => cases caused
    | own => exact caused.1
    | _ => cases acquires
  · rintro rfl
    cases caused

/-- A process is watched through an action that does not reach the landing. -/
theorem watched_of_keeps
    (watched : kernel.ledger.Watched pid root)
    (lived : kernel.ledger.Held pid root)
    (fresh : kernel.ipc.drawsFresh = true)
    (keeps : kernel.Keeps action after)
    (notCall : ∀ frame env, action ≠ .syscall frame env)
    (notLanding : ∀ landing, ¬kernel.LandsAt action landing) :
    after.ledger.Watched pid root := by
  refine keeps.writes.invariant watched ?_
  intro ledger entry last watched caused posts
  obtain ⟨frame, env, call, isCall, -⟩ | looped := caused
  · exact absurd isCall (notCall frame env)
  refine watched.preserved lived fresh ?_ ?_ posts
  · intro acquires
    cases entry with
    | launch => exact looped.1
    | own => cases looped
    | _ => cases acquires
  · rintro rfl
    obtain ⟨landing, lands, -⟩ := looped
    exact notLanding landing lands

/-- Whatever a step does, a process that it ends leaves nothing behind. -/
theorem watched_of_step
    (orderly : kernel.Orderly)
    (watched : kernel.ledger.Watched pid root)
    (lived : kernel.ledger.Held pid root)
    (permitted : kernel.leavesNothing action = true)
    (performed : kernel.step action = some after) :
    (∃ later, after.table.get pid = some later ∧ later.state.terminal = false) ∨
      after.ledger.Freed pid root := by
  obtain ⟨fresh, answers⟩ := Bool.and_eq_true_iff.mp permitted
  have settled : after.ledger.Watched pid root →
      (∃ later, after.table.get pid = some later ∧ later.state.terminal = false) ∨
        after.ledger.Freed pid root := fun watched => watched.either.imp_left get_of_held
  cases action with
  | «syscall» frame env =>
    obtain ⟨isUser, rfl⟩ := systemCall_of_step performed
    obtain ⟨caller, tid, attends⟩ := orderly.occupied isUser
    unfold systemCall at settled ⊢
    split
    · exact .inl (get_of_held lived)
    next value called dispatched =>
    have watched := watched_of_syscall watched lived fresh attends dispatched
    split_ifs with returns
    · subst returns
      exact watched_of_landing watched (answersWaits_of_lands answers dispatched)
    · exact watched.either.imp_left get_of_held
  | fault kind =>
    obtain ⟨isUser, rfl⟩ := userFault_of_step performed
    obtain ⟨caller, tid, attends⟩ := orderly.occupied isUser
    have posts := @posts_markCurrentUserExited _ _ _ kind.status watched.filed attends
    have ended := watched.preserved lived fresh (by exact nofun) (by exact nofun) posts
    have lands : kernel.LandsAt (.fault kind) (kernel.markCurrentUserExited kind.status).2 := by
      simp only [LandsAt, markCurrentUserFault_eq attends]
    rw [userFault, markCurrentUserFault_eq attends]
    exact watched_of_landing ended (answersWaits_of_lands answers lands)
  | _ =>
    exact settled (watched_of_keeps watched lived fresh (orderly.keeps performed)
      (by rintro _ _ ⟨⟩) (by exact fun _ lands => lands))

/-- In a run in which every pipe gets an identifier of its own and no live shell is
given up, a step that ends a process leaves nothing of it behind. -/
theorem ended_process_leaves_nothing
    (distinct : (bootPool frames).roots.Nodup)
    (reachable : Transition.ReachableWhere step
      (fun kernel action => kernel.leavesNothing action = true) (boot images frames) kernel)
    (permitted : kernel.leavesNothing action = true)
    (performed : kernel.step action = some after)
    (found : kernel.table.get pid = some process)
    (live : process.state.terminal = false)
    (ended : ∀ later, after.table.get pid = some later → later.state.terminal = true) :
    (∀ file, some file ∈ after.ipc.openFiles → file.pid ≠ pid) ∧
      (∀ pipe, some pipe ∈ after.ipc.pipes → pipe.ownerPid ≠ pid) ∧
      (∀ event, some event ∈ after.ipc.events → event.ownerPid ≠ pid) ∧
      (∀ queue, some queue ∈ after.ipc.messageQueues → queue.ownerPid ≠ pid) ∧
      ∀ slot ∈ after.table.privatePool.slots,
        process.addressSpace.p4Frame = some slot.p4Frame → slot.inUse = false := by
  have orderly := orderly_of_reachable reachable
  have lived := held_of_get found live
  have watched : kernel.ledger.Watched pid process.addressSpace.p4Frame :=
    ⟨orderly.filed, sorted_of_reachable distinct reachable, .inl lived⟩
  rcases watched_of_step orderly watched lived permitted performed with
    ⟨later, isLater, stillLive⟩ | freed
  · rw [ended later isLater] at stillLive
    cases stillLive
  · refine ⟨fun _ => freed.bare.openFiles, fun _ => freed.bare.pipes,
      fun _ => freed.bare.events, fun _ => freed.bare.messageQueues, ?_⟩
    intro slot listed isRoot
    by_contra inUse
    exact freed.returned slot.p4Frame isRoot ⟨slot, listed, rfl, Bool.eq_true_of_not_eq_false inUse⟩

/-- A program that the shell waits for opens a pipe and an event. -/
def tidyRun : List Action :=
  Sample.loadInit ++ [Sample.execShell, Sample.call 14 2 0, .input none, Sample.load,
    Sample.call 33 0x1000400 16, Sample.call 34 0 0]

/-- The program before and after its exit. -/
def tidyKernel : Kernel :=
  (Transition.runWhere step leavesNothing privateMachine tidyRun).get (by decide +kernel)
def tidyProcess : Process := (tidyKernel.table.get 2).get (by decide +kernel)
def tidyExit : Kernel := (tidyKernel.step (Sample.call 1 7 0)).get (by decide +kernel)

theorem ended_process_leaves_nothing_tidyRun :
    Transition.runWhere step leavesNothing privateMachine tidyRun = some tidyKernel ∧
      tidyKernel.step (Sample.call 1 7 0) = some tidyExit ∧
      (tidyKernel.ipc.openFiles.filterMap id).map OpenFile.pid = [2, 2] ∧
      (tidyExit.table.get 2).map Process.state = some .reaped ∧
      (∀ file, some file ∈ tidyExit.ipc.openFiles → file.pid ≠ 2) ∧
      (∀ pipe, some pipe ∈ tidyExit.ipc.pipes → pipe.ownerPid ≠ 2) ∧
      (∀ event, some event ∈ tidyExit.ipc.events → event.ownerPid ≠ 2) ∧
      (∀ queue, some queue ∈ tidyExit.ipc.messageQueues → queue.ownerPid ≠ 2) ∧
      ∀ slot ∈ tidyExit.table.privatePool.slots,
        tidyProcess.addressSpace.p4Frame = some slot.p4Frame → slot.inUse = false := by
  have performed : Transition.runWhere step leavesNothing privateMachine tidyRun =
      some tidyKernel := (Option.some_get _).symm
  have exited : tidyKernel.step (Sample.call 1 7 0) = some tidyExit := (Option.some_get _).symm
  refine ⟨performed, exited, by decide +kernel, by decide +kernel, ?_⟩
  refine ended_process_leaves_nothing (by decide +kernel)
    (Transition.reachableWhere_of_runWhere performed) (by decide +kernel) exited
    (Option.some_get _).symm (by decide +kernel) ?_
  have isReaped : (tidyExit.table.get 2).all (·.state.terminal) = true := by decide +kernel
  intro later isLater
  rw [isLater] at isReaped
  exact isReaped

/-- The shell opens a pipe and an event, starts a background program and waits. -/
def abandonRun : List Action :=
  Sample.loadInit ++ [Sample.call 33 0x1000400 16, Sample.call 34 0 0,
    Sample.execShellBg, Sample.call 14 2 0, .input none, Sample.load]

def abandonKernel : Kernel :=
  (Transition.run step privateMachine abandonRun).get (by decide +kernel)
def abandonExit : Kernel := (abandonKernel.step (Sample.call 1 7 0)).get (by decide +kernel)

/-- The exit of the program gives up the shell, whose descriptors, pipe, event and
page-table root stay in use. -/
theorem abandonRun_leaks :
    Transition.run step privateMachine abandonRun = some abandonKernel ∧
      abandonKernel.step (Sample.call 1 7 0) = some abandonExit ∧
      (abandonKernel.table.get 1).map Process.state = some .blocked ∧
      (abandonExit.table.get 1).map Process.state = some .reaped ∧
      (abandonExit.ipc.openFiles.filterMap id).map OpenFile.pid = [1, 1] ∧
      (abandonExit.ipc.pipes.filterMap id).map Pipe.ownerPid = [1] ∧
      (abandonExit.ipc.events.filterMap id).map Event.ownerPid = [1] ∧
      (abandonExit.table.get 1).map (·.addressSpace.p4Frame) = some (some 0x1000) ∧
      abandonExit.table.privatePool.slots.map (fun slot => (slot.p4Frame, slot.inUse)) =
        [(0x1000, true), (0x2000, false)] := by
  refine ⟨(Option.some_get _).symm, (Option.some_get _).symm, by decide +kernel,
    by decide +kernel, by decide +kernel, by decide +kernel, by decide +kernel,
    by decide +kernel, by decide +kernel⟩

/-- A process that has ended never lives again, and no other process gets its identifier. -/
def EndsForGood (kernel : Kernel) : Prop :=
  ∀ pid process later late, kernel.table.get pid = some process → process.state.terminal = true →
    Transition.Reachable step kernel later → later.table.get pid = some late →
    late.state.terminal = true

theorem ended_for_good (reachable : Transition.Reachable step (boot images frames) kernel) :
    kernel.EndsForGood := by
  intro pid process later late found ended continues
  have onSheet := ProcessTable.card_of_get found
  have held : later.ledger.Over pid := by
    induction continues with
    | start =>
      refine ⟨(orderly_of_reachable reachable).filed.past onSheet, fun inSheet => ?_⟩
      cases onSheet.symm.trans inSheet
      exact ended
    | next earlier _ stepped held =>
      have orderly := orderly_of_reachable (reachable.trans earlier)
      refine (orderly.keeps stepped).writes.invariant held ?_
      exact fun _ _ _ held _ => held.preserved
  exact fun found => held.ended (ProcessTable.card_of_get found)

theorem ended_for_good_abandonExit : abandonExit.EndsForGood :=
  ended_for_good (.next (Transition.reachable_of_run (Option.some_get _).symm) trivial
    (Option.some_get _).symm)

end Kernel

end Vantara
