import Mathlib.Data.Nat.Bitwise
import Vantara.Ledger.Boot

/-!
# Pending signals

The terminate request is the only signal that can be pending.  It becomes pending
because it is blocked or because a handler is active; it is taken out of the
pending set by a change of the signal mask alone.
-/

namespace Vantara

open Foundation

/-! ## Signal masks -/

theorem sigtermMask_and (mask : UInt64) :
    sigtermMask &&& mask = 0 ∨ sigtermMask &&& mask = sigtermMask := by
  have value : (sigtermMask &&& mask).toNat = 2 ^ 14 &&& mask.toNat := UInt64.toNat_and _ _
  rw [Nat.two_pow_and] at value
  cases bit : mask.toNat.testBit 14 with
  | false =>
    left
    apply UInt64.toNat_inj.mp
    simpa [bit] using value
  | true =>
    right
    apply UInt64.toNat_inj.mp
    rw [value, bit]
    rfl

/-- The bit of the terminate request is in a mask or in its complement. -/
theorem sigtermMask_and_not (blocked : mask &&& sigtermMask ≠ 0) : sigtermMask &&& ~~~mask = 0 := by
  have all : sigtermMask &&& mask = sigtermMask := by
    refine (sigtermMask_and mask).resolve_left fun none => blocked ?_
    rw [UInt64.and_comm]
    exact none
  rw [← all, UInt64.and_assoc, UInt64.and_not_self, UInt64.and_zero]

/-- The terminate request is pending, or nothing is. -/
def OnlySigterm (pending : UInt64) : Prop :=
  pending = 0 ∨ pending = sigtermMask

theorem OnlySigterm.or_sigtermMask (only : OnlySigterm pending) :
    pending ||| sigtermMask = sigtermMask := by
  obtain rfl | rfl := only
  · exact UInt64.zero_or
  · exact UInt64.or_self

theorem lowestSignal_sigterm (only : OnlySigterm pending) (mask : UInt64) :
    (pending &&& mask = 0 ∧ lowestSignal (pending &&& mask) = none) ∨
      pending = sigtermMask ∧ lowestSignal (pending &&& mask) = some sigterm := by
  obtain rfl | rfl := only
  · exact .inl ⟨UInt64.zero_and, by rw [UInt64.zero_and]; rfl⟩
  · obtain outside | inside := sigtermMask_and mask
    · exact .inl ⟨outside, by rw [outside]; rfl⟩
    · exact .inr ⟨rfl, by rw [inside]; decide⟩

/-- What stays pending is blocked. -/
theorem stillPending_spec (only : OnlySigterm pending) (mask : UInt64) :
    OnlySigterm (ProcessTable.stillPending pending mask) ∧
      ProcessTable.stillPending pending mask &&& ~~~mask = 0 := by
  unfold ProcessTable.stillPending
  obtain ⟨outside, none⟩ | ⟨rfl, some⟩ := lowestSignal_sigterm only (~~~mask)
  · rw [none]
    exact ⟨only, outside⟩
  · rw [some]
    have gone : sigtermMask &&& ~~~((signalBit sigterm).getD 0) = 0 := by decide
    dsimp only
    rw [gone]
    exact ⟨.inl rfl, UInt64.zero_and⟩

namespace Ledger

variable {ledger after : Ledger} {frames : List UInt64}

/-- Only the terminate request is ever pending. -/
def Sigterms (ledger : Ledger) : Prop :=
  ∀ pid card, ledger.sheet.card pid = some card → OnlySigterm card.title.pending

theorem Sigterms.preserved (sigterms : ledger.Sigterms) (posts : Posts ledger entry after) :
    after.Sigterms := by
  intro pid now inSheet
  obtain ⟨program, root, main, -, -, rfl⟩ | ⟨card, found, amends⟩ := posts.card inSheet
  · exact .inl rfl
  have only := sigterms pid card found
  cases amends with
  | untouched | finish | giveUp | regroup | lead | credit | dispose | enter | leave => exact only
  | mask blocked => exact (stillPending_spec only blocked).1
  | pend => exact .inr only.or_sigtermMask

theorem AtBoot.sigterms (atBoot : ledger.AtBoot frames) : ledger.Sigterms :=
  fun _ _ inSheet => .inl (atBoot.kernelTask inSheet).2.pending

/-- Outside a handler of its main thread nothing is deliverable to a live process. -/
structure Delivered (ledger : Ledger) : Prop where
  sigterms : ledger.Sigterms
  delivered : ledger.sheet.card pid = some card → card.ended = false →
    card.handlers card.title.main = none → card.title.pending &&& ~~~card.title.blocked = 0

/-- A signal becomes pending only where it is blocked or a handler of the main thread
is active, and the main thread returns from its handler only with nothing to deliver. -/
def Delivers (ledger : Ledger) : Entry → Prop
  | .pend pid => ∀ card, ledger.sheet.card pid = some card →
      card.title.blocked &&& sigtermMask ≠ 0 ∨ card.handlers card.title.main ≠ none
  | .leave pid tid => ∀ card, ledger.sheet.card pid = some card → tid = card.title.main →
      card.title.pending &&& ~~~card.title.blocked = 0
  | _ => True

theorem Delivered.preserved
    (delivered : ledger.Delivered)
    (delivers : ledger.Delivers entry)
    (posts : Posts ledger entry after) :
    after.Delivered := by
  refine ⟨delivered.sigterms.preserved posts, ?_⟩
  intro pid now inSheet live noHandler
  obtain ⟨program, root, main, -, -, rfl⟩ | ⟨card, found, amends⟩ := posts.card inSheet
  · exact UInt64.zero_and
  have old := delivered.delivered found
  cases amends with
  | untouched | regroup | lead | credit | dispose => exact old live noHandler
  | finish | giveUp => cases live
  | mask blocked => exact (stillPending_spec (delivered.sigterms pid card found) blocked).2
  | pend =>
    have blocked := (delivers card found).resolve_right (not_not.mpr noHandler)
    change (card.title.pending ||| sigtermMask) &&& ~~~card.title.blocked = 0
    rw [(delivered.sigterms pid card found).or_sigtermMask]
    exact sigtermMask_and_not blocked
  | enter =>
    refine old live ?_
    simp only [Card.setHandler] at noHandler
    split_ifs at noHandler
    exact noHandler
  | @leave tid =>
    by_cases isMain : tid = card.title.main
    · exact delivers card found isMain
    · refine old live ?_
      simp only [Card.setHandler] at noHandler
      rw [if_neg] at noHandler
      · exact noHandler
      · exact fun same => isMain same.symm

theorem AtBoot.delivered (atBoot : ledger.AtBoot frames) : ledger.Delivered := by
  refine ⟨atBoot.sigterms, fun inSheet _ _ => ?_⟩
  rw [(atBoot.kernelTask inSheet).2.pending]
  exact UInt64.zero_and

end Ledger

namespace Kernel

variable {kernel after : Kernel} {images : List UserlandImage} {frames : List UInt64}

/-- A terminate request that a handler should take finds the main thread of its target
descheduled or in its handler, unless it is blocked; and a main thread returns from
its handler only when nothing has become deliverable meanwhile. -/
def deliversDeferred (kernel : Kernel) (action : Action) : Bool :=
  match action with
  | .syscall frame _ =>
    match Syscall.decode frame.number with
    | some .kill =>
      ((Word.toUInt32? frame.arg0).bind kernel.table.get).all fun target =>
        decide (target.blockedSignals &&& sigtermMask ≠ 0 ∨
          target.sigtermDisposition = sigIgn ∨ target.sigtermDisposition = sigDfl ∨
          target.mainThread.signalReturnContext.isSome = true ∨
          target.mainThread.resumeContext.isSome = true)
    | some .sigreturn =>
      kernel.currentProcess.all fun process =>
        decide (kernel.currentUserThread = some process.mainTid →
          process.pendingSignals &&& ~~~process.blockedSignals = 0)
    | _ => true
  | _ => true

theorem delivers_of_caused {ledger : Ledger}
    (permitted : kernel.deliversDeferred action = true)
    (caused : kernel.Causes action ledger entry) :
    ledger.Delivers entry := by
  cases entry with
  | pend =>
    obtain ⟨frame, env, call, rfl, decoded, rfl, rfl, isTarget, target, found, deferred⟩ |
      absurdity := caused
    · intro card inSheet
      cases (ProcessTable.card_of_get found).symm.trans inSheet
      have handler : target.card.handlers target.card.title.main =
          target.mainThread.signalReturnContext :=
        congrArg (Option.bind · Thread.signalReturnContext) target.get_mainTid
      rw [handler]
      simp only [deliversDeferred, decoded, isTarget, Option.bind_some, found, Option.all_some,
        decide_eq_true_eq] at permitted
      obtain blocked | ⟨notIgnored, notDefault, refused⟩ := deferred
      · exact .inl blocked
      obtain blocked | ignored | default | active | saved := permitted
      · exact .inl blocked
      · exact absurd ignored notIgnored
      · exact absurd default notDefault
      · exact .inr (Option.isSome_iff_ne_none.mp active)
      · obtain active | unsaved := refused
        · exact .inr (Option.isSome_iff_ne_none.mp active)
        · simp [unsaved] at saved
    · exact absurdity.elim
  | leave =>
    obtain ⟨frame, env, call, rfl, decoded, rfl, rfl, isCaller, isThread⟩ | absurdity := caused
    · intro card inSheet isMain
      obtain ⟨process, found, rfl⟩ := Option.map_eq_some_iff.mp inSheet
      simp only [deliversDeferred, decoded, currentProcess, isCaller, Option.bind_some, found,
        Option.all_some, decide_eq_true_eq] at permitted
      exact permitted (isThread.trans (congrArg some isMain))
    · exact absurdity.elim
  | _ => trivial

/-- Whenever the main thread of a live process is outside its handler, and so in
particular when it is dispatched there, no pending signal is deliverable, in every
run in which deferred signals are taken care of. -/
theorem deferred_signals_delivered
    (reachable : Transition.ReachableWhere step
      (fun kernel action => kernel.deliversDeferred action = true) (boot images frames) kernel) :
    ∀ process ∈ kernel.table.values, process.state.terminal = false →
      process.mainThread.signalReturnContext = none →
      process.pendingSignals &&& ~~~process.blockedSignals = 0 := by
  have delivered : kernel.ledger.Delivered := by
    refine ledger_invariant (atBoot_boot images frames).delivered ?_ reachable
    intro before action _ permitted _ ledger entry after _ delivered caused posts
    exact delivered.preserved (delivers_of_caused permitted caused) posts
  intro process listed live noHandler
  refine delivered.delivered
    (ProcessTable.card_of_get (KeyedStore.get_of_mem listed)) live ?_
  exact (congrArg (Option.bind · Thread.signalReturnContext) process.get_mainTid).trans noHandler

/-- The shell installs a handler, is asked to terminate, and returns from the handler. -/
def handlerRun : List Action :=
  Sample.askShell ++ [Sample.call 17 0 0, Sample.call 45 0 0]

def handlerKernel : Kernel :=
  (Transition.runWhere step deliversDeferred Sample.machine handlerRun).get (by decide +kernel)

theorem deferred_signals_delivered_handlerRun :
    Transition.runWhere step deliversDeferred Sample.machine handlerRun = some handlerKernel ∧
      (handlerKernel.table.get 2).map (fun process => process.sigtermDisposition) =
        some 0x1000300 ∧
      ∀ process ∈ handlerKernel.table.values, process.state.terminal = false →
        process.mainThread.signalReturnContext = none →
        process.pendingSignals &&& ~~~process.blockedSignals = 0 := by
  have performed : Transition.runWhere step deliversDeferred Sample.machine handlerRun =
      some handlerKernel := (Option.some_get _).symm
  exact ⟨performed, by decide +kernel,
    deferred_signals_delivered (Transition.reachableWhere_of_runWhere performed)⟩

/-- The same, but the request comes twice; the second one finds the handler active. -/
def twiceAskedRun : List Action :=
  Sample.askShell ++
    [Sample.call 16 2 15, Sample.call 17 0 0, Sample.call 45 0 0, Sample.call 17 0 0]

/-- The main thread of the shell runs outside its handler with a request pending
that nothing blocks. -/
theorem twiceAskedRun_undelivered :
    (Transition.run step Sample.machine twiceAskedRun).map
        (fun kernel => (kernel.currentUserThread, kernel.currentProcess.map fun process =>
          (process.mainTid, process.mainThread.signalReturnContext.isNone,
            process.pendingSignals, process.blockedSignals))) =
      some (some 5, some (5, true, sigtermMask, 0)) := by
  decide +kernel

end Kernel

end Vantara
