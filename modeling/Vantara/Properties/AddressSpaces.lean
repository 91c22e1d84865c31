import Vantara.Ledger.Boot

/-!
# Private address spaces

The pool hands a page-table root to one process at a time, and takes it back only
when that process ends.
-/

namespace Vantara

open Foundation

namespace Ledger

variable {ledger after : Ledger} {frames : List UInt64}

/-- Live processes have roots of their own, and these are in use. -/
structure Exclusive (ledger : Ledger) : Prop where
  distinct : ledger.sheet.distinct
  used : ledger.sheet.card pid = some card → card.ended = false → card.title.root = some root →
    root ∈ ledger.sheet.used
  alone : ledger.sheet.card pid = some card → card.ended = false → card.title.root = some root →
    ledger.sheet.card other = some otherCard → otherCard.ended = false →
    otherCard.title.root = some root → other = pid

section

variable (exclusive : ledger.Exclusive)
include exclusive

/-- Live cards keep their roots, and these stay in use. -/
theorem Exclusive.of_cards
    (distinct : after.sheet.distinct = ledger.sheet.distinct)
    (cards : ∀ {pid card root}, after.sheet.card pid = some card → card.ended = false →
      card.title.root = some root →
      root ∈ after.sheet.used ∧ ∃ old, ledger.sheet.card pid = some old ∧ old.ended = false ∧
        old.title.root = some root) :
    after.Exclusive where
  distinct := distinct ▸ exclusive.distinct
  used inSheet live isRoot := (cards inSheet live isRoot).1
  alone inSheet live isRoot inSheetOther liveOther isRootOther := by
    obtain ⟨-, old, found, wasLive, wasRoot⟩ := cards inSheet live isRoot
    obtain ⟨-, oldOther, hasOther, wasLiveOther, wasRootOther⟩ :=
      cards inSheetOther liveOther isRootOther
    exact exclusive.alone found wasLive wasRoot hasOther wasLiveOther wasRootOther

/-- One card changes, but neither in its root nor back to life. -/
theorem Exclusive.setCard {changed : Card}
    (found : ledger.sheet.card pid = some card)
    (root : changed.title.root = card.title.root)
    (live : changed.ended = false → card.ended = false) :
    (ledger.setCard pid changed).Exclusive := by
  refine exclusive.of_cards rfl fun {other otherCard own} inSheet isLive isRoot => ?_
  simp only [setCard_sheet, Sheet.setCard_card] at inSheet
  split_ifs at inSheet with same
  · cases inSheet
    subst same
    rw [root] at isRoot
    exact ⟨exclusive.used found (live isLive) isRoot, card, found, live isLive, isRoot⟩
  · exact ⟨exclusive.used inSheet isLive isRoot, otherCard, inSheet, isLive, isRoot⟩

/-- A process starts with a root that was free. -/
theorem Exclusive.launch
    (free : ledger.sheet.distinct → ∀ own, root = some own → own ∉ ledger.sheet.used)
    (isRoot : launched.title.root = root) :
    Exclusive
      { ledger with
        sheet := (takeRoot ledger.sheet root).setCard pid launched
        queue := rest } := by
  have lookup : ∀ {other card}, ((takeRoot ledger.sheet root).setCard pid launched).card other =
      some card → other = pid ∧ card = launched ∨ ledger.sheet.card other = some card := by
    intro other card inSheet
    simp only [Sheet.setCard_card, takeRoot_card] at inSheet
    split_ifs at inSheet with same
    · cases inSheet
      exact .inl ⟨same, rfl⟩
    · exact .inr inSheet
  have fresh : ∀ {other card own}, ledger.sheet.card other = some card → card.ended = false →
      card.title.root = some own → launched.title.root ≠ some own := by
    intro other card own found live isOwn same
    exact free exclusive.distinct own (isRoot.symm.trans same)
      (exclusive.used found live isOwn)
  refine ⟨exclusive.distinct, ?_, ?_⟩
  · intro other card own inSheet live isOwn
    obtain ⟨-, rfl⟩ | found := lookup inSheet
    · exact .inl (isOwn.symm.trans isRoot)
    · exact .inr (exclusive.used found live isOwn)
  · intro one card own other otherCard inSheet live isOwn inSheetOther liveOther isOwnOther
    obtain ⟨rfl, rfl⟩ | found := lookup inSheet <;>
      obtain ⟨rfl, rfl⟩ | hasOther := lookup inSheetOther
    · rfl
    · exact absurd isOwn (fresh hasOther liveOther isOwnOther)
    · exact absurd isOwnOther (fresh found live isOwn)
    · exact exclusive.alone found live isOwn hasOther liveOther isOwnOther

/-- A process ends and its root is free again. -/
theorem Exclusive.finish {sheet : Sheet} {ipc : Ipc}
    (found : ledger.sheet.card pid = some card)
    (live : card.ended = false)
    (released : (ledger.sheet.setCard pid card.close).Releases card.title.root sheet) :
    Exclusive { ledger with sheet := sheet, ipc := ipc } := by
  have cards : sheet.card = (ledger.sheet.setCard pid card.close).card :=
    (congrArg Sheet.card released.rest).trans rfl
  refine exclusive.of_cards ((congrArg Sheet.distinct released.rest).trans rfl) ?_
  intro other otherCard own inSheet isLive isOwn
  simp only [cards, Sheet.setCard_card] at inSheet
  split_ifs at inSheet with same
  · cases inSheet
    cases isLive
  · refine ⟨?_, otherCard, inSheet, isLive, isOwn⟩
    refine (released.others own fun isReleased => same ?_).mpr
      (exclusive.used inSheet isLive isOwn)
    exact exclusive.alone found live isReleased.symm inSheet isLive isOwn

/-- Every entry keeps the address spaces apart. -/
theorem Exclusive.preserved (posts : Posts ledger entry after) : after.Exclusive := by
  cases posts with
  | launch _ _ free => exact exclusive.launch free rfl
  | draw | drop | own =>
    exact ⟨exclusive.distinct, exclusive.used, exclusive.alone⟩
  | finish found lives released => exact exclusive.finish found lives.live released
  | giveUp found => exact exclusive.setCard found rfl nofun
  | forget forgets =>
    have used := congrArg Sheet.used forgets.rest
    refine exclusive.of_cards ((congrArg Sheet.distinct forgets.rest).trans rfl) ?_
    intro pid card root inSheet live isRoot
    rcases forgets.kept pid with same | ⟨gone, -⟩
    · have found := same.symm.trans inSheet
      exact ⟨used ▸ exclusive.used found live isRoot, card, found, live, isRoot⟩
    · cases gone.symm.trans inSheet
  | regroup _ found | lead found | credit _ found | dispose _ found | mask _ found | pend found
  | enter _ found | leave found =>
    exact exclusive.setCard found rfl id

end

theorem AtBoot.exclusive (atBoot : ledger.AtBoot frames) (distinct : (frames.take 8).Nodup) :
    ledger.Exclusive where
  distinct := atBoot.roots distinct
  used inSheet _ isRoot := by
    rw [(atBoot.kernelTask inSheet).2.root] at isRoot
    cases isRoot
  alone inSheet _ isRoot _ _ _ := by
    rw [(atBoot.kernelTask inSheet).2.root] at isRoot
    cases isRoot

end Ledger

namespace Kernel

variable {kernel : Kernel} {images : List UserlandImage} {frames : List UInt64}

/-- If the roots in the pool are distinct, two live processes never share one, and
the root of a live process is in use. -/
theorem address_spaces_exclusive
    (distinct : (bootPool frames).roots.Nodup)
    (reachable : Transition.Reachable step (boot images frames) kernel) :
    (∀ first ∈ kernel.table.values, ∀ second ∈ kernel.table.values,
      first.state.terminal = false → second.state.terminal = false →
      ∀ root, first.addressSpace.p4Frame = some root →
        second.addressSpace.p4Frame = some root → first = second) ∧
    ∀ process ∈ kernel.table.values, process.state.terminal = false →
      ∀ root, process.addressSpace.p4Frame = some root →
        ∃ slot ∈ kernel.table.privatePool.slots, slot.p4Frame = root ∧ slot.inUse = true := by
  have exclusive : kernel.ledger.Exclusive := by
    have frameDistinct : (frames.take 8).Nodup := by
      simpa [PrivateP4Pool.roots, bootPool, Function.comp_def] using distinct
    refine ledger_invariant ((atBoot_boot images frames).exclusive frameDistinct) ?_ reachable
    intro _ _ _ _ _ ledger entry after _ exclusive _ posts
    exact exclusive.preserved posts
  have card : ∀ process ∈ kernel.table.values,
      kernel.ledger.sheet.card process.pid = some process.card := fun process listed =>
    ProcessTable.card_of_get (KeyedStore.get_of_mem listed)
  constructor
  · intro first firstListed second secondListed firstLive secondLive root firstRoot secondRoot
    have samePid := exclusive.alone (card second secondListed) secondLive secondRoot
      (card first firstListed) firstLive firstRoot
    exact kernel.table.processes.eq_of_mem_of_key_eq firstListed secondListed samePid
  · intro process listed live root isRoot
    exact exclusive.used (card process listed) live isRoot

/-- A machine with two private page tables, on which a shell has been started. -/
def privateMachine : Kernel := boot [⟨"init"⟩, ⟨"sh"⟩] [0x1000, 0x2000]

def privateRun : List Action := Sample.loadShell

def privateKernel : Kernel :=
  (Transition.run step privateMachine privateRun).get (by decide +kernel)

theorem address_spaces_exclusive_privateRun :
    Transition.run step privateMachine privateRun = some privateKernel ∧
      (privateKernel.table.values.map fun process => process.addressSpace.p4Frame) =
        [none, some 0x1000, some 0x2000] ∧
      (∀ first ∈ privateKernel.table.values, ∀ second ∈ privateKernel.table.values,
        first.state.terminal = false → second.state.terminal = false →
        ∀ root, first.addressSpace.p4Frame = some root →
          second.addressSpace.p4Frame = some root → first = second) ∧
      ∀ process ∈ privateKernel.table.values, process.state.terminal = false →
        ∀ root, process.addressSpace.p4Frame = some root →
          ∃ slot ∈ privateKernel.table.privatePool.slots,
            slot.p4Frame = root ∧ slot.inUse = true := by
  have performed : Transition.run step privateMachine privateRun = some privateKernel :=
    (Option.some_get _).symm
  exact ⟨performed, by decide +kernel,
    address_spaces_exclusive (by decide +kernel) (Transition.reachable_of_run performed)⟩

end Kernel

end Vantara
