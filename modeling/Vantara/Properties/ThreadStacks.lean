import Vantara.Ledger.Boot
import Vantara.User.Layout

/-!
# The stacks of threads

Threads get their stacks from two places: a program supplies part of its own
program area, or the kernel reserves a slot of the private address space.  Slots
are marked in the pool of page-table roots, and a slot is returned when its
thread is reaped or, with the root, when its process ends.
-/

namespace Vantara

open Foundation
open ThreadStore (get_modify mem_values_iff)

/-! ## Ranges and slots -/

/-- Two ranges of addresses have nothing in common. -/
def Apart (left right : UInt64 × UInt64) : Prop :=
  left.2 ≤ right.1 ∨ right.2 ≤ left.1

theorem Apart.symm (apart : Apart left right) : Apart right left :=
  Or.symm apart

/-- The slots are nonempty, lie in the region of stacks and have nothing in common. -/
theorem stackRangeForSlot_spec (index : Fin 8) :
    userStackRegionStart ≤ (stackRangeForSlot index).1 ∧
      (stackRangeForSlot index).1 < (stackRangeForSlot index).2 ∧
      stackSlotIndex (stackRangeForSlot index).2 = some index.val ∧
      ∀ other : Fin 8, index ≠ other →
        Apart (stackRangeForSlot index) (stackRangeForSlot other) := by
  unfold Apart
  revert index
  decide +kernel

/-- The addresses of a thread's stack. -/
def Thread.stackRange (thread : Thread) : Option (UInt64 × UInt64) :=
  match thread.userStackStart, thread.userStackTop with
  | some start, some top => some (start, top)
  | _, _ => none

/-- The threads have the same stack. -/
structure Thread.SameStack (thread old : Thread) : Prop where
  start : thread.userStackStart = old.userStackStart
  top : thread.userStackTop = old.userStackTop
  managed : thread.kernelManagedStack = old.kernelManagedStack

theorem Thread.SameStack.range (same : Thread.SameStack thread old) :
    thread.stackRange = old.stackRange := by
  unfold stackRange
  rw [same.start, same.top]

theorem Thread.SameStack.trans (first : Thread.SameStack thread middle)
    (second : Thread.SameStack middle old) :
    Thread.SameStack thread old :=
  ⟨first.start.trans second.start, first.top.trans second.top,
    first.managed.trans second.managed⟩

/-- A range below the region of stacks. -/
def InProgramArea (range : UInt64 × UInt64) : Prop :=
  range.1 < range.2 ∧ range.2 ≤ userStackRegionStart

/-- A stack in the program area, or a slot that is marked. -/
def Placed (marks : List Bool) (managed : Bool) (range : UInt64 × UInt64) : Prop :=
  managed = false ∧ InProgramArea range ∨
    ∃ index : Fin 8, range = stackRangeForSlot index ∧ marks[index.val]? = some true

/-- A stack has nothing in common with a slot that is not marked. -/
theorem Placed.apart_free (placed : Placed marks managed range) (index : Fin 8)
    (free : marks[index.val]? ≠ some true) :
    Apart range (stackRangeForSlot index) := by
  rcases placed with ⟨-, inArea⟩ | ⟨own, rfl, marked⟩
  · exact .inl (UInt64.le_trans inArea.2 (stackRangeForSlot_spec index).1)
  · refine (stackRangeForSlot_spec own).2.2.2 index ?_
    rintro rfl
    exact free marked

/-- Marking a slot leaves every stack placed. -/
theorem Placed.mark (placed : Placed marks managed range) (index : Nat) :
    Placed (marks.set index true) managed range := by
  rcases placed with inArea | ⟨own, isSlot, marked⟩
  · exact .inl inArea
  · refine .inr ⟨own, isSlot, ?_⟩
    rw [List.getElem?_set]
    split_ifs with same inside
    · rfl
    · have := (List.getElem?_eq_some_iff.mp marked).1
      omega
    · exact marked

/-- Returning a slot leaves the stacks placed that have nothing in common with it. -/
theorem Placed.unmark (placed : Placed marks managed range) (index : Fin 8)
    (apart : Apart range (stackRangeForSlot index)) :
    Placed (marks.set index.val false) managed range := by
  rcases placed with inArea | ⟨own, rfl, marked⟩
  · exact .inl inArea
  · refine .inr ⟨own, rfl, ?_⟩
    have differ : index.val ≠ own.val := by
      intro same
      obtain rfl := Fin.ext same
      have nonempty := (stackRangeForSlot_spec index).2.1
      rcases apart with below | above
      · exact absurd nonempty (UInt64.not_lt.mpr below)
      · exact absurd nonempty (UInt64.not_lt.mpr above)
    rwa [List.getElem?_set_ne differ]

/-! ## The stacks of one process -/

theorem Thread.stackRange_eq_none {thread : Thread} (gone : thread.userStackTop = none) :
    thread.stackRange = none := by
  unfold stackRange
  rw [gone]
  cases thread.userStackStart <;> rfl

namespace Process

variable {process changed : Process} {marks : List Bool}

/-- The stacks of the threads are placed and have nothing in common.  This holds of
reaped threads as well: those that keep their stack never get another. -/
structure Stacked (process : Process) (marks : List Bool) : Prop where
  length : marks.length = 8
  area : process.addressSpace.layout.programEnd ≤ userStackRegionStart
  placed : ∀ tid thread range, process.threads.get tid = some thread →
    thread.stackRange = some range → Placed marks thread.kernelManagedStack range
  whole : ∀ tid thread top, process.threads.get tid = some thread →
    thread.userStackTop = some top → ∃ start, thread.userStackStart = some start
  apart : ∀ left right first second leftRange rightRange, left ≠ right →
    process.threads.get left = some first → process.threads.get right = some second →
    first.stackRange = some leftRange → second.stackRange = some rightRange →
      Apart leftRange rightRange

/-- Threads keep their stacks or give them up. -/
structure KeepsStacks (process changed : Process) : Prop where
  space : changed.addressSpace = process.addressSpace
  threads : ∀ tid thread, changed.threads.get tid = some thread →
    thread.userStackTop = none ∨
      ∃ old, process.threads.get tid = some old ∧ thread.SameStack old

/-- Threads keep their owner, and their stack unless the kernel reserved it. -/
structure KeepsThreads (process changed : Process) : Prop where
  pid : changed.pid = process.pid
  space : changed.addressSpace = process.addressSpace
  mainTid : changed.threads.mainTid = process.threads.mainTid
  threads : ∀ tid thread, changed.threads.get tid = some thread →
    ∃ old, process.threads.get tid = some old ∧ thread.processId = old.processId ∧
      (thread.SameStack old ∨ old.kernelManagedStack = true ∧ thread.userStackTop = none)

theorem KeepsThreads.stacks (keeps : KeepsThreads process changed) :
    KeepsStacks process changed := by
  refine ⟨keeps.space, fun tid thread found => ?_⟩
  obtain ⟨old, foundOld, -, same | ⟨-, gone⟩⟩ := keeps.threads tid thread found
  · exact .inr ⟨old, foundOld, same⟩
  · exact .inl gone

theorem KeepsThreads.trans (first : KeepsThreads process middle)
    (second : KeepsThreads middle changed) :
    KeepsThreads process changed := by
  refine ⟨second.pid.trans first.pid, second.space.trans first.space,
    second.mainTid.trans first.mainTid, fun tid thread found => ?_⟩
  obtain ⟨between, foundBetween, owner, stack⟩ := second.threads tid thread found
  obtain ⟨old, foundOld, oldOwner, oldStack⟩ := first.threads tid between foundBetween
  refine ⟨old, foundOld, owner.trans oldOwner, ?_⟩
  rcases oldStack with sameOld | ⟨managedOld, gone⟩
  · rcases stack with same | ⟨managed, gone⟩
    · exact .inl (same.trans sameOld)
    · exact .inr ⟨sameOld.managed ▸ managed, gone⟩
  · rcases stack with same | ⟨-, goneNow⟩
    · exact .inr ⟨managedOld, same.top.trans gone⟩
    · exact .inr ⟨managedOld, goneNow⟩

theorem KeepsThreads.refl : KeepsThreads process process :=
  ⟨rfl, rfl, rfl, fun _ thread found => ⟨thread, found, rfl, .inl ⟨rfl, rfl, rfl⟩⟩⟩

theorem KeepsThreads.refresh (keeps : KeepsThreads process changed) :
    KeepsThreads process changed.refreshStateFromThreads :=
  keeps.trans ⟨rfl, rfl, rfl, KeepsThreads.refl.threads⟩

/-- A change of single threads that leaves their owners and stacks. -/
theorem KeepsThreads.of_change
    (change : Tid → Thread → Thread)
    (pid : changed.pid = process.pid)
    (space : changed.addressSpace = process.addressSpace)
    (mainTid : changed.threads.mainTid = process.threads.mainTid)
    (threads : ∀ tid, changed.threads.get tid = (process.threads.get tid).map (change tid))
    (keeps : ∀ tid thread,
      (change tid thread).processId = thread.processId ∧ (change tid thread).SameStack thread) :
    KeepsThreads process changed := by
  refine ⟨pid, space, mainTid, fun tid thread found => ?_⟩
  rw [threads] at found
  obtain ⟨old, foundOld, rfl⟩ := Option.map_eq_some_iff.mp found
  exact ⟨old, foundOld, (keeps tid old).1, .inl (keeps tid old).2⟩

theorem KeepsThreads.modifyThread (process : Process) (tid : Tid)
    {change : Thread → Thread}
    {keepsTid : ∀ thread, (change thread).tid = thread.tid}
    (keeps : ∀ thread,
      (change thread).processId = thread.processId ∧ (change thread).SameStack thread) :
    KeepsThreads process (process.modifyThread tid change keepsTid) := by
  refine .of_change (fun other thread => if other = tid then change thread else thread) rfl rfl
    rfl (fun other => ?_) fun other thread => ?_
  · rw [modifyThread_threads, get_modify]
    split_ifs <;> simp
  · split_ifs
    · exact keeps thread
    · exact ⟨rfl, rfl, rfl, rfl⟩

/-- What a thread hands back that gives up its stack. -/
theorem takeManagedStackRelease_cases (process : Process) (tid : Tid) :
    process.takeManagedStackRelease tid = (none, process) ∨
      ∃ root thread top changed,
        process.takeManagedStackRelease tid = (some (root, top), changed) ∧
        process.addressSpace.p4Frame = some root ∧ process.threads.get tid = some thread ∧
        thread.kernelManagedStack = true ∧ thread.userStackTop = some top ∧
        KeepsThreads process changed ∧
        (∀ kept, changed.threads.get tid = some kept → kept.userStackTop = none) ∧
        ∀ other, other ≠ tid → changed.threads.get other = process.threads.get other := by
  unfold takeManagedStackRelease
  split
  · next root thread isRoot found =>
      split_ifs with managed
      · split
        · next top isTop =>
            refine .inr ⟨root, thread, top, _, rfl, isRoot, found, managed, isTop,
              ⟨rfl, rfl, rfl, fun other kept foundKept => ?_⟩, fun kept foundKept => ?_,
              fun other differ => ?_⟩
            · rw [modifyThread_threads, get_modify] at foundKept
              split_ifs at foundKept with same
              · subst same
                rw [found] at foundKept
                cases foundKept
                exact ⟨thread, found, rfl, .inr ⟨managed, rfl⟩⟩
              · exact ⟨kept, foundKept, rfl, .inl ⟨rfl, rfl, rfl⟩⟩
            · rw [modifyThread_threads, get_modify, if_pos rfl, found] at foundKept
              cases foundKept
              rfl
            · rw [modifyThread_threads, get_modify, if_neg differ]
        · exact .inl rfl
      · exact .inl rfl
  · exact .inl rfl

theorem KeepsThreads.takeManagedStackRelease (process : Process) (tid : Tid) :
    KeepsThreads process (process.takeManagedStackRelease tid).2 := by
  rcases process.takeManagedStackRelease_cases tid with
    same | ⟨_, _, _, _, same, -, -, -, -, keeps, -⟩
  · rw [same]
    exact .refl
  · rw [same]
    exact keeps

/-- The stack a thread has now is one it had before. -/
theorem KeepsStacks.had (keeps : KeepsStacks process changed)
    (found : changed.threads.get tid = some thread)
    (isRange : thread.stackRange = some range) :
    ∃ old, process.threads.get tid = some old ∧ old.stackRange = some range ∧
      thread.kernelManagedStack = old.kernelManagedStack := by
  rcases keeps.threads tid thread found with gone | ⟨old, foundOld, same⟩
  · rw [Thread.stackRange_eq_none gone] at isRange
    cases isRange
  · exact ⟨old, foundOld, same.range ▸ isRange, same.managed⟩

section

variable (stacked : process.Stacked marks)
include stacked

theorem Stacked.keep (keeps : KeepsStacks process changed) :
    changed.Stacked marks where
  length := stacked.length
  area := keeps.space ▸ stacked.area
  placed tid thread range found isRange := by
    obtain ⟨old, foundOld, oldRange, managed⟩ := keeps.had found isRange
    rw [managed]
    exact stacked.placed tid old range foundOld oldRange
  whole tid thread top found isTop := by
    rcases keeps.threads tid thread found with gone | ⟨old, foundOld, same⟩
    · rw [gone] at isTop
      cases isTop
    · rw [same.start]
      exact stacked.whole tid old top foundOld (same.top ▸ isTop)
  apart left right first second leftRange rightRange differ foundLeft foundRight isLeft
      isRight := by
    obtain ⟨oldLeft, foundOldLeft, wasLeft, -⟩ := keeps.had foundLeft isLeft
    obtain ⟨oldRight, foundOldRight, wasRight, -⟩ := keeps.had foundRight isRight
    exact stacked.apart left right oldLeft oldRight leftRange rightRange differ foundOldLeft
      foundOldRight wasLeft wasRight

theorem Stacked.mark (index : Nat) :
    process.Stacked (marks.set index true) where
  length := by rw [List.length_set, stacked.length]
  area := stacked.area
  placed tid thread range found isRange :=
    (stacked.placed tid thread range found isRange).mark index
  whole := stacked.whole
  apart := stacked.apart

/-- A slot that no thread has left is returned. -/
theorem Stacked.unmark (index : Fin 8)
    (unused : ∀ tid thread range, process.threads.get tid = some thread →
      thread.stackRange = some range → Apart range (stackRangeForSlot index)) :
    process.Stacked (marks.set index.val false) where
  length := by rw [List.length_set, stacked.length]
  area := stacked.area
  placed tid thread range found isRange :=
    (stacked.placed tid thread range found isRange).unmark index
      (unused tid thread range found isRange)
  whole := stacked.whole
  apart := stacked.apart

/-- A thread is added on a stack of its own. -/
theorem Stacked.insert
    (space : changed.addressSpace = process.addressSpace)
    (threads : ∀ tid, changed.threads.get tid =
      if tid = thread.tid then some thread else process.threads.get tid)
    (isRange : thread.stackRange = some range)
    (placed : Placed marks thread.kernelManagedStack range)
    (apart : ∀ tid other otherRange, process.threads.get tid = some other →
      other.stackRange = some otherRange → Apart otherRange range) :
    changed.Stacked marks where
  length := stacked.length
  area := space ▸ stacked.area
  placed tid other otherRange found isOther := by
    rw [threads] at found
    split_ifs at found
    · cases found
      rw [isRange] at isOther
      cases isOther
      exact placed
    · exact stacked.placed tid other otherRange found isOther
  whole tid other top found isTop := by
    rw [threads] at found
    split_ifs at found
    · cases found
      unfold Thread.stackRange at isRange
      split at isRange
      · next start _ isStart _ => exact ⟨start, isStart⟩
      · cases isRange
    · exact stacked.whole tid other top found isTop
  apart left right first second leftRange rightRange differ foundLeft foundRight isLeft
      isRight := by
    rw [threads] at foundLeft foundRight
    split_ifs at foundLeft foundRight with isNewLeft isNewRight isNewRight
    · exact absurd (isNewLeft.trans isNewRight.symm) differ
    · cases foundLeft
      rw [isRange] at isLeft
      cases isLeft
      exact (apart right second rightRange foundRight isRight).symm
    · cases foundRight
      rw [isRange] at isRight
      cases isRight
      exact apart left first leftRange foundLeft isLeft
    · exact stacked.apart left right first second leftRange rightRange differ foundLeft
        foundRight isLeft isRight

/-- A thread gives up its stack; a reserved slot is to be returned. -/
theorem Stacked.release (tid : Tid) :
    (process.takeManagedStackRelease tid).1 = none ∧
        (process.takeManagedStackRelease tid).2.Stacked marks ∨
      ∃ root top index, (process.takeManagedStackRelease tid).1 = some (root, top) ∧
        stackSlotIndex top = some index ∧
        (process.takeManagedStackRelease tid).2.Stacked (marks.set index false) := by
  rcases process.takeManagedStackRelease_cases tid with
    same | ⟨root, thread, top, changed, same, -, found, managed, isTop, keeps, gone, others⟩
  · rw [same]
    exact .inl ⟨rfl, stacked⟩
  obtain ⟨start, isStart⟩ := stacked.whole tid thread top found isTop
  have isRange : thread.stackRange = some (start, top) := by
    simp [Thread.stackRange, isStart, isTop]
  rcases stacked.placed tid thread _ found isRange with ⟨notManaged, -⟩ | ⟨index, isSlot, -⟩
  · rw [managed] at notManaged
    cases notManaged
  rw [same]
  refine .inr ⟨root, top, index, rfl, ?_, ?_⟩
  · rw [← (stackRangeForSlot_spec index).2.2.1, ← isSlot]
  · refine Stacked.unmark (stacked.keep keeps.stacks) index fun other kept range isKept
      hasRange => ?_
    by_cases isOwn : other = tid
    · subst isOwn
      rw [Thread.stackRange_eq_none (gone kept isKept)] at hasRange
      cases hasRange
    · rw [others other isOwn] at isKept
      rw [← isSlot]
      exact stacked.apart other tid kept thread range _ isOwn isKept found hasRange isRange

end

/-- What is given up belongs to the root of the process. -/
theorem root_of_takeManagedStackRelease
    (given : (process.takeManagedStackRelease tid).1 = some (root, top)) :
    process.addressSpace.p4Frame = some root := by
  rcases process.takeManagedStackRelease_cases tid with same | ⟨_, _, _, _, same, isRoot, -⟩
  · rw [same] at given
    cases given
  · rw [same] at given
    cases given
    exact isRoot

/-- A process changes and hands back a reserved stack, if one of its threads gave one
up. -/
inductive Settles (process changed : Process) : Option (UInt64 × UInt64) → Prop
  | keeps
      (keeps : KeepsThreads process changed) :
      Settles process changed none
  | releases (tid : Tid)
      (before : KeepsThreads process middle)
      (later : KeepsThreads (middle.takeManagedStackRelease tid).2 changed) :
      Settles process changed (middle.takeManagedStackRelease tid).1

theorem Settles.keepsThreads (settles : Settles process changed slot) :
    KeepsThreads process changed := by
  cases settles with
  | keeps keeps => exact keeps
  | releases tid before later =>
    exact before.trans ((KeepsThreads.takeManagedStackRelease _ tid).trans later)

theorem Settles.p4Frame_eq (settles : Settles process changed slot)
    (given : slot = some (root, top)) :
    process.addressSpace.p4Frame = some root := by
  cases settles with
  | keeps => cases given
  | releases _ before => exact before.space ▸ root_of_takeManagedStackRelease given

theorem Stacked.settles (stacked : process.Stacked marks) (settles : Settles process changed slot) :
    slot = none ∧ changed.Stacked marks ∨
      ∃ root top index, slot = some (root, top) ∧ stackSlotIndex top = some index ∧
        changed.Stacked (marks.set index false) := by
  cases settles with
  | keeps keeps => exact .inl ⟨rfl, stacked.keep keeps.stacks⟩
  | releases tid before later =>
    rcases (stacked.keep before.stacks).release tid with
      ⟨isNone, still⟩ | ⟨root, top, index, isSlot, isIndex, still⟩
    · exact .inl ⟨isNone, still.keep later.stacks⟩
    · exact .inr ⟨root, top, index, isSlot, isIndex, still.keep later.stacks⟩

end Process

/-! ## The marks of a root -/

namespace PrivateP4Pool

variable {pool : PrivateP4Pool} {root other : UInt64}

/-- The slot of a root in use. -/
def isLive (root : UInt64) (slot : PreparedP4Slot) : Bool :=
  decide (slot.p4Frame = root) && slot.inUse

/-- Which stack slots of a root in use are marked. -/
def marksOf (pool : PrivateP4Pool) (root : UInt64) : Option (List Bool) :=
  (pool.slots.find? (isLive root)).map PreparedP4Slot.stackInUse

/-- Change the marks of a root in use. -/
def updateMarks (pool : PrivateP4Pool) (root : UInt64) (update : List Bool → List Bool) :
    PrivateP4Pool :=
  ⟨modifyFirst (isLive root) (fun slot => { slot with stackInUse := update slot.stackInUse })
    pool.slots⟩

/-- A change of the slot of a root leaves the marks of the others. -/
theorem marksOf_modifyFirst
    (frame : ∀ slot, (change slot).p4Frame = slot.p4Frame)
    (first : ∀ slot, entries.find? test = some slot → slot.p4Frame = root)
    (differ : other ≠ root) :
    marksOf ⟨modifyFirst test change entries⟩ other = marksOf ⟨entries⟩ other := by
  unfold marksOf
  dsimp only
  induction entries with
  | nil => rfl
  | cons slot rest ih =>
    rw [modifyFirst]
    split_ifs with isFirst
    · have isRoot := first slot (List.find?_cons_of_pos isFirst)
      rw [List.find?_cons_of_neg (by simp [isLive, frame, isRoot, differ.symm]),
        List.find?_cons_of_neg (by simp [isLive, isRoot, differ.symm])]
    · rw [List.find?_cons, List.find?_cons]
      cases isLive other slot with
      | true => rfl
      | false =>
        exact ih fun found isFound => first found ((List.find?_cons_of_neg isFirst).trans isFound)

theorem marksOf_updateMarks (update : List Bool → List Bool) :
    (pool.updateMarks root update).marksOf other =
      if other = root then (pool.marksOf root).map update else pool.marksOf other := by
  split_ifs with same
  · subst same
    obtain ⟨slots⟩ := pool
    unfold marksOf updateMarks
    dsimp only
    induction slots with
    | nil => rfl
    | cons slot rest ih =>
      rw [modifyFirst]
      split_ifs with isRoot
      · rw [List.find?_cons_of_pos (by exact isRoot), List.find?_cons_of_pos isRoot]
        rfl
      · rw [List.find?_cons_of_neg isRoot, ih, List.find?_cons_of_neg isRoot]
  · refine marksOf_modifyFirst (fun _ => rfl) (fun slot found => ?_) same
    have isRoot := List.find?_some found
    simp only [isLive, Bool.and_eq_true, decide_eq_true_eq] at isRoot
    exact isRoot.1

/-- The roots are as they were, and so is the number of their stack slots. -/
structure SameRoots (pool after : PrivateP4Pool) : Prop where
  frames : after.slots.map PreparedP4Slot.p4Frame = pool.slots.map PreparedP4Slot.p4Frame
  sized : (∀ slot ∈ pool.slots, slot.stackInUse.length = 8) →
    ∀ slot ∈ after.slots, slot.stackInUse.length = 8

theorem SameRoots.refl : pool.SameRoots pool :=
  ⟨rfl, id⟩

theorem SameRoots.trans (first : pool.SameRoots middle) (second : middle.SameRoots after) :
    pool.SameRoots after :=
  ⟨second.frames.trans first.frames, second.sized ∘ first.sized⟩

theorem sameRoots_modifyFirst
    (frame : ∀ slot, (change slot).p4Frame = slot.p4Frame)
    (keeps : ∀ slot, slot.stackInUse.length = 8 → (change slot).stackInUse.length = 8) :
    SameRoots ⟨entries⟩ ⟨modifyFirst test change entries⟩ := by
  constructor
  · dsimp only
    induction entries with
    | nil => rfl
    | cons slot rest ih =>
      rw [modifyFirst]
      split_ifs
      · rw [List.map_cons, List.map_cons, frame]
      · rw [List.map_cons, List.map_cons, ih]
  · intro sized slot listed
    rcases mem_modifyFirst listed with old | ⟨old, oldListed, -, rfl⟩
    · exact sized slot old
    · exact keeps _ (sized old oldListed)

theorem sameRoots_updateMarks
    (update : List Bool → List Bool)
    (keeps : ∀ marks, marks.length = 8 → (update marks).length = 8) :
    pool.SameRoots (pool.updateMarks root update) :=
  sameRoots_modifyFirst (fun _ => rfl) fun _ => keeps _

/-- Returning a root leaves the others. -/
theorem release_spec (pool : PrivateP4Pool) (root : UInt64) :
    pool.SameRoots (pool.release root) ∧
      ∀ other, other ≠ root → (pool.release root).marksOf other = pool.marksOf other := by
  refine ⟨sameRoots_modifyFirst (fun _ => rfl) fun slot isLength => ?_,
    fun other => marksOf_modifyFirst (fun _ => rfl) fun slot found => ?_⟩
  · rw [List.length_map, isLength]
  · simpa using List.find?_some found

theorem releaseStackSlot_eq (isIndex : stackSlotIndex stackTop = some index) :
    pool.releaseStackSlot root stackTop =
      pool.updateMarks root fun marks => marks.set index false := by
  unfold releaseStackSlot setStackSlot
  rw [isIndex]
  rfl

/-- What reserving a slot can do. -/
theorem reserveStackSlot_cases (pool : PrivateP4Pool) (root mainStackTop : UInt64) :
    pool.reserveStackSlot root mainStackTop = (none, pool) ∨
      ∃ marks main, pool.marksOf root = some marks ∧
        (pool.reserveStackSlot root mainStackTop =
            (none, pool.updateMarks root fun _ => marks.set main true) ∨
          ∃ index, (marks.set main true)[index]? = some false ∧
            pool.reserveStackSlot root mainStackTop =
              (some (stackRangeForSlot index),
                pool.updateMarks root fun _ => (marks.set main true).set index true)) := by
  unfold reserveStackSlot
  dsimp only
  split
  · next slot main found _ =>
      refine .inr ⟨slot.stackInUse, main, ?_, ?_⟩
      · have isFirst : pool.slots.find? (isLive root) = some slot := found
        rw [marksOf, isFirst]
        rfl
      · split
        · next index isFree =>
            refine .inr ⟨index, ?_, rfl⟩
            obtain ⟨inside, isFalse, -⟩ := List.findIdx?_eq_some_iff_getElem.mp isFree
            rw [List.getElem?_eq_getElem inside]
            simpa using isFalse
        · exact .inl rfl
  · exact .inl rfl

/-- A root is taken that was free. -/
theorem take_spec
    (distinct : (pool.slots.map PreparedP4Slot.p4Frame).Nodup)
    (taken : pool.take = some (root, after)) :
    pool.marksOf root = none ∧
      (∃ slot ∈ pool.slots, after.marksOf root = some slot.stackInUse) ∧
      (∀ other, other ≠ root → after.marksOf other = pool.marksOf other) ∧
      pool.SameRoots after ∧ ∀ slot ∈ after.slots, slot.p4Frame = root → slot.inUse = true := by
  obtain ⟨slot, found, ⟨⟩⟩ := Option.bind_eq_some_iff.mp taken
  obtain ⟨front, back, isSplit, changed⟩ : ∃ front back, pool.slots = front ++ slot :: back ∧
      modifyFirst (fun slot : PreparedP4Slot => !slot.inUse)
        (fun slot => { slot with inUse := true }) pool.slots =
          front ++ { slot with inUse := true } :: back := modifyFirst_of_find found
  have isFree : slot.inUse = false := by simpa using List.find?_some found
  rw [isSplit, List.map_append, List.map_cons, List.nodup_append] at distinct
  have notFront : ∀ other ∈ front, other.p4Frame ≠ slot.p4Frame := fun other listed =>
    distinct.2.2 _ (List.mem_map_of_mem listed) _ List.mem_cons_self
  have notBack : ∀ other ∈ back, other.p4Frame ≠ slot.p4Frame := by
    intro other listed same
    exact (List.nodup_cons.mp distinct.2.1).1 (same ▸ List.mem_map_of_mem listed)
  have dead : ∀ part : List PreparedP4Slot, (∀ other ∈ part, other.p4Frame ≠ slot.p4Frame) →
      part.find? (isLive slot.p4Frame) = none := by
    intro part others
    refine List.find?_eq_none.mpr fun other listed => ?_
    simp [isLive, others other listed]
  refine ⟨?_, ⟨slot, List.mem_of_find?_eq_some found, ?_⟩,
    fun other => marksOf_modifyFirst (fun _ => rfl) fun first isFirst => ?_,
    sameRoots_modifyFirst (fun _ => rfl) fun _ => id, fun other listed same => ?_⟩
  · rw [marksOf, isSplit, List.find?_append, dead front notFront,
      List.find?_cons_of_neg (by simp [isLive, isFree]), dead back notBack]
    rfl
  · rw [marksOf, changed, List.find?_append, dead front notFront,
      List.find?_cons_of_pos (by simp [isLive])]
    rfl
  · rw [found] at isFirst
    cases isFirst
    rfl
  · rw [changed] at listed
    rcases List.mem_append.mp listed with inFront | inRest
    · exact absurd same (notFront other inFront)
    · rcases List.mem_cons.mp inRest with rfl | inBack
      · rfl
      · exact absurd same (notBack other inBack)

theorem modifyFirst_congr (same : ∀ element ∈ elements, left element = right element) :
    modifyFirst left change elements = modifyFirst right change elements := by
  induction elements with
  | nil => rfl
  | cons element rest ih =>
    rw [modifyFirst, modifyFirst, same element List.mem_cons_self,
      ih fun later listed => same later (List.mem_cons_of_mem _ listed)]

/-- The root of the process is in use. -/
theorem markStackSlot_eq
    (isIndex : stackSlotIndex stackTop = some index)
    (inUse : ∀ slot ∈ pool.slots, slot.p4Frame = root → slot.inUse = true) :
    pool.markStackSlot root stackTop =
      pool.updateMarks root fun marks => marks.set index true := by
  unfold markStackSlot setStackSlot updateMarks
  rw [isIndex]
  refine congrArg PrivateP4Pool.mk (modifyFirst_congr fun slot listed => ?_)
  by_cases isRoot : slot.p4Frame = root
  · simp [isLive, isRoot, inUse slot listed isRoot]
  · simp [isLive, isRoot]

end PrivateP4Pool

/-! ## The stacks of all processes -/

namespace ProcessTable

open PrivateP4Pool (marksOf_updateMarks sameRoots_updateMarks)

variable {table after : ProcessTable} {ended : List Pid}

/-- The stacks of every process with a private address space are placed, and no two
processes share one.  A process that has ended keeps its record, but not its root. -/
structure Stacked (table : ProcessTable) (ended : List Pid) : Prop where
  processes : ∀ pid process root, pid ∉ ended → table.get pid = some process →
    process.addressSpace.p4Frame = some root →
      ∃ marks, table.privatePool.marksOf root = some marks ∧ process.Stacked marks
  separate : ∀ first second left right root, first ∉ ended → second ∉ ended →
    table.get first = some left → table.get second = some right →
      left.addressSpace.p4Frame = some root → right.addressSpace.p4Frame = some root →
        first = second
  distinct : (table.privatePool.slots.map PreparedP4Slot.p4Frame).Nodup
  sized : ∀ slot ∈ table.privatePool.slots, slot.stackInUse.length = 8

/-- One process changes, and no mark of the roots of the others. -/
theorem Stacked.move
    {remaining : List Pid}
    (stacked : table.Stacked ended)
    (others : ∀ other, other ≠ pid → other ∉ remaining →
      other ∉ ended ∧ after.get other = table.get other)
    (roots : table.privatePool.SameRoots after.privatePool)
    (apart : ∀ other process root, other ≠ pid → other ∉ ended → table.get other = some process →
      process.addressSpace.p4Frame = some root →
        after.privatePool.marksOf root = table.privatePool.marksOf root ∧
        ∀ own, pid ∉ remaining → after.get pid = some own → own.addressSpace.p4Frame ≠ some root)
    (own : ∀ process root, pid ∉ remaining → after.get pid = some process →
      process.addressSpace.p4Frame = some root →
        ∃ marks, after.privatePool.marksOf root = some marks ∧ process.Stacked marks) :
    after.Stacked remaining where
  processes other process root lives found isRoot := by
    by_cases same : other = pid
    · subst same
      exact own process root lives found isRoot
    · obtain ⟨lived, gets⟩ := others other same lives
      rw [gets] at found
      rw [(apart other process root same lived found isRoot).1]
      exact stacked.processes other process root lived found isRoot
  separate first second left right root firstLives secondLives isLeft isRight leftRoot
      rightRoot := by
    by_cases isFirst : first = pid
    · by_cases isSecond : second = pid
      · rw [isFirst, isSecond]
      · obtain ⟨lived, gets⟩ := others second isSecond secondLives
        rw [gets] at isRight
        subst isFirst
        exact absurd leftRoot
          ((apart second right root isSecond lived isRight rightRoot).2 left firstLives isLeft)
    · obtain ⟨lived, gets⟩ := others first isFirst firstLives
      rw [gets] at isLeft
      by_cases isSecond : second = pid
      · subst isSecond
        exact absurd rightRoot
          ((apart first left root isFirst lived isLeft leftRoot).2 right secondLives isRight)
      · obtain ⟨secondLived, gets⟩ := others second isSecond secondLives
        rw [gets] at isRight
        exact stacked.separate first second left right root lived secondLived isLeft isRight
          leftRoot rightRoot
  distinct := roots.frames ▸ stacked.distinct
  sized := roots.sized stacked.sized

/-- One process changes, and with it the marks of its root. -/
theorem Stacked.update
    (stacked : table.Stacked ended)
    (lives : pid ∉ ended)
    (found : table.get pid = some process)
    (gets : ∀ other, after.get other = if other = pid then some changed else table.get other)
    (space : changed.addressSpace = process.addressSpace)
    (roots : table.privatePool.SameRoots after.privatePool)
    (others : ∀ root, process.addressSpace.p4Frame ≠ some root →
      after.privatePool.marksOf root = table.privatePool.marksOf root)
    (own : ∀ root marks, process.addressSpace.p4Frame = some root →
      table.privatePool.marksOf root = some marks → process.Stacked marks →
        ∃ next, after.privatePool.marksOf root = some next ∧ changed.Stacked next) :
    after.Stacked ended := by
  refine stacked.move (fun other differ lives => ⟨lives, (gets other).trans (if_neg differ)⟩) roots
    (fun other known root differ otherLives isKnown isRoot => ?_) fun now root _ isNow isRoot => ?_
  · have unshared : process.addressSpace.p4Frame ≠ some root := fun shared => differ
      (stacked.separate other pid known process root otherLives lives isKnown found isRoot shared)
    refine ⟨others root unshared, fun now _ isNow => ?_⟩
    rw [gets, if_pos rfl] at isNow
    cases isNow
    rwa [space]
  · rw [gets, if_pos rfl] at isNow
    cases isNow
    rw [space] at isRoot
    obtain ⟨marks, isMarks, isStacked⟩ := stacked.processes pid process root lives found isRoot
    exact own root marks isRoot isMarks isStacked

/-! ## Creating, ending and joining threads -/

/-- A thread is added to a process. -/
theorem admitThread_spec
    {process : Process} {thread : Thread}
    (admitted : table.admitThread process thread = some after) :
    after.privatePool = table.privatePool ∧ ∃ changed : Process,
      (∀ other, after.get other =
        if other = process.pid then some changed else table.get other) ∧
      changed.addressSpace = process.addressSpace ∧
      ∀ tid, changed.threads.get tid =
        if tid = thread.tid then some thread else process.threads.get tid := by
  obtain ⟨threads, inserted, ⟨⟩⟩ := Option.bind_eq_some_iff.mp admitted
  obtain ⟨-, -, gets⟩ := ThreadStore.insert_eq_some inserted
  exact ⟨rfl, (process.setThreads threads).refreshStateFromThreads,
    fun other => get_putProcess, rfl, gets⟩

/-- A range has nothing in common with the stacks of the process. -/
theorem apart_of_available
    {threads : ThreadStore} {thread : Thread}
    (available : threads.stackRangeAvailable stackStart stackTop = true)
    (found : threads.get tid = some thread)
    (isRange : thread.stackRange = some range) :
    Apart range (stackStart, stackTop) := by
  simp only [ThreadStore.stackRangeAvailable, Bool.and_eq_true, List.all_eq_true] at available
  have listed : thread ∈ threads.values := by
    rw [mem_values_iff, ThreadStore.tid_of_get found]
    exact found
  have free := available.2 thread listed
  unfold Thread.stackRange at isRange
  split at isRange
  · next start top isStart isTop =>
      cases isRange
      rw [isStart, isTop] at free
      simp only [Bool.or_eq_true, decide_eq_true_eq] at free
      exact free.symm
  · cases isRange

section

variable (stacked : table.Stacked ended)
include stacked

/-- Queues and counters do not matter. -/
theorem Stacked.of_same
    (gets : ∀ pid, after.get pid = table.get pid)
    (pool : after.privatePool = table.privatePool) :
    after.Stacked ended where
  processes pid process root lives found isRoot := by
    rw [pool]
    exact stacked.processes pid process root lives (gets pid ▸ found) isRoot
  separate first second left right root firstLives secondLives isLeft isRight :=
    stacked.separate first second left right root firstLives secondLives (gets first ▸ isLeft)
      (gets second ▸ isRight)
  distinct := pool ▸ stacked.distinct
  sized := pool ▸ stacked.sized

/-- A thread is created on a stack in the program area. -/
theorem Stacked.createUserThread
    (lives : pid ∉ ended)
    (inArea : ∀ process, table.get pid = some process →
      process.threads.stackRangeAvailable stackStart stackTop = true →
      process.addressSpace.layout.programEnd ≤ userStackRegionStart →
        InProgramArea (stackStart, stackTop)) :
    (table.createUserThread pid entry stackStart stackTop initialRsp arg).2.Stacked ended := by
  unfold ProcessTable.createUserThread
  split
  · exact stacked
  next process found =>
  split_ifs with refused
  · exact stacked
  simp only [not_or, Bool.not_eq_true', Bool.not_eq_false] at refused
  dsimp only
  split
  · next admitted isAdmitted =>
      obtain ⟨pool, changed, gets, space, threads⟩ := admitThread_spec isAdmitted
      rw [pid_of_get found] at gets
      refine stacked.update lives found gets space (pool ▸ .refl) (fun _ _ => by rw [pool]; rfl)
        fun root marks _ isMarks isStacked => ⟨marks, by rw [pool]; exact isMarks, ?_⟩
      refine isStacked.insert space threads rfl ?_ fun tid other range isOther isRange =>
        apart_of_available refused.2 isOther isRange
      exact .inl ⟨rfl, inArea process found refused.2 isStacked.area⟩
  · exact stacked.of_same (fun _ => rfl) rfl

section

variable (lives : pid ∉ ended) (found : table.get pid = some process)
  (isRoot : process.addressSpace.p4Frame = some root)
include lives found isRoot

/-- Only the marks of the root of one process change. -/
theorem Stacked.remark
    (update : List Bool → List Bool)
    (keeps : ∀ marks, marks.length = 8 → (update marks).length = 8)
    (own : ∀ marks, table.privatePool.marksOf root = some marks → process.Stacked marks →
      process.Stacked (update marks)) :
    Stacked { table with privatePool := table.privatePool.updateMarks root update } ended := by
  refine stacked.update lives found (fun other => ?_) rfl (sameRoots_updateMarks update keeps)
    (fun other differ => ?_) fun other marks isOther isMarks isStacked => ?_
  · split_ifs with same
    · exact same ▸ found
    · rfl
  · rw [marksOf_updateMarks, if_neg]
    rintro rfl
    exact differ isRoot
  · rw [isRoot] at isOther
    cases isOther
    refine ⟨update marks, ?_, own marks isMarks isStacked⟩
    rw [marksOf_updateMarks, if_pos rfl, isMarks]
    rfl

/-- A reserved slot is marked, and no stack of the process has anything in common with
it. -/
theorem Stacked.reserve
    (mainStackTop : UInt64) :
    Stacked { table with
        privatePool := (table.privatePool.reserveStackSlot root mainStackTop).2 } ended ∧
      ∀ range, (table.privatePool.reserveStackSlot root mainStackTop).1 = some range →
        ∃ index : Fin 8, range = stackRangeForSlot index ∧
          (∀ marks, (table.privatePool.reserveStackSlot root mainStackTop).2.marksOf root =
            some marks → marks[index.val]? = some true) ∧
          ∀ tid thread other, process.threads.get tid = some thread →
            thread.stackRange = some other → Apart other range := by
  obtain ⟨marks, isMarks, isStacked⟩ := stacked.processes pid process root lives found isRoot
  rcases table.privatePool.reserveStackSlot_cases root mainStackTop with
    none | ⟨known, main, isKnown, full | ⟨index, isFree, reserved⟩⟩
  · rw [none]
    exact ⟨stacked, nofun⟩
  · obtain rfl := Option.mem_unique isKnown isMarks
    rw [full]
    refine ⟨stacked.remark lives found isRoot _ (fun _ _ => ?_)
      fun _ _ _ => isStacked.mark main, nofun⟩
    rw [List.length_set, isStacked.length]
  · obtain rfl := Option.mem_unique isKnown isMarks
    have inside : index < 8 := by
      have bound := (List.getElem?_eq_some_iff.mp isFree).1
      rwa [List.length_set, isStacked.length] at bound
    obtain ⟨index, rfl⟩ : ∃ slot : Fin 8, slot.val = index := ⟨⟨index, inside⟩, rfl⟩
    rw [reserved]
    refine ⟨stacked.remark lives found isRoot _ (fun _ _ => ?_)
      fun _ _ _ => (isStacked.mark main).mark index, ?_⟩
    · rw [List.length_set, List.length_set, isStacked.length]
    · intro range isRange
      obtain rfl : stackRangeForSlot index = range := Option.some.inj isRange
      refine ⟨index, rfl, fun marks isMarked => ?_, fun tid thread other isThread
        isOther => ?_⟩
      · rw [marksOf_updateMarks, if_pos rfl, isKnown] at isMarked
        cases isMarked
        exact List.getElem?_set_self (List.getElem?_eq_some_iff.mp isFree).1
      · refine ((isStacked.mark main).placed tid thread other isThread isOther).apart_free
          index ?_
        rw [isFree]
        decide

/-- A slot that no thread of the process has is returned. -/
theorem Stacked.returnSlot
    (index : Fin 8)
    (unused : ∀ tid thread other, process.threads.get tid = some thread →
      thread.stackRange = some other → Apart other (stackRangeForSlot index)) :
    Stacked { table with
      privatePool := table.privatePool.releaseStackSlot root (stackRangeForSlot index).2 }
        ended := by
  rw [PrivateP4Pool.releaseStackSlot_eq (stackRangeForSlot_spec index).2.2.1]
  refine stacked.remark lives found isRoot _ (fun marks isLength => ?_) fun _ _ isStacked =>
    isStacked.unmark index unused
  rw [List.length_set, isLength]

end

/-- A thread is created on a slot that the kernel reserves. -/
theorem Stacked.createManagedUserThread (lives : pid ∉ ended) :
    (table.createManagedUserThread pid entry arg).2.Stacked ended := by
  unfold ProcessTable.createManagedUserThread
  split
  · exact stacked
  next process found =>
  split_ifs
  · exact stacked
  split
  · exact stacked
  next root isRoot =>
  obtain ⟨reserved, offers⟩ :=
    stacked.reserve lives found isRoot process.addressSpace.layout.stackTop
  generalize table.privatePool.reserveStackSlot root process.addressSpace.layout.stackTop = slot
    at reserved offers
  dsimp only
  split
  · exact reserved
  next stackStart stackTop isRange =>
  obtain ⟨index, isSlot, marked, apart⟩ := offers _ isRange
  split
  · exact reserved
  next initialRsp _ =>
  split
  · next admitted isAdmitted =>
      obtain ⟨pool, changed, gets, space, threads⟩ := admitThread_spec isAdmitted
      rw [pid_of_get found] at gets
      refine reserved.update lives found gets space (pool ▸ .refl)
        (fun _ _ => by rw [pool]; rfl)
        fun other marks isOther isMarks isStacked => ⟨marks, by rw [pool]; exact isMarks, ?_⟩
      rw [isRoot] at isOther
      cases isOther
      refine isStacked.insert space threads rfl (.inr ⟨index, isSlot, marked marks isMarks⟩) apart
  · have isTop : stackTop = (stackRangeForSlot index).2 := congrArg Prod.snd isSlot
    rw [isTop]
    exact (reserved.returnSlot lives found isRoot index (isSlot ▸ apart)).of_same (fun _ => rfl) rfl

end

theorem get_releaseThreadStack (slot : Option (UInt64 × UInt64)) :
    (table.releaseThreadStack slot).get pid = table.get pid := by
  cases slot <;> rfl

/-- One process changes, and a stack that it hands back is returned. -/
structure Exchanges (table after : ProcessTable) (process changed : Process)
    (slot : Option (UInt64 × UInt64)) : Prop where
  found : table.get process.pid = some process
  gets : ∀ other,
    after.get other = if other = process.pid then some changed else table.get other
  pool : after.privatePool = (table.releaseThreadStack slot).privatePool
  settles : process.Settles changed slot

/-- A process is written back. -/
theorem Exchanges.put
    (found : table.get process.pid = some process)
    (settles : process.Settles changed slot)
    (gets : ∀ other, after.get other = (table.putProcess changed).get other)
    (pool : after.privatePool = (table.releaseThreadStack slot).privatePool) :
    Exchanges table after process changed slot := by
  refine ⟨found, fun other => ?_, pool, settles⟩
  rw [gets, get_putProcess, settles.keepsThreads.pid]

theorem Stacked.exchange
    (stacked : table.Stacked ended)
    (lives : process.pid ∉ ended)
    (exchanges : Exchanges table after process changed slot) :
    after.Stacked ended := by
  obtain ⟨found, gets, pool, settles⟩ := exchanges
  have space := settles.keepsThreads.space
  cases slot with
  | none =>
    have same : after.privatePool = table.privatePool := pool
    refine stacked.update lives found gets space (same ▸ .refl)
      (fun _ _ => by rw [same]) fun root marks isRoot isMarks isStacked =>
        ⟨marks, by rw [same, isMarks], ?_⟩
    rcases isStacked.settles settles with ⟨-, still⟩ | ⟨root, top, index, isSlot, -⟩
    · exact still
    · cases isSlot
  | some given =>
    obtain ⟨root, top⟩ := given
    have isRoot := settles.p4Frame_eq rfl
    obtain ⟨marks, isMarks, isStacked⟩ :=
      stacked.processes process.pid process root lives found isRoot
    rcases isStacked.settles settles with ⟨isNone, -⟩ | ⟨_, _, index, ⟨⟩, isIndex, still⟩
    · cases isNone
    have isPool : after.privatePool =
        table.privatePool.updateMarks root fun marks => marks.set index false :=
      pool.trans (PrivateP4Pool.releaseStackSlot_eq isIndex)
    refine stacked.update lives found gets space ?_ (fun other differ => ?_)
      fun other known isOther isKnown _ => ?_
    · rw [isPool]
      refine sameRoots_updateMarks _ fun marks isLength => ?_
      rw [List.length_set, isLength]
    · rw [isPool, marksOf_updateMarks, if_neg]
      rintro rfl
      exact differ isRoot
    · rw [isRoot] at isOther
      cases isOther
      refine ⟨marks.set index false, ?_, still⟩
      rw [isPool, marksOf_updateMarks, if_pos rfl, isMarks]
      rfl

theorem keepsThreads_stopRun (process : Process) (tid : Tid)
    (stops : ∀ thread, (change thread).processId = (thread.stopRun now).processId ∧
      (change thread).SameStack (thread.stopRun now)) :
    process.KeepsThreads (process.modifyThread tid change keepsTid) := by
  refine .modifyThread process tid fun thread => ?_
  have stopped : (thread.stopRun now).processId = thread.processId ∧
      (thread.stopRun now).SameStack thread := by
    unfold Thread.stopRun
    split <;> exact ⟨rfl, rfl, rfl, rfl⟩
  exact ⟨(stops thread).1.trans stopped.1, (stops thread).2.trans stopped.2⟩

theorem keepsThreads_reapedThread (process : Process) (tid : Tid) :
    process.KeepsThreads (reapedThread process tid) :=
  .modifyThread process tid fun _ => ⟨rfl, rfl, rfl, rfl⟩

theorem keepsThreads_exitedThread (process : Process) (now : UInt64) (tid : Tid) :
    process.KeepsThreads (wakeJoiners (exitedThread process now tid) tid) := by
  have exited : process.KeepsThreads (exitedThread process now tid) :=
    keepsThreads_stopRun process tid fun _ => ⟨rfl, rfl, rfl, rfl⟩
  refine exited.trans (.of_change (fun _ thread =>
    if joins tid thread then joinedThread thread else thread) rfl rfl rfl
      (fun _ => ThreadStore.get_modifyAll _ _ _) fun other thread => ?_)
  split_ifs <;> exact ⟨rfl, rfl, rfl, rfl⟩

/-- Threads that wait for the processor do not matter. -/
theorem same_foldl_enqueueReady (tids : List Tid) :
    (∀ pid, (tids.foldl enqueueReady table).get pid = table.get pid) ∧
      (tids.foldl enqueueReady table).privatePool = table.privatePool := by
  induction tids generalizing table with
  | nil => exact ⟨fun _ => rfl, rfl⟩
  | cons tid rest ih => exact ih

theorem releaseThreadStack_congr (slot : Option (UInt64 × UInt64))
    (same : after.privatePool = table.privatePool) :
    (after.releaseThreadStack slot).privatePool = (table.releaseThreadStack slot).privatePool := by
  cases slot with
  | none => exact same
  | some given =>
    unfold releaseThreadStack
    dsimp only
    rw [same]

/-- What the end of a thread does to its process. -/
theorem exchanges_markThreadExited (exited : table.markThreadExited now tid = some (pid, after)) :
    ∃ process changed slot, table.getByTid tid = some process ∧
      Exchanges table after process changed slot := by
  obtain ⟨process, owner, rest⟩ := Option.bind_eq_some_iff.mp exited
  split_ifs at rest
  cases rest
  have found := (getByTid_spec owner).1
  have keeps := keepsThreads_exitedThread process now tid
  generalize wakeJoiners (exitedThread process now tid) tid = ended at keeps
  generalize joiningTids (exitedThread process now tid) tid = woken
  have settles : process.Settles (settleExited ended tid woken).2.refreshStateFromThreads
      (settleExited ended tid woken).1 := by
    unfold settleExited
    split_ifs
    · exact .releases tid (keeps.trans (keepsThreads_reapedThread ended tid)) (.refresh .refl)
    · exact .keeps keeps.refresh
  refine ⟨process, _, _, owner, .put found settles (fun other => ?_) ?_⟩
  · rw [get_releaseThreadStack, (same_foldl_enqueueReady woken).1]
    rfl
  · exact releaseThreadStack_congr _ (same_foldl_enqueueReady woken).2

/-- What joining a thread does to the process. -/
theorem exchanges_joinThread :
    (table.joinThread now caller target context).2 = table ∨
      ∃ process changed slot, table.getByTid caller = some process ∧
        Exchanges table (table.joinThread now caller target context).2 process changed slot := by
  unfold ProcessTable.joinThread
  split_ifs
  · exact .inl rfl
  split
  next process targetProcess owner isTarget =>
    have found := (getByTid_spec owner).1
    split_ifs
    · exact .inl rfl
    split
    next =>
      split_ifs
      · exact .inl rfl
      · exact .inl rfl
      · exact .inr ⟨process, _, _, owner, .put found
          (.releases target (keepsThreads_reapedThread process target) .refl)
          (fun _ => get_releaseThreadStack _) (releaseThreadStack_congr _ rfl)⟩
      · exact .inl rfl
      · refine .inr ⟨process, _, none, owner, .put found (.keeps (.refresh ?_)) (fun _ => rfl) rfl⟩
        exact keepsThreads_stopRun process caller fun _ => ⟨rfl, rfl, rfl, rfl⟩
    next => exact .inl rfl
  next => exact .inl rfl

/-- The marks of a root are those of the only slot with that root. -/
theorem Stacked.marks_of_mem
    (stacked : table.Stacked ended)
    (isMarks : table.privatePool.marksOf root = some marks)
    (listed : slot ∈ table.privatePool.slots)
    (sameRoot : slot.p4Frame = root) :
    marks = slot.stackInUse := by
  obtain ⟨live, isLive, rfl⟩ := Option.map_eq_some_iff.mp isMarks
  have liveRoot := List.find?_some isLive
  simp only [PrivateP4Pool.isLive, Bool.and_eq_true, decide_eq_true_eq] at liveRoot
  rw [List.inj_on_of_nodup_map stacked.distinct listed (List.mem_of_find?_eq_some isLive)
    (sameRoot.trans liveRoot.1.symm)]

theorem others_of_start
    (gets : ∀ other, after.get other = if other = pid then some process else table.get other)
    (other : Pid) (differ : other ≠ pid)
    (lives : other ∉ ended.filter (· ≠ pid)) :
    other ∉ ended ∧ after.get other = table.get other :=
  ⟨by simpa [differ] using lives, (gets other).trans (if_neg differ)⟩

/-- A process is started: its root is taken, and the slot of its main stack marked. -/
theorem Stacked.start
    {pid : Pid} {process : Process} {pool : PrivateP4Pool}
    (stacked : table.Stacked ended)
    (taken : table.privatePool.take = some (root, pool))
    (isRoot : process.addressSpace.p4Frame = some root)
    (area : process.addressSpace.layout.programEnd ≤ userStackRegionStart)
    (index : Fin 8)
    (isTop : process.addressSpace.layout.stackTop = (stackRangeForSlot index).2)
    (threads : ∀ tid thread, process.threads.get tid = some thread →
      tid = process.mainTid ∧ thread.userStackStart = some (stackRangeForSlot index).1 ∧
        thread.userStackTop = some (stackRangeForSlot index).2)
    (gets : ∀ other, after.get other = if other = pid then some process else table.get other)
    (isPool : after.privatePool =
      pool.markStackSlot root process.addressSpace.layout.stackTop) :
    after.Stacked (ended.filter (· ≠ pid)) := by
  obtain ⟨wasFree, ⟨slot, listed, isMarks⟩, others, roots, inUse⟩ :=
    PrivateP4Pool.take_spec stacked.distinct taken
  have isIndex : stackSlotIndex process.addressSpace.layout.stackTop = some index.val := by
    rw [isTop, (stackRangeForSlot_spec index).2.2.1]
  rw [PrivateP4Pool.markStackSlot_eq isIndex inUse] at isPool
  have length := stacked.sized slot listed
  have keepsLength : ∀ marks : List Bool, marks.length = 8 →
      (marks.set index.val true).length = 8 := by
    intro marks isLength
    rw [List.length_set, isLength]
  have own : process.Stacked (slot.stackInUse.set index.val true) := by
    have isRange : ∀ tid thread range, process.threads.get tid = some thread →
        thread.stackRange = some range → range = stackRangeForSlot index := by
      intro tid thread range found hasRange
      obtain ⟨-, isStart, isEnd⟩ := threads tid thread found
      simp only [Thread.stackRange, isStart, isEnd, Option.some.injEq] at hasRange
      exact hasRange.symm
    refine ⟨keepsLength _ length, area, fun tid thread range found hasRange => ?_,
      fun tid thread top found _ => ⟨_, (threads tid thread found).2.1⟩, ?_⟩
    · refine .inr ⟨index, isRange tid thread range found hasRange, ?_⟩
      exact List.getElem?_set_self (by rw [length]; exact index.isLt)
    · intro left right first second _ _ differ foundLeft foundRight _ _
      exact absurd ((threads left first foundLeft).1.trans
        (threads right second foundRight).1.symm) differ
  refine stacked.move (others_of_start gets) ?_
    (fun other known hasRoot _ lives isKnown isOther => ?_) fun now hasRoot _ isNow isOther => ?_
  · rw [isPool]
    exact roots.trans (sameRoots_updateMarks _ keepsLength)
  · have differ : hasRoot ≠ root := by
      rintro rfl
      obtain ⟨marks, hasMarks, -⟩ := stacked.processes other known hasRoot lives isKnown isOther
      rw [wasFree] at hasMarks
      cases hasMarks
    refine ⟨?_, fun now _ isNow same => ?_⟩
    · rw [isPool, marksOf_updateMarks, if_neg differ, others hasRoot differ]
    · rw [gets, if_pos rfl] at isNow
      cases isNow
      exact differ (Option.some.inj (same.symm.trans isRoot))
  · rw [gets, if_pos rfl] at isNow
    cases isNow
    rw [isRoot] at isOther
    cases isOther
    refine ⟨_, ?_, own⟩
    rw [isPool, marksOf_updateMarks, if_pos rfl, isMarks]
    rfl

/-- A process is started without a root of its own. -/
theorem Stacked.startShared
    (stacked : table.Stacked ended)
    (noRoot : process.addressSpace.p4Frame = none)
    (gets : ∀ other, after.get other = if other = pid then some process else table.get other)
    (pool : after.privatePool = table.privatePool) :
    after.Stacked (ended.filter (· ≠ pid)) := by
  refine stacked.move (others_of_start gets) (pool ▸ .refl)
    (fun _ _ _ _ _ _ _ => ⟨by rw [pool], fun now _ isNow isRoot => ?_⟩)
    fun now root _ isNow isRoot => ?_
  all_goals
    rw [gets, if_pos rfl] at isNow
    cases isNow
    rw [noRoot] at isRoot
    cases isRoot

/-- A process ends and gives up its root. -/
theorem Stacked.finish
    (stacked : table.Stacked ended)
    (lives : pid ∉ ended)
    (gets : ∀ other, other ≠ pid → after.get other = table.get other)
    (roots : table.privatePool.SameRoots after.privatePool)
    (others : ∀ root, table.p4FrameFor pid ≠ some root →
      after.privatePool.marksOf root = table.privatePool.marksOf root) :
    after.Stacked (pid :: ended) := by
  refine stacked.move
    (fun other differ lives => ⟨fun isEnded => lives (.tail _ isEnded), gets other differ⟩) roots
    (fun other process root differ otherLives found isRoot => ⟨others root fun shared => ?_,
      fun _ lives => absurd List.mem_cons_self lives⟩)
    fun _ _ lives => absurd List.mem_cons_self lives
  obtain ⟨own, isOwn, ownRoot⟩ := Option.bind_eq_some_iff.mp shared
  exact differ
    (stacked.separate other pid process own root otherLives lives found isOwn isRoot ownRoot)

/-- The table with the process that a program becomes. -/
def reserved (table : ProcessTable) (program : UserProgram) (space : AddressSpace) : ProcessTable :=
  table.createReservedProcessWithJobMode program.pid program.parentPid program.name program.path
    program.arg program.jobMode space

/-- The table after that process has entered the processor. -/
def registered (table : ProcessTable) (now : UInt64) (program : UserProgram)
    (space : AddressSpace) : ProcessTable :=
  (table.reserved program space).startProcessRun now program.pid

end ProcessTable

/-! ## Runs -/

namespace Kernel

variable {kernel : Kernel}

/-- What the scheduler and other system calls may do to threads: anything that leaves
their stacks. -/
structure Rescheduling where
  change : Pid → Thread → Thread
  keepsTid : ∀ pid thread, (change pid thread).tid = thread.tid
  keepsStack : ∀ pid thread, (change pid thread).SameStack thread

/-- Change all threads. -/
def reschedule (kernel : Kernel) (rescheduling : Rescheduling) : Kernel :=
  kernel.withTable
    { kernel.table with
      processes := kernel.table.processes.modifyAll
        (fun process => process.setThreads
          (process.threads.modifyAll (rescheduling.change process.pid)
            (rescheduling.keepsTid process.pid)))
        (fun _ => rfl) }

/-- A system call on threads. -/
inductive ThreadCall
  | create (entry stackPtr stackLen arg : UInt64)
  | spawn (entry arg : UInt64)
  | exit
  | join (frame : SyscallFrame)

/-- A step of the machine as far as stacks go. -/
inductive StackAction
  | start (program : UserProgram) (loaded : LoadedProgram)
  | call (pid : Pid) (tid : Tid) (env : UserEnv) (call : ThreadCall)
  | reschedule (rescheduling : Rescheduling)

/-- A thread makes a system call. -/
def serveThread (kernel : Kernel) (env : UserEnv) : ThreadCall → Kernel
  | .create entry stackPtr stackLen arg =>
    (kernel.createUserThread env entry stackPtr stackLen arg).2
  | .spawn entry arg => (kernel.spawnUserThread env entry arg).2
  | .exit => kernel.exitUserThread.2
  | .join frame => (kernel.joinUserThread frame).2

/-- One step. -/
def stackStep (kernel : Kernel) : StackAction → Kernel
  | .start program loaded => (kernel.startProgram program loaded true).2
  | .call pid tid env call => (kernel.setCurrentUser (some pid) (some tid)).serveThread env call
  | .reschedule rescheduling => kernel.reschedule rescheduling

/-- A step, or the end of a process. -/
inductive LifeAction
  | run (action : StackAction)
  | finish (pid : Pid) (status : UInt64)

/-- One step while some processes have ended, which make no calls any more. -/
def lifeStep : Kernel × List Pid → LifeAction → Kernel × List Pid
  | (kernel, ended), .run (.start program loaded) =>
    (kernel.stackStep (.start program loaded), ended.filter (· ≠ program.pid))
  | (kernel, ended), .run (.call pid tid env call) =>
    if pid ∈ ended ∨ ∃ owner ∈ kernel.table.getByTid tid, owner.pid ∈ ended then (kernel, ended)
    else (kernel.stackStep (.call pid tid env call), ended)
  | (kernel, ended), .run (.reschedule rescheduling) => (kernel.reschedule rescheduling, ended)
  | (kernel, ended), .finish pid status =>
    if pid ∈ ended then (kernel, ended) else (kernel.exitProcess pid status, pid :: ended)

/-- A stack that passed the checks lies in the program area or in a stack of the
process. -/
theorem checkThread_owned :
    Outcome (fun _ => True) (fun checked => kernel.currentUserRangeOwned stackPtr checked.1 = true)
      (kernel.checkThread env entry stackPtr stackLen) := by
  refine .guard trivial fun _ => .pass fun _ => ?_
  have owned : Outcome (fun _ => True) (fun _ => ∀ stackTop,
      Word.checkedAdd stackPtr stackLen = some stackTop →
        kernel.currentUserRangeOwned stackPtr stackTop = true)
      (kernel.checkedRange env stackPtr stackLen .write) := by
    refine .guard trivial fun _ => ?_
    split
    · exact .error trivial
    · next rangeEnd isEnd =>
        refine .guard trivial fun isOwned =>
          .guard trivial fun _ => .ok fun stackTop isTop => ?_
        rw [isEnd] at isTop
        cases isTop
        simpa using isOwned
  exact owned.bind fun _ isOwned => (outcome_orInvalid _).bind fun stackTop isTop =>
    .pass fun _ => .ok (isOwned stackTop isTop)

/-- A stack that is owned and available lies in the program area. -/
theorem inProgramArea_of_owned {process : Process}
    (found : kernel.currentProcess = some process)
    (owned : kernel.currentUserRangeOwned stackStart stackTop = true)
    (available : process.threads.stackRangeAvailable stackStart stackTop = true)
    (area : process.addressSpace.layout.programEnd ≤ userStackRegionStart) :
    InProgramArea (stackStart, stackTop) := by
  have nonempty : stackStart < stackTop := by
    simp only [ThreadStore.stackRangeAvailable, Bool.and_eq_true, decide_eq_true_eq] at available
    exact available.1
  unfold currentUserRangeOwned at owned
  rw [found] at owned
  simp only [Bool.or_eq_true, Bool.and_eq_true, decide_eq_true_eq, List.any_eq_true] at owned
  rcases owned with ⟨-, inside⟩ | ⟨thread, listed, within⟩
  · exact ⟨nonempty, UInt64.le_trans inside area⟩
  · -- The range would lie in a stack that it must have nothing in common with.
    exfalso
    split at within
    · next start top isStart isTop =>
        have isRange : thread.stackRange = some (start, top) := by
          simp [Thread.stackRange, isStart, isTop]
        simp only [Bool.and_eq_true, decide_eq_true_eq] at within
        have apart := ProcessTable.apart_of_available available
          (mem_values_iff.mp listed) isRange
        rcases apart with below | above
        · exact absurd nonempty (UInt64.not_lt.mpr
            (UInt64.le_trans within.2 below))
        · exact absurd nonempty (UInt64.not_lt.mpr
            (UInt64.le_trans above within.1))
    · cases within

/-- What the calls on threads ask of an invariant of the process table: each operation
keeps it, if its process has not ended. -/
structure CallInvariant (holds : ProcessTable → Prop) (ended : List Pid) : Prop where
  current : ∀ (kernel : Kernel) pid tid, holds kernel.table →
    holds (kernel.setCurrentUser pid tid).table
  create : ∀ (kernel : Kernel) pid entry stackPtr stackTop initialRsp arg, holds kernel.table →
    kernel.currentUserProcess = some pid → pid ∉ ended →
    kernel.currentUserRangeOwned stackPtr stackTop = true →
      holds (kernel.table.createUserThread pid entry stackPtr stackTop initialRsp arg).2
  spawn : ∀ table pid entry arg, holds table → pid ∉ ended →
    holds (table.createManagedUserThread pid entry arg).2
  exchange : ∀ {table after process changed slot}, holds table → process.pid ∉ ended →
    ProcessTable.Exchanges table after process changed slot → holds after

/-- What the steps ask of it. -/
structure StackInvariant (holds : ProcessTable → Prop) : Prop extends CallInvariant holds [] where
  start : ∀ (kernel : Kernel) program loaded, holds kernel.table →
    holds (kernel.startProgram program loaded true).2.table
  reschedule : ∀ (kernel : Kernel) rescheduling, holds kernel.table →
    holds (kernel.reschedule rescheduling).table

/-- Neither the process on the processor nor the one that owns the thread has ended. -/
structure CallerLives (kernel : Kernel) (ended : List Pid) : Prop where
  process : ∀ pid, kernel.currentUserProcess = some pid → pid ∉ ended
  owner : ∀ tid process, kernel.currentUserThread = some tid →
    kernel.table.getByTid tid = some process → process.pid ∉ ended

theorem callerLives_nil : kernel.CallerLives [] :=
  ⟨fun _ _ => List.not_mem_nil, fun _ _ _ _ => List.not_mem_nil⟩

variable {holds : ProcessTable → Prop} {ended : List Pid}

namespace CallInvariant

variable (invariant : CallInvariant holds ended) (held : holds kernel.table)
  (lives : kernel.CallerLives ended)
include invariant held lives

theorem markCurrentThreadExited :
    holds kernel.markCurrentThreadExited.2.table := by
  have emptied := invariant.current kernel none none held
  unfold Kernel.markCurrentThreadExited
  cases current : kernel.takeCurrentUser with
  | mk named left =>
    obtain rfl : kernel.setCurrentUser none none = left := congrArg Prod.snd current
    cases named with
    | none => exact emptied
    | some owner =>
      obtain ⟨pid, -, named⟩ := Option.bind_eq_some_iff.mp (congrArg Prod.fst current)
      obtain ⟨tid, isCaller, rfl⟩ := Option.map_eq_some_iff.mp named
      dsimp only
      split
      · exact invariant.current _ _ _ emptied
      · next exited =>
          obtain ⟨process, changed, slot, owns, exchanges⟩ :=
            ProcessTable.exchanges_markThreadExited exited
          exact invariant.exchange emptied (lives.owner tid process isCaller owns) exchanges

/-- A system call keeps the invariant. -/
theorem serveThread (call : ThreadCall) :
    holds (kernel.serveThread env call).table := by
  cases call with
  | create entry stackPtr stackLen =>
    unfold Kernel.serveThread createUserThread
    dsimp only
    have checks := @checkThread_owned kernel stackPtr env entry stackLen
    split
    · exact held
    · exact held
    · next stackTop initialRsp pid isChecked isPid =>
        rw [isChecked] at checks
        cases checks with
        | ok owned =>
          exact invariant.create kernel pid _ _ _ _ _ held isPid (lives.process pid isPid) owned
  | spawn =>
    unfold Kernel.serveThread spawnUserThread
    dsimp only
    split
    · exact held
    · exact held
    · next pid _ isPid => exact invariant.spawn _ pid _ _ held (lives.process pid isPid)
  | exit =>
    have left := invariant.markCurrentThreadExited held lives
    unfold Kernel.serveThread exitUserThread
    dsimp only
    split
    all_goals
      next isLeft =>
        rw [isLeft] at left
        exact left
  | join frame =>
    unfold Kernel.serveThread joinUserThread
    dsimp only
    split
    · next target caller _ isCaller =>
        have joined : holds (kernel.table.joinThread kernel.ticks caller target
            (.fromSyscallFrame frame)).2 := by
          rcases ProcessTable.exchanges_joinThread with
            same | ⟨process, changed, slot, owns, exchanges⟩
          · rw [same]
            exact held
          · exact invariant.exchange held (lives.owner caller process isCaller owns) exchanges
        split
        all_goals
          next isJoined =>
            rw [isJoined] at joined
            exact joined
    · exact held

end CallInvariant

/-- The invariant holds along a run. -/
theorem StackInvariant.run (invariant : StackInvariant holds)
    (held : holds kernel.table)
    (actions : List StackAction) :
    holds (actions.foldl stackStep kernel).table := by
  induction actions generalizing kernel with
  | nil => exact held
  | cons action actions ih =>
    apply ih
    cases action with
    | start program loaded => exact invariant.start kernel program loaded held
    | call pid tid _ call =>
      exact invariant.serveThread (invariant.current kernel (some pid) (some tid) held)
        callerLives_nil call
    | reschedule rescheduling => exact invariant.reschedule kernel rescheduling held

/-- The process that a program becomes has its main thread only. -/
theorem get_createReservedProcess (table : ProcessTable) (program : UserProgram)
    (space : AddressSpace) :
    ∃ (process : Process) (main : Thread),
      (∀ other, (table.reserved program space).get other =
        if other = program.pid then some process else table.get other) ∧
      (table.reserved program space).privatePool = table.privatePool ∧
      process.addressSpace = space ∧ process.threads = .withMain main ∧
      main.userStackStart = some space.layout.stackStart ∧
      main.userStackTop = some space.layout.stackTop := by
  unfold ProcessTable.reserved ProcessTable.createReservedProcessWithJobMode
  dsimp only
  split_ifs
  all_goals
    exact ⟨_, _, fun _ => ProcessTable.get_putProcess, rfl, rfl, rfl, rfl, rfl⟩

/-- A process that enters the processor keeps its threads with their stacks. -/
theorem threads_startRun {process : Process}
    (found : (process.startRun now).threads.get tid = some thread) :
    ∃ old, process.threads.get tid = some old ∧ thread.SameStack old ∧
      thread.processId = old.processId := by
  have started := @ThreadStore.get_modify tid (process.threads.applyProcessState .running)
    process.threads.mainTid (Thread.startRun now) (fun _ => rfl)
  rw [ThreadStore.get_applyProcessState_of_live _ rfl] at started
  have isMain : (process.setState .running).mainTid = process.threads.mainTid :=
    ThreadStore.mainTid_applyProcessState
  unfold Process.startRun Process.modifyMainThread at found
  rw [isMain] at found
  replace found := started.symm.trans found
  split_ifs at found
  · rw [Option.map_map] at found
    obtain ⟨old, isOld, rfl⟩ := Option.map_eq_some_iff.mp found
    exact ⟨old, isOld, ⟨rfl, rfl, rfl⟩, rfl⟩
  · exact ⟨thread, found, ⟨rfl, rfl, rfl⟩, rfl⟩

/-- The process that a program becomes when it enters the processor. -/
theorem get_registered (table : ProcessTable) (now : UInt64) (program : UserProgram)
    (space : AddressSpace) :
    ∃ process : Process,
      (∀ other, (table.registered now program space).get other =
        if other = program.pid then some process else table.get other) ∧
      (table.registered now program space).privatePool = table.privatePool ∧
      process.addressSpace = space ∧
      ∀ tid thread, process.threads.get tid = some thread →
        tid = process.mainTid ∧ thread.userStackStart = some space.layout.stackStart ∧
          thread.userStackTop = some space.layout.stackTop := by
  obtain ⟨process, main, gets, pool, isSpace, isMain, start, top⟩ :=
    get_createReservedProcess table program space
  have created := (gets program.pid).trans (if_pos rfl)
  refine ⟨process.startRun now, fun other => ?_, ?_, isSpace, fun tid thread found => ?_⟩
  · rw [ProcessTable.registered, ProcessTable.get_startProcessRun created, gets]
    split_ifs <;> rfl
  · simp only [ProcessTable.registered, ProcessTable.startProcessRun, created]
    exact pool
  · obtain ⟨old, foundOld, same, -⟩ := threads_startRun found
    rw [isMain, ThreadStore.get_withMain] at foundOld
    split_ifs at foundOld with isTid
    obtain rfl := Option.some.inj foundOld
    refine ⟨?_, same.start.trans start, same.top.trans top⟩
    rw [Process.mainTid_startRun, isTid]
    exact (congrArg ThreadStore.mainTid isMain).symm

theorem stacked_startProgram
    (stacked : kernel.table.Stacked ended)
    (program : UserProgram) (loaded : LoadedProgram) :
    (kernel.startProgram program loaded true).2.table.Stacked
      (ended.filter (· ≠ program.pid)) := by
  unfold startProgram registerExec addressSpaceFor
  dsimp only
  cases taken : kernel.table.privatePool.take with
  | none =>
    dsimp only [AddressSpace.kernelSharedUser]
    obtain ⟨process, gets, pool, space, -⟩ := get_registered kernel.table kernel.ticks program
      (.kernelSharedUser loaded.entry
        { memoryLayoutForPidWithProgramSize program.pid loaded.imageLen with
          stackTop := firstUserStackTop
          stackStart := firstUserStackTop - userStackSize })
    exact stacked.startShared (congrArg AddressSpace.p4Frame space) gets pool
  | some given =>
    obtain ⟨root, rest⟩ := given
    dsimp only [AddressSpace.verifiedPreparedUser]
    obtain ⟨index, area, isTop, isStart⟩ := memoryLayout_spec program.pid loaded.imageLen
    generalize memoryLayoutForPidWithProgramSize program.pid loaded.imageLen = layout at *
    obtain ⟨process, gets, pool, space, threads⟩ := get_registered
      { kernel.table with privatePool := rest } kernel.ticks program
      (.verifiedPreparedUser loaded.entry layout root)
    refine stacked.start taken (congrArg AddressSpace.p4Frame space) ?_ index ?_ ?_ gets ?_
    · rw [space]
      exact area
    · rw [space]
      exact isTop
    · intro tid thread found
      rw [← isStart, ← isTop]
      exact threads tid thread found
    · rw [space]
      exact congrArg (fun pool : PrivateP4Pool => pool.markStackSlot root layout.stackTop) pool

theorem found_of_reschedule
    (found : (kernel.reschedule rescheduling).table.get pid = some changed) :
    ∃ process, kernel.table.get pid = some process ∧ process.setThreads (process.threads.modifyAll
      (rescheduling.change process.pid) (rescheduling.keepsTid process.pid)) = changed :=
  Option.map_eq_some_iff.mp
    ((KeyedStore.get_modifyAll _ _ (by exact fun _ => rfl)).symm.trans found)

/-- Rescheduling leaves the stacks of each process. -/
theorem keepsStacks_reschedule
    (found : (kernel.reschedule rescheduling).table.get pid = some changed) :
    ∃ process, kernel.table.get pid = some process ∧ process.KeepsStacks changed := by
  obtain ⟨process, isFound, rfl⟩ := found_of_reschedule found
  refine ⟨process, isFound, rfl, fun tid thread isThread => ?_⟩
  have threads := (@ThreadStore.get_modifyAll _ _ _ _).symm.trans isThread
  obtain ⟨old, isOld, rfl⟩ := Option.map_eq_some_iff.mp threads
  exact .inr ⟨old, isOld, rescheduling.keepsStack process.pid old⟩

theorem stacked_reschedule
    (stacked : kernel.table.Stacked ended)
    (rescheduling : Rescheduling) :
    (kernel.reschedule rescheduling).table.Stacked ended := by
  refine ⟨fun pid changed root lives found isRoot => ?_,
    fun first second left right root firstLives secondLives foundLeft foundRight leftRoot
      rightRoot => ?_,
    stacked.distinct, stacked.sized⟩
  · obtain ⟨process, isFound, keeps⟩ := keepsStacks_reschedule found
    obtain ⟨marks, isMarks, isStacked⟩ :=
      stacked.processes pid process root lives isFound (keeps.space ▸ isRoot)
    exact ⟨marks, isMarks, isStacked.keep keeps⟩
  · obtain ⟨leftOld, isLeft, leftKeeps⟩ := keepsStacks_reschedule foundLeft
    obtain ⟨rightOld, isRight, rightKeeps⟩ := keepsStacks_reschedule foundRight
    exact stacked.separate first second leftOld rightOld root firstLives secondLives isLeft isRight
      (leftKeeps.space ▸ leftRoot) (rightKeeps.space ▸ rightRoot)

/-- A process ends. -/
theorem stacked_exitProcess
    (stacked : kernel.table.Stacked ended)
    (lives : pid ∉ ended)
    (status : UInt64) :
    (kernel.exitProcess pid status).table.Stacked (pid :: ended) := by
  have gets : ∀ other, other ≠ pid →
      (kernel.table.markExited kernel.ticks pid status).get other = kernel.table.get other := by
    intro other differ
    cases found : kernel.table.get pid with
    | none => simp [ProcessTable.markExited, found]
    | some process => rw [ProcessTable.get_markExited found, if_neg differ]
  have pool : (kernel.table.markExited kernel.ticks pid status).privatePool =
      kernel.table.privatePool := by
    unfold ProcessTable.markExited ProcessTable.stopProcessRun
    dsimp only
    split
    · split_ifs <;> rfl
    · rfl
  unfold exitProcess
  cases isRoot : kernel.table.p4FrameFor pid with
  | none =>
    refine stacked.finish lives gets (pool ▸ .refl) fun other _ => ?_
    exact congrArg (PrivateP4Pool.marksOf · other) pool
  | some root =>
    obtain ⟨roots, others⟩ := kernel.table.privatePool.release_spec root
    refine stacked.finish lives gets ?_ fun other differ => ?_
    · exact pool ▸ roots
    · exact (congrArg (fun pool => (pool.release root).marksOf other) pool).trans
        (others other fun same => differ (same ▸ isRoot))

/-- No process has page tables of its own yet. -/
theorem stacked_boot (images : List UserlandImage) (distinct : (bootPool frames).roots.Nodup) :
    (boot images frames).table.Stacked [] := by
  have noRoot : ∀ pid process, (boot images frames).table.get pid = some process →
      process.addressSpace.p4Frame = none := fun pid process found =>
    ((atBoot_boot images frames).kernelTask (ProcessTable.card_of_get found)).2.root
  have pool : (boot images frames).table.privatePool = bootPool frames := by
    obtain ⟨next, isTable⟩ := boot_table images frames
    rw [isTable]
  refine ⟨fun pid process root _ found isRoot => ?_,
    fun first second left right root _ _ isLeft isRight leftRoot rightRoot => ?_, ?_, ?_⟩
  · rw [noRoot pid process found] at isRoot
    cases isRoot
  · rw [noRoot first left isLeft] at leftRoot
    cases leftRoot
  · rw [pool]
    exact distinct
  · rw [pool]
    intro slot listed
    obtain ⟨frame, -, rfl⟩ := List.mem_map.mp listed
    exact List.length_replicate

/-- The calls keep the stacks placed. -/
theorem callInvariant_stacked : CallInvariant (fun table => table.Stacked ended) ended where
  current _ _ _ stacked := stacked.of_same (fun _ => rfl) rfl
  create kernel _ _ _ _ _ _ stacked isPid lives owned := by
    refine stacked.createUserThread lives fun process found available area =>
      inProgramArea_of_owned ?_ owned available area
    rw [currentProcess, isPid]
    exact found
  spawn _ _ _ _ stacked lives := stacked.createManagedUserThread lives
  exchange := .exchange

theorem stackInvariant_stacked : StackInvariant fun table => table.Stacked [] where
  toCallInvariant := callInvariant_stacked
  start _ program loaded stacked := stacked_startProgram stacked program loaded
  reschedule _ rescheduling stacked := stacked_reschedule stacked rescheduling

/-- A step keeps the stacks of the processes placed that have not ended. -/
theorem stacked_lifeStep (stacked : state.1.table.Stacked state.2) (action : LifeAction) :
    (lifeStep state action).1.table.Stacked (lifeStep state action).2 := by
  obtain ⟨kernel, ended⟩ := state
  cases action with
  | run action =>
    cases action with
    | start program loaded => exact stacked_startProgram stacked program loaded
    | call _ _ _ call =>
      simp only [lifeStep]
      split_ifs with gone
      · exact stacked
      · obtain ⟨lives, owners⟩ := not_or.mp gone
        refine callInvariant_stacked.serveThread (callInvariant_stacked.current _ _ _ stacked)
          ⟨?_, ?_⟩ call
        · rintro _ ⟨⟩
          exact lives
        · rintro _ process ⟨⟩ owns isEnded
          exact owners ⟨process, owns, isEnded⟩
    | reschedule rescheduling => exact stacked_reschedule stacked rescheduling
  | finish _ status =>
    simp only [lifeStep]
    split_ifs with gone
    · exact stacked
    · exact stacked_exitProcess stacked gone status

theorem stacked_life (stacked : state.1.table.Stacked state.2) (actions : List LifeAction) :
    (actions.foldl lifeStep state).1.table.Stacked (actions.foldl lifeStep state).2 := by
  induction actions generalizing state with
  | nil => exact stacked
  | cons action actions ih => exact ih (stacked_lifeStep stacked action)

/-- Programs are started, threads created, ended and joined and processes ended in any order:
the stacks of a process with its own page tables that has not ended have nothing in common,
neither with each other nor with a slot that is not marked. -/
theorem thread_stacks_disjoint
    {images : List UserlandImage} {frames : List UInt64}
    (distinct : (bootPool frames).roots.Nodup)
    (actions : List LifeAction)
    {kernel : Kernel} {ended : List Pid}
    (reached : actions.foldl lifeStep (boot images frames, []) = (kernel, ended))
    {process : Process} {root : UInt64}
    (listed : process ∈ kernel.table.values)
    (lives : process.pid ∉ ended)
    (isRoot : process.addressSpace.p4Frame = some root) :
    (∀ first ∈ process.threads.values, ∀ second ∈ process.threads.values,
      first.tid ≠ second.tid →
      ∀ left right, first.stackRange = some left → second.stackRange = some right →
        Apart left right) ∧
    ∀ slot ∈ kernel.table.privatePool.slots,
      slot.p4Frame = root → ∀ index : Fin 8, slot.stackInUse[index.val]? = some false →
      ∀ thread ∈ process.threads.values, ∀ range, thread.stackRange = some range →
        Apart range (stackRangeForSlot index) := by
  have stacked := @stacked_life (boot images frames, []) (stacked_boot images distinct) actions
  rw [reached] at stacked
  obtain ⟨marks, isMarks, isStacked⟩ := stacked.processes process.pid process root lives
    (KeyedStore.get_of_mem listed) isRoot
  constructor
  · intro first isFirst second isSecond differ left right isLeft isRight
    exact isStacked.apart first.tid second.tid first second left right differ
      (mem_values_iff.mp isFirst) (mem_values_iff.mp isSecond)
      isLeft isRight
  · intro slot isSlot sameRoot index free thread isThread range isRange
    refine (isStacked.placed thread.tid thread range (mem_values_iff.mp isThread)
      isRange).apart_free index ?_
    rw [stacked.marks_of_mem isMarks isSlot sameRoot, free]
    decide

namespace Sample

/-- A machine with one private page table. -/
def stackMachine : Kernel := boot [⟨"init"⟩] [0x1000]

/-- A program is started and gets a second thread on a reserved stack and a third on a
stack of its own; the second ends and is joined, and a fourth is created. -/
def stackActions (main : Tid) : List StackAction :=
  [.start ⟨1, none, "init", "/bin/init", .empty, .foreground⟩ ⟨0x1000000, 0x8000⟩,
    .call 1 main env (.spawn 0x1000100 0),
    .call 1 main env (.create 0x1000100 0x1004000 0x1000 0),
    .call 1 (main + 1) env .exit,
    .call 1 main env (.join (frame 31 (main + 1).toUInt64 0 0 0)),
    .call 1 main env (.spawn 0x1000100 0)]

/-- The page tables are those of a program that has ended. -/
def lifeActions : List LifeAction :=
  .run (.start ⟨2, none, "init", "/bin/init", .empty, .foreground⟩ ⟨0x1000000, 0x8000⟩) ::
    .finish 2 0 :: (stackActions 5).map .run

def stackRun : Kernel × List Pid := lifeActions.foldl lifeStep (stackMachine, [])

def stackProcess : Process := (stackRun.1.table.get 1).get (by decide +kernel)

end Sample

/-- The fourth thread has the stack of the second, which has been reaped. -/
theorem thread_stacks_disjoint_recycled :
    (Sample.stackProcess.threads.values.map fun thread => (thread.tid, thread.stackRange)) =
        [(5, some (0x13fc000, 0x1400000)), (6, none), (7, some (0x1004000, 0x1005000)),
          (8, some (0x13f7000, 0x13fb000))] ∧
      (Sample.stackRun.1.table.p4FrameFor 2, Sample.stackRun.2) = (some 0x1000, [2]) ∧
      (∀ first ∈ Sample.stackProcess.threads.values,
        ∀ second ∈ Sample.stackProcess.threads.values, first.tid ≠ second.tid →
        ∀ left right, first.stackRange = some left → second.stackRange = some right →
          Apart left right) ∧
      ∀ slot ∈ Sample.stackRun.1.table.privatePool.slots,
        slot.p4Frame = 0x1000 → ∀ index : Fin 8, slot.stackInUse[index.val]? = some false →
        ∀ thread ∈ Sample.stackProcess.threads.values, ∀ range,
          thread.stackRange = some range → Apart range (stackRangeForSlot index) := by
  have found : Sample.stackRun.1.table.get 1 = some Sample.stackProcess :=
    (Option.some_get _).symm
  exact ⟨by decide +kernel, by decide +kernel, @thread_stacks_disjoint [⟨"init"⟩] [0x1000]
    (by decide +kernel) Sample.lifeActions _ _ rfl _ _ (KeyedStore.mem_of_get found)
    (by decide +kernel) (by decide +kernel)⟩

end Kernel

end Vantara
