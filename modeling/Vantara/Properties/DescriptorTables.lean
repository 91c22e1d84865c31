import Vantara.Ledger.Accounts
import Vantara.Runtime

/-!
# The tables of descriptors and pipes

Descriptors and pipes live in two tables that refer to each other: a pipe counts
the descriptors of its ends, and a descriptor of an end names its pipe.  A pipe
is known by a number, and numbers are drawn from a counter that wraps around.
-/

namespace Vantara

open Foundation

namespace Ipc

variable {ipc : Ipc} {pipes : List (Option Pipe)} {readers writers : UInt64 → Nat}
  {owner pid : Pid}

/-- Every descriptor has its own number, every end of a pipe its pipe, and every pipe
exactly the descriptors it counts. -/
structure Consistent (ipc : Ipc) : Prop where
  unique : ∀ pid fd, ipc.openFiles.countP (Option.any (isDescriptor pid fd)) ≤ 1
  numbered : ∀ file, some file ∈ ipc.openFiles → 3 ≤ file.fd ∧ file.fd < 19
  named : ∀ file pipeId, some file ∈ ipc.openFiles →
    file.descriptor = .pipeRead pipeId ∨ file.descriptor = .pipeWrite pipeId →
      ∃ pipe, some pipe ∈ ipc.pipes ∧ pipe.id = pipeId ∧ pipe.ownerPid = file.pid
  counted : ∀ pipe, some pipe ∈ ipc.pipes →
    pipe.readers = ipc.openFiles.countP
      (Option.any fun file => decide (file.descriptor = .pipeRead pipe.id)) ∧
    pipe.writers = ipc.openFiles.countP
      (Option.any fun file => decide (file.descriptor = .pipeWrite pipe.id)) ∧
    ¬(pipe.readers = 0 ∧ pipe.writers = 0)

/-! ## Slots -/

/-- What was in the table stays in it, and the added value is in it. -/
theorem mem_of_occupy
    (occupied : occupy added slots = some extended)
    (listed : some value ∈ slots ∨ value = added) :
    some value ∈ extended := by
  obtain ⟨front, back, isSlots, isExtended⟩ := occupy_split occupied
  rw [isSlots] at listed
  rw [isExtended]
  rcases listed with old | rfl
  · simp only [List.mem_append, List.mem_cons, reduceCtorEq, false_or] at old
    rcases old with inFront | inBack
    · exact List.mem_append_left _ inFront
    · exact List.mem_append_right _ (List.mem_cons_of_mem _ inBack)
  · exact List.mem_append_right _ List.mem_cons_self

theorem mem_setSlot_of_fails (listed : some other ∈ slots) (fails : test other = false) :
    some other ∈ setSlot test slot slots := by
  unfold setSlot
  cases found : slots.find? (Option.any test) with
  | none => rwa [modifyFirst_of_none found]
  | some first =>
    obtain ⟨front, back, isSplit, changed⟩ : ∃ front back, slots = front ++ first :: back ∧
        modifyFirst (Option.any test) (fun _ => slot) slots = front ++ slot :: back :=
      modifyFirst_of_find found
    have differ : some other ≠ first := by
      rintro rfl
      have passes := List.find?_some found
      simp [fails] at passes
    rw [changed]
    rw [isSplit] at listed
    simp only [List.mem_append, List.mem_cons, differ, false_or] at listed ⊢
    exact listed.imp_right .inr

theorem mem_setSlot_self (found : findSlot test slots = some value) :
    slot ∈ setSlot test slot slots := by
  obtain ⟨front, back, -, changed⟩ : ∃ front back, slots = front ++ some value :: back ∧
      setSlot test slot slots = front ++ slot :: back :=
    modifyFirst_of_find (find_of_findSlot found)
  rw [changed]
  exact List.mem_append_right _ List.mem_cons_self

/-- Two values that pass a test that at most one slot passes. -/
theorem eq_of_countP_le_one {slots : List (Option α)}
    (unique : slots.countP (Option.any test) ≤ 1)
    (left : some first ∈ slots)
    (right : some second ∈ slots)
    (passesLeft : test first = true)
    (passesRight : test second = true) :
    first = second := by
  rw [List.countP_eq_length_filter] at unique
  have inLeft : some first ∈ slots.filter (Option.any test) := by simp [left, passesLeft]
  have inRight : some second ∈ slots.filter (Option.any test) := by simp [right, passesRight]
  obtain ⟨value, isSingle⟩ := List.length_eq_one_iff.mp
    (le_antisymm unique (List.length_pos_of_mem inLeft))
  rw [isSingle, List.mem_singleton] at inLeft inRight
  exact Option.some.inj (inLeft.trans inRight.symm)

theorem countP_dropSlots_le (counts : α → Bool) :
    (dropSlots test slots).countP (Option.any counts) ≤ slots.countP (Option.any counts) := by
  unfold dropSlots
  rw [List.countP_map]
  refine List.countP_mono_left fun slot _ => ?_
  simp only [Function.comp_apply]
  split_ifs
  · simp
  · exact id

/-! ## The numbers of descriptors -/

/-- A number that is handed out is in range, permitted and free. -/
theorem nextFdForPidExcluding_spec (chosen : nextFdForPidExcluding files pid excluded = some fd) :
    (3 ≤ fd ∧ fd < 19) ∧ excluded ≠ some fd ∧
      files.countP (Option.any (isDescriptor pid fd)) = 0 := by
  have free := List.find?_some chosen
  simp only [Bool.not_eq_true', Bool.or_eq_false_iff, decide_eq_false_iff_not] at free
  refine ⟨?_, free.1, ?_⟩
  · obtain ⟨offset, inRange, rfl⟩ := List.mem_map.mp (List.mem_of_find?_eq_some chosen)
    rw [List.mem_range] at inRange
    have number : (UInt64.ofNat (firstUserFd + offset)).toNat = 3 + offset := by
      rw [UInt64.toNat_ofNat', firstUserFd]
      omega
    refine ⟨UInt64.le_iff_toNat_le.mpr ?_, UInt64.lt_iff_toNat_lt.mpr ?_⟩
    · rw [number]
      exact Nat.le_add_right 3 offset
    · rw [number]
      exact Nat.add_lt_add_left inRange 3
  · refine List.countP_eq_zero.mpr fun slot slotMem passes => ?_
    exact Bool.eq_false_iff.mp free.2 (List.any_eq_true.mpr ⟨slot, slotMem, passes⟩)

/-! ## Closing an end of a pipe -/

/-- The descriptor names the pipe. -/
def Names (file : OpenFile) (pipeId : UInt64) : Prop :=
  file.descriptor = .pipeRead pipeId ∨ file.descriptor = .pipeWrite pipeId

/-- Closing a descriptor changes at most the pipe it names, which loses one end. -/
theorem closeDescriptor_cases (ipc : Ipc) (pid : Pid) (file : OpenFile) :
    (ipc.closeDescriptor pid file).pipes = ipc.pipes ∨
      ∃ pipeId pipe changed,
        Names file pipeId ∧ findSlot (isPipe pid pipeId) ipc.pipes = some pipe ∧
        (changed.id = pipe.id ∧ changed.ownerPid = pipe.ownerPid) ∧
        pipe.readers + pipe.writers ≤ changed.readers + changed.writers + 1 ∧
        (ipc.closeDescriptor pid file).pipes = setSlot (isPipe pid pipeId)
          (if changed.readers = 0 ∧ changed.writers = 0 then none else some changed)
          ipc.pipes := by
  unfold closeDescriptor
  cases descriptor : file.descriptor with
  | file | directory => exact .inl rfl
  | pipeRead pipeId =>
    dsimp only
    split
    · exact .inl rfl
    · next pipe found =>
        refine .inr ⟨pipeId, pipe, { pipe with readers := pipe.readers - 1 }, .inl descriptor,
          found, ⟨rfl, rfl⟩, ?_, rfl⟩
        dsimp only
        omega
  | pipeWrite pipeId =>
    dsimp only
    split
    · exact .inl rfl
    · next pipe found =>
        refine .inr ⟨pipeId, pipe, { pipe with writers := pipe.writers - 1 }, .inr descriptor,
          found, ⟨rfl, rfl⟩, ?_, rfl⟩
        dsimp only
        omega

/-- A pipe is given up only with its last descriptor. -/
theorem mem_closeDescriptor {file : OpenFile} (listed : some pipe ∈ ipc.pipes) :
    (∃ kept, some kept ∈ (ipc.closeDescriptor pid file).pipes ∧ kept.id = pipe.id ∧
        kept.ownerPid = pipe.ownerPid) ∨
      pipe.ownerPid = pid ∧ Names file pipe.id ∧
        ∃ last, some last ∈ ipc.pipes ∧ last.id = pipe.id ∧ last.ownerPid = pid ∧
          last.readers + last.writers ≤ 1 := by
  rcases closeDescriptor_cases ipc pid file with same | ⟨pipeId, last, changed, names, found,
    ⟨sameId, sameOwner⟩, loses, isSet⟩
  · exact .inl ⟨pipe, same ▸ listed, rfl, rfl⟩
  obtain ⟨lastListed, isOwn⟩ := mem_of_findSlot found
  simp only [isPipe, Bool.and_eq_true, decide_eq_true_eq] at isOwn
  rw [isSet]
  cases isNamed : isPipe pid pipeId pipe with
  | false => exact .inl ⟨pipe, mem_setSlot_of_fails listed isNamed, rfl, rfl⟩
  | true =>
    simp only [isPipe, Bool.and_eq_true, decide_eq_true_eq] at isNamed
    obtain ⟨rfl, isOwner⟩ := isNamed
    split_ifs with unused
    · exact .inr ⟨isOwner, names, last, lastListed, isOwn.1, isOwn.2, by omega⟩
    · exact .inl ⟨changed, mem_setSlot_self found, sameId.trans isOwn.1,
        sameOwner.trans (isOwn.2.trans isOwner.symm)⟩

/-- A pipe with a number. -/
def hasId (pipeId : UInt64) (pipe : Pipe) : Bool := decide (pipe.id = pipeId)

/-- A pipe is changed without a new number. -/
theorem countP_setSlot_hasId_le
    (found : findSlot test pipes = some pipe)
    (keeps : ∀ changed, slot = some changed → changed.id = pipe.id) :
    (setSlot test slot pipes).countP (Option.any (hasId pipeId)) ≤
      pipes.countP (Option.any (hasId pipeId)) := by
  have counted := @countP_setSlot _ _ _ slot _ (hasId pipeId) found
  cases isSlot : slot with
  | none =>
    rw [isSlot] at counted
    simp only [Option.any_none, Bool.false_eq_true, if_false] at counted
    omega
  | some changed =>
    rw [isSlot] at counted
    have same : hasId pipeId changed = hasId pipeId pipe := by
      simp [hasId, keeps changed isSlot]
    rw [Option.any_some, same] at counted
    omega

theorem countP_closeDescriptor_hasId_le :
    (ipc.closeDescriptor pid file).pipes.countP (Option.any (hasId pipeId)) ≤
      ipc.pipes.countP (Option.any (hasId pipeId)) := by
  rcases closeDescriptor_cases ipc pid file with same | ⟨_, last, changed, -, found,
    ⟨sameId, -⟩, -, isSet⟩
  · rw [same]
  · rw [isSet]
    refine countP_setSlot_hasId_le found fun slot isSlot => ?_
    split_ifs at isSlot
    cases isSlot
    exact sameId

/-! ## The invariant -/

/-- The tables fit together, and the numbers of pipes are distinct. -/
structure Tidy (ipc : Ipc) : Prop where
  unique : ∀ pid fd, ipc.openFiles.countP (Option.any (isDescriptor pid fd)) ≤ 1
  numbered : ∀ file, some file ∈ ipc.openFiles → 3 ≤ file.fd ∧ file.fd < 19
  distinct : ∀ pipeId, ipc.pipes.countP (Option.any (hasId pipeId)) ≤ 1
  named : ∀ file pipeId, some file ∈ ipc.openFiles → Names file pipeId →
    ∃ pipe, some pipe ∈ ipc.pipes ∧ pipe.id = pipeId ∧ pipe.ownerPid = file.pid
  accounts : ipc.Accounts

theorem tidy_new : Tidy .new where
  unique := by simp [new]
  numbered := by simp [new]
  distinct := by simp [new]
  named := by simp [new]
  accounts := by
    intro owner
    exact ⟨by simp [new], by simp [new]⟩

/-- With distinct numbers, the descriptors that name a pipe are those of its owner. -/
theorem Tidy.consistent (tidy : ipc.Tidy) : ipc.Consistent := by
  refine ⟨tidy.unique, tidy.numbered, tidy.named, fun pipe listed => ?_⟩
  have owned : ∀ file, some file ∈ ipc.openFiles → Names file pipe.id →
      file.pid = pipe.ownerPid := by
    intro file inFiles names
    obtain ⟨other, otherListed, sameId, isOwner⟩ := tidy.named file pipe.id inFiles names
    have same : other = pipe := eq_of_countP_le_one (tidy.distinct pipe.id) otherListed listed
      (by simp [hasId, sameId]) (by simp [hasId])
    rw [← isOwner, same]
  have reads : ipc.openFiles.countP
      (Option.any fun file => decide (file.descriptor = .pipeRead pipe.id)) =
        ipc.openFiles.countP (Option.any (readsFrom pipe.ownerPid pipe.id)) := by
    refine List.countP_congr fun slot inFiles => ?_
    cases slot with
    | none => simp
    | some file => simpa [readsFrom] using fun isRead => owned file inFiles (.inl isRead)
  have writes : ipc.openFiles.countP
      (Option.any fun file => decide (file.descriptor = .pipeWrite pipe.id)) =
        ipc.openFiles.countP (Option.any (writesTo pipe.ownerPid pipe.id)) := by
    refine List.countP_congr fun slot inFiles => ?_
    cases slot with
    | none => simp
    | some file => simpa [writesTo] using fun isWrite => owned file inFiles (.inr isWrite)
  rw [reads, writes]
  exact (tidy.accounts pipe.ownerPid).counted listed rfl

/-- A descriptor gets a number of its own. -/
theorem Tidy.unique_occupy
    (unique : ∀ pid fd, files.countP (Option.any (isDescriptor pid fd)) ≤ 1)
    (free : files.countP (Option.any (isDescriptor added.pid added.fd)) = 0)
    (occupied : occupy added files = some extended)
    (pid : Pid) (fd : UInt64) :
    extended.countP (Option.any (isDescriptor pid fd)) ≤ 1 := by
  rw [countP_occupy _ occupied]
  split_ifs with isOwn
  · simp only [isDescriptor, Bool.and_eq_true, decide_eq_true_eq] at isOwn
    rw [← isOwn.1, ← isOwn.2, free]
  · exact unique pid fd

theorem Tidy.openDescriptor
    (tidy : ipc.Tidy)
    (isPlain : plain descriptor = true)
    (opened : ipc.openDescriptor pid descriptor = some (fd, after)) :
    after.Tidy := by
  have accounts := tidy.accounts.openDescriptor isPlain opened
  obtain ⟨fd, chosen, rest⟩ := Option.bind_eq_some_iff.mp opened
  obtain ⟨files, occupied, ⟨⟩⟩ := Option.bind_eq_some_iff.mp rest
  obtain ⟨inRange, -, free⟩ := nextFdForPidExcluding_spec chosen
  refine ⟨Tidy.unique_occupy tidy.unique free occupied, fun file listed => ?_, tidy.distinct,
    fun file pipeId listed names => ?_, accounts⟩
  · rcases mem_occupy occupied listed with old | rfl
    · exact tidy.numbered file old
    · exact inRange
  · rcases mem_occupy occupied listed with old | rfl
    · exact tidy.named file pipeId old names
    · rcases names with isRead | isWrite
      · cases isRead
        cases isPlain
      · cases isWrite
        cases isPlain

theorem Tidy.setDescriptor
    (tidy : ipc.Tidy)
    (found : findSlot (isDescriptor pid fd) ipc.openFiles = some file)
    (wasPlain : plain file.descriptor = true)
    (isPlain : plain descriptor = true) :
    (Kernel.setDescriptor ipc file descriptor).Tidy := by
  have accounts := tidy.accounts.setDescriptor found wasPlain isPlain
  obtain ⟨listed, isOwn⟩ := mem_of_findSlot found
  simp only [isDescriptor, Bool.and_eq_true, decide_eq_true_eq] at isOwn
  obtain ⟨rfl, rfl⟩ := isOwn
  refine ⟨fun pid fd => ?_, fun other inFiles => ?_, tidy.distinct,
    fun other pipeId inFiles names => ?_, accounts⟩
  · have counted := @countP_setSlot _ _ _ (some { file with descriptor := descriptor }) _
      (isDescriptor pid fd) found
    have before := tidy.unique pid fd
    exact (Nat.add_right_cancel counted).le.trans before
  · rcases mem_setSlot inFiles with old | isSlot
    · exact tidy.numbered other old
    · cases isSlot
      exact tidy.numbered file listed
  · rcases mem_setSlot inFiles with old | isSlot
    · exact tidy.named other pipeId old names
    · cases isSlot
      rcases names with isRead | isWrite
      · cases isRead
        cases isPlain
      · cases isWrite
        cases isPlain

theorem Tidy.setPipe
    (tidy : ipc.Tidy)
    (found : findSlot (isPipe pid pipeId) ipc.pipes = some pipe)
    (sameEnds : pipe.SameEnds changed) :
    Tidy { ipc with pipes := setSlot (isPipe pid pipeId) (some changed) ipc.pipes } := by
  obtain ⟨listed, isOwn⟩ := mem_of_findSlot found
  simp only [isPipe, Bool.and_eq_true, decide_eq_true_eq] at isOwn
  refine ⟨tidy.unique, tidy.numbered, fun other => ?_, fun file other inFiles names => ?_,
    tidy.accounts.setPipe found sameEnds⟩
  · refine (countP_setSlot_hasId_le found ?_).trans (tidy.distinct other)
    rintro _ ⟨⟩
    exact sameEnds.1
  · obtain ⟨named, namedListed, isId, isOwner⟩ := tidy.named file other inFiles names
    cases isPipeOf : isPipe pid pipeId named with
    | false => exact ⟨named, mem_setSlot_of_fails namedListed isPipeOf, isId, isOwner⟩
    | true =>
      simp only [isPipe, Bool.and_eq_true, decide_eq_true_eq] at isPipeOf
      refine ⟨changed, mem_setSlot_self found, ?_, ?_⟩
      · rw [sameEnds.1, isOwn.1, ← isPipeOf.1, isId]
      · rw [sameEnds.2.1, isOwn.2, ← isPipeOf.2, isOwner]

/-- A descriptor that names a pipe is among those its owner counts. -/
theorem names_counted {files : List (Option OpenFile)}
    (listed : some file ∈ files)
    (names : Names file pipeId) :
    1 ≤ files.countP (Option.any (readsFrom file.pid pipeId)) +
      files.countP (Option.any (writesTo file.pid pipeId)) := by
  rcases names with isRead | isWrite
  · have counted : 0 < files.countP (Option.any (readsFrom file.pid pipeId)) :=
      List.countP_pos_iff.mpr ⟨some file, listed, by simp [readsFrom, isRead]⟩
    omega
  · have counted : 0 < files.countP (Option.any (writesTo file.pid pipeId)) :=
      List.countP_pos_iff.mpr ⟨some file, listed, by simp [writesTo, isWrite]⟩
    omega

/-- The closed descriptor was one of those counted. -/
theorem countP_close {files : List (Option OpenFile)}
    (found : findSlot test files = some file)
    (names : Names file pipeId) :
    files.countP (Option.any (readsFrom file.pid pipeId)) +
        files.countP (Option.any (writesTo file.pid pipeId)) =
      (setSlot test none files).countP (Option.any (readsFrom file.pid pipeId)) +
        (setSlot test none files).countP (Option.any (writesTo file.pid pipeId)) + 1 := by
  have reads := @countP_setSlot _ _ _ none _ (readsFrom file.pid pipeId) found
  have writes := @countP_setSlot _ _ _ none _ (writesTo file.pid pipeId) found
  rcases names with isRead | isWrite
  · simp only [readsFrom, writesTo, isRead, decide_true, Bool.and_self, if_true, reduceCtorEq,
      decide_false, Bool.and_false, Bool.false_eq_true, if_false, Option.any_none] at reads writes ⊢
    omega
  · simp only [readsFrom, writesTo, isWrite, decide_true, Bool.and_self, if_true, reduceCtorEq,
      decide_false, Bool.and_false, Bool.false_eq_true, if_false, Option.any_none] at reads writes ⊢
    omega

theorem Tidy.closeFdForPid (tidy : ipc.Tidy) (closed : ipc.closeFdForPid pid fd = .ok after) :
    after.Tidy := by
  have accounts := tidy.accounts.closeFdForPid closed
  unfold Ipc.closeFdForPid at closed
  split at closed
  · cases closed
  next file found =>
  cases closed
  obtain ⟨fileListed, isOwn⟩ := mem_of_findSlot found
  simp only [isDescriptor, Bool.and_eq_true, decide_eq_true_eq] at isOwn
  obtain ⟨rfl, rfl⟩ := isOwn
  have remains : ∀ {other}, some other ∈ setSlot (isDescriptor file.pid file.fd) none
      ipc.openFiles → some other ∈ ipc.openFiles :=
    fun listed => (mem_setSlot listed).resolve_right (by simp)
  rw [closeDescriptor_eq] at accounts ⊢
  refine ⟨fun pid fd => ?_, fun other listed => tidy.numbered other (remains listed),
    fun pipeId => countP_closeDescriptor_hasId_le.trans (tidy.distinct pipeId),
    fun other pipeId listed names => ?_, accounts⟩
  · have counted := @countP_setSlot _ _ _ none _ (isDescriptor pid fd) found
    have before := tidy.unique pid fd
    simp only [Option.any_none, Bool.false_eq_true, if_false] at counted
    dsimp only
    omega
  · obtain ⟨pipe, pipeListed, rfl, isOwner⟩ := tidy.named other pipeId (remains listed) names
    have closes := @mem_closeDescriptor
      { ipc with openFiles := setSlot (isDescriptor file.pid file.fd) none ipc.openFiles }
      file.pid pipe file pipeListed
    rcases closes with ⟨kept, keptListed, sameId, sameOwner⟩ | ⟨sameOwner, namesToo, last,
      lastListed, isId, lastOwner, few⟩
    · exact ⟨kept, keptListed, sameId, sameOwner.trans isOwner⟩
    · -- The pipe counted both the closed descriptor and the one that still names it.
      exfalso
      have samePid : other.pid = file.pid := isOwner.symm.trans sameOwner
      obtain ⟨isReaders, isWriters, -⟩ :=
        (tidy.accounts file.pid).counted lastListed lastOwner
      rw [isId] at isReaders isWriters
      have remaining := names_counted listed names
      have closing := countP_close found namesToo
      dsimp only at remaining
      rw [samePid] at remaining
      omega

/-- Pipes of other processes stay when a process closes its descriptors. -/
theorem mem_closeAll {files : List OpenFile}
    (listed : some pipe ∈ ipc.pipes)
    (foreign : pipe.ownerPid ≠ pid) :
    ∃ kept, some kept ∈
        (files.foldl (fun ipc file => ipc.closeDescriptor pid file) ipc).pipes ∧
      kept.id = pipe.id ∧ kept.ownerPid = pipe.ownerPid := by
  induction files generalizing ipc pipe with
  | nil => exact ⟨pipe, listed, rfl, rfl⟩
  | cons file rest ih =>
    rcases @mem_closeDescriptor _ pid _ file listed with ⟨kept, keptListed, sameId, sameOwner⟩ |
      ⟨own, -⟩
    · obtain ⟨last, lastListed, lastId, lastOwner⟩ :=
        ih keptListed (sameOwner ▸ foreign)
      exact ⟨last, lastListed, lastId.trans sameId, lastOwner.trans sameOwner⟩
    · exact absurd own foreign

theorem countP_closeAll_hasId_le (files : List OpenFile) :
    (files.foldl (fun ipc file => ipc.closeDescriptor pid file) ipc).pipes.countP
        (Option.any (hasId pipeId)) ≤
      ipc.pipes.countP (Option.any (hasId pipeId)) := by
  induction files generalizing ipc with
  | nil => exact le_rfl
  | cons file rest ih =>
    exact ih.trans countP_closeDescriptor_hasId_le

theorem Tidy.closeProcessFiles (tidy : ipc.Tidy) : (ipc.closeProcessFiles pid).Tidy := by
  have accounts := @accounts_closeProcessFiles pid ipc tidy.accounts
  have files : (ipc.closeProcessFiles pid).openFiles =
      dropSlots (fun file => decide (file.pid = pid)) ipc.openFiles := by
    rw [closeProcessFiles_eq]
  refine ⟨fun owner fd => ?_, fun file listed => ?_, fun pipeId => ?_,
    fun file pipeId listed names => ?_, accounts⟩
  · rw [files]
    exact (countP_dropSlots_le _).trans (tidy.unique owner fd)
  · rw [files] at listed
    exact tidy.numbered file (mem_dropSlots listed)
  · exact (countP_closeAll_hasId_le (held pid ipc.openFiles)).trans (tidy.distinct pipeId)
  · rw [files] at listed
    have foreign : file.pid ≠ pid := by simpa using mem_dropSlots_fails listed
    obtain ⟨pipe, pipeListed, isId, isOwner⟩ :=
      tidy.named file pipeId (mem_dropSlots listed) names
    obtain ⟨kept, keptListed, sameId, sameOwner⟩ := @mem_closeAll
      { ipc with openFiles := dropSlots (fun file => decide (file.pid = pid)) ipc.openFiles }
      pid pipe (held pid ipc.openFiles) pipeListed (isOwner ▸ foreign)
    exact ⟨kept, keptListed, sameId.trans isId, sameOwner.trans isOwner⟩

/-- A pipe is created under a fresh number. -/
theorem Tidy.createPipe {files : List (Option OpenFile)}
    (tidy : ipc.Tidy)
    (fresh : ipc.drawsFresh = true)
    (readChosen : nextFdForPid ipc.openFiles pid = some readFd)
    (writeChosen : nextFdForPidExcluding ipc.openFiles pid (some readFd) = some writeFd)
    (opened : (occupy ⟨pid, readFd, .pipeRead ipc.nextPipeId⟩ ipc.openFiles).bind
      (occupy ⟨pid, writeFd, .pipeWrite ipc.nextPipeId⟩) = some files)
    (occupied : occupy (Pipe.new ipc.nextPipeId pid) ipc.pipes = some pipes) :
    Tidy { ipc with nextPipeId := ipc.nextPipeId + 1, pipes := pipes, openFiles := files } := by
  have accounts := tidy.accounts.createPipe fresh opened occupied
  obtain ⟨freshPipes, -⟩ := fresh_of_drawsFresh fresh
  obtain ⟨half, openedRead, openedWrite⟩ := Option.bind_eq_some_iff.mp opened
  obtain ⟨readRange, -, readFree⟩ := nextFdForPidExcluding_spec readChosen
  obtain ⟨writeRange, excluded, writeFree⟩ := nextFdForPidExcluding_spec writeChosen
  have stillFree : half.countP (Option.any (isDescriptor pid writeFd)) = 0 := by
    have differ : readFd ≠ writeFd := fun same => excluded (congrArg some same)
    rw [countP_occupy _ openedRead, writeFree]
    simp [isDescriptor, differ]
  have members : ∀ file, some file ∈ files → some file ∈ ipc.openFiles ∨
      file = ⟨pid, readFd, .pipeRead ipc.nextPipeId⟩ ∨
      file = ⟨pid, writeFd, .pipeWrite ipc.nextPipeId⟩ := by
    intro file listed
    rcases mem_occupy openedWrite listed with inHalf | isWrite
    · exact (mem_occupy openedRead inHalf).imp_right .inl
    · exact .inr (.inr isWrite)
  refine ⟨Tidy.unique_occupy (Tidy.unique_occupy tidy.unique readFree openedRead) stillFree
    openedWrite, fun file listed => ?_, fun pipeId => ?_, fun file pipeId listed names => ?_,
    accounts⟩
  · rcases members file listed with old | rfl | rfl
    · exact tidy.numbered file old
    · exact readRange
    · exact writeRange
  · dsimp only
    rw [countP_occupy _ occupied]
    split_ifs with isNew
    · have isId : ipc.nextPipeId = pipeId := of_decide_eq_true isNew
      have none : ipc.pipes.countP (Option.any (hasId pipeId)) = 0 := by
        refine List.countP_eq_zero.mpr fun slot listed => ?_
        cases slot with
        | none => simp
        | some pipe => simpa [hasId, ← isId] using freshPipes pipe listed
      rw [none]
    · exact tidy.distinct pipeId
  · have added : some (Pipe.new ipc.nextPipeId pid) ∈ pipes := mem_of_occupy occupied (.inr rfl)
    rcases members file listed with old | rfl | rfl
    · obtain ⟨pipe, pipeListed, isId, isOwner⟩ := tidy.named file pipeId old names
      exact ⟨pipe, mem_of_occupy occupied (.inl pipeListed), isId, isOwner⟩
    · refine ⟨_, added, ?_, rfl⟩
      rcases names with isRead | isWrite
      · cases isRead
        rfl
      · cases isWrite
    · refine ⟨_, added, ?_, rfl⟩
      rcases names with isRead | isWrite
      · cases isRead
      · cases isWrite
        rfl

end Ipc

namespace Kernel

variable {ipc after : Ipc}

theorem Alters.tidy (alters : Alters ipc after) (tidy : ipc.Tidy) : after.Tidy := by
  cases alters with
  | same pipes openFiles =>
    exact ⟨openFiles ▸ tidy.unique, openFiles ▸ tidy.numbered, pipes ▸ tidy.distinct,
      by rw [pipes, openFiles]; exact tidy.named, tidy.accounts.of_same pipes openFiles⟩
  | «open» isPlain opened => exact tidy.openDescriptor isPlain opened
  | move found wasPlain isPlain => exact tidy.setDescriptor found wasPlain isPlain
  | use found sameEnds => exact tidy.setPipe found sameEnds
  | close closed => exact tidy.closeFdForPid closed

/-- No number is drawn, and no pipe gets another one. -/
structure DrawsNone (ipc after : Ipc) : Prop where
  next : after.nextPipeId = ipc.nextPipeId
  ids : ∀ pipeId, after.pipes.countP (Option.any (Ipc.hasId pipeId)) ≤
    ipc.pipes.countP (Option.any (Ipc.hasId pipeId))

theorem Alters.drawsNone (alters : Alters ipc after) : DrawsNone ipc after := by
  cases alters with
  | same pipes _ next => exact ⟨next, fun _ => by rw [pipes]⟩
  | «open» _ opened =>
    obtain ⟨fd, -, rest⟩ := Option.bind_eq_some_iff.mp opened
    obtain ⟨files, -, ⟨⟩⟩ := Option.bind_eq_some_iff.mp rest
    exact ⟨rfl, fun _ => le_rfl⟩
  | move => exact ⟨rfl, fun _ => le_rfl⟩
  | use found sameEnds =>
    refine ⟨rfl, fun _ => Ipc.countP_setSlot_hasId_le found ?_⟩
    rintro _ ⟨⟩
    exact sameEnds.1
  | close closed =>
    unfold Ipc.closeFdForPid at closed
    split at closed
    · cases closed
    · cases closed
      refine ⟨?_, fun _ => Ipc.countP_closeDescriptor_hasId_le⟩
      rw [Ipc.closeDescriptor_eq]

theorem drawsNone_closeProcessFiles : DrawsNone ipc (ipc.closeProcessFiles pid) := by
  refine ⟨?_, fun _ => Ipc.countP_closeAll_hasId_le (Ipc.held pid ipc.openFiles)⟩
  rw [Ipc.closeProcessFiles_eq]

/-- What creating a pipe can do. -/
theorem createPipe_cases (kernel : Kernel) (env : UserEnv) (ptr len : UInt64) :
    (∃ error drawn, (drawn = kernel.ipc.nextPipeId ∨ drawn = kernel.ipc.nextPipeId + 1) ∧
      kernel.createPipe env ptr len = (.error error, { kernel.ipc with nextPipeId := drawn })) ∨
    ∃ pid readFd writeFd files pipes,
      Ipc.nextFdForPid kernel.ipc.openFiles pid = some readFd ∧
      Ipc.nextFdForPidExcluding kernel.ipc.openFiles pid (some readFd) = some writeFd ∧
      (Ipc.occupy ⟨pid, readFd, .pipeRead kernel.ipc.nextPipeId⟩ kernel.ipc.openFiles).bind
        (Ipc.occupy ⟨pid, writeFd, .pipeWrite kernel.ipc.nextPipeId⟩) = some files ∧
      Ipc.occupy (Pipe.new kernel.ipc.nextPipeId pid) kernel.ipc.pipes = some pipes ∧
      kernel.createPipe env ptr len = (.ok 0,
        { kernel.ipc with
          nextPipeId := kernel.ipc.nextPipeId + 1, pipes := pipes, openFiles := files }) := by
  unfold createPipe
  dsimp only
  split
  · next error _ => exact .inl ⟨error, _, .inl rfl, rfl⟩
  next pid readFd writeFd checked =>
  split
  · exact .inl ⟨.invalidArgument, _, .inl rfl, rfl⟩
  next files opened =>
  split
  · exact .inl ⟨.wouldBlock, _, .inr rfl, rfl⟩
  next pipes occupied =>
  have chosen : Outcome (fun _ : SyscallError => True)
      (fun chosen : Pid × UInt64 × UInt64 =>
        Ipc.nextFdForPid kernel.ipc.openFiles chosen.1 = some chosen.2.1 ∧
        Ipc.nextFdForPidExcluding kernel.ipc.openFiles chosen.1 (some chosen.2.1) =
          some chosen.2.2) (.ok (pid, readFd, writeFd)) := by
    rw [← checked]
    exact .guard trivial fun _ => .pass fun _ =>
      .pass fun _ => (outcome_orInvalid _).bind fun _ isRead =>
        (outcome_orInvalid _).bind fun _ isWrite => .ok ⟨isRead, isWrite⟩
  cases chosen with
  | ok chosen =>
    exact .inr ⟨pid, readFd, writeFd, files, pipes, chosen.1, chosen.2, opened, occupied, rfl⟩

/-! ## Runs -/

/-- A system call on descriptors, or the end of a process. -/
inductive DescriptorCall
  | open (pathPtr pathLen : UInt64)
  | create (pathPtr pathLen : UInt64)
  | pipe (ptr len : UInt64)
  | read (fd ptr len : UInt64)
  | write (fd ptr len : UInt64)
  | close (fd : UInt64)
  | exit (pid : Pid)

/-- A call, with the kernel that serves it but for the tables, and the memory and the
files it finds. -/
structure Request where
  caller : Kernel
  env : UserEnv
  call : DescriptorCall

/-- Serve a call with the given tables. -/
def Request.serve (request : Request) (ipc : Ipc) : Answer × Ipc :=
  let kernel := { request.caller with ipc := ipc }
  let env := request.env
  match request.call with
  | .open pathPtr pathLen => kernel.commit (kernel.openFile env pathPtr pathLen)
  | .create pathPtr pathLen => kernel.commit (kernel.createFile env pathPtr pathLen)
  | .pipe ptr len => kernel.createPipe env ptr len
  | .read fd ptr len => kernel.commit (kernel.readFdToUser env fd ptr len)
  | .write fd ptr len => kernel.commit (kernel.writeUserBuffer env fd ptr len)
  | .close fd => kernel.commit (kernel.closeFd fd)
  | .exit pid => (.ok 0, ipc.closeProcessFiles pid)

/-- The tables after a sequence of calls. -/
def serveAll : Ipc → List Request → Ipc
  | ipc, [] => ipc
  | ipc, request :: rest => serveAll (request.serve ipc).2 rest

/-- Whenever a pipe is created, the number it gets is not in use. -/
def drawsFreshIn : Ipc → List Request → Bool
  | _, [] => true
  | ipc, request :: rest =>
    (match request.call with
      | .pipe _ _ => ipc.drawsFresh
      | _ => true) && drawsFreshIn (request.serve ipc).2 rest

theorem serveAll_append (ipc : Ipc) (earlier later : List Request) :
    serveAll ipc (earlier ++ later) = serveAll (serveAll ipc earlier) later := by
  induction earlier generalizing ipc with
  | nil => rfl
  | cons request rest ih => exact ih _

/-- What a call does that does not create a pipe. -/
theorem serve_cases (request : Request) (ipc : Ipc) :
    (∃ ptr len, request.call = .pipe ptr len) ∨ Alters ipc (request.serve ipc).2 ∨
      ∃ pid, (request.serve ipc).2 = ipc.closeProcessFiles pid := by
  obtain ⟨caller, env, call⟩ := request
  have commits {result} := @alters_commit { caller with ipc := ipc } result
  cases call with
  | «open» pathPtr pathLen => exact .inr (.inl (commits altersTables_openFile))
  | create => exact .inr (.inl (commits altersTables_createFile))
  | read => exact .inr (.inl (commits altersTables_readFdToUser))
  | write => exact .inr (.inl (commits altersTables_writeUserBuffer))
  | close => exact .inr (.inl (commits altersTables_closeFd))
  | exit pid => exact .inr (.inr ⟨pid, rfl⟩)
  | pipe ptr len => exact .inl ⟨ptr, len, rfl⟩

/-- One call keeps the tables together. -/
theorem tidy_serve (request : Request)
    (tidy : ipc.Tidy)
    (fresh : ∀ ptr len, request.call = .pipe ptr len → ipc.drawsFresh = true) :
    (request.serve ipc).2.Tidy := by
  rcases serve_cases request ipc with ⟨ptr, len, isPipe⟩ | alters | ⟨pid, closed⟩
  · rcases createPipe_cases { request.caller with ipc := ipc } request.env ptr len with
      ⟨error, drawn, -, failed⟩ | ⟨pid, readFd, writeFd, files, pipes, isRead, isWrite, opened,
        occupied, created⟩
    · simp only [Request.serve, isPipe, failed]
      exact ⟨tidy.unique, tidy.numbered, tidy.distinct, tidy.named, tidy.accounts⟩
    · simp only [Request.serve, isPipe, created]
      exact tidy.createPipe (fresh ptr len isPipe) isRead isWrite opened occupied
  · exact alters.tidy tidy
  · rw [closed]
    exact tidy.closeProcessFiles

theorem tidy_serveAll (requests : List Request)
    (tidy : ipc.Tidy)
    (fresh : drawsFreshIn ipc requests = true) :
    (serveAll ipc requests).Tidy := by
  induction requests generalizing ipc with
  | nil => exact tidy
  | cons request rest ih =>
    rw [drawsFreshIn, Bool.and_eq_true] at fresh
    refine ih (tidy_serve request tidy fun ptr len isPipe => ?_) fresh.2
    have drawn := fresh.1
    rwa [isPipe] at drawn

/-- So many numbers have been drawn, zero included, and pipes have some of these. -/
structure Drawn (ipc : Ipc) (total : Nat) : Prop where
  next : ipc.nextPipeId = UInt64.ofNat total
  below : ∀ pipe, some pipe ∈ ipc.pipes → pipe.id.toNat < total

/-- A number that is drawn before the counter wraps around is not in use. -/
theorem Drawn.fresh (drawn : Drawn ipc total) (tidy : ipc.Tidy) (left : total < 2 ^ 64) :
    ipc.drawsFresh = true := by
  have isNext : ipc.nextPipeId.toNat = total := by
    rw [drawn.next, UInt64.toNat_ofNat_of_lt' left]
  have unused : ∀ pipe, some pipe ∈ ipc.pipes → pipe.id ≠ ipc.nextPipeId := by
    intro pipe listed same
    have below := drawn.below pipe listed
    rw [same] at below
    omega
  have unnamed : ∀ file, some file ∈ ipc.openFiles → ¬Ipc.Names file ipc.nextPipeId := by
    intro file listed names
    obtain ⟨pipe, pipeListed, same, -⟩ := tidy.named file _ listed names
    exact unused pipe pipeListed same
  simp only [Ipc.drawsFresh, Bool.and_eq_true, List.all_eq_true, Option.all_eq_true,
    decide_eq_true_eq]
  refine ⟨fun slot listed pipe isPipe => unused pipe (isPipe ▸ listed), ?_⟩
  intro slot listed file isFile
  exact not_or.mp (unnamed file (isFile ▸ listed))

theorem DrawsNone.drawn (same : DrawsNone ipc after) (drawn : Drawn ipc total) :
    Drawn after total := by
  refine ⟨same.next.trans drawn.next, fun pipe listed => ?_⟩
  have counted : 0 < after.pipes.countP (Option.any (Ipc.hasId pipe.id)) :=
    List.countP_pos_iff.mpr ⟨some pipe, listed, by simp [Ipc.hasId]⟩
  obtain ⟨slot, slotListed, isSame⟩ := List.countP_pos_iff.mp (counted.trans_le (same.ids pipe.id))
  cases slot with
  | none => cases isSame
  | some earlier =>
    rw [← of_decide_eq_true isSame]
    exact drawn.below earlier slotListed

/-- Only the creation of a pipe draws a number. -/
def Request.createsPipe (request : Request) : Bool :=
  match request.call with
  | .pipe _ _ => true
  | _ => false

/-- A call draws one number at most, and none if it does not create a pipe. -/
theorem drawn_serve (request : Request) (drawn : Drawn ipc total) :
    ∃ next ≤ total + request.createsPipe.toNat, Drawn (request.serve ipc).2 next := by
  rcases serve_cases request ipc with ⟨ptr, len, isPipe⟩ | alters | ⟨pid, closed⟩
  · have draws : request.createsPipe.toNat = 1 := by simp [Request.createsPipe, isPipe]
    have more : ∀ {pipe : Pipe}, some pipe ∈ ipc.pipes → pipe.id.toNat < total + 1 :=
      fun listed => Nat.lt_succ_of_lt (drawn.below _ listed)
    have after : ipc.nextPipeId + 1 = UInt64.ofNat (total + 1) := by
      rw [drawn.next, UInt64.ofNat_add]
      rfl
    rw [draws]
    rcases createPipe_cases { request.caller with ipc := ipc } request.env ptr len with
      ⟨error, next, rfl | rfl, failed⟩ | ⟨pid, readFd, writeFd, files, pipes, -, -, -,
        occupied, created⟩
    · simp only [Request.serve, isPipe, failed]
      exact ⟨total, Nat.le_succ _, drawn⟩
    · simp only [Request.serve, isPipe, failed]
      exact ⟨total + 1, le_rfl, after, fun _ => more⟩
    · simp only [Request.serve, isPipe, created]
      refine ⟨total + 1, le_rfl, after, fun pipe listed => ?_⟩
      rcases Ipc.mem_occupy occupied listed with old | rfl
      · exact more old
      · change ipc.nextPipeId.toNat < total + 1
        rw [drawn.next, UInt64.toNat_ofNat']
        exact Nat.lt_succ_of_le (Nat.mod_le _ _)
  · exact ⟨total, Nat.le_add_right _ _, alters.drawsNone.drawn drawn⟩
  · rw [closed]
    exact ⟨total, Nat.le_add_right _ _, drawsNone_closeProcessFiles.drawn drawn⟩

/-- With fewer pipes than numbers, every number is fresh when it is drawn. -/
theorem drawsFreshIn_of_few (requests : List Request)
    (tidy : ipc.Tidy)
    (drawn : Drawn ipc total)
    (few : total + requests.countP Request.createsPipe ≤ 2 ^ 64) :
    drawsFreshIn ipc requests = true := by
  induction requests generalizing ipc total with
  | nil => rfl
  | cons request rest ih =>
    obtain ⟨next, atMost, after⟩ := drawn_serve request drawn
    have fresh : ∀ ptr len, request.call = .pipe ptr len → ipc.drawsFresh = true := by
      intro ptr len isPipe
      refine drawn.fresh tidy ?_
      rw [List.countP_cons_of_pos (by simp [Request.createsPipe, isPipe])] at few
      omega
    have counted : (request :: rest).countP Request.createsPipe =
        rest.countP Request.createsPipe + request.createsPipe.toNat := by
      rw [List.countP_cons]
      cases request.createsPipe <;> rfl
    rw [drawsFreshIn, Bool.and_eq_true]
    refine ⟨?_, ih (tidy_serve request tidy fresh) after (by omega)⟩
    split
    · exact fresh _ _ ‹_›
    · rfl

/-- As long as no number of a pipe is drawn while it is in use, descriptors and pipes fit
together after every sequence of calls, and a pipe that cannot be created leaves both
tables as they were. -/
theorem descriptors_consistent (requests : List Request)
    (fresh : drawsFreshIn .new requests = true) :
    (serveAll .new requests).Consistent ∧
      ∀ (caller : Kernel) (env : UserEnv) (ptr len : UInt64) (error : SyscallError) (after : Ipc),
        Request.serve ⟨caller, env, .pipe ptr len⟩ (serveAll .new requests) =
          (.error error, after) →
        after.openFiles = (serveAll .new requests).openFiles ∧
          after.pipes = (serveAll .new requests).pipes := by
  refine ⟨(tidy_serveAll requests Ipc.tidy_new fresh).consistent, ?_⟩
  intro caller env ptr len error after failed
  rcases createPipe_cases { caller with ipc := serveAll .new requests } env ptr len with
    ⟨_, drawn, -, refused⟩ | ⟨_, _, _, _, _, -, -, -, -, created⟩
  · have same := refused.symm.trans failed
    cases same
    exact ⟨rfl, rfl⟩
  · have same := created.symm.trans failed
    cases same

/-- In a run that creates fewer than 2^64 pipes, descriptors and pipes fit together at every
moment, and a pipe that cannot be created leaves both tables as they were. -/
theorem descriptors_consistent_below_wrap (requests : List Request)
    (few : requests.countP Request.createsPipe < 2 ^ 64) :
    (serveAll .new requests).Consistent ∧
      ∀ (caller : Kernel) (env : UserEnv) (ptr len : UInt64) (error : SyscallError) (after : Ipc),
        Request.serve ⟨caller, env, .pipe ptr len⟩ (serveAll .new requests) =
          (.error error, after) →
        after.openFiles = (serveAll .new requests).openFiles ∧
          after.pipes = (serveAll .new requests).pipes := by
  have drawn : Drawn .new 1 := ⟨rfl, by simp [Ipc.new]⟩
  exact descriptors_consistent requests
    (drawsFreshIn_of_few requests Ipc.tidy_new drawn (by omega))

namespace Sample

/-- The first program creates a pipe. -/
def pipeCall : Request := ⟨started, env, .pipe 0x1000300 16⟩

/-- The first program closes a descriptor. -/
def closeCall (fd : UInt64) : Request := ⟨started, env, .close fd⟩

end Sample

/-- A pipe is created, one of its ends is closed, and another pipe is created. -/
theorem descriptors_consistent_twoPipes :
    (serveAll .new [Sample.pipeCall, Sample.closeCall 4, Sample.pipeCall]).Consistent :=
  (descriptors_consistent_below_wrap _ (by decide)).1

/-! ## The counter wraps around -/

/-- Eight pipes, each with its reading end only. -/
def eightReaders : List Request :=
  (List.range 8).flatMap fun index =>
    [Sample.pipeCall, Sample.closeCall (UInt64.ofNat (4 + index))]

/-- The tables when no slot is free for a ninth pipe. -/
def crowded : Ipc := serveAll .new eightReaders

set_option maxRecDepth 2000 in
/-- Without a free slot a pipe is refused, but draws a number. -/
theorem serve_pipeCall_crowded (drawn : UInt64) :
    (Sample.pipeCall.serve { crowded with nextPipeId := drawn }).2 =
      { crowded with nextPipeId := drawn + 1 } := by
  -- all decisions on the way depend on the fixed tables only
  with_unfolding_all rfl

/-- Refused pipes use up as many numbers as there are. -/
theorem serveAll_crowded (times : Nat) (drawn : UInt64) :
    serveAll { crowded with nextPipeId := drawn } (List.replicate times Sample.pipeCall) =
      { crowded with nextPipeId := drawn + UInt64.ofNat times } := by
  induction times generalizing drawn with
  | zero => simp [serveAll]
  | succ times ih =>
    rw [List.replicate_succ, serveAll, serve_pipeCall_crowded, ih]
    rw [UInt64.ofNat_add, UInt64.add_assoc, UInt64.add_comm 1]
    rfl

/-- The counter has wrapped around, and a slot is free again. -/
def reused : Ipc :=
  serveAll { crowded with nextPipeId := 1 } [Sample.closeCall 10, Sample.pipeCall]

/-- When all numbers have been drawn, a process gets a second pipe with the number of its
first, and neither counts the descriptors that have this number. -/
theorem descriptors_inconsistent_after_wrap : ∃ requests, ¬(serveAll .new requests).Consistent := by
  have wraps : serveAll .new (eightReaders ++ List.replicate (2 ^ 64 - 8) Sample.pipeCall) =
      { crowded with nextPipeId := 1 } := by
    have start : crowded = { crowded with nextPipeId := 9 } := by
      have drawn : crowded.nextPipeId = 9 := by decide +kernel
      rw [← drawn]
    rw [serveAll_append]
    change serveAll crowded _ = _
    rw [start, serveAll_crowded]
    have wrapped : (9 : UInt64) + UInt64.ofNat (2 ^ 64 - 8) = 1 := by decide
    rw [wrapped]
  refine ⟨(eightReaders ++ List.replicate (2 ^ 64 - 8) Sample.pipeCall) ++
    [Sample.closeCall 10, Sample.pipeCall], fun consistent => ?_⟩
  rw [serveAll_append, wraps] at consistent
  have wrong : reused.pipes.any (Option.any fun pipe =>
      decide (pipe.readers ≠ reused.openFiles.countP
        (Option.any fun file => decide (file.descriptor = .pipeRead pipe.id)))) = true := by
    decide +kernel
  obtain ⟨slot, listed, isWrong⟩ := List.any_eq_true.mp wrong
  cases slot with
  | none => cases isWrong
  | some pipe => exact of_decide_eq_true isWrong (consistent.counted pipe listed).1

end Kernel
end Vantara
