import Vantara.Foundation.Outcome
import Vantara.Lifecycle.Waiters
import Vantara.Ledger.Changes

/-!
# Pipes and their descriptors

A pipe is given up when the last descriptor for it is closed, so closing the
descriptors of a process closes its pipes only if every pipe counts its
descriptors rightly.
-/

namespace Vantara

open Foundation

/-- How many elements pass another test after the first match has changed. -/
theorem countP_modifyFirst
    (change : α → α)
    (counts : α → Bool)
    (found : elements.find? test = some first) :
    (modifyFirst test change elements).countP counts + (if counts first then 1 else 0) =
      elements.countP counts + (if counts (change first) then 1 else 0) := by
  obtain ⟨front, back, isSplit, changed⟩ : ∃ front back, elements = front ++ first :: back ∧
      modifyFirst test change elements = front ++ change first :: back := modifyFirst_of_find found
  rw [changed, isSplit]
  simp only [List.countP_append, List.countP_cons]
  omega

namespace Ipc

variable {pipes : List (Option Pipe)} {readers writers : UInt64 → Nat} {owner pid : Pid}

/-- A descriptor of a process for the reading end of a pipe. -/
def readsFrom (pid : Pid) (pipeId : UInt64) (file : OpenFile) : Bool :=
  decide (file.pid = pid) && decide (file.descriptor = .pipeRead pipeId)

/-- A descriptor of a process for the writing end of a pipe. -/
def writesTo (pid : Pid) (pipeId : UInt64) (file : OpenFile) : Bool :=
  decide (file.pid = pid) && decide (file.descriptor = .pipeWrite pipeId)

/-- The pipes of a process are distinct, count their descriptors rightly and have
at least one. -/
structure Balanced (owner : Pid)
    (readers writers : UInt64 → Nat)
    (pipes : List (Option Pipe)) : Prop where
  unique : ∀ pipeId, pipes.countP (Option.any (isPipe owner pipeId)) ≤ 1
  counted : some pipe ∈ pipes → pipe.ownerPid = owner →
    pipe.readers = readers pipe.id ∧ pipe.writers = writers pipe.id ∧
      ¬(pipe.readers = 0 ∧ pipe.writers = 0)

theorem find_of_findSlot (found : findSlot test slots = some value) :
    slots.find? (Option.any test) = some (some value) :=
  Option.join_eq_some_iff.mp found

/-- The slot that was written, or another one that did not pass the test. -/
theorem mem_setSlot_unique {slots : List (Option α)}
    (found : findSlot test slots = some value)
    (unique : slots.countP (Option.any test) ≤ 1)
    (listed : some other ∈ setSlot test slot slots) :
    slot = some other ∨ some other ∈ slots ∧ test other = false := by
  obtain ⟨front, back, isSplit, changed⟩ : ∃ front back, slots = front ++ some value :: back ∧
      setSlot test slot slots = front ++ slot :: back :=
    modifyFirst_of_find (find_of_findSlot found)
  have passes : test value = true := (mem_of_findSlot found).2
  simp only [isSplit, List.countP_append, List.countP_cons, Option.any_some, passes, if_true]
    at unique
  have fails : ∀ {part : List (Option α)}, part.countP (Option.any test) = 0 →
      some other ∈ part → test other = false := by
    intro part none inPart
    have := List.countP_eq_zero.mp none _ inPart
    simpa using this
  rw [changed] at listed
  rw [isSplit]
  rcases List.mem_append.mp listed with inFront | inRest
  · exact .inr ⟨List.mem_append_left _ inFront, fails (by omega) inFront⟩
  rcases List.mem_cons.mp inRest with isSlot | inBack
  · exact .inl isSlot.symm
  · exact .inr ⟨List.mem_append_right _ (List.mem_cons_of_mem _ inBack), fails (by omega) inBack⟩

/-- One pipe changes, with the number of its descriptors. -/
theorem Balanced.setSlot (balanced : Balanced owner readers writers pipes)
    (found : findSlot (isPipe owner pipeId) pipes = some pipe)
    (changes : ∀ changed, slot = some changed →
      changed.id = pipeId ∧ changed.ownerPid = owner ∧ changed.readers = readersAfter pipeId ∧
        changed.writers = writersAfter pipeId ∧ ¬(changed.readers = 0 ∧ changed.writers = 0))
    (others : ∀ other, other ≠ pipeId →
      readersAfter other = readers other ∧ writersAfter other = writers other) :
    Balanced owner readersAfter writersAfter (setSlot (isPipe owner pipeId) slot pipes) where
  unique := by
    intro other
    have counted := countP_modifyFirst (fun _ => slot) (Option.any (isPipe owner other))
      (find_of_findSlot found)
    have before := balanced.unique other
    have isOwn := (mem_of_findSlot found).2
    simp only [isPipe, Bool.and_eq_true, decide_eq_true_eq] at isOwn
    have fewer : (if Option.any (isPipe owner other) slot then 1 else 0) ≤
        if Option.any (isPipe owner other) (some pipe) then 1 else 0 := by
      cases isSlot : slot with
      | none => simp
      | some changed =>
        obtain ⟨isId, isOwner, -⟩ := changes changed isSlot
        simp [isPipe, isId, isOwner, isOwn.1, isOwn.2]
    unfold Ipc.setSlot
    omega
  counted := by
    intro other listed isOwner
    rcases mem_setSlot_unique found (balanced.unique pipeId) listed with isSlot | ⟨old, fails⟩
    · obtain ⟨isId, -, isReaders, isWriters, used⟩ := changes other isSlot
      exact ⟨isId ▸ isReaders, isId ▸ isWriters, used⟩
    · have differ : other.id ≠ pipeId := by
        rintro rfl
        simp [isPipe, isOwner] at fails
      obtain ⟨isReaders, isWriters⟩ := others other.id differ
      obtain ⟨wasReaders, wasWriters, used⟩ := balanced.counted old isOwner
      exact ⟨wasReaders.trans isReaders.symm, wasWriters.trans isWriters.symm, used⟩

/-- A pipe of another process changes. -/
theorem Balanced.setSlot_other (balanced : Balanced owner readers writers pipes)
    (differ : pid ≠ owner)
    (changes : ∀ changed, slot = some changed → changed.ownerPid = pid) :
    Balanced owner readers writers (Ipc.setSlot (isPipe pid pipeId) slot pipes) where
  unique := by
    intro other
    refine le_trans ?_ (balanced.unique other)
    unfold Ipc.setSlot
    cases found : pipes.find? (Option.any (isPipe pid pipeId)) with
    | none => rw [modifyFirst_of_none found]
    | some first =>
      have counted := countP_modifyFirst (fun _ => slot) (Option.any (isPipe owner other)) found
      have none : Option.any (isPipe owner other) slot = false := by
        cases isSlot : slot with
        | none => rfl
        | some changed =>
          have isOwner := changes changed isSlot
          simp [isPipe, isOwner, differ]
      rw [none] at counted
      simp only [Bool.false_eq_true, if_false] at counted
      omega
  counted := by
    intro other listed isOwner
    rcases mem_setSlot listed with old | isSlot
    · exact balanced.counted old isOwner
    · exact absurd ((changes other isSlot).symm.trans isOwner) differ

theorem not_isPipe_of_findSlot
    (absent : findSlot (isPipe owner pipeId) pipes = none)
    (listed : some pipe ∈ pipes) :
    isPipe owner pipeId pipe = false := by
  by_contra isOwn
  rw [Bool.not_eq_false] at isOwn
  unfold findSlot at absent
  cases found : pipes.find? (Option.any (isPipe owner pipeId)) with
  | none =>
    have := List.find?_eq_none.mp found _ listed
    simp [isOwn] at this
  | some slot =>
    have passes := List.find?_some found
    rw [found] at absent
    cases slot with
    | none => cases passes
    | some pipe => cases absent

/-- The descriptor of the changed end is gone. -/
theorem Balanced.closeEnd (pipeId : UInt64)
    (update : Pipe → Pipe)
    (readersAfter writersAfter : UInt64 → Nat)
    (balanced : Balanced owner readers writers pipes)
    (keeps : ∀ pipe, (update pipe).id = pipe.id ∧ (update pipe).ownerPid = pipe.ownerPid)
    (counts : ∀ pipe : Pipe, pipe.id = pipeId → pipe.readers = readers pipeId →
      pipe.writers = writers pipeId →
      (update pipe).readers = readersAfter pipeId ∧ (update pipe).writers = writersAfter pipeId)
    (others : ∀ other, other ≠ pipeId →
      readersAfter other = readers other ∧ writersAfter other = writers other) :
    (∀ pipe, findSlot (isPipe owner pipeId) pipes = some pipe →
      Balanced owner readersAfter writersAfter
        (Ipc.setSlot (isPipe owner pipeId)
          (if (update pipe).readers = 0 ∧ (update pipe).writers = 0 then none
            else some (update pipe)) pipes)) ∧
    (findSlot (isPipe owner pipeId) pipes = none →
      Balanced owner readersAfter writersAfter pipes) := by
  constructor
  · intro pipe found
    obtain ⟨listed, isOwn⟩ := mem_of_findSlot found
    simp only [isPipe, Bool.and_eq_true, decide_eq_true_eq] at isOwn
    obtain ⟨wasReaders, wasWriters, -⟩ := balanced.counted listed isOwn.2
    rw [isOwn.1] at wasReaders wasWriters
    obtain ⟨isReaders, isWriters⟩ := counts pipe isOwn.1 wasReaders wasWriters
    refine balanced.setSlot found ?_ others
    intro changed isSlot
    split_ifs at isSlot with unused
    cases isSlot
    exact ⟨(keeps pipe).1.trans isOwn.1, (keeps pipe).2.trans isOwn.2, isReaders, isWriters,
      unused⟩
  · intro absent
    refine ⟨balanced.unique, fun {pipe} listed isOwner => ?_⟩
    have differ : pipe.id ≠ pipeId := by
      rintro rfl
      have fails := not_isPipe_of_findSlot absent listed
      simp [isPipe, isOwner] at fails
    obtain ⟨isReaders, isWriters⟩ := others pipe.id differ
    obtain ⟨wasReaders, wasWriters, used⟩ := balanced.counted listed isOwner
    exact ⟨wasReaders.trans isReaders.symm, wasWriters.trans isWriters.symm, used⟩

/-- A process closes a descriptor that its pipes counted. -/
theorem Balanced.closeDescriptor
    {ipc : Ipc} {file : OpenFile}
    (balanced : Balanced owner
      (fun pipeId => readers pipeId + if file.descriptor = .pipeRead pipeId then 1 else 0)
      (fun pipeId => writers pipeId + if file.descriptor = .pipeWrite pipeId then 1 else 0)
      ipc.pipes) :
    Balanced owner readers writers (ipc.closeDescriptor owner file).pipes := by
  unfold Ipc.closeDescriptor
  cases descriptor : file.descriptor with
  | file | directory => simpa [descriptor] using balanced
  | pipeRead pipeId =>
    simp only [descriptor] at balanced
    have closes := Balanced.closeEnd pipeId
      (fun pipe => { pipe with readers := pipe.readers - 1 }) readers writers balanced
      (fun _ => ⟨rfl, rfl⟩)
      (by simp +contextual) (by simp +contextual [eq_comm])
    dsimp only
    split
    · next absent => exact closes.2 absent
    · next pipe found => exact closes.1 pipe found
  | pipeWrite pipeId =>
    simp only [descriptor] at balanced
    have closes := Balanced.closeEnd pipeId
      (fun pipe => { pipe with writers := pipe.writers - 1 }) readers writers balanced
      (fun _ => ⟨rfl, rfl⟩)
      (by simp +contextual) (by simp +contextual [eq_comm])
    dsimp only
    split
    · next absent => exact closes.2 absent
    · next pipe found => exact closes.1 pipe found

/-- Another process closes a descriptor. -/
theorem Balanced.closeDescriptor_other {ipc : Ipc}
    (balanced : Balanced owner readers writers ipc.pipes)
    (differ : pid ≠ owner) :
    Balanced owner readers writers (ipc.closeDescriptor pid file).pipes := by
  have closes : ∀ {pipeId : UInt64} {update : Pipe → Pipe},
      (∀ pipe, (update pipe).ownerPid = pipe.ownerPid) → ∀ pipe,
      findSlot (isPipe pid pipeId) ipc.pipes = some pipe →
      Balanced owner readers writers (Ipc.setSlot (isPipe pid pipeId)
        (if (update pipe).readers = 0 ∧ (update pipe).writers = 0 then none
          else some (update pipe)) ipc.pipes) := by
    intro pipeId update keeps pipe found
    refine balanced.setSlot_other differ fun changed isSlot => ?_
    have isOwn := (mem_of_findSlot found).2
    simp only [isPipe, Bool.and_eq_true, decide_eq_true_eq] at isOwn
    split_ifs at isSlot
    cases isSlot
    exact (keeps pipe).trans isOwn.2
  unfold Ipc.closeDescriptor
  split
  · exact balanced
  · exact balanced
  · dsimp only
    split
    · exact balanced
    · next pipe found =>
        exact @closes _ (fun pipe => { pipe with readers := pipe.readers - 1 }) (fun _ => rfl)
          pipe found
  · dsimp only
    split
    · exact balanced
    · next pipe found =>
        exact @closes _ (fun pipe => { pipe with writers := pipe.writers - 1 }) (fun _ => rfl)
          pipe found

/-- A process closes all descriptors that its pipes counted. -/
theorem Balanced.closeAll
    {files : List OpenFile} {ipc : Ipc}
    (balanced : Balanced owner
      (fun pipeId => files.countP fun file => decide (file.descriptor = .pipeRead pipeId))
      (fun pipeId => files.countP fun file => decide (file.descriptor = .pipeWrite pipeId))
      ipc.pipes) :
    Balanced owner (fun _ => 0) (fun _ => 0)
      (files.foldl (fun ipc file => ipc.closeDescriptor owner file) ipc).pipes := by
  induction files generalizing ipc with
  | nil => exact balanced
  | cons file rest ih =>
    simp only [List.countP_cons, decide_eq_true_eq] at balanced
    exact ih balanced.closeDescriptor

theorem Balanced.closeAll_other
    {files : List OpenFile} {ipc : Ipc}
    (balanced : Balanced owner readers writers ipc.pipes)
    (differ : pid ≠ owner) :
    Balanced owner readers writers
      (files.foldl (fun ipc file => ipc.closeDescriptor pid file) ipc).pipes := by
  induction files generalizing ipc with
  | nil => exact balanced
  | cons file rest ih =>
    exact ih (balanced.closeDescriptor_other differ)

/-- A process without descriptors has no pipes. -/
theorem Balanced.no_pipes
    (balanced : Balanced owner (fun _ => 0) (fun _ => 0) pipes)
    (listed : some pipe ∈ pipes) :
    pipe.ownerPid ≠ owner := by
  intro isOwner
  obtain ⟨noReaders, noWriters, used⟩ := balanced.counted listed isOwner
  exact used ⟨noReaders, noWriters⟩

/-- Every pipe counts the descriptors of its owner. -/
def Accounts (ipc : Ipc) : Prop :=
  ∀ owner, Balanced owner
    (fun pipeId => ipc.openFiles.countP (Option.any (readsFrom owner pipeId)))
    (fun pipeId => ipc.openFiles.countP (Option.any (writesTo owner pipeId)))
    ipc.pipes

/-- The process has nothing open. -/
structure Bare (pid : Pid) (ipc : Ipc) : Prop where
  openFiles : some file ∈ ipc.openFiles → file.pid ≠ pid
  pipes : some pipe ∈ ipc.pipes → pipe.ownerPid ≠ pid
  events : some event ∈ ipc.events → event.ownerPid ≠ pid
  messageQueues : some queue ∈ ipc.messageQueues → queue.ownerPid ≠ pid

/-- No pipe and no descriptor uses the identifier that the next pipe gets. -/
def drawsFresh (ipc : Ipc) : Bool :=
  (ipc.pipes.all fun slot => slot.all fun pipe => decide (pipe.id ≠ ipc.nextPipeId)) &&
    ipc.openFiles.all fun slot => slot.all fun file =>
      decide (file.descriptor ≠ .pipeRead ipc.nextPipeId) &&
        decide (file.descriptor ≠ .pipeWrite ipc.nextPipeId)

variable {ipc : Ipc}

/-- Slots that are freed did not count. -/
theorem countP_dropSlots (spared : ∀ value, counts value = true → test value = false) :
    (dropSlots test slots).countP (Option.any counts) = slots.countP (Option.any counts) := by
  unfold dropSlots
  rw [List.countP_map]
  refine List.countP_congr fun slot _ => ?_
  cases slot with
  | none => simp
  | some value =>
    by_cases isCounted : counts value = true
    · simp [isCounted, spared value isCounted]
    · simp only [Function.comp_apply, Option.any_some]
      split_ifs <;> simp [isCounted]

theorem mem_dropSlots_fails (listed : some value ∈ dropSlots test slots) : test value = false := by
  obtain ⟨slot, -, same⟩ := List.mem_map.mp listed
  split_ifs at same with drops
  subst same
  simpa using drops

/-- The descriptors of a process. -/
def held (pid : Pid) (files : List (Option OpenFile)) : List OpenFile :=
  files.filterMap fun slot => slot.filter fun file => decide (file.pid = pid)

theorem countP_held (files : List (Option OpenFile)) (counts : OpenFile → Bool) :
    (held pid files).countP counts =
      files.countP (Option.any fun file => decide (file.pid = pid) && counts file) := by
  induction files with
  | nil => rfl
  | cons slot rest ih =>
    unfold held at ih ⊢
    cases slot with
    | none => simpa [List.countP_cons] using ih
    | some file =>
      by_cases isOwn : file.pid = pid
      · have kept : (some file).filter (fun file => decide (file.pid = pid)) = some file := by
          simp [isOwn]
        rw [List.filterMap_cons, kept]
        simp [List.countP_cons, isOwn, ih]
      · have left : (some file).filter (fun file => decide (file.pid = pid)) = none := by
          simp [isOwn]
        rw [List.filterMap_cons, left]
        simp [isOwn, ih]

/-- Descriptors do not touch events and message queues. -/
theorem closeDescriptor_eq :
    ipc.closeDescriptor pid file = { ipc with pipes := (ipc.closeDescriptor pid file).pipes } := by
  unfold closeDescriptor
  split
  · rfl
  · rfl
  · dsimp only
    split <;> rfl
  · dsimp only
    split <;> rfl

theorem closeAll_eq (files : List OpenFile) :
    files.foldl (fun ipc file => ipc.closeDescriptor pid file) ipc =
      { ipc with
        pipes := (files.foldl (fun ipc file => ipc.closeDescriptor pid file) ipc).pipes } := by
  induction files generalizing ipc with
  | nil => rfl
  | cons file rest ih =>
    rw [List.foldl_cons, ih, closeDescriptor_eq]

/-- The tables after a process has closed everything. -/
theorem closeProcessFiles_eq :
    ipc.closeProcessFiles pid =
      { ipc with
        openFiles := dropSlots (fun file => decide (file.pid = pid)) ipc.openFiles
        pipes := (ipc.closeProcessFiles pid).pipes
        events := dropSlots (fun event => decide (event.ownerPid = pid)) ipc.events
        messageQueues := dropSlots (fun queue => decide (queue.ownerPid = pid))
          ipc.messageQueues } := by
  unfold closeProcessFiles
  dsimp only
  rw [closeAll_eq]

/-- A process that has closed everything has no pipes. -/
theorem balanced_closeProcessFiles (accounts : ipc.Accounts) :
    Balanced pid (fun _ => 0) (fun _ => 0) (ipc.closeProcessFiles pid).pipes := by
  have balanced := accounts pid
  simp only [show ∀ pipeId, readsFrom pid pipeId = fun file => decide (file.pid = pid) &&
      decide (file.descriptor = .pipeRead pipeId) from fun _ => rfl,
    show ∀ pipeId, writesTo pid pipeId = fun file => decide (file.pid = pid) &&
      decide (file.descriptor = .pipeWrite pipeId) from fun _ => rfl,
    ← countP_held] at balanced
  exact @Balanced.closeAll pid (held pid ipc.openFiles)
    { ipc with openFiles := dropSlots (fun file => decide (file.pid = pid)) ipc.openFiles }
    balanced

/-- The other processes keep what their pipes counted. -/
theorem accounts_closeProcessFiles (accounts : ipc.Accounts) :
    (ipc.closeProcessFiles pid).Accounts := by
  intro owner
  rw [closeProcessFiles_eq]
  dsimp only
  by_cases isOwner : owner = pid
  · subst isOwner
    refine ⟨(balanced_closeProcessFiles accounts).unique, fun {pipe} listed isOwner => ?_⟩
    exact absurd isOwner ((balanced_closeProcessFiles accounts).no_pipes listed)
  · have spared : ∀ {counts : UInt64 → OpenFile → Bool} {pipeId : UInt64},
        (∀ pipeId file, counts pipeId file = true → file.pid = owner) →
        (dropSlots (fun file => decide (file.pid = pid)) ipc.openFiles).countP
          (Option.any (counts pipeId)) = ipc.openFiles.countP (Option.any (counts pipeId)) := by
      intro counts pipeId owns
      refine countP_dropSlots fun file counted => ?_
      rw [owns pipeId file counted]
      simp [isOwner]
    have reads : ∀ pipeId file, readsFrom owner pipeId file = true → file.pid = owner := by
      intro pipeId file counted
      simp only [readsFrom, Bool.and_eq_true, decide_eq_true_eq] at counted
      exact counted.1
    have writes : ∀ pipeId file, writesTo owner pipeId file = true → file.pid = owner := by
      intro pipeId file counted
      simp only [writesTo, Bool.and_eq_true, decide_eq_true_eq] at counted
      exact counted.1
    simp only [@spared (readsFrom owner) _ reads, @spared (writesTo owner) _ writes]
    have balanced := accounts owner
    exact @Balanced.closeAll_other _ _ _ _ (held pid ipc.openFiles)
      { ipc with openFiles := dropSlots (fun file => decide (file.pid = pid)) ipc.openFiles }
      balanced (Ne.symm isOwner)

/-- A process that has closed everything has nothing open. -/
theorem bare_closeProcessFiles (accounts : ipc.Accounts) :
    (ipc.closeProcessFiles pid).Bare pid := by
  have noPipes : ∀ {pipe}, some pipe ∈ (ipc.closeProcessFiles pid).pipes →
      pipe.ownerPid ≠ pid :=
    fun listed => (balanced_closeProcessFiles accounts).no_pipes listed
  rw [closeProcessFiles_eq]
  refine ⟨fun listed => ?_, fun listed => noPipes listed, fun listed => ?_, fun listed => ?_⟩
  all_goals simpa using mem_dropSlots_fails listed

theorem mem_pipes_closeDescriptor (listed : some pipe ∈ (ipc.closeDescriptor pid file).pipes) :
    ∃ old, some old ∈ ipc.pipes ∧ old.ownerPid = pipe.ownerPid := by
  have closes : ∀ {pipeId : UInt64} {update : Pipe → Pipe} {old : Pipe},
      (∀ pipe, (update pipe).ownerPid = pipe.ownerPid) →
      findSlot (isPipe pid pipeId) ipc.pipes = some old →
      some pipe ∈ setSlot (isPipe pid pipeId)
        (if (update old).readers = 0 ∧ (update old).writers = 0 then none
          else some (update old)) ipc.pipes →
      ∃ old, some old ∈ ipc.pipes ∧ old.ownerPid = pipe.ownerPid := by
    intro pipeId update old keeps found listed
    rcases mem_setSlot listed with inPipes | isSlot
    · exact ⟨pipe, inPipes, rfl⟩
    · split_ifs at isSlot
      cases isSlot
      exact ⟨old, (mem_of_findSlot found).1, (keeps old).symm⟩
  unfold closeDescriptor at listed
  split at listed
  · exact ⟨pipe, listed, rfl⟩
  · exact ⟨pipe, listed, rfl⟩
  · dsimp only at listed
    split at listed
    · exact ⟨pipe, listed, rfl⟩
    · next old found =>
        exact @closes _ (fun pipe => { pipe with readers := pipe.readers - 1 }) old
          (fun _ => rfl) found listed
  · dsimp only at listed
    split at listed
    · exact ⟨pipe, listed, rfl⟩
    · next old found =>
        exact @closes _ (fun pipe => { pipe with writers := pipe.writers - 1 }) old
          (fun _ => rfl) found listed

/-- Nothing new is open after another process has closed everything. -/
theorem Bare.closeProcessFiles (bare : ipc.Bare other) :
    (ipc.closeProcessFiles pid).Bare other := by
  have closesAll : ∀ (files : List OpenFile) (ipc : Ipc),
      (∀ {pipe}, some pipe ∈ ipc.pipes → pipe.ownerPid ≠ other) → ∀ {pipe},
      some pipe ∈ (files.foldl (fun ipc file => ipc.closeDescriptor pid file) ipc).pipes →
      pipe.ownerPid ≠ other := by
    intro files
    induction files with
    | nil => exact fun _ bare => bare
    | cons file rest ih =>
      intro ipc bare
      refine ih _ fun listed => ?_
      obtain ⟨old, inPipes, same⟩ := mem_pipes_closeDescriptor listed
      exact same ▸ bare inPipes
  refine ⟨?_, ?_, ?_, ?_⟩
  · rw [closeProcessFiles_eq]
    exact fun listed => bare.openFiles (mem_dropSlots listed)
  · exact closesAll (held pid ipc.openFiles)
      { ipc with openFiles := dropSlots (fun file => decide (file.pid = pid)) ipc.openFiles }
      bare.pipes
  · rw [closeProcessFiles_eq]
    exact fun listed => bare.events (mem_dropSlots listed)
  · rw [closeProcessFiles_eq]
    exact fun listed => bare.messageQueues (mem_dropSlots listed)

/-! ## Opening and using -/

/-- Pipes and the numbers of their descriptors stay as they were. -/
theorem Accounts.of_counts {after : Ipc}
    (accounts : ipc.Accounts)
    (pipes : after.pipes = ipc.pipes)
    (reads : ∀ owner pipeId, after.openFiles.countP (Option.any (readsFrom owner pipeId)) =
      ipc.openFiles.countP (Option.any (readsFrom owner pipeId)))
    (writes : ∀ owner pipeId, after.openFiles.countP (Option.any (writesTo owner pipeId)) =
      ipc.openFiles.countP (Option.any (writesTo owner pipeId))) :
    after.Accounts := by
  intro owner
  simp only [reads, writes, pipes]
  exact accounts owner

theorem Accounts.of_same {after : Ipc}
    (accounts : ipc.Accounts)
    (pipes : after.pipes = ipc.pipes)
    (openFiles : after.openFiles = ipc.openFiles) :
    after.Accounts :=
  accounts.of_counts pipes (by simp [openFiles]) (by simp [openFiles])

/-- What a pipe does with its bytes leaves the numbers of its descriptors alone. -/
theorem Accounts.setPipe
    (accounts : ipc.Accounts)
    (found : findSlot (isPipe pid pipeId) ipc.pipes = some pipe)
    (same : changed.id = pipe.id ∧ changed.ownerPid = pipe.ownerPid ∧
      changed.readers = pipe.readers ∧ changed.writers = pipe.writers) :
    Accounts { ipc with pipes := setSlot (isPipe pid pipeId) (some changed) ipc.pipes } := by
  obtain ⟨sameId, sameOwner, sameReaders, sameWriters⟩ := same
  obtain ⟨listed, isOwn⟩ := mem_of_findSlot found
  simp only [isPipe, Bool.and_eq_true, decide_eq_true_eq] at isOwn
  intro owner
  by_cases isOwner : pid = owner
  · subst isOwner
    obtain ⟨isReaders, isWriters, used⟩ := (accounts pid).counted listed isOwn.2
    refine (accounts pid).setSlot found ?_ fun _ _ => ⟨rfl, rfl⟩
    rintro _ ⟨⟩
    refine ⟨sameId.trans isOwn.1, sameOwner.trans isOwn.2, ?_, ?_, ?_⟩
    · rw [sameReaders, isReaders, isOwn.1]
    · rw [sameWriters, isWriters, isOwn.1]
    · rwa [sameReaders, sameWriters]
  · refine (accounts owner).setSlot_other isOwner ?_
    rintro _ ⟨⟩
    exact sameOwner.trans isOwn.2

/-- A descriptor that is not for a pipe. -/
def plain : Descriptor → Bool
  | .file _ _ | .directory _ _ => true
  | .pipeRead _ | .pipeWrite _ => false

theorem not_readsFrom_of_plain (isPlain : plain file.descriptor = true) :
    readsFrom owner pipeId file = false ∧ writesTo owner pipeId file = false := by
  unfold readsFrom writesTo
  cases descriptor : file.descriptor <;> simp_all [plain]

theorem occupy_split (occupied : occupy added slots = some extended) :
    ∃ front back, slots = front ++ none :: back ∧ extended = front ++ some added :: back := by
  unfold occupy at occupied
  split_ifs at occupied with hasFree
  cases occupied
  obtain ⟨slot, slotMem, isFree⟩ := List.any_eq_true.mp hasFree
  cases found : slots.find? Option.isNone with
  | none => exact absurd isFree (List.find?_eq_none.mp found slot slotMem)
  | some first =>
    obtain rfl := Option.isNone_iff_eq_none.mp (List.find?_some found)
    exact modifyFirst_of_find found

theorem countP_occupy (counts : α → Bool) (occupied : occupy added slots = some extended) :
    extended.countP (Option.any counts) =
      slots.countP (Option.any counts) + if counts added then 1 else 0 := by
  obtain ⟨front, back, rfl, rfl⟩ := occupy_split occupied
  simp [List.countP_append, List.countP_cons, Nat.add_assoc]

theorem countP_setSlot {slots : List (Option α)}
    (counts : α → Bool)
    (found : findSlot test slots = some value) :
    (setSlot test slot slots).countP (Option.any counts) + (if counts value then 1 else 0) =
      slots.countP (Option.any counts) + if Option.any counts slot then 1 else 0 :=
  countP_modifyFirst (fun _ => slot) (Option.any counts) (find_of_findSlot found)

/-- A descriptor that is not for a pipe is opened. -/
theorem Accounts.openDescriptor
    (accounts : ipc.Accounts)
    (isPlain : plain descriptor = true)
    (opened : ipc.openDescriptor pid descriptor = some (fd, after)) :
    after.Accounts := by
  obtain ⟨fd, -, rest⟩ := Option.bind_eq_some_iff.mp opened
  obtain ⟨files, occupied, ⟨⟩⟩ := Option.bind_eq_some_iff.mp rest
  have neither := fun owner pipeId =>
    @not_readsFrom_of_plain owner pipeId ⟨pid, fd, descriptor⟩ isPlain
  refine accounts.of_counts rfl (fun owner pipeId => ?_) fun owner pipeId => ?_
  · simp [countP_occupy _ occupied, (neither owner pipeId).1]
  · simp [countP_occupy _ occupied, (neither owner pipeId).2]

/-- A descriptor that is not for a pipe moves. -/
theorem Accounts.setDescriptor
    (accounts : ipc.Accounts)
    (found : findSlot (isDescriptor pid fd) ipc.openFiles = some file)
    (wasPlain : plain file.descriptor = true)
    (isPlain : plain descriptor = true) :
    (Kernel.setDescriptor ipc file descriptor).Accounts := by
  have isOwn := (mem_of_findSlot found).2
  simp only [isDescriptor, Bool.and_eq_true, decide_eq_true_eq] at isOwn
  obtain ⟨rfl, rfl⟩ := isOwn
  have before := fun owner pipeId => @not_readsFrom_of_plain owner pipeId file wasPlain
  have after := fun owner pipeId =>
    @not_readsFrom_of_plain owner pipeId { file with descriptor := descriptor } isPlain
  refine accounts.of_counts rfl (fun owner pipeId => ?_) fun owner pipeId => ?_
  · have counted := @countP_setSlot _ _ _ (some { file with descriptor := descriptor }) _
      (readsFrom owner pipeId) found
    simpa [Kernel.setDescriptor, (before owner pipeId).1, (after owner pipeId).1] using counted
  · have counted := @countP_setSlot _ _ _ (some { file with descriptor := descriptor }) _
      (writesTo owner pipeId) found
    simpa [Kernel.setDescriptor, (before owner pipeId).2, (after owner pipeId).2] using counted

/-- A descriptor is closed. -/
theorem Accounts.closeFdForPid
    (accounts : ipc.Accounts)
    (closed : ipc.closeFdForPid pid fd = .ok after) :
    after.Accounts := by
  unfold Ipc.closeFdForPid at closed
  split at closed
  · cases closed
  next file found =>
  cases closed
  have isOwn := (mem_of_findSlot found).2
  simp only [isDescriptor, Bool.and_eq_true, decide_eq_true_eq] at isOwn
  intro owner
  rw [closeDescriptor_eq]
  dsimp only
  have reads := fun pipeId => @countP_setSlot _ _ _ none _ (readsFrom owner pipeId) found
  have writes := fun pipeId => @countP_setSlot _ _ _ none _ (writesTo owner pipeId) found
  have balanced := accounts owner
  by_cases isOwner : pid = owner
  · subst isOwner
    refine Balanced.closeDescriptor ?_
    refine ⟨balanced.unique, fun {pipe} listed isOwner => ?_⟩
    obtain ⟨isReaders, isWriters, used⟩ := balanced.counted listed isOwner
    have readers := reads pipe.id
    have writers := writes pipe.id
    simp only [readsFrom, isOwn.1, decide_true, Bool.true_and, decide_eq_true_eq,
      Option.any_none, Bool.false_eq_true, if_false, Nat.add_zero] at readers
    simp only [writesTo, isOwn.1, decide_true, Bool.true_and, decide_eq_true_eq,
      Option.any_none, Bool.false_eq_true, if_false, Nat.add_zero] at writers
    exact ⟨isReaders.trans readers.symm, isWriters.trans writers.symm, used⟩
  · refine Balanced.closeDescriptor_other ?_ isOwner
    have foreign : file.pid ≠ owner := fun same => isOwner (isOwn.1.symm.trans same)
    refine ⟨balanced.unique, fun {pipe} listed isOwner => ?_⟩
    obtain ⟨isReaders, isWriters, used⟩ := balanced.counted listed isOwner
    have readers := reads pipe.id
    have writers := writes pipe.id
    simp only [readsFrom, foreign, decide_false, Bool.false_and, Option.any_none,
      Bool.false_eq_true, if_false, Nat.add_zero] at readers
    simp only [writesTo, foreign, decide_false, Bool.false_and, Option.any_none,
      Bool.false_eq_true, if_false, Nat.add_zero] at writers
    exact ⟨isReaders.trans readers.symm, isWriters.trans writers.symm, used⟩

theorem fresh_of_drawsFresh (fresh : ipc.drawsFresh = true) :
    (∀ pipe, some pipe ∈ ipc.pipes → pipe.id ≠ ipc.nextPipeId) ∧
      ∀ file, some file ∈ ipc.openFiles → file.descriptor ≠ .pipeRead ipc.nextPipeId ∧
        file.descriptor ≠ .pipeWrite ipc.nextPipeId := by
  simp only [drawsFresh, Bool.and_eq_true, List.all_eq_true] at fresh
  refine ⟨fun pipe listed => ?_, fun file listed => ?_⟩
  · simpa using fresh.1 _ listed
  · simpa using fresh.2 _ listed

/-- A pipe with one descriptor for each end is created under a fresh identifier. -/
theorem Accounts.createPipe
    (accounts : ipc.Accounts)
    (fresh : ipc.drawsFresh = true)
    (opened : (occupy ⟨pid, readFd, .pipeRead ipc.nextPipeId⟩ ipc.openFiles).bind
      (occupy ⟨pid, writeFd, .pipeWrite ipc.nextPipeId⟩) = some files)
    (occupied : occupy (Pipe.new ipc.nextPipeId pid) ipc.pipes = some pipes) :
    Accounts
      { ipc with nextPipeId := ipc.nextPipeId + 1, pipes := pipes, openFiles := files } := by
  obtain ⟨freshPipes, freshFiles⟩ := fresh_of_drawsFresh fresh
  obtain ⟨half, openedRead, openedWrite⟩ := Option.bind_eq_some_iff.mp opened
  have reads : ∀ owner pipeId, files.countP (Option.any (readsFrom owner pipeId)) =
      ipc.openFiles.countP (Option.any (readsFrom owner pipeId)) +
        if pid = owner ∧ ipc.nextPipeId = pipeId then 1 else 0 := by
    intro owner pipeId
    rw [countP_occupy _ openedWrite, countP_occupy _ openedRead]
    simp [readsFrom]
  have writes : ∀ owner pipeId, files.countP (Option.any (writesTo owner pipeId)) =
      ipc.openFiles.countP (Option.any (writesTo owner pipeId)) +
        if pid = owner ∧ ipc.nextPipeId = pipeId then 1 else 0 := by
    intro owner pipeId
    rw [countP_occupy _ openedWrite, countP_occupy _ openedRead]
    simp [writesTo]
  have noReads : ∀ owner,
      ipc.openFiles.countP (Option.any (readsFrom owner ipc.nextPipeId)) = 0 := by
    intro owner
    refine List.countP_eq_zero.mpr fun slot listed => ?_
    cases slot with
    | none => simp
    | some file => simp [readsFrom, (freshFiles file listed).1]
  have noWrites : ∀ owner,
      ipc.openFiles.countP (Option.any (writesTo owner ipc.nextPipeId)) = 0 := by
    intro owner
    refine List.countP_eq_zero.mpr fun slot listed => ?_
    cases slot with
    | none => simp
    | some file => simp [writesTo, (freshFiles file listed).2]
  intro owner
  refine ⟨fun pipeId => ?_, fun {pipe} listed isOwner => ?_⟩
  · dsimp only
    rw [countP_occupy _ occupied]
    by_cases isNew : pipeId = ipc.nextPipeId
    · subst isNew
      have none : ipc.pipes.countP (Option.any (isPipe owner ipc.nextPipeId)) = 0 := by
        refine List.countP_eq_zero.mpr fun slot listed => ?_
        cases slot with
        | none => simp
        | some pipe => simp [isPipe, freshPipes pipe listed]
      rw [none]
      split_ifs <;> omega
    · have unique := (accounts owner).unique pipeId
      simpa [isPipe, Pipe.new, Ne.symm isNew] using unique
  · rw [reads, writes]
    dsimp only at listed
    rcases mem_occupy occupied listed with old | rfl
    · have differ := freshPipes pipe old
      have balanced := (accounts owner).counted old isOwner
      simpa [Ne.symm differ] using balanced
    · have isPid : pid = owner := isOwner
      simp [Pipe.new, isPid, noReads, noWrites]

end Ipc

namespace Pipe

variable {pipe : Pipe}

/-- The same pipe, with the same descriptors. -/
def SameEnds (pipe changed : Pipe) : Prop :=
  changed.id = pipe.id ∧ changed.ownerPid = pipe.ownerPid ∧
    changed.readers = pipe.readers ∧ changed.writers = pipe.writers

theorem sameEnds_foldl_pushByte (bytes : List UInt8) :
    pipe.SameEnds (bytes.foldl pushByte pipe) := by
  induction bytes generalizing pipe with
  | nil => exact ⟨rfl, rfl, rfl, rfl⟩
  | cons byte rest ih =>
    have pushed : pipe.SameEnds (pipe.pushByte byte) := ⟨rfl, rfl, rfl, rfl⟩
    have later := @ih (pipe.pushByte byte)
    exact ⟨later.1.trans pushed.1, later.2.1.trans pushed.2.1,
      later.2.2.1.trans pushed.2.2.1, later.2.2.2.trans pushed.2.2.2⟩

theorem sameEnds_popBytes (count : Nat) : pipe.SameEnds (popBytes count pipe).2 := by
  induction count generalizing pipe with
  | zero => exact ⟨rfl, rfl, rfl, rfl⟩
  | succ count ih => exact ih

theorem sameEnds_write :
    Outcome (fun _ => True) (fun result => pipe.SameEnds result.2) (pipe.write source) :=
  .guard trivial fun _ => .guard trivial fun _ =>
    .ok (sameEnds_foldl_pushByte _)

theorem sameEnds_read :
    Outcome (fun _ => True) (fun result => pipe.SameEnds result.2) (pipe.read capacity) :=
  .ite (fun _ => .ite (fun _ => .ok ⟨rfl, rfl, rfl, rfl⟩) fun _ => .error trivial) fun _ =>
    .ok (sameEnds_popBytes _)

end Pipe

namespace Kernel

variable {kernel : Kernel} {env : UserEnv}

/-- What the handlers of files and pipes, the creation of a pipe apart, may do to the
tables. -/
inductive Alters (ipc : Ipc) : Ipc → Prop
  | same (pipes : after.pipes = ipc.pipes) (openFiles : after.openFiles = ipc.openFiles)
      (next : after.nextPipeId = ipc.nextPipeId) : Alters ipc after
  | open (isPlain : Ipc.plain descriptor = true)
      (opened : ipc.openDescriptor pid descriptor = some (fd, after)) : Alters ipc after
  | move (found : Ipc.findSlot (Ipc.isDescriptor pid fd) ipc.openFiles = some file)
      (wasPlain : Ipc.plain file.descriptor = true) (isPlain : Ipc.plain descriptor = true) :
      Alters ipc (setDescriptor ipc file descriptor)
  | use {changed : Pipe} (found : Ipc.findSlot (Ipc.isPipe pid pipeId) ipc.pipes = some pipe)
      (sameEnds : pipe.SameEnds changed) :
      Alters ipc
        { ipc with pipes := Ipc.setSlot (Ipc.isPipe pid pipeId) (some changed) ipc.pipes }
  | close (closed : ipc.closeFdForPid pid fd = .ok after) : Alters ipc after

/-- A handler that alters the tables only so. -/
abbrev AltersTables (kernel : Kernel) : Except SyscallError (UInt64 × Ipc) → Prop :=
  Outcome (fun _ => True) fun result => Alters kernel.ipc result.2

theorem outcome_orInvalid (value : Option α) :
    Outcome (fun _ => True) (fun found => value = some found) (orInvalid value) := by
  cases value with
  | none => exact .error trivial
  | some found => exact .ok rfl

theorem altersTables_openDescriptor (isPlain : Ipc.plain descriptor = true) :
    kernel.AltersTables (orInvalid (kernel.ipc.openDescriptor pid descriptor)) :=
  (outcome_orInvalid _).mono fun _ opened => .open isPlain opened

theorem altersTables_openFile : kernel.AltersTables (kernel.openFile env pathPtr pathLen) := by
  refine .pass fun _ => .pass fun target => .pass fun _ => altersTables_openDescriptor ?_
  split_ifs <;> rfl

theorem altersTables_createFile : kernel.AltersTables (kernel.createFile env pathPtr pathLen) :=
  .pass fun _ => .pass fun _ => .pass fun _ => altersTables_openDescriptor rfl

theorem altersTables_readFdToUser : kernel.AltersTables (kernel.readFdToUser env fd ptr len) := by
  refine .guard trivial fun _ => .pass fun out =>
    .ite (fun _ => .pass fun _ => .ok (.same rfl rfl rfl)) fun _ =>
      .pass fun pid => (outcome_orInvalid _).bind fun file found => ?_
  split
  · next isFile =>
      exact .pass fun _ => .ok (.move found (isFile ▸ rfl) rfl)
  · next isDirectory =>
      exact .pass fun _ => .ok (.move found (isDirectory ▸ rfl) rfl)
  · exact (outcome_orInvalid _).bind fun pipe foundPipe =>
      Pipe.sameEnds_read.bind fun _ sameEnds => .ok (.use foundPipe sameEnds)
  · exact .error trivial

theorem altersTables_writeUserBuffer :
    kernel.AltersTables (kernel.writeUserBuffer env fd ptr len) := by
  refine .guard trivial fun _ => .pass fun bytes =>
    .ite (fun _ => .pass fun pid => (outcome_orInvalid _).bind
      fun file found => ?_) fun _ => .ok (.same rfl rfl rfl)
  split
  · next isFile =>
      exact .guard trivial fun _ => .pass fun _ => .ok (.move found (isFile ▸ rfl) rfl)
  · exact (outcome_orInvalid _).bind fun pipe foundPipe =>
      Pipe.sameEnds_write.bind fun _ sameEnds => .ok (.use foundPipe sameEnds)
  · exact .error trivial
  · exact .error trivial

theorem altersTables_closeFd : kernel.AltersTables (kernel.closeFd fd) := by
  refine .pass fun pid => ?_
  have closed : Outcome (fun _ => True) (Alters kernel.ipc)
      (kernel.ipc.closeFdForPid pid fd) := by
    cases isClosed : kernel.ipc.closeFdForPid pid fd with
    | error => exact .error trivial
    | ok ipc => exact .ok (.close isClosed)
  exact closed.bind fun _ alters => .ok alters

/-- Whatever these handlers do leaves the pipes counted rightly. -/
theorem Alters.accounts {ipc after : Ipc} (alters : Alters ipc after) (accounts : ipc.Accounts) :
    after.Accounts := by
  cases alters with
  | same pipes openFiles => exact accounts.of_same pipes openFiles
  | «open» isPlain opened => exact accounts.openDescriptor isPlain opened
  | move found wasPlain isPlain => exact accounts.setDescriptor found wasPlain isPlain
  | use found sameEnds => exact accounts.setPipe found sameEnds
  | close closed => exact accounts.closeFdForPid closed

/-- What was refused left the tables as they were. -/
theorem alters_commit (alters : kernel.AltersTables result) :
    Alters kernel.ipc (kernel.commit result).2 := by
  cases alters with
  | ok alters => exact alters
  | error => exact .same rfl rfl rfl

theorem accounts_commit (alters : kernel.AltersTables result) (accounts : kernel.ipc.Accounts) :
    (kernel.commit result).2.Accounts :=
  (alters_commit alters).accounts accounts

/-- Events and message queues do not matter to pipes. -/
theorem accounts_commit_same
    (keeps : Outcome (fun _ => True) (fun after : UInt64 × Ipc =>
      after.2.pipes = kernel.ipc.pipes ∧ after.2.openFiles = kernel.ipc.openFiles ∧
        after.2.nextPipeId = kernel.ipc.nextPipeId) result)
    (accounts : kernel.ipc.Accounts) :
    (kernel.commit result).2.Accounts :=
  accounts_commit (keeps.mono fun _ same => .same same.1 same.2.1 same.2.2) accounts

section

variable {slot ptr len : UInt64} (accounts : kernel.ipc.Accounts)
include accounts

theorem accounts_closeEvent : (kernel.commit (kernel.closeEvent slot)).2.Accounts :=
  accounts_commit_same (.pass fun _ => .pass fun _ =>
    .guard trivial fun _ => .ok ⟨rfl, rfl, rfl⟩) accounts

theorem accounts_sendMessage : (kernel.commit (kernel.sendMessage env slot ptr len)).2.Accounts :=
  accounts_commit_same (.guard trivial fun _ => .pass fun _ =>
    .pass fun _ => .pass fun _ => .ok ⟨rfl, rfl, rfl⟩) accounts

theorem accounts_receiveMessage :
    (kernel.commit (kernel.receiveMessage env slot ptr len)).2.Accounts :=
  accounts_commit_same (.guard trivial fun _ => .pass fun _ =>
    .pass fun _ => .pass fun _ => .ok ⟨rfl, rfl, rfl⟩) accounts

theorem accounts_closeMessageQueue : (kernel.commit (kernel.closeMessageQueue slot)).2.Accounts :=
  accounts_commit_same (.pass fun _ => .ok ⟨rfl, rfl, rfl⟩) accounts

theorem accounts_createEvent : kernel.createEvent.2.Accounts := by
  unfold createEvent
  split
  · exact accounts
  · dsimp only
    split <;> exact accounts.of_same rfl rfl

theorem accounts_createMessageQueue : kernel.createMessageQueue.2.Accounts := by
  unfold createMessageQueue
  split
  · exact accounts
  · dsimp only
    split <;> exact accounts.of_same rfl rfl

end

theorem accounts_createPipe
    (fresh : kernel.ipc.drawsFresh = true)
    (accounts : kernel.ipc.Accounts) :
    (kernel.createPipe env ptr len).2.Accounts := by
  unfold createPipe
  dsimp only
  split
  · exact accounts
  split
  · exact accounts
  next opened =>
  split
  · exact accounts.of_same rfl rfl
  · next occupied => exact accounts.createPipe fresh opened occupied

end Kernel

end Vantara
