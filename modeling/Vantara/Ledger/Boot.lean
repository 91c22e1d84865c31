import Vantara.Ledger.Steps

/-!
# The ledger at boot, and over whole runs

At boot the ledger holds the kernel task alone, and perhaps one program waits to
be loaded.  From there every reachable state is in order, so that whatever holds
at boot and is preserved by the entries of every step holds in every run.
-/

namespace Vantara

open Foundation

/-- What is written down about the kernel task. -/
structure Card.OfKernel (card : Card) : Prop where
  kind : card.title.kind = .kernelTask
  group : card.title.group = 0
  session : card.title.session = 0
  root : card.title.root = none
  pending : card.title.pending = 0
  live : card.ended = false
  placed : ¬card.loose
  handlers : card.handlers tid = none

/-- The state of the ledger at boot. -/
structure Ledger.AtBoot (ledger : Ledger) (frames : List UInt64) : Prop where
  kernelTask : ledger.sheet.card pid = some card → pid = 0 ∧ card.OfKernel
  first : program ∈ ledger.queue → program.pid = 1 ∧ program.parentPid = none
  unopened : ledger.ipc = .new
  free : root ∉ ledger.sheet.used
  roots : (frames.take 8).Nodup → ledger.sheet.distinct
  filed : ledger.Filed

namespace Kernel

variable {kernel : Kernel} {images : List UserlandImage} {frames : List UInt64}

/-- The table when the event loop has got its thread. -/
def loopTable (table : ProcessTable) : ProcessTable :=
  let created := table.createKernelThread
  (created.1.bind fun tid => created.2.setKernelThreadState 0 tid .running).getD created.2

/-- The table at boot of a machine without private page tables. -/
def plainTable : ProcessTable :=
  loopTable (bootTable [])

theorem loopTable_bootTable (frames : List UInt64) (next : Pid) :
    loopTable { bootTable frames with nextPid := next } =
      { plainTable with nextPid := next, privatePool := bootPool frames } := by
  rfl

/-- A process whose threads are all the kernel's own. -/
def isKernelTask (process : Process) : Bool :=
  decide (process.kind = .kernelTask ∧ process.processGroupId = 0 ∧ process.sessionId = 0 ∧
    process.addressSpace.p4Frame = none ∧ process.pendingSignals = 0 ∧
    process.state.terminal = false) &&
  process.threads.values.all fun thread =>
    thread.resumeContext.isNone && decide (thread.tid.toNat < firstUserTid) &&
      thread.signalReturnContext.isNone

theorem plainTable_spec :
    (plainTable.values.all fun process => decide (process.pid = 0) && isKernelTask process) =
        true ∧
      plainTable.nextTid = 4 ∧ plainTable.currentUserTidAtomic = 0 ∧
      plainTable.nextPid = 1 := by
  decide +kernel

theorem ofKernel_of_isKernelTask (isKernel : isKernelTask process = true) :
    process.card.OfKernel := by
  simp only [isKernelTask, Bool.and_eq_true, decide_eq_true_eq, List.all_eq_true] at isKernel
  obtain ⟨⟨kind, group, session, root, pending, live⟩, threads⟩ := isKernel
  have ofThread : ∀ tid thread, process.threads.get tid = some thread →
      thread.resumeContext = none ∧ tid.toNat < firstUserTid ∧
        thread.signalReturnContext = none := by
    intro tid thread found
    obtain rfl := ThreadStore.tid_of_get found
    obtain ⟨⟨unsaved, early⟩, idle⟩ := threads thread (ThreadStore.mem_values_iff.mpr found)
    exact ⟨by simpa using unsaved, early, by simpa using idle⟩
  refine ⟨kind, group, session, root, pending, live, ?_, fun {tid} => ?_⟩
  · rintro ⟨tid, thread, found, misplaced⟩
    obtain ⟨unsaved, early, -⟩ := ofThread tid thread found
    simp [Process.Misplaced, kind, unsaved] at misplaced
    omega
  · cases found : process.threads.get tid with
    | none => simp [found]
    | some thread => simp [found, (ofThread tid thread found).2.2]

/-- At most the first program is queued at boot, and its identifier has been drawn. -/
structure FirstRequest (programs : List UserProgram) (next : Pid) : Prop where
  only : program ∈ programs → program.pid = 1 ∧ program.parentPid = none ∧
    ¬asksForKernel program ∧ next = 2
  once : (programs.map UserProgram.pid).Nodup
  drawn : 0 < next.toNat

/-- A ledger over the first table. -/
theorem atBoot_of_table
    (table : kernel.table =
      { plainTable with nextPid := next, privatePool := bootPool frames })
    (ipc : kernel.ipc = .new)
    (queue : FirstRequest kernel.pendingPrograms next) :
    kernel.ledger.AtBoot frames := by
  obtain ⟨processes, nextTid, currentTid, -⟩ := plainTable_spec
  rw [List.all_eq_true] at processes
  have card : ∀ {pid card}, kernel.ledger.sheet.card pid = some card →
      pid = 0 ∧ card.OfKernel := by
    intro pid card inSheet
    obtain ⟨process, found, rfl⟩ := Option.map_eq_some_iff.mp inSheet
    rw [table] at found
    have listed := processes process (KeyedStore.mem_of_get found)
    simp only [Bool.and_eq_true, decide_eq_true_eq] at listed
    obtain rfl := ProcessTable.pid_of_get found
    exact ⟨listed.1, ofKernel_of_isKernelTask listed.2⟩
  have drawn : kernel.ledger.sheet.bound = next.toNat := by
    rw [ledger_sheet, table]
    rfl
  have filed : kernel.ledger.Filed := by
    refine ⟨⟨?_, fun pid found inSheet => (card inSheet).2.placed⟩, fun inSheet => ?_, ?_,
      queue.once⟩
    · rw [ledger_sheet, table]
      refine ⟨?_, .inl currentTid⟩
      change firstUserTid ≤ plainTable.nextTid.toNat
      rw [nextTid]
      decide
    · rw [(card inSheet).1, drawn]
      exact queue.drawn
    · intro program listed
      obtain ⟨isPid, -, notKernel, rfl⟩ := queue.only listed
      refine ⟨?_, ?_, notKernel⟩
      · by_contra present
        obtain ⟨found, inSheet⟩ := Option.ne_none_iff_exists'.mp present
        rw [isPid] at inSheet
        exact absurd (card inSheet).1 (by decide)
      · rw [drawn, isPid]
        decide
  refine ⟨card, fun {program} listed => ?_, ipc, fun {root} => ?_, fun distinct => ?_, filed⟩
  · obtain ⟨isPid, orphan, -⟩ := queue.only listed
    exact ⟨isPid, orphan⟩
  · rw [ledger_sheet, table]
    rintro ⟨slot, listed, -, inUse⟩
    obtain ⟨frame, -, rfl⟩ := List.mem_map.mp listed
    cases inUse
  · rw [ledger_sheet, table]
    change ((bootPool frames).slots.map PreparedP4Slot.p4Frame).Nodup
    simpa [bootPool, Function.comp_def] using distinct

/-- The kernel when the first program has been requested. -/
def requestedKernel (images : List UserlandImage) (frames : List UInt64) : Kernel :=
  match (bootKernel images frames).requestBootInit with
  | .ok (some (_, kernel)) => kernel
  | _ => bootKernel images frames

section

variable (images frames)

theorem boot_eq :
    boot images frames =
      (requestedKernel images frames).withTable
        (loopTable (requestedKernel images frames).table) :=
  rfl

theorem requestedKernel_spec :
    (requestedKernel images frames).ipc = .new ∧
      (requestedKernel images frames).mode = .eventLoop .input ∧
      (requestedKernel images frames).userShellWaitRequested = [] ∧
      ∃ next, (requestedKernel images frames).table = { bootTable frames with nextPid := next } ∧
        FirstRequest (requestedKernel images frames).pendingPrograms next := by
  unfold requestedKernel
  split
  · next pid kernel requested =>
      unfold requestBootInit at requested
      split at requested
      · cases requested
      next image isImage =>
      split at requested
      · cases requested
      next arg isArg =>
      have reserved : (bootKernel images frames).table.reservePid =
          some (1, { bootTable frames with nextPid := 2 }) := rfl
      simp only [queueProgram, reserved, Option.bind_eq_bind, Option.bind_some] at requested
      obtain ⟨⟩ := Option.some.inj (Except.ok.inj requested)
      refine ⟨rfl, rfl, rfl, 2, rfl, fun listed => ?_, List.nodup_singleton _, by decide⟩
      obtain rfl := List.mem_singleton.mp listed
      refine ⟨rfl, rfl, ?_, rfl⟩
      rintro ⟨-, -, isKernel⟩
      have slash := congrArg String.toList isKernel
      simp [UserlandImage.path] at slash
  · exact ⟨rfl, rfl, rfl, 1, rfl, by rintro _ ⟨⟩, List.nodup_nil, by decide⟩

theorem boot_table :
    ∃ next, (boot images frames).table =
      { plainTable with nextPid := next, privatePool := bootPool frames } := by
  obtain ⟨-, -, -, next, table, -⟩ := requestedKernel_spec images frames
  exact ⟨next, (congrArg loopTable table).trans (loopTable_bootTable frames next)⟩

theorem atBoot_boot : (boot images frames).ledger.AtBoot frames := by
  obtain ⟨ipc, -, -, next, table, queue⟩ := requestedKernel_spec images frames
  rw [boot_eq]
  refine atBoot_of_table (Eq.trans ?_ (loopTable_bootTable frames next)) ipc queue
  rw [← table]
  rfl

theorem orderly_boot : (boot images frames).Orderly := by
  refine ⟨(atBoot_boot images frames).filed, fun isUser => ?_⟩
  obtain ⟨-, mode, -⟩ := requestedKernel_spec images frames
  rw [boot_eq] at isUser
  cases mode.symm.trans isUser

end

/-- Every reachable state is in order. -/
theorem orderly_of_reachable
    (reachable : Transition.ReachableWhere step allowed (boot images frames) kernel) :
    kernel.Orderly :=
  reachable.invariant (orderly_boot images frames) fun _ _ _ orderly _ stepped =>
    orderly.preserved stepped

/-- An invariant of the entries made in ledgers that are in order. -/
theorem Trail.of_filed
    {permits : Ledger → Entry → Prop} {holds : Ledger → Prop} {first last : Ledger}
    (trail : Trail Posts permits first last)
    (filed : first.Filed)
    (initially : holds first)
    (preserved : ∀ ledger entry after, ledger.Filed → holds ledger → permits ledger entry →
      Posts ledger entry after → holds after) :
    holds last := by
  induction trail with
  | start => exact initially
  | next earlier permitted posts ih =>
    exact preserved _ _ _ (Trail.filed earlier filed) ih permitted posts

/-- What holds of the ledger at boot, and is preserved by the entries of every
permitted step from a state in order, holds of the ledger in every run. -/
theorem ledger_invariant
    {allowed : Kernel → Action → Prop} {holds : Ledger → Prop}
    (initially : holds (boot images frames).ledger)
    (preserved : ∀ kernel action, kernel.Orderly → allowed kernel action →
      holds kernel.ledger → ∀ ledger entry after, ledger.Filed → holds ledger →
        kernel.Causes action ledger entry → Posts ledger entry after → holds after)
    (reachable : Transition.ReachableWhere step allowed (boot images frames) kernel) :
    holds kernel.ledger := by
  induction reachable with
  | start => exact initially
  | next earlier permitted stepped ih =>
    have orderly := orderly_of_reachable earlier
    exact Trail.of_filed (orderly.keeps stepped).writes orderly.filed ih
      (preserved _ _ orderly permitted ih)

end Kernel

end Vantara
