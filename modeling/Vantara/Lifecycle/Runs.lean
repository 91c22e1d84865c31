import Vantara.Lifecycle.StepMoves

/-!
# Whole runs

At boot there is the kernel task alone.  From there everything stays in order for
as long as thread identifiers last, and an invariant of the moves that steps may
make holds in every state that is reached.
-/

namespace Vantara

open Foundation Lifecycle

namespace Lifecycle

/-- The kernel task, as far as its life is concerned. -/
structure ProcessView.OfKernel (process : ProcessView) : Prop where
  kind : process.kind = .kernelTask
  live : process.state.terminal = false
  summed : process.state = process.summary
  calm : process.waitingFor = none ∧ process.sleepingUntil = none
  unsaved : process.threads tid = some thread →
    thread.context = none ∧ thread.interrupted = none ∧ thread.joining = none

/-- The state of all processes at boot. -/
structure AtBoot (view : View) : Prop where
  kernelTask : view.process pid = some process → pid = 0 ∧ process.OfKernel
  trace : view.trace = []
  idle : view.cpu = none

end Lifecycle

namespace Kernel

variable {kernel : Kernel} {images : List UserlandImage} {frames : List UInt64}

/-- What is decided about the kernel task at boot. -/
def restsAtBoot (process : Process) : Bool :=
  decide (process.pid = 0 ∧ process.kind = .kernelTask ∧ process.state.terminal = false ∧
    process.state = process.threads.summary ∧ process.waitingFor = none ∧
    process.sleepingUntilTick = none) &&
  process.threads.values.all fun thread =>
    thread.resumeContext.isNone && thread.signalReturnContext.isNone &&
      thread.waitingFor.isNone && decide (thread.tid.toNat < 4)

theorem plainTable_rests :
    plainTable.values.all restsAtBoot = true ∧
      plainTable.readyQueue.items.all (fun tid => decide (tid.toNat < 4)) = true ∧
      plainTable.nextTid = 4 ∧ plainTable.trace = [] := by
  decide +kernel

/-- The kernel task rests at boot, and its thread identifiers have been drawn. -/
theorem ofKernel_of_rests (rests : restsAtBoot process = true) :
    process.pid = 0 ∧ process.view.OfKernel ∧
      ∀ tid, (process.view.threads tid).isSome = true → tid.toNat < 4 := by
  simp only [restsAtBoot, Bool.and_eq_true, decide_eq_true_eq, List.all_eq_true,
    Option.isNone_iff_eq_none] at rests
  obtain ⟨⟨isZero, kind, live, summed, calm⟩, threads⟩ := rests
  have ofThread : ∀ tid owned, process.threads.get tid = some owned →
      owned.resumeContext = none ∧ owned.signalReturnContext = none ∧
        owned.waitingFor = none ∧ tid.toNat < 4 := by
    intro tid owned found
    obtain rfl := ThreadStore.tid_of_get found
    obtain ⟨⟨⟨unsaved, idle⟩, free⟩, early⟩ := threads owned (ThreadStore.mem_values_iff.mpr found)
    exact ⟨unsaved, idle, free, early⟩
  refine ⟨isZero, ⟨kind, live, ?_, calm, fun {tid thread} found => ?_⟩, fun tid has => ?_⟩
  · rw [Process.summary_view]
    exact summed
  · obtain ⟨owned, inProcess, rfl⟩ := Option.map_eq_some_iff.mp found
    obtain ⟨unsaved, idle, free, -⟩ := ofThread tid owned inProcess
    exact ⟨unsaved, idle, free⟩
  · rw [Process.view_threads, Option.isSome_map] at has
    obtain ⟨owned, inProcess⟩ := Option.isSome_iff_exists.mp has
    exact (ofThread tid owned inProcess).2.2.2

/-- What a table at boot holds. -/
theorem inOrder_of_table
    (table : kernel.table =
      { plainTable with nextPid := next, privatePool := bootPool frames })
    (ipc : kernel.ipc = .new)
    (requests : kernel.userShellWaitRequested = [])
    (mode : kernel.mode = .eventLoop .input)
    (queue : FirstRequest kernel.pendingPrograms next) :
    kernel.InOrder none ∧ AtBoot (kernel.viewAt none) := by
  obtain ⟨processes, waiting, nextTid, trace⟩ := plainTable_rests
  rw [List.all_eq_true] at processes waiting
  have ofKernel : ∀ {pid process}, (kernel.viewAt none).process pid = some process →
      pid = 0 ∧ process.OfKernel ∧ (process.threads process.mainTid).isSome = true ∧
        ∀ tid, (process.threads tid).isSome = true → tid.toNat < 4 := by
    intro pid process found
    obtain ⟨process, inTable, rfl⟩ := Option.map_eq_some_iff.mp found
    rw [table] at inTable
    obtain ⟨isZero, rests, early⟩ :=
      ofKernel_of_rests (processes process (KeyedStore.mem_of_get inTable))
    obtain rfl := ProcessTable.pid_of_get inTable
    exact ⟨isZero, rests, by rw [Process.view_main]; rfl, early⟩
  have tidBound : (kernel.viewAt none).tidBound = 4 := by
    change kernel.table.nextTid.toNat = 4
    rw [table]
    exact congrArg UInt32.toNat nextTid
  have pidBound : (kernel.viewAt none).pidBound = next.toNat := by
    change kernel.table.nextPid.toNat = _
    rw [table]
  have first : ∀ {pid}, pid ∈ kernel.unborn → pid = 1 ∧ next = 2 := by
    rintro pid ⟨program, listed, rfl⟩
    obtain ⟨isPid, -, -, isNext⟩ := queue.only listed
    exact ⟨isPid, isNext⟩
  have sound : Sound (kernel.viewAt none) := by
    constructor
    case mainPresent => exact fun found => (ofKernel found).2.2.1
    case oneOwner => exact fun left right _ _ => (ofKernel left).1.trans (ofKernel right).1.symm
    case tidDrawn => exact fun found has => tidBound ▸ (ofKernel found).2.2.2 _ has
    case queueDrawn =>
      intro tid queued
      rw [tidBound]
      have listed : tid ∈ plainTable.readyQueue.items := by
        have queued : tid ∈ kernel.table.readyQueue := queued
        rwa [table] at queued
      simpa using waiting tid listed
    case nothingLeft =>
      intro pid process tid thread found terminal
      rw [(ofKernel found).2.1.live] at terminal
      cases terminal
    case kernelLives => exact fun found _ => (ofKernel found).2.1.live
    case kernelContext => exact fun found _ owns => ((ofKernel found).2.1.unsaved owns).1
    case onCpu => exact nofun
    case pidDrawn =>
      intro pid process found
      rw [pidBound, (ofKernel found).1]
      exact queue.drawn
    case unbornDrawn =>
      intro pid pending
      obtain ⟨rfl, rfl⟩ := first pending
      refine ⟨by rw [pidBound]; decide, ?_⟩
      by_contra present
      obtain ⟨process, found⟩ := Option.ne_none_iff_exists'.mp present
      exact absurd (ofKernel found).1 (by decide)
  have steady : kernel.Steady none := by
    constructor
    case sound => exact sound
    case kernelFirst =>
      refine ⟨fun found => ?_, fun pending => ?_, by rw [pidBound]; exact queue.drawn⟩
      · exact iff_of_true (ofKernel found).2.1.kind (ofKernel found).1
      · rw [(first pending).1]
        decide
    case current => rintro _ _ ⟨⟩
    case requests =>
      intro request listed
      rw [requests] at listed
      cases listed
    case pendingOnce => exact queue.once
    case pendingUser => exact fun listed => (queue.only listed).2.2.1
    case waiters =>
      rintro waiter owner ⟨event, listed, -⟩
      rw [ipc] at listed
      simp [Ipc.new] at listed
  refine ⟨⟨steady, fun isUser => ?_, fun _ => rfl⟩, fun found => ?_, ?_, rfl⟩
  · rw [mode] at isUser
    cases isUser
  · exact ⟨(ofKernel found).1, (ofKernel found).2.1⟩
  · change kernel.table.trace = []
    rw [table]
    exact trace

theorem inOrder_boot (images : List UserlandImage) (frames : List UInt64) :
    (boot images frames).InOrder none ∧ AtBoot ((boot images frames).viewAt none) := by
  obtain ⟨ipc, mode, requests, next, table, queue⟩ := requestedKernel_spec images frames
  rw [boot_eq]
  refine inOrder_of_table (Eq.trans ?_ (loopTable_bootTable frames next)) ipc requests mode queue
  rw [← table]
  rfl

/-- What holds at boot, and is preserved by the moves of every permitted step from a
state in order, holds in every run. -/
theorem view_invariant
    {allowed : Kernel → Action → Prop} {holds : View → Prop}
    (enough : ∀ kernel action, allowed kernel action → kernel.table.tidsLeft)
    (initially : ∀ view, AtBoot view → holds view)
    (preserved : ∀ kernel action cpu, kernel.InOrder cpu → allowed kernel action →
      ∀ view move after, Sound view → holds view → kernel.Permitted action cpu view move →
        Moves view move after → holds after)
    (reachable : Transition.ReachableWhere step allowed (boot images frames) kernel) :
    ∃ cpu, kernel.InOrder cpu ∧ holds (kernel.viewAt cpu) := by
  induction reachable with
  | start =>
    obtain ⟨inOrder, atBoot⟩ := inOrder_boot images frames
    exact ⟨none, inOrder, initially _ atBoot⟩
  | next _ permitted stepped ih =>
    obtain ⟨cpu, inOrder, held⟩ := ih
    obtain ⟨next, trail, inOrderAfter⟩ := inOrder.steps (enough _ _ permitted) stepped
    refine ⟨next, inOrderAfter, ?_⟩
    have both := Trail.invariant trail ⟨inOrder.steady.sound, held⟩
      fun view move after before isPermitted moved =>
        And.intro (before.1.preserved moved)
          (preserved _ _ _ inOrder permitted view move after before.1 before.2 isPermitted moved)
    exact both.2

/-- While thread identifiers last, a run of the kernel is a trail of moves. -/
theorem run_refines
    (reachable : Transition.ReachableWhere step (fun kernel _ => kernel.table.tidsLeft)
      (boot images frames) kernel) :
    ∃ cpu, kernel.InOrder cpu ∧ Trail Moves (fun _ _ => True)
      ((boot images frames).viewAt none) (kernel.viewAt cpu) := by
  induction reachable with
  | start => exact ⟨none, (inOrder_boot images frames).1, .start⟩
  | next _ left stepped ih =>
    obtain ⟨cpu, inOrder, trail⟩ := ih
    obtain ⟨next, moved, ordered⟩ := inOrder.steps left stepped
    exact ⟨next, ordered, trail.trans (moved.mono fun _ _ _ => trivial)⟩

namespace Sample

/-- The first program starts a second thread. -/
def twoThreads : List Action := loadInit ++ [startThread]

/-- Every step that leaves enough thread identifiers. -/
def withTids (kernel : Kernel) (_ : Action) : Bool :=
  decide kernel.table.tidsLeft

/-- The first program runs, and its second thread is ready. -/
def sharingKernel : Kernel :=
  (Transition.runWhere step withTids machine twoThreads).get (by decide +kernel)

end Sample

/-- The run in which the first program is loaded and starts its second thread. -/
theorem run_refines_twoThreads :
    (Sample.machine.table.getByTid 5).isSome = false ∧
      (Sample.sharingKernel.table.getByTid 5).isSome = true ∧
      ∃ cpu, Sample.sharingKernel.InOrder cpu ∧ Trail Moves (fun _ _ => True)
        (Sample.machine.viewAt none) (Sample.sharingKernel.viewAt cpu) := by
  have performed : Transition.runWhere step Sample.withTids Sample.machine Sample.twoThreads =
      some Sample.sharingKernel := (Option.some_get _).symm
  exact ⟨by decide +kernel, by decide +kernel, run_refines
    ((Transition.reachableWhere_of_runWhere performed).mono fun _ _ => of_decide_eq_true)⟩

end Kernel

end Vantara
