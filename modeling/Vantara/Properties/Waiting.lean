import Vantara.Ledger.Boot

/-!
# What a wait says about its target

A wait should tell the children of the caller that have not been collected from
all other processes.  It looks at the program loaded next whoever requested it,
at no other program in the queue, and it does not distinguish a child that has
been collected from one that still runs.
-/

namespace Vantara

open Foundation

namespace Kernel

variable {kernel : Kernel} {images : List UserlandImage} {frames : List UInt64}

/-- A child of the parent, queued or in the table, whose status has not been
collected. -/
def uncollectedChild (kernel : Kernel) (parent child : Pid) : Bool :=
  (kernel.pendingPrograms.any fun program =>
    decide (program.pid = child ∧ program.parentPid = some parent)) ||
  (kernel.table.get child).any fun process =>
    decide (process.parentPid = some parent ∧ process.state ≠ .reaped)

/-- A wait refuses its target as foreign exactly if it is not an uncollected child,
and blocks the caller only for such a child. -/
def ClassifiesWait (kernel : Kernel) (frame : SyscallFrame) (parent child : Pid) : Prop :=
  (((kernel.waitForPendingChild frame).1 = .error .noSuchProcess ∨
      (kernel.waitForPendingChild frame).1 = .error .notChild) ↔
    kernel.uncollectedChild parent child = false) ∧
  (((kernel.waitForPendingChild frame).2.table.get parent).map Process.state = some .blocked →
    kernel.uncollectedChild parent child = true)

/-- The target, if it is loaded next, was requested by the caller; if it is queued
further back, it was not; and it is not a child that has been collected. -/
def waitsInOrder (kernel : Kernel) (parent child : Pid) : Bool :=
  (kernel.pendingPrograms.head?.all fun program =>
    decide (program.pid = child → program.parentPid = some parent)) &&
  (kernel.pendingPrograms.tail.all fun program =>
    decide (program.pid = child → program.parentPid ≠ some parent)) &&
  (kernel.table.get child).all fun process =>
    decide (process.parentPid = some parent → process.state ≠ .reaped)

/-- A process in the table is not queued. -/
theorem not_queued_of_get
    (filed : kernel.ledger.Filed)
    (found : kernel.table.get child = some process) :
    ∀ program ∈ kernel.pendingPrograms, program.pid ≠ child := by
  rintro program listed rfl
  have absent := (filed.queued (by exact listed)).1
  rw [ledger_sheet, ProcessTable.card_of_get found] at absent
  cases absent

/-- For a process in the table only its record counts. -/
theorem uncollectedChild_of_get
    (filed : kernel.ledger.Filed)
    (found : kernel.table.get child = some process) :
    kernel.uncollectedChild parent child =
        decide (process.parentPid = some parent ∧ process.state ≠ .reaped) ∧
      kernel.waitsInOrder parent child =
        decide (process.parentPid = some parent → process.state ≠ .reaped) := by
  have unqueued := not_queued_of_get filed found
  have nobody : (kernel.pendingPrograms.any fun program =>
      decide (program.pid = child ∧ program.parentPid = some parent)) = false := by
    rw [List.any_eq_false]
    intro program listed
    simp [unqueued program listed]
  have head : (kernel.pendingPrograms.head?.all fun program =>
      decide (program.pid = child → program.parentPid = some parent)) = true := by
    rw [Option.all_eq_true]
    intro program isHead
    simp [unqueued program (List.mem_of_mem_head? isHead)]
  have tail : (kernel.pendingPrograms.tail.all fun program =>
      decide (program.pid = child → program.parentPid ≠ some parent)) = true := by
    rw [List.all_eq_true]
    intro program listed
    simp [unqueued program (List.mem_of_mem_tail listed)]
  simp only [uncollectedChild, waitsInOrder, nobody, head, tail, found, Option.any_some,
    Option.all_some, Bool.false_or, Bool.true_and, and_self]

/-- For a process that is not in the table only the queue counts. -/
theorem uncollectedChild_of_absent
    (filed : kernel.ledger.Filed)
    (absent : kernel.table.get child = none) :
    (kernel.uncollectedChild parent child = true ↔
      ∃ program ∈ kernel.pendingPrograms, program.pid = child ∧
        program.parentPid = some parent) ∧
    (kernel.waitsInOrder parent child = true ↔
      (kernel.pendingPid = some child ↔ kernel.uncollectedChild parent child = true)) := by
  have uncollected : kernel.uncollectedChild parent child = true ↔
      ∃ program ∈ kernel.pendingPrograms, program.pid = child ∧
        program.parentPid = some parent := by
    simp [uncollectedChild, absent]
  refine ⟨uncollected, ?_⟩
  have distinct := filed.distinct
  rw [uncollected]
  simp only [ledger_queue] at distinct
  simp only [waitsInOrder, pendingPid, absent, Option.all_none, Bool.and_true, Bool.and_eq_true]
  cases queue : kernel.pendingPrograms with
  | nil => simp
  | cons first rest =>
    rw [queue, List.map_cons, List.nodup_cons] at distinct
    simp only [List.head?_cons, List.tail_cons, Option.all_some, decide_eq_true_eq,
      List.all_eq_true, Option.map_some, Option.some.injEq, List.mem_cons, exists_eq_or_imp]
    constructor
    · rintro ⟨own, foreign⟩
      refine ⟨fun isFirst => .inl ⟨isFirst, own isFirst⟩, ?_⟩
      rintro (⟨isFirst, -⟩ | ⟨program, listed, isChild, isParent⟩)
      · exact isFirst
      · exact absurd isParent (foreign program listed isChild)
    · intro agrees
      refine ⟨fun isFirst => ?_, fun program listed isChild isParent => ?_⟩
      · obtain ⟨-, isParent⟩ | ⟨program, listed, isChild, -⟩ := agrees.mp isFirst
        · exact isParent
        · exact absurd (List.mem_map.mpr ⟨program, listed, isChild.trans isFirst.symm⟩)
            distinct.1
      · have isFirst := agrees.mpr (.inr ⟨program, listed, isChild, isParent⟩)
        exact distinct.1 (List.mem_map.mpr ⟨program, listed, isChild.trans isFirst.symm⟩)

theorem target_of_reapChild {table : ProcessTable}
    (collected : table.reapChild parent child = some result) :
    ∃ target, table.get child = some target ∧ target.parentPid = some parent ∧
      (target.state = .exited ∨ target.state = .zombie) := by
  obtain ⟨target, found, rest⟩ := Option.bind_eq_some_iff.mp collected
  split_ifs at rest with notParent notOver
  refine ⟨target, found, by simpa using notParent, ?_⟩
  by_contra neither
  push Not at neither
  exact notOver neither

theorem markWaiting_of_get {table : ProcessTable}
    (now : UInt64) (child : Pid) (context : UserResumeContext)
    (found : table.get parent = some process) :
    ∃ waiting, table.markWaiting now parent child context = some waiting ∧
      (waiting.get parent).map Process.state = some .blocked := by
  obtain rfl := ProcessTable.pid_of_get found
  have stays : (table.removeFromReadyQueue process.pid).get process.pid = some process := found
  simp only [ProcessTable.markWaiting, stays]
  exact ⟨_, rfl, by simp⟩

/-- A wait says the truth about its target exactly if the target is in order. -/
theorem waitForPendingChild_classifies_iff
    (reachable : Transition.Reachable step (boot images frames) kernel)
    (inUserMode : kernel.mode = .user)
    (isCaller : kernel.currentUserProcess = some parent)
    (isTarget : Word.toUInt32? frame.arg0 = some child) :
    kernel.ClassifiesWait frame parent child ↔ kernel.waitsInOrder parent child = true := by
  obtain ⟨filed, occupied⟩ := orderly_of_reachable reachable
  obtain ⟨pid, tid, attends⟩ := occupied inUserMode
  obtain rfl := Option.mem_unique isCaller attends.process
  obtain ⟨caller, owned, foundCaller, -, -, running, -⟩ := attends.runs
  have stays : (kernel.table.get parent).map Process.state ≠ some .blocked := by
    simp [foundCaller, running]
  unfold ClassifiesWait waitForPendingChild
  rw [isCaller, isTarget]
  dsimp only
  cases collected : kernel.table.reapChild parent child with
  | some result =>
    obtain ⟨status, table⟩ := result
    obtain ⟨process, -, found, -, -, stillRuns, -⟩ :=
      ProcessTable.onCpu_reapChild attends.runs collected
    obtain ⟨target, foundTarget, isParent, isOver⟩ := target_of_reapChild collected
    have notReaped : target.state ≠ .reaped := by
      obtain isOver | isOver := isOver <;> simp [isOver]
    obtain ⟨uncollected, inOrder⟩ := @uncollectedChild_of_get _ _ _ parent filed foundTarget
    have notBlocked : (((kernel.withTable (table.record
        (.answered parent child status))).table.get parent).map Process.state) ≠
          some .blocked := by
      have found' : (kernel.withTable (table.record
        (.answered parent child status))).table.get parent = some process := found
      simp [found', stillRuns]
    simp [uncollected, inOrder, isParent, notReaped, notBlocked]
  | none =>
    by_cases isNext : kernel.pendingPid = some child
    · have queued : ∃ program ∈ kernel.pendingPrograms, program.pid = child := by
        obtain ⟨program, isHead, isChild⟩ := Option.map_eq_some_iff.mp isNext
        exact ⟨program, List.mem_of_mem_head? isHead, isChild⟩
      have absent : kernel.table.get child = none := by
        obtain ⟨program, listed, rfl⟩ := queued
        simpa using (filed.queued (by exact listed)).1
      obtain ⟨table, waits, blocked⟩ :=
        markWaiting_of_get kernel.ticks child (.fromSyscallFrame frame) foundCaller
      have after : (((kernel.withTable ((kernel.recordSaved parent (.fromSyscallFrame frame)
          table).record (.waiting parent (kernel.currentUserThread.getD 0)
            child))).requestUserShellWait parent child).table.get parent).map Process.state =
          some .blocked := by
        rw [← blocked]
        change ((kernel.recordSaved parent (.fromSyscallFrame frame) table).get parent).map
          Process.state = _
        unfold recordSaved
        split <;> rfl
      obtain ⟨-, inOrder⟩ := @uncollectedChild_of_absent _ _ parent filed absent
      simp only [isNext, ne_eq, not_true_eq_false, if_false, waits, after, inOrder]
      simp
    · simp only [ne_eq, isNext, not_false_eq_true, if_true]
      cases found : kernel.table.get child with
      | none =>
        obtain ⟨-, inOrder⟩ := @uncollectedChild_of_absent _ _ parent filed found
        simp [ProcessTable.waitTargetStatus, found, inOrder, isNext, stays]
      | some target =>
        obtain ⟨uncollected, inOrder⟩ := @uncollectedChild_of_get _ _ _ parent filed found
        rw [uncollected, inOrder]
        by_cases isParent : target.parentPid = some parent
        · have notOver : target.state ≠ .exited ∧ target.state ≠ .zombie := by
            simp only [ProcessTable.reapChild, found, Option.bind_eq_bind, Option.bind_some,
              isParent, ne_eq, not_true_eq_false, if_false] at collected
            by_contra isOver
            simp [isOver] at collected
          simp [ProcessTable.waitTargetStatus, found, isParent, notOver, stays]
        · simp [ProcessTable.waitTargetStatus, found, isParent, stays]

/-- Two programs are requested, and the first of them is loaded. -/
def twoShellsRun : List Action :=
  Sample.loadInit ++
    [Sample.execShell, Sample.execShell, Sample.call 17 0 0, .input none, Sample.load]

/-- Process 2 runs, and program 3 of process 1 is loaded next. -/
def twoShells : Kernel :=
  (Transition.run step Sample.machine twoShellsRun).get (by decide +kernel)

theorem waitForPendingChild_classifies_twoShells :
    Transition.run step Sample.machine twoShellsRun = some twoShells ∧ twoShells.mode = .user ∧
      twoShells.currentUserProcess = some 2 ∧
      twoShells.ClassifiesWait (Sample.frame 14 1 0 0 0) 2 1 := by
  have performed : Transition.run step Sample.machine twoShellsRun = some twoShells :=
    (Option.some_get _).symm
  refine ⟨performed, by decide +kernel, by decide +kernel, ?_⟩
  exact (waitForPendingChild_classifies_iff (Transition.reachable_of_run performed)
    (by decide +kernel) (by decide +kernel) (by decide +kernel)).mpr (by decide +kernel)

/-- Process 2 is left waiting for a program of process 1. -/
theorem wait_for_foreign_program :
    (Transition.run step Sample.machine (twoShellsRun ++ [Sample.call 14 3 0])).map
        (fun kernel => (kernel.pendingPrograms.map fun program => (program.pid, program.parentPid),
          (kernel.table.get 2).map fun process => (process.state, process.waitingFor))) =
      some ([(3, some 1)], some (.blocked, some 3)) := by
  decide +kernel

end Kernel

end Vantara
