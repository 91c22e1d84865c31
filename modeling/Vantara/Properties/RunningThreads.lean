import Vantara.Lifecycle.Runs

/-!
# The running thread

A thread counts as running while it is on the processor.  A call that waits or
sleeps blocks the main thread of its process and takes the caller off the
processor, so a caller that is not the main thread goes on counting as running.
-/

namespace Vantara

open Foundation

namespace Lifecycle

variable {view after : View} {process changed : ProcessView} {pid : Pid} {caller : Tid}

/-- Threads of user processes run on the processor only. -/
def OnlyCurrentRuns (view : View) : Prop :=
  ∀ pid process tid thread, view.process pid = some process → process.kind = .userProcess →
    process.threads tid = some thread → thread.state = .running →
      view.cpu = some (pid, tid)

/-- Whether a process has no running thread. -/
def ProcessView.AtRest (process : ProcessView) : Prop :=
  ∀ tid thread, process.threads tid = some thread → thread.state ≠ .running

/-- A wait or a sleep is made by the main thread. -/
def Move.byMain : Move → Prop
  | .wait _ caller main _ _ | .sleep _ caller main _ => caller = main
  | _ => True

theorem ProcessView.atRest_ended {state : ProcessState} (terminal : state.terminal = true) :
    (process.ended state).AtRest := by
  intro tid thread found
  obtain ⟨old, -, rfl⟩ := Option.map_eq_some_iff.mp found
  change threadStateForProcess state ≠ .running
  clear found
  revert terminal
  cases state <;> decide

namespace OnlyCurrentRuns

section

variable (only : OnlyCurrentRuns view)
include only

/-- One process changes, and perhaps the thread on the processor. -/
theorem change
    (processes : view.Becomes pid changed after)
    (others : ∀ other tid, other ≠ pid → view.cpu = some (other, tid) →
      after.cpu = some (other, tid))
    (running : changed.kind = .userProcess → ∀ tid thread, changed.threads tid = some thread →
      thread.state = .running → after.cpu = some (pid, tid)) :
    OnlyCurrentRuns after := by
  intro other process tid thread found user owns isRunning
  rw [processes] at found
  split_ifs at found with same
  · cases found
    rw [same]
    exact running user tid thread owns isRunning
  · exact others other tid same (only other process tid thread found user owns isRunning)

/-- No thread starts to run, and the processor stays as it is. -/
theorem stay
    (found : view.process pid = some process)
    (processes : view.Becomes pid changed after)
    (cpu : after.cpu = view.cpu)
    (kind : changed.kind = process.kind)
    (running : ∀ tid thread, changed.threads tid = some thread → thread.state = .running →
      ∃ old, process.threads tid = some old ∧ old.state = .running) :
    OnlyCurrentRuns after := by
  refine only.change processes (fun _ _ _ isCurrent => cpu.trans isCurrent) ?_
  intro user tid thread owns isRunning
  obtain ⟨old, foundOld, wasRunning⟩ := running tid thread owns isRunning
  exact cpu.trans (only pid process tid old found (kind ▸ user) foundOld wasRunning)

/-- A process comes to rest, and no other one is on the processor unless it still is. -/
theorem rest
    (processes : view.Becomes pid changed after)
    (others : ∀ other tid, other ≠ pid → view.cpu = some (other, tid) →
      after.cpu = some (other, tid))
    (atRest : changed.AtRest) :
    OnlyCurrentRuns after :=
  only.change processes others fun _ tid thread owns isRunning =>
    absurd isRunning (atRest tid thread owns)

/-- A thread enters the idle processor. -/
theorem enter
    (idle : view.cpu = none)
    (processes : view.Becomes pid changed after)
    (cpu : after.cpu = some (pid, tid))
    (running : ∀ other thread, changed.threads other = some thread → thread.state = .running →
      other = tid) :
    OnlyCurrentRuns after := by
  refine only.change processes (fun other tid _ isCurrent => ?_) ?_
  · rw [idle] at isCurrent
    cases isCurrent
  · intro _ other thread owns isRunning
    rw [cpu, running other thread owns isRunning]

/-- While a thread is on the processor, no other thread of its process runs. -/
theorem isCaller (sound : Sound view)
    (current : view.cpu = some (pid, caller))
    (found : view.process pid = some process)
    (owns : process.threads tid = some thread)
    (isRunning : thread.state = .running) :
    tid = caller := by
  have isCurrent := only pid process tid thread found (sound.current current found).1
    owns isRunning
  rw [current] at isCurrent
  cases isCurrent
  rfl

/-- A process none of whose threads is on the processor is at rest. -/
theorem atRest
    (found : view.process pid = some process)
    (user : process.kind = .userProcess)
    (elsewhere : ∀ tid, view.cpu ≠ some (pid, tid)) :
    process.AtRest :=
  fun tid thread owns isRunning =>
    elsewhere tid (only pid process tid thread found user owns isRunning)

end

end OnlyCurrentRuns

/-- No other process is on the processor. -/
theorem View.elsewhere_of_current (current : view.cpu = some (pid, caller)) (differ : other ≠ pid) :
    view.cpu ≠ some (other, tid) := by
  rw [current]
  rintro ⟨⟩
  exact differ rfl

/-- A running thread that has not just been put in place was there before. -/
theorem ProcessView.found_of_setThread
    (found : (process.setThread target replacement).threads tid = some thread)
    (running : thread.state = .running)
    (notRunning : replacement.state ≠ .running) :
    tid ≠ target ∧ process.threads tid = some thread := by
  rw [ProcessView.setThread_threads] at found
  split_ifs at found with same
  · cases found
    exact absurd running notRunning
  · exact ⟨same, found⟩

/-- A process whose only running thread is put to rest is at rest. -/
theorem ProcessView.atRest_setThread
    (only : ∀ tid thread, process.threads tid = some thread → thread.state = .running →
      tid = target)
    (notRunning : replacement.state ≠ .running) :
    (process.setThread target replacement).AtRest := by
  intro tid thread found isRunning
  obtain ⟨differ, foundOld⟩ := ProcessView.found_of_setThread found isRunning notRunning
  exact differ (only tid thread foundOld isRunning)

/-- A thread that exits leaves the others at rest. -/
theorem ProcessView.atRest_exitThread
    {process : ProcessView} {state : ThreadState}
    (only : ∀ tid thread, process.threads tid = some thread → thread.state = .running →
      tid = target)
    (terminal : state.terminal = true) :
    (process.exitThread target state).AtRest := by
  intro tid thread found isRunning
  rw [ProcessView.exitThread_threads] at found
  obtain ⟨old, foundOld, rfl⟩ := Option.map_eq_some_iff.mp found
  split_ifs at isRunning with same joins
  · rw [show state = .running from isRunning] at terminal
    cases terminal
  · exact same (only tid old foundOld isRunning)

theorem OnlyCurrentRuns.preserved (sound : Sound view) (only : OnlyCurrentRuns view)
    (byMain : move.byMain)
    (stays : move ≠ .abandon)
    (moved : Moves view move after) :
    OnlyCurrentRuns after := by
  -- A replaced thread that does not run leaves the running ones as they were.
  have replaced : ∀ {process : ProcessView} {target : Tid} {replacement : ThreadView},
      replacement.state ≠ .running → ∀ tid thread,
        (process.setThread target replacement).threads tid = some thread →
        thread.state = .running → ∃ old, process.threads tid = some old ∧ old.state = .running :=
    fun notRunning tid thread found isRunning =>
      ⟨thread, (ProcessView.found_of_setThread found isRunning notRunning).2, isRunning⟩
  cases moved with
  | drawTid | request | discard | forget | skip | answer => exact only
  | launch _ _ idle =>
    refine only.enter idle (fun _ => rfl) rfl fun other thread found _ => ?_
    rw [ProcessView.launched_threads] at found
    split_ifs at found with same
    exact same
  | spawn _ _ found | reapThread _ found | wake _ found | stop _ found | notify _ found
  | awaken found | resumeJob found | handle _ _ _ found =>
    exact only.stay found (fun _ => rfl) rfl rfl (replaced (by exact nofun))
  | park _ current found _ parked =>
    refine only.rest (fun _ => rfl)
      (fun _ _ differ isCurrent =>
        absurd isCurrent (View.elsewhere_of_current current differ))
      (ProcessView.atRest_setThread (fun _ _ foundOld wasRunning =>
        only.isCaller sound current found foundOld wasRunning) ?_)
    rcases parked.spec.1 with ready | blocked
    · rw [ready]
      exact nofun
    · rw [blocked]
      exact nofun
  | exitThread current found _ terminal =>
    exact only.rest (fun _ => rfl)
      (fun _ _ differ isCurrent =>
        absurd isCurrent (View.elsewhere_of_current current differ))
      (ProcessView.atRest_exitThread (fun _ _ foundOld wasRunning =>
        only.isCaller sound current found foundOld wasRunning) terminal)
  | finish =>
    refine only.rest (fun _ => rfl) (fun other tid differ isCurrent => ?_)
      (ProcessView.atRest_ended ?_)
    · change view.cpu.filter _ = _
      rw [isCurrent]
      simp [Option.filter, differ]
    · split_ifs <;> rfl
  | collect | reap | bridge =>
    exact only.rest (fun _ => rfl) (fun _ _ _ isCurrent => isCurrent)
      (ProcessView.atRest_ended rfl)
  | dropWait found hasMain =>
    refine only.stay found (fun _ => rfl) rfl rfl fun tid thread owns isRunning => ?_
    rw [ProcessView.setThread_threads] at owns
    split_ifs at owns with same
    · cases owns
      exact ⟨_, (congrArg _ same).trans hasMain, isRunning⟩
    · exact ⟨thread, owns, isRunning⟩
  | wait current found | sleep _ current found =>
    obtain rfl := byMain
    exact only.rest (fun _ => rfl)
      (fun _ _ differ isCurrent =>
        absurd isCurrent (View.elsewhere_of_current current differ))
      (ProcessView.atRest_setThread (fun _ _ foundOld wasRunning =>
        only.isCaller sound current found foundOld wasRunning) nofun)
  | abandon => exact absurd rfl stays
  | remove =>
    intro other process tid thread hasOther
    dsimp only at hasOther
    split_ifs at hasOther
    exact only other process tid thread hasOther
  | resume _ idle found _ user =>
    refine only.enter idle (fun _ => rfl) rfl fun other thread owns isRunning => ?_
    by_contra differ
    simp only [ProcessView.setMain_threads, ProcessView.setThread_threads, if_neg differ]
      at owns
    exact only.atRest found user (by simp [idle]) other thread owns isRunning
  | dispatch idle _ found owns _ saved =>
    refine only.enter idle (fun _ => rfl) rfl fun other thread hasOther isRunning => ?_
    by_contra differ
    rw [ProcessView.refresh_threads, ProcessView.setThread_threads, if_neg differ]
      at hasOther
    exact only.atRest found (sound.user_of_context found owns saved) (by simp [idle])
      other thread hasOther isRunning
  | kernelThread _ _ kernel =>
    refine only.change (fun _ => rfl) (fun _ _ _ isCurrent => isCurrent) fun user => ?_
    cases kernel.symm.trans user

end Lifecycle

open Lifecycle

namespace Kernel

variable {kernel : Kernel} {images : List UserlandImage} {frames : List UInt64}

/-- Whether a call blocks the process on behalf of a thread other than the main one. -/
def waitsBeside (kernel : Kernel) : Action → Bool
  | .syscall frame _ => kernel.blocksProcess frame &&
    decide (kernel.currentUserThread ≠ kernel.currentProcess.map Process.mainTid)
  | _ => false

/-- The steps that leave no thread running off the processor. -/
def keepsOneRunning (kernel : Kernel) (action : Action) : Bool :=
  decide kernel.table.tidsLeft && !kernel.strands action

theorem waitsBeside_of_strands (spared : kernel.strands action = false) :
    kernel.waitsBeside action = false := by
  cases action with
  | «syscall» frame env => exact (Bool.or_eq_false_iff.mp spared).2
  | _ => rfl

/-- A step that is no such call waits and sleeps by main threads only. -/
theorem byMain_of_permitted
    (inOrder : kernel.InOrder cpu)
    (together : kernel.waitsBeside action = false)
    (permitted : kernel.Permitted action cpu view move)
    (moved : Moves view move after) :
    move.byMain := by
  -- The caller of a system call is the current thread, and so the main one.
  have isMain : ∀ {frame env pid caller process}, view = kernel.viewAt cpu →
      action = .syscall frame env → kernel.blocksProcess frame = true →
      view.cpu = some (pid, caller) → view.process pid = some process →
        caller = process.mainTid := by
    rintro frame env pid caller process rfl rfl blocks current found
    obtain ⟨isPid, isTid, -⟩ := inOrder.steady.current current
    obtain ⟨owner, inTable, rfl⟩ := Option.map_eq_some_iff.mp found
    have currentProcess : kernel.currentProcess = some owner := by
      simp [Kernel.currentProcess, isPid, inTable]
    simpa [waitsBeside, blocks, isTid, currentProcess] using together
  cases permitted with
  | free isFree => cases moved <;> first | exact trivial | cases isFree
  | bridge | abandon | stop => exact trivial
  | call first isCall _ starts =>
    cases moved with
    | wait current found =>
      exact isMain first isCall starts current found
    | sleep _ current found =>
      exact isMain first isCall starts current found
    | handle => exact trivial
    | _ => exact (False.elim starts)

/-- A step that strands no thread abandons none. -/
theorem ne_abandon_of_permitted
    (onCpu : kernel.strands action = false)
    (permitted : kernel.Permitted action cpu view move) :
    move ≠ .abandon := by
  rintro rfl
  cases permitted with
  | free isFree => cases isFree
  | abandon stranded => cases onCpu.symm.trans stranded
  | call _ _ _ starts => exact starts

/-- A running thread is the current one, there is one of them at most, and there is none
while the kernel is in its event loop. -/
structure OneRunning (kernel : Kernel) : Prop where
  current : ∀ process ∈ kernel.table.values, process.kind = .userProcess →
    ∀ thread ∈ process.threads.values, thread.state = .running →
      kernel.currentUserProcess = some process.pid ∧ kernel.currentUserThread = some thread.tid
  unique : ∀ first ∈ kernel.table.values, first.kind = .userProcess →
    ∀ second ∈ kernel.table.values, second.kind = .userProcess →
    ∀ left ∈ first.threads.values, left.state = .running →
    ∀ right ∈ second.threads.values, right.state = .running → first = second ∧ left = right
  loop : ∀ stage, kernel.mode = .eventLoop stage →
    ∀ process ∈ kernel.table.values, process.kind = .userProcess →
    ∀ thread ∈ process.threads.values, thread.state ≠ .running

/-- If no call blocks the process on behalf of a thread other than the main one, no answer
is taken for the landing value, every private memory is prepared and the thread
identifiers last, then one thread runs at most. -/
theorem one_thread_running
    (reachable : Transition.ReachableWhere step
      (fun kernel action => kernel.keepsOneRunning action = true) (boot images frames) kernel) :
    kernel.OneRunning := by
  have invariant : ∃ cpu, kernel.InOrder cpu ∧
      OnlyCurrentRuns (kernel.viewAt cpu) := by
    refine view_invariant (fun kernel action kept => ?_) (fun view atBoot => ?_) ?_ reachable
    · simp only [keepsOneRunning, Bool.and_eq_true, decide_eq_true_eq] at kept
      exact kept.1
    · intro pid process tid thread found user
      cases (atBoot.kernelTask found).2.kind.symm.trans user
    · intro kernel action cpu inOrder kept view move after sound only permitted moved
      simp only [keepsOneRunning, Bool.and_eq_true, Bool.not_eq_true'] at kept
      exact only.preserved sound
        (byMain_of_permitted inOrder (waitsBeside_of_strands kept.2) permitted moved)
        (ne_abandon_of_permitted kept.2 permitted) moved
  obtain ⟨cpu, inOrder, only⟩ := invariant
  have isCurrent : ∀ process ∈ kernel.table.values, process.kind = .userProcess →
      ∀ thread ∈ process.threads.values, thread.state = .running →
        cpu = some (process.pid, thread.tid) :=
    fun process listed user thread listedThread isRunning =>
      only process.pid process.view thread.tid thread.view
        (ProcessTable.view_found (KeyedStore.get_of_mem listed)) user
        (Process.view_thread (ThreadStore.mem_values_iff.mp listedThread)) isRunning
  refine ⟨fun process listed user thread listedThread isRunning => ?_,
    fun first isFirst firstUser second isSecond secondUser left isLeft leftRuns right isRight
      rightRuns => ?_,
    fun stage inLoop process listed user thread listedThread isRunning => ?_⟩
  · obtain ⟨isPid, isTid, -⟩ := inOrder.steady.current
      (isCurrent process listed user thread listedThread isRunning)
    exact ⟨isPid, isTid⟩
  · have same := (isCurrent first isFirst firstUser left isLeft leftRuns).symm.trans
      (isCurrent second isSecond secondUser right isRight rightRuns)
    simp only [Option.some.injEq, Prod.mk.injEq] at same
    obtain rfl := kernel.table.processes.eq_of_mem_of_key_eq isFirst isSecond same.1
    exact ⟨rfl, first.threads.store.eq_of_mem_of_key_eq isLeft isRight same.2⟩
  · have isSome := isCurrent process listed user thread listedThread isRunning
    rw [inOrder.inMode.loop inLoop] at isSome
    cases isSome

namespace Sample

/-- A second thread is started and gets the processor. -/
def secondThread : List Action := loadInit ++ [startThread, call 17 0 0]

/-- The second thread sleeps, which blocks the main one, and the sleep ends. -/
def sleepBeside : List Action :=
  secondThread ++ [call 19 10 0, .kernelTick, .input none, .pending .loadFailed, .ready]

/-- The threads of user processes that count as running. -/
def runningTids (kernel : Kernel) : List Tid :=
  (kernel.table.values.filter fun process => decide (process.kind = .userProcess)).flatMap
    fun process => (process.threads.values.filter fun thread =>
      decide (thread.state = .running)).map Thread.tid

def secondKernel : Kernel :=
  (Transition.runWhere step keepsOneRunning machine secondThread).get (by decide +kernel)

end Sample

/-- The second thread runs, and nothing else does. -/
theorem one_thread_running_secondThread :
    Sample.runningTids Sample.secondKernel = [5] ∧ Sample.secondKernel.OneRunning := by
  have performed : Transition.runWhere step keepsOneRunning Sample.machine Sample.secondThread =
      some Sample.secondKernel := (Option.some_get _).symm
  exact ⟨by decide +kernel, one_thread_running (Transition.reachableWhere_of_runWhere performed)⟩

/-- A thread sleeps that is not the main one.  When the sleep is over the main thread is
put on the processor, and the one that slept still counts as running. -/
theorem two_threads_running_after_sleep :
    (Transition.run step Sample.machine Sample.sleepBeside).map
        (fun kernel => (kernel.mode, kernel.currentUserThread, Sample.runningTids kernel)) =
      some (.user, some 4, [4, 5]) := by
  decide +kernel

end Kernel

end Vantara
