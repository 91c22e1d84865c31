import Vantara.Lifecycle.Runs

/-!
# Processes and the states of their threads

The state of a process summarizes those of its threads, and the threads that can
go on wait in the ready queue.  Waiting, sleeping and stopping set the state of
the process and of its main thread and empty the queue of all its threads,
whatever the other threads do.
-/

namespace Vantara

open Foundation

/-- How much a thread decides about the state of its process. -/
def ThreadState.rank : ThreadState → Nat
  | .running => 4
  | .ready => 3
  | .blocked => 2
  | .stopped => 1
  | _ => 0

namespace Lifecycle

variable {view after : View} {process changed : ProcessView} {pid : Pid} {move : Move}

/-! ## Moves on behalf of all threads -/

/-- The threads of a process other than its main one meet a condition. -/
def View.OthersMeet (view : View) (pid : Pid) (test : ThreadView → Bool) : Prop :=
  ∀ process tid thread, view.process pid = some process → process.threads tid = some thread →
    tid ≠ process.mainTid → test thread = true

/-- A move that blocks or stops a process as a whole finds its other threads in given
states. -/
def Move.Beside (view : View) (blocking stopping : ThreadView → Bool) : Move → Prop
  | .wait pid _ _ _ _ | .sleep pid _ _ _ => view.OthersMeet pid blocking
  | .stop pid _ => view.OthersMeet pid stopping
  | _ => True

/-! ## Summaries -/

namespace ProcessView

/-- A thread of the highest rank decides. -/
theorem summary_eq
    {process : ProcessView} {state : ProcessState}
    (found : process.threads tid = some thread)
    (isState : thread.state = threadStateForProcess state)
    (decides : 0 < thread.state.rank)
    (highest : ∀ other found, process.threads other = some found →
      found.state.rank ≤ thread.state.rank) :
    process.summary = state := by
  have present : process.AnyIn thread.state := ⟨tid, thread, found, rfl⟩
  have absent : ∀ higher : ThreadState, thread.state.rank < higher.rank →
      ¬process.AnyIn higher := by
    rintro higher above ⟨other, otherThread, hasOther, rfl⟩
    exact absurd (highest other otherThread hasOther) (Nat.not_le.mpr above)
  rw [isState] at present absent decides
  unfold summary
  cases state with
  | running => exact if_pos present
  | ready =>
    rw [if_neg (absent .running (by decide))]
    exact if_pos present
  | blocked =>
    rw [if_neg (absent .running (by decide)), if_neg (absent .ready (by decide))]
    exact if_pos present
  | stopped =>
    rw [if_neg (absent .running (by decide)), if_neg (absent .ready (by decide)),
      if_neg (absent .blocked (by decide))]
    exact if_pos present
  | created | exited | zombie | reaped => cases decides

/-- No thread has a higher rank than the summary. -/
theorem rank_le_of_summary (found : process.threads tid = some thread) :
    thread.state.rank ≤ (threadStateForProcess process.summary).rank := by
  have absent : ∀ state, ¬process.AnyIn state → thread.state ≠ state :=
    fun state none isState => none ⟨tid, thread, found, isState⟩
  unfold summary
  split_ifs with running ready blocked stopped
  · cases thread.state <;> decide
  · have := absent .running running
    revert this
    cases thread.state <;> decide
  · have notRunning := absent .running running
    have notReady := absent .ready ready
    revert notRunning notReady
    cases thread.state <;> decide
  · have notRunning := absent .running running
    have notReady := absent .ready ready
    have notBlocked := absent .blocked blocked
    revert notRunning notReady notBlocked
    cases thread.state <;> decide
  · have notRunning := absent .running running
    have notReady := absent .ready ready
    have notBlocked := absent .blocked blocked
    have notStopped := absent .stopped stopped
    revert notRunning notReady notBlocked notStopped
    cases thread.state <;> decide

/-- The main thread decides when it is replaced by one of the highest rank. -/
theorem summary_setMain
    {process : ProcessView} {state : ProcessState} {main : ThreadView}
    (isState : main.state = threadStateForProcess state)
    (decides : 0 < (threadStateForProcess state).rank)
    (highest : ∀ tid thread, process.threads tid = some thread → tid ≠ process.mainTid →
      thread.state.rank ≤ (threadStateForProcess state).rank) :
    (process.setMain state main).summary = state := by
  rw [← isState] at decides highest
  refine @summary_eq process.mainTid main _ state ?_ isState decides ?_
  · simp
  · intro other found hasOther
    simp only [setMain_threads, setThread_threads] at hasOther
    split_ifs at hasOther with same
    · cases hasOther
      exact le_rfl
    · exact highest other found hasOther same

/-- A thread is replaced by one in the same state. -/
theorem summary_setThread_of_state
    {process : ProcessView} {replacement : ThreadView}
    (found : process.threads target = some thread)
    (sameState : replacement.state = thread.state) :
    (process.setThread target replacement).summary = process.summary := by
  have same : ∀ state, (process.setThread target replacement).AnyIn state ↔
      process.AnyIn state := by
    intro state
    constructor
    · rintro ⟨tid, owned, foundOwned, isState⟩
      rw [setThread_threads] at foundOwned
      split_ifs at foundOwned
      · cases foundOwned
        exact ⟨target, thread, found, sameState ▸ isState⟩
      · exact ⟨tid, owned, foundOwned, isState⟩
    · rintro ⟨tid, owned, foundOwned, isState⟩
      by_cases isTarget : tid = target
      · rw [isTarget, found] at foundOwned
        cases foundOwned
        exact ⟨target, replacement, setThread_self, sameState.trans isState⟩
      · exact ⟨tid, owned, by rw [setThread_threads, if_neg isTarget, foundOwned], isState⟩
  have sameAny : (process.setThread target replacement).AnyIn = process.AnyIn :=
    funext fun state => propext (same state)
  unfold summary
  rw [sameAny]

end ProcessView

/-- The state of a process that has not ended. -/
def ProcessView.Summed (process : ProcessView) : Prop :=
  process.state.terminal = false → process.state = process.summary

theorem ProcessView.summed_refresh : process.refresh.Summed := by
  intro live
  rw [ProcessView.refresh_terminal] at live
  rw [ProcessView.refresh_state_of_live live]
  rfl

/-- The state of every process summarizes its threads. -/
def Summed (view : View) : Prop :=
  ∀ pid process, view.process pid = some process → process.Summed

namespace Summed

/-- One process changes. -/
theorem change (summed : Summed view)
    (processes : view.Becomes pid changed after)
    (isSummed : changed.Summed) :
    Summed after := by
  intro other process found
  rw [processes] at found
  split_ifs at found
  · cases found
    exact isSummed
  · exact summed other process found

/-- The threads of a process in a given state have no higher rank. -/
theorem rank_le (summed : Summed view)
    (found : view.process pid = some process)
    (live : process.state.terminal = false)
    (owns : process.threads tid = some thread) :
    thread.state.rank ≤ (threadStateForProcess process.state).rank := by
  rw [summed pid process found live]
  exact ProcessView.rank_le_of_summary owns

/-- The main thread of a process is made to decide. -/
theorem setMain
    {middle : ProcessView} {state : ProcessState} {main : ThreadView}
    (summed : Summed view)
    (processes : view.Becomes pid (middle.setMain state main) after)
    (isState : main.state = threadStateForProcess state)
    (decides : 0 < (threadStateForProcess state).rank)
    (highest : ∀ tid thread, middle.threads tid = some thread → tid ≠ middle.mainTid →
      thread.state.rank ≤ (threadStateForProcess state).rank) :
    Summed after :=
  summed.change processes fun _ => (ProcessView.summary_setMain isState decides highest).symm

theorem preserved (sound : Sound view) (summed : Summed view)
    (beside : move.Beside view (fun thread => decide (thread.state.rank ≤ 2))
      (fun thread => decide (thread.state.rank ≤ 1)))
    (moved : Moves view move after) :
    Summed after := by
  have ended : ∀ {process : ProcessView} {state : ProcessState}, state.terminal = true →
      (process.ended state).Summed := by
    intro process state terminal live
    rw [ProcessView.ended_state, terminal] at live
    cases live
  cases moved with
  | drawTid | request | discard | forget | skip | answer | abandon => exact summed
  | launch =>
    refine summed.change (fun _ => rfl) fun _ => ?_
    refine (ProcessView.summary_eq (if_pos rfl) rfl (by decide) ?_).symm
    intro other thread found
    rw [ProcessView.launched_threads] at found
    split_ifs at found
    cases found
    exact le_rfl
  | spawn | park | exitThread | wake | handle | dispatch | kernelThread =>
    exact summed.change (fun _ => rfl) ProcessView.summed_refresh
  | @reapThread _ caller process tid thread current found owns exited =>
    -- The caller still runs.
    obtain ⟨-, running, -, callerThread, foundCaller, isRunning⟩ := sound.current current found
    have differ : caller ≠ tid := by
      rintro rfl
      rw [foundCaller] at owns
      cases owns
      cases isRunning.symm.trans exited
    have stillThere : (process.setThread tid { thread with state := .reaped }).threads caller =
        some callerThread := by
      rw [ProcessView.setThread_threads, if_neg differ]
      exact foundCaller
    refine summed.change (fun _ => rfl) fun _ => running.trans (@ProcessView.summary_eq
      _ _ _ .running stillThere isRunning (by rw [isRunning]; decide) fun other found _ => ?_).symm
    rw [isRunning]
    cases found.state <;> decide
  | finish =>
    refine summed.change (fun _ => rfl) (ended ?_)
    split_ifs <;> rfl
  | collect | reap => exact summed.change (fun _ => rfl) (ended rfl)
  | bridge =>
    exact summed.change (fun _ => rfl) nofun
  | @dropWait _ process main _ found hasMain =>
    have same : ({ process with waitingFor := none }.setThread process.mainTid
        { main with context := none }).summary = process.summary :=
      @ProcessView.summary_setThread_of_state _ main { process with waitingFor := none }
        { main with context := none } hasMain rfl
    exact summed.change (fun _ => rfl) fun live => (summed _ _ found live).trans same.symm
  | wait _ found | sleep _ _ found | stop _ found =>
    exact summed.setMain (fun _ => rfl) rfl (by decide) fun tid thread owns notMain =>
      of_decide_eq_true (beside _ tid thread found owns notMain)
  | notify _ found _ blocked | awaken found _ blocked =>
    refine summed.setMain (fun _ => rfl) rfl (by decide) fun tid thread owns _ => ?_
    have low := summed.rank_le found (by rw [blocked]; rfl) owns
    rw [blocked] at low
    exact low.trans (by decide)
  | resumeJob found _ stopped =>
    refine summed.setMain (fun _ => rfl) rfl (by decide) fun tid thread owns _ => ?_
    have low := summed.rank_le found (by rw [stopped]; rfl) owns
    rw [stopped] at low
    exact low.trans (by decide)
  | remove =>
    intro other process hasOther
    dsimp only at hasOther
    split_ifs at hasOther
    exact summed other process hasOther
  | resume =>
    refine summed.setMain (fun _ => rfl) rfl (by decide) fun tid thread owns _ => ?_
    cases thread.state <;> decide

end Summed

/-! ## The ready queue -/

/-- Whether a thread can go on. -/
def ThreadView.canGo (thread : ThreadView) : Bool :=
  decide (thread.state = .ready) && thread.context.isSome

theorem ThreadView.canGo_of_state {thread : ThreadView} (notReady : thread.state ≠ .ready) :
    thread.canGo = false := by
  simp [canGo, notReady]

theorem ThreadView.canGo_of_context {thread : ThreadView} (unsaved : thread.context = none) :
    thread.canGo = false := by
  simp [canGo, unsaved]

/-- Threads that can go on are in the queue, and a stopped process has none. -/
structure Queued (view : View) : Prop where
  ready : ∀ {other owner tid thread}, view.process other = some owner →
    owner.threads tid = some thread → thread.canGo = true → tid ∈ view.queue
  calm : ∀ {other owner tid thread}, view.process other = some owner → owner.state = .stopped →
    owner.threads tid = some thread → thread.canGo = false

/-- A process whose state summarizes its threads and is stopped has none that can go on. -/
theorem ProcessView.canGo_of_refresh
    (stopped : process.refresh.state = .stopped)
    (tid : Tid) (thread : ThreadView)
    (found : process.refresh.threads tid = some thread) :
    thread.canGo = false := by
  have live : process.state.terminal = false := by
    rw [← ProcessView.refresh_terminal, stopped]
    rfl
  rw [ProcessView.refresh_state_of_live live] at stopped
  rw [ProcessView.refresh_threads] at found
  have low := ProcessView.rank_le_of_summary found
  rw [stopped] at low
  refine ThreadView.canGo_of_state fun ready => ?_
  rw [ready] at low
  exact absurd low (by decide)

theorem ProcessView.canGo_of_ended {state : ProcessState}
    (found : (process.ended state).threads tid = some thread) :
    thread.canGo = false := by
  obtain ⟨old, -, rfl⟩ := Option.map_eq_some_iff.mp found
  exact ThreadView.canGo_of_context rfl

/-- A thread of another process is not one of this process. -/
theorem Sound.not_mem_tids
    {owner : ProcessView} {other : Pid}
    (sound : Sound view)
    (found : view.process pid = some process)
    (differ : other ≠ pid)
    (hasOther : view.process other = some owner)
    (owns : owner.threads tid = some thread) :
    tid ∉ process.tids :=
  fun owned => differ (sound.oneOwner hasOther found (by rw [owns]; rfl) owned)

namespace Queued

/-- One process changes, and perhaps the queue. -/
theorem change (queued : Queued view)
    (processes : view.Becomes pid changed after)
    (others : ∀ other owner tid thread, other ≠ pid → view.process other = some owner →
      owner.threads tid = some thread → tid ∈ view.queue → tid ∈ after.queue)
    (ready : ∀ tid thread, changed.threads tid = some thread → thread.canGo = true →
      tid ∈ after.queue)
    (calm : changed.state = .stopped → ∀ tid thread, changed.threads tid = some thread →
      thread.canGo = false) :
    Queued after where
  ready {other owner tid thread} found owns canGo := by
    rw [processes] at found
    split_ifs at found with same
    · cases found
      exact ready tid thread owns canGo
    · exact others other owner tid thread same found owns
        (queued.ready found owns canGo)
  calm {other owner tid thread} found stopped owns := by
    rw [processes] at found
    split_ifs at found
    · cases found
      exact calm stopped tid thread owns
    · exact queued.calm found stopped owns

/-- One thread is replaced, and the queue loses nothing. -/
theorem replace {replacement : ThreadView} (queued : Queued view)
    (found : view.process pid = some process)
    (processes : view.Becomes pid changed after)
    (threads : ∀ tid, changed.threads tid = (process.setThread target replacement).threads tid)
    (keeps : ∀ tid ∈ view.queue, tid ∈ after.queue)
    (joins : replacement.canGo = true → target ∈ after.queue)
    (calm : changed.state = .stopped → ∀ tid thread, changed.threads tid = some thread →
      thread.canGo = false) :
    Queued after := by
  refine queued.change processes (fun _ _ tid _ _ _ _ => keeps tid) ?_ calm
  intro tid thread owns canGo
  rw [threads, ProcessView.setThread_threads] at owns
  split_ifs at owns with same
  · cases owns
    exact same ▸ joins canGo
  · exact keeps tid (queued.ready found owns canGo)

/-- The queue loses the threads of a process, none of which can go on. -/
theorem clear (queued : Queued view) (sound : Sound view)
    (found : view.process pid = some process)
    (processes : view.Becomes pid changed after)
    (queue : after.queue = view.queue \ process.tids)
    (none : ∀ tid thread, changed.threads tid = some thread → thread.canGo = false) :
    Queued after := by
  refine queued.change processes (fun other owner tid thread differ hasOther owns
    isQueued => ?_) (fun tid thread owns canGo => ?_) fun _ => none
  · rw [queue]
    exact ⟨isQueued, sound.not_mem_tids found differ hasOther owns⟩
  · rw [none tid thread owns] at canGo
    cases canGo

/-- A process is blocked or stopped as a whole while no other thread of it can go on. -/
theorem setMain
    {middle : ProcessView} {main : ThreadView} {state : ProcessState}
    (queued : Queued view) (sound : Sound view)
    (found : view.process pid = some process)
    (processes : view.Becomes pid (middle.setMain state main) after)
    (sameMain : middle.mainTid = process.mainTid)
    (sameThreads : middle.threads = process.threads)
    (queue : after.queue = view.queue \ process.tids)
    (notReady : main.state ≠ .ready)
    (beside : view.OthersMeet pid fun thread => !thread.canGo) :
    Queued after := by
  refine queued.clear sound found processes queue fun tid thread owns => ?_
  simp only [ProcessView.setMain_threads, ProcessView.setThread_threads] at owns
  split_ifs at owns with isMain
  · cases owns
    exact ThreadView.canGo_of_state notReady
  · rw [sameThreads] at owns
    rw [sameMain] at isMain
    simpa using beside process tid thread found owns isMain

theorem preserved (sound : Sound view) (queued : Queued view)
    (beside : move.Beside view (fun thread => !thread.canGo) (fun thread => !thread.canGo))
    (moved : Moves view move after) :
    Queued after := by
  cases moved with
  | drawTid | request | discard | answer | abandon => exact ⟨queued.ready, queued.calm⟩
  | forget found spent =>
    refine ⟨fun {other owner tid thread} hasOther owns canGo => ?_, queued.calm⟩
    refine ⟨queued.ready hasOther owns canGo, fun owned => ?_⟩
    obtain rfl := sound.oneOwner hasOther found (by rw [owns]; rfl) owned
    obtain rfl := Option.mem_unique found hasOther
    have stuck : thread.canGo = false := by
      rcases spent with kernel | terminal | stopped
      · exact ThreadView.canGo_of_context (sound.kernelContext found kernel owns)
      · exact ThreadView.canGo_of_context (sound.nothingLeft found terminal owns).2.1
      · exact queued.calm found stopped owns
    rw [stuck] at canGo
    cases canGo
  | skip unready =>
    refine ⟨fun {other owner tid thread} found owns canGo => ?_, queued.calm⟩
    refine ⟨queued.ready found owns canGo, ?_⟩
    rintro rfl
    simp only [ThreadView.canGo, Bool.and_eq_true, decide_eq_true_eq] at canGo
    rw [unready other owner thread found owns canGo.1] at canGo
    cases canGo.2
  | launch =>
    refine queued.change (fun _ => rfl) (fun _ _ _ _ _ _ _ isQueued => isQueued)
      (fun tid thread found canGo => ?_) nofun
    rw [ProcessView.launched_threads] at found
    split_ifs at found
    cases found
    cases canGo
  | spawn _ _ found | wake _ found | handle _ _ _ found =>
    exact queued.replace found (fun _ => rfl) (fun _ => rfl) (fun _ => .inr)
      (fun _ => .inl rfl) ProcessView.canGo_of_refresh
  | park _ _ found =>
    refine queued.replace found (fun _ => rfl) (fun _ => rfl) (fun _ => .inl)
      (fun canGo => .inr ⟨rfl, ?_⟩) ProcessView.canGo_of_refresh
    simp only [ThreadView.canGo, Bool.and_eq_true, decide_eq_true_eq] at canGo
    exact canGo.1
  | @exitThread _ _ _ _ current found =>
    have owned := (sound.current current found).2.2.2
    obtain ⟨targetThread, foundTarget, -⟩ := owned
    refine queued.change (fun _ => rfl)
      (fun other owner tid thread differ hasOther owns isQueued =>
        .inl ⟨isQueued, ?_⟩) (fun tid thread owns canGo => ?_)
      ProcessView.canGo_of_refresh
    · rintro rfl
      exact sound.not_mem_tids found differ hasOther owns (by
        rw [ProcessView.mem_tids, foundTarget]
        rfl)
    · rw [ProcessView.refresh_threads, ProcessView.exitThread_threads] at owns
      obtain ⟨old, foundOld, rfl⟩ := Option.map_eq_some_iff.mp owns
      split_ifs at canGo with same joins
      · cases canGo.symm.trans (ThreadView.canGo_of_context rfl)
      · exact .inr ⟨old, same, foundOld, joins⟩
      · exact .inl ⟨queued.ready found foundOld canGo, same⟩
  | reapThread current found =>
    have running := (sound.current current found).2.1
    exact queued.replace found (fun _ => rfl) (fun _ => rfl) (fun _ => id)
      (fun canGo => by cases canGo) fun stopped => by cases running.symm.trans stopped
  | finish found | bridge _ found =>
    exact queued.clear sound found (fun _ => rfl) rfl fun _ _ => ProcessView.canGo_of_ended
  | collect | reap =>
    refine queued.change (fun _ => rfl) (fun _ _ _ _ _ _ _ isQueued => isQueued)
      (fun tid thread owns canGo => ?_) nofun
    rw [ProcessView.canGo_of_ended owns] at canGo
    cases canGo
  | dropWait found =>
    refine queued.replace found (fun _ => rfl) (fun _ => rfl) (fun _ => id)
      (fun canGo => ?_) fun stopped tid thread owns => ?_
    · cases canGo.symm.trans (ThreadView.canGo_of_context rfl)
    · rw [ProcessView.setThread_threads] at owns
      split_ifs at owns
      · cases owns
        exact ThreadView.canGo_of_context rfl
      · exact queued.calm found stopped owns
  | wait _ found | sleep _ _ found | stop _ found =>
    exact queued.setMain sound found (fun _ => rfl) rfl rfl rfl nofun beside
  | notify _ found | awaken found | resumeJob found =>
    exact queued.replace found (fun _ => rfl) (fun _ => rfl) (fun _ => .inr)
      (fun _ => .inl rfl) nofun
  | remove found =>
    refine ⟨fun {other owner tid thread} hasOther owns canGo => ?_,
      fun {other owner tid thread} hasOther stopped owns => ?_⟩
    · dsimp only at hasOther
      split_ifs at hasOther with same
      exact ⟨queued.ready hasOther owns canGo,
        sound.not_mem_tids found same hasOther owns⟩
    · dsimp only at hasOther
      split_ifs at hasOther
      exact queued.calm hasOther stopped owns
  | resume _ _ found =>
    exact queued.replace found (fun _ => rfl) (fun _ => rfl) (fun _ => id)
      (fun canGo => by cases canGo) nofun
  | dispatch _ _ found owns =>
    refine queued.change (fun _ => rfl)
      (fun other owner tid _ differ hasOther foundOwned wasQueued => ⟨wasQueued, ?_⟩)
      (fun tid owned foundOwned canGo => ?_)
      ProcessView.canGo_of_refresh
    · rintro rfl
      exact sound.not_mem_tids found differ hasOther foundOwned (by
        rw [ProcessView.mem_tids, owns]
        rfl)
    · rw [ProcessView.refresh_threads, ProcessView.setThread_threads] at foundOwned
      split_ifs at foundOwned with same
      · cases foundOwned
        cases canGo
      · exact ⟨queued.ready found foundOwned canGo, same⟩
  | kernelThread _ found kernel owns =>
    refine queued.replace found (fun _ => rfl) (fun _ => rfl) (fun _ => id)
      (fun canGo => ?_) ProcessView.canGo_of_refresh
    have unsaved := sound.kernelContext found kernel owns
    cases canGo.symm.trans (ThreadView.canGo_of_context unsaved)

end Queued

end Lifecycle

/-! ## Runs -/

open Lifecycle

/-- Whether the threads of a process other than its main one meet a condition. -/
def Process.othersMeet (test : ThreadView → Bool) (process : Process) : Bool :=
  process.threads.values.all fun thread =>
    decide (thread.tid = process.mainTid) || test thread.view

namespace Kernel

variable {kernel : Kernel} {images : List UserlandImage} {frames : List UInt64}
  {cpu : Option (Pid × Tid)} {action : Action}

/-- Whether a step that blocks or may stop a process as a whole, a wait, a sleep or the
terminal's suspension of its foreground job, finds the other threads of the process in
given states. -/
def actsBeside (kernel : Kernel) (blocking stopping : ThreadView → Bool) : Action → Bool
  | .syscall frame _ =>
    !kernel.blocksProcess frame || kernel.currentProcess.all (Process.othersMeet blocking)
  | .ready =>
    !decide (kernel.terminalSignal = sigtstp) ||
    (kernel.table.get kernel.terminalForegroundPid).all (Process.othersMeet stopping)
  | _ => true

theorem othersMeet_viewAt
    (inTable : kernel.table.get pid = some owner)
    (meets : owner.othersMeet test = true) :
    (kernel.viewAt cpu).OthersMeet pid test := by
  intro process tid thread found owns notMain
  obtain rfl : owner.view = process :=
    Option.some.inj ((ProcessTable.view_found inTable).symm.trans found)
  obtain ⟨owned, inProcess, rfl⟩ := Option.map_eq_some_iff.mp owns
  simp only [Process.othersMeet, List.all_eq_true, Bool.or_eq_true, decide_eq_true_eq] at meets
  have isTid := ThreadStore.tid_of_get inProcess
  rcases meets owned (ThreadStore.mem_values_iff.mpr (isTid ▸ inProcess)) with isMain | meets
  · exact absurd (isTid.symm.trans isMain) notMain
  · exact meets

/-- The moves of such a step. -/
theorem beside_of_permitted
    (inOrder : kernel.InOrder cpu)
    (kept : kernel.actsBeside blocking stopping action = true)
    (permitted : kernel.Permitted action cpu view move)
    (moved : Moves view move after) :
    move.Beside view blocking stopping := by
  have ofCall : ∀ {frame env pid caller process}, view = kernel.viewAt cpu →
      action = .syscall frame env → kernel.blocksProcess frame = true →
      view.cpu = some (pid, caller) → view.process pid = some process →
        view.OthersMeet pid blocking := by
    rintro frame env pid caller process rfl rfl blocks current found
    obtain ⟨isPid, -⟩ := inOrder.steady.current current
    obtain ⟨owner, inTable, rfl⟩ := Option.map_eq_some_iff.mp found
    have currentProcess : kernel.currentProcess = some owner := by
      simp [Kernel.currentProcess, isPid, inTable]
    simp only [actsBeside, blocks, currentProcess, Option.all_some] at kept
    exact othersMeet_viewAt inTable (by simpa using kept)
  cases permitted with
  | free isFree => cases moved <;> first | exact trivial | cases isFree
  | bridge | abandon => exact trivial
  | call first isCall _ starts =>
    cases moved with
    | wait current found =>
      exact ofCall first isCall starts current found
    | sleep _ current found =>
      exact ofCall first isCall starts current found
    | handle => exact trivial
    | _ => exact (False.elim starts)
  | stop first isReady suspends _ foreground =>
    cases moved with
    | stop _ found =>
      subst first isReady foreground
      obtain ⟨owner, inTable, rfl⟩ := Option.map_eq_some_iff.mp found
      simp only [actsBeside, suspends, inTable, Option.all_some] at kept
      exact othersMeet_viewAt inTable (by simpa using kept)

/-- The steps that find the other threads of a process neither running nor ready when
they block it, and not blocked either when they stop it. -/
def keepsSummaries (kernel : Kernel) (action : Action) : Bool :=
  decide kernel.table.tidsLeft &&
    kernel.actsBeside (fun thread => decide (thread.state.rank ≤ 2))
      (fun thread => decide (thread.state.rank ≤ 1)) action

/-- If no process is blocked while another of its threads is running or ready, nor stopped
while another is running, ready or blocked, the state of a process that has not ended is
the summary of its threads. -/
theorem process_state_summarizes
    (reachable : Transition.ReachableWhere step
      (fun kernel action => kernel.keepsSummaries action = true) (boot images frames) kernel) :
    ∀ process ∈ kernel.table.values, process.state.terminal = false →
      process.refreshStateFromThreads = process := by
  have invariant : ∃ cpu, kernel.InOrder cpu ∧
      Summed (kernel.viewAt cpu) := by
    refine view_invariant (fun kernel action kept => ?_) (fun view atBoot => ?_) ?_ reachable
    · simp only [keepsSummaries, Bool.and_eq_true, decide_eq_true_eq] at kept
      exact kept.1
    · intro pid process found _
      exact (atBoot.kernelTask found).2.summed
    · intro kernel action cpu inOrder kept view move after sound summed permitted moved
      simp only [keepsSummaries, Bool.and_eq_true] at kept
      exact summed.preserved sound (beside_of_permitted inOrder kept.2 permitted moved) moved
  obtain ⟨cpu, -, summed⟩ := invariant
  intro process listed live
  have isSummed := summed process.pid process.view
    (ProcessTable.view_found (KeyedStore.get_of_mem listed)) live
  rw [Process.summary_view] at isSummed
  unfold Process.refreshStateFromThreads
  rw [live, if_neg (by decide), ← isSummed]
  rfl

namespace Sample

/-- Its main thread sleeps. -/
def sleepAhead : List Action := twoThreads ++ [call 19 10 0]

/-- The state of the first program, the summary of its threads, and whether its second
thread can go on and is in the queue. -/
def firstProgram (kernel : Kernel) : Option (ProcessState × ProcessState × Bool × Bool) := do
  let process ← kernel.table.get 1
  let second ← process.threads.get 5
  some (process.state, process.refreshStateFromThreads.state, second.view.canGo,
    decide (5 ∈ kernel.table.readyQueue))

def summedKernel : Kernel :=
  (Transition.runWhere step keepsSummaries machine twoThreads).get (by decide +kernel)

end Sample

/-- The first program runs with a second thread that is ready. -/
theorem process_state_summarizes_twoThreads :
    Sample.firstProgram Sample.summedKernel = some (.running, .running, true, true) ∧
      ∀ process ∈ Sample.summedKernel.table.values, process.state.terminal = false →
        process.refreshStateFromThreads = process := by
  have performed : Transition.runWhere step keepsSummaries Sample.machine Sample.twoThreads =
      some Sample.summedKernel := (Option.some_get _).symm
  exact ⟨by decide +kernel,
    process_state_summarizes (Transition.reachableWhere_of_runWhere performed)⟩

/-- A process sleeps while its second thread is ready: it is blocked, although the
summary of its threads is ready. -/
theorem sleeping_process_not_summarized :
    ((Transition.run step Sample.machine Sample.sleepAhead).bind Sample.firstProgram).map
      (fun found => (found.1, found.2.1)) = some (.blocked, .ready) := by
  decide +kernel

/-- The steps that find no other thread of a process able to go on when they block or
stop it. -/
def keepsQueued (kernel : Kernel) (action : Action) : Bool :=
  decide kernel.table.tidsLeft &&
    kernel.actsBeside (fun thread => !thread.canGo) (fun thread => !thread.canGo) action

/-- If no process is blocked or stopped while another of its threads can go on, every
thread that can go on is in the ready queue, once. -/
theorem ready_threads_queued
    (reachable : Transition.ReachableWhere step
      (fun kernel action => kernel.keepsQueued action = true) (boot images frames) kernel) :
    ∀ process ∈ kernel.table.values, process.kind = .userProcess →
      ∀ thread ∈ process.threads.values, thread.state = .ready →
        thread.resumeContext.isSome = true →
          kernel.table.readyQueue.items.count thread.tid = 1 := by
  have invariant : ∃ cpu, kernel.InOrder cpu ∧
      Queued (kernel.viewAt cpu) := by
    refine view_invariant (fun kernel action kept => ?_) (fun view atBoot => ?_) ?_ reachable
    · simp only [keepsQueued, Bool.and_eq_true, decide_eq_true_eq] at kept
      exact kept.1
    · have stuck : ∀ {pid process tid thread}, view.process pid = some process →
          process.threads tid = some thread → thread.canGo = false := fun found owns =>
        ThreadView.canGo_of_context ((atBoot.kernelTask found).2.unsaved owns).1
      refine ⟨fun found owns canGo => ?_, fun found _ owns =>
        stuck found owns⟩
      rw [stuck found owns] at canGo
      cases canGo
    · intro kernel action cpu inOrder kept view move after sound queued permitted moved
      simp only [keepsQueued, Bool.and_eq_true] at kept
      exact queued.preserved sound (beside_of_permitted inOrder kept.2 permitted moved) moved
  obtain ⟨cpu, -, queued⟩ := invariant
  intro process listed _ thread listedThread ready saved
  have isQueued : thread.tid ∈ kernel.table.readyQueue :=
    queued.ready (ProcessTable.view_found (KeyedStore.get_of_mem listed))
      (Process.view_thread (ThreadStore.mem_values_iff.mp listedThread))
      (by simp [ThreadView.canGo, Thread.view, ready, saved])
  exact List.count_eq_one_of_mem kernel.table.readyQueue.distinct isQueued

def Sample.queuedKernel : Kernel :=
  (Transition.runWhere step keepsQueued Sample.machine Sample.twoThreads).get (by decide +kernel)

/-- The second thread waits for the processor. -/
theorem ready_threads_queued_twoThreads :
    Sample.queuedKernel.table.readyQueue.items.count 5 = 1 ∧
      ∀ process ∈ Sample.queuedKernel.table.values, process.kind = .userProcess →
        ∀ thread ∈ process.threads.values, thread.state = .ready →
          thread.resumeContext.isSome = true →
            Sample.queuedKernel.table.readyQueue.items.count thread.tid = 1 := by
  have performed : Transition.runWhere step keepsQueued Sample.machine Sample.twoThreads =
      some Sample.queuedKernel := (Option.some_get _).symm
  exact ⟨by decide +kernel,
    ready_threads_queued (Transition.reachableWhere_of_runWhere performed)⟩

/-- A process sleeps while its second thread is ready: the thread could go on, and the
queue has lost it. -/
theorem ready_thread_lost_by_sleep :
    ((Transition.run step Sample.machine Sample.sleepAhead).bind Sample.firstProgram).map
      (fun found => found.2.2) = some (true, false) := by
  decide +kernel

end Kernel

end Vantara
