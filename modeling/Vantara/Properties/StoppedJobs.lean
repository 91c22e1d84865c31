import Vantara.Properties.ThreadSummaries

/-!
# Stopped jobs

A stopped process waits until it is continued or ended.  It loses its place in the
ready queue, and only a signal handler can put its main thread back there.
-/

namespace Vantara

open Foundation

/-- Whether an event stops, continues or ends a process. -/
def TraceEvent.decides (pid : Pid) : TraceEvent → Bool
  | .stopped target _ => decide (target = pid)
  | .continued target => decide (target = pid)
  | .ended target _ _ => decide (target = pid)
  | _ => false

/-- Whether a process has been stopped and neither continued nor ended since. -/
def halted (pid : Pid) (trace : List TraceEvent) : Bool :=
  match trace.find? (TraceEvent.decides pid) with
  | some (.stopped _ _) => true
  | _ => false

/-- Events that neither decide about a process nor put a thread on the processor. -/
def TraceEvent.idle : TraceEvent → Bool
  | .stopped _ _ | .continued _ | .ended _ _ _ | .dispatched _ _ _ => false
  | _ => true

theorem halted_cons (other : TraceEvent.decides pid event = false) :
    halted pid (event :: trace) = halted pid trace := by
  simp [halted, other]

theorem TraceEvent.decides_of_idle {event : TraceEvent} (idle : event.idle = true) :
    event.decides pid = false := by
  cases event <;> first | rfl | cases idle

theorem halted_append (idle : ∀ event ∈ events, event.idle = true) :
    halted pid (events ++ trace) = halted pid trace := by
  induction events with
  | nil => rfl
  | cons event events ih =>
    rw [List.cons_append, halted_cons
      (TraceEvent.decides_of_idle (idle event (List.mem_cons_self ..)))]
    exact ih fun other listed => idle other (List.mem_cons_of_mem _ listed)

/-- No thread of a stopped process was put on the processor. -/
def DispatchesLive (trace : List TraceEvent) : Prop :=
  ∀ later pid tid context earlier, trace = later ++ .dispatched pid tid context :: earlier →
    halted pid earlier = false

namespace DispatchesLive

variable {trace : List TraceEvent}

theorem push (live : DispatchesLive trace)
    (isLive : ∀ pid tid context, event = .dispatched pid tid context → halted pid trace = false) :
    DispatchesLive (event :: trace) := by
  intro later pid tid context earlier isTrace
  cases later with
  | nil =>
    cases isTrace
    exact isLive pid tid context rfl
  | cons first later =>
    cases isTrace
    exact live later pid tid context earlier rfl

theorem append (live : DispatchesLive trace) (idle : ∀ event ∈ events, event.idle = true) :
    DispatchesLive (events ++ trace) := by
  induction events with
  | nil => exact live
  | cons event events ih =>
    refine (ih fun other listed =>
      idle other (List.mem_cons_of_mem _ listed)).push ?_
    rintro pid tid context rfl
    cases idle _ (List.mem_cons_self ..)

end DispatchesLive

namespace Lifecycle

variable {view after : View} {process changed : ProcessView} {pid : Pid} {move : Move}

/-- Whether a process rests: it has been stopped or has ended. -/
def ProcessView.Rests (process : ProcessView) : Prop :=
  process.kind = .userProcess ∧ (process.state = .stopped ∨ process.state.terminal = true)

/-- Processes that have been stopped rest until they are continued. -/
structure Halts (view : View) : Prop where
  live : DispatchesLive view.trace
  drawn : ∀ {other}, halted other view.trace = true →
    other.toNat < view.pidBound ∧ other ∉ view.unborn
  rests : ∀ {other owner}, halted other view.trace = true → view.process other = some owner →
    owner.Rests
  calm : ∀ {other owner tid thread}, view.process other = some owner → owner.state = .stopped →
    owner.threads tid = some thread → tid ∈ view.queue → thread.canGo = false

/-- A signal handler is entered by a process that is not stopped. -/
def Move.sparesStopped (view : View) : Move → Prop
  | .handle pid _ => ∀ process, view.process pid = some process → process.state ≠ .stopped
  | _ => True

namespace Halts

/-- No process changes but for those that go. -/
theorem quiet (halts : Halts view)
    (events : List TraceEvent)
    (processes : ∀ other owner, after.process other = some owner →
      view.process other = some owner)
    (trace : after.trace = events ++ view.trace)
    (idle : ∀ event ∈ events, event.idle = true)
    (pidBound : view.pidBound ≤ after.pidBound)
    (unborn : ∀ other ∈ after.unborn, other ∈ view.unborn ∨ view.pidBound ≤ other.toNat)
    (queue : ∀ tid ∈ after.queue, tid ∈ view.queue) :
    Halts after := by
  have same : ∀ other, halted other after.trace = halted other view.trace := fun other => by
    rw [trace, halted_append idle]
  constructor
  case live =>
    rw [trace]
    exact halts.live.append idle
  case drawn =>
    intro other isHalted
    rw [same] at isHalted
    obtain ⟨isDrawn, born⟩ := halts.drawn isHalted
    refine ⟨Nat.lt_of_lt_of_le isDrawn pidBound, fun pending => ?_⟩
    rcases unborn other pending with wasPending | fresh
    · exact born wasPending
    · exact absurd isDrawn (Nat.not_lt.mpr fresh)
  case rests =>
    intro other owner isHalted found
    rw [same] at isHalted
    exact halts.rests isHalted (processes other owner found)
  case calm =>
    intro other owner tid thread found stopped owns isQueued
    exact halts.calm (processes other owner found) stopped owns (queue tid isQueued)

/-- One process changes. -/
theorem step (halts : Halts view) (sound : Sound view)
    (found : view.process pid = some process)
    (processes : view.Becomes pid changed after)
    (live : DispatchesLive after.trace)
    (others : ∀ other, other ≠ pid → halted other after.trace = halted other view.trace)
    (pidBound : after.pidBound = view.pidBound)
    (unborn : after.unborn = view.unborn)
    (rests : halted pid after.trace = true → changed.Rests)
    (queue : ∀ tid ∈ after.queue, tid ∈ view.queue ∨ tid ∈ process.tids ∨
      view.tidBound ≤ tid.toNat)
    (calm : changed.state = .stopped → ∀ tid thread, changed.threads tid = some thread →
      tid ∈ after.queue → thread.canGo = false) :
    Halts after := by
  constructor
  case live => exact live
  case drawn =>
    intro other isHalted
    rw [pidBound, unborn]
    by_cases same : other = pid
    · rw [same]
      refine ⟨sound.pidDrawn found, fun pending => ?_⟩
      cases found.symm.trans (sound.unbornDrawn pending).2
    · rw [others other same] at isHalted
      exact halts.drawn isHalted
  case rests =>
    intro other owner isHalted hasOther
    rw [processes] at hasOther
    split_ifs at hasOther with same
    · cases hasOther
      exact rests (same ▸ isHalted)
    · rw [others other same] at isHalted
      exact halts.rests isHalted hasOther
  case calm =>
    intro other owner tid thread hasOther stopped owns isQueued
    rw [processes] at hasOther
    split_ifs at hasOther with same
    · cases hasOther
      exact calm stopped tid thread owns isQueued
    · have owned : (owner.threads tid).isSome = true := by
        rw [owns]
        rfl
      rcases queue tid isQueued with wasQueued | isOwn | fresh
      · exact halts.calm hasOther stopped owns wasQueued
      · exact absurd (sound.oneOwner hasOther found owned isOwn) same
      · exact absurd (sound.tidDrawn hasOther owned) (Nat.not_lt.mpr fresh)

/-- One process changes while nothing is decided about it: it rests as it did. -/
theorem change (halts : Halts view)
    (events : List TraceEvent)
    (sound : Sound view)
    (found : view.process pid = some process)
    (processes : view.Becomes pid changed after)
    (trace : after.trace = events ++ view.trace)
    (idle : ∀ event ∈ events, event.idle = true)
    (pidBound : after.pidBound = view.pidBound)
    (unborn : after.unborn = view.unborn)
    (rests : process.Rests → changed.Rests)
    (queue : ∀ tid ∈ after.queue, tid ∈ view.queue ∨ tid ∈ process.tids ∨
      view.tidBound ≤ tid.toNat)
    (calm : changed.state = .stopped → ∀ tid thread, changed.threads tid = some thread →
      tid ∈ after.queue → thread.canGo = false) :
    Halts after := by
  have same : ∀ other, halted other after.trace = halted other view.trace := fun other => by
    rw [trace, halted_append idle]
  refine halts.step sound found processes ?_ (fun other _ => same other) pidBound unborn
    (fun isHalted => ?_) queue calm
  · rw [trace]
    exact halts.live.append idle
  · rw [same] at isHalted
    exact rests (halts.rests isHalted found)

end Halts

theorem ProcessView.not_rests
    (notStopped : process.state ≠ .stopped)
    (live : process.state.terminal = false) :
    ¬process.Rests := by
  rintro ⟨-, stopped | terminal⟩
  · exact notStopped stopped
  · rw [live] at terminal
    cases terminal

theorem ProcessView.not_rests_of_blocked (blocked : process.state = .blocked) : ¬process.Rests :=
  ProcessView.not_rests (by rw [blocked]; exact nofun) (by rw [blocked]; rfl)

/-- The process on the processor does not rest. -/
theorem Sound.not_rests (sound : Sound view)
    (current : view.cpu = some (pid, caller))
    (found : view.process pid = some process) :
    ¬process.Rests := by
  have running := (sound.current current found).2.1
  exact ProcessView.not_rests (by rw [running]; exact nofun) (by rw [running]; rfl)

namespace Halts

theorem preserved (sound : Sound view) (halts : Halts view)
    (spares : move.sparesStopped view)
    (moved : Moves view move after) :
    Halts after := by
  -- The thread that joins the queue is one of the process.
  have joins : ∀ {process : ProcessView} {target : Tid} {thread : ThreadView},
      process.threads target = some thread → ∀ tid ∈ insert target view.queue,
        tid ∈ view.queue ∨ tid ∈ process.tids ∨ view.tidBound ≤ tid.toNat := by
    intro process target thread found tid isQueued
    rcases isQueued with rfl | isQueued
    · refine .inr (.inl ?_)
      rw [ProcessView.mem_tids, found]
      rfl
    · exact .inl isQueued
  have refreshed : ∀ {process : ProcessView} {queue : Set Tid}, process.refresh.state = .stopped →
      ∀ tid thread, process.refresh.threads tid = some thread → tid ∈ queue →
        thread.canGo = false :=
    fun stopped tid thread found _ => ProcessView.canGo_of_refresh stopped tid thread found
  have ended : ∀ {process : ProcessView}, process.Rests →
      (process.ended .reaped).Rests := fun rests => ⟨rests.1, .inr rfl⟩
  cases moved with
  | drawTid | abandon =>
    exact halts.quiet [] (fun _ _ found => found) rfl (by simp) le_rfl (fun _ => .inl)
      fun _ => id
  | request fresh =>
    refine halts.quiet [] (fun _ _ found => found) rfl (by simp) (Nat.le_succ _) ?_
      fun _ => id
    rintro other (rfl | pending)
    · exact .inr fresh.ge
    · exact .inl pending
  | discard pending =>
    exact halts.quiet [] (fun _ _ found => found) rfl (by simp) le_rfl
      (fun _ pending => .inl pending.1) fun _ => id
  | forget | skip =>
    exact halts.quiet [] (fun _ _ found => found) rfl (by simp) le_rfl (fun _ => .inl)
      fun _ isQueued => isQueued.1
  | @answer pid child status =>
    exact halts.quiet [.answered pid child status] (fun _ _ found => found) rfl
      (by simp [TraceEvent.idle]) le_rfl (fun _ => .inl) fun _ => id
  | remove =>
    refine halts.quiet [] (fun other owner hasOther => ?_) rfl (by simp) le_rfl
      (fun _ => .inl) fun _ isQueued => isQueued.1
    dsimp only at hasOther
    split_ifs at hasOther
    exact hasOther
  | @launch pid tid _ _ _ pending =>
    -- A process that has been stopped does not wait to be loaded.
    have notHalted : halted pid view.trace ≠ true := fun isHalted =>
      (halts.drawn isHalted).2 pending
    constructor
    case live => exact halts.live
    case drawn =>
      intro other isHalted
      exact ⟨(halts.drawn isHalted).1, fun stillPending => (halts.drawn isHalted).2 stillPending.1⟩
    case rests =>
      intro other owner isHalted hasOther
      rw [View.setProcess_process] at hasOther
      split_ifs at hasOther with same
      · exact absurd (same ▸ isHalted) notHalted
      · exact halts.rests isHalted hasOther
    case calm =>
      intro other owner tid thread hasOther stopped owns isQueued
      rw [View.setProcess_process] at hasOther
      split_ifs at hasOther
      · cases hasOther
        cases stopped
      · exact halts.calm hasOther stopped owns isQueued
  | spawn _ current found fresh =>
    refine halts.change [] sound found (fun _ => rfl) rfl (by simp) rfl rfl
      (fun rests => absurd rests (sound.not_rests current found)) ?_ refreshed
    rintro tid (rfl | isQueued)
    · exact .inr (.inr fresh.ge)
    · exact .inl isQueued
  | @park _ target _ _ parking _ _ current found owns =>
    have idle : ∀ event ∈ parking.events target, event.idle = true := by
      cases parking <;> simp [Parking.events, TraceEvent.idle]
    refine halts.change _ sound found (fun _ => rfl) rfl idle rfl rfl
      (fun rests => absurd rests (sound.not_rests current found)) ?_ refreshed
    rintro tid (isQueued | ⟨rfl, -⟩)
    · exact .inl isQueued
    · refine .inr (.inl ?_)
      rw [ProcessView.mem_tids, owns]
      rfl
  | exitThread current found =>
    refine halts.change [] sound found (fun _ => rfl) rfl (by simp) rfl rfl
      (fun rests => absurd rests (sound.not_rests current found)) ?_ refreshed
    rintro tid (isQueued | ⟨former, -, foundFormer, -⟩)
    · exact .inl isQueued.1
    · refine .inr (.inl ?_)
      rw [ProcessView.mem_tids, foundFormer]
      rfl
  | reapThread current found =>
    have notRests := sound.not_rests current found
    have user := (sound.current current found).1
    exact halts.change [] sound found (fun _ => rfl) rfl (by simp) rfl rfl
      (fun rests => absurd rests notRests) (fun _ => .inl)
      fun stopped => absurd ⟨user, .inl stopped⟩ notRests
  | wake current found owns =>
    exact halts.change [] sound found (fun _ => rfl) rfl (by simp) rfl rfl
      (fun rests => absurd rests (sound.not_rests current found)) (joins owns) refreshed
  | finish found =>
    refine halts.step sound found (fun _ => rfl)
      (halts.live.push fun _ _ _ isEvent => by cases isEvent)
      (fun other differ => halted_cons (by simp [TraceEvent.decides, differ.symm])) rfl rfl
      (fun isHalted => ?_) (fun _ isQueued => .inl isQueued.1) fun stopped => ?_
    · simp [halted, TraceEvent.decides] at isHalted
    · rw [ProcessView.ended_state] at stopped
      split_ifs at stopped
  | @collect parent child _ status found =>
    exact halts.change [.collected parent child status] sound found (fun _ => rfl) rfl
      (by simp [TraceEvent.idle]) rfl rfl ended (fun _ => .inl) fun stopped => by cases stopped
  | reap found =>
    exact halts.change [] sound found (fun _ => rfl) rfl (by simp) rfl rfl ended
      (fun _ => .inl) fun stopped => by cases stopped
  | bridge _ found =>
    exact halts.change [] sound found (fun _ => rfl) rfl (by simp) rfl rfl
      (fun rests => ⟨rests.1, .inr rfl⟩) (fun _ isQueued => .inl isQueued.1)
      fun stopped => by cases stopped
  | dropWait found =>
    refine halts.change [] sound found (fun _ => rfl) rfl (by simp) rfl rfl
      (fun rests => rests) (fun _ => .inl) fun stopped tid thread owns isQueued => ?_
    rw [ProcessView.setThread_threads] at owns
    split_ifs at owns
    · cases owns
      exact ThreadView.canGo_of_context rfl
    · exact halts.calm found stopped owns isQueued
  | @wait pid caller process _ child context current found =>
    exact halts.change [.waiting pid caller child, .saved caller process.mainTid context]
      sound found (fun _ => rfl) rfl (by simp [TraceEvent.idle]) rfl rfl
      (fun rests => absurd rests (sound.not_rests current found))
      (fun _ isQueued => .inl isQueued.1) fun stopped => by cases stopped
  | @sleep _ caller process _ context _ current found =>
    exact halts.change [.saved caller process.mainTid context] sound found
      (fun _ => rfl) rfl (by simp [TraceEvent.idle]) rfl rfl
      (fun rests => absurd rests (sound.not_rests current found))
      (fun _ isQueued => .inl isQueued.1) fun stopped => by cases stopped
  | stop _ found hasMain user =>
    refine halts.step sound found (fun _ => rfl)
      (halts.live.push fun _ _ _ isEvent => by cases isEvent)
      (fun other differ => halted_cons (by simp [TraceEvent.decides, differ.symm])) rfl rfl
      (fun _ => ⟨user, .inl rfl⟩) (fun _ isQueued => .inl isQueued.1)
      fun _ tid thread owns isQueued => absurd ?_ isQueued.2
    simp only [ProcessView.setMain_threads, ProcessView.setThread_threads] at owns
    rw [ProcessView.mem_tids]
    split_ifs at owns with isMain
    · rw [isMain, hasMain]
      rfl
    · rw [owns]
      rfl
  | notify _ found hasMain blocked | awaken found hasMain blocked =>
    exact halts.change [] sound found (fun _ => rfl) rfl (by simp) rfl rfl
      (fun rests => absurd rests (ProcessView.not_rests_of_blocked blocked)) (joins hasMain)
      fun stopped => by cases stopped
  | resumeJob found hasMain stopped =>
    refine halts.step sound found (fun _ => rfl)
      (halts.live.push fun _ _ _ isEvent => by cases isEvent)
      (fun other differ => halted_cons (by simp [TraceEvent.decides, differ.symm])) rfl rfl
      (fun isHalted => ?_) (joins hasMain) fun stopped => by cases stopped
    simp [halted, TraceEvent.decides] at isHalted
  | @handle _ process _ _ _ _ _ found hasMain _ live =>
    exact halts.change [.handled process.mainTid] sound found (fun _ => rfl) rfl
      (by simp [TraceEvent.idle]) rfl rfl
      (fun rests => absurd rests (ProcessView.not_rests (spares process found) live))
      (joins hasMain) refreshed
  | @resume pid _ _ _ _ _ _ found _ _ blocked =>
    have notHalted : halted pid view.trace = false := Bool.eq_false_iff.mpr fun isHalted =>
      ProcessView.not_rests_of_blocked blocked (halts.rests isHalted found)
    refine halts.step sound found (fun _ => rfl) (halts.live.push ?_)
      (fun _ _ => halted_cons rfl) rfl rfl (fun isHalted => ?_) (fun _ => .inl)
      fun stopped => by cases stopped
    · rintro _ _ _ ⟨⟩
      exact notHalted
    · rw [halted_cons rfl, notHalted] at isHalted
      cases isHalted
  | @dispatch pid _ _ _ _ _ queued found owns ready saved =>
    have notHalted : halted pid view.trace = false := by
      refine Bool.eq_false_iff.mpr fun isHalted => ?_
      rcases (halts.rests isHalted found).2 with stopped | terminal
      · have stuck := halts.calm found stopped owns queued
        simp [ThreadView.canGo, ready, saved] at stuck
      · cases saved.symm.trans (sound.nothingLeft found terminal owns).2.1
    refine halts.step sound found (fun _ => rfl) (halts.live.push ?_)
      (fun _ _ => halted_cons rfl) rfl rfl (fun isHalted => ?_)
      (fun _ isQueued => .inl isQueued.1) refreshed
    · rintro _ _ _ ⟨⟩
      exact notHalted
    · rw [halted_cons rfl, notHalted] at isHalted
      cases isHalted
  | kernelThread _ found kernel =>
    refine halts.change [] sound found (fun _ => rfl) rfl (by simp) rfl rfl
      (fun rests => ?_) (fun _ => .inl) refreshed
    cases kernel.symm.trans rests.1

end Halts

end Lifecycle

open Lifecycle

namespace Kernel

variable {kernel : Kernel} {images : List UserlandImage} {frames : List UInt64}
  {cpu : Option (Pid × Tid)} {action : Action}

/-- Whether a call asks a stopped process to terminate that has a handler for this. -/
def terminatesStopped (kernel : Kernel) : Action → Bool
  | .syscall frame _ =>
    decide (Syscall.decode frame.number = some .kill) && decide (frame.arg1 = sigterm) &&
      ((Word.toUInt32? frame.arg0).bind kernel.table.get).any fun process =>
        decide (process.state = .stopped) && process.handles sigterm
  | _ => false

/-- The steps that leave stopped processes alone. -/
def keepsStopped (kernel : Kernel) (action : Action) : Bool :=
  decide kernel.table.tidsLeft && !kernel.terminatesStopped action

theorem sparesStopped_of_permitted
    (spared : kernel.terminatesStopped action = false)
    (permitted : kernel.Permitted action cpu view move) :
    move.sparesStopped view := by
  cases permitted with
  | free isFree => cases move <;> first | exact trivial | cases isFree
  | bridge | abandon | stop => exact trivial
  | call first isCall decoded starts =>
    cases move with
    | handle =>
      obtain ⟨rfl, isTarget, isTerm, handles⟩ := starts
      subst first isCall
      intro process found isStopped
      obtain ⟨owner, inTable, rfl⟩ := Option.map_eq_some_iff.mp found
      have isState : owner.state = .stopped := isStopped
      rw [inTable, Option.any_some] at handles
      simp [terminatesStopped, decoded, isTerm, isTarget, inTable, isState, handles] at spared
    | _ => exact trivial

/-- If no stopped process is asked to terminate that has a handler for this, a process that
has been stopped stays so until it is continued or ends, and none of its threads is put on
the processor. -/
theorem stopped_jobs_stay
    (reachable : Transition.ReachableWhere step
      (fun kernel action => kernel.keepsStopped action = true) (boot images frames) kernel) :
    (∀ process ∈ kernel.table.values, halted process.pid kernel.table.trace = true →
      process.state = .stopped ∨ process.state.terminal = true) ∧
    ∀ later pid tid context earlier,
      kernel.table.trace = later ++ .dispatched pid tid context :: earlier →
        halted pid earlier = false := by
  have invariant : ∃ cpu, kernel.InOrder cpu ∧ Halts (kernel.viewAt cpu) := by
    refine view_invariant (fun kernel action kept => ?_) (fun view atBoot => ?_) ?_ reachable
    · simp only [keepsStopped, Bool.and_eq_true, decide_eq_true_eq] at kept
      exact kept.1
    · have none : ∀ pid, halted pid view.trace = false := fun pid => by
        rw [atBoot.trace]
        rfl
      refine ⟨fun _ _ _ _ _ isTrace => ?_, fun {pid} isHalted => ?_, fun {pid} _ isHalted => ?_,
        fun found _ owns _ => ?_⟩
      · simp [atBoot.trace] at isTrace
      · cases (none pid).symm.trans isHalted
      · cases (none pid).symm.trans isHalted
      · exact ThreadView.canGo_of_context ((atBoot.kernelTask found).2.unsaved owns).1
    · intro kernel action cpu inOrder kept view move after sound halts permitted moved
      simp only [keepsStopped, Bool.and_eq_true, Bool.not_eq_true'] at kept
      exact halts.preserved sound (sparesStopped_of_permitted kept.2 permitted) moved
  obtain ⟨cpu, -, halts⟩ := invariant
  refine ⟨fun process listed isHalted => ?_, halts.live⟩
  exact (halts.rests isHalted (ProcessTable.view_found (KeyedStore.get_of_mem listed))).2

namespace Sample

/-- The first program starts a shell and waits for it; the shell installs a handler for
the terminate request and sleeps, and the terminal stops it. -/
def stopShell : List Action :=
  loadInit ++ [execShell, call 14 2 0, .input none, load,
    call 44 15 0x1000300, call 19 1000 0, .terminalKey .suspend, .input none,
    .pending .loadFailed, .ready]

/-- Whether the shell has been stopped and not continued, and its state. -/
def shellState (kernel : Kernel) : Bool × Option ProcessState :=
  (halted 2 kernel.table.trace, (kernel.table.get 2).map Process.state)

def stoppedKernel : Kernel :=
  (Transition.runWhere step keepsStopped machine stopShell).get (by decide +kernel)

end Sample

/-- The shell is stopped. -/
theorem stopped_jobs_stay_stopShell :
    Sample.shellState Sample.stoppedKernel = (true, some .stopped) ∧
      (∀ process ∈ Sample.stoppedKernel.table.values,
        halted process.pid Sample.stoppedKernel.table.trace = true →
          process.state = .stopped ∨ process.state.terminal = true) ∧
      ∀ later pid tid context earlier,
        Sample.stoppedKernel.table.trace = later ++ .dispatched pid tid context :: earlier →
          halted pid earlier = false := by
  have performed : Transition.runWhere step keepsStopped Sample.machine Sample.stopShell =
      some Sample.stoppedKernel := (Option.some_get _).symm
  exact ⟨by decide +kernel,
    stopped_jobs_stay (Transition.reachableWhere_of_runWhere performed)⟩

/-- The first program asks the stopped shell to terminate: the shell becomes ready,
although nobody has continued it. -/
theorem stopped_job_woken_by_signal :
    (Transition.run step Sample.machine (Sample.stopShell ++ [Sample.call 16 2 15])).map
      Sample.shellState = some (true, some .ready) := by
  decide +kernel

end Kernel

end Vantara
