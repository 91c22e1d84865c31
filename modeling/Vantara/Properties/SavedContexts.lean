import Vantara.Properties.RunningThreads

/-!
# Saved contexts

A thread that leaves the processor leaves the context from which it resumes.  The
history of the process table records who left a context in which thread, the
signal handlers that threads entered, and the contexts with which threads were put
back on the processor.
-/

namespace Vantara

open Foundation

/-- The contexts agree, except perhaps for the result register. -/
def UserResumeContext.Agrees (context other : UserResumeContext) : Prop :=
  { context with rax := 0 } = { other with rax := 0 }

theorem UserResumeContext.Agrees.trans {first second third : UserResumeContext}
    (left : first.Agrees second)
    (right : second.Agrees third) :
    first.Agrees third :=
  Eq.trans left right

/-- Whether an event says from where a thread resumes, or that it has resumed. -/
def TraceEvent.concerns (tid : Tid) : TraceEvent → Bool
  | .saved _ target _ => decide (target = tid)
  | .handled target => decide (target = tid)
  | .dispatched _ target _ => decide (target = tid)
  | _ => false

/-- The context that a thread left when it last left the processor, unless it has entered
a signal handler or been put back since. -/
def lastSaved (tid : Tid) (trace : List TraceEvent) : Option UserResumeContext :=
  match trace.find? (TraceEvent.concerns tid) with
  | some (.saved _ _ context) => some context
  | _ => none

theorem lastSaved_append {events trace : List TraceEvent}
    (quiet : ∀ event ∈ events, event.concerns tid = false) :
    lastSaved tid (events ++ trace) = lastSaved tid trace := by
  have none : events.find? (TraceEvent.concerns tid) = none :=
    List.find?_eq_none.mpr fun event listed => by simp [quiet event listed]
  unfold lastSaved
  rw [List.find?_append, none, Option.none_or]

theorem lastSaved_cons {trace : List TraceEvent} (quiet : TraceEvent.concerns tid event = false) :
    lastSaved tid (event :: trace) = lastSaved tid trace :=
  @lastSaved_append tid [event] trace (by simpa using quiet)

@[simp] theorem lastSaved_saved :
    lastSaved tid (.saved caller tid context :: trace) = some context := by
  simp [lastSaved, TraceEvent.concerns]

@[simp] theorem lastSaved_handled : lastSaved tid (.handled tid :: trace) = none := by
  simp [lastSaved, TraceEvent.concerns]

/-- Threads leave contexts in themselves only, and are put back on the processor with
what they left. -/
structure History (trace : List TraceEvent) (bound : Nat) : Prop where
  dispatched : ∀ {later pid tid context earlier saved},
    trace = later ++ .dispatched pid tid context :: earlier →
      lastSaved tid earlier = some saved → context.Agrees saved
  own : ∀ {caller target context}, .saved caller target context ∈ trace → caller = target
  drawn : ∀ {tid saved}, lastSaved tid trace = some saved → tid.toNat < bound

namespace History

variable {trace : List TraceEvent} {bound : Nat} {event : TraceEvent}

/-- The history grows by an event. -/
theorem push (history : History trace bound)
    (dispatched : ∀ pid tid context saved, event = .dispatched pid tid context →
      lastSaved tid trace = some saved → context.Agrees saved)
    (own : ∀ caller target context, event = .saved caller target context → caller = target)
    (drawn : ∀ tid, event.concerns tid = true → tid.toNat < bound) :
    History (event :: trace) bound := by
  constructor
  case dispatched =>
    intro later pid tid context earlier saved isTrace isSaved
    cases later with
    | nil =>
      cases isTrace
      exact dispatched pid tid context saved rfl isSaved
    | cons first later =>
      cases isTrace
      exact history.dispatched rfl isSaved
  case own =>
    intro caller target context listed
    rcases List.mem_cons.mp listed with isEvent | isOld
    · exact own caller target context isEvent.symm
    · exact history.own isOld
  case drawn =>
    intro tid saved isSaved
    cases concerned : event.concerns tid with
    | true => exact drawn tid concerned
    | false =>
      rw [lastSaved_cons concerned] at isSaved
      exact history.drawn isSaved

/-- The history grows by events that concern no thread. -/
theorem append {events : List TraceEvent} (history : History trace bound)
    (quiet : ∀ event ∈ events, ∀ tid, event.concerns tid = false) :
    History (events ++ trace) bound := by
  induction events with
  | nil => exact history
  | cons event events ih =>
    have silent := quiet event (List.mem_cons_self ..)
    refine (ih fun other listed => quiet other (List.mem_cons_of_mem _ listed)).push
      ?_ ?_ fun tid concerned => ?_
    · rintro pid tid context saved rfl
      simp [TraceEvent.concerns] at silent
    · rintro caller target context rfl
      simp [TraceEvent.concerns] at silent
    · rw [silent tid] at concerned
      cases concerned

/-- A thread leaves a context in itself. -/
theorem save (history : History trace bound) (drawn : target.toNat < bound) :
    History (.saved target target context :: trace) bound := by
  refine history.push (fun _ _ _ _ isEvent => by cases isEvent) ?_ fun tid concerned => ?_
  · rintro _ _ _ ⟨⟩
    rfl
  · simp only [TraceEvent.concerns, decide_eq_true_eq] at concerned
    exact concerned ▸ drawn

/-- A thread enters a signal handler. -/
theorem handle (history : History trace bound) (drawn : target.toNat < bound) :
    History (.handled target :: trace) bound := by
  refine history.push (fun _ _ _ _ isEvent => by cases isEvent)
    (fun _ _ _ isEvent => by cases isEvent) fun tid concerned => ?_
  simp only [TraceEvent.concerns, decide_eq_true_eq] at concerned
  exact concerned ▸ drawn

theorem mono (history : History trace bound) (later : bound ≤ next) : History trace next :=
  ⟨history.dispatched, history.own, fun isSaved => Nat.lt_of_lt_of_le (history.drawn isSaved) later⟩

end History

namespace Lifecycle

variable {view after : View} {process changed : ProcessView} {pid : Pid}
  (events : List TraceEvent)

/-- Contexts are those that threads left themselves. -/
structure Kept (view : View) : Prop where
  history : History view.trace view.tidBound
  context : ∀ {other owner tid thread context saved}, view.process other = some owner →
    owner.threads tid = some thread → thread.context = some context →
      lastSaved tid view.trace = some saved → context.Agrees saved

/-- Where the context of a thread comes from: the thread is new, or had one that agrees. -/
def View.Stems (view : View) (pid : Pid) (tid : Tid) (context : UserResumeContext) : Prop :=
  view.tidBound ≤ tid.toNat ∨
    ∃ owner thread former, view.process pid = some owner ∧ owner.threads tid = some thread ∧
      thread.context = some former ∧ context.Agrees former

namespace Kept

/-- The history grows by events that concern no thread. -/
theorem quiet (kept : Kept view)
    (trace : after.trace = events ++ view.trace)
    (silent : ∀ event ∈ events, ∀ tid, event.concerns tid = false)
    (bound : view.tidBound ≤ after.tidBound)
    (contexts : ∀ {other owner tid thread context}, after.process other = some owner →
      owner.threads tid = some thread → thread.context = some context →
        view.Stems other tid context) :
    Kept after := by
  refine ⟨?_, fun {other owner tid thread context saved} found owns isContext isSaved => ?_⟩
  · rw [trace]
    exact (kept.history.append silent).mono bound
  · rw [trace, lastSaved_append fun event listed => silent event listed tid] at isSaved
    rcases contexts found owns isContext with fresh | ⟨_, _, _, was, wasThread, wasContext,
      agrees⟩
    · exact absurd (kept.history.drawn isSaved) (Nat.not_lt.mpr fresh)
    · exact agrees.trans (kept.context was wasThread wasContext isSaved)

/-- One process changes and the history grows by events that concern no thread. -/
theorem change (kept : Kept view)
    (processes : view.Becomes pid changed after)
    (trace : after.trace = events ++ view.trace)
    (silent : ∀ event ∈ events, ∀ tid, event.concerns tid = false)
    (bound : view.tidBound ≤ after.tidBound)
    (contexts : ∀ tid thread context, changed.threads tid = some thread →
      thread.context = some context → view.Stems pid tid context) :
    Kept after := by
  refine kept.quiet _ trace silent bound fun {other owner tid thread context} found owns
    isContext => ?_
  rw [processes] at found
  split_ifs at found with same
  · cases found
    exact same ▸ contexts tid thread context owns isContext
  · exact .inr ⟨owner, thread, context, found, owns, isContext, rfl⟩

/-- One thread changes and the history grows by events that concern it alone. -/
theorem replace
    {target : Tid} {replacement : ThreadView}
    (kept : Kept view) (sound : Sound view)
    (found : view.process pid = some process)
    (present : (process.threads target).isSome = true)
    (processes : view.Becomes pid changed after)
    (threads : ∀ tid, changed.threads tid = (process.setThread target replacement).threads tid)
    (history : History after.trace after.tidBound)
    (others : ∀ tid, tid ≠ target → lastSaved tid after.trace = lastSaved tid view.trace)
    (agrees : ∀ context saved, replacement.context = some context →
      lastSaved target after.trace = some saved → context.Agrees saved) :
    Kept after := by
  refine ⟨history, fun {other owner tid thread context saved} hasOther owns isContext
    isSaved => ?_⟩
  rw [processes] at hasOther
  split_ifs at hasOther with same
  · cases hasOther
    rw [threads, ProcessView.setThread_threads] at owns
    split_ifs at owns with isTarget
    · cases owns
      exact agrees context saved isContext (isTarget ▸ isSaved)
    · rw [others tid isTarget] at isSaved
      exact kept.context found owns isContext isSaved
  · have differ : tid ≠ target := by
      rintro rfl
      exact same (sound.oneOwner hasOther found (by rw [owns]; rfl) present)
    rw [others tid differ] at isSaved
    exact kept.context hasOther owns isContext isSaved

/-- One thread changes but for its context, or gets another result. -/
theorem alter
    {target : Tid} {former replacement : ThreadView}
    (kept : Kept view)
    (found : view.process pid = some process)
    (foundTarget : process.threads target = some former)
    (processes : view.Becomes pid changed after)
    (threads : ∀ tid, changed.threads tid = (process.setThread target replacement).threads tid)
    (trace : after.trace = events ++ view.trace)
    (silent : ∀ event ∈ events, ∀ tid, event.concerns tid = false)
    (bound : view.tidBound ≤ after.tidBound)
    (agrees : ∀ context, replacement.context = some context →
      ∃ formerContext, former.context = some formerContext ∧ context.Agrees formerContext) :
    Kept after := by
  refine kept.change _ processes trace silent bound fun tid thread context owns
    isContext => .inr ?_
  rw [threads, ProcessView.setThread_threads] at owns
  split_ifs at owns with same
  · cases owns
    obtain ⟨formerContext, isFormer, isAgreed⟩ := agrees context isContext
    exact ⟨process, former, formerContext, found, same ▸ foundTarget, isFormer, isAgreed⟩
  · exact ⟨process, thread, context, found, owns, isContext, rfl⟩

/-- A process ends, and with it the contexts of its threads. -/
theorem finish {state : ProcessState} (kept : Kept view)
    (processes : view.Becomes pid changed after)
    (threads : ∀ tid, changed.threads tid = (process.ended state).threads tid)
    (trace : after.trace = events ++ view.trace)
    (silent : ∀ event ∈ events, ∀ tid, event.concerns tid = false)
    (bound : view.tidBound ≤ after.tidBound) :
    Kept after := by
  refine kept.change _ processes trace silent bound fun tid thread context owns
    isContext => ?_
  rw [threads, ProcessView.ended_threads] at owns
  obtain ⟨former, -, rfl⟩ := Option.map_eq_some_iff.mp owns
  cases isContext

/-- A thread is put back on the processor. -/
theorem dispatch
    {target : Tid} {former replacement : ThreadView} {context given : UserResumeContext}
    (kept : Kept view) (sound : Sound view)
    (found : view.process pid = some process)
    (foundTarget : process.threads target = some former)
    (saved : former.context = some context)
    (agrees : given.Agrees context)
    (processes : view.Becomes pid changed after)
    (threads : ∀ tid, changed.threads tid = (process.setThread target replacement).threads tid)
    (trace : after.trace = .dispatched pid target given :: view.trace)
    (bound : after.tidBound = view.tidBound)
    (unsaved : replacement.context = none) :
    Kept after := by
  have present : (process.threads target).isSome = true := by
    rw [foundTarget]
    rfl
  refine kept.replace sound found present processes threads ?_ (fun tid differ => ?_)
    fun context _ isContext => ?_
  · rw [trace, bound]
    refine kept.history.push ?_ (fun _ _ _ isEvent => by cases isEvent) fun tid concerned => ?_
    · rintro _ _ _ last ⟨⟩ isSaved
      exact agrees.trans (kept.context found foundTarget saved isSaved)
    · simp only [TraceEvent.concerns, decide_eq_true_eq] at concerned
      exact concerned ▸ sound.tidDrawn found present
  · rw [trace, lastSaved_cons (by simp [TraceEvent.concerns, differ.symm])]
  · rw [unsaved] at isContext
    cases isContext

/-- A thread leaves a context in itself, among events that concern no thread. -/
theorem save
    {target : Tid} {replacement : ThreadView} {context : UserResumeContext}
    (before : List TraceEvent)
    (kept : Kept view)
    (sound : Sound view)
    (found : view.process pid = some process)
    (present : (process.threads target).isSome = true)
    (processes : view.Becomes pid changed after)
    (threads : ∀ tid, changed.threads tid = (process.setThread target replacement).threads tid)
    (trace : after.trace = events ++ .saved target target context :: (before ++ view.trace))
    (silent : ∀ event ∈ events, ∀ tid, event.concerns tid = false)
    (silentBefore : ∀ event ∈ before, ∀ tid, event.concerns tid = false)
    (bound : after.tidBound = view.tidBound)
    (saved : replacement.context = some context) :
    Kept after := by
  refine kept.replace sound found present processes threads ?_ (fun tid differ => ?_)
    fun other last isOther isLast => ?_
  · rw [trace, bound]
    exact ((kept.history.append silentBefore).save (sound.tidDrawn found present)).append silent
  · rw [trace, lastSaved_append fun event listed => silent event listed tid,
      lastSaved_cons (by simp [TraceEvent.concerns, differ.symm]),
      lastSaved_append fun event listed => silentBefore event listed tid]
  · rw [trace, lastSaved_append fun event listed => silent event listed target,
      lastSaved_saved] at isLast
    rw [saved] at isOther
    cases isOther
    cases isLast
    rfl

/-- A thread that leaves the processor leaves its own context. -/
theorem park
    {parking : Parking} {thread parked : ThreadView}
    (kept : Kept view) (sound : Sound view)
    (found : view.process pid = some process)
    (owns : process.threads tid = some thread)
    (isParked : Parked thread parking parked)
    (processes : view.Becomes pid changed after)
    (threads : ∀ other, changed.threads other = (process.setThread tid parked).threads other)
    (trace : after.trace = parking.events tid ++ view.trace)
    (bound : after.tidBound = view.tidBound) :
    Kept after := by
  have present : (process.threads tid).isSome = true := by
    rw [owns]
    rfl
  cases isParked with
  | @yields context | @blocks context =>
    exact kept.save [] [] sound found present processes threads trace
      (by simp) (by simp) bound rfl
  | @leavesHandler original =>
    exact kept.save [] [.restored tid] sound found present processes
      threads trace (by simp) (by simp [TraceEvent.concerns]) bound rfl
  | @entersHandler original =>
    have drawn := sound.tidDrawn found present
    have isTrace : after.trace = .handled tid :: .saved tid tid original :: view.trace := trace
    refine kept.replace sound found present processes threads ?_ (fun other differ => ?_)
      fun _ last _ isLast => ?_
    · rw [isTrace, bound]
      exact (kept.history.save drawn).handle drawn
    · rw [isTrace, lastSaved_cons (by simp [TraceEvent.concerns, differ.symm]),
        lastSaved_cons (by simp [TraceEvent.concerns, differ.symm])]
    · rw [isTrace, lastSaved_handled] at isLast
      cases isLast

theorem preserved (sound : Sound view) (kept : Kept view)
    (byMain : move.byMain)
    (moved : Moves view move after) :
    Kept after := by
  -- Contexts that stay as they are.
  have stay : ∀ {other owner tid thread context}, view.process other = some owner →
      owner.threads tid = some thread → thread.context = some context →
        view.Stems other tid context := fun found owns isContext =>
    .inr ⟨_, _, _, found, owns, isContext, rfl⟩
  have isSome : ∀ {process : ProcessView} {tid : Tid} {thread : ThreadView},
      process.threads tid = some thread → (process.threads tid).isSome = true := by
    intro process tid thread found
    rw [found]
    rfl
  cases moved with
  | drawTid later =>
    exact kept.quiet [] rfl (by simp) later stay
  | request | discard | forget | skip | abandon =>
    exact kept.quiet [] rfl (by simp) le_rfl stay
  | @answer pid child status =>
    exact kept.quiet [.answered pid child status] rfl (by simp [TraceEvent.concerns]) le_rfl
      stay
  | launch =>
    refine kept.change [] (fun _ => rfl) rfl (by simp) (Nat.le_succ _)
      fun tid thread context found isContext => ?_
    rw [ProcessView.launched_threads] at found
    split_ifs at found
    cases found
    cases isContext
  | spawn context _ found fresh =>
    refine kept.change [] (fun _ => rfl) rfl (by simp) (Nat.le_succ _)
      fun tid thread context owns isContext => ?_
    rw [ProcessView.refresh_threads, ProcessView.setThread_threads] at owns
    split_ifs at owns with same
    · exact .inl (same ▸ fresh.ge)
    · exact stay found owns isContext
  | park _ _ found owns parked =>
    exact kept.park sound found owns parked (fun _ => rfl) (fun _ => rfl) rfl rfl
  | exitThread _ found =>
    refine kept.change [] (fun _ => rfl) rfl (by simp) le_rfl
      fun tid thread context owns isContext => ?_
    rw [ProcessView.refresh_threads, ProcessView.exitThread_threads] at owns
    obtain ⟨former, foundFormer, rfl⟩ := Option.map_eq_some_iff.mp owns
    split_ifs at isContext
    · obtain ⟨formerContext, isFormer, rfl⟩ := Option.map_eq_some_iff.mp isContext
      exact .inr ⟨_, former, formerContext, found, foundFormer, isFormer, rfl⟩
    · exact stay found foundFormer isContext
  | reapThread _ found owns | kernelThread _ found _ owns =>
    exact kept.alter [] found owns (fun _ => rfl) (fun _ => rfl) rfl
      (by simp) le_rfl fun context isContext => ⟨context, isContext, rfl⟩
  | wake _ found owns _ saved =>
    refine kept.alter [] found owns (fun _ => rfl) (fun _ => rfl) rfl
      (by simp) le_rfl fun context isContext => ⟨_, saved, ?_⟩
    cases isContext
    rfl
  | @finish pid process status =>
    exact kept.finish [.ended pid process.parent status] (fun _ => rfl)
      (fun _ => rfl) rfl (by simp [TraceEvent.concerns]) le_rfl
  | @collect parent child _ status =>
    exact kept.finish [.collected parent child status] (fun _ => rfl)
      (fun _ => rfl) rfl (by simp [TraceEvent.concerns]) le_rfl
  | reap | bridge =>
    exact kept.finish [] (fun _ => rfl) (fun _ => rfl) rfl (by simp) le_rfl
  | dropWait found hasMain =>
    exact kept.alter [] found hasMain (fun _ => rfl) (fun _ => rfl) rfl
      (by simp) le_rfl fun context isContext => by cases isContext
  | @wait pid _ process _ child context _ found hasMain =>
    obtain rfl := byMain
    exact kept.save [.waiting pid process.mainTid child] [] sound found
      (isSome hasMain) (fun _ => rfl) (fun _ => rfl) rfl (by simp [TraceEvent.concerns])
      (by simp) rfl rfl
  | @sleep _ _ _ _ context _ _ found hasMain =>
    obtain rfl := byMain
    exact kept.save [] [] sound found (isSome hasMain)
      (fun _ => rfl) (fun _ => rfl) rfl (by simp) (by simp) rfl rfl
  | @stop pid _ _ signal _ found hasMain =>
    exact kept.alter [.stopped pid signal] found hasMain (fun _ => rfl)
      (fun _ => rfl) rfl (by simp [TraceEvent.concerns]) le_rfl
      fun context isContext => ⟨context, isContext, rfl⟩
  | notify _ found hasMain =>
    refine kept.alter [] found hasMain (fun _ => rfl) (fun _ => rfl) rfl
      (by simp) le_rfl fun context isContext => ?_
    obtain ⟨former, isFormer, rfl⟩ := Option.map_eq_some_iff.mp isContext
    exact ⟨former, isFormer, rfl⟩
  | awaken found hasMain =>
    exact kept.alter [] found hasMain (fun _ => rfl) (fun _ => rfl) rfl
      (by simp) le_rfl fun context isContext => ⟨context, isContext, rfl⟩
  | @resumeJob pid _ _ found hasMain =>
    exact kept.alter [.continued pid] found hasMain (fun _ => rfl)
      (fun _ => rfl) rfl (by simp [TraceEvent.concerns]) le_rfl
      fun context isContext => ⟨context, isContext, rfl⟩
  | handle _ _ _ found hasMain =>
    refine kept.replace sound found (isSome hasMain) (fun _ => rfl) (fun _ => rfl) ?_
      (fun tid differ => ?_) fun _ last _ isLast => ?_
    · exact kept.history.handle (sound.tidDrawn found (isSome hasMain))
    · exact lastSaved_cons (by simp [TraceEvent.concerns, differ.symm])
    · cases lastSaved_handled.symm.trans isLast
  | remove =>
    refine kept.quiet [] rfl (by simp) le_rfl fun {other owner tid thread context}
      hasOther owns isContext => ?_
    dsimp only at hasOther
    split_ifs at hasOther
    exact stay hasOther owns isContext
  | resume _ _ found hasMain _ _ _ saved =>
    refine kept.dispatch sound found hasMain saved ?_ (fun _ => rfl) (fun _ => rfl) rfl rfl rfl
    rfl
  | dispatch _ _ found owns _ saved =>
    exact kept.dispatch sound found owns saved rfl (fun _ => rfl) (fun _ => rfl) rfl rfl
      rfl

end Kept

end Lifecycle

open Lifecycle

namespace Kernel

variable {kernel : Kernel} {images : List UserlandImage} {frames : List UInt64}

/-- The steps that leave contexts in the calling thread only. -/
def keepsContexts (kernel : Kernel) (action : Action) : Bool :=
  decide kernel.table.tidsLeft && !kernel.waitsBeside action

/-- If no call blocks the process on behalf of a thread other than the main one, a thread is
put back on the processor with the context that it left, except for the result register
and unless it has entered a signal handler since, and no thread leaves a context in
another. -/
theorem saved_contexts_unmixed
    (reachable : Transition.ReachableWhere step
      (fun kernel action => kernel.keepsContexts action = true) (boot images frames) kernel) :
    (∀ later pid tid context earlier saved,
      kernel.table.trace = later ++ .dispatched pid tid context :: earlier →
        lastSaved tid earlier = some saved → context.Agrees saved) ∧
    ∀ caller target context, .saved caller target context ∈ kernel.table.trace →
      caller = target := by
  have invariant : ∃ cpu, kernel.InOrder cpu ∧ Kept (kernel.viewAt cpu) := by
    refine view_invariant (fun kernel action kept => ?_) (fun view atBoot => ?_) ?_ reachable
    · simp only [keepsContexts, Bool.and_eq_true, decide_eq_true_eq] at kept
      exact kept.1
    · refine ⟨?_, fun found owns isContext => ?_⟩
      · rw [atBoot.trace]
        exact ⟨by simp, by simp, nofun⟩
      · cases ((atBoot.kernelTask found).2.unsaved owns).1.symm.trans isContext
    · intro kernel action cpu inOrder permits view move after sound kept permitted moved
      simp only [keepsContexts, Bool.and_eq_true, Bool.not_eq_true'] at permits
      exact kept.preserved sound (byMain_of_permitted inOrder permits.2 permitted moved) moved
  obtain ⟨cpu, -, kept⟩ := invariant
  exact ⟨fun _ _ _ _ _ _ => kept.history.dispatched, fun _ _ _ => kept.history.own⟩

namespace Sample

/-- The second thread yields back to the main one. -/
def backAndForth : List Action := secondThread ++ [call 17 0 0]

/-- The second thread sleeps at an address of its own, and the sleep ends. -/
def sleepElsewhere : List Action :=
  secondThread ++ [.syscall (frameAt 0x1000777 19 10 0 0 0) env, .kernelTick, .input none,
    .pending .loadFailed, .ready]

def unmixedKernel : Kernel :=
  (Transition.runWhere step keepsContexts machine backAndForth).get (by decide +kernel)

/-- Where threads were put on the processor, and in which threads callers left contexts,
latest first. -/
def contextTrace (kernel : Kernel) : List (Tid × Tid × UInt64) :=
  kernel.table.trace.filterMap fun event =>
    match event with
    | .saved caller target context => some (caller, target, context.rip)
    | .dispatched _ tid context => some (0, tid, context.rip)
    | _ => none

end Sample

/-- Two threads take turns. -/
theorem saved_contexts_unmixed_backAndForth :
    Sample.contextTrace Sample.unmixedKernel =
        [(0, 4, 0x1000100), (5, 5, 0x1000100), (0, 5, 0x1000000), (4, 4, 0x1000100)] ∧
      (∀ later pid tid context earlier saved,
        Sample.unmixedKernel.table.trace = later ++ .dispatched pid tid context :: earlier →
          lastSaved tid earlier = some saved → context.Agrees saved) ∧
      ∀ caller target context, .saved caller target context ∈ Sample.unmixedKernel.table.trace →
        caller = target := by
  have performed : Transition.runWhere step keepsContexts Sample.machine Sample.backAndForth =
      some Sample.unmixedKernel := (Option.some_get _).symm
  exact ⟨by decide +kernel,
    saved_contexts_unmixed (Transition.reachableWhere_of_runWhere performed)⟩

/-- The main thread left the processor at one address, and is put back at the address at
which the second thread slept. -/
theorem context_mixed_by_sleep :
    (Transition.run step Sample.machine Sample.sleepElsewhere).map Sample.contextTrace =
      some [(0, 4, 0x1000777), (5, 4, 0x1000777), (0, 5, 0x1000000), (4, 4, 0x1000100)] := by
  decide +kernel

end Kernel

end Vantara
