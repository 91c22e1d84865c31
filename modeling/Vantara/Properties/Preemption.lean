import Vantara.Properties.ThreadSummaries

/-!
# Preemption

A running thread is exchanged for the first one in the queue that can run.  It joins the
end of the queue, because a thread that runs does not wait there: whatever is queued is
ready, as long as no two threads have the same identifier.
-/

namespace Vantara

open Foundation

namespace Lifecycle

variable {view after : View} {process changed : ProcessView} {pid : Pid} {move : Move}

/-! ## The queue holds ready threads -/

/-- The threads of user processes that are queued are ready, and the main thread of a
blocked process is not. -/
structure QueueReady (view : View) : Prop where
  ready : ∀ {other owner tid thread}, view.process other = some owner →
    owner.kind = .userProcess → owner.threads tid = some thread → tid ∈ view.queue →
      thread.state = .ready
  blocked : ∀ {other owner main}, view.process other = some owner → owner.state = .blocked →
    owner.threads owner.mainTid = some main → main.state ≠ .ready

/-- A process whose state summarizes its threads and is blocked has none that is ready. -/
theorem ProcessView.not_ready_of_refresh
    (blocked : process.refresh.state = .blocked)
    (main : ThreadView)
    (found : process.refresh.threads process.refresh.mainTid = some main) :
    main.state ≠ .ready := by
  have live : process.state.terminal = false := by
    rw [← ProcessView.refresh_terminal, blocked]
    rfl
  rw [ProcessView.refresh_state_of_live live] at blocked
  rw [ProcessView.refresh_threads] at found
  have low := ProcessView.rank_le_of_summary found
  rw [blocked] at low
  intro ready
  rw [ready] at low
  exact absurd low (by decide)

namespace QueueReady

section

variable (held : QueueReady view)
include held

/-- One process changes, and the queue perhaps as far as its threads are concerned. -/
theorem change
    (processes : view.Becomes pid changed after)
    (others : ∀ other owner tid thread, other ≠ pid → view.process other = some owner →
      owner.threads tid = some thread → tid ∈ after.queue → tid ∈ view.queue)
    (ready : changed.kind = .userProcess → ∀ tid thread, changed.threads tid = some thread →
      tid ∈ after.queue → thread.state = .ready)
    (blocked : changed.state = .blocked → ∀ main,
      changed.threads changed.mainTid = some main → main.state ≠ .ready) :
    QueueReady after where
  ready {other owner tid thread} found user owns queued := by
    rw [processes] at found
    split_ifs at found with same
    · cases found
      exact ready user tid thread owns queued
    · exact held.ready found user owns
        (others other owner tid thread same found owns queued)
  blocked {other owner main} found isBlocked hasMain := by
    rw [processes] at found
    split_ifs at found
    · cases found
      exact blocked isBlocked main hasMain
    · exact held.blocked found isBlocked hasMain

/-- One thread is replaced, and is ready if it is queued then. -/
theorem replace {replacement : ThreadView}
    (found : view.process pid = some process)
    (processes : view.Becomes pid changed after)
    (threads : ∀ tid, changed.threads tid = (process.setThread target replacement).threads tid)
    (kind : changed.kind = process.kind)
    (unowned : ∀ other owner thread, other ≠ pid → view.process other = some owner →
      owner.threads target ≠ some thread)
    (keeps : ∀ tid ∈ after.queue, tid ≠ target → tid ∈ view.queue)
    (joins : process.kind = .userProcess → target ∈ after.queue → replacement.state = .ready)
    (blocked : changed.state = .blocked → ∀ main,
      changed.threads changed.mainTid = some main → main.state ≠ .ready) :
    QueueReady after := by
  refine held.change processes (fun other owner tid thread differ hasOther owns
    queued => ?_) (fun user tid thread owns queued => ?_) blocked
  · refine keeps tid queued ?_
    rintro rfl
    exact unowned other owner thread differ hasOther owns
  · rw [kind] at user
    rw [threads, ProcessView.setThread_threads] at owns
    split_ifs at owns with same
    · cases owns
      exact joins user (same ▸ queued)
    · exact held.ready found user owns (keeps tid queued same)

/-- The threads of a process leave the queue. -/
theorem clear
    (processes : view.Becomes pid changed after)
    (queue : after.queue = view.queue \ process.tids)
    (threads : ∀ tid, (changed.threads tid).isSome = true → (process.threads tid).isSome = true)
    (blocked : changed.state = .blocked → ∀ main,
      changed.threads changed.mainTid = some main → main.state ≠ .ready) :
    QueueReady after := by
  rw [Set.ext_iff] at queue
  refine held.change processes (fun _ _ tid _ _ _ _ queued => ((queue tid).mp queued).1)
    (fun _ tid thread owns queued => ?_) blocked
  exact absurd (threads tid (by rw [owns]; rfl)) ((queue tid).mp queued).2

/-- A process is blocked or stopped as a whole. -/
theorem clearMain {middle : ProcessView} {main replacement : ThreadView} {state : ProcessState}
    (hasMain : process.threads process.mainTid = some main)
    (processes : view.Becomes pid (middle.setMain state replacement) after)
    (sameMain : middle.mainTid = process.mainTid)
    (sameThreads : middle.threads = process.threads)
    (queue : after.queue = view.queue \ process.tids)
    (notReady : replacement.state ≠ .ready) :
    QueueReady after := by
  refine held.clear processes queue (fun tid owned => ?_) fun _ atMain foundAfter => ?_
  · simp only [ProcessView.setMain_threads, ProcessView.setThread_threads, sameMain,
      sameThreads] at owned
    split_ifs at owned with isMain
    · rw [isMain, hasMain]
      rfl
    · exact owned
  · have same := ProcessView.setThread_self.symm.trans foundAfter
    rw [← Option.some.inj same]
    exact notReady

/-- A process that has ended already is given up. -/
theorem giveUp {state : ProcessState} (sound : Sound view)
    (found : view.process pid = some process)
    (terminal : process.state.terminal = true)
    (processes : view.Becomes pid (process.ended state) after)
    (queue : after.queue = view.queue)
    (notBlocked : state ≠ .blocked) :
    QueueReady after := by
  refine held.change processes (fun _ _ _ _ _ _ _ queued => queue ▸ queued)
    (fun _ tid thread owns queued => ?_) fun isBlocked => absurd isBlocked notBlocked
  obtain ⟨old, foundOld, -⟩ := Option.map_eq_some_iff.mp owns
  exact absurd (queue ▸ queued) (sound.nothingLeft found terminal foundOld).2.2

/-- The main thread of a process becomes ready and joins the queue. -/
theorem mainReady {main replacement : ThreadView} (sound : Sound view)
    (found : view.process pid = some process)
    (hasMain : process.threads process.mainTid = some main)
    (processes : view.Becomes pid changed after)
    (threads : ∀ tid, changed.threads tid =
      (process.setThread process.mainTid replacement).threads tid)
    (kind : changed.kind = process.kind)
    (queue : after.queue = insert process.mainTid view.queue)
    (ready : replacement.state = .ready)
    (blocked : changed.state = .blocked → ∀ main,
      changed.threads changed.mainTid = some main → main.state ≠ .ready) :
    QueueReady after := by
  refine held.replace found processes threads kind (fun other owner thread differ hasOther
    owns => ?_) (fun tid queued differ => ?_) (fun _ _ => ready) blocked
  · refine sound.not_mem_tids found differ hasOther owns ?_
    rw [ProcessView.mem_tids, hasMain]
    rfl
  · rw [queue] at queued
    exact queued.resolve_left differ

end

theorem preserved (sound : Sound view) (held : QueueReady view) (moved : Moves view move after) :
    QueueReady after := by
  -- A thread that the process has is no thread of another one.
  have unowned : ∀ {pid process tid} {thread : ThreadView}, view.process pid = some process →
      process.threads tid = some thread → ∀ other owner otherThread, other ≠ pid →
        view.process other = some owner → owner.threads tid ≠ some otherThread := by
    intro pid process tid thread found owns other owner otherThread differ hasOther
      foundOtherThread
    refine sound.not_mem_tids found differ hasOther foundOtherThread ?_
    rw [ProcessView.mem_tids, owns]
    rfl
  cases moved with
  | drawTid | request | discard | answer | abandon => exact ⟨held.ready, held.blocked⟩
  | forget found | skip =>
    exact ⟨fun found user owns queued => held.ready found user owns queued.1,
      held.blocked⟩
  | launch _ _ _ _ fresh =>
    refine held.change (fun _ => rfl) (fun _ _ _ _ _ _ _ queued => queued)
      (fun _ tid thread owns queued => ?_) nofun
    rw [ProcessView.launched_threads] at owns
    split_ifs at owns with same
    have drawn := sound.queueDrawn queued
    rw [same, fresh] at drawn
    exact absurd drawn (Nat.lt_irrefl _)
  | spawn _ _ found fresh =>
    refine held.replace found (fun _ => rfl) (fun _ => rfl) rfl
      (fun other owner thread _ hasOther owns => ?_)
      (fun tid queued differ => queued.resolve_left differ) (fun _ _ => rfl)
      ProcessView.not_ready_of_refresh
    have drawn := sound.tidDrawn hasOther (by rw [owns]; rfl)
    rw [fresh] at drawn
    exact absurd drawn (Nat.lt_irrefl _)
  | park _ current found owns =>
    obtain ⟨user, -, -, thread, foundRunning, running⟩ := sound.current current found
    refine held.replace found (fun _ => rfl) (fun _ => rfl) rfl (unowned found owns)
      (fun tid queued differ => ?_) (fun _ queued => ?_) ProcessView.not_ready_of_refresh
    · exact queued.resolve_right fun joins => differ joins.1
    · rcases queued with wasQueued | ⟨-, ready⟩
      · cases running.symm.trans (held.ready found user foundRunning wasQueued)
      · exact ready
  | @exitThread _ target _ _ _ found =>
    refine held.change (fun _ => rfl)
      (fun other owner tid thread differ hasOther owns queued => ?_)
      (fun user tid thread owns queued => ?_) ProcessView.not_ready_of_refresh
    · rcases queued with wasQueued | ⟨joiner, -, foundJoiner, -⟩
      · exact wasQueued.1
      · exact absurd owns (unowned found foundJoiner other owner thread differ
          hasOther)
    · rw [ProcessView.refresh_threads, ProcessView.exitThread_threads] at owns
      obtain ⟨old, foundOld, rfl⟩ := Option.map_eq_some_iff.mp owns
      rcases queued with ⟨wasQueued, notTarget⟩ | ⟨joiner, notTarget, foundJoiner, joins⟩
      · have differ : tid ≠ target := notTarget
        rw [if_neg differ]
        split_ifs
        · rfl
        · exact held.ready found user foundOld wasQueued
      · obtain rfl := Option.mem_unique foundOld foundJoiner
        rw [if_neg notTarget, if_pos joins]
  | reapThread current found owns exited =>
    have running := (sound.current current found).2.1
    refine held.replace found (fun _ => rfl) (fun _ => rfl) rfl (unowned found owns)
      (fun tid queued _ => queued) (fun user queued => ?_)
      fun blocked => by cases running.symm.trans blocked
    cases exited.symm.trans (held.ready found user owns queued)
  | wake _ found owns =>
    exact held.replace found (fun _ => rfl) (fun _ => rfl) rfl (unowned found owns)
      (fun tid queued differ => queued.resolve_left differ) (fun _ _ => rfl)
      ProcessView.not_ready_of_refresh
  | finish =>
    refine held.clear (fun _ => rfl) rfl (fun tid owned => ?_) fun blocked => ?_
    · simpa using owned
    · rw [ProcessView.ended_state] at blocked
      split_ifs at blocked
  | bridge =>
    refine held.clear (fun _ => rfl) rfl (fun tid owned => ?_) nofun
    simpa using owned
  | collect found isOver =>
    refine held.giveUp sound found ?_ (fun _ => rfl) rfl nofun
    rcases isOver with exited | zombie
    · rw [exited]
      rfl
    · rw [zombie]
      rfl
  | reap found isOver =>
    refine held.giveUp sound found ?_ (fun _ => rfl) rfl nofun
    rw [isOver]
    rfl
  | dropWait found hasMain =>
    refine held.replace found (fun _ => rfl) (fun _ => rfl) rfl (unowned found hasMain)
      (fun tid queued _ => queued) (fun user queued => ?_) fun blocked main foundAfter => ?_
    · have ready := held.ready found user hasMain queued
      exact ready
    · have notReady := held.blocked found blocked hasMain
      have same := ProcessView.setThread_self.symm.trans foundAfter
      rw [← Option.some.inj same]
      exact notReady
  | wait _ _ hasMain | sleep _ _ _ hasMain | stop _ _ hasMain =>
    exact held.clearMain hasMain (fun _ => rfl) rfl rfl rfl nofun
  | notify _ found hasMain | awaken found hasMain | resumeJob found hasMain =>
    exact held.mainReady sound found hasMain (fun _ => rfl) (fun _ => rfl) rfl rfl rfl nofun
  | handle _ _ _ found hasMain =>
    exact held.mainReady sound found hasMain (fun _ => rfl) (fun _ => rfl) rfl rfl rfl
      ProcessView.not_ready_of_refresh
  | remove =>
    refine ⟨fun {other owner tid thread} hasOther user owns queued => ?_,
      fun {other owner main} hasOther isBlocked hasMain => ?_⟩
    · dsimp only at hasOther
      split_ifs at hasOther
      exact held.ready hasOther user owns queued.1
    · dsimp only at hasOther
      split_ifs at hasOther
      exact held.blocked hasOther isBlocked hasMain
  | resume _ _ found hasMain user blocked =>
    refine held.replace found (fun _ => rfl) (fun _ => rfl) rfl (unowned found hasMain)
      (fun tid queued _ => queued) (fun _ queued => ?_) nofun
    exact absurd (held.ready found user hasMain queued) (held.blocked found blocked hasMain)
  | dispatch _ _ found owns =>
    exact held.replace found (fun _ => rfl) (fun _ => rfl) rfl (unowned found owns)
      (fun tid queued _ => queued.1) (fun _ queued => absurd rfl queued.2)
      ProcessView.not_ready_of_refresh
  | kernelThread _ found kernel owns =>
    refine held.replace found (fun _ => rfl) (fun _ => rfl) rfl (unowned found owns)
      (fun tid queued _ => queued) (fun user => ?_) ProcessView.not_ready_of_refresh
    cases kernel.symm.trans user

end QueueReady

end Lifecycle

/-! ## One preemption -/

namespace ProcessTable

variable {table after : ProcessTable}

/-- A thread is ready and has a saved context. -/
def Runnable (table : ProcessTable) (tid : Tid) (context : UserResumeContext) : Prop :=
  ∃ thread, table.thread tid = some thread ∧ thread.state = .ready ∧
    thread.resumeContext = some context

/-- One thread of one process changes. -/
theorem thread_putProcess
    (owner : table.getByTid target = some process)
    (samePid : changed.pid = process.pid)
    (threads : ∀ tid, changed.threads.get tid =
      if tid = target then (process.threads.get tid).map change else process.threads.get tid) :
    (table.putProcess changed).thread tid =
      if tid = target then (table.thread tid).map change else table.thread tid := by
  have found := (getByTid_spec owner).1
  have sameTid : (changed.threads.get tid).isSome = (process.threads.get tid).isSome := by
    rw [threads]
    split_ifs
    · exact Option.isSome_map
    · rfl
  unfold ProcessTable.thread
  rw [getByTid_putProcess_map found samePid sameTid]
  cases other : table.getByTid tid with
  | none =>
    split_ifs <;> rfl
  | some holder =>
    simp only [Option.bind_eq_bind, Option.map_some, Option.bind_some]
    by_cases isOwner : holder.pid = changed.pid
    · have same : holder = process := by
        have inTable := (getByTid_spec other).1
        rw [isOwner, samePid, found] at inTable
        exact (Option.some.inj inTable).symm
      rw [if_pos isOwner, threads, same]
    · have differ : tid ≠ target := by
        rintro rfl
        rw [owner] at other
        exact isOwner (Option.some.inj other ▸ samePid.symm)
      rw [if_neg isOwner, if_neg differ]

/-- A thread that is found belongs to the process that it was looked up in. -/
theorem thread_eq_some (found : table.thread tid = some owned) :
    ∃ process, table.getByTid tid = some process ∧ process.threads.get tid = some owned :=
  Option.bind_eq_some_iff.mp found

theorem thread_of_owner (owner : table.getByTid tid = some process) :
    table.thread tid = process.threads.get tid := by
  rw [ProcessTable.thread, owner]
  rfl

/-- What the scheduler does when it finds a thread: it takes the first one that can run. -/
theorem scheduleLoop_some (scheduled : scheduleLoop now fuel table = (some resume, after)) :
    ∃ front process, table.readyQueue.items = front ++ resume.tid :: after.readyQueue.items ∧
      (∀ tid ∈ front, ∀ context, ¬table.Runnable tid context) ∧
      table.Runnable resume.tid resume.resumeContext ∧
      table.getByTid resume.tid = some process ∧ resume.pid = process.pid ∧
      ∀ tid, after.getByTid tid =
        (table.putProcess (enteredThread process now resume.tid)).getByTid tid := by
  induction fuel generalizing table with
  | zero => cases scheduled
  | succ fuel ih =>
    cases popped : table.readyQueue.pop with
    | none =>
      rw [scheduleLoop, popped] at scheduled
      cases scheduled
    | some entry =>
      obtain ⟨next, rest⟩ := entry
      have items := UniqueQueue.pop_eq_some_iff.mp popped
      rcases scheduleLoop_succ now fuel popped with
        ⟨process, owned, context, owner, owns, ready, saved, result⟩ |
          ⟨unready, result⟩
      · rw [result] at scheduled
        cases scheduled
        refine ⟨[], process, items, by simp, ⟨owned, ?_, ready, saved⟩, owner, rfl, fun _ => rfl⟩
        rw [thread_of_owner owner, owns]
      · rw [result] at scheduled
        obtain ⟨front, process, isFirst, skipped, runnable, owner, samePid, owners⟩ :=
          ih scheduled
        refine ⟨next :: front, process, ?_, ?_, runnable, owner, samePid, owners⟩
        · rw [items]
          exact congrArg (next :: ·) isFirst
        · intro tid listed context canRun
          rcases List.mem_cons.mp listed with rfl | inFront
          · obtain ⟨thread, found, ready, saved⟩ := canRun
            obtain ⟨process, owner, owns⟩ := thread_eq_some found
            rw [unready process thread owner owns ready] at saved
            cases saved
          · exact skipped tid inFront context canRun

/-- What a preemption does: the thread on the processor joins the end of the queue, and
the first thread of that queue that can run takes its place. -/
structure Preempted
    (table : ProcessTable) (tid : Tid) (context : UserResumeContext)
    (resume : ScheduledUserResume) (after : ProcessTable) :
    Prop where
  /-- The threads that are passed over cannot run, and the others wait in their order. -/
  first : ∃ front, table.readyQueue.items ++ [tid] =
      front ++ resume.tid :: after.readyQueue.items ∧
    ∀ skipped ∈ front, ∀ saved, ¬table.Runnable skipped saved
  /-- The context was that of the chosen thread. -/
  chosen : resume.tid = tid ∧ resume.resumeContext = context ∨
    resume.tid ≠ tid ∧ table.Runnable resume.tid resume.resumeContext
  /-- It belongs to its process and runs without a saved context. -/
  entered : ∃ process thread, after.getByTid resume.tid = some process ∧
    process.pid = resume.pid ∧ process.threads.get resume.tid = some thread ∧
    thread.state = .running ∧ thread.resumeContext = none
  /-- The thread that was on the processor is ready and the last one in the queue. -/
  parked : resume.tid ≠ tid → after.Runnable tid context ∧
    after.readyQueue.items.getLast? = some tid
  /-- All other threads are as they were. -/
  others : ∀ other, other ≠ tid → other ≠ resume.tid → after.thread other = table.thread other

/-- The process after one of its threads has yielded. -/
def yieldedThread
    (process : Process) (now : UInt64) (tid : Tid) (context : UserResumeContext) : Process :=
  ((process.modifyThread tid
    (fun thread => { thread.stopRun now with resumeContext := some context, state := .ready })
    (@Thread.stopRun_tid now)).setSleepingUntil none).refreshStateFromThreads

/-- A running thread yields: it is ready with its context and queued. -/
theorem markThreadYielded_thread
    (found : table.thread tid = some owned)
    (running : owned.state = .running) :
    ∃ yielded, table.markThreadYielded now tid context = some yielded ∧
      yielded.readyQueue = table.readyQueue.push tid ∧ yielded.Runnable tid context ∧
      ∀ other, other ≠ tid → yielded.thread other = table.thread other := by
  obtain ⟨process, owner, owns⟩ := thread_eq_some found
  have result : table.markThreadYielded now tid context =
      some (((table.putProcess (yieldedThread process now tid context)).enqueueReady tid).record
        (.saved tid tid context)) := by
    simp [markThreadYielded, owner, owns, running, yieldedThread]
  have threads : ∀ other, (table.putProcess (yieldedThread process now tid context)).thread other =
      if other = tid then (table.thread other).map fun thread =>
        { thread.stopRun now with resumeContext := some context, state := .ready }
      else table.thread other := fun other =>
    thread_putProcess owner rfl fun _ => ThreadStore.get_modify _ _ _ _
  have parked := threads tid
  rw [if_pos rfl, found, Option.map_some] at parked
  exact ⟨_, result, rfl, ⟨_, parked, rfl, rfl⟩, fun other differ =>
    (threads other).trans (if_neg differ)⟩

/-- A thread enters the processor. -/
theorem thread_enteredThread (owner : table.getByTid target = some process) :
    (table.putProcess (enteredThread process now target)).thread tid =
      if tid = target then (table.thread tid).map fun thread =>
        { thread.startRun now with resumeContext := none, state := .running }
      else table.thread tid :=
  thread_putProcess owner rfl fun _ => ThreadStore.get_modify _ _ _ _

/-- Whether other threads can run depends on the threads themselves. -/
theorem Runnable.congr
    (runnable : table.Runnable tid context)
    (same : after.thread tid = table.thread tid) :
    after.Runnable tid context := by
  obtain ⟨owned, found, ready, saved⟩ := runnable
  exact ⟨owned, same.trans found, ready, saved⟩

/-- A running thread that is not queued is kept, with nothing changed, or exchanged. -/
theorem preemptRunningThread_spec
    (found : table.thread tid = some owned)
    (running : owned.state = .running)
    (unqueued : tid ∉ table.readyQueue)
    (now : UInt64) (context : UserResumeContext) :
    table.preemptRunningThread now tid context = (none, table) ∨
      ∃ resume after, table.preemptRunningThread now tid context = (some resume, after) ∧
        table.Preempted tid context resume after := by
  unfold preemptRunningThread
  split_ifs
  · exact .inl rfl
  obtain ⟨yielded, result, queue, canRun, others⟩ :=
    @markThreadYielded_thread table tid owned now context found running
  simp only [result]
  have waits : tid ∉ table.readyQueue.items := unqueued
  have items : yielded.readyQueue.items = table.readyQueue.items ++ [tid] := by
    rw [queue, UniqueQueue.push, dif_neg waits]
  cases scheduled : yielded.scheduleNextReadyUser now with
  | mk chosen after =>
  cases chosen with
  | none =>
    -- The thread that yielded can run, so the scheduler finds something.
    exfalso
    obtain ⟨thread, isThread, ready, saved⟩ := canRun
    obtain ⟨process, owner, owns⟩ := thread_eq_some isThread
    have queued : tid ∈ yielded.readyQueue := by
      rw [queue, UniqueQueue.mem_push]
      exact .inl rfl
    have unsaved := scheduleLoop_none (Nat.le_refl _) scheduled queued owner owns ready
    cases saved.symm.trans unsaved
  | some resume =>
    refine .inr ⟨resume, after, rfl, ?_⟩
    obtain ⟨front, process, isFirst, skipped, runnable, owner, samePid, owners⟩ :=
      scheduleLoop_some scheduled
    have threads : ∀ other, after.thread other = if other = resume.tid then
        (yielded.thread other).map fun thread =>
          { thread.startRun now with resumeContext := none, state := .running }
        else yielded.thread other := by
      intro other
      rw [← thread_enteredThread owner]
      exact congrArg (Option.bind · _) (owners other)
    rw [items] at isFirst
    constructor
    case first =>
      refine ⟨front, isFirst, fun other inFront saved canRun => ?_⟩
      have differ : other ≠ tid := by
        rintro rfl
        have earlier := congrArg List.dropLast isFirst
        rw [List.dropLast_concat, List.dropLast_append_of_ne_nil (List.cons_ne_nil _ _)]
          at earlier
        exact waits (earlier ▸ List.mem_append_left _ inFront)
      exact skipped other inFront saved (canRun.congr (others other differ))
    case chosen =>
      by_cases same : resume.tid = tid
      · refine .inl ⟨same, ?_⟩
        obtain ⟨left, foundLeft, -, savedLeft⟩ := same ▸ runnable
        obtain ⟨right, foundRight, -, savedRight⟩ := canRun
        obtain rfl := Option.mem_unique foundLeft foundRight
        exact Option.mem_unique savedLeft savedRight
      · exact .inr ⟨same, runnable.congr (others _ same).symm⟩
    case entered =>
      obtain ⟨thread, isThread, -⟩ := runnable
      rw [thread_of_owner owner] at isThread
      have entered : (enteredThread process now resume.tid).threads.get resume.tid =
          some { thread.startRun now with resumeContext := none, state := .running } := by
        refine (ThreadStore.get_modify _ _ _ _).trans ?_
        rw [if_pos rfl, isThread]
        rfl
      refine ⟨enteredThread process now resume.tid, _, ?_, samePid.symm, entered, rfl, rfl⟩
      rw [owners]
      refine getByTid_putProcess owner rfl ?_
      rw [entered]
      rfl
    case parked =>
      intro differ
      refine ⟨canRun.congr ((threads tid).trans (if_neg (Ne.symm differ))), ?_⟩
      have last := congrArg List.getLast? isFirst
      rw [List.getLast?_concat, List.getLast?_append_cons, List.getLast?_cons] at last
      cases rest : after.readyQueue.items.getLast? with
      | none =>
        rw [rest] at last
        exact absurd (Option.some.inj last).symm differ
      | some final =>
        rw [rest] at last
        exact last.symm
    case others =>
      intro other notTid notResumed
      rw [threads, if_neg notResumed, others other notTid]

end ProcessTable

/-! ## Runs -/

open Lifecycle

namespace Kernel

variable {kernel : Kernel} {images : List UserlandImage} {frames : List UInt64}

/-- If thread identifiers last, a preemption of a running thread of a user process changes
nothing or exchanges the thread for the first one that can run. -/
theorem preemption_exchanges
    (reachable : Transition.ReachableWhere step (fun kernel _ => kernel.table.tidsLeft)
      (boot images frames) kernel)
    {process : Process} {owned : Thread}
    (owner : kernel.table.getByTid tid = some process)
    (user : process.kind = .userProcess)
    (found : process.threads.get tid = some owned)
    (running : owned.state = .running)
    (now : UInt64) (context : UserResumeContext) :
    kernel.table.preemptRunningThread now tid context = (none, kernel.table) ∨
      ∃ resume after, kernel.table.preemptRunningThread now tid context = (some resume, after) ∧
        kernel.table.Preempted tid context resume after := by
  have invariant : ∃ cpu, kernel.InOrder cpu ∧
      QueueReady (kernel.viewAt cpu) := by
    refine view_invariant (fun _ _ left => left) (fun view atBoot => ?_)
      (fun _ _ _ _ _ _ _ _ sound held _ moved => held.preserved sound moved) reachable
    refine ⟨fun found user => ?_, fun {other owner main} found isBlocked hasMain => ?_⟩
    · cases (atBoot.kernelTask found).2.kind.symm.trans user
    · have low := ProcessView.rank_le_of_summary hasMain
      rw [← (atBoot.kernelTask found).2.summed, isBlocked] at low
      intro ready
      rw [ready] at low
      exact absurd low (by decide)
  obtain ⟨cpu, -, held⟩ := invariant
  have inTable := (ProcessTable.getByTid_spec owner).1
  refine ProcessTable.preemptRunningThread_spec ?_ running (fun queued => ?_) now context
  · rw [ProcessTable.thread_of_owner owner, found]
  · have ready := held.ready (ProcessTable.view_found inTable) user (Process.view_thread found)
      queued
    cases running.symm.trans ready

namespace Sample

/-- Where a timer interrupt finds a thread. -/
def interrupted : UserResumeContext := .fromSyscallFrame (frame 0 0 0 0 0)

def sharingProcess : Process := (sharingKernel.table.getByTid 4).get (by decide +kernel)
def sharingThread : Thread := (sharingProcess.threads.get 4).get (by decide +kernel)

end Sample

/-- The second thread takes the place of the first, which waits. -/
theorem preemption_exchanges_twoThreads :
    ∃ resume after, Sample.sharingKernel.table.preemptRunningThread 0 4 Sample.interrupted =
        (some resume, after) ∧ resume.tid = 5 ∧ after.readyQueue.items = [4] ∧
      Sample.sharingKernel.table.Preempted 4 Sample.interrupted resume after := by
  have performed : Transition.runWhere step Sample.withTids Sample.machine Sample.twoThreads =
      some Sample.sharingKernel := (Option.some_get _).symm
  have reachable := (Transition.reachableWhere_of_runWhere performed).mono
    fun _ _ => of_decide_eq_true
  have owner : Sample.sharingKernel.table.getByTid 4 = some Sample.sharingProcess :=
    (Option.some_get _).symm
  have found : Sample.sharingProcess.threads.get 4 = some Sample.sharingThread :=
    (Option.some_get _).symm
  rcases preemption_exchanges reachable owner (by decide +kernel) found (by decide +kernel) 0
    Sample.interrupted with kept | ⟨resume, after, exchanged, preempted⟩
  · have isSome : (Sample.sharingKernel.table.preemptRunningThread 0 4
        Sample.interrupted).1.isSome = true := by decide +kernel
    rw [kept] at isSome
    cases isSome
  · have result : (Sample.sharingKernel.table.preemptRunningThread 0 4
          Sample.interrupted).1.map ProcessTable.ScheduledUserResume.tid = some 5 ∧
        (Sample.sharingKernel.table.preemptRunningThread 0 4
          Sample.interrupted).2.readyQueue.items = [4] := by decide +kernel
    rw [exchanged] at result
    exact ⟨resume, after, exchanged, Option.some.inj result.1, result.2, preempted⟩

/-! ## Running out of thread identifiers -/

/-- The kernel with another thread identifier to be drawn next. -/
def withNextTid (kernel : Kernel) (tid : Tid) : Kernel :=
  kernel.withTable { kernel.table with nextTid := tid }

/-- Whether a call asks for a thread that the process has no room for. -/
def refusesThread (kernel : Kernel) (frame : SyscallFrame) (env : UserEnv) : Bool :=
  decide (kernel.mode = .user ∧ Syscall.decode frame.number = some .threadCreate) &&
  match kernel.checkThread env frame.arg0 frame.arg1 frame.arg2, kernel.currentProcess with
  | .ok (stackTop, _), some process =>
    decide (process.kind = .userProcess ∧
      process.threads.values.length ≥ maxThreadsPerProcess) &&
    process.threads.stackRangeAvailable frame.arg1 stackTop
  | _, _ => false

/-- Such a call uses up a thread identifier and changes nothing else. -/
theorem step_of_refusesThread (refuses : kernel.refusesThread frame env = true) :
    kernel.step (.syscall frame env) =
      some (kernel.withNextTid (Word.saturatingSucc kernel.table.nextTid)) := by
  unfold refusesThread at refuses
  simp only [Bool.and_eq_true, decide_eq_true_eq] at refuses
  obtain ⟨⟨mode, decoded⟩, refuses⟩ := refuses
  split at refuses
  next stackTop initialRsp process checked current =>
    simp only [Bool.and_eq_true, decide_eq_true_eq] at refuses
    obtain ⟨⟨user, full⟩, available⟩ := refuses
    obtain ⟨pid, isPid, found⟩ := Option.bind_eq_some_iff.mp current
    have refused : ∀ table : ProcessTable, ∀ thread, table.admitThread process thread = none := by
      intro table thread
      simp [ProcessTable.admitThread, ThreadStore.insert, full]
    have created : kernel.table.createUserThread pid frame.arg0 frame.arg1 stackTop initialRsp
        frame.arg3 = (none, kernel.table.reserveTid.2) := by
      simp [ProcessTable.createUserThread, found, user, available, refused]
    have handled : kernel.handle env frame .threadCreate =
        some (.error .invalidArgument, kernel.withTable kernel.table.reserveTid.2) := by
      simp [handle, createUserThread, checked, isPid, created, tidAnswer]
    have dispatched : kernel.syscallInterruptDispatch env frame =
        some (SyscallError.invalidArgument.code, kernel.withTable kernel.table.reserveTid.2) := by
      simp [syscallInterruptDispatch, decoded, handled, Answer.register]
    have returns : SyscallError.invalidArgument.code ≠ syscallReturnToKernel := by decide
    simp only [step, mode, systemCall, dispatched, if_neg returns]
    rfl
  next => cases refuses

/-- A process without room for a thread uses up identifiers as long as it likes. -/
theorem reachable_withNextTid
    (refuses : kernel.refusesThread frame env = true)
    (count : Nat)
    (fits : kernel.table.nextTid.toNat + count < 2 ^ 32) :
    Transition.Reachable step kernel
      (kernel.withNextTid (UInt32.ofNat (kernel.table.nextTid.toNat + count))) := by
  induction count with
  | zero =>
    rw [Nat.add_zero, UInt32.ofNat_toNat]
    exact .start
  | succ count ih =>
    have earlier := ih (by omega)
    have refusesLater : (kernel.withNextTid (UInt32.ofNat
        (kernel.table.nextTid.toNat + count))).refusesThread frame env = true := refuses
    have isNext : Word.saturatingSucc (UInt32.ofNat (kernel.table.nextTid.toNat + count)) =
        UInt32.ofNat (kernel.table.nextTid.toNat + (count + 1)) := by
      apply UInt32.toNat_inj.mp
      have size : UInt32.size = 2 ^ 32 := rfl
      rw [Word.toNat_saturatingSucc, UInt32.toNat_ofNat_of_lt' (by omega),
        UInt32.toNat_ofNat_of_lt' (by omega)]
      omega
    have stepped := step_of_refusesThread refusesLater
    refine .next earlier trivial (stepped.trans ?_)
    rw [← isNext]
    rfl

namespace Sample

/-- The first program starts another one, which sleeps, and then as many threads as a
process may have. -/
def fillThreads : List Action :=
  loadInit ++ [execShellBg, call 17 0 0, .input none, load, call 19 40 0,
    .input none, .pending .loadFailed, .ready] ++
  (List.range 15).map fun index =>
    .syscall (frame 29 0x1000000 (0x1010000 + 0x1000 * UInt64.ofNat index) 1024 0) env

/-- It asks for one more. -/
def oneMore : SyscallFrame := frame 29 0x1000000 0x1020000 1024 0

/-- After the identifiers have run out it starts two more programs and sleeps; both get
the last identifier for their main threads and sleep too.  The first program wakes with
the first of them and yields to it; while that one runs, the second wakes, and after it
the program that was started in the beginning. -/
def shareIdentifier : List Action :=
  [execShellBg, execShellBg, call 19 10 0,
    .input none, load, call 19 10 0, .input none, load, call 19 30 0,
    .kernelTick, .input none, .pending .loadFailed, .ready, call 17 0 0,
    .timer interrupted, .timer interrupted, .timer interrupted]

def fullKernel : Kernel := (Transition.run step machine fillThreads).get (by decide +kernel)

def sharedKernel : Kernel :=
  (Transition.run step (fullKernel.withNextTid 0xffffffff) shareIdentifier).get
    (by decide +kernel)

def sharedProcess : Process := (sharedKernel.table.getByTid 0xffffffff).get (by decide +kernel)
def sharedThread : Thread := (sharedProcess.threads.get 0xffffffff).get (by decide +kernel)

/-- The machine comes to that state. -/
theorem reachable_sharedKernel : Transition.Reachable step machine sharedKernel := by
  have filled : Transition.Reachable step machine fullKernel :=
    Transition.reachable_of_run (Option.some_get _).symm
  have refuses : fullKernel.refusesThread oneMore env = true := by decide +kernel
  have drawn : fullKernel.table.nextTid = 21 := by decide +kernel
  have used := reachable_withNextTid refuses (2 ^ 32 - 22) (by rw [drawn]; decide)
  have last : UInt32.ofNat (fullKernel.table.nextTid.toNat + (2 ^ 32 - 22)) = 0xffffffff := by
    rw [drawn]
    rfl
  rw [last] at used
  have shared : Transition.Reachable step (fullKernel.withNextTid 0xffffffff) sharedKernel :=
    Transition.reachable_of_run (Option.some_get _).symm
  exact (filled.trans used).trans shared

end Sample

/-- A thread that is preempted stays ahead of one that was queued before it: another
thread with its identifier was queued already. -/
theorem preempted_thread_overtakes :
    ∃ kernel, Transition.Reachable step Sample.machine kernel ∧
      ∃ process owned, kernel.table.getByTid 0xffffffff = some process ∧
        process.kind = .userProcess ∧ process.threads.get 0xffffffff = some owned ∧
        owned.state = .running ∧
        kernel.table.preemptRunningThread kernel.ticks 0xffffffff Sample.interrupted ≠
          (none, kernel.table) ∧
        ∀ resume after,
          kernel.table.preemptRunningThread kernel.ticks 0xffffffff Sample.interrupted =
            (some resume, after) →
          ¬kernel.table.Preempted 0xffffffff Sample.interrupted resume after := by
  refine ⟨Sample.sharedKernel, Sample.reachable_sharedKernel, Sample.sharedProcess,
    Sample.sharedThread, (Option.some_get _).symm, by decide +kernel, (Option.some_get _).symm,
    by decide +kernel, fun kept => ?_, fun resume after exchanged preempted => ?_⟩
  · have isSome : (Sample.sharedKernel.table.preemptRunningThread Sample.sharedKernel.ticks
        0xffffffff Sample.interrupted).1.isSome = true := by decide +kernel
    rw [kept] at isSome
    cases isSome
  · have result : (Sample.sharedKernel.table.preemptRunningThread Sample.sharedKernel.ticks
          0xffffffff Sample.interrupted).1.map ProcessTable.ScheduledUserResume.tid = some 4 ∧
        (Sample.sharedKernel.table.preemptRunningThread Sample.sharedKernel.ticks
          0xffffffff Sample.interrupted).2.readyQueue.items = [0xffffffff, 5] := by
      decide +kernel
    rw [exchanged] at result
    have isFirst : resume.tid = 4 := Option.some.inj result.1
    have differ : resume.tid ≠ 0xffffffff := by
      rw [isFirst]
      decide
    have last := (preempted.parked differ).2
    rw [result.2] at last
    exact absurd last (by decide)

end Kernel

end Vantara
