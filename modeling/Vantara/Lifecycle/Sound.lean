import Vantara.Lifecycle.Moves

/-!
# Well-formed views

Every move keeps the bookkeeping in order: thread identifiers have one owner and
have been drawn, an ended process has nothing left to run, and the thread on the
processor is a running thread of a live user process.
-/

namespace Vantara
namespace Lifecycle

namespace ProcessView

variable {process : ProcessView}

theorem setThread_self : (process.setThread tid thread).threads tid = some thread :=
  if_pos rfl

theorem summary_terminal : process.summary.terminal = false := by
  unfold summary
  split_ifs <;> rfl

theorem refresh_state_of_live (live : process.state.terminal = false) :
    process.refresh.state = process.summary := by
  simp [refresh, live]

theorem refresh_running
    (live : process.state.terminal = false)
    (found : process.threads tid = some thread)
    (running : thread.state = .running) :
    process.refresh.state = .running := by
  rw [refresh_state_of_live live, summary, if_pos ⟨tid, thread, found, running⟩]

@[simp] theorem refresh_terminal : process.refresh.state.terminal = process.state.terminal := by
  unfold refresh
  split_ifs with terminal
  · rfl
  · simp [summary_terminal, Bool.eq_false_iff.mpr terminal]

theorem mem_tids : tid ∈ process.tids ↔ (process.threads tid).isSome = true := Iff.rfl

end ProcessView

/-- What parking leaves behind: a thread off the processor with a saved context. -/
theorem Parked.spec (parked : Parked thread parking after) :
    (after.state = .ready ∨ after.state = .blocked) ∧ ∃ context, after.context = some context := by
  cases parked <;> simp

/-- The bookkeeping is in order. -/
structure Sound (view : View) : Prop where
  mainPresent : view.process pid = some process →
    (process.threads process.mainTid).isSome = true
  oneOwner : view.process pid = some process → view.process other = some otherProcess →
    (process.threads tid).isSome = true → (otherProcess.threads tid).isSome = true → pid = other
  tidDrawn : view.process pid = some process → (process.threads tid).isSome = true →
    tid.toNat < view.tidBound
  queueDrawn : tid ∈ view.queue → tid.toNat < view.tidBound
  nothingLeft : view.process pid = some process → process.state.terminal = true →
    process.threads tid = some thread →
    thread.state.terminal = true ∧ thread.context = none ∧ tid ∉ view.queue
  kernelLives : view.process pid = some process → process.kind = .kernelTask →
    process.state.terminal = false
  kernelContext : view.process pid = some process → process.kind = .kernelTask →
    process.threads tid = some thread → thread.context = none
  onCpu : view.cpu = some (pid, tid) →
    ∃ process thread, view.process pid = some process ∧ process.kind = .userProcess ∧
      process.state = .running ∧ process.threads tid = some thread ∧
      thread.state = .running
  pidDrawn : view.process pid = some process → pid.toNat < view.pidBound
  unbornDrawn : pid ∈ view.unborn → pid.toNat < view.pidBound ∧ view.process pid = none

namespace Sound

/-- The thread on the processor, once its process is looked up. -/
theorem current (sound : Sound view)
    (current : view.cpu = some (pid, tid))
    (found : view.process pid = some process) :
    process.kind = .userProcess ∧ process.state = .running ∧
      process.state.terminal = false ∧
      ∃ thread, process.threads tid = some thread ∧ thread.state = .running := by
  obtain ⟨process', thread, found', user, running, rest⟩ := sound.onCpu current
  obtain rfl : process' = process := Option.mem_unique found' found
  exact ⟨user, running, by rw [running]; rfl, thread, rest⟩

section

variable (sound : Sound view) (found : view.process pid = some process)
include sound found

/-- A process with a thread that has not ended has not ended itself. -/
theorem live_of_thread
    (owns : process.threads tid = some thread)
    (live : thread.state.terminal = false) :
    process.state.terminal = false := by
  by_contra terminal
  have ended := sound.nothingLeft found (by simpa using terminal) owns
  simp [live] at ended

/-- One process changes; its threads are the ones it had, or freshly drawn. -/
theorem change
    (sameMain : after.mainTid = process.mainTid)
    (keeps : ∀ tid, (process.threads tid).isSome = true → (after.threads tid).isSome = true)
    (drawn : ∀ tid, (after.threads tid).isSome = true →
      (process.threads tid).isSome = true ∨ view.tidBound ≤ tid.toNat ∧ tid.toNat < bound)
    (later : view.tidBound ≤ bound)
    (queued : ∀ tid ∈ queue, tid ∈ view.queue ∨ (after.threads tid).isSome = true)
    (ended : after.state.terminal = true → after.kind = .userProcess ∧
      ∀ tid thread, after.threads tid = some thread →
        thread.state.terminal = true ∧ thread.context = none ∧ tid ∉ queue)
    (kernel : after.kind = .kernelTask → ∀ tid thread, after.threads tid = some thread →
      thread.context = none)
    (current : ∀ other tid, cpu = some (other, tid) →
      other ≠ pid ∧ view.cpu = some (other, tid) ∨
      other = pid ∧ after.kind = .userProcess ∧ after.state = .running ∧
        ∃ thread, after.threads tid = some thread ∧ thread.state = .running) :
    Sound
      { view.setProcess pid after with
        queue := queue
        tidBound := bound
        trace := trace
        cpu := cpu } := by
  have owner : ∀ other otherProcess tid, other ≠ pid → view.process other = some otherProcess →
      (otherProcess.threads tid).isSome = true → (after.threads tid).isSome = true → False := by
    intro other otherProcess tid differ otherFound otherOwns owns
    rcases drawn tid owns with old | new
    · exact differ (sound.oneOwner otherFound found otherOwns old)
    · have := sound.tidDrawn otherFound otherOwns
      omega
  constructor
  case mainPresent =>
    intro other otherProcess
    by_cases same : other = pid
    · simp only [View.setProcess_process, same, if_true, Option.some.injEq]
      rintro rfl
      exact sameMain ▸ keeps _ (sound.mainPresent found)
    · simpa [same] using fun otherFound => sound.mainPresent otherFound
  case oneOwner =>
    intro left leftProcess right rightProcess tid
    simp only [View.setProcess_process]
    split_ifs with isLeft isRight isRight
    · intros
      exact isLeft.trans isRight.symm
    · rintro ⟨⟩ rightFound leftOwns rightOwns
      exact (owner _ _ _ isRight rightFound rightOwns leftOwns).elim
    · rintro leftFound ⟨⟩ leftOwns rightOwns
      exact (owner _ _ _ isLeft leftFound leftOwns rightOwns).elim
    · exact sound.oneOwner
  case tidDrawn =>
    intro other otherProcess tid
    simp only [View.setProcess_process]
    split_ifs with same
    · rintro ⟨⟩ owns
      rcases drawn tid owns with old | new
      · exact Nat.lt_of_lt_of_le (sound.tidDrawn found old) later
      · exact new.2
    · intro otherFound owns
      exact Nat.lt_of_lt_of_le (sound.tidDrawn otherFound owns) later
  case queueDrawn =>
    intro tid waits
    rcases queued tid waits with old | owns
    · exact Nat.lt_of_lt_of_le (sound.queueDrawn old) later
    · rcases drawn tid owns with old | new
      · exact Nat.lt_of_lt_of_le (sound.tidDrawn found old) later
      · exact new.2
  case nothingLeft =>
    intro other otherProcess tid thread
    simp only [View.setProcess_process]
    split_ifs with same
    · rintro ⟨⟩ terminal owns
      exact (ended terminal).2 tid thread owns
    · intro otherFound terminal owns
      have left := sound.nothingLeft otherFound terminal owns
      refine ⟨left.1, left.2.1, fun waits => ?_⟩
      rcases queued tid waits with old | has
      · exact left.2.2 old
      · exact owner _ _ _ same otherFound (by simp [owns]) has
  case kernelLives =>
    intro other otherProcess
    simp only [View.setProcess_process]
    split_ifs with same
    · rintro ⟨⟩ isKernel
      by_contra terminal
      have := (ended (by simpa using terminal)).1
      simp [isKernel] at this
    · exact sound.kernelLives
  case kernelContext =>
    intro other otherProcess tid thread
    simp only [View.setProcess_process]
    split_ifs with same
    · rintro ⟨⟩ isKernel owns
      exact kernel isKernel tid thread owns
    · exact sound.kernelContext
  case onCpu =>
    intro other tid isCurrent
    rcases current other tid isCurrent with ⟨differ, old⟩ | ⟨rfl, user, running, thread, rest⟩
    · simpa [differ] using sound.onCpu old
    · exact ⟨after, thread, by simp, user, running, rest⟩
  case pidDrawn =>
    intro other otherProcess
    simp only [View.setProcess_process]
    split_ifs with same
    · intro _
      subst same
      exact sound.pidDrawn found
    · exact sound.pidDrawn
  case unbornDrawn =>
    intro other pending
    have old := sound.unbornDrawn pending
    have differ : other ≠ pid := by
      rintro rfl
      simp [found] at old
    simpa [differ] using old

/-- A process that is in no other state than running is not on the processor. -/
theorem elsewhere (notRunning : process.state ≠ .running) : view.cpu ≠ some (pid, tid) := by
  intro isCurrent
  exact notRunning (sound.current isCurrent found).2.1

/-- A process that is not on the processor changes and does not end. -/
theorem change_elsewhere
    (elsewhere : ∀ tid, view.cpu ≠ some (pid, tid))
    (sameMain : after.mainTid = process.mainTid)
    (sameKind : after.kind = process.kind)
    (live : after.state.terminal = false)
    (keeps : ∀ tid, (after.threads tid).isSome = (process.threads tid).isSome)
    (kernel : process.kind = .kernelTask → ∀ tid thread, after.threads tid = some thread →
      thread.context = none)
    (queued : ∀ tid ∈ queue, tid ∈ view.queue ∨ (process.threads tid).isSome = true) :
    Sound { view.setProcess pid after with queue := queue, trace := trace } := by
  refine sound.change found sameMain (fun tid owned => (keeps tid).trans owned)
    (fun tid owned => .inl ((keeps tid).symm.trans owned)) (Nat.le_refl _) ?_ ?_ ?_ ?_
  · intro tid waits
    rw [keeps tid]
    exact queued tid waits
  · simp [live]
  · simpa only [sameKind] using kernel
  · intro other tid isCurrent
    refine .inl ⟨?_, isCurrent⟩
    rintro rfl
    exact elsewhere tid isCurrent

end

/-- The process on the processor changes and does not end. -/
theorem change_current (sound : Sound view)
    (isCurrent : view.cpu = some (pid, caller))
    (found : view.process pid = some process)
    (sameMain : after.mainTid = process.mainTid)
    (sameKind : after.kind = process.kind)
    (live : after.state.terminal = false)
    (keeps : ∀ tid, (after.threads tid).isSome = (process.threads tid).isSome)
    (queued : ∀ tid ∈ queue, tid ∈ view.queue ∨ (process.threads tid).isSome = true)
    (stays : cpu = none ∨ cpu = view.cpu ∧ after.state = .running ∧
      ∃ thread, after.threads caller = some thread ∧ thread.state = .running) :
    Sound
      { view.setProcess pid after with
        queue := queue
        trace := trace
        cpu := cpu } := by
  have user := (sound.current isCurrent found).1
  refine sound.change found sameMain (fun tid owned => (keeps tid).trans owned)
    (fun tid owned => .inl ((keeps tid).symm.trans owned)) (Nat.le_refl _) ?_ ?_ ?_ ?_
  · intro tid waits
    rw [keeps tid]
    exact queued tid waits
  · simp [live]
  · simp [sameKind, user]
  · intro other tid nowCurrent
    rcases stays with rfl | ⟨rfl, running, thread, owns, threadRuns⟩
    · cases nowCurrent
    · obtain ⟨rfl, rfl⟩ : pid = other ∧ caller = tid := by
        simpa [isCurrent] using nowCurrent
      exact .inr ⟨rfl, sameKind.trans user, running, thread, owns, threadRuns⟩

section

variable (sound : Sound view) (found : view.process pid = some process)
include sound found

/-- A process ends; its threads leave the queue. -/
theorem change_ended
    (user : process.kind = .userProcess)
    (sameMain : after.mainTid = process.mainTid)
    (sameKind : after.kind = process.kind)
    (threads : ∀ tid, after.threads tid = (process.ended state).threads tid)
    (terminal : state.terminal = true)
    (queued : ∀ tid ∈ queue, tid ∈ view.queue ∧ (process.threads tid).isSome = false)
    (current : ∀ other tid, cpu = some (other, tid) →
      other ≠ pid ∧ view.cpu = some (other, tid)) :
    Sound
      { view.setProcess pid after with
        queue := queue
        trace := trace
        cpu := cpu } := by
  have keeps : ∀ tid, (after.threads tid).isSome = (process.threads tid).isSome := by
    simp [threads]
  refine sound.change found sameMain (fun tid owned => (keeps tid).trans owned)
    (fun tid owned => .inl ((keeps tid).symm.trans owned)) (Nat.le_refl _) ?_ ?_ ?_ ?_
  · exact fun tid waits => .inl (queued tid waits).1
  · refine fun _ => ⟨sameKind.trans user, fun tid thread owns => ?_⟩
    rw [threads tid] at owns
    obtain ⟨old, foundOld, rfl⟩ := Option.map_eq_some_iff.mp owns
    refine ⟨by simpa using terminal, rfl, fun waits => ?_⟩
    exact absurd (queued tid waits).2 (by simp [foundOld])
  · simp [sameKind, user]
  · exact fun other tid isCurrent => .inl (current other tid isCurrent)

theorem user_of_terminal (terminal : process.state.terminal = true) :
    process.kind = .userProcess := by
  cases kind : process.kind with
  | userProcess => rfl
  | kernelTask => simp [sound.kernelLives found kind] at terminal

/-- A process that has ended already is given up. -/
theorem change_reaped (terminal : process.state.terminal = true) :
    Sound { view.setProcess pid (process.ended .reaped) with trace := trace } := by
  have user := sound.user_of_terminal found terminal
  refine sound.change_ended found user rfl rfl (fun _ => rfl) rfl ?_ ?_
  · intro tid waits
    refine ⟨waits, ?_⟩
    cases owns : process.threads tid with
    | none => rfl
    | some thread =>
      exact absurd waits (sound.nothingLeft found terminal owns).2.2
  · intro other tid isCurrent
    refine ⟨?_, isCurrent⟩
    rintro rfl
    have running := (sound.current isCurrent found).2.1
    simp [running, ProcessState.terminal] at terminal

end

/-- A process is loaded. -/
theorem launch (sound : Sound view)
    (pending : pid ∈ view.unborn)
    (fresh : tid.toNat = view.tidBound) :
    Sound
      { view.setProcess pid (.launched parent jobMode tid) with
        tidBound := view.tidBound + 1
        unborn := view.unborn \ {pid}
        cpu := some (pid, tid) } := by
  obtain ⟨drawn, absent⟩ := sound.unbornDrawn pending
  constructor
  case mainPresent =>
    intro other process
    by_cases same : other = pid
    · simp only [View.setProcess_process, same, if_true, Option.some.injEq]
      rintro rfl
      simp
    · simpa [same] using fun found => sound.mainPresent found
  case oneOwner =>
    intro left leftProcess right rightProcess shared
    simp only [View.setProcess_process]
    split_ifs with isLeft isRight isRight
    · intros
      exact isLeft.trans isRight.symm
    · rintro ⟨⟩ rightFound leftOwns rightOwns
      have old := sound.tidDrawn rightFound rightOwns
      obtain rfl : shared = tid := by
        by_contra differ
        simp [differ] at leftOwns
      omega
    · rintro leftFound ⟨⟩ leftOwns rightOwns
      have old := sound.tidDrawn leftFound leftOwns
      obtain rfl : shared = tid := by
        by_contra differ
        simp [differ] at rightOwns
      omega
    · exact sound.oneOwner
  case tidDrawn =>
    intro other process owned
    simp only [View.setProcess_process]
    split_ifs with same
    · rintro ⟨⟩ owns
      obtain rfl : owned = tid := by
        by_contra differ
        simp [differ] at owns
      omega
    · intro found owns
      exact Nat.lt_succ_of_lt (sound.tidDrawn found owns)
  case queueDrawn =>
    exact fun waits => Nat.lt_succ_of_lt (sound.queueDrawn waits)
  case nothingLeft =>
    intro other process owned thread
    simp only [View.setProcess_process]
    split_ifs with same
    · rintro ⟨⟩ terminal
      cases terminal
    · exact sound.nothingLeft
  case kernelLives =>
    intro other process
    simp only [View.setProcess_process]
    split_ifs with same
    · rintro ⟨⟩ kernel
      cases kernel
    · exact sound.kernelLives
  case kernelContext =>
    intro other process owned thread
    simp only [View.setProcess_process]
    split_ifs with same
    · rintro ⟨⟩ kernel
      cases kernel
    · exact sound.kernelContext
  case onCpu =>
    rintro _ _ ⟨⟩
    exact ⟨_, _, by simp; rfl, rfl, rfl, by simp; rfl, rfl⟩
  case pidDrawn =>
    intro other process
    simp only [View.setProcess_process]
    split_ifs with same
    · intro _
      exact same ▸ drawn
    · exact sound.pidDrawn
  case unbornDrawn =>
    rintro other ⟨waits, differ⟩
    simpa [show other ≠ pid from differ] using sound.unbornDrawn waits

/-- A thread that is there may be replaced without changing who is there. -/
theorem isSome_setThread {process : ProcessView} (replacement : ThreadView)
    (found : process.threads tid = some thread) (other : Tid) :
    ((process.setThread tid replacement).threads other).isSome =
      (process.threads other).isSome := by
  by_cases same : other = tid <;> simp [same, found]

section

variable (sound : Sound view) (found : view.process pid = some process)
include sound found

/-- A thread with a saved context belongs to a user process. -/
theorem user_of_context
    (owns : process.threads tid = some thread)
    (saved : thread.context = some context) :
    process.kind = .userProcess := by
  cases kind : process.kind with
  | userProcess => rfl
  | kernelTask => simp [sound.kernelContext found kind owns] at saved

/-- The main thread of a process that does not run becomes ready. -/
theorem readyMain {changed : ProcessView} {ready : ThreadView}
    (hasMain : process.threads process.mainTid = some main)
    (notRunning : process.state ≠ .running)
    (sameMain : changed.mainTid = process.mainTid)
    (sameKind : changed.kind = process.kind)
    (sameThreads : ∀ tid, changed.threads tid = process.threads tid)
    (context : main.context = none → ready.context = none) :
    Sound
      { view.setProcess pid (changed.setMain .ready ready) with
        queue := insert process.mainTid view.queue
        trace := trace } := by
  refine sound.change_elsewhere found (fun _ => sound.elsewhere found notRunning) sameMain
    sameKind rfl ?_ ?_ ?_
  · intro tid
    by_cases same : tid = process.mainTid <;> simp [same, sameMain, sameThreads, hasMain]
  · intro kernel tid thread
    simp only [ProcessView.setMain_threads, ProcessView.setThread_threads, sameMain, sameThreads]
    split_ifs with same
    · rintro ⟨⟩
      exact context (sound.kernelContext found kernel hasMain)
    · exact sound.kernelContext found kernel
  · rintro tid (rfl | waits)
    · exact .inr (by simp [hasMain])
    · exact .inl waits

/-- A process gives up its wait and the context with which it waited. -/
theorem dropWait (hasMain : process.threads process.mainTid = some main) :
    Sound (view.setProcess pid ({ process with waitingFor := none }.setThread process.mainTid
      { main with context := none })) := by
  have threads : ∀ tid thread,
      ({ process with waitingFor := none }.setThread process.mainTid
        { main with context := none }).threads tid = some thread →
      ∃ old, process.threads tid = some old ∧ old.state = thread.state ∧
        (thread.context = none ∨ thread = old) := by
    intro tid thread
    simp only [ProcessView.setThread_threads]
    split_ifs with same
    · rintro ⟨⟩
      exact ⟨main, same ▸ hasMain, rfl, .inl rfl⟩
    · exact fun owns => ⟨thread, owns, rfl, .inr rfl⟩
  have keeps : ∀ tid, ((process.setThread process.mainTid { main with context := none }).threads
      tid).isSome = (process.threads tid).isSome :=
    isSome_setThread _ hasMain
  refine sound.change found rfl (fun tid owned => (keeps tid).trans owned)
    (fun tid owned => .inl ((keeps tid).symm.trans owned)) (Nat.le_refl _) (fun _ => .inl) ?_ ?_ ?_
  · refine fun (terminal : process.state.terminal = true) =>
      ⟨(sound.user_of_terminal found terminal : process.kind = _), fun tid thread now => ?_⟩
    obtain ⟨old, foundOld, sameState, context⟩ := threads tid thread now
    have left := sound.nothingLeft found terminal foundOld
    refine ⟨sameState ▸ left.1, ?_, left.2.2⟩
    rcases context with none | rfl
    · exact none
    · exact left.2.1
  · intro kernel tid thread now
    obtain ⟨old, foundOld, -, none | rfl⟩ := threads tid thread now
    · exact none
    · exact sound.kernelContext found kernel foundOld
  · intro other tid isCurrent
    by_cases same : other = pid
    · subst same
      obtain ⟨user, running, live, thread, owns, threadRuns⟩ :=
        sound.current isCurrent found
      refine .inr ⟨rfl, user, running, ?_⟩
      by_cases isMain : tid = process.mainTid
      · subst isMain
        obtain rfl : main = thread := Option.mem_unique hasMain owns
        exact ⟨_, if_pos rfl, threadRuns⟩
      · exact ⟨thread, (if_neg isMain).trans owns, threadRuns⟩
    · exact .inl ⟨same, isCurrent⟩

/-- The record of a process is forgotten. -/
theorem remove (reaped : process.state = .reaped) :
    Sound
      { view with
        process := fun other => if other = pid then none else view.process other
        queue := view.queue \ process.tids } := by
  have old : ∀ {other otherProcess},
      (if other = pid then none else view.process other) = some otherProcess →
      view.process other = some otherProcess := by
    intro other otherProcess
    split_ifs with same
    · nofun
    · exact id
  exact
    { mainPresent := fun left => sound.mainPresent (old left)
      oneOwner := fun left right => sound.oneOwner (old left) (old right)
      tidDrawn := fun left => sound.tidDrawn (old left)
      queueDrawn := fun waits => sound.queueDrawn waits.1
      nothingLeft := fun left terminal owns =>
        have ended := sound.nothingLeft (old left) terminal owns
        ⟨ended.1, ended.2.1, fun waits => ended.2.2 waits.1⟩
      kernelLives := fun left => sound.kernelLives (old left)
      kernelContext := fun left => sound.kernelContext (old left)
      onCpu := by
        intro other tid isCurrent
        have differ : other ≠ pid := by
          rintro rfl
          exact sound.elsewhere found (by simp [reaped]) isCurrent
        simpa [differ] using sound.onCpu isCurrent
      pidDrawn := fun left => sound.pidDrawn (old left)
      unbornDrawn := fun pending =>
        have drawn := sound.unbornDrawn pending
        ⟨drawn.1, by simp [drawn.2]⟩ }

end

/-- Every move keeps the bookkeeping in order. -/
theorem preserved (sound : Sound view) (moved : Moves view move after) : Sound after := by
  cases moved with
  | drawTid later =>
    exact { sound with
      tidDrawn := fun found owned => (sound.tidDrawn found owned).trans_le later
      queueDrawn := fun waits => (sound.queueDrawn waits).trans_le later }
  | request fresh =>
    refine { sound with
      pidDrawn := fun found => Nat.lt_succ_of_lt (sound.pidDrawn found)
      unbornDrawn := ?_ }
    rintro other (rfl | pending)
    · refine ⟨by simp [fresh], ?_⟩
      cases found : view.process other with
      | none => rfl
      | some process =>
        have := sound.pidDrawn found
        omega
    · exact ⟨Nat.lt_succ_of_lt (sound.unbornDrawn pending).1, (sound.unbornDrawn pending).2⟩
  | discard =>
    exact { sound with unbornDrawn := fun waits => sound.unbornDrawn waits.1 }
  | launch _ _ _ pending fresh => exact sound.launch pending fresh
  | @spawn pid caller process tid context isCurrent found =>
    obtain ⟨user, running, live, thread, owns, threadRuns⟩ := sound.current isCurrent found
    have callerOld : caller.toNat < view.tidBound := sound.tidDrawn found (by simp [owns])
    have differ : caller ≠ tid := by
      rintro rfl
      omega
    refine sound.change found rfl ?_ ?_ (Nat.le_succ _) ?_ ?_ ?_ ?_
    · intro other owned
      by_cases same : other = tid <;> simp [same, owned]
    · intro other owned
      by_cases same : other = tid
      · subst same
        exact .inr (by omega)
      · exact .inl (by simpa [same] using owned)
    · rintro other (rfl | waits)
      · exact .inr (by simp)
      · exact .inl waits
    · simp [live]
    · simp [user]
    · intro other otherTid nowCurrent
      obtain ⟨rfl, rfl⟩ : pid = other ∧ caller = otherTid := by
        simpa [isCurrent] using nowCurrent
      have stays : (process.setThread tid (.starting context)).threads caller = some thread := by
        simp [differ, owns]
      exact .inr ⟨rfl, user, ProcessView.refresh_running live stays threadRuns, thread, stays,
        threadRuns⟩
  | park _ isCurrent found owns =>
    obtain ⟨user, running, live, -⟩ := sound.current isCurrent found
    refine sound.change_current isCurrent found rfl rfl ?_ ?_ ?_ (.inl rfl)
    · simp [live]
    · exact isSome_setThread _ owns
    · rintro other (waits | ⟨rfl, -⟩)
      · exact .inl waits
      · exact .inr (by simp [owns])
  | exitThread isCurrent found =>
    obtain ⟨user, running, live, -⟩ := sound.current isCurrent found
    refine sound.change_current isCurrent found rfl rfl ?_ ?_ ?_ (.inl rfl)
    · simp [live]
    · simp
    · rintro other (⟨waits, -⟩ | ⟨joiner, -, foundJoiner, -⟩)
      · exact .inl waits
      · exact .inr (by simp [foundJoiner])
  | @reapThread _ caller _ tid _ isCurrent found owns =>
    obtain ⟨user, running, live, callerThread, foundCaller, callerRuns⟩ :=
      sound.current isCurrent found
    have differ : caller ≠ tid := by
      rintro rfl
      simp_all
    refine sound.change_current isCurrent found rfl rfl ?_ ?_ (fun _ => .inl)
      (.inr ⟨rfl, running, callerThread, ?_, callerRuns⟩)
    · simp [live]
    · exact isSome_setThread _ owns
    · simp [differ, foundCaller]
  | @wake _ caller process tid _ _ isCurrent found owns =>
    obtain ⟨user, running, live, callerThread, foundCaller, callerRuns⟩ :=
      sound.current isCurrent found
    have differ : caller ≠ tid := by
      rintro rfl
      simp_all
    have stays (woken : ThreadView) :
        (process.setThread tid woken).threads caller = some callerThread := by
      simp [differ, foundCaller]
    refine sound.change_current isCurrent found rfl rfl (by simp [live])
      (isSome_setThread _ owns) ?_
      (.inr ⟨rfl, ProcessView.refresh_running live (stays _) callerRuns, callerThread,
        stays _, callerRuns⟩)
    rintro other (rfl | waits)
    · exact .inr (by simp [owns])
    · exact .inl waits
  | finish found user =>
    refine sound.change_ended found user rfl rfl (fun _ => rfl) ?_ ?_ ?_
    · split_ifs <;> rfl
    · rintro tid ⟨waits, notOwned⟩
      exact ⟨waits, by simpa [ProcessView.tids] using notOwned⟩
    · intro other tid nowCurrent
      obtain ⟨isCurrent, differ⟩ := Option.filter_eq_some_iff.mp nowCurrent
      exact ⟨by simpa using differ, isCurrent⟩
  | collect found isOver =>
    refine sound.change_reaped found ?_
    rcases isOver with isOver | isOver <;> simp [isOver, ProcessState.terminal]
  | reap found isOver => exact sound.change_reaped found (by simp [isOver, ProcessState.terminal])
  | dropWait found hasMain => exact sound.dropWait found hasMain
  | wait isCurrent found hasMain | sleep _ isCurrent found hasMain =>
    refine sound.change_current isCurrent found rfl rfl rfl (isSome_setThread _ hasMain) ?_
      (.inl rfl)
    exact fun tid waits => .inl waits.1
  | forget | skip =>
    exact { sound with
      queueDrawn := fun waits => sound.queueDrawn waits.1
      nothingLeft := fun other terminal thread =>
        have left := sound.nothingLeft other terminal thread
        ⟨left.1, left.2.1, fun waits => left.2.2 waits.1⟩ }
  | stop idle found hasMain user =>
    refine sound.change_elsewhere found (by simp [idle]) rfl rfl rfl
      (isSome_setThread _ hasMain) (by simp [user]) ?_
    exact fun tid waits => .inl waits.1
  | notify _ found hasMain blocked =>
    exact sound.readyMain found hasMain (by simp [blocked]) rfl rfl (fun _ => rfl)
      (by simp +contextual)
  | awaken found hasMain blocked =>
    exact sound.readyMain found hasMain (by simp [blocked]) rfl rfl (fun _ => rfl) id
  | resumeJob found hasMain stopped =>
    exact sound.readyMain found hasMain (by simp [stopped]) rfl rfl (fun _ => rfl) id
  | handle _ _ elsewhere found hasMain user live =>
    refine sound.change_elsewhere found elsewhere rfl rfl (by simpa using live)
      (isSome_setThread _ hasMain) (by simp [user]) ?_
    rintro tid (rfl | waits)
    · exact .inr (by simp [hasMain])
    · exact .inl waits
  | abandon => exact { sound with onCpu := by simp }
  | remove found reaped => exact sound.remove found reaped
  | resume _ _ found hasMain user =>
    refine sound.change found rfl ?_ ?_ (Nat.le_refl _) (fun _ => .inl)
      (by simp [ProcessState.terminal]) (by simp [user]) ?_
    · exact fun tid owned => (isSome_setThread _ hasMain tid).trans owned
    · exact fun tid owned => .inl ((isSome_setThread _ hasMain tid).symm.trans owned)
    · rintro _ _ ⟨⟩
      exact .inr ⟨rfl, user, rfl, _, by simp; rfl, rfl⟩
  | bridge idle found user =>
    refine sound.change_ended found user rfl rfl (fun _ => rfl) rfl ?_ (by simp [idle])
    rintro tid ⟨waits, notOwned⟩
    exact ⟨waits, by simpa [ProcessView.tids] using notOwned⟩
  | dispatch _ _ found owns ready saved =>
    have live := sound.live_of_thread found owns (by rw [ready]; rfl)
    have user : _ = ProcessKind.userProcess := sound.user_of_context found owns saved
    refine sound.change found rfl ?_ ?_ (Nat.le_refl _) (fun _ waits => .inl waits.1)
      (by simp [live]) (by simp [user]) ?_
    · exact fun tid owned => (isSome_setThread _ owns tid).trans owned
    · exact fun tid owned => .inl ((isSome_setThread _ owns tid).symm.trans owned)
    · rintro _ _ ⟨⟩
      exact .inr ⟨rfl, user, ProcessView.refresh_running live ProcessView.setThread_self rfl, _,
        ProcessView.setThread_self, rfl⟩
  | @kernelThread _ tid _ thread _ found kernel owns =>
    refine sound.change_elsewhere found ?_ rfl rfl ?_ (isSome_setThread _ owns) ?_
      (fun _ => .inl)
    · intro tid isCurrent
      have user := (sound.current isCurrent found).1
      simp [kernel] at user
    · simpa using sound.kernelLives found kernel
    · intro _ other otherThread
      by_cases same : other = tid
      · subst same
        simp only [ProcessView.refresh_threads, ProcessView.setThread_threads, if_true,
          Option.some.injEq]
        rintro rfl
        exact (sound.kernelContext found kernel owns : thread.context = none)
      · simpa [same] using sound.kernelContext found kernel
  | answer => exact { sound with }

end Sound

end Lifecycle
end Vantara
