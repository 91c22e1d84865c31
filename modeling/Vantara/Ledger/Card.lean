import Vantara.Lifecycle.TableView

/-!
# What the kernel writes down about processes

The sheet of a process table keeps, for each process, what it is entitled to: its
job, its credentials, its signals, its page-table root, whether it has ended and
which contexts its signal handlers will return to.  Scheduling leaves the sheet
alone, so the operations of the table need to be looked at only once for all of
these.
-/

namespace Vantara

open Foundation

/-- What scheduling never changes about a process. -/
@[ext]
structure Title where
  parent : Option Pid
  kind : ProcessKind
  main : Tid
  group : Pid
  session : Pid
  credentials : ProcessCredentials
  /-- The private page-table root. -/
  root : Option UInt64
  pending : UInt64
  blocked : UInt64
  disposition : UInt64

/-- What is written down about a process. -/
@[ext]
structure Card where
  title : Title
  ended : Bool
  /-- The process has a thread that it should not have. -/
  loose : Prop
  /-- The contexts to which active signal handlers return. -/
  handlers : Tid → Option UserResumeContext

/-- What is written down about all processes and page-table roots. -/
@[ext]
structure Sheet where
  card : Pid → Option Card
  /-- The page-table roots in use. -/
  used : Set UInt64
  /-- The page-table roots are distinct. -/
  distinct : Prop
  /-- The thread identifier drawn next and the one on the processor are not those
  of the kernel's threads. -/
  fresh : Prop
  /-- Process identifiers from here on have not been drawn. -/
  bound : Nat

namespace Sheet

/-- The sheet with one card replaced. -/
@[simps]
def setCard (sheet : Sheet) (pid : Pid) (card : Card) : Sheet :=
  { sheet with card := fun other => if other = pid then some card else sheet.card other }

/-- Every process has only threads that it should have. -/
def Tidy (sheet : Sheet) : Prop :=
  sheet.fresh ∧ ∀ pid card, sheet.card pid = some card → ¬card.loose

end Sheet

/-- The kernel task draws its thread identifiers at boot, below this one. -/
def firstUserTid : Nat := 4

/-- An identifier of a user thread, or zero for none. -/
def NotKernelTid (tid : Tid) : Prop :=
  tid = 0 ∨ firstUserTid ≤ tid.toNat

/-- The roots in use. -/
def PrivateP4Pool.used (pool : PrivateP4Pool) : Set UInt64 :=
  { root | ∃ slot ∈ pool.slots, slot.p4Frame = root ∧ slot.inUse = true }

/-- The roots of a pool, in use or not. -/
def PrivateP4Pool.roots (pool : PrivateP4Pool) : List UInt64 :=
  pool.slots.map PreparedP4Slot.p4Frame

namespace Process

variable {process : Process}

/-- What scheduling never changes about the process. -/
def title (process : Process) : Title where
  parent := process.parentPid
  kind := process.kind
  main := process.mainTid
  group := process.processGroupId
  session := process.sessionId
  credentials := process.credentials
  root := process.addressSpace.p4Frame
  pending := process.pendingSignals
  blocked := process.blockedSignals
  disposition := process.sigtermDisposition

/-- A thread that the process should not have: a thread of the kernel task that
could resume in user mode, a thread of an ended user process that has not ended,
or one with an identifier of the other kind. -/
def Misplaced (process : Process) (tid : Tid) (thread : Thread) : Prop :=
  match process.kind with
  | .kernelTask => thread.resumeContext.isSome = true ∨ firstUserTid ≤ tid.toNat
  | .userProcess =>
    (process.state.terminal = true ∧ thread.state.terminal = false) ∨ tid.toNat < firstUserTid

/-- The process has a thread that it should not have. -/
def Loose (process : Process) : Prop :=
  ∃ tid thread, process.threads.get tid = some thread ∧ process.Misplaced tid thread

/-- What is written down about the process. -/
@[simps]
def card (process : Process) : Card where
  title := process.title
  ended := process.state.terminal
  loose := process.Loose
  handlers := fun tid => (process.threads.get tid).bind Thread.signalReturnContext

section

variable (tidy : ¬process.Loose) (found : process.threads.get tid = some thread)
include tidy found

theorem placed : ¬process.Misplaced tid thread :=
  fun misplaced => tidy ⟨tid, thread, found, misplaced⟩

/-- Only user processes have threads that can resume in user mode. -/
theorem user_of_context (saved : thread.resumeContext = some context) :
    process.kind = .userProcess := by
  have good := placed tidy found
  cases kind : process.kind with
  | userProcess => rfl
  | kernelTask => simp [Misplaced, kind, saved] at good

/-- Only user processes have threads with identifiers drawn after boot. -/
theorem user_of_tid (later : firstUserTid ≤ tid.toNat) : process.kind = .userProcess := by
  have good := placed tidy found
  cases kind : process.kind with
  | userProcess => rfl
  | kernelTask => simp [Misplaced, kind, later] at good

/-- The threads of user processes were created after boot. -/
theorem later_of_user (user : process.kind = .userProcess) : firstUserTid ≤ tid.toNat := by
  have good := placed tidy found
  simp only [Misplaced, user, not_or, not_lt] at good
  exact good.2

end

/-- A user process one of whose threads has not ended has not ended itself. -/
theorem live_of_awake
    (tidy : ¬process.Loose)
    (user : process.kind = .userProcess)
    (found : process.threads.get tid = some thread)
    (awake : thread.state.terminal = false) :
    process.state.terminal = false := by
  have good := placed tidy found
  simp only [Misplaced, user, awake, and_true, not_or] at good
  simpa using good.1

/-- What becomes of a thread in its place depends only on its state and context. -/
theorem not_misplaced_of_same
    (good : ¬process.Misplaced tid thread)
    (sameState : changed.state = thread.state)
    (context : changed.resumeContext.isSome = true → thread.resumeContext.isSome = true) :
    ¬process.Misplaced tid changed := by
  unfold Misplaced at good ⊢
  rw [sameState]
  cases kind : process.kind with
  | userProcess => simpa [kind] using good
  | kernelTask =>
    simp only [kind, not_or] at good ⊢
    exact ⟨fun saved => good.1 (context saved), good.2⟩

/-- A user process that has not ended may do with its threads what it likes. -/
theorem not_misplaced_of_live
    (good : ¬process.Misplaced tid thread)
    (user : process.kind = .userProcess)
    (live : process.state.terminal = false) :
    ¬process.Misplaced tid changed := by
  unfold Misplaced at good ⊢
  simpa [user, live] using good

@[simp] theorem card_setWaitingFor : (process.setWaitingFor child).card = process.card := rfl

@[simp] theorem card_setSleepingUntil : (process.setSleepingUntil tick).card = process.card := rfl

@[simp] theorem card_setExitStatus : (process.setExitStatus status).card = process.card := rfl

@[simp] theorem card_refreshStateFromThreads :
    process.refreshStateFromThreads.card = process.card := by
  have ended : process.refreshStateFromThreads.state.terminal = process.state.terminal := by
    unfold refreshStateFromThreads
    dsimp only
    split_ifs with terminal
    · rfl
    · simp [ThreadStore.terminal_summary, Bool.eq_false_iff.mpr terminal]
  refine Card.ext rfl ended ?_ rfl
  simp only [card_loose, Loose, Misplaced, ended, refreshStateFromThreads_kind,
    refreshStateFromThreads_threads]

/-- A process in which nothing is loose has the card of its title, its end and its
handlers. -/
theorem card_eq_of_tidy {changed : Process}
    (title : changed.title = process.title)
    (ended : changed.state.terminal = process.state.terminal)
    (tidy : ¬process.Loose)
    (stillTidy : ¬changed.Loose)
    (handlers : ∀ tid, (changed.threads.get tid).bind Thread.signalReturnContext =
      (process.threads.get tid).bind Thread.signalReturnContext) :
    changed.card = process.card :=
  Card.ext title ended (propext (iff_of_false stillTidy tidy)) (funext handlers)

/-- Threads that change so that nothing on the card does. -/
theorem card_setThreads
    (main : renewed.mainTid = process.mainTid)
    (tidy : ¬process.Loose)
    (calm : ∀ tid thread, renewed.get tid = some thread → ¬process.Misplaced tid thread)
    (handlers : ∀ tid, (renewed.get tid).bind Thread.signalReturnContext =
      (process.threads.get tid).bind Thread.signalReturnContext) :
    (process.setThreads renewed).card = process.card := by
  refine card_eq_of_tidy ?_ rfl tidy ?_ handlers
  · exact Title.ext rfl rfl main rfl rfl rfl rfl rfl rfl rfl
  rintro ⟨tid, thread, found, misplaced⟩
  exact calm tid thread found misplaced

section

variable (tidy : ¬process.Loose)
include tidy

/-- One thread changes, keeping its handler. -/
theorem card_modifyThread
    (calm : ∀ thread, process.threads.get tid = some thread →
      ¬process.Misplaced tid (change thread))
    (keeps : ∀ thread, (change thread).signalReturnContext = thread.signalReturnContext) :
    (process.modifyThread tid change keepsTid).card = process.card := by
  refine card_setThreads rfl tidy (fun other thread found => ?_) fun other => ?_
  · rw [ThreadStore.get_modify] at found
    split_ifs at found with same
    · subst same
      obtain ⟨old, foundOld, rfl⟩ := Option.map_eq_some_iff.mp found
      exact calm old foundOld
    · exact placed tidy found
  · rw [ThreadStore.get_modify]
    split_ifs
    · cases process.threads.get other <;> simp [keeps]
    · rfl

/-- A thread of a user process that has not ended changes, keeping its handler. -/
theorem card_modifyThread_of_live
    (user : process.kind = .userProcess)
    (live : process.state.terminal = false)
    (keeps : ∀ thread, (change thread).signalReturnContext = thread.signalReturnContext) :
    (process.modifyThread tid change keepsTid).card = process.card :=
  card_modifyThread tidy
    (fun _ found => not_misplaced_of_live (placed tidy found) user live) keeps

/-- A thread changes neither its state nor its handler and gets no context. -/
theorem card_modifyThread_of_same
    (sameState : ∀ thread, (change thread).state = thread.state)
    (context : ∀ thread, (change thread).resumeContext.isSome = true →
      thread.resumeContext.isSome = true)
    (keeps : ∀ thread, (change thread).signalReturnContext = thread.signalReturnContext) :
    (process.modifyThread tid change keepsTid).card = process.card :=
  card_modifyThread tidy
    (fun thread found =>
      not_misplaced_of_same (placed tidy found) (sameState thread) (context thread)) keeps

/-- Processes with the same card are tidy together. -/
theorem not_loose_of_card_eq {changed : Process} (same : changed.card = process.card) :
    ¬changed.Loose :=
  fun loose => tidy (Eq.mp (congrArg Card.loose same) loose)

theorem card_stopRun : (process.stopRun now).card = process.card :=
  card_modifyThread_of_same tidy (fun _ => Thread.stopRun_state)
    (fun _ saved => Thread.stopRun_resumeContext ▸ saved)
    fun _ => Thread.stopRun_signalReturnContext

theorem card_setMainContext
    (user : process.kind = .userProcess)
    (live : process.state.terminal = false) :
    (process.setMainContext context).card = process.card :=
  card_modifyThread_of_live tidy user live fun _ => rfl

theorem card_setMainContext_none : (process.setMainContext none).card = process.card :=
  card_modifyThread_of_same tidy (fun _ => rfl) (fun _ absent => by cases absent) fun _ => rfl

theorem card_setMainResult : (process.setMainResult value).card = process.card :=
  card_modifyThread_of_same tidy (fun _ => rfl) (fun _ saved => by simpa using saved) fun _ => rfl

end

/-- The handlers survive a change of the state of the whole process. -/
theorem handlers_applyProcessState {threads : ThreadStore} :
    ((threads.applyProcessState next).get tid).bind Thread.signalReturnContext =
      (threads.get tid).bind Thread.signalReturnContext := by
  cases terminal : next.terminal with
  | true =>
    rw [ThreadStore.get_applyProcessState_of_terminal _ terminal]
    cases threads.get tid <;> rfl
  | false =>
    rw [ThreadStore.get_applyProcessState_of_live _ terminal]
    split_ifs
    · cases threads.get tid <;> rfl
    · rfl

/-- A thread after the process as a whole has entered a state. -/
theorem get_applyProcessState {threads : ThreadStore}
    (found : (threads.applyProcessState next).get tid = some thread) :
    ∃ old, threads.get tid = some old ∧
      (thread.resumeContext.isSome = true → old.resumeContext.isSome = true) ∧
      (next.terminal = true → thread.state.terminal = true) := by
  cases terminal : next.terminal with
  | true =>
    rw [ThreadStore.get_applyProcessState_of_terminal _ terminal] at found
    obtain ⟨old, foundOld, rfl⟩ := Option.map_eq_some_iff.mp found
    exact ⟨old, foundOld, by simp, fun _ => by simp [terminal]⟩
  | false =>
    rw [ThreadStore.get_applyProcessState_of_live _ terminal] at found
    split_ifs at found
    · obtain ⟨old, foundOld, rfl⟩ := Option.map_eq_some_iff.mp found
      exact ⟨old, foundOld, id, by simp⟩
    · exact ⟨thread, found, id, by simp⟩

/-- A process stays tidy when it enters a state as a whole. -/
theorem not_loose_setState (tidy : ¬process.Loose) : ¬(process.setState next).Loose := by
  rintro ⟨tid, thread, found, misplaced⟩
  obtain ⟨old, foundOld, context, ends⟩ := get_applyProcessState found
  have good := placed tidy foundOld
  unfold Misplaced at good misplaced
  rw [setState_kind, setState_state] at misplaced
  cases kind : process.kind with
  | userProcess =>
    simp only [kind, not_or] at good misplaced
    rcases misplaced with ⟨terminal, awake⟩ | early
    · simp [ends terminal] at awake
    · exact good.2 early
  | kernelTask =>
    simp only [kind, not_or] at good misplaced
    rcases misplaced with saved | later
    · exact good.1 (context saved)
    · exact good.2 later

theorem title_setState : (process.setState next).title = process.title :=
  Title.ext rfl rfl ThreadStore.mainTid_applyProcessState rfl rfl rfl rfl rfl rfl rfl

/-- The card of a process that enters a state as a whole. -/
theorem card_setState (tidy : ¬process.Loose) :
    (process.setState next).card = { process.card with ended := next.terminal } :=
  Card.ext title_setState rfl (propext (iff_of_false (not_loose_setState tidy) tidy))
    (funext fun _ => handlers_applyProcessState)

/-- A process enters a state without ending by it, or has ended before. -/
theorem card_setState_of_same
    (tidy : ¬process.Loose)
    (same : next.terminal = process.state.terminal) :
    (process.setState next).card = process.card := by
  rw [card_setState tidy, same]
  rfl

end Process

namespace ProcessTable

variable {table : ProcessTable}

/-- What is written down about the processes of a table. -/
@[simps]
def sheet (table : ProcessTable) : Sheet where
  card := fun pid => (table.get pid).map Process.card
  used := table.privatePool.used
  distinct := table.privatePool.roots.Nodup
  fresh := firstUserTid ≤ table.nextTid.toNat ∧ NotKernelTid table.currentUserTidAtomic
  bound := table.nextPid.toNat

theorem not_loose_of_get (tidy : table.sheet.Tidy) (found : table.get pid = some process) :
    ¬process.Loose :=
  tidy.2 pid process.card (by simp [found])

theorem card_of_get (found : table.get pid = some process) :
    table.sheet.card pid = some process.card := by
  simp [found]

theorem sheet_putProcess :
    (table.putProcess process).sheet = table.sheet.setCard process.pid process.card := by
  refine Sheet.ext (funext fun pid => ?_) rfl rfl rfl rfl
  by_cases same : pid = process.pid <;> simp [same]

/-- Writing a process back with the same card. -/
theorem sheet_putProcess_of_card_eq
    (found : table.get process.pid = some old)
    (same : process.card = old.card) :
    (table.putProcess process).sheet = table.sheet := by
  rw [sheet_putProcess]
  refine Sheet.ext (funext fun pid => ?_) rfl rfl rfl rfl
  by_cases isPid : pid = process.pid
  · simp [isPid, found, same]
  · simp [isPid]

@[simp] theorem sheet_record : (table.record event).sheet = table.sheet := rfl

@[simp] theorem sheet_enqueueReady : (table.enqueueReady tid).sheet = table.sheet := rfl

theorem sheet_reserveTid (tidy : table.sheet.Tidy) : table.reserveTid.2.sheet = table.sheet := by
  have drawn : firstUserTid ≤ (Word.saturatingSucc table.nextTid).toNat := by
    have word := table.nextTid.toNat_lt
    have fresh : firstUserTid ≤ table.nextTid.toNat := tidy.1.1
    rw [Word.toNat_saturatingSucc]
    omega
  exact Sheet.ext rfl rfl rfl (propext (iff_of_true ⟨drawn, tidy.1.2⟩ tidy.1)) rfl

theorem sheet_stopProcessRun (tidy : table.sheet.Tidy) :
    (table.stopProcessRun pid).sheet = table.sheet := by
  unfold stopProcessRun
  split_ifs
  · exact Sheet.ext rfl rfl rfl (propext (iff_of_true ⟨tidy.1.1, .inl rfl⟩ tidy.1)) rfl
  · rfl

/-- A process leaves the queue and the processor. -/
theorem sheet_leave (tidy : table.sheet.Tidy) :
    ((table.removeFromReadyQueue pid).stopProcessRun pid).sheet = table.sheet :=
  sheet_stopProcessRun (by exact tidy)

end ProcessTable

end Vantara
