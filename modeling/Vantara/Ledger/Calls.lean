import Vantara.Ledger.Entries

/-!
# System calls as entries in the ledger

Each handler of a system call is matched with the entries that it makes.  A
handler whose answer returns to user mode leaves the caller on the processor.
-/

namespace Vantara

open Foundation
open Option (bind_eq_some_iff mem_unique)
open ProcessTable (card_of_get onCpu_sendSignal pid_of_get)

namespace Kernel

variable {kernel : Kernel} {env : UserEnv} {frame : SyscallFrame}

/-- What is written down in the kernel. -/
@[simps]
def ledger (kernel : Kernel) : Ledger where
  sheet := kernel.table.sheet
  ipc := kernel.ipc
  queue := kernel.pendingPrograms

/-- The thread on the processor is the one that the kernel takes for it. -/
structure Attends (kernel : Kernel) (pid : Pid) (tid : Tid) : Prop where
  process : kernel.currentUserProcess = some pid
  thread : kernel.currentUserThread = some tid
  runs : kernel.table.OnCpu pid tid

/-- A terminate request for the process cannot be delivered at once. -/
def Defers (kernel : Kernel) (pid : Pid) : Prop :=
  ∃ target, kernel.table.get pid = some target ∧
    (target.blockedSignals &&& sigtermMask ≠ 0 ∨
      target.sigtermDisposition ≠ sigIgn ∧ target.sigtermDisposition ≠ sigDfl ∧
        (target.mainThread.signalReturnContext.isSome = true ∨
          target.mainThread.resumeContext = none))

/-- The entries that a system call makes, and the ledger in which it makes them. -/
def CallCauses (kernel : Kernel) (frame : SyscallFrame) (call : Syscall) (ledger : Ledger) :
    Entry → Prop
  | .draw program =>
    ledger = kernel.ledger ∧ (call = .exec ∨ call = .execBg) ∧
      program.parentPid = kernel.currentUserProcess
  | .finish _ => True
  | .regroup caller _ =>
    ledger = kernel.ledger ∧ call = .setpgid ∧ kernel.currentUserProcess = some caller
  | .lead pid => ledger = kernel.ledger ∧ call = .setsid ∧ kernel.currentUserProcess = some pid
  | .credit pid =>
    ledger = kernel.ledger ∧ call = .setuser ∧ kernel.currentUserProcess = some pid
  | .dispose pid =>
    ledger = kernel.ledger ∧ call = .sigaction ∧ kernel.currentUserProcess = some pid
  | .mask pid =>
    ledger = kernel.ledger ∧ call = .sigprocmask ∧ kernel.currentUserProcess = some pid
  | .pend pid =>
    ledger = kernel.ledger ∧ call = .kill ∧ Word.toUInt32? frame.arg0 = some pid ∧
      kernel.Defers pid
  | .enter pid tid _ =>
    call = .kill ∨ call = .sigprocmask ∧ kernel.currentUserProcess = some pid ∧
      kernel.currentUserThread = some tid
  | .leave pid tid =>
    ledger = kernel.ledger ∧ call = .sigreturn ∧ kernel.currentUserProcess = some pid ∧
      kernel.currentUserThread = some tid
  | .own pid => ledger = kernel.ledger ∧ kernel.currentUserProcess = some pid
  | .launch _ _ | .drop _ | .giveUp _ | .forget => False

/-- What a system call does: entries of its own, and the caller stays on the
processor if the answer returns to it. -/
structure Serves
    (kernel : Kernel) (frame : SyscallFrame) (call : Syscall) (pid : Pid) (tid : Tid)
    (answer : Answer) (after : Kernel) : Prop where
  writes : Trail Posts (kernel.CallCauses frame call) kernel.ledger after.ledger
  stays : answer.register ≠ syscallReturnToKernel → after.Attends pid tid

/-! ## Naming and releasing -/

theorem sheet_setCurrentUser
    (tidy : kernel.table.sheet.Tidy)
    (later : ∀ named, tid = some named → firstUserTid ≤ named.toNat) :
    (kernel.setCurrentUser pid tid).table.sheet = kernel.table.sheet := by
  refine Sheet.ext rfl rfl rfl (propext (iff_of_true ⟨tidy.1.1, ?_⟩ tidy.1)) rfl
  cases tid with
  | none => exact .inl rfl
  | some named => exact .inr (later named rfl)

theorem releases_releasePreparedP4Frame :
    kernel.table.sheet.Releases root (kernel.releasePreparedP4Frame root).table.sheet := by
  cases root with
  | none => exact ⟨fun _ _ => Iff.rfl, fun _ _ absent => (nomatch absent), rfl⟩
  | some root => exact ProcessTable.sheet_releaseRoot

theorem ledger_releasePreparedP4Frame :
    (kernel.releasePreparedP4Frame root).ledger =
      { kernel.ledger with sheet := (kernel.releasePreparedP4Frame root).table.sheet } := by
  cases root <;> rfl

theorem Attends.takeCurrentUser (attends : kernel.Attends pid tid) :
    kernel.takeCurrentUser = (some (pid, tid), kernel.setCurrentUser none none) := by
  simp [Kernel.takeCurrentUser, attends.process, attends.thread]

/-- The end of a process that has not ended. -/
theorem posts_exitProcess (filed : kernel.ledger.Filed) (lives : kernel.table.Lives pid) :
    Posts kernel.ledger (.finish pid)
      ((kernel.closeProcessFiles pid).exitProcess pid status).ledger := by
  obtain ⟨process, found, user, live⟩ := lives
  let ended : Kernel :=
    { kernel.closeProcessFiles pid with
      table := kernel.table.markExited kernel.ticks pid status
      lastExitedProcess := some pid }
  have released : (kernel.ledger.sheet.setCard pid process.card.close).Releases
      process.card.title.root
        (ended.releasePreparedP4Frame process.addressSpace.p4Frame).table.sheet := by
    have marked : ended.table.sheet = kernel.ledger.sheet.setCard pid process.card.close :=
      ProcessTable.sheet_markExited filed.tidy found
    rw [← marked]
    exact releases_releasePreparedP4Frame
  have frame : (kernel.closeProcessFiles pid).table.p4FrameFor pid =
      process.addressSpace.p4Frame := by
    simp [ProcessTable.p4FrameFor, closeProcessFiles, found]
  have posts : Posts kernel.ledger (.finish pid) _ :=
    .finish (card_of_get found) ⟨user, live⟩ released
  have ledger : (ended.releasePreparedP4Frame process.addressSpace.p4Frame).ledger = _ :=
    ledger_releasePreparedP4Frame
  rw [exitProcess, frame]
  exact ledger ▸ posts

theorem ledger_setCurrentUser
    (tidy : kernel.table.sheet.Tidy)
    (later : ∀ named, tid = some named → firstUserTid ≤ named.toNat) :
    (kernel.setCurrentUser pid tid).ledger = kernel.ledger :=
  Ledger.ext (sheet_setCurrentUser tidy later) rfl rfl

theorem ledger_leaveCurrentUser (tidy : kernel.table.sheet.Tidy) :
    (kernel.setCurrentUser none none).ledger = kernel.ledger :=
  ledger_setCurrentUser tidy (by simp)

theorem posts_markCurrentUserExited
    (filed : kernel.ledger.Filed)
    (attends : kernel.Attends pid tid) :
    Posts kernel.ledger (.finish pid) (kernel.markCurrentUserExited status).2.ledger := by
  have left := ledger_leaveCurrentUser filed.tidy
  simp only [markCurrentUserExited, attends.takeCurrentUser]
  rw [← left]
  exact posts_exitProcess (left ▸ filed) attends.runs.lives

/-! ## Handlers -/

theorem Serves.same (attends : kernel.Attends pid tid) (answer : Answer) :
    kernel.Serves frame call pid tid answer kernel :=
  ⟨.start, fun _ => attends⟩

theorem Serves.of_eq {result : Answer × Kernel}
    (served : kernel.Serves frame call pid tid result.1 result.2)
    (same : result = (answer, after)) :
    kernel.Serves frame call pid tid answer after := by
  subst same
  exact served

/-- A handler that changes the table in ways that are not written down. -/
theorem Serves.withTable {table : ProcessTable}
    (attends : kernel.Attends pid tid)
    (sheet : table.sheet = kernel.table.sheet)
    (runs : table.OnCpu pid tid) :
    kernel.Serves frame call pid tid answer (kernel.withTable table) := by
  have same : (kernel.withTable table).ledger = kernel.ledger := Ledger.ext sheet rfl rfl
  exact ⟨by rw [same]; exact .start, fun _ => ⟨attends.process, attends.thread, runs⟩⟩

/-- A handler that makes one entry in the table and leaves the caller alone. -/
theorem Serves.of_posts
    {table : ProcessTable} {entry : Entry}
    (attends : kernel.Attends pid tid)
    (posts : Posts kernel.ledger entry (kernel.withTable table).ledger)
    (caused : kernel.CallCauses frame call kernel.ledger entry)
    (runs : table.OnCpu pid tid) :
    kernel.Serves frame call pid tid answer (kernel.withTable table) :=
  ⟨.single caused posts, fun _ => ⟨attends.process, attends.thread, runs⟩⟩

/-- A handler that takes the caller off the processor without an entry. -/
theorem Serves.leaves (ledger : after.ledger = kernel.ledger) :
    kernel.Serves frame call pid tid (.ok syscallReturnToKernel) after :=
  ⟨by rw [ledger]; exact .start, fun landing => absurd rfl landing⟩

/-- A handler that changes what processes have opened. -/
theorem Serves.owns
    (attends : kernel.Attends pid tid)
    (sheet : after.table.sheet = kernel.table.sheet)
    (queue : after.pendingPrograms = kernel.pendingPrograms)
    (accounts : kernel.ipc.drawsFresh = true → kernel.ipc.Accounts → after.ipc.Accounts)
    (stays : answer.register ≠ syscallReturnToKernel → after.Attends pid tid) :
    kernel.Serves frame call pid tid answer after := by
  have ledger : after.ledger = { kernel.ledger with ipc := after.ipc } :=
    Ledger.ext sheet rfl queue
  refine ⟨?_, stays⟩
  rw [ledger]
  exact .single (by exact ⟨rfl, attends.process⟩) (.own after.ipc accounts)

theorem serves_withIpc
    (attends : kernel.Attends pid tid)
    (accounts : kernel.ipc.drawsFresh = true → kernel.ipc.Accounts → result.2.Accounts) :
    kernel.Serves frame call pid tid (kernel.withIpc result).1 (kernel.withIpc result).2 :=
  .owns attends rfl rfl accounts fun _ => ⟨attends.process, attends.thread, attends.runs⟩

section

variable (filed : kernel.ledger.Filed) (attends : kernel.Attends pid tid)
include filed attends

theorem serves_exit :
    kernel.Serves frame call pid tid (.ok syscallReturnToKernel)
      (kernel.markCurrentUserExited status).2 :=
  ⟨.single (by exact trivial) (posts_markCurrentUserExited filed attends),
    fun landing => absurd rfl landing⟩

theorem serves_exitUserThread (exited : kernel.exitUserThread = (answer, after)) :
    kernel.Serves frame call pid tid answer after := by
  have left := ledger_leaveCurrentUser filed.tidy
  simp only [exitUserThread, markCurrentThreadExited, attends.takeCurrentUser] at exited
  split at exited
  · next gone departed =>
      cases exited
      split at departed
      · cases departed
      · next owner table isExited =>
          cases departed
          refine .leaves ?_
          rw [← left]
          exact Ledger.ext (ProcessTable.sheet_markThreadExited (left ▸ filed).tidy isExited) rfl
            rfl
  · next stayed =>
      cases exited
      split at stayed
      · cases stayed
        have back : ((kernel.setCurrentUser none none).setCurrentUser (some pid)
            (some tid)).ledger = kernel.ledger := by
          rw [← left]
          refine ledger_setCurrentUser (left ▸ filed).tidy ?_
          rintro _ ⟨⟩
          exact attends.runs.later filed.tidy
        exact ⟨by rw [back]; exact .start, fun _ => ⟨rfl, rfl, attends.runs⟩⟩
      · cases stayed

theorem serves_joinUserThread (joined : kernel.joinUserThread frame = (answer, after)) :
    kernel.Serves frame call pid tid answer after := by
  unfold joinUserThread at joined
  rw [attends.thread] at joined
  split at joined
  case h_2 =>
    cases joined
    exact .same attends _
  next target caller _ isCaller =>
  cases isCaller
  have sheet : (kernel.table.joinThread kernel.ticks tid target
      (.fromSyscallFrame frame)).2.sheet = kernel.table.sheet :=
    ProcessTable.sheet_joinThread filed.tidy (attends.runs.later filed.tidy)
  cases result : kernel.table.joinThread kernel.ticks tid target (.fromSyscallFrame frame) with
  | mk status table =>
    rw [result] at joined sheet
    have stays := fun notBlocked => ProcessTable.onCpu_joinThread attends.runs result notBlocked
    cases status with
    | blocked =>
      cases joined
      exact .leaves (Ledger.ext sheet rfl rfl)
    | missing | notSibling | selfJoin | deadlock | alreadyReaped | completed =>
      cases joined
      exact .withTable attends sheet (stays (by simp))

end

theorem attends_recordThreadYield (attends : kernel.Attends pid tid) :
    let recorded := match kernel.currentUserThread.bind kernel.table.recordThreadYield with
      | some table => kernel.withTable table
      | none => kernel
    recorded.consumeTimerPreemptRequestForYield.ledger = kernel.ledger ∧
      recorded.consumeTimerPreemptRequestForYield.Attends pid tid := by
  dsimp only
  split
  · next table recorded =>
      obtain ⟨named, -, counted⟩ := bind_eq_some_iff.mp recorded
      obtain ⟨process, owner, rest⟩ := bind_eq_some_iff.mp counted
      obtain ⟨owned, owns, rest⟩ := bind_eq_some_iff.mp rest
      split_ifs at rest
      cases rest
      exact ⟨rfl, attends.process, attends.thread, attends.runs⟩
  · exact ⟨rfl, attends.process, attends.thread, attends.runs⟩

section

variable (filed : kernel.ledger.Filed) (attends : kernel.Attends pid tid)
include filed attends

/-- The caller gives up the processor, or stays. -/
theorem checkoutCurrentUserIfYielded_ledger
    (left : kernel.checkoutCurrentUserIfYielded context = (gone, after)) :
    after.ledger = kernel.ledger ∧ (gone = false → after.Attends pid tid) := by
  have unnamed := ledger_leaveCurrentUser filed.tidy
  have filedLeft : (kernel.setCurrentUser none none).ledger.Filed := unnamed ▸ filed
  simp only [checkoutCurrentUserIfYielded, attends.takeCurrentUser] at left
  split at left
  · cases left
    refine ⟨?_, fun _ => ⟨rfl, rfl, attends.runs⟩⟩
    refine (ledger_setCurrentUser filedLeft.tidy ?_).trans unnamed
    rintro _ ⟨⟩
    exact attends.runs.later filed.tidy
  · next table yielded =>
      cases left
      have sheet := ProcessTable.sheet_markThreadYielded filedLeft.tidy
        (attends.runs.later filed.tidy) yielded
      refine ⟨?_, fun absent => ?_⟩
      · rw [← unnamed]
        exact Ledger.ext sheet rfl rfl
      obtain ⟨process, -, found, -⟩ := attends.runs
      have card : table.sheet.card pid = some process.card := by
        rw [sheet]
        exact card_of_get found
      obtain ⟨still, inTable, -⟩ := Option.map_eq_some_iff.mp card
      simp [inTable] at absent

theorem serves_userYield (yielded : kernel.userYield frame = (answer, after)) :
    kernel.Serves frame call pid tid answer after := by
  unfold userYield at yielded
  split_ifs at yielded
  · cases yielded
    exact .same attends _
  obtain ⟨ledger, recordedAttends⟩ := attends_recordThreadYield attends
  dsimp only at yielded
  split at yielded
  · next left =>
      cases yielded
      obtain ⟨same, -⟩ := checkoutCurrentUserIfYielded_ledger (ledger ▸ filed) recordedAttends left
      exact .leaves (same.trans ledger)
  · next left =>
      cases yielded
      obtain ⟨same, stays⟩ :=
        checkoutCurrentUserIfYielded_ledger (ledger ▸ filed) recordedAttends left
      refine ⟨?_, fun _ => stays rfl⟩
      rw [same.trans ledger]
      exact .start

theorem serves_sleepCurrentUser (slept : kernel.sleepCurrentUser frame = (answer, after)) :
    kernel.Serves frame call pid tid answer after := by
  unfold sleepCurrentUser at slept
  split_ifs at slept
  · cases slept
    exact .same attends _
  simp only [attends.process] at slept
  have sheet : (kernel.table.markSleeping kernel.ticks pid (Word.saturatingAdd kernel.ticks
      (sleepTicks frame.arg0)) (.fromSyscallFrame frame)).2.sheet = kernel.table.sheet :=
    ProcessTable.sheet_markSleeping filed.tidy attends.runs.lives
  split at slept
  · next table result =>
      -- The process on the processor runs, so that its sleep is not refused.
      obtain ⟨process, -, found, -, -, running, -⟩ := attends.runs
      simp [ProcessTable.markSleeping, found, running] at result
  · next table result =>
      cases slept
      rw [result] at sheet
      refine .leaves (Ledger.ext (Eq.trans ?_ sheet) rfl rfl)
      unfold recordSaved
      split <;> rfl

theorem serves_waitEvent (waited : kernel.waitEvent frame = (answer, after)) :
    kernel.Serves frame call pid tid answer after := by
  unfold waitEvent at waited
  split at waited
  case h_2 =>
    cases waited
    exact .same attends _
  next caller callerThread isCaller isThread =>
  obtain rfl := mem_unique isThread attends.thread
  have stays : ∀ ipc, ({ kernel with ipc := ipc } : Kernel).Attends pid callerThread :=
    fun _ => ⟨attends.process, attends.thread, attends.runs⟩
  dsimp only at waited
  split at waited
  · cases waited
    exact .same attends _
  split_ifs at waited
  · cases waited
    exact .owns attends rfl rfl (fun _ accounts => accounts.of_same rfl rfl) fun _ => stays _
  split at waited
  · cases waited
    exact .same attends _
  split at waited
  · cases waited
    exact .owns attends rfl rfl (fun _ accounts => accounts.of_same rfl rfl) fun _ => stays _
  · next table blocked =>
      cases waited
      have sheet := ProcessTable.sheet_blockThread filed.tidy (attends.runs.later filed.tidy)
        blocked
      exact .owns attends sheet rfl (fun _ accounts => accounts.of_same rfl rfl)
        fun landing => absurd rfl landing

end

/-- Waking the first thread that can be woken is not written down. -/
theorem wakeFirstWaiter_ledger {table woken : ProcessTable}
    (tidy : table.sheet.Tidy)
    (on : table.OnCpu pid tid)
    (isWoken : wakeFirstWaiter table fuel event = (some woken, rest)) :
    woken.sheet = table.sheet ∧ woken.OnCpu pid tid := by
  induction fuel generalizing event with
  | zero => cases isWoken
  | succ fuel ih =>
    rw [wakeFirstWaiter] at isWoken
    split at isWoken
    · cases isWoken
    split at isWoken
    · next wakes =>
        cases isWoken
        exact ⟨ProcessTable.sheet_wakeThread tidy wakes,
          ProcessTable.onCpu_wakeThread on wakes⟩
    · exact ih isWoken

theorem serves_signalEvent
    (filed : kernel.ledger.Filed)
    (attends : kernel.Attends pid tid)
    (signaled : kernel.signalEvent slot = (answer, after)) :
    kernel.Serves frame call pid tid answer after := by
  unfold signalEvent at signaled
  split at signaled
  · cases signaled
    exact .same attends _
  dsimp only at signaled
  split at signaled
  · cases signaled
    exact .same attends _
  split at signaled
  · next table event woken =>
      cases signaled
      obtain ⟨sheet, runs⟩ := wakeFirstWaiter_ledger filed.tidy attends.runs woken
      exact .owns attends sheet rfl (fun _ accounts => accounts.of_same rfl rfl)
        fun _ => ⟨attends.process, attends.thread, runs⟩
  · cases signaled
    exact .owns attends rfl rfl (fun _ accounts => accounts.of_same rfl rfl)
      fun _ => ⟨attends.process, attends.thread, attends.runs⟩

/-- A program is queued under a fresh identifier. -/
theorem posts_queueProgram
    (queued : kernel.queueProgram image parent arg jobMode = some (pid, after)) :
    ∃ program, program.pid = pid ∧ program.parentPid = parent ∧
      Posts kernel.ledger (.draw program) after.ledger ∧
      after = { kernel with table := after.table, pendingPrograms := after.pendingPrograms } ∧
      after.table.get = kernel.table.get := by
  obtain ⟨⟨drawn, table⟩, reserved, ⟨⟩⟩ := bind_eq_some_iff.mp queued
  unfold ProcessTable.reservePid at reserved
  split_ifs at reserved with fits
  cases reserved
  refine ⟨⟨_, parent, image.name, image.path, arg, jobMode⟩, rfl, rfl, ?_, rfl, rfl⟩
  have next : (kernel.table.nextPid + 1).toNat = kernel.table.nextPid.toNat + 1 := by
    rw [UInt32.toNat_add, UInt32.toNat_one, Nat.mod_eq_of_lt fits]
  refine Posts.of_eq (.draw rfl ?_) (Ledger.ext (Sheet.ext rfl rfl rfl rfl next) rfl rfl)
  rintro ⟨-, -, isKernel⟩
  have slash := congrArg String.toList isKernel
  simp [UserlandImage.path] at slash

theorem posts_requestPath
    (requested : kernel.requestPathWithArgAndMode path arg jobMode = .ok (some (pid, after))) :
    ∃ program, program.pid = pid ∧
      program.parentPid = kernel.currentUserProcess.or (some 1) ∧
      Posts kernel.ledger (.draw program) after.ledger ∧
      after = { kernel with table := after.table, pendingPrograms := after.pendingPrograms } ∧
      after.table.get = kernel.table.get := by
  unfold requestPathWithArgAndMode at requested
  split at requested
  · cases requested
  split at requested
  · cases requested
  · exact posts_queueProgram (Except.ok.inj requested)

theorem serves_execWithMode
    (attends : kernel.Attends pid tid)
    (isExec : call = .exec ∨ call = .execBg)
    (requested : kernel.execWithMode env pathPtr pathLen argPtr argLen jobMode =
      some (answer, after)) :
    kernel.Serves frame call pid tid answer after := by
  unfold execWithMode at requested
  dsimp only at requested
  split at requested
  · cases requested
    exact .same attends _
  split at requested
  · cases requested
    exact .same attends _
  · next queued isQueued =>
      obtain ⟨⟨drawn, next⟩, rfl, ⟨⟩⟩ := Option.map_eq_some_iff.mp requested
      obtain ⟨program, -, parent, posts, rest, sameGet⟩ := posts_requestPath isQueued
      rw [attends.process] at parent
      refine ⟨.single ?_ posts, fun _ => ?_⟩
      · exact ⟨rfl, isExec, parent.trans attends.process.symm⟩
      · rw [rest]
        exact ⟨attends.process, attends.thread, attends.runs.of_get_eq (congrFun sameGet pid)⟩

section

variable (filed : kernel.ledger.Filed) (attends : kernel.Attends pid tid)
include filed attends

theorem serves_waitForPendingChild (waited : kernel.waitForPendingChild frame = (answer, after)) :
    kernel.Serves frame call pid tid answer after := by
  unfold waitForPendingChild at waited
  split at waited
  case h_2 =>
    cases waited
    exact .same attends _
  next child parent isChild isParent =>
  obtain rfl := mem_unique isParent attends.process
  split at waited
  · next status table collected =>
      cases waited
      have runs := ProcessTable.onCpu_reapChild attends.runs collected
      have sheet := ProcessTable.sheet_reapChild filed.tidy collected
      exact .withTable attends sheet runs
  split_ifs at waited
  · split at waited <;> (cases waited; exact .same attends _)
  dsimp only at waited
  split at waited
  · cases waited
    exact .same attends _
  · next table waits =>
      cases waited
      have sheet := ProcessTable.sheet_markWaiting filed.tidy attends.runs.lives waits
      refine .leaves (Ledger.ext (Eq.trans ?_ sheet) rfl rfl)
      change ProcessTable.sheet (recordSaved _ _ _ _) = _
      unfold recordSaved
      split <;> rfl

/-! ## Attributes -/

theorem serves_spawnUserThread :
    kernel.Serves frame call pid tid (kernel.spawnUserThread env entry arg).1
      (kernel.spawnUserThread env entry arg).2 := by
  unfold spawnUserThread
  split
  · exact .same attends _
  · exact .same attends _
  · next caller _ isCaller =>
      obtain rfl := mem_unique isCaller attends.process
      exact .withTable attends
        (ProcessTable.sheet_createManagedUserThread filed.tidy attends.runs.lives)
        (ProcessTable.onCpu_createManagedUserThread attends.runs)

theorem serves_createUserThread :
    kernel.Serves frame call pid tid (kernel.createUserThread env entry stackPtr stackLen arg).1
      (kernel.createUserThread env entry stackPtr stackLen arg).2 := by
  unfold createUserThread
  split
  · exact .same attends _
  · exact .same attends _
  · next caller _ isCaller =>
      obtain rfl := mem_unique isCaller attends.process
      exact .withTable attends
        (ProcessTable.sheet_createUserThread filed.tidy attends.runs.lives)
        (ProcessTable.onCpu_createUserThread attends.runs)

end

section

variable (attends : kernel.Attends pid tid)
include attends

theorem serves_setSignalAction :
    kernel.Serves frame .sigaction pid tid (kernel.setSignalAction env signal disposition).1
      (kernel.setSignalAction env signal disposition).2 := by
  unfold setSignalAction
  split_ifs
  · exact .same attends _
  all_goals
    dsimp only
    split
    · exact .same attends _
    · exact .same attends _
    next caller _ isCaller =>
    obtain rfl := mem_unique isCaller attends.process
    split
    · exact .same attends _
    next old table replaced =>
    obtain ⟨process, found, sheet⟩ := ProcessTable.sheet_setSignalDisposition replaced
    refine .of_posts attends
      (.of_eq (.dispose disposition (card_of_get found))
        (Ledger.ext sheet rfl rfl))
      ⟨rfl, rfl, attends.process⟩ ?_
    unfold ProcessTable.setSignalDisposition at replaced
    split_ifs at replaced
    obtain ⟨same, isFound, ⟨⟩⟩ := bind_eq_some_iff.mp replaced
    obtain rfl := pid_of_get isFound
    exact attends.runs.put_same isFound rfl rfl rfl

theorem serves_setProcessGroup :
    kernel.Serves frame .setpgid pid tid (kernel.setProcessGroup target group).1
      (kernel.setProcessGroup target group).2 := by
  unfold setProcessGroup
  rw [attends.process]
  dsimp only
  split
  case h_2 => exact .same attends _
  next moving joining _ _ =>
  cases moved : kernel.table.setProcessGroup pid moving joining with
  | error _ => exact .same attends _
  | ok result =>
    obtain ⟨joined, table⟩ := result
    obtain ⟨caller, process, foundCaller, found, session, follower, joins, sheet⟩ :=
      ProcessTable.sheet_setProcessGroup moved
    obtain rfl := pid_of_get found
    refine .of_posts attends
      (.of_eq (.regroup (card_of_get foundCaller)
        (card_of_get found) session follower ?_)
        (Ledger.ext sheet rfl rfl))
      ⟨rfl, rfl, attends.process⟩ ?_
    · refine joins.imp_right ?_
      rintro ⟨member, listed, sameSession, sameGroup⟩
      have foundMember : kernel.table.get member.pid = some member := KeyedStore.get_of_mem listed
      exact ⟨member.pid, member.card, card_of_get foundMember, sameSession,
        sameGroup⟩
    · unfold ProcessTable.setProcessGroup at moved
      rw [foundCaller, found] at moved
      dsimp only at moved
      split_ifs at moved <;> cases moved <;> exact attends.runs.put_same found rfl rfl rfl

theorem serves_createSession :
    kernel.Serves frame .setsid pid tid kernel.createSession.1 kernel.createSession.2 := by
  unfold createSession
  rw [attends.process]
  dsimp only
  cases created : kernel.table.createSession pid with
  | error _ => exact .same attends _
  | ok result =>
    obtain ⟨session, table⟩ := result
    obtain ⟨process, found, follower, sheet⟩ := ProcessTable.sheet_createSession created
    refine .of_posts attends
      (.of_eq (.lead (card_of_get found) follower)
        (Ledger.ext sheet rfl rfl))
      ⟨rfl, rfl, attends.process⟩ ?_
    obtain rfl := pid_of_get found
    unfold ProcessTable.createSession at created
    rw [found] at created
    dsimp only at created
    split_ifs at created
    cases created
    exact attends.runs.put_same found rfl rfl rfl

theorem serves_chdirUser :
    kernel.Serves frame call pid tid (kernel.chdirUser env pathPtr pathLen).1
      (kernel.chdirUser env pathPtr pathLen).2 := by
  unfold chdirUser
  split
  · exact .same attends _
  · exact .same attends _
  next caller _ isCaller =>
  obtain rfl := mem_unique isCaller attends.process
  split
  · exact .same attends _
  next directory _ =>
  cases changed : kernel.table.setCwd caller directory with
  | none => exact .withTable attends rfl attends.runs
  | some table =>
    refine .withTable attends (ProcessTable.sheet_setCwd changed) ?_
    obtain ⟨process, found, ⟨⟩⟩ := bind_eq_some_iff.mp changed
    obtain rfl := pid_of_get found
    exact attends.runs.put_same found rfl rfl rfl

theorem serves_setCurrentUserName :
    kernel.Serves frame .setuser pid tid (kernel.setCurrentUserName env namePtr nameLen).1
      (kernel.setCurrentUserName env namePtr nameLen).2 := by
  unfold setCurrentUserName
  split
  · exact .same attends _
  · exact .same attends _
  next caller _ isCaller =>
  obtain rfl := mem_unique isCaller attends.process
  dsimp only
  split_ifs
  · exact .same attends _
  generalize ProcessCredentials.fromUsername _ = credentials
  cases changed : kernel.table.setCredentials caller credentials with
  | none => exact .same attends _
  | some table =>
    obtain ⟨process, found, sheet⟩ := ProcessTable.sheet_setCredentials changed
    refine .of_posts attends
      (.of_eq (.credit credentials (card_of_get found))
        (Ledger.ext sheet rfl rfl))
      ⟨rfl, rfl, attends.process⟩ ?_
    obtain ⟨same, isFound, ⟨⟩⟩ := bind_eq_some_iff.mp changed
    obtain rfl := pid_of_get isFound
    exact attends.runs.put_same isFound rfl rfl rfl

end

/-! ## Signals -/

/-- What becomes of a terminate request. -/
theorem sendSignal_cases {table after : ProcessTable}
    (sent : table.sendSignal now caller targetPid sigterm = .ok (delivery, after)) :
    ∃ target, table.get targetPid = some target ∧ caller ≠ targetPid ∧
      target.kind = .userProcess ∧ target.state.terminal = false ∧
      ((∃ report, delivery = .terminated report ∧
          table.terminateUserProcess now caller targetPid (128 + sigterm) =
            .ok (report, after)) ∨
        (∀ report, delivery ≠ .terminated report) ∧
          (after = table ∨
            table.activateSignalHandler targetPid sigterm target.sigtermDisposition =
              some after ∨
            (target.blockedSignals &&& sigtermMask ≠ 0 ∨
              target.sigtermDisposition ≠ sigIgn ∧ target.sigtermDisposition ≠ sigDfl ∧
                table.activateSignalHandler targetPid sigterm target.sigtermDisposition =
                  none) ∧
              after = (table.addPendingSignal target sigterm sigtermMask).2)) := by
  unfold ProcessTable.sendSignal at sent
  split at sent
  · cases sent
  next target targeted =>
  obtain ⟨found, other, user, live⟩ := ProcessTable.signalTarget_spec targeted
  refine ⟨target, found, other, user, live, ?_⟩
  rw [show signalBit sigterm = some sigtermMask from rfl] at sent
  dsimp only at sent
  split_ifs at sent with blocked ignored handled
  · cases sent
    exact .inr ⟨by simp, .inr (.inr ⟨.inl blocked, rfl⟩)⟩
  · cases sent
    exact .inr ⟨by simp, .inl rfl⟩
  · split at sent
    · next activated isActivated =>
        cases sent
        exact .inr ⟨by simp, .inr (.inl isActivated)⟩
    · next refused =>
        cases sent
        exact .inr ⟨by simp,
          .inr (.inr ⟨.inr ⟨ignored, handled, refused⟩, rfl⟩)⟩
  · split at sent
    · next report terminated isTerminated =>
        cases sent
        exact .inl ⟨report, rfl, isTerminated⟩
    · cases sent

theorem defers_of_refused
    (found : kernel.table.get pid = some target)
    (deferred : target.blockedSignals &&& sigtermMask ≠ 0 ∨
      target.sigtermDisposition ≠ sigIgn ∧ target.sigtermDisposition ≠ sigDfl ∧
        kernel.table.activateSignalHandler pid sigterm handler = none) :
    kernel.Defers pid := by
  refine ⟨target, found, deferred.imp_right fun ⟨notIgnored, notDefault, refused⟩ =>
    ⟨notIgnored, notDefault, ?_⟩⟩
  simp only [ProcessTable.activateSignalHandler, found, Option.bind_eq_bind,
    Option.bind_some] at refused
  split_ifs at refused with inHandler
  · exact .inl inHandler
  · refine .inr (Option.eq_none_iff_forall_ne_some.mpr ?_)
    simpa using refused

/-- A process ended by another one. -/
theorem posts_terminateUserProcess {table : ProcessTable}
    (filed : kernel.ledger.Filed)
    (terminated : kernel.table.terminateUserProcess now caller targetPid status =
      .ok (report, table)) :
    Posts kernel.ledger (.finish targetPid)
      (({ kernel with table := table }.closeProcessFiles targetPid).releasePreparedP4Frame
        report.p4Frame).ledger := by
  obtain ⟨target, found, -, user, live, root, sheet⟩ :=
    ProcessTable.sheet_terminateUserProcess filed.tidy terminated
  let ended : Kernel := { kernel with table := table }.closeProcessFiles targetPid
  have released : (kernel.ledger.sheet.setCard targetPid target.card.close).Releases
      target.card.title.root (ended.releasePreparedP4Frame report.p4Frame).table.sheet := by
    have marked : ended.table.sheet = kernel.ledger.sheet.setCard targetPid target.card.close :=
      sheet
    rw [← marked, root]
    exact releases_releasePreparedP4Frame
  exact .of_eq (.finish (card_of_get found) ⟨user, live⟩ released)
    ledger_releasePreparedP4Frame

/-- A terminate request ends, diverts or marks its target, or does nothing. -/
theorem posts_sendSignal
    (filed : kernel.ledger.Filed)
    (isTarget : Word.toUInt32? frame.arg0 = some targetPid)
    (sent : kernel.sendSignal caller targetPid sigterm = .ok (delivery, after)) :
    Trail Posts (kernel.CallCauses frame .kill) kernel.ledger after.ledger := by
  unfold sendSignal at sent
  split at sent
  · cases sent
  · next report table isSent =>
      cases sent
      obtain ⟨target, -, -, -, -, ⟨_, ⟨⟩, terminated⟩ | ⟨still, -⟩⟩ := sendSignal_cases isSent
      · have posts := posts_terminateUserProcess filed terminated
        refine .single ?_ posts
        exact trivial
      · exact absurd rfl (still report)
  · next delivered table unended isSent =>
      cases sent
      obtain ⟨target, found, -, user, live, ⟨report, rfl, -⟩ | ⟨-, outcome⟩⟩ :=
        sendSignal_cases isSent
      · exact absurd rfl (unended report)
      have onSheet := card_of_get found
      obtain rfl | activated | ⟨deferred, rfl⟩ := outcome
      · exact .start
      · obtain ⟨original, -, idle, sheet⟩ :=
          ProcessTable.sheet_activateSignalHandler filed.tidy found user live activated
        refine .single ?_ (.of_eq (.enter original onSheet ⟨user, live⟩ ?_)
          (Ledger.ext sheet rfl rfl))
        · exact .inl rfl
        · exact (congrArg (Option.bind · Thread.signalReturnContext)
            target.get_mainTid).trans idle
      · obtain rfl := pid_of_get found
        refine .single ?_ (.of_eq (.pend onSheet ⟨user, live⟩) (Ledger.ext ?_ rfl rfl))
        · exact ⟨rfl, rfl, isTarget, defers_of_refused found deferred⟩
        · exact @ProcessTable.sheet_addPendingSignal _ _ sigterm _

section

variable (filed : kernel.ledger.Filed) (attends : kernel.Attends pid tid)
include filed attends

theorem serves_terminateProcess
    (requested : kernel.terminateProcess frame.arg0 frame.arg1 = (answer, after)) :
    kernel.Serves frame .kill pid tid answer after := by
  unfold terminateProcess at requested
  split at requested
  case h_2 =>
    cases requested
    exact .same attends _
  next targetPid caller isTarget isCaller =>
  obtain rfl := mem_unique isCaller attends.process
  split_ifs at requested with continues notTerm
  · split at requested
    · next table continued =>
        cases requested
        exact .withTable attends (ProcessTable.sheet_continueUserProcess filed.tidy continued)
          (ProcessTable.onCpu_continueUserProcess attends.runs continued)
    · cases requested
      exact .same attends _
  · cases requested
    exact .same attends _
  push Not at notTerm
  rw [notTerm] at requested
  have served : ∀ {delivery sentKernel},
      kernel.sendSignal caller targetPid sigterm = .ok (delivery, sentKernel) →
      Trail Posts (kernel.CallCauses frame .kill) kernel.ledger sentKernel.ledger ∧
        sentKernel.Attends caller tid := by
    intro delivery sentKernel sent
    refine ⟨posts_sendSignal filed isTarget sent, ?_⟩
    unfold sendSignal at sent
    split at sent
    · cases sent
    · next report table isSent =>
        cases sent
        have runs := onCpu_sendSignal attends.runs isSent
        cases report.p4Frame <;> exact ⟨attends.process, attends.thread, runs⟩
    · next delivered table _ isSent =>
        cases sent
        exact ⟨attends.process, attends.thread,
          onCpu_sendSignal attends.runs isSent⟩
  split at requested
  · cases requested
    exact .same attends _
  · next sent =>
      cases requested
      exact ⟨(served sent).1, fun _ => (served sent).2⟩
  · next report sentKernel sent =>
      cases requested
      split_ifs
      · exact ⟨(served sent).1, fun _ => ⟨(served sent).2.process, (served sent).2.thread,
          (served sent).2.runs⟩⟩
      · exact ⟨(served sent).1, fun _ => (served sent).2⟩
  · next sent =>
      cases requested
      exact ⟨(served sent).1, fun _ => (served sent).2⟩

/-- The current thread is diverted to a signal handler. -/
theorem posts_checkoutForSignalHandler
    (diverted : kernel.checkoutCurrentUserForSignalHandler signal handler original =
      some after) :
    Posts kernel.ledger (.enter pid tid original) after.ledger := by
  obtain ⟨caller, isCaller, rest⟩ := bind_eq_some_iff.mp diverted
  obtain rfl := mem_unique isCaller attends.process
  obtain ⟨callerTid, isTid, rest⟩ := bind_eq_some_iff.mp rest
  obtain rfl := mem_unique isTid attends.thread
  obtain ⟨table, activated, ⟨⟩⟩ := bind_eq_some_iff.mp rest
  obtain ⟨process, owned, found, owns, idle, sheet⟩ :=
    ProcessTable.sheet_activateRunningSignalHandler filed.tidy attends.runs.lives activated
  obtain ⟨same, isFound, user, live⟩ := attends.runs.lives
  obtain rfl := mem_unique found isFound
  have onSheet := card_of_get found
  have posts : Posts kernel.ledger (.enter caller callerTid original)
      ({ kernel with table := table } : Kernel).ledger :=
    .of_eq (.enter original onSheet ⟨user, live⟩
      ((congrArg (Option.bind · Thread.signalReturnContext) owns).trans idle))
      (Ledger.ext sheet rfl rfl)
  have left := ledger_leaveCurrentUser (filed.preserved posts).tidy
  exact posts.of_eq left

/-- The current thread returns from its signal handler. -/
theorem posts_checkoutAfterSigreturn
    (returned : kernel.checkoutCurrentUserAfterSigreturn = some after) :
    Posts kernel.ledger (.leave pid tid) after.ledger := by
  obtain ⟨caller, isCaller, rest⟩ := bind_eq_some_iff.mp returned
  obtain rfl := mem_unique isCaller attends.process
  obtain ⟨callerTid, isTid, rest⟩ := bind_eq_some_iff.mp rest
  obtain rfl := mem_unique isTid attends.thread
  obtain ⟨table, restored, ⟨⟩⟩ := bind_eq_some_iff.mp rest
  obtain ⟨process, found, sheet⟩ :=
    ProcessTable.sheet_restoreSignalContext filed.tidy attends.runs.lives restored
  obtain ⟨same, isFound, user, live⟩ := attends.runs.lives
  obtain rfl := mem_unique found isFound
  have posts : Posts kernel.ledger (.leave caller callerTid)
      ({ kernel with table := table } : Kernel).ledger :=
    .of_eq (.leave (card_of_get found) ⟨user, live⟩)
      (Ledger.ext sheet rfl rfl)
  have left := ledger_leaveCurrentUser (filed.preserved posts).tidy
  exact posts.of_eq left

theorem serves_updateSignalMask (masked : kernel.updateSignalMask frame = (answer, after)) :
    kernel.Serves frame .sigprocmask pid tid answer after := by
  unfold updateSignalMask at masked
  split_ifs at masked
  · cases masked
    exact .same attends _
  split at masked
  case h_2 =>
    cases masked
    exact .same attends _
  next how caller _ isCaller =>
  obtain rfl := mem_unique isCaller attends.process
  split at masked
  · cases masked
    exact .same attends _
  next update table updated =>
  obtain ⟨process, found, user, live, -, -, -, rfl⟩ :=
    ProcessTable.sheet_updateSignalMask updated
  obtain rfl := pid_of_get found
  dsimp only at masked
  generalize changed : kernel.withTable (kernel.table.putProcess _) = maskedKernel at masked
  have maskedAttends : maskedKernel.Attends process.pid tid := by
    subst changed
    exact ⟨attends.process, attends.thread, attends.runs.put_same found rfl rfl rfl⟩
  have posts : Posts kernel.ledger (.mask process.pid) maskedKernel.ledger := by
    subst changed
    exact .of_eq (.mask update.newMask (card_of_get found) ⟨user, live⟩)
      (Ledger.ext ProcessTable.sheet_putProcess rfl rfl)
  have maskedFiled := filed.preserved posts
  have writes : Trail Posts (kernel.CallCauses frame .sigprocmask) kernel.ledger
      maskedKernel.ledger :=
    .single (by exact ⟨rfl, rfl, attends.process⟩) posts
  split at masked
  · cases masked
    exact ⟨writes, fun _ => maskedAttends⟩
  split at masked
  · cases masked
    exact ⟨writes, fun _ => maskedAttends⟩
  split_ifs at masked
  · cases masked
    exact ⟨writes, fun _ => maskedAttends⟩
  · cases masked
    exact ⟨.next writes (by exact trivial) (posts_markCurrentUserExited maskedFiled maskedAttends),
      fun landing => absurd rfl landing⟩
  split at masked
  · cases masked
    exact ⟨writes, fun _ => maskedAttends⟩
  · next diverted =>
      cases masked
      refine ⟨.next writes ?_ (posts_checkoutForSignalHandler maskedFiled maskedAttends diverted),
        fun landing => absurd rfl landing⟩
      exact .inr ⟨rfl, attends.process, attends.thread⟩

theorem serves_sigreturn
    (returned : (match kernel.checkoutCurrentUserAfterSigreturn with
      | some kernel => ((.ok syscallReturnToKernel : Answer), kernel)
      | none => (.error .invalidArgument, kernel)) = (answer, after)) :
    kernel.Serves frame .sigreturn pid tid answer after := by
  split at returned
  · next restored =>
      cases returned
      refine ⟨.single ?_ (posts_checkoutAfterSigreturn filed attends restored),
        fun landing => absurd rfl landing⟩
      exact ⟨rfl, rfl, attends.process, attends.thread⟩
  · cases returned
    exact .same attends _

/-! ## The dispatcher -/

/-- Every system call makes entries of its own only. -/
theorem serves_handle (handled : kernel.handle env frame call = some (answer, after)) :
    kernel.Serves frame call pid tid answer after := by
  cases call
  case exit =>
    cases handled
    exact serves_exit filed attends
  case reboot => cases handled
  case uptime =>
    obtain ⟨value, -, ⟨⟩⟩ := Option.map_eq_some_iff.mp handled
    exact .same attends _
  case exec => exact serves_execWithMode attends (.inl rfl) handled
  case execBg => exact serves_execWithMode attends (.inr rfl) handled
  all_goals have handled := Option.some.inj handled
  case threadExit => exact serves_exitUserThread filed attends handled
  case threadJoin => exact serves_joinUserThread filed attends handled
  case yield => exact serves_userYield filed attends handled
  case sleepMs => exact serves_sleepCurrentUser filed attends handled
  case sigprocmask => exact serves_updateSignalMask filed attends handled
  case sigreturn => exact serves_sigreturn filed attends handled
  case waitpid => exact serves_waitForPendingChild filed attends handled
  case kill => exact serves_terminateProcess filed attends handled
  case eventWait => exact serves_waitEvent filed attends handled
  case eventSignal => exact serves_signalEvent filed attends handled
  all_goals refine .of_eq ?_ handled
  case chdir => exact serves_chdirUser attends
  case setuser => exact serves_setCurrentUserName attends
  case threadCreate => exact serves_createUserThread filed attends
  case threadSpawn => exact serves_spawnUserThread filed attends
  case sigaction => exact serves_setSignalAction attends
  case setpgid => exact serves_setProcessGroup attends
  case setsid => exact serves_createSession attends
  case write => exact serves_withIpc attends fun _ => accounts_commit altersTables_writeUserBuffer
  case openFile => exact serves_withIpc attends fun _ => accounts_commit altersTables_openFile
  case create => exact serves_withIpc attends fun _ => accounts_commit altersTables_createFile
  case read => exact serves_withIpc attends fun _ => accounts_commit altersTables_readFdToUser
  case close => exact serves_withIpc attends fun _ => accounts_commit altersTables_closeFd
  case pipe => exact serves_withIpc attends accounts_createPipe
  case eventCreate => exact serves_withIpc attends fun _ => accounts_createEvent
  case eventClose => exact serves_withIpc attends fun _ => accounts_closeEvent
  case msgqCreate => exact serves_withIpc attends fun _ => accounts_createMessageQueue
  case msgqSend => exact serves_withIpc attends fun _ => accounts_sendMessage
  case msgqRecv => exact serves_withIpc attends fun _ => accounts_receiveMessage
  case msgqClose => exact serves_withIpc attends fun _ => accounts_closeMessageQueue
  all_goals exact .same attends _

end

end Kernel

end Vantara
