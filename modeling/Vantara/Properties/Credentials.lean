import Vantara.Ledger.Boot

/-!
# Inherited credentials

A program is requested by one process and started later.  The new process looks
its parent up again at that moment and acts on behalf of the superuser if the
record of the parent has been forgotten meanwhile.
-/

namespace Vantara

open Foundation

namespace Ledger

variable {ledger after : Ledger}

/-- A process from the past has given credentials as long as it has a record. -/
structure Credited (pid : Pid) (credentials : ProcessCredentials) (ledger : Ledger) : Prop where
  past : ledger.Past pid
  holds : ledger.sheet.card pid = some card → card.title.credentials = credentials

/-- Every entry but a change of its own credentials leaves the process its
credentials. -/
theorem Credited.preserved
    (credited : ledger.Credited pid credentials)
    (keeps : entry ≠ .credit pid)
    (posts : Posts ledger entry after) :
    after.Credited pid credentials := by
  refine ⟨credited.past.preserved posts, fun inSheet => ?_⟩
  obtain ⟨card, found, amends⟩ := credited.past.card posts inSheet
  have old := credited.holds found
  cases amends with
  | credit => exact absurd rfl keeps
  | untouched | finish | giveUp | regroup | lead | dispose | mask | pend | enter | leave =>
    exact old

/-- Every program in the queue was there before or was requested by the process. -/
def RequestedBy (before : Ledger) (parent : Pid) (ledger : Ledger) : Prop :=
  ∀ program ∈ ledger.queue, program ∈ before.queue ∨ program.parentPid = some parent

theorem RequestedBy.preserved (requested : RequestedBy before parent ledger)
    (own : ∀ program, entry = .draw program → program.parentPid = some parent)
    (posts : Posts ledger entry after) :
    RequestedBy before parent after := by
  cases posts with
  | launch _ queued | drop queued =>
    exact fun program listed => requested program (queued ▸ List.mem_cons_of_mem _ listed)
  | draw =>
    intro program listed
    rcases List.mem_append.mp listed with old | new
    · exact requested program old
    · obtain rfl := List.mem_singleton.mp new
      exact .inr (own program rfl)
  | finish | giveUp | forget | regroup | lead | credit | dispose | mask | pend | enter | leave
  | own =>
    exact requested

end Ledger

namespace Kernel

variable {kernel before queued after : Kernel} {images : List UserlandImage}
  {frames : List UInt64}

/-- A process asks to act on behalf of another user. -/
def setsUser (kernel : Kernel) (pid : Pid) (action : Action) : Bool :=
  match action with
  | .syscall frame _ =>
    decide (Syscall.decode frame.number = some .setuser ∧ kernel.currentUserProcess = some pid)
  | _ => false

theorem credited_step
    (orderly : kernel.Orderly)
    (credited : kernel.ledger.Credited pid credentials)
    (silent : kernel.setsUser pid action = false)
    (stepped : kernel.step action = some after) :
    after.ledger.Credited pid credentials := by
  refine (orderly.keeps stepped).writes.invariant credited ?_
  intro ledger entry next held caused posts
  refine held.preserved ?_ posts
  rintro rfl
  obtain ⟨frame, env, call, rfl, decoded, -, rfl, isCaller⟩ | absurdity := caused
  · simp [setsUser, decoded, isCaller] at silent
  · exact absurdity

/-- A loaded program becomes a process with the credentials of its parent. -/
theorem credentials_of_loaded
    (filed : kernel.ledger.Filed)
    (isNext : kernel.pendingPrograms = program :: rest)
    (started : kernel.step (.pending (.loaded loaded prepared)) = some after) :
    (after.table.get program.pid).map Process.credentials =
      some (match program.parentPid.bind kernel.table.get with
        | some parent => parent.credentials
        | none => .root) := by
  obtain ⟨root, posts⟩ := posts_launch_of_step filed isNext started
  have launched : ∃ main, after.ledger.sheet.card program.pid = some (ProcessTable.launchedCard
      kernel.table.sheet program.pid program.parentPid root main) := by
    generalize after.ledger = last at posts ⊢
    cases posts with
    | launch main => exact ⟨main, by simp⟩
  obtain ⟨main, inSheet⟩ := launched
  obtain ⟨child, found, isCard⟩ := Option.map_eq_some_iff.mp inSheet
  have credentials := congrArg (fun card : Card => card.title.credentials) isCard
  rw [found, Option.map_some, Option.some.injEq]
  refine credentials.trans ?_
  simp only [ProcessTable.launchedCard, ProcessTable.bind_sheet_card]
  cases program.parentPid.bind kernel.table.get <;> rfl

/-- A program starts on behalf of the user who requested it if and only if the
record of the requesting process is still there or that user is the superuser. -/
theorem exec_inherits_uid_iff
    {parent : Pid} {process : Process} {program : UserProgram}
    (reachable : Transition.Reachable step (boot images frames) before)
    (isCaller : before.currentUserProcess = some parent)
    (isProcess : before.table.get parent = some process)
    (isExec : Syscall.decode frame.number = some .exec ∨
      Syscall.decode frame.number = some .execBg)
    (requested : before.step (.syscall frame env) = some queued)
    (isRequested : program ∈ queued.pendingPrograms)
    (isNew : program ∉ before.pendingPrograms)
    (waited : Transition.ReachableWhere step
      (fun kernel action => kernel.setsUser parent action = false) queued kernel)
    (isNext : kernel.pendingPrograms = program :: rest)
    (started : kernel.step (.pending (.loaded loaded prepared)) = some after) :
    (after.table.get program.pid).map (fun child => child.credentials.uid) =
        some process.credentials.uid ↔
      (kernel.table.get parent).isSome = true ∨ process.credentials.uid = 0 := by
  have orderly := orderly_of_reachable reachable
  have onSheet := ProcessTable.card_of_get isProcess
  have credited : before.ledger.Credited parent process.credentials := by
    refine ⟨orderly.filed.past onSheet, fun inSheet => ?_⟩
    cases onSheet.symm.trans inSheet
    rfl
  have isChild : program.parentPid = some parent := by
    have requestedBy : Ledger.RequestedBy before.ledger parent queued.ledger := by
      refine (orderly.keeps requested).writes.invariant (fun _ listed => .inl listed) ?_
      intro ledger entry next held caused posts
      refine held.preserved ?_ posts
      rintro drawn rfl
      obtain ⟨_, _, call, ⟨⟩, _, -, -, isParent⟩ | ⟨-, ⟨_, ⟨⟩⟩, -⟩ := caused
      exact isParent.trans isCaller
    exact (requestedBy program isRequested).resolve_left isNew
  have silent : before.setsUser parent (.syscall frame env) = false := by
    obtain decoded | decoded := isExec <;> simp [setsUser, decoded]
  have both : kernel.Orderly ∧ kernel.ledger.Credited parent process.credentials := by
    clear isNext started
    induction waited with
    | start => exact ⟨orderly.preserved requested, credited_step orderly credited silent requested⟩
    | next _ permitted stepped ih =>
      obtain ⟨lateOrderly, lateCredited⟩ := ih
      exact ⟨lateOrderly.preserved stepped,
        credited_step lateOrderly lateCredited permitted stepped⟩
  obtain ⟨lateOrderly, lateCredited⟩ := both
  have credentials := credentials_of_loaded lateOrderly.filed isNext started
  have uid := congrArg (Option.map ProcessCredentials.uid) credentials
  rw [Option.map_map, isChild, Option.bind_some] at uid
  change (after.table.get program.pid).map (fun child => child.credentials.uid) = _ at uid
  rw [uid]
  cases found : kernel.table.get parent with
  | none =>
    simp only [Option.map_some, Option.some.injEq, Option.isSome_none, Bool.false_eq_true,
      false_or]
    exact eq_comm
  | some stillThere =>
    have same := lateCredited.holds (ProcessTable.card_of_get found)
    have sameUid : stillThere.credentials = process.credentials := same
    simp [sameUid]

/-- Process 2 changes its user and requests program 3 while nothing else waits. -/
def heirRun : List Action :=
  Sample.loadInit ++ [Sample.execShellBg, Sample.call 17 0 0, .input none, Sample.load,
    Sample.call 22 Sample.shellName Sample.shellNameLen]

/-- The next actions: the request, its requester yields, and the program is loaded. -/
def heirRequest : Action := Sample.execShellBg
def heirWait : List Action := [Sample.call 17 0 0, .input none]

def heirBefore : Kernel := (Transition.run step Sample.machine heirRun).get (by decide +kernel)
def heirQueued : Kernel := (heirBefore.step heirRequest).get (by decide +kernel)
def heirKernel : Kernel :=
  (Transition.runWhere step (fun kernel action => !kernel.setsUser 2 action) heirQueued
    heirWait).get (by decide +kernel)
def heirAfter : Kernel := (heirKernel.step Sample.load).get (by decide +kernel)
def heirRequester : Process := (heirBefore.table.get 2).get (by decide +kernel)
def heirProgram : UserProgram := (heirQueued.pendingPrograms.head?).get (by decide +kernel)

theorem exec_inherits_uid_heirRun :
    Transition.run step Sample.machine heirRun = some heirBefore ∧
      heirBefore.step heirRequest = some heirQueued ∧
      heirKernel.step Sample.load = some heirAfter ∧ heirRequester.credentials.uid = 1000 ∧
      (heirAfter.table.get heirProgram.pid).map (fun child => child.credentials.uid) =
        some heirRequester.credentials.uid := by
  have performed : Transition.run step Sample.machine heirRun = some heirBefore :=
    (Option.some_get _).symm
  have requested : heirBefore.step heirRequest = some heirQueued := (Option.some_get _).symm
  have waited : Transition.runWhere step (fun kernel action => !kernel.setsUser 2 action)
      heirQueued heirWait = some heirKernel := (Option.some_get _).symm
  have started : heirKernel.step Sample.load = some heirAfter := (Option.some_get _).symm
  refine ⟨performed, requested, started, by decide +kernel, ?_⟩
  have silent := Transition.reachableWhere_of_runWhere waited
  simp only [Bool.not_eq_true'] at silent
  have isCaller : heirBefore.currentUserProcess = some 2 := by decide +kernel
  have isNext : heirKernel.pendingPrograms = [heirProgram] := by decide +kernel
  exact (exec_inherits_uid_iff (Transition.reachable_of_run performed) isCaller
    (Option.some_get _).symm (.inr (by decide +kernel)) requested (by decide +kernel)
    (by decide +kernel) silent isNext started).mpr (.inl (by decide +kernel))

/-- Process 2 changes its user, requests program 19 behind sixteen others and
exits; those exit as well before program 19 starts. -/
def orphanRun : List Action :=
  let request := Sample.execShellBg
  Sample.loadInit ++ List.replicate 17 request ++
    [Sample.call 17 0 0, .input none, Sample.load,
      Sample.call 22 Sample.shellName Sample.shellNameLen, request, Sample.call 1 0 0] ++
    (List.replicate 16 [.input none, Sample.load, Sample.call 1 0 0]).flatten ++
    [.input none, Sample.load]

/-- The program of user 1000 starts as the superuser. -/
theorem orphanRun_starts_as_root :
    (Transition.run step Sample.machine (orphanRun.take 24)).map
        (fun kernel => (kernel.currentUserProcess,
          (kernel.table.get 2).map fun process => process.credentials.uid,
          kernel.pendingPrograms.getLast?.map fun program => (program.pid, program.parentPid))) =
      some (some 2, some 1000, some (19, some 2)) ∧
    (Transition.run step Sample.machine orphanRun).map
        (fun kernel => (kernel.table.get 19).map fun process => process.credentials.uid) =
      some (some 0) := by
  decide +kernel

end Kernel

end Vantara
