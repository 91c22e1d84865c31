import Vantara.Lifecycle.CallMoves
import Vantara.Runtime

/-!
# What the kernel keeps in order between steps

Moves never change the kind of a process, and a thread identifier stays with its
process.  From this the books that the kernel keeps beside the process table stay
consistent with it: who waits for events, which programs wait to be loaded and
which parents asked to be resumed.
-/

namespace Vantara

open Foundation

namespace Lifecycle

/-- Where the processes and threads of a later view come from. -/
structure Extends (view after : View) : Prop where
  tidBound : view.tidBound ≤ after.tidBound
  pidBound : view.pidBound ≤ after.pidBound
  unborn : pid ∈ after.unborn → pid ∈ view.unborn ∨ view.pidBound ≤ pid.toNat
  origin : after.process pid = some process →
    (∀ tid, (process.threads tid).isSome = true → view.tidBound ≤ tid.toNat ∨
      ∃ old, view.process pid = some old ∧ (old.threads tid).isSome = true) ∧
    ((∃ old, view.process pid = some old ∧ process.kind = old.kind) ∨
      process.kind = .userProcess ∧ (pid ∈ view.unborn ∨ view.pidBound ≤ pid.toNat))

namespace Extends

theorem refl : Extends view view where
  tidBound := le_rfl
  pidBound := le_rfl
  unborn := .inl
  origin := fun found => ⟨fun _ owned => .inr ⟨_, found, owned⟩, .inl ⟨_, found, rfl⟩⟩

theorem trans (before : Extends view middle) (after : Extends middle last) :
    Extends view last where
  tidBound := before.tidBound.trans after.tidBound
  pidBound := before.pidBound.trans after.pidBound
  unborn := fun pending => (after.unborn pending).elim before.unborn
    fun later => .inr (before.pidBound.trans later)
  origin := by
    intro pid process found
    obtain ⟨threads, kind⟩ := after.origin found
    constructor
    · intro tid owned
      rcases threads tid owned with fresh | ⟨old, foundOld, ownedOld⟩
      · exact .inl (before.tidBound.trans fresh)
      · exact (before.origin foundOld).1 tid ownedOld
    · rcases kind with ⟨old, foundOld, sameKind⟩ | ⟨user, pending | later⟩
      · rw [sameKind]
        exact (before.origin foundOld).2
      · exact .inr ⟨user, before.unborn pending⟩
      · exact .inr ⟨user, .inr (before.pidBound.trans later)⟩

/-- One process changes; its threads are the ones it had, or freshly drawn. -/
theorem change
    (found : view.process pid = some process)
    (sameKind : changed.kind = process.kind)
    (threads : ∀ tid, (changed.threads tid).isSome = true →
      view.tidBound ≤ tid.toNat ∨ (process.threads tid).isSome = true)
    (later : view.tidBound ≤ bound) :
    Extends view
      { view.setProcess pid changed with
        queue := queue
        tidBound := bound
        trace := trace
        cpu := cpu } where
  tidBound := later
  pidBound := le_rfl
  unborn := .inl
  origin := by
    intro other otherProcess otherFound
    by_cases same : other = pid
    · subst same
      obtain rfl := Option.some.inj ((if_pos rfl).symm.trans otherFound)
      refine ⟨fun tid owned => ?_, .inl ⟨process, found, sameKind⟩⟩
      exact (threads tid owned).imp_right fun old => ⟨process, found, old⟩
    · have otherFound := (if_neg same).symm.trans otherFound
      exact ⟨fun _ owned => .inr ⟨_, otherFound, owned⟩, .inl ⟨_, otherFound, rfl⟩⟩

/-- One process changes and has the threads that it had. -/
theorem change_keeping
    (found : view.process pid = some process)
    (sameKind : changed.kind = process.kind)
    (threads : ∀ tid, (changed.threads tid).isSome = true → (process.threads tid).isSome = true) :
    Extends view
      { view.setProcess pid changed with
        queue := queue
        tidBound := view.tidBound
        trace := trace
        cpu := cpu } :=
  change found sameKind (fun tid owned => .inr (threads tid owned)) le_rfl

/-- The processes stay as they are, and perhaps some identifiers are drawn. -/
theorem same
    (tids : view.tidBound ≤ after.tidBound)
    (pids : view.pidBound ≤ after.pidBound)
    (unborn : ∀ pid ∈ after.unborn, pid ∈ view.unborn ∨ view.pidBound ≤ pid.toNat)
    (processes : ∀ pid process, after.process pid = some process →
      view.process pid = some process) :
    Extends view after where
  tidBound := tids
  pidBound := pids
  unborn := unborn _
  origin := fun found =>
    ⟨fun _ owned => .inr ⟨_, processes _ _ found, owned⟩, .inl ⟨_, processes _ _ found, rfl⟩⟩

end Extends

theorem isSome_of_setThread {process : ProcessView} (found : process.threads tid = some thread) :
    ∀ other, ((process.setThread tid replacement).threads other).isSome = true →
      (process.threads other).isSome = true := by
  intro other owned
  by_cases isTid : other = tid
  · simp [isTid, found]
  · simpa [isTid] using owned

/-- Every move keeps kinds and the owners of threads. -/
theorem Moves.extends (moved : Moves view move after) : Extends view after := by
  cases moved with
  | drawTid later => exact .same later le_rfl (fun _ => .inl) fun _ _ => id
  | request fresh =>
    refine .same le_rfl (Nat.le_succ _) ?_ fun _ _ => id
    rintro pid (rfl | old)
    · exact .inr fresh.ge
    · exact .inl old
  | discard => exact .same le_rfl le_rfl (fun _ left => .inl left.1) fun _ _ => id
  | @launch pid tid _ _ _ pending fresh =>
    refine ⟨Nat.le_succ _, le_rfl, fun left => .inl left.1, ?_⟩
    intro other process found
    by_cases same : other = pid
    · subst same
      obtain rfl := Option.some.inj ((if_pos rfl).symm.trans found)
      refine ⟨fun owned isSome => .inl ?_, .inr ⟨rfl, .inl pending⟩⟩
      by_cases isTid : owned = tid
      · exact isTid ▸ fresh.ge
      · simp [isTid] at isSome
    · have found := (if_neg same).symm.trans found
      exact ⟨fun _ owned => .inr ⟨_, found, owned⟩, .inl ⟨_, found, rfl⟩⟩
  | @spawn _ _ _ tid _ _ found fresh =>
    refine .change found rfl (fun other owned => ?_) (Nat.le_succ _)
    by_cases isTid : other = tid
    · exact .inl (isTid ▸ fresh.ge)
    · exact .inr (by simpa [isTid] using owned)
  | park _ _ found owns | reapThread _ found owns | wake _ found owns | dispatch _ _ found owns
  | kernelThread _ found _ owns =>
    exact .change_keeping found rfl (isSome_of_setThread owns)
  | exitThread _ found | finish found | collect found | reap found | bridge _ found =>
    exact .change_keeping found rfl fun _ owned => by simpa using owned
  | dropWait found hasMain | wait _ found hasMain | sleep _ _ found hasMain | stop _ found hasMain
  | notify _ found hasMain | awaken found hasMain | resumeJob found hasMain
  | handle _ _ _ found hasMain | resume _ _ found hasMain =>
    exact .change_keeping found rfl (isSome_of_setThread hasMain)
  | forget | abandon | skip | answer =>
    exact .same le_rfl le_rfl (fun _ => .inl) fun _ _ => id
  | remove =>
    refine .same le_rfl le_rfl (fun _ => .inl) fun other process stays => ?_
    dsimp only at stays
    split_ifs at stays
    exact stays

/-- Trails keep kinds and the owners of threads. -/
theorem extends_of_trail (trail : Trail Moves permits view after) : Extends view after :=
  trail.invariant .refl fun _ _ _ before _ moved => before.trans moved.extends

/-- Trails keep the bookkeeping in order. -/
theorem sound_of_trail (sound : Sound view) (trail : Trail Moves permits view after) :
    Sound after :=
  trail.invariant sound fun _ _ _ before _ moved => before.preserved moved

/-- The kernel is the process with identifier zero. -/
structure KernelFirst (view : View) : Prop where
  kernelTask : view.process pid = some process → (process.kind = .kernelTask ↔ pid = 0)
  unborn : pid ∈ view.unborn → pid ≠ 0
  drawn : 0 < view.pidBound

theorem KernelFirst.extends (first : KernelFirst view) (later : Extends view after) :
    KernelFirst after := by
  have drawn_ne : ∀ {pid : Pid}, view.pidBound ≤ pid.toNat → pid ≠ 0 := by
    rintro pid undrawn rfl
    exact absurd undrawn (Nat.not_le.mpr first.drawn)
  refine ⟨fun {pid process} found => ?_, fun pending => ?_, first.drawn.trans_le later.pidBound⟩
  · rcases (later.origin found).2 with ⟨old, foundOld, sameKind⟩ | ⟨user, pending | undrawn⟩
    · rw [sameKind]
      exact first.kernelTask foundOld
    · simp [user, first.unborn pending]
    · simp [user, drawn_ne undrawn]
  · exact (later.unborn pending).elim first.unborn drawn_ne

/-- A thread that has been drawn belongs to no process but the owner. -/
structure OwnedBy (view : View) (tid : Tid) (owner : Pid) : Prop where
  drawn : tid.toNat < view.tidBound
  only : view.process pid = some process → (process.threads tid).isSome = true → pid = owner

theorem OwnedBy.extends (owned : OwnedBy view tid owner) (later : Extends view after) :
    OwnedBy after tid owner where
  drawn := owned.drawn.trans_le later.tidBound
  only := by
    intro pid process found has
    rcases (later.origin found).1 tid has with fresh | ⟨old, foundOld, hadOld⟩
    · exact absurd fresh (Nat.not_le.mpr owned.drawn)
    · exact owned.only foundOld hadOld

theorem Sound.ownedBy (sound : Sound view) (current : view.cpu = some (pid, tid)) :
    OwnedBy view tid pid := by
  obtain ⟨process, thread, found, -, -, owns, -⟩ := sound.onCpu current
  have has : (process.threads tid).isSome = true := by simp [owns]
  exact ⟨sound.tidDrawn found has, fun otherFound otherHas =>
    sound.oneOwner otherFound found otherHas has⟩

end Lifecycle

open Lifecycle

namespace Kernel

variable {kernel after : Kernel} {cpu nextCpu : Option (Pid × Tid)}

/-- A process that is neither the kernel, nor waits to be loaded, nor owns the
terminal. -/
structure Settled (kernel : Kernel) (pid : Pid) : Prop where
  notKernel : pid ≠ 0
  drawn : pid.toNat < kernel.table.nextPid.toNat
  born : pid ∉ kernel.unborn
  background : pid ≠ kernel.terminalForegroundPid

/-- Whether a request is one for the kernel's own process. -/
def asksForKernel (program : UserProgram) : Prop :=
  program.parentPid.isNone ∧ program.name = "kernel" ∧ program.path = "kernel"

/-- The process table and the books are in order while a given thread, or none, is
on the processor. -/
structure Steady (kernel : Kernel) (cpu : Option (Pid × Tid)) : Prop where
  sound : Sound (kernel.viewAt cpu)
  kernelFirst : KernelFirst (kernel.viewAt cpu)
  current : cpu = some (pid, tid) →
    kernel.currentUserProcess = some pid ∧ kernel.currentUserThread = some tid ∧
      kernel.table.atomics = (pid, tid)
  requests : request ∈ kernel.userShellWaitRequested → kernel.Settled request.shellPid
  pendingOnce : (kernel.pendingPrograms.map UserProgram.pid).Nodup
  pendingUser : program ∈ kernel.pendingPrograms → ¬asksForKernel program
  waiters : kernel.Awaits waiter owner → OwnedBy (kernel.viewAt cpu) waiter owner

/-- The books lose entries only, except that the thread on the processor may
await an event of its own process. -/
structure KeepsBooks (kernel : Kernel) (cpu : Option (Pid × Tid)) (after : Kernel) :
    Prop where
  pending : after.pendingPrograms <:+ kernel.pendingPrograms
  requests : ∀ request ∈ after.userShellWaitRequested, request ∈ kernel.userShellWaitRequested
  foreground : after.terminalForegroundPid = kernel.terminalForegroundPid ∨
    after.terminalForegroundPid = 0
  waiters : ∀ waiter owner, after.Awaits waiter owner →
    kernel.Awaits waiter owner ∨ cpu = some (owner, waiter)

theorem Settled.keeps
    (settled : kernel.Settled pid)
    (later : kernel.table.nextPid.toNat ≤ after.table.nextPid.toNat)
    (books : kernel.KeepsBooks cpu after) :
    after.Settled pid where
  notKernel := settled.notKernel
  drawn := settled.drawn.trans_le later
  born := by
    rintro ⟨program, listed, rfl⟩
    exact settled.born ⟨program, books.pending.subset listed, rfl⟩
  background := by
    rcases books.foreground with same | none
    · exact same ▸ settled.background
    · exact none ▸ settled.notKernel

/-- Trails that only lose entries of the books keep everything in order. -/
theorem Steady.of_trail
    (steady : kernel.Steady cpu)
    (trail : Trail Moves permits (kernel.viewAt cpu) (after.viewAt nextCpu))
    (books : kernel.KeepsBooks cpu after)
    (current : ∀ pid tid, nextCpu = some (pid, tid) →
      after.currentUserProcess = some pid ∧ after.currentUserThread = some tid ∧
        after.table.atomics = (pid, tid)) :
    after.Steady nextCpu where
  sound := sound_of_trail steady.sound trail
  kernelFirst := steady.kernelFirst.extends (extends_of_trail trail)
  current := current _ _
  requests := fun listed =>
    (steady.requests (books.requests _ listed)).keeps (extends_of_trail trail).pidBound books
  pendingOnce := (books.pending.sublist.map _).nodup steady.pendingOnce
  pendingUser := fun listed => steady.pendingUser (books.pending.subset listed)
  waiters := by
    intro waiter owner awaits
    have owned : OwnedBy (kernel.viewAt cpu) waiter owner :=
      (books.waiters _ _ awaits).elim steady.waiters fun current => steady.sound.ownedBy current
    exact owned.extends (extends_of_trail trail)

/-- The books are literally the same. -/
theorem KeepsBooks.of_eq
    (pending : after.pendingPrograms = kernel.pendingPrograms)
    (requests : after.userShellWaitRequested = kernel.userShellWaitRequested)
    (foreground : after.terminalForegroundPid = kernel.terminalForegroundPid)
    (events : after.ipc.events = kernel.ipc.events) :
    kernel.KeepsBooks cpu after :=
  ⟨pending ▸ List.suffix_rfl, fun _ listed => requests ▸ listed, .inl foreground,
    fun _ _ awaits => .inl (by rwa [Awaits, events] at awaits)⟩

/-- What a call of the thread on the processor may do to the books. -/
theorem SameBooks.keeps
    (books : kernel.SameBooks after)
    (runs : kernel.Runs pid tid process owned) :
    kernel.KeepsBooks (some (pid, tid)) after where
  pending := books.pending ▸ List.suffix_rfl
  requests := fun _ listed => books.requests ▸ listed
  foreground := .inl books.foreground
  waiters := by
    intro waiter owner awaits
    refine (books.waiters awaits).imp_right fun ⟨isProcess, isThread⟩ => ?_
    rw [Option.mem_unique runs.currentProcess isProcess,
      Option.mem_unique runs.currentThread isThread]

/-- The thread on the processor runs, and looking it up finds its process. -/
theorem Steady.runs (steady : kernel.Steady (some (pid, tid))) :
    ∃ process owned, kernel.Runs pid tid process owned ∧ process.state = .running ∧
      kernel.table.getByTid tid = some process := by
  obtain ⟨process, owned, runs, running, owner⟩ := ProcessTable.runs_of_sound steady.sound
  obtain ⟨isProcess, isThread, -⟩ := steady.current rfl
  exact ⟨process, owned, ⟨isProcess, isThread, runs⟩, running, owner⟩

end Kernel

end Vantara
