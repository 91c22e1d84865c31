import Vantara.Lifecycle.View
import Vantara.Foundation.Trail

/-!
# Moves in the life of processes

Every operation of the kernel that concerns the life of processes is a sequence
of the moves below.  A move says what it needs and what it changes; everything
else stays as it is.
-/

namespace Vantara
namespace Lifecycle

open Foundation

/-- How a thread leaves the processor by its own call or by preemption. -/
inductive Parking
  /-- It stays ready. -/
  | yields (context : UserResumeContext)
  /-- It blocks, perhaps until a sibling exits. -/
  | blocks (context : UserResumeContext)
  /-- It is diverted to a signal handler. -/
  | entersHandler (original : UserResumeContext)
  /-- It returns from its signal handler. -/
  | leavesHandler (original : UserResumeContext)

/-- The thread after it has left the processor. -/
inductive Parked (thread : ThreadView) : Parking → ThreadView → Prop
  | yields : Parked thread (.yields context)
      { thread with state := .ready, context := some context }
  | blocks (joining : Option Tid) : Parked thread (.blocks context)
      { thread with state := .blocked, context := some context, joining := joining }
  | entersHandler (handler signal : UInt64) (free : thread.interrupted = none) :
      Parked thread (.entersHandler original)
        { thread with
          state := .ready
          context := some { original with rip := handler, rdi := signal, rax := 0 }
          interrupted := some original }
  | leavesHandler (active : thread.interrupted = some original) :
      Parked thread (.leavesHandler original)
        { thread with state := .ready, context := some original, interrupted := none }

/-- The moves. -/
inductive Move
  | drawTid
  | request (pid : Pid)
  | discard (pid : Pid)
  | launch (pid : Pid)
  | spawn (pid : Pid) (tid : Tid)
  | park (pid : Pid) (tid : Tid) (parking : Parking)
  | exitThread (pid : Pid) (tid : Tid)
  | reapThread (pid : Pid) (tid : Tid)
  | wake (pid : Pid) (tid : Tid)
  | finish (pid : Pid) (parent : Option Pid) (status : UInt64)
  | collect (parent child : Pid) (status : UInt64)
  | reap (pid : Pid)
  | dropWait (pid child : Pid)
  | wait (pid : Pid) (caller main : Tid) (child : Pid) (context : UserResumeContext)
  | sleep (pid : Pid) (caller main : Tid) (context : UserResumeContext)
  | forget (pid : Pid)
  | stop (pid : Pid) (signal : UInt64)
  | notify (pid child : Pid) (status : UInt64)
  | awaken (pid : Pid)
  | resumeJob (pid : Pid)
  | handle (pid : Pid) (main : Tid)
  | abandon
  | remove (pid : Pid)
  | resume (pid : Pid) (main : Tid) (child : Pid) (context : UserResumeContext)
      (status : UInt64)
  | bridge (pid : Pid)
  | skip (tid : Tid)
  | dispatch (pid : Pid) (tid : Tid) (context : UserResumeContext)
  | kernelThread (pid : Pid) (tid : Tid)
  | answer (pid child : Pid) (status : UInt64)

/-- What leaving the processor adds to the history, latest first. -/
def Parking.events (tid : Tid) : Parking → List TraceEvent
  | .yields context | .blocks context => [.saved tid tid context]
  | .entersHandler original => [.handled tid, .saved tid tid original]
  | .leavesHandler original => [.saved tid tid original, .restored tid]

/-- Whether a thread is blocked until the given sibling exits. -/
def ThreadView.Joins (target : Tid) (thread : ThreadView) : Prop :=
  thread.state = .blocked ∧ thread.joining = some target

open Classical in
/-- The threads after one of them has exited: those that joined it are woken. -/
@[simps]
noncomputable def ProcessView.exitThread
    (process : ProcessView) (target : Tid) (state : ThreadState) : ProcessView :=
  { process with
    threads := fun tid => (process.threads tid).map fun thread =>
      if tid = target then
        { thread with state := state, context := none, joining := none }
      else if thread.Joins target then
        { thread with
          state := .ready
          joining := none
          context := thread.context.map fun context => { context with rax := 0 } }
      else
        thread }

/-- The threads that an exit wakes. -/
def ProcessView.joiners (process : ProcessView) (target : Tid) : Set Tid :=
  { tid | ∃ thread, tid ≠ target ∧ process.threads tid = some thread ∧ thread.Joins target }

/-- A thread that has never run and starts at a context. -/
def ThreadView.starting (context : UserResumeContext) : ThreadView :=
  ⟨.ready, some context, none, none⟩

/-- A process that has just been loaded and is on the processor. -/
@[simps]
def ProcessView.launched (parent : Option Pid) (jobMode : JobMode) (tid : Tid) : ProcessView where
  parent := parent
  kind := .userProcess
  jobMode := jobMode
  state := .running
  status := none
  waitingFor := none
  sleepingUntil := none
  mainTid := tid
  threads := fun other => if other = tid then some ⟨.running, none, none, none⟩ else none

/-- Whether an event tells a parent a status about a child: the status with which
it ended, or the signal that stopped it. -/
inductive Tells (parent child : Pid) : TraceEvent → UInt64 → Prop
  | collected : Tells parent child (.collected parent child status) status
  | stopped : Tells parent child (.stopped child signal) (128 + signal)

/-- The moves and what they change. -/
inductive Moves (view : View) : Move → View → Prop
  | drawTid {bound}
      (later : view.tidBound ≤ bound) :
      Moves view .drawTid { view with tidBound := bound }
  | request {pid}
      (fresh : pid.toNat = view.pidBound) :
      Moves view (.request pid)
        { view with
          pidBound := view.pidBound + 1
          unborn := insert pid view.unborn }
  | discard {pid}
      (pending : pid ∈ view.unborn) :
      Moves view (.discard pid) { view with unborn := view.unborn \ {pid} }
  | launch {pid tid} (parent : Option Pid) (jobMode : JobMode)
      (idle : view.cpu = none)
      (pending : pid ∈ view.unborn)
      (fresh : tid.toNat = view.tidBound) :
      Moves view (.launch pid)
        { view.setProcess pid (.launched parent jobMode tid) with
          tidBound := view.tidBound + 1
          unborn := view.unborn \ {pid}
          cpu := some (pid, tid) }
  | spawn {pid caller process tid} (context : UserResumeContext)
      (current : view.cpu = some (pid, caller))
      (found : view.process pid = some process)
      (fresh : tid.toNat = view.tidBound) :
      Moves view (.spawn pid tid)
        { view.setProcess pid (process.setThread tid (.starting context)).refresh with
          queue := insert tid view.queue
          tidBound := view.tidBound + 1 }
  | park {pid tid process thread parking after} (sleepingUntil : Option UInt64)
      (current : view.cpu = some (pid, tid))
      (found : view.process pid = some process)
      (owns : process.threads tid = some thread)
      (parked : Parked thread parking after)
      (sleep : sleepingUntil = none ∨ sleepingUntil = process.sleepingUntil) :
      Moves view (.park pid tid parking)
        { view.setProcess pid
            ({ process with sleepingUntil := sleepingUntil }.setThread tid after).refresh with
          queue := { queued | queued ∈ view.queue ∨ queued = tid ∧ after.state = .ready }
          trace := parking.events tid ++ view.trace
          cpu := none }
  | exitThread {pid tid process state}
      (current : view.cpu = some (pid, tid))
      (found : view.process pid = some process)
      (notMain : tid ≠ process.mainTid)
      (terminal : state.terminal = true) :
      Moves view (.exitThread pid tid)
        { view.setProcess pid (process.exitThread tid state).refresh with
          queue := (view.queue \ {tid}) ∪ process.joiners tid
          cpu := none }
  | reapThread {pid caller process tid thread}
      (current : view.cpu = some (pid, caller))
      (found : view.process pid = some process)
      (owns : process.threads tid = some thread)
      (exited : thread.state = .exited) :
      Moves view (.reapThread pid tid)
        (view.setProcess pid (process.setThread tid { thread with state := .reaped }))
  | wake {pid caller process tid thread context}
      (current : view.cpu = some (pid, caller))
      (found : view.process pid = some process)
      (owns : process.threads tid = some thread)
      (blocked : thread.state = .blocked)
      (saved : thread.context = some context) :
      Moves view (.wake pid tid)
        { view.setProcess pid
            (process.setThread tid
              { thread with
                state := .ready
                context := some { context with rax := 0 }
                joining := none }).refresh with
          queue := insert tid view.queue }
  | finish {pid process status}
      (found : view.process pid = some process)
      (user : process.kind = .userProcess)
      (live : process.state.terminal = false) :
      Moves view (.finish pid process.parent status)
        { view.setProcess pid
            ({ process with status := some status, sleepingUntil := none }.ended
              (if process.parent.isSome then .zombie else .exited)) with
          queue := view.queue \ process.tids
          trace := .ended pid process.parent status :: view.trace
          cpu := view.cpu.filter fun current => decide (current.1 ≠ pid) }
  | collect {parent child process status}
      (found : view.process child = some process)
      (isOver : process.state = .exited ∨ process.state = .zombie)
      (child_of : process.parent = some parent)
      (kept : process.status.getD 0 = status) :
      Moves view (.collect parent child status)
        { view.setProcess child (process.ended .reaped) with
          trace := .collected parent child status :: view.trace }
  | reap {pid process}
      (found : view.process pid = some process)
      (isOver : process.state = .zombie) :
      Moves view (.reap pid) (view.setProcess pid (process.ended .reaped))
  | dropWait {pid process main child}
      (found : view.process pid = some process)
      (hasMain : process.threads process.mainTid = some main)
      (waiting : process.waitingFor = some child) :
      Moves view (.dropWait pid child)
        (view.setProcess pid
          ({ process with waitingFor := none }.setThread process.mainTid
            { main with context := none }))
  | wait {pid caller process main child context}
      (current : view.cpu = some (pid, caller))
      (found : view.process pid = some process)
      (hasMain : process.threads process.mainTid = some main)
      (pending : child ∈ view.unborn) :
      Moves view (.wait pid caller process.mainTid child context)
        { view.setProcess pid
            ({ process with waitingFor := some child, sleepingUntil := none }.setMain .blocked
              { main with state := .blocked, context := some context }) with
          queue := view.queue \ process.tids
          trace := .waiting pid caller child :: .saved caller process.mainTid context ::
            view.trace
          cpu := none }
  | sleep {pid caller process main context} (wakeTick : UInt64)
      (current : view.cpu = some (pid, caller))
      (found : view.process pid = some process)
      (hasMain : process.threads process.mainTid = some main)
      (running : process.state = .running) :
      Moves view (.sleep pid caller process.mainTid context)
        { view.setProcess pid
            ({ process with waitingFor := none, sleepingUntil := some wakeTick }.setMain .blocked
              { main with state := .blocked, context := some context }) with
          queue := view.queue \ process.tids
          trace := .saved caller process.mainTid context :: view.trace
          cpu := none }
  | forget {pid process}
      (found : view.process pid = some process)
      (spent : process.kind = .kernelTask ∨ process.state.terminal = true ∨
        process.state = .stopped) :
      Moves view (.forget pid) { view with queue := view.queue \ process.tids }
  | stop {pid process main signal}
      (idle : view.cpu = none)
      (found : view.process pid = some process)
      (hasMain : process.threads process.mainTid = some main)
      (user : process.kind = .userProcess)
      (live : process.state.terminal = false)
      (notStopped : process.state ≠ .stopped) :
      Moves view (.stop pid signal)
        { view.setProcess pid
            ({ process with sleepingUntil := none }.setMain .stopped
              { main with state := .stopped }) with
          queue := view.queue \ process.tids
          trace := .stopped pid signal :: view.trace }
  | notify {pid process main child status} (sleepingUntil : Option UInt64)
      (found : view.process pid = some process)
      (hasMain : process.threads process.mainTid = some main)
      (blocked : process.state = .blocked)
      (waiting : process.waitingFor = some child)
      (sleep : sleepingUntil = none ∨ sleepingUntil = process.sleepingUntil)
      (told : ∃ event earlier, view.trace = event :: earlier ∧
        Tells pid child event status) :
      Moves view (.notify pid child status)
        { view.setProcess pid
            ({ process with waitingFor := none, sleepingUntil := sleepingUntil }.setMain .ready
              { main with
                state := .ready
                context := main.context.map fun (context : UserResumeContext) =>
                  { context with rax := status } }) with
          queue := insert process.mainTid view.queue }
  | awaken {pid process main}
      (found : view.process pid = some process)
      (hasMain : process.threads process.mainTid = some main)
      (blocked : process.state = .blocked)
      (sleeping : process.sleepingUntil.isSome = true) :
      Moves view (.awaken pid)
        { view.setProcess pid
            ({ process with sleepingUntil := none }.setMain .ready
              { main with state := .ready }) with
          queue := insert process.mainTid view.queue }
  | resumeJob {pid process main}
      (found : view.process pid = some process)
      (hasMain : process.threads process.mainTid = some main)
      (stopped : process.state = .stopped) :
      Moves view (.resumeJob pid)
        { view.setProcess pid (process.setMain .ready { main with state := .ready }) with
          queue := insert process.mainTid view.queue
          trace := .continued pid :: view.trace }
  | handle {pid process main original} (handler signal : UInt64)
      (elsewhere : ∀ tid, view.cpu ≠ some (pid, tid))
      (found : view.process pid = some process)
      (hasMain : process.threads process.mainTid = some main)
      (user : process.kind = .userProcess)
      (live : process.state.terminal = false)
      (free : main.interrupted = none)
      (saved : main.context = some original) :
      Moves view (.handle pid process.mainTid)
        { view.setProcess pid
            ({ process with waitingFor := none, sleepingUntil := none }.setThread
              process.mainTid
              ⟨.ready, some { original with rip := handler, rdi := signal, rax := 0 },
                some original, none⟩).refresh with
          queue := insert process.mainTid view.queue
          trace := .handled process.mainTid :: view.trace }
  | abandon :
      Moves view .abandon { view with cpu := none }
  | remove {pid process}
      (found : view.process pid = some process)
      (reaped : process.state = .reaped) :
      Moves view (.remove pid)
        { view with
          process := fun other => if other = pid then none else view.process other
          queue := view.queue \ process.tids }
  | resume {pid process main child context} (status : UInt64)
      (idle : view.cpu = none)
      (found : view.process pid = some process)
      (hasMain : process.threads process.mainTid = some main)
      (user : process.kind = .userProcess)
      (blocked : process.state = .blocked)
      (waiting : process.waitingFor = some child)
      (saved : main.context = some context)
      (collected : ∃ earlier, view.trace = .collected pid child status :: earlier) :
      Moves view (.resume pid process.mainTid child context status)
        { view.setProcess pid
            ({ process with waitingFor := none, sleepingUntil := none }.setMain .running
              { main with state := .running, context := none }) with
          trace := .dispatched pid process.mainTid { context with rax := status } :: view.trace
          cpu := some (pid, process.mainTid) }
  | bridge {pid process}
      (idle : view.cpu = none)
      (found : view.process pid = some process)
      (user : process.kind = .userProcess) :
      Moves view (.bridge pid)
        { view.setProcess pid
            { process.ended .reaped with
              status := some (process.status.getD 0)
              waitingFor := none
              sleepingUntil := none } with
          queue := view.queue \ process.tids }
  | skip {tid}
      (unready : ∀ pid process thread, view.process pid = some process →
        process.threads tid = some thread → thread.state = .ready → thread.context = none) :
      Moves view (.skip tid) { view with queue := view.queue \ {tid} }
  | dispatch {pid tid process thread context}
      (idle : view.cpu = none)
      (queued : tid ∈ view.queue)
      (found : view.process pid = some process)
      (owns : process.threads tid = some thread)
      (ready : thread.state = .ready)
      (saved : thread.context = some context) :
      Moves view (.dispatch pid tid context)
        { view.setProcess pid
            (process.setThread tid
              { thread with state := .running, context := none }).refresh with
          queue := view.queue \ {tid}
          trace := .dispatched pid tid context :: view.trace
          cpu := some (pid, tid) }
  | kernelThread {pid tid process thread} (state : ThreadState)
      (found : view.process pid = some process)
      (kernel : process.kind = .kernelTask)
      (owns : process.threads tid = some thread) :
      Moves view (.kernelThread pid tid)
        (view.setProcess pid (process.setThread tid { thread with state := state }).refresh)
  | answer {pid child status}
      (collected : ∃ earlier, view.trace = .collected pid child status :: earlier) :
      Moves view (.answer pid child status)
        { view with trace := .answered pid child status :: view.trace }

/-- Moves that nothing but their own needs restricts.  The others act on a process
as a whole whatever its threads do, or leave a running thread off the processor. -/
def Move.free : Move → Bool
  | .wait _ _ _ _ _ | .sleep _ _ _ _ | .stop _ _ | .handle _ _ | .bridge _ | .abandon => false
  | _ => true

/-- Trails of free moves. -/
abbrev FreeTrail : View → View → Prop :=
  Trail Moves fun _ move => move.free = true

/-- Trails of free moves and of moves of a given kind made at the start. -/
abbrev CausedTrail (cause : Move → Prop) (first : View) : View → Prop :=
  Trail Moves (fun view move => move.free = true ∨ view = first ∧ cause move) first

theorem CausedTrail.of_free (trail : FreeTrail first last) : CausedTrail cause first last :=
  trail.mono fun _ _ => .inl

/-- A move of the given kind, followed by free ones. -/
theorem CausedTrail.cons (moved : Moves first move middle)
    (caused : cause move)
    (trail : FreeTrail middle last) :
    CausedTrail cause first last :=
  (Trail.single (.inr ⟨rfl, caused⟩) moved).trans (trail.mono fun _ _ => .inl)

/-- A thread that stays ready joins the queue when it leaves the processor. -/
theorem Moves.park_ready (sleepingUntil : Option UInt64)
    (current : view.cpu = some (pid, tid))
    (found : view.process pid = some process)
    (owns : process.threads tid = some thread)
    (parked : Parked thread parking after)
    (sleep : sleepingUntil = none ∨ sleepingUntil = process.sleepingUntil)
    (ready : after.state = .ready) :
    Moves view (.park pid tid parking)
      { view.setProcess pid
          ({ process with sleepingUntil := sleepingUntil }.setThread tid after).refresh with
        queue := insert tid view.queue
        trace := parking.events tid ++ view.trace
        cpu := none } := by
  have sameQueue : insert tid view.queue =
      { queued | queued ∈ view.queue ∨ queued = tid ∧ after.state = .ready } := by
    ext queued
    simp [ready, or_comm]
  rw [sameQueue]
  exact .park sleepingUntil current found owns parked sleep

/-- A thread that blocks does not join the queue. -/
theorem Moves.park_blocked
    (current : view.cpu = some (pid, tid))
    (found : view.process pid = some process)
    (owns : process.threads tid = some thread)
    (parked : Parked thread parking after)
    (blocked : after.state = .blocked) :
    Moves view (.park pid tid parking)
      { view.setProcess pid (process.setThread tid after).refresh with
        trace := parking.events tid ++ view.trace
        cpu := none } := by
  have sameQueue : view.queue =
      { queued | queued ∈ view.queue ∨ queued = tid ∧ after.state = .ready } := by
    ext queued
    simp [blocked]
  have moved := Moves.park process.sleepingUntil current found owns parked (.inr rfl)
  rwa [← sameQueue] at moved

theorem Moves.of_eq (moved : Moves view move after) (same : reached = after) :
    Moves view move reached :=
  same ▸ moved

end Lifecycle
end Vantara
