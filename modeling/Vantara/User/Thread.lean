import Vantara.Foundation.KeyedStore
import Vantara.Foundation.Word

/-!
# Threads and the threads of one process

A thread owns an execution state and, while it is off the processor, the
register context from which it resumes.  A process keeps its threads in a store
that always holds the main thread.
-/

namespace Vantara

open Foundation

/-- Process identifiers. -/
abbrev Pid := UInt32

/-- Thread identifiers, drawn from one namespace for all processes. -/
abbrev Tid := UInt32

/-- The user registers as the interrupt entry stub saves them. -/
structure SyscallFrame where
  number : UInt64
  arg0 : UInt64
  arg1 : UInt64
  arg2 : UInt64
  arg3 : UInt64
  arg4 : UInt64
  arg5 : UInt64
  userRip : UInt64
  userRsp : UInt64
  userRflags : UInt64
  rbx : UInt64
  rcx : UInt64
  rdx : UInt64
  rsi : UInt64
  rdi : UInt64
  rbp : UInt64
  r8 : UInt64
  r9 : UInt64
  r10 : UInt64
  r11 : UInt64
  r12 : UInt64
  r13 : UInt64
  r14 : UInt64
  r15 : UInt64
  deriving DecidableEq, Repr

/-- The registers with which a thread returns to user mode. -/
structure UserResumeContext where
  rip : UInt64
  rsp : UInt64
  rflags : UInt64
  rbx : UInt64
  rcx : UInt64
  rdx : UInt64
  rsi : UInt64
  rdi : UInt64
  rbp : UInt64
  r8 : UInt64
  r9 : UInt64
  r10 : UInt64
  r11 : UInt64
  r12 : UInt64
  r13 : UInt64
  r14 : UInt64
  r15 : UInt64
  rax : UInt64
  deriving DecidableEq, Repr

namespace UserResumeContext

/-- Cleared registers with interrupts enabled. -/
def empty : UserResumeContext where
  rip := 0
  rsp := 0
  rflags := 0x202
  rbx := 0
  rcx := 0
  rdx := 0
  rsi := 0
  rdi := 0
  rbp := 0
  r8 := 0
  r9 := 0
  r10 := 0
  r11 := 0
  r12 := 0
  r13 := 0
  r14 := 0
  r15 := 0
  rax := 0

/-- The context after a system call, whose result register starts at zero. -/
def fromSyscallFrame (frame : SyscallFrame) : UserResumeContext where
  rip := frame.userRip
  rsp := frame.userRsp
  rflags := frame.userRflags
  rbx := frame.rbx
  rcx := frame.rcx
  rdx := frame.rdx
  rsi := frame.rsi
  rdi := frame.rdi
  rbp := frame.rbp
  r8 := frame.r8
  r9 := frame.r9
  r10 := frame.r10
  r11 := frame.r11
  r12 := frame.r12
  r13 := frame.r13
  r14 := frame.r14
  r15 := frame.r15
  rax := 0

end UserResumeContext

/-- Whether a thread runs kernel or user code. -/
inductive ThreadKind
  | kernel
  | user
  deriving DecidableEq, Repr

/-- Execution states of a thread. -/
inductive ThreadState
  | created
  | ready
  | running
  | blocked
  | stopped
  | exited
  | zombie
  | reaped
  deriving DecidableEq, Repr

/-- One schedulable flow of control. -/
structure Thread where
  tid : Tid
  processId : Pid
  kind : ThreadKind
  state : ThreadState
  /-- Where the thread resumes; absent while it runs. -/
  resumeContext : Option UserResumeContext
  /-- The interrupted context while a signal handler is active. -/
  signalReturnContext : Option UserResumeContext
  contextSwitches : UInt64
  runtimeTicks : UInt64
  lastStartedTick : Option UInt64
  userStackStart : Option UInt64
  userStackTop : Option UInt64
  /-- Whether the kernel reserved the stack from the private slots. -/
  kernelManagedStack : Bool
  /-- The sibling whose exit this thread awaits. -/
  waitingFor : Option Tid
  deriving DecidableEq, Repr

namespace Thread

/-- A thread that has not started. -/
def new (tid : Tid) (processId : Pid) (kind : ThreadKind) : Thread where
  tid := tid
  processId := processId
  kind := kind
  state := .created
  resumeContext := none
  signalReturnContext := none
  contextSwitches := 0
  runtimeTicks := 0
  lastStartedTick := none
  userStackStart := none
  userStackTop := none
  kernelManagedStack := false
  waitingFor := none

/-- The thread with a user stack. -/
def withUserStack (thread : Thread) (stackStart stackTop : UInt64) : Thread :=
  { thread with userStackStart := some stackStart, userStackTop := some stackTop }

/-- The thread whose stack the kernel reclaims. -/
def withKernelManagedStack (thread : Thread) : Thread :=
  { thread with kernelManagedStack := true }

/-- Account for the time since the thread was last started. -/
def stopRun (now : UInt64) (thread : Thread) : Thread :=
  match thread.lastStartedTick with
  | none => thread
  | some startedAt =>
    { thread with
      lastStartedTick := none
      runtimeTicks :=
        Word.saturatingAdd thread.runtimeTicks (Word.saturatingSub now startedAt) }

/-- Note that the thread is put on the processor. -/
def startRun (now : UInt64) (thread : Thread) : Thread :=
  { thread with
    contextSwitches := Word.saturatingAdd thread.contextSwitches 1
    lastStartedTick := some now }

@[simp] theorem startRun_tid : (startRun now thread).tid = thread.tid :=
  rfl

@[simp] theorem stopRun_tid : (stopRun now thread).tid = thread.tid := by
  unfold stopRun
  split <;> rfl

@[simp] theorem stopRun_kind : (stopRun now thread).kind = thread.kind := by
  unfold stopRun
  split <;> rfl

@[simp] theorem stopRun_state : (stopRun now thread).state = thread.state := by
  unfold stopRun
  split <;> rfl

@[simp] theorem stopRun_resumeContext :
    (stopRun now thread).resumeContext = thread.resumeContext := by
  unfold stopRun
  split <;> rfl

@[simp] theorem stopRun_signalReturnContext :
    (stopRun now thread).signalReturnContext = thread.signalReturnContext := by
  unfold stopRun
  split <;> rfl

@[simp] theorem stopRun_waitingFor : (stopRun now thread).waitingFor = thread.waitingFor := by
  unfold stopRun
  split <;> rfl

end Thread

/-- At most this many threads share a process. -/
def maxThreadsPerProcess : Nat := 16

/-- The threads of a process, the main thread among them. -/
structure ThreadStore where
  mainTid : Tid
  store : KeyedStore Thread Thread.tid
  /-- The main thread is never dropped. -/
  mainPresent : (store.get mainTid).isSome = true

namespace ThreadStore

/-- The store of a process that has only its main thread. -/
def withMain (main : Thread) : ThreadStore where
  mainTid := main.tid
  store := .singleton main
  mainPresent := by simp

section

variable (threads : ThreadStore)

/-- The threads, oldest first. -/
def values : List Thread :=
  threads.store.items

/-- The thread with an identifier. -/
def get (tid : Tid) : Option Thread :=
  threads.store.get tid

/-- The main thread. -/
def main : Thread :=
  (threads.store.get threads.mainTid).get threads.mainPresent

/-- Change one thread, leaving its identifier alone. -/
def modify (tid : Tid)
    (change : Thread → Thread)
    (keepsTid : ∀ thread, (change thread).tid = thread.tid) :
    ThreadStore where
  mainTid := threads.mainTid
  store := threads.store.modify tid change keepsTid
  mainPresent := by
    rw [KeyedStore.get_modify]
    split_ifs <;> simp [threads.mainPresent]

/-- Change every thread, leaving the identifiers alone. -/
def modifyAll
    (change : Thread → Thread)
    (keepsTid : ∀ thread, (change thread).tid = thread.tid) :
    ThreadStore where
  mainTid := threads.mainTid
  store := threads.store.modifyAll change keepsTid
  mainPresent := by
    simp [threads.mainPresent]

/-- Add a thread; refused when the process is full, or the thread belongs to
another process, or its identifier is taken. -/
def insert (thread : Thread) : Option ThreadStore :=
  if threads.values.length ≥ maxThreadsPerProcess
      ∨ thread.processId ≠ threads.main.processId
      ∨ (threads.get thread.tid).isSome then
    none
  else
    some
      { mainTid := threads.mainTid
        store := threads.store.insert thread
        mainPresent := by
          rw [KeyedStore.get_insert]
          split_ifs <;> simp [threads.mainPresent] }

/-- Whether a stack range is nonempty and meets no stack of the process. -/
def stackRangeAvailable (stackStart stackTop : UInt64) : Bool :=
  decide (stackStart < stackTop) &&
    threads.values.all fun thread =>
      match thread.userStackStart, thread.userStackTop with
      | some existingStart, some existingTop =>
        decide (stackTop ≤ existingStart) || decide (stackStart ≥ existingTop)
      | _, _ => true

@[simp] theorem get_mainTid : threads.get threads.mainTid = some threads.main := by
  simp [get, main]

end

theorem tid_of_get {threads : ThreadStore} (found : threads.get tid = some thread) :
    thread.tid = tid :=
  KeyedStore.key_of_get found

theorem mem_values_iff {threads : ThreadStore} :
    thread ∈ threads.values ↔ threads.get thread.tid = some thread :=
  ⟨KeyedStore.get_of_mem, KeyedStore.mem_of_get⟩

@[simp] theorem get_withMain :
    (withMain thread).get tid = if tid = thread.tid then some thread else none :=
  KeyedStore.get_singleton

theorem main_withMain : (withMain thread).main = thread := by
  simp [main, withMain]

@[simp] theorem get_modify (threads : ThreadStore) (target : Tid)
    (change : Thread → Thread)
    (keepsTid : ∀ thread, (change thread).tid = thread.tid) :
    (threads.modify target change keepsTid).get tid =
      if tid = target then (threads.get tid).map change else threads.get tid :=
  threads.store.get_modify target change keepsTid

@[simp] theorem get_modifyAll (threads : ThreadStore)
    (change : Thread → Thread)
    (keepsTid : ∀ thread, (change thread).tid = thread.tid) :
    (threads.modifyAll change keepsTid).get tid = (threads.get tid).map change :=
  threads.store.get_modifyAll change keepsTid

/-- An accepted thread is new to the process and joins the threads it had. -/
theorem insert_eq_some {threads extended : ThreadStore}
    (inserted : threads.insert thread = some extended) :
    threads.get thread.tid = none ∧
      extended.mainTid = threads.mainTid ∧
      ∀ tid, extended.get tid = if tid = thread.tid then some thread else threads.get tid := by
  unfold insert at inserted
  split_ifs at inserted with refused
  cases inserted
  push Not at refused
  refine ⟨by simpa using refused.2.2, rfl, fun tid => ?_⟩
  exact KeyedStore.get_insert _ _

end ThreadStore

end Vantara
