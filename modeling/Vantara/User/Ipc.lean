import Vantara.User.Process

/-!
# Descriptors, pipes, events and message queues

The bounded tables in which the kernel keeps what processes have opened.  All of
it belongs to one process at a time: look-ups compare the owner, and the end of
a process closes everything it owned.
-/

namespace Vantara

/-- Errors a system call reports. -/
inductive SyscallError
  | unknownSyscall
  | invalidArgument
  | notImplemented
  | noSuchProcess
  | notChild
  | wouldBlock
  | permissionDenied
  deriving DecidableEq, Repr

/-- The error as it appears in the result register: the two's complement of its
negative code. -/
def SyscallError.code : SyscallError → UInt64
  | .unknownSyscall => 0 - 1
  | .invalidArgument => 0 - 2
  | .notImplemented => 0 - 3
  | .noSuchProcess => 0 - 4
  | .notChild => 0 - 5
  | .wouldBlock => 0 - 6
  | .permissionDenied => 0 - 7

/-- A node of a mounted file system. -/
structure VfsNodeId where
  mount : UInt16
  inode : UInt64
  deriving DecidableEq, Repr

/-- Files and directories. -/
inductive FileType
  | file
  | directory
  deriving DecidableEq, Repr

/-- What a path resolves to. -/
structure OpenTarget where
  path : NormalizedPath
  fileType : FileType
  readonly : Bool
  node : VfsNodeId
  deriving DecidableEq, Repr

/-- What a descriptor refers to. -/
inductive Descriptor
  | file (target : OpenTarget) (offset : Nat)
  | directory (path : NormalizedPath) (offset : Nat)
  | pipeRead (pipeId : UInt64)
  | pipeWrite (pipeId : UInt64)
  deriving DecidableEq, Repr

/-- An open descriptor of a process. -/
structure OpenFile where
  pid : Pid
  fd : UInt64
  descriptor : Descriptor
  deriving DecidableEq, Repr

/-- Bytes a pipe holds. -/
def pipeCapacity : Nat := 256

/-- A ring of bytes between two descriptors of a process. -/
structure Pipe where
  id : UInt64
  ownerPid : Pid
  bytes : List UInt8
  readIndex : Nat
  len : Nat
  readers : Nat
  writers : Nat
  deriving DecidableEq, Repr

namespace Pipe

/-- An empty pipe with one reader and one writer. -/
def new (id : UInt64) (ownerPid : Pid) : Pipe :=
  ⟨id, ownerPid, List.replicate pipeCapacity 0, 0, 0, 1, 1⟩

/-- Put one byte behind the last one. -/
def pushByte (pipe : Pipe) (byte : UInt8) : Pipe :=
  { pipe with
    bytes := pipe.bytes.set ((pipe.readIndex + pipe.len) % pipeCapacity) byte
    len := pipe.len + 1 }

/-- Write as much as fits. -/
def write (pipe : Pipe) (source : List UInt8) : Except SyscallError (Nat × Pipe) :=
  if pipe.readers = 0 then
    .error .invalidArgument
  else if pipe.len = pipeCapacity then
    .error .wouldBlock
  else
    let count := min source.length (pipeCapacity - pipe.len)
    .ok (count, (source.take count).foldl pushByte pipe)

/-- Take the given number of bytes, oldest first. -/
def popBytes : Nat → Pipe → List UInt8 × Pipe
  | 0, pipe => ([], pipe)
  | count + 1, pipe =>
    let rest := popBytes count
      { pipe with
        readIndex := (pipe.readIndex + 1) % pipeCapacity
        len := pipe.len - 1 }
    (pipe.bytes.getD pipe.readIndex 0 :: rest.1, rest.2)

/-- Read at most the given number of bytes. -/
def read (pipe : Pipe) (capacity : Nat) : Except SyscallError (List UInt8 × Pipe) :=
  if pipe.len = 0 then
    if pipe.writers = 0 then .ok ([], pipe) else .error .wouldBlock
  else
    .ok (popBytes (min capacity pipe.len) pipe)

end Pipe

/-- Threads that may wait for one event. -/
def maxEventWaiters : Nat := maxThreadsPerProcess

/-- An event on which threads of its owner wait in order. -/
structure Event where
  id : UInt64
  ownerPid : Pid
  signaled : Bool
  waiters : List (Option Tid)
  waiterCount : Nat
  deriving DecidableEq, Repr

namespace Event

/-- An event that nobody waits for. -/
def new (id : UInt64) (ownerPid : Pid) : Event :=
  ⟨id, ownerPid, false, List.replicate maxEventWaiters none, 0⟩

/-- Let a thread wait; refused when the event is full or the thread waits. -/
def enqueue (event : Event) (tid : Tid) : Option Event :=
  if event.waiterCount = event.waiters.length ∨
      (event.waiters.take event.waiterCount).contains (some tid) then
    none
  else
    some
      { event with
        waiters := event.waiters.set event.waiterCount (some tid)
        waiterCount := event.waiterCount + 1 }

/-- Move the given number of entries, from an index on, one place to the front. -/
def shift (waiters : List (Option Tid)) (index : Nat) : Nat → List (Option Tid)
  | 0 => waiters
  | count + 1 =>
    shift (waiters.set (index - 1) (waiters.getD index none)) (index + 1) count

/-- Close the gap at a position. -/
def closeGap (event : Event) (position : Nat) : Event :=
  { event with
    waiters := (shift event.waiters (position + 1)
      (event.waiterCount - (position + 1))).set (event.waiterCount - 1) none
    waiterCount := event.waiterCount - 1 }

/-- Take the thread that has waited longest. -/
def dequeue (event : Event) : Option (Tid × Event) :=
  match event.waiters.getD 0 none with
  | some tid => some (tid, event.closeGap 0)
  | none => none

/-- Let a thread wait no longer. -/
def remove (event : Event) (tid : Tid) : Event :=
  match (event.waiters.take event.waiterCount).findIdx? (fun waiter => waiter = some tid) with
  | some position => event.closeGap position
  | none => event

end Event

/-- Bytes of one message. -/
def maxMessageSize : Nat := 64

/-- Messages of one queue. -/
def messageQueueDepth : Nat := 8

/-- A slot for a message, of which the first bytes count. -/
structure Message where
  bytes : List UInt8
  len : Nat
  deriving DecidableEq, Repr

namespace Message

/-- A slot without a message. -/
def empty : Message := ⟨List.replicate maxMessageSize 0, 0⟩

/-- Copy a message over the front of the slot. -/
def copyFrom (message : Message) (source : List UInt8) : Message :=
  ⟨source ++ message.bytes.drop source.length, source.length⟩

/-- The bytes that count. -/
def payload (message : Message) : List UInt8 :=
  message.bytes.take message.len

end Message

/-- A ring of messages. -/
structure MessageQueue where
  id : UInt64
  ownerPid : Pid
  messages : List Message
  readIndex : Nat
  len : Nat
  deriving DecidableEq, Repr

namespace MessageQueue

/-- An empty queue. -/
def new (id : UInt64) (ownerPid : Pid) : MessageQueue :=
  ⟨id, ownerPid, List.replicate messageQueueDepth .empty, 0, 0⟩

/-- Append a message. -/
def send (queue : MessageQueue) (source : List UInt8) : Except SyscallError (Nat × MessageQueue) :=
  if source.isEmpty ∨ maxMessageSize < source.length then
    .error .invalidArgument
  else if queue.len = messageQueueDepth then
    .error .wouldBlock
  else
    let index := (queue.readIndex + queue.len) % messageQueueDepth
    .ok (source.length,
      { queue with
        messages := queue.messages.set index
          ((queue.messages.getD index .empty).copyFrom source)
        len := queue.len + 1 })

/-- Take the oldest message if it fits. -/
def receive (queue : MessageQueue) (capacity : Nat) :
    Except SyscallError (List UInt8 × MessageQueue) :=
  if queue.len = 0 then
    .error .wouldBlock
  else
    let message := queue.messages.getD queue.readIndex .empty
    if capacity < message.len then
      .error .invalidArgument
    else
      .ok (message.payload,
        { queue with
          messages := queue.messages.set queue.readIndex .empty
          readIndex := (queue.readIndex + 1) % messageQueueDepth
          len := queue.len - 1 })

end MessageQueue

/-- The tables of everything processes have opened. -/
structure Ipc where
  openFiles : List (Option OpenFile)
  pipes : List (Option Pipe)
  nextPipeId : UInt64
  events : List (Option Event)
  nextEventId : UInt64
  messageQueues : List (Option MessageQueue)
  nextMessageQueueId : UInt64

namespace Ipc

/-- Nothing is open. -/
def new : Ipc where
  openFiles := List.replicate 16 none
  pipes := List.replicate 8 none
  nextPipeId := 1
  events := List.replicate 16 none
  nextEventId := 1
  messageQueues := List.replicate 8 none
  nextMessageQueueId := 1

/-- The first occupied slot that passes a test. -/
def findSlot (test : α → Bool) (slots : List (Option α)) : Option α :=
  (slots.find? (Option.any test)).join

/-- Write the first occupied slot that passes a test. -/
def setSlot (test : α → Bool) (value : Option α) (slots : List (Option α)) : List (Option α) :=
  modifyFirst (Option.any test) (fun _ => value) slots

/-- Occupy the first free slot. -/
def occupy (value : α) (slots : List (Option α)) : Option (List (Option α)) :=
  if slots.any Option.isNone then
    some (modifyFirst Option.isNone (fun _ => some value) slots)
  else
    none

/-- A descriptor of a process. -/
def isDescriptor (pid : Pid) (fd : UInt64) (file : OpenFile) : Bool :=
  decide (file.pid = pid) && decide (file.fd = fd)

/-- A pipe owned by a process. -/
def isPipe (pid : Pid) (pipeId : UInt64) (pipe : Pipe) : Bool :=
  decide (pipe.id = pipeId) && decide (pipe.ownerPid = pid)

/-- An event owned by a process. -/
def isEvent (pid : Pid) (handle : UInt64) (event : Event) : Bool :=
  decide (event.id = handle) && decide (event.ownerPid = pid)

/-- A message queue owned by a process. -/
def isMessageQueue (pid : Pid) (handle : UInt64) (queue : MessageQueue) : Bool :=
  decide (queue.id = handle) && decide (queue.ownerPid = pid)

/-- First descriptor number for programs. -/
def firstUserFd : Nat := 3

/-- The lowest descriptor number that a process has free, other than the
excluded one. -/
def nextFdForPidExcluding (files : List (Option OpenFile)) (pid : Pid)
    (excluded : Option UInt64) : Option UInt64 :=
  ((List.range 16).map fun offset => UInt64.ofNat (firstUserFd + offset)).find? fun fd =>
    !(decide (excluded = some fd) || files.any (Option.any (isDescriptor pid fd)))

/-- The lowest descriptor number that a process has free. -/
def nextFdForPid (files : List (Option OpenFile)) (pid : Pid) : Option UInt64 :=
  nextFdForPidExcluding files pid none

/-- Open a descriptor for a process. -/
def openDescriptor (ipc : Ipc) (pid : Pid) (descriptor : Descriptor) :
    Option (UInt64 × Ipc) := do
  let fd ← nextFdForPid ipc.openFiles pid
  let files ← occupy ⟨pid, fd, descriptor⟩ ipc.openFiles
  pure (fd, { ipc with openFiles := files })

/-- What closing a descriptor does to the pipe behind it. -/
def closeDescriptor (ipc : Ipc) (pid : Pid) (file : OpenFile) : Ipc :=
  let close := fun (pipeId : UInt64) (update : Pipe → Pipe) =>
    match findSlot (isPipe pid pipeId) ipc.pipes with
    | none => ipc
    | some pipe =>
      let pipe := update pipe
      let slot := if pipe.readers = 0 ∧ pipe.writers = 0 then none else some pipe
      { ipc with pipes := setSlot (isPipe pid pipeId) slot ipc.pipes }
  match file.descriptor with
  | .file _ _ | .directory _ _ => ipc
  | .pipeRead pipeId => close pipeId fun pipe => { pipe with readers := pipe.readers - 1 }
  | .pipeWrite pipeId => close pipeId fun pipe => { pipe with writers := pipe.writers - 1 }

/-- Close one descriptor of a process. -/
def closeFdForPid (ipc : Ipc) (pid : Pid) (fd : UInt64) : Except SyscallError Ipc :=
  match findSlot (isDescriptor pid fd) ipc.openFiles with
  | none => .error .invalidArgument
  | some file =>
    .ok ({ ipc with openFiles := setSlot (isDescriptor pid fd) none ipc.openFiles }
      |>.closeDescriptor pid file)

/-- Free the slots whose content passes a test. -/
def dropSlots (test : α → Bool) (slots : List (Option α)) : List (Option α) :=
  slots.map fun slot => if slot.any test then none else slot

/-- Close everything a process owns. -/
def closeProcessFiles (ipc : Ipc) (pid : Pid) : Ipc :=
  let owned := ipc.openFiles.filterMap fun slot =>
    slot.filter fun file => decide (file.pid = pid)
  let ipc := owned.foldl (fun ipc file => ipc.closeDescriptor pid file)
    { ipc with openFiles := dropSlots (fun file => decide (file.pid = pid)) ipc.openFiles }
  { ipc with
    events := dropSlots (fun event => decide (event.ownerPid = pid)) ipc.events
    messageQueues := dropSlots (fun queue => decide (queue.ownerPid = pid)) ipc.messageQueues }

end Ipc

end Vantara
