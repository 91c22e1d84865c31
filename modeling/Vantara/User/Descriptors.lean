import Vantara.User.Syscall

/-!
# System calls on descriptors, events and message queues

These handlers change only the tables of what processes have opened.  An answer
may be an error although a table changed: identifiers are drawn before a free
slot is looked for.
-/

namespace Vantara

namespace Kernel

/-- The answer and the new tables of a handler that changes nothing on failure. -/
def commit (kernel : Kernel) : Except SyscallError (UInt64 × Ipc) → Answer × Ipc
  | .ok (value, ipc) => (.ok value, ipc)
  | .error error => (.error error, kernel.ipc)

/-- Open a path. -/
def openFile (kernel : Kernel) (env : UserEnv) (pathPtr pathLen : UInt64) :
    Except SyscallError (UInt64 × Ipc) := do
  let path ← kernel.readUserStr env pathPtr pathLen
  let target ← orInvalid (env.files.openFrom kernel.currentCwd path)
  let descriptor :=
    if target.fileType = .file then Descriptor.file target 0 else .directory target.path 0
  let pid ← orInvalid kernel.currentUserProcess
  orInvalid (kernel.ipc.openDescriptor pid descriptor)

/-- Create a file and open it. -/
def createFile (kernel : Kernel) (env : UserEnv) (pathPtr pathLen : UInt64) :
    Except SyscallError (UInt64 × Ipc) := do
  let path ← kernel.readUserStr env pathPtr pathLen
  let target ← orInvalid (env.files.createFrom kernel.currentCwd path)
  let pid ← orInvalid kernel.currentUserProcess
  orInvalid (kernel.ipc.openDescriptor pid (.file target 0))

/-- How many typed bytes a read of the keyboard takes: up to the end of a line. -/
def keyboardCount : Nat → List UInt8 → Nat
  | 0, _ => 0
  | _, [] => 0
  | capacity + 1, byte :: rest => if byte = 10 then 1 else keyboardCount capacity rest + 1

/-- Read the keyboard. -/
def readStdinToUser (env : UserEnv) (len : Nat) : Answer :=
  let taken := keyboardCount len env.keyboard
  if taken = 0 then .error .wouldBlock else .ok (count taken)

/-- Bytes of a directory listing that a descriptor reads from. -/
def directoryReadBufferSize : Nat := 2048

/-- Move the offset of an open descriptor. -/
def setDescriptor (ipc : Ipc) (file : OpenFile) (descriptor : Descriptor) : Ipc :=
  { ipc with
    openFiles := Ipc.setSlot (Ipc.isDescriptor file.pid file.fd)
      (some { file with descriptor := descriptor }) ipc.openFiles }

/-- Read from a pipe. -/
def readPipe (ipc : Ipc) (pipeId : UInt64) (pid : Pid) (capacity : Nat) :
    Except SyscallError (UInt64 × Ipc) := do
  let pipe ← orInvalid (Ipc.findSlot (Ipc.isPipe pid pipeId) ipc.pipes)
  let (bytes, pipe) ← pipe.read capacity
  pure (count bytes.length,
    { ipc with pipes := Ipc.setSlot (Ipc.isPipe pid pipeId) (some pipe) ipc.pipes })

section

variable (kernel : Kernel)

/-- Read from a descriptor. -/
def readFdToUser (env : UserEnv) (fd ptr len : UInt64) : Except SyscallError (UInt64 × Ipc) :=
  if len > maxTransferLen then
    .error .invalidArgument
  else do
    let out ← kernel.userWriteRange env ptr len
    if fd = 0 then
      let value ← readStdinToUser env out
      pure (value, kernel.ipc)
    else
      let pid ← orInvalid kernel.currentUserProcess
      let file ← orInvalid (Ipc.findSlot (Ipc.isDescriptor pid fd) kernel.ipc.openFiles)
      match file.descriptor with
      | .file target offset => do
          let taken ← orInvalid (env.files.readNode target.node offset out)
          pure (count taken, setDescriptor kernel.ipc file (.file target (offset + taken)))
      | .directory path offset => do
          let listed ← orInvalid
            (env.files.listToBuffer .root
              ((String.fromUTF8? ⟨path.bytes.toArray⟩).getD "") directoryReadBufferSize)
          let taken := min (listed - offset) out
          pure (count taken, setDescriptor kernel.ipc file (.directory path (offset + taken)))
      | .pipeRead pipeId => readPipe kernel.ipc pipeId pid out
      | .pipeWrite _ => .error .invalidArgument

/-- Write to a descriptor. -/
def writeDescriptor (env : UserEnv) (fd : UInt64) (source : List UInt8) :
    Except SyscallError (UInt64 × Ipc) := do
  let pid ← orInvalid kernel.currentUserProcess
  let file ← orInvalid (Ipc.findSlot (Ipc.isDescriptor pid fd) kernel.ipc.openFiles)
  match file.descriptor with
  | .file target offset =>
    if target.readonly then
      .error .permissionDenied
    else do
      let written ← orInvalid (env.files.writeNode target.node offset source)
      pure (count written,
        setDescriptor kernel.ipc file (.file target (offset + written)))
  | .pipeWrite pipeId => do
      let pipe ← orInvalid (Ipc.findSlot (Ipc.isPipe pid pipeId) kernel.ipc.pipes)
      let (written, pipe) ← pipe.write source
      pure (count written,
        { kernel.ipc with
          pipes := Ipc.setSlot (Ipc.isPipe pid pipeId) (some pipe) kernel.ipc.pipes })
  | .directory _ _ | .pipeRead _ => .error .invalidArgument

/-- Write to the terminal or to a descriptor. -/
def writeUserBuffer (env : UserEnv) (fd ptr len : UInt64) : Except SyscallError (UInt64 × Ipc) :=
  if len > maxTransferLen then
    .error .invalidArgument
  else do
    let bytes ← kernel.readUserBytes env ptr len
    if fd ≠ 1 ∧ fd ≠ 2 then
      kernel.writeDescriptor env fd bytes
    else
      pure (len, kernel.ipc)

/-- Close a descriptor. -/
def closeFd (fd : UInt64) : Except SyscallError (UInt64 × Ipc) := do
  let pid ← orInvalid kernel.currentUserProcess
  let ipc ← kernel.ipc.closeFdForPid pid fd
  pure (0, ipc)

/-- Create a pipe and a descriptor for each of its ends. -/
def createPipe (env : UserEnv) (ptr len : UInt64) : Answer × Ipc :=
  let ipc := kernel.ipc
  let checked : Except SyscallError (Pid × UInt64 × UInt64) :=
    if len < 16 then
      .error .invalidArgument
    else do
      let _ ← kernel.userWriteRange env ptr 16
      let pid ← orInvalid kernel.currentUserProcess
      let readFd ← orInvalid (Ipc.nextFdForPid ipc.openFiles pid)
      let writeFd ← orInvalid (Ipc.nextFdForPidExcluding ipc.openFiles pid (some readFd))
      pure (pid, readFd, writeFd)
  match checked with
  | .error error => (.error error, ipc)
  | .ok (pid, readFd, writeFd) =>
    let pipeId := ipc.nextPipeId
    let files :=
      (Ipc.occupy ⟨pid, readFd, .pipeRead pipeId⟩ ipc.openFiles).bind
        (Ipc.occupy ⟨pid, writeFd, .pipeWrite pipeId⟩)
    match files with
    | none => (.error .invalidArgument, ipc)
    | some files =>
      let ipc := { ipc with nextPipeId := pipeId + 1 }
      match Ipc.occupy (Pipe.new pipeId pid) ipc.pipes with
      | none => (.error .wouldBlock, ipc)
      | some pipes => (.ok 0, { ipc with pipes := pipes, openFiles := files })

/-- Create an event. -/
def createEvent : Answer × Ipc :=
  match kernel.currentUserProcess with
  | none => (.error .invalidArgument, kernel.ipc)
  | some pid =>
    let id := kernel.ipc.nextEventId
    let ipc := { kernel.ipc with nextEventId := id + 1 }
    match Ipc.occupy (Event.new id pid) ipc.events with
    | none => (.error .wouldBlock, ipc)
    | some events => (.ok id, { ipc with events := events })

/-- Close an event that nobody waits for. -/
def closeEvent (handle : UInt64) : Except SyscallError (UInt64 × Ipc) := do
  let pid ← orInvalid kernel.currentUserProcess
  let event ← orInvalid (Ipc.findSlot (Ipc.isEvent pid handle) kernel.ipc.events)
  if event.waiterCount ≠ 0 then
    .error .wouldBlock
  else
    .ok (0,
      { kernel.ipc with
        events := Ipc.setSlot (Ipc.isEvent pid handle) none kernel.ipc.events })

/-- Create a message queue. -/
def createMessageQueue : Answer × Ipc :=
  match kernel.currentUserProcess with
  | none => (.error .invalidArgument, kernel.ipc)
  | some pid =>
    let id := kernel.ipc.nextMessageQueueId
    let ipc := { kernel.ipc with nextMessageQueueId := id + 1 }
    match Ipc.occupy (MessageQueue.new id pid) ipc.messageQueues with
    | none => (.error .wouldBlock, ipc)
    | some queues => (.ok id, { ipc with messageQueues := queues })

/-- The message queue of the current process with a handle. -/
def ownMessageQueue (handle : UInt64) : Except SyscallError (Pid × MessageQueue) := do
  let pid ← orInvalid kernel.currentUserProcess
  let queue ← orInvalid
    (Ipc.findSlot (Ipc.isMessageQueue pid handle) kernel.ipc.messageQueues)
  pure (pid, queue)

/-- The tables after a message queue changed. -/
def setMessageQueue (pid : Pid) (handle : UInt64) (queue : Option MessageQueue) : Ipc :=
  { kernel.ipc with
    messageQueues := Ipc.setSlot (Ipc.isMessageQueue pid handle) queue
      kernel.ipc.messageQueues }

/-- Send a message. -/
def sendMessage (env : UserEnv) (handle ptr len : UInt64) : Except SyscallError (UInt64 × Ipc) :=
  if len = 0 ∨ len > UInt64.ofNat maxMessageSize then
    .error .invalidArgument
  else do
    let source ← kernel.readUserBytes env ptr len
    let (pid, queue) ← kernel.ownMessageQueue handle
    let (sent, queue) ← queue.send source
    pure (count sent, kernel.setMessageQueue pid handle (some queue))

/-- Receive a message. -/
def receiveMessage (env : UserEnv) (handle ptr len : UInt64) : Except SyscallError (UInt64 × Ipc) :=
  if len = 0 ∨ len > UInt64.ofNat maxMessageSize then
    .error .invalidArgument
  else do
    let out ← kernel.userWriteRange env ptr len
    let (pid, queue) ← kernel.ownMessageQueue handle
    let (message, queue) ← queue.receive out
    pure (count message.length, kernel.setMessageQueue pid handle (some queue))

/-- Close a message queue. -/
def closeMessageQueue (handle : UInt64) : Except SyscallError (UInt64 × Ipc) := do
  let (pid, _) ← kernel.ownMessageQueue handle
  pure (0, kernel.setMessageQueue pid handle none)

end

end Kernel

end Vantara
