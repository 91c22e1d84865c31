import Vantara.User.UserMemory

/-!
# System calls that return to the caller

The handlers behind the system call interrupt that leave the calling thread on
the processor: they read the kernel state, or change what processes have opened,
or the attributes of a process.
-/

namespace Vantara

open Foundation

/-- The system calls, in the order of their numbers from one on. -/
inductive Syscall
  | exit | write | uptime | getuid | getgid | whoami | listdir | readFile | stat | openFile
  | read | close | exec | waitpid | procs | kill | yield | execBg | sleepMs | getcwd
  | chdir | setuser | reboot | pciList | netdevList | klogRead | driverStatus | abiInfo
  | threadCreate | threadExit | threadJoin | threadSpawn | pipe | eventCreate | eventWait
  | eventSignal | eventClose | msgqCreate | msgqSend | msgqRecv | msgqClose | sigprocmask
  | sigpending | sigaction | sigreturn | getpgrp | setpgid | getsid | setsid | create
  | unlink | rename | mkdir | rmdir
  deriving DecidableEq, Repr

namespace Syscall

/-- Every system call at the place of its number. -/
def all : List Syscall :=
  [.exit, .write, .uptime, .getuid, .getgid, .whoami, .listdir, .readFile, .stat, .openFile,
    .read, .close, .exec, .waitpid, .procs, .kill, .yield, .execBg, .sleepMs, .getcwd,
    .chdir, .setuser, .reboot, .pciList, .netdevList, .klogRead, .driverStatus, .abiInfo,
    .threadCreate, .threadExit, .threadJoin, .threadSpawn, .pipe, .eventCreate, .eventWait,
    .eventSignal, .eventClose, .msgqCreate, .msgqSend, .msgqRecv, .msgqClose, .sigprocmask,
    .sigpending, .sigaction, .sigreturn, .getpgrp, .setpgid, .getsid, .setsid, .create,
    .unlink, .rename, .mkdir, .rmdir]

/-- The system call with a number. -/
def decode (number : UInt64) : Option Syscall :=
  if number = 0 then none else all[number.toNat - 1]?

end Syscall

/-- The value in the result register that sends the thread to the landing. -/
def syscallReturnToKernel : UInt64 := 0xffffffffffffffff

/-- What a handler answers. -/
abbrev Answer := Except SyscallError UInt64

/-- The content of the result register. -/
def Answer.register : Answer → UInt64
  | .ok value => value
  | .error error => error.code

/-- Interface version, major number in the upper half. -/
def abiVersion : UInt64 := ((1 : UInt64) <<< 32) ||| 12

/-- Longest buffer of a single write or read. -/
def maxTransferLen : UInt64 := 1024

namespace Kernel

/-- An optional value, or the error for invalid arguments. -/
def orInvalid : Option α → Except SyscallError α
  | some value => .ok value
  | none => .error .invalidArgument

/-- A count as it is returned to the caller. -/
def count (bytes : Nat) : UInt64 :=
  UInt64.ofNat bytes

/-- Timer interrupts per second. -/
def timerHz : UInt64 := 100

/-- Milliseconds since boot; the kernel panics when the product overflows. -/
def uptimeMs (kernel : Kernel) : Option UInt64 :=
  if kernel.ticks.toNat * 1000 < 2 ^ 64 then some (kernel.ticks * 1000 / timerHz) else none

/-- The digits of a number in ASCII. -/
def formatU64Decimal (value : UInt64) : List UInt8 :=
  (Nat.toDigits 10 value.toNat).map fun digit => UInt8.ofNat digit.toNat

/-- Report the time since boot, as a value or as text. -/
def uptimeToUser (kernel : Kernel) (env : UserEnv) (ptr len : UInt64) : Option Answer := do
  let uptime ← kernel.uptimeMs
  pure (if ptr = 0 ∧ len = 0 then .ok uptime
    else kernel.copyToUserBuffer env ptr len (formatU64Decimal uptime))

/-- The credentials of the current process. -/
def currentCredentials (kernel : Kernel) : ProcessCredentials :=
  match kernel.currentProcess with
  | some process => process.credentials
  | none => .root

/-- The working directory of the current process. -/
def currentCwd (kernel : Kernel) : NormalizedPath :=
  match kernel.currentProcess with
  | some process => process.cwd
  | none => .root

/-- List a directory. -/
def listDirToUser (kernel : Kernel) (env : UserEnv) (pathPtr pathLen ptr len : UInt64) :
    Answer := do
  let path ← kernel.readUserStr env pathPtr pathLen
  let out ← kernel.userWriteRange env ptr len
  let written ← orInvalid (env.files.listToBuffer kernel.currentCwd path out)
  pure (count written)

/-- Read a file by its path. -/
def readFileToUser (kernel : Kernel) (env : UserEnv) (pathPtr pathLen ptr len : UInt64) :
    Answer := do
  let path ← kernel.readUserStr env pathPtr pathLen
  let out ← kernel.userWriteRange env ptr len
  let written ← orInvalid (env.files.readToBuffer kernel.currentCwd path out)
  pure (count written)

/-- Bytes of a file status as programs see it. -/
def userFileStatSize : Nat := 32

section

variable (kernel : Kernel) (env : UserEnv)

/-- Report the status of a file.  What is copied ends up in user memory; only its
length matters here. -/
def statToUser (pathPtr pathLen ptr len : UInt64) : Answer := do
  let path ← kernel.readUserStr env pathPtr pathLen
  let _ ← orInvalid (env.files.openFrom kernel.currentCwd path)
  kernel.copyToUserBuffer env ptr len (List.replicate userFileStatSize 0)

/-- Report a listing, cut off at the end of the buffer. -/
def listingToUser (ptr len : UInt64) (written : Nat → Nat) : Answer :=
  if len = 0 ∨ len > maxTransferLen then
    .error .invalidArgument
  else do
    let out ← kernel.userWriteRange env ptr len
    pure (count (min (written out) out))

/-- Report the processes. -/
def procsToUser (ptr len : UInt64) : Answer :=
  kernel.listingToUser env ptr len fun _ => env.processListing

/-- Report the bus devices. -/
def pciListToUser (ptr len : UInt64) : Answer :=
  kernel.listingToUser env ptr len fun _ => env.pciListing

/-- Report the network devices. -/
def netdevListToUser (ptr len : UInt64) : Answer :=
  kernel.listingToUser env ptr len fun _ => env.networkListing

/-- Report the end of the kernel log. -/
def kernelLogToUser (ptr len : UInt64) : Answer :=
  kernel.listingToUser env ptr len fun out => env.kernelLog out

/-- Report the drivers. -/
def driverStatusToUser (ptr len : UInt64) : Answer :=
  kernel.listingToUser env ptr len fun out => env.driverReport out

/-- Report the working directory. -/
def getcwdToUser (ptr len : UInt64) : Answer :=
  kernel.copyToUserBuffer env ptr len kernel.currentCwd.bytes

/-- Report the user name. -/
def whoamiToUser (ptr len : UInt64) : Answer :=
  kernel.copyToUserBuffer env ptr len kernel.currentCredentials.username

/-- Remove a file that nobody has open. -/
def unlinkFile (pathPtr pathLen : UInt64) : Answer := do
  let path ← kernel.readUserStr env pathPtr pathLen
  let target ← orInvalid (env.files.openFrom kernel.currentCwd path)
  if target.readonly ∨ target.fileType ≠ .file then
    .error .permissionDenied
  else if kernel.ipc.openFiles.any (Option.any fun file =>
      match file.descriptor with
      | .file opened _ => decide (opened.node = target.node)
      | _ => false) then
    .error .wouldBlock
  else if env.files.unlinkFrom kernel.currentCwd path then
    .ok 0
  else
    .error .invalidArgument

/-- Ask the file system for something that only succeeds or fails. -/
def pathRequest (pathPtr pathLen : UInt64) (request : NormalizedPath → String → Bool) : Answer := do
  let path ← kernel.readUserStr env pathPtr pathLen
  if request kernel.currentCwd path then .ok 0 else .error .invalidArgument

/-- Create a directory. -/
def mkdirUser (pathPtr pathLen : UInt64) : Answer :=
  kernel.pathRequest env pathPtr pathLen env.files.mkdirFrom

/-- Remove a directory. -/
def rmdirUser (pathPtr pathLen : UInt64) : Answer :=
  kernel.pathRequest env pathPtr pathLen env.files.rmdirFrom

/-- Rename a file. -/
def renameFile (oldPtr oldLen newPtr newLen : UInt64) : Answer := do
  let oldPath ← kernel.readUserStr env oldPtr oldLen
  let newPath ← kernel.readUserStr env newPtr newLen
  if env.files.renameFrom kernel.currentCwd oldPath newPath then
    .ok 0
  else
    .error .invalidArgument

end

/-- The pending signals of the current process. -/
def currentPendingSignals (kernel : Kernel) : Answer := do
  let process ← orInvalid kernel.currentProcess
  pure process.pendingSignals

/-- The process group of the current process. -/
def currentProcessGroup (kernel : Kernel) : Answer := do
  let process ← orInvalid kernel.currentProcess
  pure process.processGroupId.toUInt64

/-- The session of a process, zero naming the current one. -/
def getSessionId (kernel : Kernel) (pid : UInt64) : Answer := do
  let pid ←
    if pid = 0 then orInvalid kernel.currentUserProcess else orInvalid (Word.toUInt32? pid)
  match kernel.table.get pid with
  | some process => .ok process.sessionId.toUInt64
  | none => .error .noSuchProcess

end Kernel

end Vantara
