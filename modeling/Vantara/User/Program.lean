import Vantara.User.AddressSpace

/-!
# Programs waiting to be loaded

Requests to run a program name an image of the userland registry and join a
queue that the kernel's event loop works off.  Parents that wait for a child
leave a wait request, which the landing after the child's exit takes out again.
-/

namespace Vantara

/-- A normalized absolute path. -/
structure NormalizedPath where
  bytes : List UInt8
  /-- Paths longer than the kernel's buffers are never built. -/
  fits : bytes.length ≤ 128
  deriving DecidableEq, Repr

/-- The path `/`. -/
def NormalizedPath.root : NormalizedPath :=
  ⟨[47], by decide⟩

/-- Whether a program owns the terminal or runs beside the shell. -/
inductive JobMode
  | foreground
  | background
  deriving DecidableEq, Repr

/-- Why a program could not be queued. -/
inductive ProgramError
  | notFound
  | argumentTooLong
  deriving DecidableEq, Repr

/-- Bytes reserved for a program's argument. -/
def firstUserArgPathLen : Nat := 32

/-- The argument handed to a program. -/
structure UserProgramArg where
  bytes : List UInt8
  /-- The argument fits the place the loader seeds. -/
  fits : bytes.length ≤ firstUserArgPathLen
  deriving DecidableEq, Repr

namespace UserProgramArg

/-- No argument. -/
def empty : UserProgramArg :=
  ⟨[], by decide⟩

/-- The argument that holds a path. -/
def fromPath (path : String) : Except ProgramError UserProgramArg :=
  let bytes := path.toUTF8.toList
  if tooLong : bytes.isEmpty ∨ firstUserArgPathLen < bytes.length then
    .error .argumentTooLong
  else
    .ok ⟨bytes, Nat.le_of_not_lt fun longer => tooLong (Or.inr longer)⟩

end UserProgramArg

/-- A program of the userland registry. -/
structure UserlandImage where
  name : String
  deriving DecidableEq, Repr

namespace UserlandImage

/-- Every image is registered below `/bin`. -/
def path (image : UserlandImage) : String :=
  "/bin/" ++ image.name

/-- The image registered under a path. -/
def find (images : List UserlandImage) (path : String) : Option UserlandImage :=
  List.find? (fun image => decide (image.path = path)) images

/-- The path of the program with a name; empty when there is none. -/
def findPathByName (images : List UserlandImage) (name : String) : String :=
  match List.find? (fun image => decide (image.name = name)) images with
  | some image => image.path
  | none => ""

/-- A nonempty text. -/
def nonempty (text : String) : Option String :=
  if text = "" then none else some text

/-- The registered path meant by a path, a path below `bin/` or a bare name. -/
def normalizePath (images : List UserlandImage) (path : String) : Option String :=
  match find images path with
  | some image => some image.path
  | none =>
    match path.toList.dropPrefix? "bin/".toList with
    | some name =>
      ((find images path).map (·.path)).or
        (nonempty (findPathByName images (String.ofList name)))
    | none => nonempty (findPathByName images path)

end UserlandImage

/-- A program waiting to be loaded under a reserved process identifier. -/
structure UserProgram where
  pid : Pid
  parentPid : Option Pid
  name : String
  path : String
  arg : UserProgramArg
  jobMode : JobMode
  deriving DecidableEq, Repr

/-- A parent that asked to be resumed when a child has ended. -/
structure UserShellWaitRequest where
  shellPid : Pid
  childPid : Pid
  deriving DecidableEq, Repr

/-- The argument of a program that is given none. -/
def defaultArgFor (name : String) : String :=
  if name = "cat" then "/README" else "/"

end Vantara
