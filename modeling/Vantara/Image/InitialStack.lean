import Vantara.Foundation.Buffer
import Vantara.User.AddressSpace

/-!
# The initial stack of a program

The kernel puts the path and the words of the argument at the top of the stack and the
table of pointers to them below, where a program finds them when it starts.  Programs may
also take the argument apart themselves, with the iterator of the userland library.
-/

namespace Vantara

open Foundation

/-- Why no stack is built. -/
inductive UserImageError
  | emptyImage
  | imageTooLarge
  deriving DecidableEq, Repr

/-- The most bytes and the most strings. -/
def userInitialStackMaxSize : Nat := 512
def userInitialArgvMax : Nat := 8

/-- Spaces and tabs; the kernel and the userland library have the same function. -/
def isArgSeparator (byte : UInt8) : Bool :=
  byte = 0x20 ∨ byte = 0x09

/-- The loop `while cursor < bytes.len() && test(bytes[cursor]) { cursor += 1 }`, which
makes at most as many turns as there are bytes left. -/
def advanceWhile (test : UInt8 → Bool) (bytes : List UInt8) : Nat → Nat → Nat
  | 0, cursor => cursor
  | turns + 1, cursor =>
    match bytes[cursor]? with
    | none => cursor
    | some byte => if test byte then advanceWhile test bytes turns (cursor + 1) else cursor

/-- The first index from a cursor on at which a byte fails a test. -/
def scan (test : UInt8 → Bool) (bytes : List UInt8) (cursor : Nat) : Nat :=
  advanceWhile test bytes (bytes.length - cursor) cursor

/-- The bytes `bytes[start..stop]`. -/
def between (bytes : List UInt8) (start stop : Nat) : List UInt8 :=
  (bytes.take stop).drop start

/-! ## The iterator of the userland library -/

/-- An argument, and how far it has been read. -/
structure Argv where
  bytes : List UInt8
  cursor : Nat
  deriving DecidableEq, Repr

namespace Argv

/-- Nothing has been read. -/
def new (bytes : List UInt8) : Argv := ⟨bytes, 0⟩

/-- The next word. -/
def nextArg (argv : Argv) : Option (List UInt8 × Argv) :=
  let start := scan isArgSeparator argv.bytes argv.cursor
  if argv.bytes.length ≤ start then none
  else
    let stop := scan (fun byte => !isArgSeparator byte) argv.bytes start
    some (between argv.bytes start stop, ⟨argv.bytes, stop⟩)

/-- The first words that the iterator yields. -/
def yields : Nat → Argv → List (List UInt8)
  | 0, _ => []
  | number + 1, argv =>
    match argv.nextArg with
    | none => []
    | some (word, rest) => word :: yields number rest

end Argv

/-! ## The stack that the kernel builds -/

/-- The loop over the argument, with the words found so far.  Every turn goes on by a byte
at least. -/
def collectArgs (arg : List UInt8) : Nat → Nat → List (List UInt8) → List (List UInt8)
  | 0, _, argv => argv
  | turns + 1, index, argv =>
    if index < arg.length ∧ argv.length < userInitialArgvMax then
      let start := scan isArgSeparator arg index
      let stop := scan (fun byte => !isArgSeparator byte) arg start
      if start < stop then collectArgs arg turns stop (argv ++ [between arg start stop])
      else collectArgs arg turns stop argv
    else argv

/-- The strings at the top of the buffer: where they begin, the buffer, and the pointers
to them. -/
structure PackedStrings where
  low : Nat
  buffer : Buffer
  pointers : List Nat

/-- The loop over the strings, the last of them first. -/
def packStrings (stackBase : Nat) : List (List UInt8) → Except UserImageError PackedStrings
  | [] => .ok ⟨userInitialStackMaxSize, fun _ => 0, []⟩
  | item :: rest =>
    match packStrings stackBase rest with
    | .error error => .error error
    | .ok packed =>
      if 2 ^ 64 ≤ item.length + 1 then .error .imageTooLarge
      else if packed.low < item.length + 1 then .error .imageTooLarge
      else
        let low := packed.low - (item.length + 1)
        .ok
          { low
            buffer := (packed.buffer.splice low item).splice (low + item.length) [0]
            pointers := (stackBase + low) :: packed.pointers }

/-- `write_stack_word` for some words, one after another. -/
def writeStackWords : List Nat → Nat → Buffer → Except UserImageError Buffer
  | [], _, buffer => .ok buffer
  | word :: rest, low, buffer =>
    if userInitialStackMaxSize < low + 8 then .error .imageTooLarge
    else writeStackWords rest (low + 8) (buffer.splice low (leBytes word 8))

/-- The block at the top of the stack. -/
structure UserInitialStack where
  stackPointer : Nat
  /-- The bytes `bytes[..len]`. -/
  bytes : List UInt8
  len : Nat
  deriving DecidableEq, Repr

/-- The table of pointers at a place below the strings, and the block from there on. -/
def writeTable (stackBase : Nat) (packed : PackedStrings) (wordsStart : Nat) :
    Except UserImageError UserInitialStack :=
  let words := packed.pointers.length :: packed.pointers ++ [0, 0, 0, 0]
  match writeStackWords words wordsStart packed.buffer with
  | .error error => .error error
  | .ok buffer =>
    let len := userInitialStackMaxSize - wordsStart
    .ok
      { stackPointer := stackBase + wordsStart
        bytes := (List.range len).map fun index => buffer (wordsStart + index)
        len }

/-- The place of the table, aligned to 16 bytes. -/
def placeTable (stackBase : Nat) (packed : PackedStrings) :
    Except UserImageError UserInitialStack :=
  let low := packed.low - packed.low % 8
  let wordCount := 1 + packed.pointers.length + 1 + 1 + 2
  if low < wordCount * 8 then .error .imageTooLarge
  else
    let wordsStart := low - wordCount * 8
    if (stackBase + wordsStart) % 16 = 0 then writeTable stackBase packed wordsStart
    else if wordsStart < 8 then .error .imageTooLarge
    else writeTable stackBase packed (wordsStart - 8)

/-- The block for the path of a program and its argument. -/
def buildUserInitialStack (layout : UserMemoryLayout) (programPath arg : List UInt8) :
    Except UserImageError UserInitialStack :=
  let stackTop := layout.stackTop.toNat
  let stackStart := layout.stackStart.toNat
  if stackTop ≤ stackStart ∨ stackTop - stackStart < userInitialStackMaxSize then
    .error .imageTooLarge
  else if programPath = [] then .error .emptyImage
  else
    let stackBase := stackTop - userInitialStackMaxSize
    match packStrings stackBase (collectArgs arg arg.length 0 [programPath]) with
    | .error error => .error error
    | .ok packed => placeTable stackBase packed

end Vantara
