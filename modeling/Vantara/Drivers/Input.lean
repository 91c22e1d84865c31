import Vantara.User.Process

/-!
# The input queue and the keys of the shell

Interrupt handlers give keys to the input queue, which tracks the modifier keys and
encodes the other ones as bytes. The shell reads the bytes and decodes them.
-/

namespace Vantara

/-- The keys that the queue tells apart. -/
inductive KeyCode
  | lShift | rShift | lControl | rControl | lAlt | rAltGr | lWin | rWin | c | z
  | arrowUp | arrowDown | arrowRight | arrowLeft | home | endKey | delete
  | numpad8 | numpad2 | numpad6 | numpad4 | numpad7 | numpad1 | numpadPeriod
  | other (code : Nat)
  deriving DecidableEq

/-- The modifiers that are on. -/
structure ModifierState where
  shift : Bool
  ctrl : Bool
  alt : Bool
  superKey : Bool
  deriving DecidableEq

/-- A key event, or a character. -/
inductive InputEvent
  | keyboardKey (key : KeyCode) (pressed : Bool)
  | keyboardChar (ch : Char)

/-- The capacities of the two queues. -/
def eventQueueCapacity : Nat := 256
def keyboardByteQueueCapacity : Nat := 512

/-- The events and bytes that wait, and the modifiers. -/
structure InputQueue where
  events : List InputEvent
  keyboardBytes : List UInt8
  modifiers : ModifierState

/-- The escape sequence of a key. -/
def terminalSequenceForKey : KeyCode → Option (List UInt8)
  | .arrowUp | .numpad8 => some [0x1b, 0x5b, 0x41]
  | .arrowDown | .numpad2 => some [0x1b, 0x5b, 0x42]
  | .arrowRight | .numpad6 => some [0x1b, 0x5b, 0x43]
  | .arrowLeft | .numpad4 => some [0x1b, 0x5b, 0x44]
  | .home | .numpad7 => some [0x1b, 0x5b, 0x48]
  | .endKey | .numpad1 => some [0x1b, 0x5b, 0x46]
  | .delete | .numpadPeriod => some [0x1b, 0x5b, 0x33, 0x7e]
  | _ => none

/-- A key is pressed or released. -/
def ModifierState.update (modifiers : ModifierState) (key : KeyCode) (pressed : Bool) :
    ModifierState :=
  match key with
  | .lShift | .rShift => { modifiers with shift := pressed }
  | .lControl | .rControl => { modifiers with ctrl := pressed }
  | .lAlt | .rAltGr => { modifiers with alt := pressed }
  | .lWin | .rWin => { modifiers with superKey := pressed }
  | _ => modifiers

/-- The signal that a key stands for while a control key is down. -/
def KeyCode.controlSignal : KeyCode → Option UInt64
  | .c => some sigint
  | .z => some sigtstp
  | _ => none

namespace InputQueue

/-- Nothing waits. -/
def new : InputQueue := ⟨[], [], ⟨false, false, false, false⟩⟩

section

variable (queue : InputQueue)

/-- Append an event unless the queue is full. -/
def enqueue (event : InputEvent) : InputQueue :=
  if queue.events.length < eventQueueCapacity then
    { queue with events := queue.events ++ [event] }
  else queue

/-- Append a byte unless the queue is full. -/
def enqueueKeyboardByte (byte : UInt8) : InputQueue :=
  if queue.keyboardBytes.length < keyboardByteQueueCapacity then
    { queue with keyboardBytes := queue.keyboardBytes ++ [byte] }
  else queue

/-- Append bytes one by one. -/
def enqueueKeyboardBytes (bytes : List UInt8) : InputQueue :=
  bytes.foldl enqueueKeyboardByte queue

/-- Append the sequence of a key that has one. -/
def enqueueTerminalSequence (key : KeyCode) : InputQueue :=
  match terminalSequenceForKey key with
  | some bytes => queue.enqueueKeyboardBytes bytes
  | none => queue

/-- The queue after a key event, and the terminal signal that it stores. -/
def handleKeyboardKey (key : KeyCode) (pressed : Bool) : InputQueue × Option UInt64 :=
  let queue := { queue with modifiers := queue.modifiers.update key pressed }
  let signal := if pressed && queue.modifiers.ctrl then key.controlSignal else none
  let queue := if pressed && signal.isNone then queue.enqueueTerminalSequence key else queue
  (queue.enqueue (.keyboardKey key pressed), signal)

/-- The queue after a character, of which only ASCII has a byte. -/
def handleKeyboardChar (ch : Char) : InputQueue :=
  let queue := if ch.toNat < 128 then queue.enqueueKeyboardByte ch.toUInt8 else queue
  queue.enqueue (.keyboardChar ch)

/-- Take the oldest byte. -/
def dequeueKeyboardByte : InputQueue × Option UInt8 :=
  ({ queue with keyboardBytes := queue.keyboardBytes.tail }, queue.keyboardBytes.head?)

end

variable (queue : InputQueue)

@[simp]
theorem modifiers_enqueue (event : InputEvent) :
    (queue.enqueue event).modifiers = queue.modifiers := by
  unfold enqueue
  split <;> rfl

@[simp]
theorem keyboardBytes_enqueue (event : InputEvent) :
    (queue.enqueue event).keyboardBytes = queue.keyboardBytes := by
  unfold enqueue
  split <;> rfl

@[simp]
theorem modifiers_enqueueKeyboardBytes (bytes : List UInt8) :
    (queue.enqueueKeyboardBytes bytes).modifiers = queue.modifiers := by
  induction bytes generalizing queue with
  | nil => rfl
  | cons byte bytes ih =>
    refine (ih _).trans ?_
    unfold enqueueKeyboardByte
    split <;> rfl

@[simp]
theorem modifiers_enqueueTerminalSequence (key : KeyCode) :
    (queue.enqueueTerminalSequence key).modifiers = queue.modifiers := by
  unfold enqueueTerminalSequence
  cases terminalSequenceForKey key <;> simp

@[simp]
theorem modifiers_handleKeyboardKey (key : KeyCode) (pressed : Bool) :
    (queue.handleKeyboardKey key pressed).1.modifiers = queue.modifiers.update key pressed := by
  simp only [handleKeyboardKey, modifiers_enqueue]
  split_ifs <;> simp

end InputQueue

/-! ### Modifier keys -/

/-- Which keys are down after some key events. -/
def holdKeys (held : KeyCode → Bool) (events : List (KeyCode × Bool)) : KeyCode → Bool :=
  events.foldl (fun held event => Function.update held event.1 event.2) held

/-- The other key of the same modifier. -/
def KeyCode.twin : KeyCode → Option KeyCode
  | .lShift => some .rShift
  | .rShift => some .lShift
  | .lControl => some .rControl
  | .rControl => some .lControl
  | .lAlt => some .rAltGr
  | .rAltGr => some .lAlt
  | .lWin => some .rWin
  | .rWin => some .lWin
  | _ => none

/-- No key of a modifier is released while the other one is down. -/
def releasedAlone (held : KeyCode → Bool) : List (KeyCode × Bool) → Bool
  | [] => true
  | (key, pressed) :: rest =>
    (pressed || key.twin.all fun twin => !held twin) &&
      releasedAlone (Function.update held key pressed) rest

/-- A modifier is on while one of its keys is down. -/
def ModifierState.ofHeld (held : KeyCode → Bool) : ModifierState where
  shift := held .lShift || held .rShift
  ctrl := held .lControl || held .rControl
  alt := held .lAlt || held .rAltGr
  superKey := held .lWin || held .rWin

namespace InputQueue

/-- The queue after some key events. -/
def handleKeyboardKeys (queue : InputQueue) (events : List (KeyCode × Bool)) : InputQueue :=
  events.foldl (fun queue event => (queue.handleKeyboardKey event.1 event.2).1) queue

theorem update_ofHeld
    (held : KeyCode → Bool)
    (key : KeyCode) (pressed : Bool)
    (alone : (pressed || key.twin.all fun twin => !held twin) = true) :
    (ModifierState.ofHeld held).update key pressed =
      .ofHeld (Function.update held key pressed) := by
  cases key <;> cases pressed <;>
    simp_all [ModifierState.update, ModifierState.ofHeld, KeyCode.twin, Function.update]

theorem modifiers_handleKeyboardKeys (queue : InputQueue)
    (held : KeyCode → Bool)
    (exact : queue.modifiers = .ofHeld held)
    (events : List (KeyCode × Bool))
    (alone : releasedAlone held events = true) :
    (queue.handleKeyboardKeys events).modifiers = .ofHeld (holdKeys held events) := by
  induction events generalizing queue held with
  | nil => exact exact
  | cons event rest ih =>
    obtain ⟨first, later⟩ := Bool.and_eq_true_iff.mp alone
    refine ih _ _ ?_ later
    rw [modifiers_handleKeyboardKey, exact, update_ofHeld held event.1 event.2 first]

/-- The modifiers are exact as long as no key of a modifier is released while the other one
is down, and a control key is then recognised. -/
theorem modifiers_exact (events : List (KeyCode × Bool))
    (alone : releasedAlone (fun _ => false) events = true) :
    (new.handleKeyboardKeys events).modifiers = .ofHeld (holdKeys (fun _ => false) events) ∧
      ∀ key signal, key.controlSignal = some signal →
        (holdKeys (fun _ => false) events .lControl ||
          holdKeys (fun _ => false) events .rControl) = true →
        ((new.handleKeyboardKeys events).handleKeyboardKey key true).2 = some signal := by
  have exact := modifiers_handleKeyboardKeys new (fun _ => false) rfl events alone
  refine ⟨exact, fun key signal isSignal down => ?_⟩
  have ctrl : ((new.handleKeyboardKeys events).modifiers.update key true).ctrl = true := by
    rw [exact]
    cases key <;> simp_all [ModifierState.update, ModifierState.ofHeld, KeyCode.controlSignal]
  simp [handleKeyboardKey, ctrl, isSignal]

theorem modifiers_exact_control :
    ((new.handleKeyboardKeys [(.lControl, true), (.lControl, false),
      (.rControl, true)]).handleKeyboardKey .z true).2 = some sigtstp :=
  (modifiers_exact [(.lControl, true), (.lControl, false), (.rControl, true)]
    (by decide)).2 .z sigtstp rfl rfl

/-- With both shift keys down, the release of one turns the modifier off. -/
theorem shift_lost :
    holdKeys (fun _ => false) [(.lShift, true), (.rShift, true), (.lShift, false)] .rShift =
        true ∧
      (new.handleKeyboardKeys
        [(.lShift, true), (.rShift, true), (.lShift, false)]).modifiers.shift = false :=
  ⟨by decide, by decide⟩

end InputQueue

end Vantara
