import Vantara.Drivers.Input

/-!
# Keys of the shell

The shell decodes the bytes that the input queue made of the keys.
-/

namespace Vantara

/-- What the line editor of the shell understands. -/
inductive Key
  | up | down | right | left | home | endKey | delete | backspace | clearLine | enter | ignore
  | char (byte : UInt8)
  deriving DecidableEq

/-- The key that the bytes after an escape stand for. -/
def readEscapeKey : List UInt8 → Option (Key × List UInt8)
  | 0x5b :: 0x41 :: rest => some (.up, rest)
  | 0x5b :: 0x42 :: rest => some (.down, rest)
  | 0x5b :: 0x43 :: rest => some (.right, rest)
  | 0x5b :: 0x44 :: rest => some (.left, rest)
  | 0x5b :: 0x48 :: rest => some (.home, rest)
  | 0x5b :: 0x46 :: rest => some (.endKey, rest)
  | 0x5b :: byte :: rest =>
    if byte = 0x31 ∨ byte = 0x37 then rest.tail?.map (.home, ·)
    else if byte = 0x33 then rest.tail?.map (.delete, ·)
    else if byte = 0x34 ∨ byte = 0x38 then rest.tail?.map (.endKey, ·)
    else some (.ignore, rest)
  | [0x5b] => none
  | _ :: rest => some (.ignore, rest)
  | [] => none

/-- The next key and the bytes behind it; without enough bytes the shell waits. -/
def readKey : List UInt8 → Option (Key × List UInt8)
  | [] => none
  | byte :: rest =>
    if byte = 10 then some (.enter, rest)
    else if byte = 8 ∨ byte = 127 then some (.backspace, rest)
    else if byte = 21 then some (.clearLine, rest)
    else if byte = 27 then readEscapeKey rest
    else some (.char byte, rest)

/-- The keys that at most `count` calls of `readKey` return. -/
def readKeys : Nat → List UInt8 → List Key
  | 0, _ => []
  | count + 1, bytes =>
    match readKey bytes with
    | some (key, rest) => key :: readKeys count rest
    | none => []

/-- A character or a key that is given to the input queue. -/
inductive Stroke
  | char (ch : Char)
  | special (key : KeyCode)
  deriving DecidableEq

namespace Stroke

/-- What the shell is meant to see of a stroke. -/
def meaning : Stroke → Option Key
  | .char ch =>
    if ch.toNat = 10 then some .enter
    else if ch.toNat = 8 then some .backspace
    else if ch.toNat = 21 then some .clearLine
    else if 0x20 ≤ ch.toNat ∧ ch.toNat ≤ 0x7e then some (.char ch.toUInt8)
    else none
  | .special .arrowUp | .special .numpad8 => some .up
  | .special .arrowDown | .special .numpad2 => some .down
  | .special .arrowRight | .special .numpad6 => some .right
  | .special .arrowLeft | .special .numpad4 => some .left
  | .special .home | .special .numpad7 => some .home
  | .special .endKey | .special .numpad1 => some .endKey
  | .special .delete | .special .numpadPeriod => some .delete
  | .special _ => none

/-- The bytes of a stroke. -/
def encoding : Stroke → List UInt8
  | .char ch => [ch.toUInt8]
  | .special key => (terminalSequenceForKey key).getD []

/-- The queue after a stroke. -/
def handle (queue : InputQueue) : Stroke → InputQueue
  | .char ch => queue.handleKeyboardChar ch
  | .special key => (queue.handleKeyboardKey key true).1

variable {stroke : Stroke} {key : Key}

/-- A character with a meaning is one byte, which alone has that meaning. -/
theorem char_cases (means : (char ch).meaning = some key) :
    ch.toNat < 128 ∧ ∀ rest, readKey (ch.toUInt8 :: rest) = some (key, rest) := by
  simp only [meaning] at means
  have low : ch.toNat < 128 := by
    split_ifs at means <;> omega
  have byte (value : UInt8) : ch.toUInt8 = value ↔ ch.toNat = value.toNat := by
    rw [← UInt8.toNat_inj, Char.toUInt8, UInt32.toNat_toUInt8, Nat.mod_eq_of_lt]
    · rfl
    · exact Nat.lt_trans low (by decide)
  refine ⟨low, fun rest => ?_⟩
  simp only [readKey, byte, UInt8.reduceToNat]
  split_ifs at means <;> cases means <;> split_ifs
  all_goals first | rfl | omega

theorem readKey_encoding (means : stroke.meaning = some key) (rest : List UInt8) :
    readKey (stroke.encoding ++ rest) = some (key, rest) := by
  cases stroke with
  | char ch => exact (char_cases means).2 rest
  | special code => cases code <;> cases means <;> rfl

theorem readKey_take_encoding
    (means : stroke.meaning = some key)
    (short : count < stroke.encoding.length) :
    readKey (stroke.encoding.take count) = none := by
  cases stroke with
  | char ch =>
    obtain rfl : count = 0 := Nat.lt_one_iff.mp short
    rfl
  | special code =>
    revert count
    cases code <;> cases means <;> decide

/-- What the shell reads of whole encodings are the first of their keys. -/
theorem readKeys_prefix (strokes : List Stroke)
    (clear : ∀ stroke ∈ strokes, stroke.meaning.isSome)
    (count : Nat)
    (isPrefix : bytes <+: strokes.flatMap encoding) :
    readKeys count bytes <+: strokes.filterMap meaning := by
  induction strokes generalizing count bytes with
  | nil =>
    obtain rfl : bytes = [] := by simpa using isPrefix
    cases count <;> exact List.nil_prefix
  | cons stroke strokes ih =>
    obtain ⟨key, means⟩ := Option.isSome_iff_exists.mp (clear stroke List.mem_cons_self)
    cases count with
    | zero => exact List.nil_prefix
    | succ count =>
      rw [List.flatMap_cons] at isPrefix
      obtain short | long := Nat.lt_or_ge bytes.length stroke.encoding.length
      · have isTake := List.prefix_iff_eq_take.mp
          (List.prefix_of_prefix_length_le isPrefix (List.prefix_append _ _) (Nat.le_of_lt short))
        rw [readKeys, isTake, readKey_take_encoding means short]
        exact List.nil_prefix
      · obtain ⟨rest, rfl⟩ :=
          List.prefix_of_prefix_length_le (List.prefix_append _ _) isPrefix long
        rw [readKeys, readKey_encoding means, List.filterMap_cons_some means]
        exact List.cons_prefix_cons.mpr ⟨rfl, ih (fun stroke listed =>
          clear stroke (List.mem_cons_of_mem _ listed)) count
          ((List.prefix_append_right_inj _).mp isPrefix)⟩

end Stroke

theorem InputQueue.keyboardBytes_enqueueKeyboardBytes (queue : InputQueue) (bytes : List UInt8)
    (bound : queue.keyboardBytes.length ≤ keyboardByteQueueCapacity) :
    (queue.enqueueKeyboardBytes bytes).keyboardBytes =
      (queue.keyboardBytes ++ bytes).take keyboardByteQueueCapacity := by
  induction bytes generalizing queue with
  | nil =>
    rw [List.append_nil, List.take_of_length_le bound]
    rfl
  | cons byte bytes ih =>
    refine (ih _ ?_).trans ?_
    all_goals
      unfold enqueueKeyboardByte
      split
    · simp only [List.length_append, List.length_singleton]
      omega
    · exact bound
    · simp
    · have full : queue.keyboardBytes.length = keyboardByteQueueCapacity := by omega
      rw [← full, List.take_left, List.take_left]

/-- The queue takes of an encoding what fits. -/
theorem Stroke.keyboardBytes_handle (queue : InputQueue) {stroke : Stroke} {key : Key}
    (means : stroke.meaning = some key)
    (bound : queue.keyboardBytes.length ≤ keyboardByteQueueCapacity) :
    (stroke.handle queue).keyboardBytes =
      (queue.keyboardBytes ++ stroke.encoding).take keyboardByteQueueCapacity := by
  cases stroke with
  | char ch =>
    rw [← queue.keyboardBytes_enqueueKeyboardBytes _ bound]
    simp [handle, InputQueue.handleKeyboardChar, (char_cases means).1, encoding,
      InputQueue.enqueueKeyboardBytes]
  | special code =>
    cases code <;> cases means <;>
      simp [handle, InputQueue.handleKeyboardKey, KeyCode.controlSignal,
        InputQueue.enqueueTerminalSequence, encoding, terminalSequenceForKey,
        InputQueue.keyboardBytes_enqueueKeyboardBytes, bound]

/-- A stroke, the release of a key, or a byte that the shell reads. -/
inductive Typing
  | type (stroke : Stroke)
  | release (key : KeyCode)
  | read
  deriving DecidableEq

namespace Typing

/-- The stroke, if it is one. -/
def stroke? : Typing → Option Stroke
  | .type stroke => some stroke
  | .release _ | .read => none

/-- The bytes that the shell reads. -/
def dequeued (queue : InputQueue) : List Typing → List UInt8
  | [] => []
  | .type stroke :: rest => dequeued (stroke.handle queue) rest
  | .release key :: rest => dequeued (queue.handleKeyboardKey key false).1 rest
  | .read :: rest =>
    queue.dequeueKeyboardByte.2.toList ++ dequeued queue.dequeueKeyboardByte.1 rest

/-- Each encoding finds room or a full queue. -/
def fits (queue : InputQueue) : List Typing → Bool
  | [] => true
  | .type stroke :: rest =>
    (keyboardByteQueueCapacity ≤ queue.keyboardBytes.length ||
      queue.keyboardBytes.length + stroke.encoding.length ≤ keyboardByteQueueCapacity) &&
        fits (stroke.handle queue) rest
  | .release key :: rest => fits (queue.handleKeyboardKey key false).1 rest
  | .read :: rest => fits queue.dequeueKeyboardByte.1 rest

/-- What the shell reads are whole encodings of some strokes, up to the last one. -/
theorem dequeued_prefix (steps : List Typing)
    (clear : ∀ stroke ∈ steps.filterMap stroke?, stroke.meaning.isSome)
    {queue : InputQueue}
    (bound : queue.keyboardBytes.length ≤ keyboardByteQueueCapacity)
    (fit : fits queue steps = true) :
    ∃ accepted : List Stroke, accepted.Sublist (steps.filterMap stroke?) ∧
      dequeued queue steps <+: queue.keyboardBytes ++ accepted.flatMap Stroke.encoding := by
  induction steps generalizing queue with
  | nil => exact ⟨[], List.nil_sublist _, List.nil_prefix⟩
  | cons next steps ih =>
    cases next with
    | release key =>
      have same : (queue.handleKeyboardKey key false).1.keyboardBytes = queue.keyboardBytes := by
        simp [InputQueue.handleKeyboardKey]
      exact same ▸ ih clear (same ▸ bound) fit
    | read =>
      obtain ⟨accepted, isSublist, isPrefix⟩ := ih clear (Nat.le_trans (by
        simp [InputQueue.dequeueKeyboardByte]) bound) fit
      refine ⟨accepted, isSublist, ?_⟩
      rw [dequeued]
      cases isBytes : queue.keyboardBytes with
      | nil => simpa [InputQueue.dequeueKeyboardByte, isBytes] using isPrefix
      | cons byte bytes =>
        simpa [InputQueue.dequeueKeyboardByte, isBytes, List.cons_prefix_cons] using isPrefix
    | type stroke =>
      obtain ⟨key, means⟩ := Option.isSome_iff_exists.mp (clear stroke List.mem_cons_self)
      have bytes := stroke.keyboardBytes_handle queue means bound
      simp only [fits, Bool.and_eq_true, Bool.or_eq_true, decide_eq_true_eq] at fit
      obtain ⟨accepted, isSublist, isPrefix⟩ := ih
        (fun stroke listed => clear stroke (List.mem_cons_of_mem _ listed))
        (by rw [bytes, List.length_take]; omega) fit.2
      rw [bytes] at isPrefix
      obtain full | room := fit.1
      · rw [Nat.le_antisymm full bound, List.take_left] at isPrefix
        exact ⟨accepted, isSublist.cons _, isPrefix⟩
      · refine ⟨stroke :: accepted, isSublist.cons_cons _, ?_⟩
        rw [List.take_of_length_le (by simpa using room)] at isPrefix
        simpa [dequeued] using isPrefix

/-- The shell reads keys that were given to the queue, in their order, as long as no
encoding is cut by a queue that is nearly full. -/
theorem readKeys_sublist (steps : List Typing)
    (clear : ∀ stroke ∈ steps.filterMap stroke?, stroke.meaning.isSome)
    (fit : fits .new steps = true)
    (count : Nat) :
    (readKeys count (dequeued .new steps)).Sublist
      ((steps.filterMap stroke?).filterMap Stroke.meaning) := by
  obtain ⟨accepted, isSublist, isPrefix⟩ := dequeued_prefix steps clear (Nat.zero_le _) fit
  have read := Stroke.readKeys_prefix accepted
    (fun stroke listed => clear stroke (isSublist.subset listed)) count isPrefix
  exact read.sublist.trans (isSublist.filterMap _)

theorem readKeys_sublist_delete :
    (readKeys 4 (dequeued .new (.type (.special .delete) :: .type (.char 'a') ::
      List.replicate 5 .read))).Sublist [.delete, .char 97] :=
  readKeys_sublist (.type (.special .delete) :: .type (.char 'a') :: List.replicate 5 .read)
    (by decide) (by decide) 4

/-- An arrow up that finds room for one byte, and a letter after all is read. -/
def cutArrow : List Typing :=
  List.replicate 127 (.type (.special .delete)) ++ List.replicate 3 (.type (.char 'a')) ++
    .type (.special .arrowUp) :: (List.replicate 512 .read ++ [.type (.char 'x'), .read])

/-- Only the escape of the arrow is kept, and the letter is decoded with it as a key that
nobody pressed. -/
theorem arrow_cut :
    (∀ stroke ∈ cutArrow.filterMap stroke?, stroke.meaning.isSome) ∧
      .ignore ∈ readKeys 131 (dequeued .new cutArrow) ∧
      .ignore ∉ (cutArrow.filterMap stroke?).filterMap Stroke.meaning :=
  ⟨by decide +kernel, by decide +kernel, by decide +kernel⟩

end Typing

end Vantara
