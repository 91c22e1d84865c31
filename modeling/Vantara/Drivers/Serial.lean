import Vantara.Foundation.Ring

/-!
# The kernel log

What is written to the serial line is also kept in a ring, from which the newest
bytes can be copied.
-/

namespace Vantara

open Foundation

/-- The size of the ring. -/
def uartRingCapacity : Nat := 8192

/-- The ring, where it is written next, and how much it holds. -/
structure UartRingBuffer where
  bytes : List UInt8
  writeIndex : Nat
  len : Nat

namespace UartRingBuffer

/-- The empty ring. -/
def new : UartRingBuffer := ⟨List.replicate uartRingCapacity 0, 0, 0⟩

/-- Write a byte, over the oldest if the ring is full. -/
def push (ring : UartRingBuffer) (byte : UInt8) : UartRingBuffer where
  bytes := ring.bytes.set ring.writeIndex byte
  writeIndex := (ring.writeIndex + 1) % uartRingCapacity
  len := min (ring.len + 1) uartRingCapacity

/-- Write bytes one by one. -/
def writeStr (ring : UartRingBuffer) (text : List UInt8) : UartRingBuffer :=
  text.foldl push ring

/-- The position of the oldest byte. -/
def oldest (ring : UartRingBuffer) : Nat :=
  (ring.writeIndex + uartRingCapacity - ring.len) % uartRingCapacity

/-- How many bytes are copied, and the buffer after that. -/
def copyRecent (ring : UartRingBuffer) (out : List UInt8) : Nat × List UInt8 :=
  let count := min ring.len out.length
  let skip := ring.len - count
  let copied := (List.range count).map fun index =>
    ring.bytes.getD ((ring.oldest + skip + index) % uartRingCapacity) 0
  (count, copied ++ out.drop count)

/-- The ring holds the newest bytes of what was written. -/
structure Holds (ring : UartRingBuffer) (written : List UInt8) : Prop where
  slots : ring.bytes.length = uartRingCapacity
  inside : ring.writeIndex < uartRingCapacity
  len : ring.len = min written.length uartRingCapacity
  contents : ringContents ring.bytes 0 ring.oldest ring.len =
    written.drop (written.length - ring.len)

variable {ring : UartRingBuffer} {written : List UInt8}

theorem holds_new : new.Holds [] :=
  ⟨List.length_replicate, by decide, rfl, rfl⟩

/-- The newest byte goes behind the others; a full ring first loses its oldest one. -/
theorem Holds.push (holds : ring.Holds written) (byte : UInt8) :
    (ring.push byte).Holds (written ++ [byte]) := by
  obtain ⟨slots, inside, len, contents⟩ := holds
  rw [uartRingCapacity] at slots inside len
  obtain ⟨kept, room, isLen, isSlot, isKept⟩ : ∃ kept, kept < ring.bytes.length ∧
      (ring.push byte).len = kept + 1 ∧
      ((ring.push byte).oldest + kept) % ring.bytes.length = ring.writeIndex ∧
      ringContents ring.bytes 0 (ring.push byte).oldest kept =
        written.drop (written.length - kept) := by
    simp only [UartRingBuffer.push, oldest, uartRingCapacity, slots] at contents ⊢
    by_cases isFull : ring.len = 8192
    · obtain ⟨kept, isKept⟩ : ∃ kept, ring.len = kept + 1 := ⟨8191, isFull⟩
      have atHead : (ring.writeIndex + 8192 - ring.len) % 8192 = ring.writeIndex := by
        rw [isFull, Nat.add_sub_cancel, Nat.mod_eq_of_lt inside]
      have stays : min (ring.len + 1) 8192 = 8192 := Nat.min_eq_right (by omega)
      have dropped : written.length - kept = written.length - (kept + 1) + 1 := by omega
      rw [atHead, isKept, ringContents_succ (slots ▸ inside), slots] at contents
      rw [stays, Nat.add_sub_cancel, Nat.mod_mod]
      refine ⟨kept, by omega, by omega, by omega, ?_⟩
      rw [dropped, ← List.tail_drop, ← contents, List.tail_cons]
    · refine ⟨ring.len, by omega, by omega, by omega, ?_⟩
      rw [← contents]
      congr 1
      omega
  have fits : kept ≤ written.length := by
    have same := congrArg List.length isKept
    rw [length_ringContents, List.length_drop] at same
    omega
  have isNew : (ring.push byte).len = min (ring.len + 1) 8192 := rfl
  refine ⟨List.length_set.trans slots, Nat.mod_lt _ (by decide), ?_, ?_⟩
  · rw [isNew, List.length_append, List.length_singleton, uartRingCapacity]
    omega
  · rw [isLen, List.length_append, List.length_singleton, Nat.add_sub_add_right,
      List.drop_append_of_le_length (Nat.sub_le _ _), ← isKept, ← ringContents_push room, isSlot]
    rfl

theorem Holds.writeStr (holds : ring.Holds written) (text : List UInt8) :
    (ring.writeStr text).Holds (written ++ text) := by
  induction text generalizing ring written with
  | nil => simpa [UartRingBuffer.writeStr] using holds
  | cons byte text ih => simpa [UartRingBuffer.writeStr] using ih (holds.push byte)

theorem Holds.writeAll (holds : ring.Holds written) (texts : List (List UInt8)) :
    (texts.foldl UartRingBuffer.writeStr ring).Holds (written ++ texts.flatten) := by
  induction texts generalizing ring written with
  | nil => simpa using holds
  | cons text texts ih => simpa using ih (holds.writeStr text)

theorem Holds.copied (holds : ring.Holds written) (count : Nat) (enough : count ≤ ring.len) :
    ((List.range count).map fun index =>
      ring.bytes.getD ((ring.oldest + (ring.len - count) + index) % uartRingCapacity) 0) =
        written.drop (written.length - count) := by
  obtain ⟨slots, -, len, contents⟩ := holds
  have shifted : ((List.range count).map fun index =>
      ring.bytes.getD ((ring.oldest + (ring.len - count) + index) % uartRingCapacity) 0) =
        (ringContents ring.bytes 0 ring.oldest ring.len).drop (ring.len - count) := by
    refine List.ext_getElem (by simp; omega) fun index inside _ => ?_
    simp [ringContents, slots, Nat.add_assoc]
  rw [shifted, contents, List.drop_drop]
  congr 1
  omega

/-- Whatever was written, the newest bytes are copied, as many as the ring and the buffer
hold, and the rest of the buffer stays. -/
theorem copyRecent_newest (texts : List (List UInt8)) (out : List UInt8) :
    ∃ count copied, (texts.foldl writeStr new).copyRecent out = (count, copied) ∧
      count = min (min texts.flatten.length uartRingCapacity) out.length ∧
      copied.take count = texts.flatten.drop (texts.flatten.length - count) ∧
      copied.drop count = out.drop count := by
  have holds := holds_new.writeAll texts
  rw [List.nil_append] at holds
  generalize texts.foldl writeStr new = ring at holds
  have newest := holds.copied (min ring.len out.length) (Nat.min_le_left _ _)
  have length : (texts.flatten.drop (texts.flatten.length - min ring.len out.length)).length =
      min ring.len out.length := by
    have len := holds.len
    rw [List.length_drop]
    omega
  refine ⟨_, _, rfl, congrArg (min · out.length) holds.len, ?_, ?_⟩
  · rw [newest]
    exact List.take_left' length
  · rw [newest]
    exact List.drop_left' length

end UartRingBuffer

end Vantara
