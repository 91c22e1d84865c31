import Vantara.Foundation.Ring
import Vantara.Ledger.Accounts

/-!
# Pipes, message queues and events as bounded queues

Pipes and message queues keep what is in flight in a ring.  The histories below record
beside the object everything it ever accepted and handed out, so that an unbounded queue
can be compared with the ring through every run of calls.  An event keeps the threads that
wait for it at the front of an array, and every departure closes the gap.
-/

namespace Vantara

open Foundation

/-! ## Pipes -/

namespace Pipe

variable {pipe after : Pipe} {source bytes taken : List UInt8}
  {capacity count : Nat} {error : SyscallError}

/-- The indices stay inside the ring. -/
structure Sound (pipe : Pipe) : Prop where
  slots : pipe.bytes.length = pipeCapacity
  head : pipe.readIndex < pipeCapacity
  fits : pipe.len ≤ pipeCapacity

/-- The bytes in flight, oldest first. -/
def queued (pipe : Pipe) : List UInt8 :=
  ringContents pipe.bytes 0 pipe.readIndex pipe.len

@[simp]
theorem length_queued : pipe.queued.length = pipe.len :=
  length_ringContents

theorem queued_eq_nil_iff : pipe.queued = [] ↔ pipe.len = 0 := by
  rw [← List.length_eq_zero_iff, length_queued]

theorem sound_new {id : UInt64} {owner : Pid} : (new id owner).Sound where
  slots := List.length_replicate
  head := show 0 < pipeCapacity by decide
  fits := Nat.zero_le _

theorem Sound.pushByte (sound : pipe.Sound) (byte : UInt8) (room : pipe.len < pipeCapacity) :
    (pipe.pushByte byte).Sound ∧ (pipe.pushByte byte).queued = pipe.queued ++ [byte] := by
  obtain ⟨slots, head, -⟩ := sound
  refine ⟨⟨by simpa [Pipe.pushByte] using slots, head, room⟩, ?_⟩
  unfold queued Pipe.pushByte
  rw [← slots] at room ⊢
  exact ringContents_push room

theorem Sound.pushBytes (sound : pipe.Sound) (room : pipe.len + bytes.length ≤ pipeCapacity) :
    (bytes.foldl Pipe.pushByte pipe).Sound ∧
      (bytes.foldl Pipe.pushByte pipe).queued = pipe.queued ++ bytes := by
  induction bytes generalizing pipe with
  | nil => exact ⟨sound, (List.append_nil _).symm⟩
  | cons byte bytes ih =>
    rw [List.length_cons] at room
    obtain ⟨pushedSound, pushed⟩ := sound.pushByte byte (by omega)
    have room' : (pipe.pushByte byte).len + bytes.length ≤ pipeCapacity := by
      simp only [Pipe.pushByte]
      omega
    obtain ⟨allSound, all⟩ := ih pushedSound room'
    refine ⟨allSound, ?_⟩
    rw [List.foldl_cons, all, pushed, List.append_assoc, List.singleton_append]

theorem Sound.popBytes (sound : pipe.Sound) (present : count ≤ pipe.len) :
    (popBytes count pipe).2.Sound ∧ (popBytes count pipe).1 = pipe.queued.take count ∧
      (popBytes count pipe).2.queued = pipe.queued.drop count := by
  induction count generalizing pipe with
  | zero => exact ⟨sound, rfl, rfl⟩
  | succ count ih =>
    obtain ⟨slots, head, fits⟩ := sound
    let rest : Pipe :=
      { pipe with readIndex := (pipe.readIndex + 1) % pipeCapacity, len := pipe.len - 1 }
    have restSound : rest.Sound :=
      ⟨slots, Nat.mod_lt _ (by decide), (Nat.sub_le _ _).trans fits⟩
    have isQueued : pipe.queued = pipe.bytes.getD pipe.readIndex 0 :: rest.queued := by
      obtain ⟨earlier, isLen⟩ : ∃ earlier, pipe.len = earlier + 1 := ⟨pipe.len - 1, by omega⟩
      unfold queued
      simp only [rest, isLen, Nat.add_sub_cancel, ← slots]
      exact ringContents_succ (slots ▸ head)
    obtain ⟨allSound, isTaken, isLeft⟩ :=
      ih restSound (show count ≤ pipe.len - 1 by omega)
    refine ⟨allSound, ?_, ?_⟩
    · rw [isQueued, List.take_succ_cons, ← isTaken]
      rfl
    · rw [isQueued, List.drop_succ_cons, ← isLeft]
      rfl

/-- A write that is not refused queues the longest part of the source that fits. -/
theorem Sound.write (sound : pipe.Sound) (written : pipe.write source = .ok (count, after)) :
    after.Sound ∧ count = min source.length (pipeCapacity - pipe.queued.length) ∧
      after.queued = pipe.queued ++ source.take count ∧ pipe.readers ≠ 0 := by
  unfold Pipe.write at written
  split_ifs at written with noReader isFull
  cases written
  have room : pipe.len + (source.take (min source.length (pipeCapacity - pipe.len))).length ≤
      pipeCapacity := by
    have fits := sound.fits
    rw [List.length_take]
    omega
  obtain ⟨pushedSound, pushed⟩ := sound.pushBytes room
  exact ⟨pushedSound, by rw [length_queued], pushed, noReader⟩

theorem write_eq_error (failed : pipe.write source = .error error) :
    pipe.readers = 0 ∧ error = .invalidArgument ∨
      pipe.queued.length = pipeCapacity ∧ error = .wouldBlock := by
  unfold Pipe.write at failed
  split_ifs at failed with noReader isFull
  · cases failed
    exact .inl ⟨noReader, rfl⟩
  · cases failed
    exact .inr ⟨length_queued.trans isFull, rfl⟩

/-- A read that is not refused hands out the oldest bytes that fit, and none only at
the end of what was written. -/
theorem Sound.read (sound : pipe.Sound) (done : pipe.read capacity = .ok (taken, after)) :
    after.Sound ∧ taken = pipe.queued.take capacity ∧ after.queued = pipe.queued.drop capacity ∧
      (pipe.queued = [] → pipe.writers = 0) := by
  unfold Pipe.read at done
  split_ifs at done with isEmpty noWriter
  · cases done
    have nothing := queued_eq_nil_iff.mpr isEmpty
    refine ⟨sound, ?_, ?_, fun _ => noWriter⟩ <;> simp [nothing]
  · have isDone := Except.ok.inj done
    obtain ⟨restSound, isTaken, isLeft⟩ := sound.popBytes (Nat.min_le_right capacity pipe.len)
    rw [isDone] at restSound isTaken isLeft
    refine ⟨restSound, ?_, ?_, fun nothing => absurd (queued_eq_nil_iff.mp nothing) isEmpty⟩
    · refine isTaken.trans ?_
      rw [← length_queued, ← List.take_eq_take_min]
    · refine isLeft.trans ?_
      rw [← length_queued, ← List.drop_eq_drop_min]

theorem read_eq_error (failed : pipe.read capacity = .error error) :
    error = .wouldBlock ∧ pipe.queued = [] ∧ pipe.writers ≠ 0 := by
  unfold Pipe.read at failed
  split_ifs at failed with isEmpty noWriter
  cases failed
  exact ⟨rfl, queued_eq_nil_iff.mpr isEmpty, noWriter⟩

end Pipe

/-- Calls on a pipe, and the closings of its ends. -/
inductive PipeCall
  | write (source : List UInt8)
  | read (capacity : Nat)
  | closeReader
  | closeWriter

/-- A pipe with everything its writes accepted and its reads handed out. -/
structure PipeHistory where
  pipe : Pipe
  accepted : List UInt8
  returned : List UInt8

namespace PipeHistory

variable {history : PipeHistory}

/-- A pipe that has just been created. -/
def start (id : UInt64) (owner : Pid) : PipeHistory :=
  ⟨Pipe.new id owner, [], []⟩

/-- One call; what is refused leaves the pipe as it is. -/
def perform (history : PipeHistory) : PipeCall → PipeHistory
  | .write source =>
    match history.pipe.write source with
    | .error _ => history
    | .ok (count, pipe) =>
      { history with pipe, accepted := history.accepted ++ source.take count }
  | .read capacity =>
    match history.pipe.read capacity with
    | .error _ => history
    | .ok (bytes, pipe) => { history with pipe, returned := history.returned ++ bytes }
  | .closeReader =>
    { history with pipe := { history.pipe with readers := history.pipe.readers - 1 } }
  | .closeWriter =>
    { history with pipe := { history.pipe with writers := history.pipe.writers - 1 } }

/-- What a pipe keeps through its calls. -/
structure InOrder (history : PipeHistory) : Prop where
  sound : history.pipe.Sound
  order : history.accepted = history.returned ++ history.pipe.queued

theorem inOrder_start {id : UInt64} {owner : Pid} : (start id owner).InOrder :=
  ⟨Pipe.sound_new, rfl⟩

theorem InOrder.perform (inOrder : history.InOrder) (call : PipeCall) :
    (history.perform call).InOrder := by
  obtain ⟨sound, order⟩ := inOrder
  cases call with
  | write source =>
    unfold PipeHistory.perform
    dsimp only
    split
    · exact ⟨sound, order⟩
    · rename_i count pipe written
      obtain ⟨afterSound, -, isQueued, -⟩ := sound.write written
      refine ⟨afterSound, ?_⟩
      rw [order, isQueued, List.append_assoc]
  | read capacity =>
    unfold PipeHistory.perform
    dsimp only
    split
    · exact ⟨sound, order⟩
    · rename_i bytes pipe done
      obtain ⟨afterSound, isTaken, isQueued, -⟩ := sound.read done
      refine ⟨afterSound, ?_⟩
      rw [order, isTaken, isQueued, List.append_assoc, List.take_append_drop]
  | closeReader | closeWriter => exact ⟨⟨sound.slots, sound.head, sound.fits⟩, order⟩

theorem InOrder.performAll (inOrder : history.InOrder) (calls : List PipeCall) :
    (calls.foldl PipeHistory.perform history).InOrder := by
  induction calls generalizing history with
  | nil => exact inOrder
  | cons call calls ih => exact ih (inOrder.perform call)

/-- The pipe is a bounded queue of bytes: what was handed out and then what is in
flight make up what was accepted, and each call does to them what a queue does.  Reads
and writes leave both counts of ends, so only a closing closes an end. -/
structure IsFifo (history : PipeHistory) : Prop where
  handedOut : history.returned <+: history.accepted
  inFlight : history.accepted.drop history.returned.length = history.pipe.queued
  bounded : history.pipe.queued.length ≤ pipeCapacity
  written : ∀ source count after, history.pipe.write source = .ok (count, after) →
    count = min source.length (pipeCapacity - history.pipe.queued.length) ∧
      after.queued = history.pipe.queued ++ source.take count ∧ history.pipe.SameEnds after
  notWritten : ∀ source error, history.pipe.write source = .error error →
    history.pipe.readers = 0 ∧ error = .invalidArgument ∨
      history.pipe.queued.length = pipeCapacity ∧ error = .wouldBlock
  read : ∀ capacity bytes after, history.pipe.read capacity = .ok (bytes, after) →
    bytes = history.pipe.queued.take capacity ∧
      after.queued = history.pipe.queued.drop capacity ∧ history.pipe.SameEnds after
  ended : ∀ capacity after, 0 < capacity → history.pipe.read capacity = .ok ([], after) →
    history.returned = history.accepted ∧ history.pipe.writers = 0
  notRead : ∀ capacity error, history.pipe.read capacity = .error error →
    error = .wouldBlock ∧ history.pipe.queued = [] ∧ history.pipe.writers ≠ 0

theorem InOrder.isFifo (inOrder : history.InOrder) : history.IsFifo := by
  obtain ⟨sound, order⟩ := inOrder
  refine
    { handedOut := ⟨history.pipe.queued, order.symm⟩
      inFlight := by rw [order, List.drop_left]
      bounded := Pipe.length_queued.trans_le sound.fits
      written := ?_
      notWritten := fun _ _ => Pipe.write_eq_error
      read := ?_
      ended := ?_
      notRead := fun _ _ => Pipe.read_eq_error }
  · intro source count after written
    obtain ⟨-, isCount, isQueued, -⟩ := sound.write written
    have same := @Pipe.sameEnds_write history.pipe source
    rw [written] at same
    cases same with
    | ok sameEnds => exact ⟨isCount, isQueued, sameEnds⟩
  · intro capacity bytes after done
    obtain ⟨-, isTaken, isQueued, -⟩ := sound.read done
    have same := @Pipe.sameEnds_read history.pipe capacity
    rw [done] at same
    cases same with
    | ok sameEnds => exact ⟨isTaken, isQueued, sameEnds⟩
  · intro capacity after positive done
    obtain ⟨-, isTaken, -, closed⟩ := sound.read done
    have nothing : history.pipe.queued = [] :=
      (List.take_eq_nil_iff.mp isTaken.symm).resolve_left (by omega)
    rw [order, nothing, List.append_nil]
    exact ⟨rfl, closed nothing⟩

/-- Through every run of writes, reads and closings a pipe is a bounded queue of bytes. -/
theorem pipe_isFifo (id : UInt64) (owner : Pid) (calls : List PipeCall) :
    (calls.foldl perform (start id owner)).IsFifo :=
  (inOrder_start.performAll calls).isFifo

end PipeHistory

/-! ## Message queues -/

namespace Message

variable {message : Message} {source : List UInt8}

/-- The message lies inside its slot. -/
structure Sound (message : Message) : Prop where
  slot : message.bytes.length = maxMessageSize
  fits : message.len ≤ maxMessageSize

theorem sound_empty : Message.empty.Sound :=
  ⟨List.length_replicate, Nat.zero_le _⟩

theorem Sound.copyFrom (sound : message.Sound) (fits : source.length ≤ maxMessageSize) :
    (message.copyFrom source).Sound := by
  refine ⟨?_, fits⟩
  simp only [Message.copyFrom, List.length_append, List.length_drop, sound.slot]
  omega

theorem Sound.length_payload (sound : message.Sound) : message.payload.length = message.len := by
  rw [payload, List.length_take, sound.slot]
  exact Nat.min_eq_left sound.fits

/-- Whatever the slot held before, its message is the one copied last. -/
@[simp]
theorem payload_copyFrom : (message.copyFrom source).payload = source :=
  List.take_left

end Message

namespace MessageQueue

variable {queue after : MessageQueue} {source received : List UInt8}
  {capacity count : Nat} {error : SyscallError}

/-- The indices stay inside the ring, and the messages inside their slots. -/
structure Sound (queue : MessageQueue) : Prop where
  slots : queue.messages.length = messageQueueDepth
  head : queue.readIndex < messageQueueDepth
  fits : queue.len ≤ messageQueueDepth
  messages : ∀ message ∈ queue.messages, message.Sound

/-- The messages sent and not yet received, oldest first. -/
def outstanding (queue : MessageQueue) : List (List UInt8) :=
  (ringContents queue.messages .empty queue.readIndex queue.len).map Message.payload

@[simp]
theorem length_outstanding : queue.outstanding.length = queue.len := by
  simp [outstanding]

theorem outstanding_eq_nil_iff : queue.outstanding = [] ↔ queue.len = 0 := by
  rw [← List.length_eq_zero_iff, length_outstanding]

theorem sound_new {id : UInt64} {owner : Pid} : (new id owner).Sound where
  slots := List.length_replicate
  head := show 0 < messageQueueDepth by decide
  fits := Nat.zero_le _
  messages := fun _ listed => (List.eq_of_mem_replicate listed).symm ▸ Message.sound_empty

theorem Sound.slot (sound : queue.Sound) (index : Nat) :
    (queue.messages.getD index .empty).Sound := by
  rw [List.getD_eq_getElem?_getD]
  cases found : queue.messages[index]? with
  | none => exact Message.sound_empty
  | some message => exact sound.messages message (List.mem_of_getElem? found)

theorem Sound.set (sound : queue.Sound) (inSlot : message.Sound) (index : Nat) :
    ∀ other ∈ queue.messages.set index message, other.Sound := by
  intro other listed
  rcases List.mem_or_eq_of_mem_set listed with old | rfl
  · exact sound.messages other old
  · exact inSlot

/-- A message that is not refused stands behind all others, as it was sent. -/
theorem Sound.send (sound : queue.Sound) (sent : queue.send source = .ok (count, after)) :
    after.Sound ∧ count = source.length ∧ after.outstanding = queue.outstanding ++ [source] := by
  unfold MessageQueue.send at sent
  split_ifs at sent with badSize isFull
  cases sent
  have room : queue.len < messageQueueDepth := Nat.lt_of_le_of_ne sound.fits isFull
  have fits : source.length ≤ maxMessageSize := Nat.le_of_not_lt fun large => badSize (.inr large)
  refine ⟨⟨?_, sound.head, room, sound.set ((sound.slot _).copyFrom fits) _⟩, rfl, ?_⟩
  · exact List.length_set.trans sound.slots
  · unfold outstanding
    rw [← sound.slots] at room ⊢
    rw [ringContents_push room, List.map_append, List.map_singleton, Message.payload_copyFrom]

theorem send_eq_error (failed : queue.send source = .error error) :
    (source = [] ∨ maxMessageSize < source.length) ∧ error = .invalidArgument ∨
      queue.outstanding.length = messageQueueDepth ∧ error = .wouldBlock := by
  unfold MessageQueue.send at failed
  split_ifs at failed with badSize isFull
  · cases failed
    exact .inl ⟨badSize.imp_left List.isEmpty_iff.mp, rfl⟩
  · cases failed
    exact .inr ⟨length_outstanding.trans isFull, rfl⟩

/-- The oldest message stands at the head of the ring. -/
theorem Sound.outstanding_eq_cons (sound : queue.Sound) (waiting : queue.len ≠ 0) :
    queue.outstanding = (queue.messages.getD queue.readIndex .empty).payload ::
      outstanding { queue with
        messages := queue.messages.set queue.readIndex .empty
        readIndex := (queue.readIndex + 1) % messageQueueDepth
        len := queue.len - 1 } := by
  obtain ⟨slots, head, fits, -⟩ := sound
  obtain ⟨earlier, isLen⟩ : ∃ earlier, queue.len = earlier + 1 := ⟨queue.len - 1, by omega⟩
  unfold outstanding
  dsimp only
  rw [← slots] at head fits ⊢
  rw [ringContents_set_head head (by omega), isLen, Nat.add_sub_cancel, ringContents_succ head,
    List.map_cons]

/-- What is received is the oldest message, all of it and nothing else. -/
theorem Sound.receive
    (sound : queue.Sound)
    (done : queue.receive capacity = .ok (received, after)) :
    after.Sound ∧ queue.outstanding = received :: after.outstanding ∧
      received.length ≤ capacity := by
  unfold MessageQueue.receive at done
  dsimp only at done
  split_ifs at done with isEmpty tooSmall
  cases done
  refine ⟨⟨?_, ?_, ?_, sound.set Message.sound_empty _⟩, sound.outstanding_eq_cons isEmpty, ?_⟩
  · exact List.length_set.trans sound.slots
  · exact Nat.mod_lt _ (by decide)
  · exact (Nat.sub_le _ _).trans sound.fits
  · rw [(sound.slot _).length_payload]
    exact Nat.le_of_not_lt tooSmall

theorem Sound.receive_eq_error
    (sound : queue.Sound)
    (failed : queue.receive capacity = .error error) :
    queue.outstanding = [] ∧ error = .wouldBlock ∨
      (∃ oldest later, queue.outstanding = oldest :: later ∧ capacity < oldest.length) ∧
        error = .invalidArgument := by
  unfold MessageQueue.receive at failed
  dsimp only at failed
  split_ifs at failed with isEmpty tooSmall
  · cases failed
    exact .inl ⟨outstanding_eq_nil_iff.mpr isEmpty, rfl⟩
  · cases failed
    refine .inr ⟨⟨_, _, sound.outstanding_eq_cons isEmpty, ?_⟩, rfl⟩
    rwa [(sound.slot _).length_payload]

end MessageQueue

/-- Calls on a message queue. -/
inductive MessageCall
  | send (source : List UInt8)
  | receive (capacity : Nat)

/-- A message queue with all the messages it took and handed out. -/
structure MessageHistory where
  queue : MessageQueue
  sent : List (List UInt8)
  received : List (List UInt8)

namespace MessageHistory

variable {history : MessageHistory}

/-- A queue that has just been created. -/
def start (id : UInt64) (owner : Pid) : MessageHistory :=
  ⟨MessageQueue.new id owner, [], []⟩

/-- One call; what is refused leaves the queue as it is. -/
def perform (history : MessageHistory) : MessageCall → MessageHistory
  | .send source =>
    match history.queue.send source with
    | .error _ => history
    | .ok (_, queue) => { history with queue, sent := history.sent ++ [source] }
  | .receive capacity =>
    match history.queue.receive capacity with
    | .error _ => history
    | .ok (message, queue) =>
      { history with queue, received := history.received ++ [message] }

/-- What a message queue keeps through its calls. -/
structure InOrder (history : MessageHistory) : Prop where
  sound : history.queue.Sound
  order : history.sent = history.received ++ history.queue.outstanding

theorem inOrder_start {id : UInt64} {owner : Pid} : (start id owner).InOrder :=
  ⟨MessageQueue.sound_new, rfl⟩

theorem InOrder.perform (inOrder : history.InOrder) (call : MessageCall) :
    (history.perform call).InOrder := by
  obtain ⟨sound, order⟩ := inOrder
  cases call with
  | send source =>
    unfold MessageHistory.perform
    dsimp only
    split
    · exact ⟨sound, order⟩
    · rename_i count queue sent
      obtain ⟨afterSound, -, isOutstanding⟩ := sound.send sent
      refine ⟨afterSound, ?_⟩
      rw [order, isOutstanding, List.append_assoc]
  | receive capacity =>
    unfold MessageHistory.perform
    dsimp only
    split
    · exact ⟨sound, order⟩
    · rename_i message queue done
      obtain ⟨afterSound, isOutstanding, -⟩ := sound.receive done
      refine ⟨afterSound, ?_⟩
      rw [order, isOutstanding, List.append_assoc, List.singleton_append]

theorem InOrder.performAll (inOrder : history.InOrder) (calls : List MessageCall) :
    (calls.foldl MessageHistory.perform history).InOrder := by
  induction calls generalizing history with
  | nil => exact inOrder
  | cons call calls ih => exact ih (inOrder.perform call)

/-- The queue keeps messages whole and in order: what was received and then what is
outstanding make up what was sent, and a refused call changes nothing. -/
structure KeepsMessages (history : MessageHistory) : Prop where
  inOrder : history.received <+: history.sent
  inFlight : history.sent.drop history.received.length = history.queue.outstanding
  bounded : history.queue.outstanding.length ≤ messageQueueDepth
  sends : ∀ source count after, history.queue.send source = .ok (count, after) →
    count = source.length ∧ after.outstanding = history.queue.outstanding ++ [source]
  notSent : ∀ source error, history.queue.send source = .error error →
    ((source = [] ∨ maxMessageSize < source.length) ∧ error = .invalidArgument ∨
      history.queue.outstanding.length = messageQueueDepth ∧ error = .wouldBlock) ∧
    (history.perform (.send source)).queue.outstanding = history.queue.outstanding
  receives : ∀ capacity message after, history.queue.receive capacity = .ok (message, after) →
    history.queue.outstanding = message :: after.outstanding ∧ message.length ≤ capacity
  notReceived : ∀ capacity error, history.queue.receive capacity = .error error →
    (history.queue.outstanding = [] ∧ error = .wouldBlock ∨
      (∃ oldest later, history.queue.outstanding = oldest :: later ∧ capacity < oldest.length) ∧
        error = .invalidArgument) ∧
    (history.perform (.receive capacity)).queue.outstanding = history.queue.outstanding

theorem InOrder.keepsMessages (inOrder : history.InOrder) : history.KeepsMessages := by
  obtain ⟨sound, order⟩ := inOrder
  refine
    { inOrder := ⟨history.queue.outstanding, order.symm⟩
      inFlight := by rw [order, List.drop_left]
      bounded := MessageQueue.length_outstanding.trans_le sound.fits
      sends := fun _ _ _ sent => (sound.send sent).2
      notSent := ?_
      receives := fun _ _ _ done => (sound.receive done).2
      notReceived := ?_ }
  · intro source error failed
    refine ⟨MessageQueue.send_eq_error failed, ?_⟩
    simp only [MessageHistory.perform, failed]
  · intro capacity error failed
    refine ⟨sound.receive_eq_error failed, ?_⟩
    simp only [MessageHistory.perform, failed]

/-- Through every run of sends and receives a message queue keeps messages whole and in
order. -/
theorem messageQueue_keepsMessages (id : UInt64) (owner : Pid) (calls : List MessageCall) :
    (calls.foldl perform (start id owner)).KeepsMessages :=
  (inOrder_start.performAll calls).keepsMessages

end MessageHistory

/-! ## Events -/

/-- A call on the threads that wait for an event. -/
inductive WaitCall
  | enqueue (tid : Tid)
  | dequeue
  | remove (tid : Tid)

namespace Event

variable {event : Event} {queue front rest : List Tid} {tid : Tid}

/-- A refused call changes nothing. -/
def perform (event : Event) : WaitCall → Event
  | .enqueue tid => (event.enqueue tid).getD event
  | .dequeue => (event.dequeue.map Prod.snd).getD event
  | .remove tid => event.remove tid

/-- The counted entries hold the threads of a queue, and the others are empty. -/
structure Queues (event : Event) (queue : List Tid) : Prop where
  distinct : queue.Nodup
  fits : queue.length ≤ maxEventWaiters
  count : event.waiterCount = queue.length
  waiters : event.waiters =
    queue.map some ++ List.replicate (maxEventWaiters - queue.length) none

theorem Queues.take_waiters (queues : event.Queues queue) :
    event.waiters.take event.waiterCount = queue.map some := by
  simp [queues.waiters, queues.count]

/-- The entries behind a gap move up, which leaves the last of them twice. -/
theorem shift_append (front moved back : List (Option Tid)) (gap : Option Tid) :
    ∃ last, shift (front ++ gap :: (moved ++ back)) (front.length + 1) moved.length =
      front ++ (moved ++ last :: back) := by
  induction moved generalizing front gap with
  | nil => exact ⟨gap, rfl⟩
  | cons next moved ih =>
    obtain ⟨last, shifted⟩ := ih (front ++ [next]) next
    refine ⟨last, ?_⟩
    rw [List.length_cons, shift]
    simpa using shifted

theorem Queues.closeGap (queues : event.Queues (front ++ tid :: rest)) :
    (event.closeGap front.length).Queues (front ++ rest) := by
  obtain ⟨distinct, fits, count, waiters⟩ := queues
  simp only [List.length_append, List.length_cons] at fits count waiters
  obtain ⟨last, shifted⟩ := shift_append (front.map some) (rest.map some)
    (List.replicate (maxEventWaiters - (front.length + (rest.length + 1))) none) (some tid)
  have moved : event.waiterCount - (front.length + 1) = rest.length := by omega
  have lastIndex : event.waiterCount - 1 = front.length + rest.length := by omega
  have free : maxEventWaiters - (front.length + rest.length) =
      maxEventWaiters - (front.length + (rest.length + 1)) + 1 := by omega
  simp only [List.length_map] at shifted
  refine ⟨distinct.sublist (by simp), ?_, ?_, ?_⟩
  · rw [List.length_append]
    omega
  · simp [Event.closeGap, lastIndex]
  · simp [Event.closeGap, moved, lastIndex, waiters, shifted, free, List.replicate_succ]

theorem Queues.enqueue (queues : event.Queues queue) (tid : Tid) :
    (event.enqueue tid = none ∧ (queue.length = maxEventWaiters ∨ tid ∈ queue)) ∨
      ∃ after, event.enqueue tid = some after ∧
        ¬(queue.length = maxEventWaiters ∨ tid ∈ queue) ∧ after.Queues (queue ++ [tid]) := by
  have length : event.waiters.length = maxEventWaiters := by
    simp [queues.waiters, Nat.add_sub_cancel' queues.fits]
  have waits : (queue.map some).contains (some tid) = true ↔ tid ∈ queue := by simp
  rw [Event.enqueue, queues.take_waiters, length, queues.count]
  simp only [waits]
  split_ifs with refused
  · exact .inl ⟨rfl, refused⟩
  obtain ⟨distinct, fits, count, waiters⟩ := queues
  rw [not_or] at refused
  have free : maxEventWaiters - queue.length = maxEventWaiters - (queue.length + 1) + 1 := by omega
  refine .inr ⟨_, rfl, not_or.mpr refused, ?_, ?_, ?_, ?_⟩
  · exact List.nodup_append_comm.mp (List.nodup_cons.mpr ⟨refused.2, distinct⟩)
  · rw [List.length_append, List.length_singleton]
    omega
  · simp
  · simp [waiters, free, List.replicate_succ]

/-- The first entry is empty only if all are, so the count need not be looked at. -/
theorem Queues.dequeue (queues : event.Queues queue) :
    (event.dequeue = none ∧ queue = []) ∨
      ∃ first rest after, event.dequeue = some (first, after) ∧ queue = first :: rest ∧
        after.Queues rest := by
  cases queue with
  | nil => simp [Event.dequeue, queues.waiters, maxEventWaiters, maxThreadsPerProcess]
  | cons first rest =>
    refine .inr ⟨first, rest, event.closeGap 0, ?_, rfl, @Queues.closeGap _ [] _ _ queues⟩
    simp [Event.dequeue, queues.waiters]

theorem findIdx?_of_not_mem (absent : tid ∉ queue) :
    (queue.map some).findIdx? (fun waiter => waiter = some tid) = none := by
  rw [List.findIdx?_eq_none_iff]
  intro waiter listed
  obtain ⟨other, isOther, rfl⟩ := List.mem_map.mp listed
  simp [ne_of_mem_of_not_mem isOther absent]

theorem Queues.remove (queues : event.Queues queue) (tid : Tid) :
    (event.remove tid).Queues (queue.erase tid) := by
  rw [Event.remove, queues.take_waiters]
  by_cases listed : tid ∈ queue
  · obtain ⟨front, rest, rfl⟩ := List.append_of_mem listed
    have absent : tid ∉ front := fun inFront =>
      (List.nodup_append.mp queues.distinct).2.2 tid inFront tid List.mem_cons_self rfl
    have position : ((front ++ tid :: rest).map some).findIdx? (fun waiter => waiter = some tid) =
        some front.length := by
      rw [List.map_append, List.findIdx?_append, findIdx?_of_not_mem absent]
      simp [List.findIdx?_cons]
    rw [position, List.erase_append_right _ absent, List.erase_cons_head]
    exact queues.closeGap
  · rw [findIdx?_of_not_mem listed, List.erase_of_not_mem listed]
    exact queues

theorem Queues.perform (queues : event.Queues queue) (call : WaitCall) :
    ∃ later, (event.perform call).Queues later := by
  cases call with
  | enqueue tid =>
    rcases queues.enqueue tid with ⟨refused, -⟩ | ⟨after, enqueued, -, longer⟩
    · exact ⟨queue, by simpa [Event.perform, refused] using queues⟩
    · exact ⟨_, by simpa [Event.perform, enqueued] using longer⟩
  | dequeue =>
    rcases queues.dequeue with ⟨empty, -⟩ | ⟨first, rest, after, dequeued, -, shorter⟩
    · exact ⟨queue, by simpa [Event.perform, empty] using queues⟩
    · exact ⟨rest, by simpa [Event.perform, dequeued] using shorter⟩
  | remove tid => exact ⟨queue.erase tid, queues.remove tid⟩

theorem Queues.performAll (queues : event.Queues queue) (calls : List WaitCall) :
    ∃ later, (calls.foldl Event.perform event).Queues later := by
  induction calls generalizing event queue with
  | nil => exact ⟨queue, queues⟩
  | cons call calls ih =>
    obtain ⟨later, queuesLater⟩ := queues.perform call
    exact ih queuesLater

/-- The threads that wait form a queue without repetition: only a full queue or a thread
that waits is refused, the head is taken, and a thread is removed from its place. -/
structure IsFifo (event : Event) (queue : List Tid) : Prop extends event.Queues queue where
  enqueues : ∀ tid,
    (event.enqueue tid = none ∧ (queue.length = maxEventWaiters ∨ tid ∈ queue)) ∨
      ∃ after, event.enqueue tid = some after ∧
        ¬(queue.length = maxEventWaiters ∨ tid ∈ queue) ∧ after.Queues (queue ++ [tid])
  dequeues : (event.dequeue = none ∧ queue = []) ∨
    ∃ first rest after, event.dequeue = some (first, after) ∧ queue = first :: rest ∧
      after.Queues rest
  removes : ∀ tid, (event.remove tid).Queues (queue.erase tid)

/-- Through every run of calls the threads that wait for an event form a queue. -/
theorem waiters_isFifo (id : UInt64) (owner : Pid) (calls : List WaitCall) :
    ∃ queue, (calls.foldl perform (new id owner)).IsFifo queue := by
  have initially : (new id owner).Queues [] := ⟨List.nodup_nil, Nat.zero_le _, rfl, rfl⟩
  obtain ⟨queue, queues⟩ := initially.performAll calls
  exact ⟨queue, queues, queues.enqueue, queues.dequeue, queues.remove⟩

end Event

end Vantara
