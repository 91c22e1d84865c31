import Vantara.User.Dispatch

/-!
# The threads that wait for events

No operation on the table of events lets a thread wait for an event unless the
thread asked for it, so that waiting threads belong to the owner of the event.
-/

namespace Vantara

theorem mem_modifyFirst (listed : element ∈ modifyFirst test change elements) :
    element ∈ elements ∨ ∃ old ∈ elements, test old = true ∧ element = change old := by
  induction elements with
  | nil => cases listed
  | cons first rest ih =>
    rw [modifyFirst] at listed
    split_ifs at listed with passes
    · rcases List.mem_cons.mp listed with rfl | inRest
      · exact .inr ⟨first, List.mem_cons_self, passes, rfl⟩
      · exact .inl (List.mem_cons_of_mem _ inRest)
    · rcases List.mem_cons.mp listed with rfl | inRest
      · exact .inl List.mem_cons_self
      · rcases ih inRest with old | ⟨old, oldMem, rest⟩
        · exact .inl (List.mem_cons_of_mem _ old)
        · exact .inr ⟨old, List.mem_cons_of_mem _ oldMem, rest⟩

namespace Ipc

theorem mem_of_findSlot (found : findSlot test slots = some value) :
    some value ∈ slots ∧ test value = true := by
  have isFirst := Option.join_eq_some_iff.mp found
  exact ⟨List.mem_of_find?_eq_some isFirst, by simpa using List.find?_some isFirst⟩

/-- An event that is found is the caller's. -/
theorem mem_of_findEvent (found : findSlot (isEvent caller handle) slots = some event) :
    some event ∈ slots ∧ event.ownerPid = caller := by
  obtain ⟨listed, own⟩ := mem_of_findSlot found
  simp only [isEvent, Bool.and_eq_true, decide_eq_true_eq] at own
  exact ⟨listed, own.2⟩

theorem mem_setSlot (listed : some value ∈ setSlot test slot slots) :
    some value ∈ slots ∨ slot = some value := by
  rcases mem_modifyFirst listed with old | ⟨old, -, -, same⟩
  · exact .inl old
  · exact .inr same.symm

theorem mem_occupy
    (occupied : occupy added slots = some extended)
    (listed : some value ∈ extended) :
    some value ∈ slots ∨ value = added := by
  unfold occupy at occupied
  split_ifs at occupied
  cases occupied
  rcases mem_modifyFirst listed with old | ⟨old, -, -, same⟩
  · exact .inl old
  · exact .inr (Option.some.inj same)

theorem mem_dropSlots (listed : some value ∈ dropSlots test slots) : some value ∈ slots := by
  obtain ⟨slot, slotMem, same⟩ := List.mem_map.mp listed
  split_ifs at same
  exact same ▸ slotMem

@[simp] theorem events_closeDescriptor {ipc : Ipc} :
    (ipc.closeDescriptor pid file).events = ipc.events := by
  unfold closeDescriptor
  split
  · rfl
  · rfl
  · dsimp only
    split <;> rfl
  · dsimp only
    split <;> rfl

/-- Closing what a process has opened leaves no new events behind. -/
theorem mem_closeProcessFiles {ipc : Ipc}
    (listed : some event ∈ (ipc.closeProcessFiles pid).events) :
    some event ∈ ipc.events := by
  have kept : ∀ (files : List OpenFile) (ipc : Ipc),
      (files.foldl (fun ipc file => ipc.closeDescriptor pid file) ipc).events = ipc.events := by
    intro files
    induction files with
    | nil => intro ipc; rfl
    | cons file rest ih =>
      intro ipc
      rw [List.foldl_cons, ih, events_closeDescriptor]
  have old := mem_dropSlots listed
  rwa [kept] at old

end Ipc

namespace Event

variable {event : Event}

theorem mem_set_waiter {waiters : List (Option Tid)}
    (listed : some waiter ∈ waiters.set index entry) :
    some waiter ∈ waiters ∨ entry = some waiter := by
  rcases List.mem_or_eq_of_mem_set listed with old | same
  · exact .inl old
  · exact .inr same.symm

theorem mem_shift {waiters : List (Option Tid)} (listed : some waiter ∈ shift waiters index moved) :
    some waiter ∈ waiters := by
  induction moved generalizing waiters index with
  | zero => exact listed
  | succ moved ih =>
    rcases mem_set_waiter (ih listed) with old | same
    · exact old
    · rw [List.getD_eq_getElem?_getD] at same
      cases entry : waiters[index]? with
      | none => simp [entry] at same
      | some found =>
        rw [entry, Option.getD_some] at same
        exact same ▸ List.mem_of_getElem? entry

theorem mem_closeGap (listed : some waiter ∈ (event.closeGap position).waiters) :
    some waiter ∈ event.waiters := by
  rcases mem_set_waiter listed with old | same
  · exact mem_shift old
  · cases same

/-- A thread that waits has waited before or asked for it. -/
theorem enqueue_spec (enqueued : event.enqueue tid = some queued) :
    queued.ownerPid = event.ownerPid ∧
      ∀ waiter, some waiter ∈ queued.waiters → some waiter ∈ event.waiters ∨ waiter = tid := by
  unfold enqueue at enqueued
  split_ifs at enqueued
  cases enqueued
  refine ⟨rfl, fun waiter listed => ?_⟩
  rcases mem_set_waiter listed with old | same
  · exact .inl old
  · exact .inr (Option.some.inj same).symm

/-- The thread that is taken from an event has waited for it. -/
theorem dequeue_spec (dequeued : event.dequeue = some (tid, rest)) :
    some tid ∈ event.waiters ∧ rest.ownerPid = event.ownerPid ∧
      ∀ waiter, some waiter ∈ rest.waiters → some waiter ∈ event.waiters := by
  unfold dequeue at dequeued
  split at dequeued
  · next first isFirst =>
      cases dequeued
      refine ⟨?_, rfl, fun _ => mem_closeGap⟩
      rw [List.getD_eq_getElem?_getD] at isFirst
      cases entry : event.waiters[0]? with
      | none => simp [entry] at isFirst
      | some found =>
        rw [entry, Option.getD_some] at isFirst
        exact isFirst ▸ List.mem_of_getElem? entry
  · cases dequeued

end Event

namespace Kernel

variable {kernel : Kernel}

/-- Whether a thread waits for an event of a process. -/
def Awaits (kernel : Kernel) (waiter : Tid) (owner : Pid) : Prop :=
  ∃ event, some event ∈ kernel.ipc.events ∧ event.ownerPid = owner ∧
    some waiter ∈ event.waiters

theorem Awaits.of_closeProcessFiles (awaits : (kernel.closeProcessFiles pid).Awaits waiter owner) :
    kernel.Awaits waiter owner := by
  obtain ⟨event, listed, rest⟩ := awaits
  exact ⟨event, Ipc.mem_closeProcessFiles listed, rest⟩

/-- The waiting threads after one event has changed. -/
theorem Awaits.of_setSlot
    (awaits : { kernel with
      ipc := { kernel.ipc with events := Ipc.setSlot test slot kernel.ipc.events }
      : Kernel }.Awaits waiter owner) :
    kernel.Awaits waiter owner ∨
      ∃ event, slot = some event ∧ event.ownerPid = owner ∧ some waiter ∈ event.waiters := by
  obtain ⟨event, listed, owned, waits⟩ := awaits
  rcases Ipc.mem_setSlot listed with old | changed
  · exact .inl ⟨event, old, owned, waits⟩
  · exact .inr ⟨event, changed, owned, waits⟩

end Kernel

end Vantara
