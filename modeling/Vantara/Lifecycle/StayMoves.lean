import Vantara.Foundation.Outcome
import Vantara.Lifecycle.Steady

/-!
# System calls that leave the caller on the processor

Such a call changes what the caller has opened, starts or wakes threads of the
caller's process, or acts on other processes; the caller stays the thread on the
processor.
-/

namespace Vantara

open Foundation

namespace Kernel

variable {kernel : Kernel} {env : UserEnv}

/-! ## Events -/

/-- A handler leaves the table of events alone. -/
abbrev KeepsEvents (kernel : Kernel) : Except SyscallError (UInt64 × Ipc) → Prop :=
  Outcome (fun _ => True) fun result => result.2.events = kernel.ipc.events

theorem keepsEvents_openDescriptor :
    kernel.KeepsEvents (orInvalid (kernel.ipc.openDescriptor pid descriptor)) := by
  cases opened : kernel.ipc.openDescriptor pid descriptor with
  | none => exact .error trivial
  | some result =>
    obtain ⟨fd, -, rest⟩ := Option.bind_eq_some_iff.mp opened
    obtain ⟨files, -, ⟨⟩⟩ := Option.bind_eq_some_iff.mp rest
    exact .ok rfl

theorem keepsEvents_openFile : kernel.KeepsEvents (kernel.openFile env pathPtr pathLen) :=
  .pass fun _ => .pass fun _ => .pass fun _ => keepsEvents_openDescriptor

theorem keepsEvents_createFile : kernel.KeepsEvents (kernel.createFile env pathPtr pathLen) :=
  .pass fun _ => .pass fun _ => .pass fun _ => keepsEvents_openDescriptor

theorem keepsEvents_readFdToUser : kernel.KeepsEvents (kernel.readFdToUser env fd ptr len) := by
  refine .guard trivial fun _ => .pass fun out =>
    .ite (fun _ => .pass fun _ => .ok rfl) fun _ => .pass fun pid => .pass fun file => ?_
  split
  · exact .pass fun _ => .ok rfl
  · exact .pass fun _ => .ok rfl
  · exact .pass fun _ => .pass fun _ => .ok rfl
  · exact .error trivial

theorem keepsEvents_writeUserBuffer :
    kernel.KeepsEvents (kernel.writeUserBuffer env fd ptr len) := by
  refine .guard trivial fun _ => .pass fun bytes =>
    .ite (fun _ => .pass fun pid => .pass fun file => ?_)
      fun _ => .ok rfl
  split
  · exact .guard trivial fun _ => .pass fun _ => .ok rfl
  · exact .pass fun _ => .pass fun _ => .ok rfl
  · exact .error trivial
  · exact .error trivial

theorem keepsEvents_closeFd : kernel.KeepsEvents (kernel.closeFd fd) := by
  refine .pass fun pid => ?_
  have closed : Outcome (fun _ => True) (fun ipc => ipc.events = kernel.ipc.events)
      (kernel.ipc.closeFdForPid pid fd) := by
    unfold Ipc.closeFdForPid
    split
    · exact .error trivial
    · exact .ok Ipc.events_closeDescriptor
  exact closed.bind fun _ same => .ok same

theorem keepsEvents_sendMessage : kernel.KeepsEvents (kernel.sendMessage env slot ptr len) :=
  .guard trivial fun _ => .pass fun _ => .pass fun _ => .pass fun _ => .ok rfl

theorem keepsEvents_receiveMessage : kernel.KeepsEvents (kernel.receiveMessage env slot ptr len) :=
  .guard trivial fun _ => .pass fun _ => .pass fun _ => .pass fun _ => .ok rfl

theorem keepsEvents_closeMessageQueue : kernel.KeepsEvents (kernel.closeMessageQueue slot) :=
  .pass fun _ => .ok rfl

/-- A handler that leaves the events alone adds nobody who waits. -/
theorem awaits_commit
    (keeps : kernel.KeepsEvents result)
    (awaits : (kernel.withIpc (kernel.commit result)).2.Awaits waiter owner) :
    kernel.Awaits waiter owner := by
  cases keeps with
  | ok same =>
    obtain ⟨event, listed, rest⟩ := awaits
    exact ⟨event, same ▸ listed, rest⟩
  | error => exact awaits

theorem awaits_closeEvent
    (awaits : (kernel.withIpc (kernel.commit (kernel.closeEvent slot))).2.Awaits waiter owner) :
    kernel.Awaits waiter owner := by
  have closed : Outcome (fun _ => True) (fun result : UInt64 × Ipc =>
      ∀ event, some event ∈ result.2.events → some event ∈ kernel.ipc.events)
      (kernel.closeEvent slot) := by
    refine .pass fun pid => .pass fun event => .guard trivial fun _ => .ok fun event listed => ?_
    exact (Ipc.mem_setSlot listed).resolve_right nofun
  obtain ⟨event, listed, rest⟩ := awaits
  refine ⟨event, ?_, rest⟩
  cases result : kernel.closeEvent slot with
  | error => simpa [result, withIpc, commit] using listed
  | ok value =>
    rw [result] at closed listed
    cases closed with
    | ok keeps => exact keeps event listed

theorem awaits_createEvent (awaits : (kernel.withIpc kernel.createEvent).2.Awaits waiter owner) :
    kernel.Awaits waiter owner := by
  obtain ⟨event, listed, isOwner, waits⟩ := awaits
  have listed : some event ∈ kernel.createEvent.2.events := listed
  unfold createEvent at listed
  split at listed
  · exact ⟨event, listed, isOwner, waits⟩
  · dsimp only at listed
    split at listed
    · exact ⟨event, listed, isOwner, waits⟩
    · next occupied =>
        rcases Ipc.mem_occupy occupied listed with old | rfl
        · exact ⟨event, old, isOwner, waits⟩
        · simp [Event.new] at waits

theorem events_createPipe : (kernel.createPipe env ptr len).2.events = kernel.ipc.events := by
  unfold createPipe
  dsimp only
  split
  · rfl
  · split
    · rfl
    · split <;> rfl

theorem events_createMessageQueue : kernel.createMessageQueue.2.events = kernel.ipc.events := by
  unfold createMessageQueue
  split
  · rfl
  · dsimp only
    split <;> rfl

end Kernel

end Vantara
