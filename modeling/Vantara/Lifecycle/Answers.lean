import Vantara.Foundation.Outcome
import Vantara.User.Dispatch

/-!
# Answers that programs can see

The result register carries the answers of system calls and also the value that
sends the calling thread to the landing.  The handlers below never answer with
that value: their errors have other codes, and their counts and identifiers are
smaller.
-/

namespace Vantara

open Foundation

namespace Kernel

variable {kernel : Kernel} {env : UserEnv}

/-- The value has a property, or the error is not the one whose code is the
landing value. -/
abbrev Reports (post : α → Prop) : Except SyscallError α → Prop :=
  Outcome (· ≠ .unknownSyscall) post

/-- An answer other than the landing value. -/
abbrev Visible : Answer → Prop :=
  Reports (· ≠ syscallReturnToKernel)

theorem register_ne_of_visible (visible : Visible answer) :
    answer.register ≠ syscallReturnToKernel := by
  cases visible with
  | ok differ => exact differ
  | @error refusal differ => cases refusal <;> first | exact absurd rfl differ | decide

theorem reports_valid {found : Option α} :
    Reports (fun value => found = some value) (orInvalid found) := by
  cases found with
  | none => exact .error (by decide)
  | some value => exact .ok rfl

/-! ## Values below the landing value -/

theorem ne_of_toNat_lt (small : value.toNat + 1 < 2 ^ 64) : value ≠ syscallReturnToKernel := by
  rintro rfl
  revert small
  decide

theorem zero_ne : (0 : UInt64) ≠ syscallReturnToKernel := by decide

theorem toUInt64_ne (word : UInt32) : word.toUInt64 ≠ syscallReturnToKernel := by
  apply ne_of_toNat_lt
  have bound := word.toNat_lt
  rw [UInt32.toNat_toUInt64]
  omega

theorem count_ne (small : bytes + 1 < 2 ^ 64) : count bytes ≠ syscallReturnToKernel := by
  apply ne_of_toNat_lt
  rw [count, UInt64.toNat_ofNat']
  have := Nat.mod_le bytes (2 ^ 64)
  omega

/-! ## User memory -/

/-- A range that passed the checks does not reach from one end of the address
space to the other. -/
theorem reports_checkedRange :
    Reports (fun range => range.len = len ∧ len.toNat + 1 < 2 ^ 64)
      (kernel.checkedRange env ptr len access) := by
  refine .guard (by decide) fun nonempty => ?_
  split
  · exact .error (by decide)
  · next rangeEnd fits =>
      refine .guard (by decide) fun _ =>
        .guard (by decide) fun _ => .ok ⟨rfl, ?_⟩
      obtain ⟨inside, -⟩ := Word.toNat_of_checkedAdd fits
      have nonzero : ptr.toNat ≠ 0 := fun zero =>
        nonempty (.inl (UInt64.toNat_inj.mp zero))
      omega

theorem reports_readUserBytes :
    Reports (fun bytes => bytes.length = len.toNat ∧ len.toNat + 1 < 2 ^ 64)
      (kernel.readUserBytes env ptr len) :=
  reports_checkedRange.bind fun range ⟨same, small⟩ => .ok ⟨by simp [same], small⟩

theorem reports_readUserStr : Reports (fun _ => True) (kernel.readUserStr env ptr len) := by
  refine .guard (by decide) fun _ =>
    reports_readUserBytes.bind fun bytes _ => ?_
  split
  · exact .ok trivial
  · exact .error (by decide)

theorem reports_userWriteRange :
    Reports (fun out => out + 1 < 2 ^ 64) (kernel.userWriteRange env ptr len) :=
  reports_checkedRange.bind fun _ ⟨same, small⟩ => .ok (same ▸ small)

theorem visible_copyToUserBuffer : Visible (kernel.copyToUserBuffer env ptr len bytes) := by
  refine .guard (by decide) fun _ => ?_
  have checked : Reports (fun _ => (UInt64.ofNat bytes.length).toNat + 1 < 2 ^ 64)
      (kernel.userWriteRange env ptr (UInt64.ofNat bytes.length)) :=
    reports_checkedRange.bind fun range ⟨_, small⟩ => .ok small
  exact checked.bind fun _ small => .ok (ne_of_toNat_lt small)

/-! ## Handlers that only read -/

theorem uptimeMs_ne (known : kernel.uptimeMs = some uptime) : uptime ≠ syscallReturnToKernel := by
  unfold uptimeMs at known
  split_ifs at known with fits
  cases known
  apply ne_of_toNat_lt
  rw [UInt64.toNat_div]
  have divided : ∀ product : Nat, product < 2 ^ 64 → product / 100 + 1 < 2 ^ 64 := by omega
  exact divided _ (UInt64.toNat_lt _)

theorem visible_uptimeToUser (answered : kernel.uptimeToUser env ptr len = some answer) :
    Visible answer := by
  obtain ⟨uptime, known, ⟨⟩⟩ := Option.bind_eq_some_iff.mp answered
  exact .ite (fun _ => .ok (uptimeMs_ne known)) fun _ => visible_copyToUserBuffer

/-- A count that does not exceed a range of user memory. -/
theorem count_fin_ne (small : out + 1 < 2 ^ 64) (written : Fin (out + 1)) :
    count written ≠ syscallReturnToKernel :=
  count_ne (by omega)

theorem visible_listDirToUser : Visible (kernel.listDirToUser env pathPtr pathLen ptr len) :=
  reports_readUserStr.bind fun _ _ => reports_userWriteRange.bind fun _ small =>
    reports_valid.bind fun written _ => .ok (count_fin_ne small written)

theorem visible_readFileToUser : Visible (kernel.readFileToUser env pathPtr pathLen ptr len) :=
  reports_readUserStr.bind fun _ _ => reports_userWriteRange.bind fun _ small =>
    reports_valid.bind fun written _ => .ok (count_fin_ne small written)

theorem visible_statToUser : Visible (kernel.statToUser env pathPtr pathLen ptr len) :=
  reports_readUserStr.bind fun _ _ => reports_valid.bind fun _ _ => visible_copyToUserBuffer

theorem visible_listingToUser : Visible (kernel.listingToUser env ptr len written) :=
  .guard (by decide) fun _ =>
    reports_userWriteRange.bind fun _ small => .ok (count_ne (by omega))

theorem visible_unlinkFile : Visible (kernel.unlinkFile env pathPtr pathLen) :=
  reports_readUserStr.bind fun _ _ => reports_valid.bind fun _ _ =>
    .guard (by decide) fun _ => .guard (by decide) fun _ =>
      .ite (fun _ => .ok zero_ne) fun _ => .error (by decide)

theorem visible_pathRequest : Visible (kernel.pathRequest env pathPtr pathLen request) :=
  reports_readUserStr.bind fun _ _ => .ite (fun _ => .ok zero_ne) fun _ => .error (by decide)

theorem visible_renameFile : Visible (kernel.renameFile env oldPtr oldLen newPtr newLen) :=
  reports_readUserStr.bind fun _ _ => reports_readUserStr.bind fun _ _ =>
    .ite (fun _ => .ok zero_ne) fun _ => .error (by decide)

theorem visible_currentProcessGroup : Visible kernel.currentProcessGroup :=
  reports_valid.bind fun _ _ => .ok (toUInt64_ne _)

theorem visible_getSessionId : Visible (kernel.getSessionId pid) := by
  refine .ite (fun _ => reports_valid.bind fun sought _ => ?_)
    fun _ => reports_valid.bind fun sought _ => ?_
  all_goals
    dsimp only
    split
    · exact .ok (toUInt64_ne _)
    · exact .error (by decide)

/-! ## Handlers on what processes have opened -/

/-- The first component of a pair that is answered. -/
abbrev VisibleFirst : Except SyscallError (UInt64 × Ipc) → Prop :=
  Reports fun result => result.1 ≠ syscallReturnToKernel

theorem visible_commit (visible : VisibleFirst result) : Visible (kernel.commit result).1 := by
  cases visible with
  | ok differ => exact .ok differ
  | error differ => exact .error differ

theorem reports_openDescriptor {ipc : Ipc} :
    VisibleFirst (orInvalid (ipc.openDescriptor pid descriptor)) := by
  refine reports_valid.mono ?_
  intro result opened
  obtain ⟨fd, chosen, rest⟩ := Option.bind_eq_some_iff.mp opened
  obtain ⟨files, -, ⟨⟩⟩ := Option.bind_eq_some_iff.mp rest
  have listed := List.mem_of_find?_eq_some chosen
  simp only [List.mem_map, List.mem_range] at listed
  obtain ⟨offset, inRange, rfl⟩ := listed
  apply ne_of_toNat_lt
  rw [UInt64.toNat_ofNat', Ipc.firstUserFd]
  omega

theorem visible_openFile : VisibleFirst (kernel.openFile env pathPtr pathLen) :=
  reports_readUserStr.bind fun _ _ => reports_valid.bind fun _ _ =>
    reports_valid.bind fun _ _ => reports_openDescriptor

theorem visible_createFile : VisibleFirst (kernel.createFile env pathPtr pathLen) :=
  reports_readUserStr.bind fun _ _ => reports_valid.bind fun _ _ =>
    reports_valid.bind fun _ _ => reports_openDescriptor

theorem keyboardCount_le (capacity : Nat) (typed : List UInt8) :
    keyboardCount capacity typed ≤ capacity := by
  fun_induction keyboardCount capacity typed with
  | case1 => exact Nat.le_refl _
  | case2 => exact Nat.zero_le _
  | case3 | case4 => omega

theorem visible_readStdinToUser (small : out + 1 < 2 ^ 64) : Visible (readStdinToUser env out) := by
  have bound := keyboardCount_le out env.keyboard
  exact .guard (by decide) fun _ => .ok (count_ne (by omega))

theorem reports_read {pipe : Pipe} :
    Reports (fun result => result.1.length ≤ capacity) (pipe.read capacity) := by
  have popped : ∀ taken (pipe : Pipe), (Pipe.popBytes taken pipe).1.length = taken := by
    intro taken
    induction taken with
    | zero => intro pipe; rfl
    | succ taken ih =>
      intro pipe
      simp [Pipe.popBytes, ih]
  refine .ite (fun _ => .ite (fun _ => .ok (Nat.zero_le _)) fun _ => .error (by decide))
    fun _ => .ok ?_
  rw [popped]
  exact Nat.min_le_left _ _

theorem visible_readPipe {ipc : Ipc} (small : capacity + 1 < 2 ^ 64) :
    VisibleFirst (readPipe ipc pipeId pid capacity) :=
  reports_valid.bind fun _ _ => reports_read.bind fun _ _ => .ok (count_ne (by omega))

theorem visible_readFdToUser : VisibleFirst (kernel.readFdToUser env fd ptr len) := by
  refine .guard (by decide) fun _ => reports_userWriteRange.bind fun out small =>
    .ite (fun _ => (visible_readStdinToUser small).bind fun _ differ => .ok differ)
      fun _ => reports_valid.bind fun pid _ => reports_valid.bind fun file _ => ?_
  split
  · exact reports_valid.bind fun taken _ => .ok (count_fin_ne small taken)
  · exact reports_valid.bind fun listed _ => .ok (count_ne (by omega))
  · exact visible_readPipe small
  · exact .error (by decide)

theorem reports_write {pipe : Pipe} :
    Reports (fun result => result.1 ≤ source.length) (pipe.write source) :=
  .guard (by decide) fun _ => .guard (by decide) fun _ =>
    .ok (Nat.min_le_left _ _)

theorem visible_writeDescriptor (small : source.length + 1 < 2 ^ 64) :
    VisibleFirst (kernel.writeDescriptor env fd source) := by
  refine reports_valid.bind fun pid _ => reports_valid.bind fun file _ => ?_
  split
  · exact .guard (by decide) fun _ =>
      reports_valid.bind fun written _ => .ok (count_fin_ne small written)
  · exact reports_valid.bind fun pipe _ => reports_write.bind fun _ _ =>
      .ok (count_ne (by omega))
  · exact .error (by decide)
  · exact .error (by decide)

theorem visible_writeUserBuffer : VisibleFirst (kernel.writeUserBuffer env fd ptr len) :=
  .guard (by decide) fun _ => reports_readUserBytes.bind fun bytes ⟨same, small⟩ =>
    .ite (fun _ => visible_writeDescriptor (same ▸ small)) fun _ => .ok (ne_of_toNat_lt small)

theorem visible_closeFd : VisibleFirst (kernel.closeFd fd) := by
  refine reports_valid.bind fun pid _ => ?_
  have closed : Reports (fun _ => True) (kernel.ipc.closeFdForPid pid fd) := by
    unfold Ipc.closeFdForPid
    split
    · exact .error (by decide)
    · exact .ok trivial
  exact closed.bind fun _ _ => .ok zero_ne

theorem visible_createPipe : Visible (kernel.createPipe env ptr len).1 := by
  unfold createPipe
  have checked : Reports (fun _ => True) (if len < 16 then
      (.error .invalidArgument : Except SyscallError (Pid × UInt64 × UInt64))
    else do
      let _ ← kernel.userWriteRange env ptr 16
      let pid ← orInvalid kernel.currentUserProcess
      let readFd ← orInvalid (Ipc.nextFdForPid kernel.ipc.openFiles pid)
      let writeFd ← orInvalid
        (Ipc.nextFdForPidExcluding kernel.ipc.openFiles pid (some readFd))
      pure (pid, readFd, writeFd)) :=
    .guard (by decide) fun _ => reports_userWriteRange.bind fun _ _ =>
      reports_valid.bind fun _ _ => reports_valid.bind fun _ _ =>
        reports_valid.bind fun _ _ => .ok trivial
  dsimp only
  split
  · next error refused =>
      rw [refused] at checked
      cases checked with
      | error differ => exact .error differ
  · split
    · exact .error (by decide)
    · split
      · exact .error (by decide)
      · exact .ok zero_ne

theorem visible_closeEvent : VisibleFirst (kernel.closeEvent slot) :=
  reports_valid.bind fun _ _ => reports_valid.bind fun _ _ =>
    .guard (by decide) fun _ => .ok zero_ne

theorem reports_ownMessageQueue : Reports (fun _ => True) (kernel.ownMessageQueue slot) :=
  reports_valid.bind fun _ _ => reports_valid.bind fun _ _ => .ok trivial

theorem visible_sendMessage : VisibleFirst (kernel.sendMessage env slot ptr len) := by
  refine .guard (by decide) fun _ =>
    reports_readUserBytes.bind fun bytes ⟨same, small⟩ =>
      reports_ownMessageQueue.bind fun owned _ => ?_
  have sent : Reports (fun result => result.1 = bytes.length) (owned.2.send bytes) :=
    .guard (by decide) fun _ => .guard (by decide) fun _ => .ok rfl
  exact sent.bind fun _ written => .ok (count_ne (by omega))

theorem visible_receiveMessage : VisibleFirst (kernel.receiveMessage env slot ptr len) := by
  refine .guard (by decide) fun _ => reports_userWriteRange.bind fun out small =>
    reports_ownMessageQueue.bind fun owned _ => ?_
  have received : Reports (fun result => result.1.length ≤ out) (owned.2.receive out) :=
    .guard (by decide) fun _ =>
      .guard (by decide) fun fits =>
        .ok (Nat.le_trans (List.length_take_le _ _) (Nat.le_of_not_lt fits))
  exact received.bind fun _ written => .ok (count_ne (by omega))

theorem visible_closeMessageQueue : VisibleFirst (kernel.closeMessageQueue slot) :=
  reports_ownMessageQueue.bind fun _ _ => .ok zero_ne

/-! ## Handlers on threads and processes -/

theorem visible_tidAnswer : Visible (tidAnswer created) := by
  cases created with
  | none => exact .error (by decide)
  | some tid => exact .ok (toUInt64_ne tid)

theorem reports_checkEntry : Reports (fun _ => True) (kernel.checkEntry env entry) :=
  reports_valid.bind fun _ _ => .guard (by decide) fun _ =>
    reports_checkedRange.bind fun _ _ => .ok trivial

theorem reports_checkThread :
    Reports (fun _ => True) (kernel.checkThread env entry stackPtr stackLen) :=
  .guard (by decide) fun _ => reports_checkEntry.bind fun _ _ =>
    reports_checkedRange.bind fun _ _ => reports_valid.bind fun _ _ =>
      reports_valid.bind fun _ _ => .ok trivial

/-- An error that a check reports is passed on. -/
theorem visible_of_refused
    {α : Type} {post : α → Prop}
    (checked : Reports post (.error error : Except SyscallError α)) :
    Visible (.error error) := by
  cases checked with
  | error differ => exact .error differ

theorem visible_spawnUserThread : Visible (kernel.spawnUserThread env entry arg).1 := by
  unfold spawnUserThread
  split
  · next error _ refused => exact visible_of_refused (refused ▸ reports_checkEntry)
  · exact .error (by decide)
  · exact visible_tidAnswer

theorem visible_createUserThread :
    Visible (kernel.createUserThread env entry stackPtr stackLen arg).1 := by
  unfold createUserThread
  split
  · next error _ refused => exact visible_of_refused (refused ▸ reports_checkThread)
  · exact .error (by decide)
  · exact visible_tidAnswer

theorem visible_signalEvent : Visible (kernel.signalEvent slot).1 := by
  unfold signalEvent
  split
  · exact .error (by decide)
  · dsimp only
    split
    · exact .error (by decide)
    · split
      · exact .ok (by decide)
      · exact .ok zero_ne

theorem visible_execWithMode
    (requested : kernel.execWithMode env pathPtr pathLen argPtr argLen jobMode =
      some (answer, after)) :
    Visible answer := by
  unfold execWithMode at requested
  dsimp only at requested
  split at requested
  · next error refused =>
      cases requested
      have texts : Reports (fun _ => True) (.error error : Except SyscallError (String × _)) :=
        refused ▸ reports_readUserStr.bind fun _ _ => .ite (fun _ => .ok trivial) fun _ =>
          reports_readUserStr.bind fun _ _ => .ok trivial
      exact visible_of_refused texts
  · next path arg texts =>
      split at requested
      · cases requested
        exact .error (by decide)
      · obtain ⟨⟨pid, queued⟩, -, rest⟩ := Option.map_eq_some_iff.mp requested
        cases rest
        exact .ok (toUInt64_ne pid)

theorem visible_signalError : Visible (.error (signalError error)) := by
  cases error <;> exact .error (by decide)

theorem visible_terminateProcess : Visible (kernel.terminateProcess target signal).1 := by
  unfold terminateProcess
  split
  · split_ifs
    · split
      · exact .ok zero_ne
      · exact .error (by decide)
    · exact .error (by decide)
    · split
      · exact visible_signalError
      · exact .ok (by decide)
      · exact .ok zero_ne
      · exact .ok zero_ne
  · exact .error (by decide)

theorem visible_groupAnswer : Visible (kernel.groupAnswer result).1 := by
  unfold groupAnswer
  split
  · exact .ok (toUInt64_ne _)
  · next error => cases error <;> exact .error (by decide)

theorem visible_setProcessGroup : Visible (kernel.setProcessGroup target group).1 := by
  unfold setProcessGroup
  split
  · exact .error (by decide)
  · dsimp only
    split
    · exact visible_groupAnswer
    · exact .error (by decide)

theorem visible_createSession : Visible kernel.createSession.1 := by
  unfold createSession
  split
  · exact .error (by decide)
  · exact visible_groupAnswer

theorem visible_chdirUser : Visible (kernel.chdirUser env pathPtr pathLen).1 := by
  unfold chdirUser
  split
  · next error _ refused => exact visible_of_refused (refused ▸ reports_readUserStr)
  · exact .error (by decide)
  · split
    · exact .error (by decide)
    · exact .ok zero_ne

theorem visible_setCurrentUserName : Visible (kernel.setCurrentUserName env namePtr nameLen).1 := by
  unfold setCurrentUserName
  split
  · next error _ refused => exact visible_of_refused (refused ▸ reports_readUserStr)
  · exact .error (by decide)
  · dsimp only
    split_ifs
    · exact .error (by decide)
    · unfold unitAnswer
      split
      · exact .ok zero_ne
      · exact .error (by decide)

end Kernel

end Vantara
