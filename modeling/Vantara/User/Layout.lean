import Vantara.User.AddressSpace

/-!
# The user memory layout in numbers

The eight stack slots lie side by side below the top of user memory, each with a guard
page; the stack of a process is one of them, and the program area ends below them.
-/

namespace Vantara

open Foundation

theorem stackRangeForSlot_toNat (slot : Fin 8) :
    (stackRangeForSlot slot).1.toNat = 0x13fc000 - slot * 0x5000 ∧
      (stackRangeForSlot slot).2.toNat = 0x1400000 - slot * 0x5000 := by
  revert slot
  decide

/-- The main stack of a process with its own page tables is one of the slots. -/
theorem stackTopForPid_spec (pid : Pid) :
    ∃ index : Fin 8, stackTopForPid pid = (stackRangeForSlot index).2 ∧
      stackTopForPid pid - userStackSize = (stackRangeForSlot index).1 := by
  unfold stackTopForPid
  dsimp only
  generalize (if pid < 2 then 0 else pid - 2).toUInt64 = number
  have inside : (number % userStackSlotCount).toNat < 8 := by
    rw [UInt64.toNat_mod]
    exact Nat.mod_lt _ (by decide)
  refine ⟨⟨_, inside⟩, ?_, ?_⟩
  all_goals
    unfold stackRangeForSlot
    dsimp only
    rw [UInt64.ofNat_toNat]

/-- The program area ends below the region of stacks. -/
theorem programEnd_le (size : UInt64) :
    userBase + alignUserProgramSize size ≤ userStackRegionStart := by
  have bounded : alignUserProgramSize size ≤ userProgramAreaSize := by
    unfold alignUserProgramSize
    exact Std.min_le_right
  have base : userBase.toNat = 0x1000000 := rfl
  have size : userProgramAreaSize.toNat = 0x3d8000 := by decide
  have start : userStackRegionStart.toNat = 0x13d8000 := by decide
  rw [UInt64.le_iff_toNat_le] at bounded ⊢
  rw [UInt64.toNat_add]
  omega

/-- The memory of a process with its own page tables: a program area below the region of
stacks, and one of the slots for its main stack. -/
theorem memoryLayout_spec (pid : Pid) (size : UInt64) :
    ∃ index : Fin 8,
      (memoryLayoutForPidWithProgramSize pid size).programEnd ≤ userStackRegionStart ∧
      (memoryLayoutForPidWithProgramSize pid size).stackTop = (stackRangeForSlot index).2 ∧
      (memoryLayoutForPidWithProgramSize pid size).stackStart = (stackRangeForSlot index).1 := by
  obtain ⟨index, isTop, isStart⟩ := stackTopForPid_spec pid
  refine ⟨index, programEnd_le size, ?_, ?_⟩
  · rw [← isTop]
    rfl
  · rw [← isStart]
    rfl

/-- A program takes a number of pages that fits the program area. -/
theorem alignUserProgramSize_toNat (size : UInt64) :
    ∃ pages ≤ 984, (alignUserProgramSize size).toNat = 4096 * pages ∧
      (size.toNat < 2 ^ 63 → pages = min (max 1 ((size.toNat + 4095) / 4096)) 984) := by
  have area : userProgramAreaSize.toNat = 0x3d8000 := by decide
  have page : pageSize.toNat = 4096 := rfl
  have larger : (max size pageSize).toNat = max size.toNat 4096 := by
    show (if size ≤ pageSize then pageSize else size).toNat = _
    split_ifs with small
    · rw [UInt64.le_iff_toNat_le] at small
      omega
    · rw [UInt64.le_iff_toNat_le] at small
      omega
  have product : (Word.divCeil (max size pageSize) pageSize * pageSize).toNat =
      4096 * ((Word.divCeil (max size pageSize) pageSize).toNat % 2 ^ 52) := by
    rw [UInt64.toNat_mul, page]
    omega
  have quotient : (Word.divCeil (max size pageSize) pageSize).toNat =
      (max size.toNat 4096 + 4095) / 4096 := by
    have word := size.toNat_lt
    rw [Word.divCeil, UInt64.toNat_add, UInt64.toNat_div, larger, page]
    have divides : (max size pageSize % pageSize = 0) ↔ max size.toNat 4096 % 4096 = 0 := by
      rw [← UInt64.toNat_inj, UInt64.toNat_mod, larger, page]
      rfl
    split_ifs with divisible
    · rw [divides] at divisible
      show (_ + 0) % 2 ^ 64 = _
      omega
    · rw [divides] at divisible
      show (_ + 1) % 2 ^ 64 = _
      omega
  show ∃ pages ≤ 984, (if Word.divCeil (max size pageSize) pageSize * pageSize ≤
    userProgramAreaSize then Word.divCeil (max size pageSize) pageSize * pageSize
    else userProgramAreaSize).toNat = 4096 * pages ∧ _
  split_ifs with fits
  · rw [UInt64.le_iff_toNat_le, product, area] at fits
    exact ⟨_, by omega, product, by omega⟩
  · rw [UInt64.le_iff_toNat_le, product, area] at fits
    exact ⟨984, Nat.le_refl _, area, by omega⟩

/-- The program area of a process. -/
theorem memoryLayout_program (pid : Pid) (size : UInt64) :
    (memoryLayoutForPidWithProgramSize pid size).programStart.toNat = 0x1000000 ∧
    ∃ pages ≤ 984,
      (memoryLayoutForPidWithProgramSize pid size).programEnd.toNat =
        0x1000000 + 4096 * pages ∧
      (size.toNat < 2 ^ 63 → pages = min (max 1 ((size.toNat + 4095) / 4096)) 984) := by
  obtain ⟨pages, few, isSize, isPages⟩ := alignUserProgramSize_toNat size
  refine ⟨rfl, pages, few, ?_, isPages⟩
  show (userBase + alignUserProgramSize size).toNat = _
  have base : userBase.toNat = 0x1000000 := rfl
  rw [UInt64.toNat_add, isSize, base]
  omega

end Vantara
