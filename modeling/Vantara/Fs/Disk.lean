import Vantara.Foundation.Attempt
import Vantara.Fs.Backend

/-!
# The disk below the persistent filesystem

A disk of 2048 blocks of 512 bytes.  Each access to a block may fail: a read then
gives nothing, and a write leaves the block as it was or as it was to be.  The disk
keeps a log of the blocks that were asked for.
-/

namespace Vantara
namespace Fs

open Foundation

/-- The bytes of a block, by offset; there are 512 of them. -/
abbrev Block := Nat → UInt8

/-- The blocks of a disk, by index. -/
abbrev Blocks := Nat → Block

/-- The bytes of a block, and the blocks of a disk. -/
def blockSize : Nat := 512
def diskBlocks : Nat := 2048

/-- What becomes of an access: it passes, or it fails, a write perhaps after the block
has been written. -/
inductive Fault
  | passes
  | refused
  | late
  deriving DecidableEq, Repr

/-- The disk, whether the filesystem on it is in use, what the next accesses meet
(later ones pass), and the blocks that were asked for, newest first. -/
structure Disk where
  blocks : Blocks
  available : Bool
  faults : List Fault
  log : List Nat

/-- A disk with these blocks that works and has not been accessed yet. -/
abbrev Blocks.disk (blocks : Blocks) : Disk :=
  ⟨blocks, true, [], []⟩

/-- Computations that access the disk. -/
abbrev DiskM := EStateM FsError Disk

/-- The disk a computation ends in. -/
def lastDisk : EStateM.Result FsError Disk α → Disk
  | .ok _ disk => disk
  | .error _ disk => disk

/-- The value a computation ends with, if it does not fail. -/
def answer : EStateM.Result FsError Disk α → Option α
  | .ok value _ => some value
  | .error _ _ => none

theorem lastDisk_of_attempt
    (attempt : Attempt pre program (fun _ => holds) (fun _ => holds))
    (isPre : pre disk) :
    holds (lastDisk (program disk)) := by
  cases ran : program disk with
  | ok value after => exact attempt.of_ok isPre ran
  | error error after => exact attempt.of_error isPre ran

namespace Disk

/-- The disk after an access has met the next fault. -/
def accessed (disk : Disk) (index : Nat) : Disk :=
  { disk with faults := disk.faults.tail, log := index :: disk.log }

/-- The disk with a block written. -/
def store (disk : Disk) (index : Nat) (block : Block) : Disk :=
  { disk with blocks := Function.update disk.blocks index block }

end Disk

/-- `AtaPioDisk::probe`. -/
def probe : DiskM Unit := fun disk =>
  let after := { disk with faults := disk.faults.tail }
  if disk.faults.headD .passes = .passes then .ok () after else .error .unavailable after

/-- `read_block`, whose errors are all reported as `Io`. -/
def readBlock (index : Nat) : DiskM Block := fun disk =>
  if index ≥ diskBlocks then .error .io { disk with log := index :: disk.log }
  else if disk.faults.headD .passes = .passes then
    .ok (disk.blocks index) (disk.accessed index)
  else .error .io (disk.accessed index)

/-- `write_block`, whose errors are all reported as `Io`. -/
def writeBlock (index : Nat) (block : Block) : DiskM Unit := fun disk =>
  if index ≥ diskBlocks then .error .io { disk with log := index :: disk.log }
  else
    match disk.faults.headD .passes with
    | .passes => .ok () ((disk.accessed index).store index block)
    | .refused => .error .io (disk.accessed index)
    | .late => .error .io ((disk.accessed index).store index block)

/-! ## Numbers on the disk -/

/-- A byte of a number in little-endian order. -/
def leByte (number index : Nat) : UInt8 :=
  UInt8.ofNat (number / 256 ^ index)

/-- The number in some bytes of a block, in little-endian order. -/
def readLe (block : Block) (offset : Nat) : Nat → Nat
  | 0 => 0
  | width + 1 => (block offset).toNat + 256 * readLe block (offset + 1) width

/-- A number that fits comes back as it was written. -/
theorem readLe_of_leByte
    (bytes : ∀ index < width, block (offset + index) = leByte number index)
    (fits : number < 256 ^ width) :
    readLe block offset width = number := by
  induction width generalizing offset number with
  | zero => rw [readLe]; omega
  | succ width ih =>
    have first := bytes 0 (Nat.succ_pos width)
    rw [Nat.add_zero] at first
    have rest : readLe block (offset + 1) width = number / 256 := by
      refine ih (fun index inside => ?_) ?_
      · rw [Nat.add_assoc, Nat.add_comm 1, bytes (index + 1) (Nat.succ_lt_succ inside), leByte,
          leByte, Nat.div_div_eq_div_mul, Nat.pow_succ, Nat.mul_comm]
      · rw [Nat.div_lt_iff_lt_mul (by decide), ← Nat.pow_succ]
        exact fits
    rw [readLe, first, rest, leByte, Nat.pow_zero, Nat.div_one, UInt8.toNat_ofNat']
    omega

/-! ## What an access can do -/

/-- The blocks are as they were, and if no access was to fail then none is now. -/
structure Disk.Kept (blocks : Blocks) (clean : Prop) (disk : Disk) : Prop where
  blocks : disk.blocks = blocks
  clean : clean → disk.faults = []

namespace Disk

variable {blocks : Blocks} {clean : Prop}

theorem Kept.readBlock (inside : index < diskBlocks) :
    Attempt (Kept blocks clean) (Fs.readBlock index)
      (fun block disk => block = blocks index ∧ Kept blocks clean disk)
      (fun _ disk => ¬ clean ∧ disk.blocks = blocks) := by
  intro disk kept
  rw [Fs.readBlock, if_neg (Nat.not_le.mpr inside)]
  split_ifs with passes
  · exact ⟨congrFun kept.blocks index, kept.blocks, fun isClean => by
      show disk.faults.tail = []
      rw [kept.clean isClean, List.tail_nil]⟩
  · exact ⟨fun isClean => passes (by rw [kept.clean isClean]; rfl), kept.blocks⟩

theorem Kept.writeBlock (inside : index < diskBlocks) :
    Attempt (Kept blocks clean) (Fs.writeBlock index block)
      (fun _ => Kept (Function.update blocks index block) clean)
      (fun _ disk => ¬ clean ∧
        (disk.blocks = blocks ∨ disk.blocks = Function.update blocks index block)) := by
  intro disk kept
  rw [Fs.writeBlock, if_neg (Nat.not_le.mpr inside)]
  have stored : Function.update disk.blocks index block = Function.update blocks index block := by
    rw [kept.blocks]
  have noFault : clean → disk.faults.headD .passes = .passes := fun isClean => by
    rw [kept.clean isClean]
    rfl
  cases next : disk.faults.headD .passes with
  | passes =>
    exact ⟨stored, fun isClean => by
      show disk.faults.tail = []
      rw [kept.clean isClean, List.tail_nil]⟩
  | refused =>
    refine ⟨fun isClean => ?_, .inl kept.blocks⟩
    rw [noFault isClean] at next
    cases next
  | late =>
    refine ⟨fun isClean => ?_, .inr stored⟩
    rw [noFault isClean] at next
    cases next

end Disk

end Fs
end Vantara
