import Vantara.Image.PrivateMemory
import Vantara.User.Layout

/-!
# What preparing a program does to its memory

Each write changes the frames of one family, seen as one buffer, and each loop over pages
changes their entries only.  Together they give the memory after a preparation.
-/

namespace Vantara
namespace PrivateMemory

open Foundation
open Function (comp_apply update_of_ne update_self)
open Elf (LoadSegment)

variable {segment : LoadSegment}

/-! ## Frames as one buffer -/

/-- The frames of a family, one after another. -/
def Memory.paged (memory : Memory) (frame : Nat → FrameName) : Buffer := fun offset =>
  memory.frames (frame (offset / frameSize)) (offset % frameSize)

/-- The program area through the frames of the root. -/
def Memory.program (memory : Memory) : Buffer := memory.paged .program

/-- The change is to the frames of a family. -/
structure Touches (frame : Nat → FrameName) (before after : Memory) : Prop where
  elsewhere : ∀ name, (∀ index, name ≠ frame index) → after.frames name = before.frames name
  leaves : after.leaves = before.leaves
  count : after.programFrameCount = before.programFrameCount

theorem Touches.refl : Touches frame memory memory :=
  ⟨fun _ _ => rfl, rfl, rfl⟩

theorem Touches.trans (first : Touches frame before middle) (second : Touches frame middle after) :
    Touches frame before after where
  elsewhere name other := (second.elsewhere name other).trans (first.elsewhere name other)
  leaves := second.leaves.trans first.leaves
  count := second.count.trans first.count

/-- A step that cannot fail. -/
theorem attempt_of_eq (ran : program before = .ok value after) (holds : post value after) :
    Attempt (· = before) program post failed := by
  rintro _ rfl
  rw [ran]
  exact holds

theorem storeAt_spec (injective : Function.Injective frame)
    (fits : offset + bytes.length ≤ frameSize) :
    Attempt (· = before) (storeAt (frame index) offset bytes)
      (fun _ after => Touches frame before after ∧
        after.paged frame = (before.paged frame).splice (index * frameSize + offset) bytes)
      failed := by
  apply attempt_of_eq (show storeAt (frame index) offset bytes before = _ from rfl)
  refine ⟨⟨fun name other => update_of_ne (other index) _ _, rfl, rfl⟩, ?_⟩
  funext place
  simp only [Memory.paged, frameSize] at fits ⊢
  by_cases same : place / 4096 = index
  · subst same
    rw [update_self]
    by_cases inside : offset ≤ place % 4096 ∧ place % 4096 < offset + bytes.length
    · rw [Buffer.splice, if_pos inside, Buffer.splice, if_pos (by omega)]
      congr 1
      omega
    · rw [Buffer.splice_outside (by omega), Buffer.splice_outside (by omega)]
      rfl
  · rw [update_of_ne fun equal => same (injective equal),
      Buffer.splice_outside (by omega)]
    rfl

/-- The loop that writes page by page. -/
theorem writeSplit_spec (injective : Function.Injective frame)
    (located : ∀ address index, locate address = .ok index →
      base ≤ address ∧ index = (address - base) / frameSize)
    (enough : bytes.length ≤ turns) :
    Attempt (· = before) (writeSplit locate base frame turns address bytes)
      (fun _ after => Touches frame before after ∧
        after.paged frame = (before.paged frame).splice (address - base) bytes)
      (fun _ after => Touches frame before after) := by
  have size : frameSize = 4096 := rfl
  induction turns generalizing before address bytes with
  | zero =>
    rw [List.eq_nil_of_length_eq_zero (Nat.le_zero.mp enough), writeSplit]
    exact attempt_of_eq rfl ⟨.refl, Buffer.splice_nil.symm⟩
  | succ turns ih =>
    rw [writeSplit]
    split_ifs with empty
    · rw [empty]
      exact attempt_of_eq rfl ⟨.refl, Buffer.splice_nil.symm⟩
    have nonempty := List.length_pos_iff.mpr empty
    split
    · rintro _ rfl
      exact Touches.refl
    next index isIndex =>
    obtain ⟨above, rfl⟩ := located address index isIndex
    dsimp only
    generalize isCount :
      min bytes.length (frameSize - (address - base) % frameSize) = count
    have small := Nat.mod_lt (address - base) (show 0 < frameSize by decide)
    have length : (bytes.take count).length = count := List.length_take_of_le (by omega)
    apply Attempt.bind (storeAt_spec injective (by omega))
    rintro ⟨⟩ state ⟨stored, contents⟩
    have goesOn := @ih state (address + count) (bytes.drop count)
      (by rw [List.length_drop]; omega)
    apply goesOn.consequence (fun _ same => same) _ _ state rfl
    · rintro ⟨⟩ after ⟨more, isAfter⟩
      refine ⟨stored.trans more, ?_⟩
      have place : (address - base) / frameSize * frameSize + (address - base) % frameSize =
          address - base := by
        rw [Nat.mul_comm]
        exact Nat.div_add_mod _ _
      rw [isAfter, contents, place, show address + count - base =
        address - base + (bytes.take count).length by omega, Buffer.splice_append,
        List.take_append_drop]
    · exact fun _ after more => stored.trans more

/-- A computation that changes the frames of a family only, and them as one buffer. -/
def Writes (frame : Nat → FrameName) (program : Prepare Unit) (change : Buffer → Buffer) : Prop :=
  ∀ before, Attempt (· = before) program
    (fun _ after => Touches frame before after ∧
      after.paged frame = change (before.paged frame))
    (fun _ after => Touches frame before after)

theorem Writes.pure : Writes frame (pure ()) id := by
  rintro before _ rfl
  exact ⟨.refl, rfl⟩

theorem Writes.throw {error : AddressSpaceError} : Writes frame (throw error) change := by
  rintro before _ rfl
  exact Touches.refl

theorem Writes.bind (first : Writes frame program change) (second : Writes frame next later) :
    Writes frame (program >>= fun _ => next) (later ∘ change) := by
  intro before
  apply (first before).bind
  rintro ⟨⟩ middle ⟨toMiddle, isMiddle⟩
  apply (second middle).consequence (fun _ same => same) _ _ middle rfl
  · rintro ⟨⟩ after ⟨toAfter, isAfter⟩
    exact ⟨toMiddle.trans toAfter, isAfter.trans (congrArg later isMiddle)⟩
  · exact fun _ after toAfter => toMiddle.trans toAfter

theorem Writes.congr (writes : Writes frame program change)
    (same : ∀ buffer, change buffer = other buffer) :
    Writes frame program other := by
  have equal : change = other := funext same
  rwa [← equal]

/-! ## The program area -/

theorem writePrivateUserBytes_writes :
    Writes .program (writePrivateUserBytes address bytes)
      (·.splice (address - firstUserEntry) bytes) := by
  rintro before state rfl
  rw [writePrivateUserBytes,
    run_bind_ok (show (get : Prepare Memory) state = .ok state state from rfl)]
  apply writeSplit_spec (fun _ _ equal => FrameName.program.inj equal) _ (Nat.le_refl _) state rfl
  intro address index isIndex
  rw [privateProgramPageIndex] at isIndex
  dsimp only at isIndex
  split_ifs at isIndex with below
  cases isIndex
  exact ⟨Nat.le_of_not_lt below, rfl⟩

theorem zeroPrivateUserBytes_writes :
    Writes .program (zeroPrivateUserBytes address len)
      (·.splice (address - firstUserEntry) (List.replicate len 0)) := by
  rw [zeroPrivateUserBytes]
  exact writePrivateUserBytes_writes

/-- The program area after a segment was put into it. -/
def overlaid (image : List UInt8) (segment : LoadSegment) (program : Buffer) : Buffer :=
  (program.splice (segment.virtualAddress - firstUserEntry) (segmentBytes image segment)).splice
    (segment.virtualAddress + segment.fileSize - firstUserEntry)
    (List.replicate (segment.memorySize - segment.fileSize) 0)

theorem overlaySegment_writes :
    Writes .program (overlaySegment image segment) (overlaid image segment) := by
  have zeros : Writes .program
      (if segment.fileSize < segment.memorySize then
        zeroPrivateUserBytes (segment.virtualAddress + segment.fileSize)
          (segment.memorySize - segment.fileSize)
       else pure ())
      (·.splice (segment.virtualAddress + segment.fileSize - firstUserEntry)
        (List.replicate (segment.memorySize - segment.fileSize) 0)) := by
    split_ifs with longer
    · exact zeroPrivateUserBytes_writes
    · apply Writes.pure.congr
      intro program
      rw [Nat.sub_eq_zero_of_le (Nat.le_of_not_lt longer), List.replicate_zero,
        Buffer.splice_nil, id]
  rw [overlaySegment]
  apply (writePrivateUserBytes_writes.bind zeros).congr
  intro program
  simp only [overlaid, comp_apply]

/-- The program area after some segments were put into it in turn. -/
def overlaidAll (image : List UInt8) (segments : List LoadSegment) (program : Buffer) : Buffer :=
  segments.foldl (fun program segment => overlaid image segment program) program

theorem forEach_overlaySegment_writes :
    Writes .program (forEach (overlaySegment image) segments) (overlaidAll image segments) := by
  induction segments with
  | nil => exact Writes.pure
  | cons segment rest ih =>
    rw [forEach]
    exact overlaySegment_writes.bind ih

/-- The program area after the segments of an image were put into it. -/
def loadedProgram (image : List UInt8) (program : Buffer) : Buffer :=
  overlaidAll image ((imageSegments image).getD []) program

theorem overlayElfSegments_writes :
    Writes .program (overlayElfSegmentsToPrivateFrames image) (loadedProgram image) := by
  rw [overlayElfSegmentsToPrivateFrames]
  unfold loadedProgram
  cases imageSegments image with
  | none => exact Writes.pure
  | some segments => exact forEach_overlaySegment_writes

/-- The part of an argument that fits the argument area. -/
def argPath (arg : List UInt8) : List UInt8 :=
  arg.take (min arg.length firstUserArgPathLen)

theorem length_argPath_le (arg : List UInt8) : (argPath arg).length ≤ firstUserArgPathLen := by
  rw [argPath, List.length_take]
  omega

/-- The program area after the argument was put into it. -/
def seededProgram (arg : List UInt8) (program : Buffer) : Buffer :=
  ((program.splice (firstUserArgPathAddr - firstUserEntry)
      (List.replicate firstUserArgPathLen 0)).splice
    (firstUserArgPathAddr - firstUserEntry) (argPath arg)).splice
    (firstUserArgLenAddr - firstUserEntry) (leBytes (argPath arg).length 8)

theorem seedPrivateUserArg_writes :
    Writes .program (seedPrivateUserArg arg) (seededProgram arg) := by
  rw [seedPrivateUserArg]
  apply (zeroPrivateUserBytes_writes.bind
    (writePrivateUserBytes_writes.bind writePrivateUserBytes_writes)).congr
  intro program
  rw [seededProgram, argPath]
  simp only [comp_apply]

/-- The argument area: the bytes of the argument and its length. -/
def InArgArea (address : Nat) : Prop :=
  firstUserArgPathAddr ≤ address ∧ address < firstUserArgPathAddr + firstUserArgPathLen ∨
    firstUserArgLenAddr ≤ address ∧ address < firstUserArgLenAddr + 8

theorem seededProgram_elsewhere (elsewhere : ¬InArgArea (firstUserEntry + offset)) :
    seededProgram arg program offset = program offset := by
  have short := length_argPath_le arg
  have pathStart : firstUserArgPathAddr = firstUserEntry + 0x340 := rfl
  have lenStart : firstUserArgLenAddr = firstUserEntry + 0x378 := rfl
  rw [InArgArea] at elsewhere
  rw [seededProgram, Buffer.splice_outside, Buffer.splice_outside, Buffer.splice_outside]
  · rw [List.length_replicate]
    omega
  · omega
  · rw [length_leBytes]
    omega

/-! ## Clearing frames and filling the stack -/

/-- The frames of a family with some of them replaced. -/
def refilled (contents : Nat → Buffer) (indexes : List Nat) (buffer : Buffer) : Buffer :=
  fun offset =>
    if offset / frameSize ∈ indexes then contents (offset / frameSize) (offset % frameSize)
    else buffer offset

theorem fillFrame_writes (injective : Function.Injective frame) :
    Writes frame (fillFrame (frame index) (contents index)) (refilled contents [index]) := by
  rintro before _ rfl
  refine ⟨⟨fun name other => update_of_ne (other index) _ _, rfl, rfl⟩, ?_⟩
  funext offset
  simp only [Memory.paged, refilled, List.mem_singleton]
  split_ifs with same
  · rw [same, update_self]
  · rw [update_of_ne fun equal => same (injective equal)]

theorem forEach_fillFrame_writes (injective : Function.Injective frame) (indexes : List Nat) :
    Writes frame (forEach (fun index => fillFrame (frame index) (contents index)) indexes)
      (refilled contents indexes) := by
  induction indexes with
  | nil =>
    apply Writes.pure.congr
    intro buffer
    funext offset
    exact (if_neg (List.not_mem_nil)).symm
  | cons index rest ih =>
    rw [forEach]
    apply ((fillFrame_writes injective).bind ih).congr
    intro buffer
    funext offset
    simp only [refilled, comp_apply, List.mem_cons, List.not_mem_nil, or_false]
    split_ifs <;> grind

/-- What a program page holds before the overlay. -/
def freshPage (request : Request) (index : Nat) : Buffer :=
  if isElfImage request.image then fun _ => 0
  else fun offset => request.active (index * frameSize + offset)

/-- The stack after its strings and pointers were put into it. -/
def seededStack (layout : UserMemoryLayout) (programPath arg : List UInt8) (stack : Buffer) :
    Buffer :=
  match buildUserInitialStack layout programPath arg with
  | .error _ => stack
  | .ok built => stack.splice (built.stackPointer - layout.stackStart.toNat) built.bytes

theorem seedPrivateInitialStack_writes (isSlot : stackSlotIndex layout.stackTop = some slot) :
    Writes (.stack slot) (seedPrivateInitialStack layout programPath arg)
      (seededStack layout programPath arg) := by
  rw [seedPrivateInitialStack]
  unfold seededStack
  cases buildUserInitialStack layout programPath arg with
  | error error => exact Writes.throw
  | ok built =>
    dsimp only
    rw [writePrivateUserStackBytes, isSlot]
    intro before
    apply writeSplit_spec (fun _ _ equal => (FrameName.stack.inj equal).2) _ (Nat.le_refl _)
    intro address index isIndex
    rw [privateStackPageIndex] at isIndex
    dsimp only at isIndex
    split_ifs at isIndex with outside
    cases isIndex
    exact ⟨by omega, rfl⟩

/-! ## Page-table entries -/

/-- The change is to entries, whose new flags are allowed. -/
structure Relabels (allowed : Nat → PageFlags → Prop) (before after : Memory) : Prop where
  count : after.programFrameCount = before.programFrameCount
  leaves : ∀ page, after.leaves page = before.leaves page ∨
    ∃ leaf, after.leaves page = some leaf ∧ allowed page leaf.flags

theorem Touches.relabels (touches : Touches frame before after) : Relabels allowed before after :=
  ⟨touches.count, fun page => .inl (congrFun touches.leaves page)⟩

theorem Relabels.trans (first : Relabels allowed before middle)
    (second : Relabels allowed middle after) :
    Relabels allowed before after := by
  refine ⟨second.count.trans first.count, fun page => ?_⟩
  rcases second.leaves page with same | changed
  · rw [same]
    exact first.leaves page
  · exact .inr changed

/-- A leaf is written with flags its page may have. -/
theorem Relabels.update {leaf : Leaf} (allows : allowed page leaf.flags) :
    Relabels allowed state
      { state with leaves := Function.update state.leaves page (some leaf) } := by
  refine ⟨rfl, fun other => ?_⟩
  by_cases same : other = page
  · rw [same]
    exact .inr ⟨_, update_self .., allows⟩
  · exact .inl (update_of_ne same _ _)

/-- Remapping stack pages to their frames. -/
theorem forEach_remap_spec (allowsData : ∀ page, allowed page userDataPageFlags) :
    Attempt (· = before)
      (forEach (fun index =>
        remapExistingUserPageToPrivateFrame (start + index) (.stack slot index)) indexes)
      (fun _ after => after.frames = before.frames ∧ Relabels allowed before after ∧
        ∀ page, after.leaves page =
          if start ≤ page ∧ page - start ∈ indexes then
            some ⟨.stack slot (page - start), userDataPageFlags⟩
          else before.leaves page)
      (fun _ after => Relabels allowed before after) := by
  induction indexes generalizing before with
  | nil => exact attempt_of_eq rfl ⟨rfl, ⟨rfl, fun _ => .inl rfl⟩, fun page => by simp⟩
  | cons index rest ih =>
    rw [forEach]
    rintro state rfl
    cases isLeaf : state.leaves (start + index) with
    | none =>
      have ran : remapExistingUserPageToPrivateFrame (start + index) (.stack slot index)
          state = .error .privateMappingNotFound state := by
        rw [remapExistingUserPageToPrivateFrame, isLeaf]
      rw [run_bind_error ran]
      exact ⟨rfl, fun _ => .inl rfl⟩
    | some leaf =>
      have ran : remapExistingUserPageToPrivateFrame (start + index) (.stack slot index)
          state = .ok () { state with
            leaves := Function.update state.leaves (start + index)
              (some ⟨.stack slot index, userDataPageFlags⟩) } := by
        rw [remapExistingUserPageToPrivateFrame, isLeaf]
      rw [run_bind_ok ran]
      have stepped : Relabels allowed state { state with
          leaves := Function.update state.leaves (start + index)
            (some ⟨.stack slot index, userDataPageFlags⟩) } := .update (allowsData _)
      apply ih.consequence (fun _ same => same) _ _ _ rfl
      · rintro ⟨⟩ after ⟨frames, relabels, leaves⟩
        refine ⟨frames, stepped.trans relabels, fun page => ?_⟩
        rw [leaves page]
        by_cases same : page = start + index
        · subst same
          simp
        · have differ : start ≤ page → page - start ≠ index := by omega
          simp only [update_of_ne same, List.mem_cons]
          split_ifs <;> grind
      · exact fun _ after relabels => stepped.trans relabels

/-- Setting the flags of some pages. -/
theorem forEach_protectPage_spec {pages : List Nat}
    (allows : ∀ page ∈ pages, ∀ flags, flagsOf page = .ok flags → allowed page flags) :
    Attempt (· = before) (forEach (protectPage flagsOf) pages)
      (fun _ after => after.frames = before.frames ∧ Relabels allowed before after ∧
        (∀ page, page ∉ pages → after.leaves page = before.leaves page) ∧
        ∀ page ∈ pages, ∃ leaf flags, before.leaves page = some leaf ∧
          flagsOf page = .ok flags ∧ after.leaves page = some { leaf with flags })
      (fun _ after => Relabels allowed before after) := by
  induction pages generalizing before with
  | nil =>
    exact attempt_of_eq rfl ⟨rfl, ⟨rfl, fun _ => .inl rfl⟩, fun _ _ => rfl, by simp⟩
  | cons page rest ih =>
    have others := fun other isOther => allows other (List.mem_cons_of_mem page isOther)
    rw [forEach]
    rintro state rfl
    cases isFlags : flagsOf page with
    | error error =>
      have ran : protectPage flagsOf page state = .error error state := by
        rw [protectPage, isFlags]
        rfl
      rw [run_bind_error ran]
      exact ⟨rfl, fun _ => .inl rfl⟩
    | ok flags =>
      cases isLeaf : state.leaves page with
      | none =>
        have ran : protectPage flagsOf page state =
            .error .privateMappingNotFound state := by
          rw [protectPage, isFlags]
          dsimp only
          rw [setUserPageFlags, isLeaf]
        rw [run_bind_error ran]
        exact ⟨rfl, fun _ => .inl rfl⟩
      | some leaf =>
        have ran : protectPage flagsOf page state = .ok () { state with
            leaves := Function.update state.leaves page (some { leaf with flags }) } := by
          rw [protectPage, isFlags]
          dsimp only
          rw [setUserPageFlags, isLeaf]
        rw [run_bind_ok ran]
        have stepped : Relabels allowed state { state with
            leaves := Function.update state.leaves page (some { leaf with flags }) } :=
          .update (allows page (List.mem_cons_self ..) flags isFlags)
        apply (ih others).consequence (fun _ same => same) _ _ _ rfl
        · rintro ⟨⟩ after ⟨frames, relabels, unchanged, changed⟩
          refine ⟨frames, stepped.trans relabels, ?_, ?_⟩
          · intro other notListed
            rw [List.mem_cons, not_or] at notListed
            rw [unchanged other notListed.2]
            exact update_of_ne notListed.1 _ _
          · intro other listed
            by_cases later : other ∈ rest
            · obtain ⟨old, chosen, isOld, isChosen, isNew⟩ := changed other later
              by_cases same : other = page
              · subst same
                rw [isFlags] at isChosen
                cases isChosen
                cases (update_self other _ state.leaves).symm.trans isOld
                exact ⟨leaf, flags, isLeaf, isFlags, isNew⟩
              · exact ⟨old, chosen, (update_of_ne same _ _).symm.trans isOld,
                  isChosen, isNew⟩
            · rcases List.mem_cons.mp listed with rfl | isRest
              · refine ⟨leaf, flags, isLeaf, isFlags, ?_⟩
                rw [unchanged other later]
                exact update_self ..
              · exact absurd isRest later
        · exact fun _ after relabels => stepped.trans relabels

/-! ## The pages of a layout -/

/-- The number of a program page. -/
def programPage (index : Nat) : Nat := firstUserEntry / frameSize + index

/-- The number of a page of a stack slot. -/
def stackPage (slot : Fin 8) (index : Nat) : Nat :=
  (stackRangeForSlot slot).1.toNat / frameSize + index

theorem programPage_eq (index : Nat) : programPage index = 4096 + index := rfl

theorem stackPage_eq (slot : Fin 8) (index : Nat) :
    stackPage slot index = 5116 - 5 * slot + index := by
  rw [stackPage, (stackRangeForSlot_toNat slot).1, frameSize]
  omega

/-- The pages that a layout gives to the program and to the stack. -/
structure Paginated (layout : UserMemoryLayout) (slot : Fin 8) (pages : Nat) : Prop where
  stackSlot : stackSlotIndex layout.stackTop = some slot.val
  stackStart : layout.stackStart.toNat / frameSize = stackPage slot 0
  stackPages : pagesForLen (layout.stackTop.toNat - layout.stackStart.toNat) = 4
  stackRange : pageRange layout.stackStart.toNat layout.stackTop.toNat =
    List.range' (stackPage slot 0) 4
  programPages : pagesForLen (layout.programEnd.toNat - layout.programStart.toNat) = pages
  programRange : pageRange layout.programStart.toNat layout.programEnd.toNat =
    List.range' (programPage 0) pages
  few : pages ≤ 984

theorem pageRange_eq (first : start / 4096 = page) (last : (stop - 1) / 4096 + 1 = page + number) :
    pageRange start stop = List.range' page number := by
  simp only [pageRange, frameSize]
  rw [first, last, Nat.add_sub_cancel_left]

theorem stackSlotIndex_stackRangeForSlot (slot : Fin 8) :
    stackSlotIndex (stackRangeForSlot slot).2 = some slot.val := by
  revert slot
  decide

theorem memoryLayout_paginated (pid : Pid) (size : UInt64) :
    ∃ slot pages, Paginated (memoryLayoutForPidWithProgramSize pid size) slot pages ∧
      (size.toNat < 2 ^ 63 → pages = min (max 1 ((size.toNat + 4095) / 4096)) 984) := by
  obtain ⟨slot, -, isTop, isStart⟩ := memoryLayout_spec pid size
  obtain ⟨programStart, pages, few, programEnd, isPages⟩ := memoryLayout_program pid size
  obtain ⟨start, top⟩ := stackRangeForSlot_toNat slot
  have page := stackPage_eq slot 0
  refine ⟨slot, pages, ⟨?_, ?_, ?_, ?_, ?_, ?_, few⟩, isPages⟩
  · rw [isTop]
    exact stackSlotIndex_stackRangeForSlot slot
  · rw [isStart, stackPage, Nat.add_zero]
  · rw [isTop, isStart, start, top]
    simp only [pagesForLen, frameSize]
    omega
  · rw [isTop, isStart, start, top]
    exact pageRange_eq (by omega) (by omega)
  · rw [programStart, programEnd]
    simp only [pagesForLen, frameSize]
    omega
  · rw [programStart, programEnd, programPage_eq]
    exact pageRange_eq (by omega) (by omega)

/-! ## The whole preparation -/

/-- What the preparation of a program has done to its memory. -/
structure Prepared (request : Request) (slot : Fin 8) (pages : Nat)
    (before after : Memory) : Prop where
  enough : pages ≤ before.programFrameCount
  count : after.programFrameCount = before.programFrameCount
  program : after.program = seededProgram request.arg (loadedProgram request.image
    (refilled (freshPage request) (List.range pages) before.program))
  stack : after.paged (.stack slot) =
    seededStack request.layout request.programPath request.arg
      (refilled (fun _ _ => 0) (List.range 4) (before.paged (.stack slot)))
  elsewhere : ∀ name, (∀ index, name ≠ .program index) → (∀ index, name ≠ .stack slot index) →
    after.frames name = before.frames name
  stackLeaves : ∀ index < 4,
    after.leaves (stackPage slot index) = some ⟨.stack slot index, userDataPageFlags⟩
  programLeaves : ∀ index < pages, ∃ leaf flags,
    before.leaves (programPage index) = some leaf ∧
      programPageFlags (imageSegments request.image) (programPage index) = .ok flags ∧
      after.leaves (programPage index) = some { leaf with flags }
  otherLeaves : ∀ page, (∀ index < 4, page ≠ stackPage slot index) →
    (∀ index < pages, page ≠ programPage index) → after.leaves page = before.leaves page

/-- The flags that a preparation gives to pages. -/
def Labels (request : Request) (pages : Nat) (page : Nat) (flags : PageFlags) : Prop :=
  flags = userDataPageFlags ∨
    ∃ index < pages, page = programPage index ∧
      programPageFlags (imageSegments request.image) page = .ok flags

theorem Prepared.relabels (prepared : Prepared request slot pages before after) :
    Relabels (Labels request pages) before after := by
  refine ⟨prepared.count, fun page => ?_⟩
  by_cases inStack : ∃ index < 4, page = stackPage slot index
  · obtain ⟨index, inside, rfl⟩ := inStack
    exact .inr ⟨_, prepared.stackLeaves index inside, .inl rfl⟩
  by_cases inProgram : ∃ index < pages, page = programPage index
  · obtain ⟨index, inside, rfl⟩ := inProgram
    obtain ⟨leaf, flags, -, isFlags, isLeaf⟩ := prepared.programLeaves index inside
    exact .inr ⟨_, isLeaf, .inr ⟨index, inside, rfl, isFlags⟩⟩
  · exact .inl (prepared.otherLeaves page (fun index inside equal => inStack ⟨index, inside, equal⟩)
      fun index inside equal => inProgram ⟨index, inside, equal⟩)

/-- One step after another, from a given memory. -/
theorem attempt_then
    (first : Attempt (· = before) program post failed)
    (second : ∀ middle, post () middle → Attempt (· = middle) next last failed) :
    Attempt (· = before) (program >>= fun _ => next) last failed :=
  first.bind fun _ middle holds => second middle holds middle rfl

/-- A step that writes to frames, after a memory with allowed flags. -/
theorem Writes.attempt (writes : Writes frame program change)
    (allowed : Relabels labels start before) :
    Attempt (· = before) program
      (fun _ after => Touches frame before after ∧
        after.paged frame = change (before.paged frame))
      (fun _ after => Relabels labels start after) :=
  (writes before).consequence (fun _ same => same) (fun _ _ holds => holds)
    fun _ _ touches => allowed.trans touches.relabels

theorem Touches.paged_other (touches : Touches frame before after)
    (apart : ∀ index place, other index ≠ frame place) :
    after.paged other = before.paged other := by
  funext offset
  rw [Memory.paged, touches.elsewhere _ (apart _), Memory.paged]

/-- The memory when the frames of a program have been cleared and filled. -/
structure Filled (slot : Fin 8) (program stack : Buffer)
    (before after : Memory) : Prop where
  program : after.program = program
  stack : after.paged (.stack slot) = stack
  elsewhere : ∀ name, (∀ index, name ≠ .program index) → (∀ index, name ≠ .stack slot index) →
    after.frames name = before.frames name
  leaves : ∀ page, after.leaves page =
    if stackPage slot 0 ≤ page ∧ page - stackPage slot 0 ∈ List.range 4 then
      some ⟨.stack slot (page - stackPage slot 0), userDataPageFlags⟩
    else before.leaves page

theorem Filled.writeProgram
    {program stack : Buffer} {change : Buffer → Buffer}
    (filled : Filled slot program stack before middle) (touches : Touches .program middle after)
    (contents : after.paged .program = change (middle.paged .program)) :
    Filled slot (change program) stack before after where
  program := contents.trans (congrArg change filled.program)
  stack := (touches.paged_other fun _ _ => FrameName.noConfusion).trans filled.stack
  elsewhere name notProgram notStack :=
    (touches.elsewhere name notProgram).trans (filled.elsewhere name notProgram notStack)
  leaves page := (congrFun touches.leaves page).trans (filled.leaves page)

theorem Filled.writeStack
    {program stack : Buffer} {change : Buffer → Buffer}
    (filled : Filled slot program stack before middle)
    (touches : Touches (.stack slot) middle after)
    (contents : after.paged (.stack slot) = change (middle.paged (.stack slot))) :
    Filled slot program (change stack) before after where
  program := (touches.paged_other fun _ _ => FrameName.noConfusion).trans filled.program
  stack := contents.trans (congrArg change filled.stack)
  elsewhere name notProgram notStack :=
    (touches.elsewhere name notStack).trans (filled.elsewhere name notProgram notStack)
  leaves page := (congrFun touches.leaves page).trans (filled.leaves page)

theorem prepareFrames_spec (paginated : Paginated request.layout slot pages) :
    Attempt (· = before) (prepareFrames request slot pages 4)
      (fun _ after => Relabels (Labels request pages) before after ∧
        Filled slot (refilled (freshPage request) (List.range pages) before.program)
          (refilled (fun _ _ => 0) (List.range 4) (before.paged (.stack slot))) before after)
      (fun _ after => Relabels (Labels request pages) before after) := by
  rw [prepareFrames, paginated.stackStart]
  apply attempt_then (forEach_remap_spec fun _ => .inl rfl)
  rintro remapped ⟨frames, relabels, leaves⟩
  have start : Filled slot before.program (before.paged (.stack slot)) before remapped := by
    refine ⟨?_, ?_, fun name _ _ => congrFun frames name, leaves⟩
    · unfold Memory.program Memory.paged
      rw [frames]
    · unfold Memory.paged
      rw [frames]
  have fillsProgram : Writes .program (forEach (fillProgramFrame request) (List.range pages))
      (refilled (freshPage request) (List.range pages)) :=
    forEach_fillFrame_writes (fun _ _ equal => FrameName.program.inj equal) (List.range pages)
  apply attempt_then (fillsProgram.attempt relabels)
  rintro cleared ⟨touches, contents⟩
  have relabelled := relabels.trans touches.relabels
  have clearsStack : Writes (.stack slot)
      (forEach (fun index => fillFrame (.stack slot index) fun _ => 0) (List.range 4))
      (refilled (fun _ _ => 0) (List.range 4)) :=
    forEach_fillFrame_writes (fun _ _ equal => (FrameName.stack.inj equal).2) (List.range 4)
  apply (clearsStack.attempt relabelled).consequence (fun _ same => same) _
    (fun _ _ failed => failed)
  rintro ⟨⟩ after ⟨more, isStack⟩
  exact ⟨relabelled.trans more.relabels,
    (start.writeProgram touches contents).writeStack more isStack⟩

theorem stackPage_ne_programPage (few : pages ≤ 984) (inside : index < pages) :
    programPage index ≠ stackPage slot place := by
  rw [programPage_eq, stackPage_eq]
  omega

theorem mem_range'_stackPage :
    page ∈ List.range' (stackPage slot 0) 4 ↔ ∃ index < 4, page = stackPage slot index := by
  rw [List.mem_range'_1]
  simp only [stackPage]
  constructor
  · rintro ⟨above, below⟩
    exact ⟨page - stackPage slot 0, by rw [stackPage]; omega, by rw [stackPage]; omega⟩
  · rintro ⟨index, inside, rfl⟩
    omega

theorem mem_range'_programPage :
    page ∈ List.range' (programPage 0) pages ↔ ∃ index < pages, page = programPage index := by
  rw [List.mem_range'_1]
  simp only [programPage_eq]
  constructor
  · rintro ⟨above, below⟩
    exact ⟨page - 4096, by omega, by omega⟩
  · rintro ⟨index, inside, rfl⟩
    omega

theorem protectPrivateUserMemory_spec (paginated : Paginated request.layout slot pages)
    (relabels : Relabels (Labels request pages) before middle)
    (filled : Filled slot program stack before middle) :
    Attempt (· = middle) (protectPrivateUserMemory request.layout request.image)
      (fun _ after => after.frames = middle.frames ∧
        after.programFrameCount = before.programFrameCount ∧
        (∀ index < 4,
          after.leaves (stackPage slot index) = some ⟨.stack slot index, userDataPageFlags⟩) ∧
        (∀ index < pages, ∃ leaf flags,
          before.leaves (programPage index) = some leaf ∧
            programPageFlags (imageSegments request.image) (programPage index) = .ok flags ∧
            after.leaves (programPage index) = some { leaf with flags }) ∧
        ∀ page, (∀ index < 4, page ≠ stackPage slot index) →
          (∀ index < pages, page ≠ programPage index) → after.leaves page = before.leaves page)
      (fun _ after => Relabels (Labels request pages) before after) := by
  have few := paginated.few
  have stackFilled : ∀ index < 4,
      middle.leaves (stackPage slot index) = some ⟨.stack slot index, userDataPageFlags⟩ := by
    intro index inside
    have same : stackPage slot index - stackPage slot 0 = index := by
      simp only [stackPage]
      omega
    have above : stackPage slot 0 ≤ stackPage slot index := by
      simp only [stackPage]
      omega
    rw [filled.leaves, same, if_pos ⟨above, List.mem_range.mpr inside⟩]
  have otherFilled : ∀ page, (∀ index < 4, page ≠ stackPage slot index) →
      middle.leaves page = before.leaves page := by
    intro page other
    rw [filled.leaves, if_neg]
    rintro ⟨above, inside⟩
    apply other _ (List.mem_range.mp inside)
    simp only [stackPage] at above ⊢
    omega
  rw [protectPrivateUserMemory, paginated.programRange, paginated.stackRange]
  have protectsProgram := @forEach_protectPage_spec
    (programPageFlags (imageSegments request.image)) (Labels request pages) middle
    (List.range' (programPage 0) pages) (by
      intro page listed flags isFlags
      obtain ⟨index, inside, rfl⟩ := mem_range'_programPage.mp listed
      exact .inr ⟨index, inside, rfl, isFlags⟩)
  apply attempt_then (protectsProgram.consequence (fun _ same => same) (fun _ _ holds => holds)
    fun _ _ more => relabels.trans more)
  rintro protected_ ⟨frames, more, unchanged, changed⟩
  have protectsStack := @forEach_protectPage_spec (fun _ => .ok userDataPageFlags)
    (Labels request pages) protected_ (List.range' (stackPage slot 0) 4) (by
      intro page _ flags isFlags
      cases isFlags
      exact .inl rfl)
  apply protectsStack.consequence (fun _ same => same) _
    fun _ _ last => (relabels.trans more).trans last
  rintro ⟨⟩ after ⟨lastFrames, last, lastUnchanged, lastChanged⟩
  refine ⟨lastFrames.trans frames, ((relabels.trans more).trans last).count, ?_, ?_, ?_⟩
  · intro index inside
    obtain ⟨leaf, flags, isLeaf, isFlags, isAfter⟩ :=
      lastChanged _ (mem_range'_stackPage.mpr ⟨index, inside, rfl⟩)
    cases isFlags
    have notProgram : stackPage slot index ∉ List.range' (programPage 0) pages := by
      intro listed
      obtain ⟨place, inProgram, equal⟩ := mem_range'_programPage.mp listed
      exact stackPage_ne_programPage few inProgram equal.symm
    rw [unchanged _ notProgram, stackFilled index inside] at isLeaf
    cases isLeaf
    exact isAfter
  · intro index inside
    obtain ⟨leaf, flags, isLeaf, isFlags, isProtected⟩ :=
      changed _ (mem_range'_programPage.mpr ⟨index, inside, rfl⟩)
    have notStack : ∀ place < 4, programPage index ≠ stackPage slot place :=
      fun place _ => stackPage_ne_programPage few inside
    refine ⟨leaf, flags, ?_, isFlags, ?_⟩
    · rw [← otherFilled _ notStack]
      exact isLeaf
    · rw [lastUnchanged]
      · exact isProtected
      · intro listed
        obtain ⟨place, inStack, equal⟩ := mem_range'_stackPage.mp listed
        exact notStack place inStack equal
  · intro page notStack notProgram
    rw [lastUnchanged, unchanged, otherFilled page notStack]
    · intro listed
      obtain ⟨index, inside, equal⟩ := mem_range'_programPage.mp listed
      exact notProgram index inside equal
    · intro listed
      obtain ⟨index, inside, equal⟩ := mem_range'_stackPage.mp listed
      exact notStack index inside equal

/-- The memory after a preparation, and what a failed one may have done to the entries. -/
theorem prepareProcessPrivateMemory_spec (paginated : Paginated request.layout slot pages) :
    Attempt (· = before) (prepareProcessPrivateMemory request)
      (fun _ after => Prepared request slot pages before after)
      (fun _ after => Relabels (Labels request pages) before after) := by
  rintro memory rfl
  rw [prepareProcessPrivateMemory,
    run_bind_ok (show (get : Prepare Memory) memory = .ok memory memory from rfl)]
  dsimp only
  rw [paginated.programPages]
  by_cases tooFew : memory.programFrameCount < pages
  · rw [if_pos tooFew]
    exact ⟨rfl, fun _ => .inl rfl⟩
  rw [if_neg tooFew, paginated.stackSlot]
  dsimp only
  rw [paginated.stackPages, if_neg (by decide)]
  have enough : pages ≤ memory.programFrameCount := Nat.le_of_not_lt tooFew
  apply attempt_then (prepareFrames_spec paginated) _ memory rfl
  rintro filled ⟨relabels, isFilled⟩
  apply attempt_then (overlayElfSegments_writes.attempt relabels)
  rintro loaded ⟨loads, isLoaded⟩
  have relabels := relabels.trans loads.relabels
  have isFilled := isFilled.writeProgram loads isLoaded
  apply attempt_then (seedPrivateUserArg_writes.attempt relabels)
  rintro seeded ⟨seeds, isSeeded⟩
  have relabels := relabels.trans seeds.relabels
  have isFilled := isFilled.writeProgram seeds isSeeded
  apply attempt_then ((seedPrivateInitialStack_writes paginated.stackSlot).attempt relabels)
  rintro stacked ⟨seedsStack, isStacked⟩
  have relabels := relabels.trans seedsStack.relabels
  have isFilled := isFilled.writeStack seedsStack isStacked
  apply (protectPrivateUserMemory_spec paginated relabels isFilled).consequence
    (fun _ same => same) _ (fun _ _ failed => failed)
  rintro ⟨⟩ after ⟨frames, count, stackLeaves, programLeaves, otherLeaves⟩
  refine ⟨enough, count, ?_, ?_, ?_, stackLeaves, programLeaves, otherLeaves⟩
  · rw [← isFilled.program]
    unfold Memory.program Memory.paged
    rw [frames]
  · rw [← isFilled.stack]
    unfold Memory.paged
    rw [frames]
  · intro name notProgram notStack
    rw [frames]
    exact isFilled.elsewhere name notProgram notStack

end PrivateMemory
end Vantara
