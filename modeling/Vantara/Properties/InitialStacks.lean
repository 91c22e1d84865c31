import Vantara.Image.InitialStack
import Vantara.User.Layout

/-!
# Well-formed initial stacks

The block that the kernel puts on the stack of a new program is aligned, ends at the top
of the stack, and holds the table of pointers and the strings they point to, without
overlaps.  The strings are the path and the words that the userland iterator yields.
-/

namespace Vantara

open Foundation

/-! ## The words of the argument -/

section Scanning

variable {test : UInt8 → Bool} {bytes : List UInt8}

theorem le_advanceWhile (turns cursor : Nat) : cursor ≤ advanceWhile test bytes turns cursor := by
  induction turns generalizing cursor with
  | zero => exact Nat.le_refl _
  | succ turns ih =>
    rw [advanceWhile]
    split
    · exact Nat.le_refl _
    · split_ifs
      · exact Nat.le_of_succ_le (ih _)
      · exact Nat.le_refl _

theorem le_scan (cursor : Nat) : cursor ≤ scan test bytes cursor :=
  le_advanceWhile _ _

/-- With turns enough, the loop stops at the end or at a byte that fails the test. -/
theorem advanceWhile_stops
    (enough : bytes.length - cursor ≤ turns)
    (isByte : bytes[advanceWhile test bytes turns cursor]? = some byte) :
    test byte = false := by
  induction turns generalizing cursor with
  | zero =>
    rw [advanceWhile, List.getElem?_eq_none (by omega)] at isByte
    cases isByte
  | succ turns ih =>
    rw [advanceWhile] at isByte
    split at isByte
    · next atEnd =>
        rw [atEnd] at isByte
        cases isByte
    · next here atCursor =>
        split_ifs at isByte with passes
        · exact ih (by omega) isByte
        · rw [atCursor] at isByte
          cases isByte
          exact eq_false_of_ne_true passes

theorem scan_of_length_le (atEnd : bytes.length ≤ cursor) : scan test bytes cursor = cursor := by
  rw [scan, Nat.sub_eq_zero_of_le atEnd, advanceWhile]

/-- A scan goes on over a byte that passes the test. -/
theorem lt_scan (isByte : bytes[cursor]? = some byte) (passes : test byte) :
    cursor < scan test bytes cursor := by
  have inside : cursor < bytes.length := (List.getElem?_eq_some_iff.mp isByte).1
  obtain ⟨turns, isTurns⟩ : ∃ turns, bytes.length - cursor = turns + 1 :=
    ⟨bytes.length - cursor - 1, by omega⟩
  rw [scan, isTurns, advanceWhile, isByte]
  dsimp only
  rw [if_pos passes]
  exact le_advanceWhile _ _

end Scanning

theorem Argv.yields_of_nextArg_eq_none {argv : Argv} (ended : argv.nextArg = none) :
    argv.yields number = [] := by
  cases number with
  | zero => rfl
  | succ number => rw [yields, ended]

theorem Argv.nextArg_of_length_le
    {bytes : List UInt8} {cursor : Nat}
    (atEnd : bytes.length ≤ scan isArgSeparator bytes cursor) :
    Argv.nextArg ⟨bytes, cursor⟩ = none :=
  if_pos atEnd

/-- The kernel finds the words that the iterator yields, until it has eight strings. -/
theorem collectArgs_eq
    (enough : arg.length - index ≤ turns)
    (few : argv.length ≤ userInitialArgvMax) :
    collectArgs arg turns index argv =
      argv ++ Argv.yields (userInitialArgvMax - argv.length) ⟨arg, index⟩ := by
  induction turns generalizing index argv with
  | zero =>
    rw [collectArgs, Argv.yields_of_nextArg_eq_none, List.append_nil]
    exact Argv.nextArg_of_length_le (Nat.le_trans (by omega) (le_scan _))
  | succ turns ih =>
    rw [collectArgs]
    split_ifs with goesOn
    · obtain ⟨inside, space⟩ := goesOn
      dsimp only
      have forward := @le_scan isArgSeparator arg index
      generalize isStart : scan isArgSeparator arg index = start at forward ⊢
      by_cases atEnd : arg.length ≤ start
      · rw [scan_of_length_le atEnd, if_neg (Nat.lt_irrefl _),
          ih (by omega) few, Argv.yields_of_nextArg_eq_none,
          Argv.yields_of_nextArg_eq_none]
        · exact Argv.nextArg_of_length_le (isStart ▸ atEnd)
        · exact Argv.nextArg_of_length_le (Nat.le_trans atEnd (le_scan _))
      · have startInside : start < arg.length := Nat.lt_of_not_le atEnd
        have isByte : arg[start]? = some arg[start] := List.getElem?_eq_getElem startInside
        have isWord : isArgSeparator arg[start] = false := by
          apply advanceWhile_stops (Nat.le_refl (arg.length - index))
          rw [← scan, isStart]
          exact isByte
        have nonempty := @lt_scan (fun byte => !isArgSeparator byte) arg start _ isByte
          (by rw [isWord]; rfl)
        obtain ⟨others, isOthers⟩ : ∃ others, userInitialArgvMax - argv.length = others + 1 :=
          ⟨userInitialArgvMax - argv.length - 1, by omega⟩
        have next : Argv.nextArg ⟨arg, index⟩ =
            some (between arg start (scan (fun byte => !isArgSeparator byte) arg start),
              ⟨arg, scan (fun byte => !isArgSeparator byte) arg start⟩) := by
          rw [Argv.nextArg]
          dsimp only
          rw [isStart, if_neg atEnd]
        have length : ∀ word : List UInt8, (argv ++ [word]).length = argv.length + 1 :=
          fun word => List.length_append
        rw [if_pos nonempty, ih (by omega) (by rw [length]; omega), isOthers,
          Argv.yields, next, length, Nat.sub_add_eq, isOthers, Nat.add_sub_cancel,
          List.append_assoc]
        rfl
    · by_cases inside : index < arg.length
      · have full : userInitialArgvMax - argv.length = 0 := by omega
        rw [full, Argv.yields, List.append_nil]
      · rw [Argv.yields_of_nextArg_eq_none, List.append_nil]
        exact Argv.nextArg_of_length_le (Nat.le_trans (Nat.le_of_not_lt inside) (le_scan _))

/-! ## The strings -/

/-- The strings are in the buffer, each before the next, where the pointers say. -/
structure PackedStrings.Holds (stackBase : Nat) (items : List (List UInt8))
    (packed : PackedStrings) : Prop where
  low_le : packed.low ≤ userInitialStackMaxSize
  length : packed.pointers.length = items.length
  strings : ∀ pair ∈ items.zip packed.pointers,
    stackBase + packed.low ≤ pair.2 ∧
      pair.2 + pair.1.length + 1 ≤ stackBase + userInitialStackMaxSize ∧
      packed.buffer.Holds (pair.2 - stackBase) (pair.1 ++ [0])
  ordered : (items.zip packed.pointers).Pairwise fun first second =>
    first.2 + first.1.length + 1 ≤ second.2

theorem packStrings_holds (ran : packStrings stackBase items = .ok packed) :
    packed.Holds stackBase items := by
  induction items generalizing packed with
  | nil =>
    cases ran
    exact ⟨Nat.le_refl _, rfl, by simp, by simp⟩
  | cons item rest ih =>
    rw [packStrings] at ran
    split at ran
    · cases ran
    next before isBefore =>
    have holds := ih isBefore
    split_ifs at ran with overflows tooLarge
    cases ran
    have room : item.length + 1 ≤ before.low := Nat.le_of_not_lt tooLarge
    have bound := holds.low_le
    refine ⟨?_, ?_, ?_, ?_⟩
    · dsimp only
      omega
    · rw [List.length_cons, List.length_cons, holds.length]
    · rw [List.zip_cons_cons]
      intro pair isPair
      dsimp only
      rcases List.mem_cons.mp isPair with rfl | isOld
      · dsimp only
        refine ⟨Nat.le_refl _, by omega, ?_⟩
        rw [Nat.add_sub_cancel_left]
        apply Buffer.Holds.append
        · exact Buffer.holds_splice.splice_apart (.inl (Nat.le_refl _))
        · exact Buffer.holds_splice
      · obtain ⟨above, inside, string⟩ := holds.strings pair isOld
        refine ⟨by omega, inside, ?_⟩
        apply Buffer.Holds.splice_apart _ (.inr _)
        · exact string.splice_apart (.inr (by omega))
        · rw [List.length_singleton]
          omega
    · rw [List.zip_cons_cons, List.pairwise_cons]
      refine ⟨fun pair isPair => ?_, holds.ordered⟩
      have above := (holds.strings pair isPair).1
      dsimp only
      omega

/-! ## The table of pointers -/

/-- The words are in the buffer one after another, and nothing else has changed. -/
theorem writeStackWords_spec {words : List Nat}
    (ran : writeStackWords words low buffer = .ok written) :
    (∀ place word, words[place]? = some word →
      written.Holds (low + 8 * place) (leBytes word 8)) ∧
    ∀ index, index < low ∨ low + 8 * words.length ≤ index → written index = buffer index := by
  induction words generalizing low buffer with
  | nil =>
    cases ran
    exact ⟨by simp, fun _ _ => rfl⟩
  | cons first rest ih =>
    rw [writeStackWords] at ran
    split_ifs at ran
    obtain ⟨later, elsewhere⟩ := ih ran
    refine ⟨fun place word isWord => ?_, fun index outside => ?_⟩
    · cases place with
      | zero =>
        cases isWord
        intro index inside
        rw [length_leBytes] at inside
        rw [elsewhere _ (.inl (by omega))]
        exact Buffer.splice_inside (by rwa [length_leBytes])
      | succ place =>
        have shifted := later place word isWord
        rwa [show low + 8 * (place + 1) = low + 8 + 8 * place by omega]
    · rw [List.length_cons] at outside
      rw [elsewhere index (by omega)]
      exact Buffer.splice_outside (by rw [length_leBytes]; omega)

/-! ## The block -/

/-- The block as it stands in memory. -/
def UserInitialStack.memory (stack : UserInitialStack) : Buffer := fun address =>
  stack.bytes.getD (address - stack.stackPointer) 0

/-- The block ends at the top of the stack; read at its addresses it is the number of
strings, the pointers to them, an end, no environment and no auxiliary values, and the
strings are above, one after another. -/
structure UserInitialStack.WellFormed (layout : UserMemoryLayout) (argv : List (List UInt8))
    (stack : UserInitialStack) : Prop where
  aligned : stack.stackPointer % 16 = 0
  ends : stack.stackPointer + stack.len = layout.stackTop.toNat
  small : stack.len ≤ userInitialStackMaxSize
  complete : stack.bytes.length = stack.len
  block : ∃ pointers : List Nat, pointers.length = argv.length ∧
    (∀ place word, (argv.length :: pointers ++ [0, 0, 0, 0])[place]? = some word →
      stack.memory.number (stack.stackPointer + 8 * place) 8 = word) ∧
    (∀ pair ∈ argv.zip pointers,
      stack.stackPointer + 8 * (argv.length + 5) ≤ pair.2 ∧
        pair.2 + pair.1.length + 1 ≤ stack.stackPointer + stack.len ∧
        stack.memory.Holds pair.2 (pair.1 ++ [0])) ∧
    (argv.zip pointers).Pairwise fun first second => first.2 + first.1.length + 1 ≤ second.2

theorem UserInitialStack.memory_eq {buffer : Buffer}
    (start : wordsStart ≤ offset)
    (inside : offset < userInitialStackMaxSize) :
    UserInitialStack.memory
      ⟨stackBase + wordsStart,
        (List.range (userInitialStackMaxSize - wordsStart)).map
          fun index => buffer (wordsStart + index),
        userInitialStackMaxSize - wordsStart⟩ (stackBase + offset) = buffer offset := by
  rw [memory, List.getD_eq_getElem _ _ (by simp; omega)]
  simp only [List.getElem_map, List.getElem_range]
  congr 1
  omega

/-- A word of the table. -/
theorem word_lt_of_getElem?
    {pointers : List Nat} {place : Nat}
    (few : argc < 2 ^ 64)
    (fit : ∀ pointer ∈ pointers, pointer < 2 ^ 64)
    (isWord : (argc :: pointers ++ [0, 0, 0, 0])[place]? = some word) :
    word < 256 ^ 8 := by
  have bound : (256 : Nat) ^ 8 = 2 ^ 64 := by decide
  have listed := List.mem_of_getElem? isWord
  simp only [List.cons_append, List.mem_cons, List.mem_append, List.not_mem_nil, or_false] at listed
  rw [bound]
  rcases listed with rfl | isPointer | rfl | rfl | rfl | rfl
  · exact few
  · exact fit word isPointer
  all_goals decide

theorem writeTable_wellFormed
    (holds : packed.Holds stackBase items)
    (top : stackBase + userInitialStackMaxSize = layout.stackTop.toNat)
    (aligned : (stackBase + wordsStart) % 16 = 0)
    (space : wordsStart + 8 * (packed.pointers.length + 5) ≤ packed.low)
    (ran : writeTable stackBase packed wordsStart = .ok stack) :
    stack.WellFormed layout items := by
  have size : userInitialStackMaxSize = 512 := rfl
  have topFits := layout.stackTop.toNat_lt
  have bound := holds.low_le
  rw [writeTable] at ran
  dsimp only at ran
  split at ran
  · cases ran
  next buffer isBuffer =>
  cases ran
  obtain ⟨table, elsewhere⟩ := writeStackWords_spec isBuffer
  have count : (packed.pointers.length :: packed.pointers ++ [0, 0, 0, 0]).length =
      packed.pointers.length + 5 := by simp
  rw [count] at elsewhere
  have pointersFit : ∀ pointer ∈ packed.pointers, pointer < 2 ^ 64 := by
    intro pointer isPointer
    rw [← List.map_snd_zip (Nat.le_of_eq holds.length)] at isPointer
    obtain ⟨pair, isPair, rfl⟩ := List.mem_map.mp isPointer
    have below := (holds.strings pair isPair).2.1
    omega
  refine ⟨aligned, by dsimp only; omega, Nat.sub_le _ _, by simp, packed.pointers, holds.length,
    ?_, ?_, holds.ordered⟩
  · intro place word isWord
    rw [← holds.length] at isWord
    apply Buffer.Holds.number_eq _ (word_lt_of_getElem? (by omega) pointersFit isWord)
    intro index inside
    have inTable : place < packed.pointers.length + 5 :=
      count ▸ (List.getElem?_eq_some_iff.mp isWord).1
    rw [length_leBytes] at inside
    rw [← table place word isWord index (by rwa [length_leBytes])]
    show UserInitialStack.memory _ (stackBase + wordsStart + 8 * place + index) = _
    rw [show stackBase + wordsStart + 8 * place + index =
      stackBase + (wordsStart + 8 * place + index) by omega]
    exact UserInitialStack.memory_eq (by omega) (by omega)
  · intro pair isPair
    obtain ⟨above, below, string⟩ := holds.strings pair isPair
    refine ⟨?_, ?_, ?_⟩
    · rw [← holds.length]
      dsimp only
      omega
    · dsimp only
      omega
    · intro index inside
      rw [List.length_append, List.length_singleton] at inside
      rw [← string index (by rwa [List.length_append, List.length_singleton]),
        ← elsewhere _ (.inr (by omega)),
        show pair.2 + index = stackBase + (pair.2 - stackBase + index) by omega]
      exact UserInitialStack.memory_eq (by omega) (by omega)

theorem placeTable_wellFormed
    (holds : packed.Holds stackBase items)
    (base : stackBase % 16 = 0)
    (top : stackBase + userInitialStackMaxSize = layout.stackTop.toNat)
    (ran : placeTable stackBase packed = .ok stack) :
    stack.WellFormed layout items := by
  rw [placeTable] at ran
  dsimp only at ran
  split_ifs at ran with tooMany aligned tooLow
  · exact writeTable_wellFormed holds top aligned (by omega) ran
  · exact writeTable_wellFormed holds top (by omega) (by omega) ran

/-- The initial stack of a program is well formed, and its strings are the path and the
first seven words that the userland iterator yields on the same argument. -/
theorem initial_stack_wellFormed
    (nonempty : path ≠ [])
    (built : buildUserInitialStack (memoryLayoutForPidWithProgramSize pid size) path arg =
      .ok stack) :
    stack.WellFormed (memoryLayoutForPidWithProgramSize pid size)
      (path :: (Argv.new arg).yields 7) := by
  obtain ⟨slot, -, isTop, -⟩ := memoryLayout_spec pid size
  have top := (stackRangeForSlot_toNat slot).2
  rw [← isTop] at top
  have words : collectArgs arg arg.length 0 [path] = path :: (Argv.new arg).yields 7 :=
    collectArgs_eq (Nat.le_refl _) (Nat.le_add_left 1 7)
  rw [buildUserInitialStack] at built
  dsimp only at built
  split_ifs at built with small
  split at built
  · cases built
  next packed isPacked =>
  rw [words] at isPacked
  have limit : userInitialStackMaxSize = 512 := rfl
  exact placeTable_wellFormed (packStrings_holds isPacked) (by omega) (by omega) built

/-- A program started with two words. -/
theorem initial_stack_wellFormed_twoWords :
    ∃ stack, buildUserInitialStack (memoryLayoutForPidWithProgramSize 3 4096)
        [0x2f, 0x6c, 0x73] [0x20, 0x2d, 0x6c, 0x09, 0x2f] = .ok stack ∧
      stack.WellFormed (memoryLayoutForPidWithProgramSize 3 4096)
        ([0x2f, 0x6c, 0x73] :: (Argv.new [0x20, 0x2d, 0x6c, 0x09, 0x2f]).yields 7) ∧
      (Argv.new [0x20, 0x2d, 0x6c, 0x09, 0x2f]).yields 7 = [[0x2d, 0x6c], [0x2f]] := by
  have built : (buildUserInitialStack (memoryLayoutForPidWithProgramSize 3 4096)
      [0x2f, 0x6c, 0x73] [0x20, 0x2d, 0x6c, 0x09, 0x2f]).isOk := by
    decide +kernel
  cases isStack : buildUserInitialStack (memoryLayoutForPidWithProgramSize 3 4096)
      [0x2f, 0x6c, 0x73] [0x20, 0x2d, 0x6c, 0x09, 0x2f] with
  | error error =>
    rw [isStack] at built
    cases built
  | ok stack =>
    exact ⟨stack, rfl, initial_stack_wellFormed (by decide) isStack, by decide +kernel⟩

end Vantara
