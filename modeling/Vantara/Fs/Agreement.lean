import Vantara.Fs.TwinMoves

/-!
# The two filesystems agree

The same operations on corresponding paths, on a new store and on a formatted volume:
as long as no path begins with a slash and the store has inodes left, every
operation has the same outcome on both sides, and they keep matching.
-/

namespace Vantara
namespace Fs

open Foundation Ramfs Vantfs

/-- An operation on both filesystems, by relative paths.  Reads and writes go through the
inode that the path has at that time. -/
inductive Call
  | create (path : List Char)
  | mkdir (path : List Char)
  | unlink (path : List Char)
  | rmdir (path : List Char)
  | rename (oldPath newPath : List Char)
  | stat (path : List Char)
  | list (path : List Char) (capacity : Nat)
  | read (path : List Char) (offset capacity : Nat)
  | write (path : List Char) (offset : Nat) (source : List UInt8)

/-- What can be seen of an operation, apart from inodes and error codes. -/
inductive Outcome
  | failed
  | stuck
  | changed
  | status (fileType : FileType) (size : Nat)
  | lines (buffer : List UInt8)
  | bytes (buffer : List UInt8)
  | count (number : Nat)
  deriving DecidableEq, Repr

/-- The store and the outcome after a change. -/
def settleRam (store : WritableStore) (outcome : Nat → Outcome) :
    Except FsError (Nat × WritableStore) → WritableStore × Outcome
  | .error _ => (store, .failed)
  | .ok (number, after) => (after, outcome number)

/-- One operation on the RAM filesystem. -/
def ramStep (userland : Userland) (store : WritableStore) : Call → WritableStore × Outcome
  | .create path =>
    settleRam store (fun _ => .status .file 0) (store.create (ramPath path) .file)
  | .mkdir path =>
    settleRam store (fun _ => .status .directory 0) (store.create (ramPath path) .directory)
  | .unlink path => settleRam store (fun _ => .changed) (store.remove (ramPath path) .file)
  | .rmdir path => settleRam store (fun _ => .changed) (store.remove (ramPath path) .directory)
  | .rename oldPath newPath =>
    match store.rename (ramPath oldPath) (ramPath newPath) with
    | none => (store, .stuck)
    | some answer => settleRam store (fun _ => .changed) answer
  | .stat path =>
    match store.stat userland (ramPath path) with
    | .error _ => (store, .failed)
    | .ok stat => (store, .status stat.fileType stat.size)
  | .list path capacity =>
    match store.list userland (ramPath path) capacity with
    | .error _ => (store, .failed)
    | .ok buffer => (store, .lines buffer)
  | .read path offset capacity =>
    match store.stat userland (ramPath path) with
    | .error _ => (store, .failed)
    | .ok stat =>
      match store.read userland stat.inode offset capacity with
      | none => (store, .stuck)
      | some (.error _) => (store, .failed)
      | some (.ok buffer) => (store, .bytes buffer)
  | .write path offset source =>
    match store.stat userland (ramPath path) with
    | .error _ => (store, .failed)
    | .ok stat => settleRam store .count (store.write stat.inode offset source)

/-- The blocks and the outcome after a computation. -/
def settleVolume (outcome : α → Outcome) : EStateM.Result FsError Disk α → Blocks × Outcome
  | .error _ disk => (disk.blocks, .failed)
  | .ok value disk => (disk.blocks, outcome value)

/-- One operation on the persistent filesystem, without a failing access. -/
def volumeStep (blocks : Blocks) : Call → Blocks × Outcome
  | .create path =>
    settleVolume (fun stat => .status stat.fileType stat.size)
      (createNode (volumePath path) .file blocks.disk)
  | .mkdir path =>
    settleVolume (fun stat => .status stat.fileType stat.size)
      (createNode (volumePath path) .directory blocks.disk)
  | .unlink path =>
    settleVolume (fun _ => .changed) (removeNode (volumePath path) .file blocks.disk)
  | .rmdir path =>
    settleVolume (fun _ => .changed) (removeNode (volumePath path) .directory blocks.disk)
  | .rename oldPath newPath =>
    settleVolume (fun inode => if inode = none then .stuck else .changed)
      (Vantfs.rename (volumePath oldPath) (volumePath newPath) blocks.disk)
  | .stat path =>
    settleVolume (fun stat => .status stat.fileType stat.size)
      (Vantfs.stat (volumePath path) blocks.disk)
  | .list path capacity =>
    settleVolume .lines (Vantfs.list (volumePath path) capacity blocks.disk)
  | .read path offset capacity =>
    match answer (Vantfs.stat (volumePath path) blocks.disk) with
    | none => (blocks, .failed)
    | some stat =>
      settleVolume .bytes (Vantfs.read stat.inode offset capacity blocks.disk)
  | .write path offset source =>
    match answer (Vantfs.stat (volumePath path) blocks.disk) with
    | none => (blocks, .failed)
    | some stat =>
      settleVolume .count (Vantfs.write stat.inode offset source blocks.disk)

/-- The lines of some names. -/
def render (names : List (List UInt8)) : List UInt8 :=
  names.flatMap (· ++ [10])

/-- Outcomes are the same, listings up to the order of their lines. -/
inductive Agrees : Outcome → Outcome → Prop
  | same : Agrees outcome outcome
  | lines : left.Perm right → Agrees (.lines (render left)) (.lines (render right))

/-- The paths do not begin with a slash, and offsets are at most 1024. -/
def Call.isPlain : Call → Bool
  | .create path | .mkdir path | .unlink path | .rmdir path | .stat path | .list path _ =>
    path.head? ≠ some '/'
  | .rename oldPath newPath => oldPath.head? ≠ some '/' ∧ newPath.head? ≠ some '/'
  | .read path offset _ | .write path offset _ => path.head? ≠ some '/' ∧ offset ≤ maxFileSize

/-! ## Listings -/

theorem appendLines_eq {capacity : Nat} {written : List UInt8} (names : List (List UInt8)) :
    names.foldlM (appendLine capacity) written =
      if names = [] ∨ (written ++ render names).length ≤ capacity ∧
          (written ++ render names).length < 2 ^ 64 then
        .ok (written ++ render names)
      else .error .bufferTooSmall := by
  induction names generalizing written with
  | nil => simp [render]; rfl
  | cons name rest ih =>
    have rendered : render (name :: rest) = name ++ [10] ++ render rest := rfl
    have length : (written ++ render (name :: rest)).length =
        written.length + (name.length + 1) + (render rest).length := by
      rw [rendered]
      simp only [List.length_append, List.length_singleton]
      omega
    have step : (name :: rest).foldlM (appendLine capacity) written =
        match appendLine capacity written name with
        | .error error => .error error
        | .ok next => rest.foldlM (appendLine capacity) next := by
      rw [List.foldlM_cons]
      cases appendLine capacity written name <;> rfl
    rw [step, appendLine, length]
    by_cases tooLong : written.length + (name.length + 1) ≥ 2 ^ 64
    · rw [if_pos tooLong, if_neg (by simp only [reduceCtorEq, false_or]; omega)]
    rw [if_neg tooLong]
    by_cases noRoom : written.length + (name.length + 1) > capacity
    · rw [if_pos noRoom, if_neg (by simp only [reduceCtorEq, false_or]; omega)]
    rw [if_neg noRoom]
    dsimp only
    rw [ih]
    have tail : (written ++ name ++ [10] ++ render rest).length =
        written.length + (name.length + 1) + (render rest).length := by
      simp only [List.length_append, List.length_singleton]
      omega
    rw [tail, rendered, ← List.append_assoc, ← List.append_assoc]
    refine if_congr ?_ rfl rfl
    by_cases isLast : rest = []
    · subst isLast
      simp only [render, List.flatMap_nil, List.length_nil]
      omega
    · simp [isLast]

theorem render_length_perm (perm : left.Perm right) :
    (render left).length = (render right).length :=
  (perm.flatMap_right _).length_eq

/-- Listings of the same names agree. -/
theorem appendLines_agrees {left right : List (List UInt8)} (perm : left.Perm right) :
    (∃ error, left.foldlM (appendLine capacity) [] = .error error ∧
      right.foldlM (appendLine capacity) [] = .error error) ∨
    (left.foldlM (appendLine capacity) [] = .ok (render left) ∧
      right.foldlM (appendLine capacity) [] = .ok (render right)) := by
  rw [appendLines_eq, appendLines_eq]
  simp only [List.nil_append]
  have emptyIff : left = [] ↔ right = [] := by
    rw [← List.length_eq_zero_iff, ← List.length_eq_zero_iff, perm.length_eq]
  rw [render_length_perm perm]
  simp only [emptyIff]
  split_ifs
  · exact .inr ⟨rfl, rfl⟩
  · exact .inl ⟨_, rfl, rfl⟩

/-! ## Status and listings -/

/-- Without a failing access, the status is what the directory says. -/
theorem stat_clean (volume : IsVolume blocks table) :
    ∃ disk, disk.blocks = blocks ∧ Vantfs.stat path blocks.disk =
      match planStat table path with
      | .error error => .error error disk
      | .ok stat => .ok stat disk := by
  obtain ⟨disk, -, kept, continues⟩ := volume.1.opened
  refine ⟨disk, kept.blocks, (continues _).trans ?_⟩
  cases planStat table path <;> rfl

theorem list_clean (volume : IsVolume blocks table) :
    ∃ disk, disk.blocks = blocks ∧ Vantfs.list path capacity blocks.disk =
      match planList table path capacity with
      | .error error => .error error disk
      | .ok lines => .ok lines disk := by
  obtain ⟨disk, -, kept, continues⟩ := volume.1.opened
  refine ⟨disk, kept.blocks, (continues _).trans ?_⟩
  cases planList table path capacity <;> rfl

namespace Matches

variable {twin : Nat → DirectoryEntry} {store : WritableStore} {blocks : Blocks} {table : Table}
  (matched : Matches twin store blocks table)

include matched

theorem twin_of_find (found : store.findInode inode = some node) :
    node.inode = inode ∧ node ∈ store.nodes ∧
      Twin (linkOf twin) blocks node (twin node.inode) := by
  obtain ⟨listed, isKey⟩ := Placement.mem_of_find found
  exact ⟨isKey, listed, matched.twins node listed⟩

/-- The entries of a directory are the twins of its nodes. -/
theorem children_perm (known : Known store parent) :
    (table.entries.filter (·.parent = linkOf twin parent)).Perm
      ((store.nodes.filter (·.parent = parent)).map fun node => twin node.inode) := by
  refine (matched.perm.filter _).trans ?_
  rw [List.filter_map]
  refine .of_eq (congrArg _ (List.filter_congr fun node listed => ?_))
  have isTwin := matched.twins node listed
  show decide ((twin node.inode).parent = _) = decide _
  rw [isTwin.parent]
  refine decide_eq_decide.mpr ⟨?_, congrArg _⟩
  exact matched.link_injective (matched.known_parent listed) known

theorem children_length (known : Known store parent) :
    (table.entries.filter (·.parent = linkOf twin parent)).length =
      (store.nodes.filter (·.parent = parent)).length := by
  rw [(matched.children_perm known).length_eq, List.length_map]

omit matched in
theorem ramPath_ne (relative : List Char) :
    ramPath relative ≠ "/".toList ∧ ramPath relative ≠ "/bin".toList ∧
      (ramPath relative).take 2 = "/t".toList := by
  rw [ramPath]
  split_ifs
  · decide
  · have isPrefix : tmpPrefix ++ relative = '/' :: 't' :: 'm' :: 'p' :: '/' :: relative := rfl
    rw [isPrefix]
    exact ⟨by simp, by simp, by simp⟩

/-- The status of corresponding paths is the same, and their inodes correspond. -/
theorem stat_agrees (userland : Userland) (relative : List Char) :
    (∃ left right, store.stat userland (ramPath relative) = .error left ∧
      planStat table (volumePath relative) = .error right) ∨
    ∃ left right, store.stat userland (ramPath relative) = .ok left ∧
      planStat table (volumePath relative) = .ok right ∧ left.fileType = right.fileType ∧
      left.size = right.size ∧ Known store left.inode ∧
      right.inode = linkOf twin left.inode := by
  obtain ⟨notRoot, notBin, isTmp⟩ := ramPath_ne relative
  obtain ⟨resolved, known⟩ := matched.resolve_agrees relative
  rw [WritableStore.stat, if_neg notRoot, if_neg notBin, planStat]
  by_cases isRoot : relative = []
  · subst isRoot
    refine .inr ⟨_, _, if_pos rfl, if_pos rfl, rfl, ?_, .inl rfl, link_tmp.symm⟩
    have same := @children_length _ _ _ _ matched tmpInode (.inl rfl)
    rw [link_tmp] at same
    exact same.symm
  have notTmp : ramPath relative ≠ tmpPath := by
    rw [ramPath, if_neg isRoot]
    simp [tmpPrefix, tmpPath]
  rw [if_neg notTmp, if_neg (show volumePath relative ≠ ['/'] by simpa [volumePath] using isRoot),
    Userland.findStatic_eq_none isTmp, resolved]
  cases reached : store.resolvePath (ramPath relative) with
  | none => exact .inl ⟨_, _, rfl, rfl⟩
  | some inode =>
    have isKnown := known inode reached
    dsimp only [Option.map_some]
    rw [matched.find_agrees isKnown]
    cases found : store.findInode inode with
    | none => exact .inl ⟨_, _, rfl, rfl⟩
    | some node =>
      obtain ⟨rfl, listed, isTwin⟩ := matched.twin_of_find found
      have same := matched.children_length isKnown
      rw [matched.link_eq listed] at same
      dsimp only [Option.map_some]
      refine .inr ⟨_, if (twin node.inode).fileType = .directory then
          { (twin node.inode).stat with
            size := (table.entries.filter (·.parent = (twin node.inode).inode)).length }
        else (twin node.inode).stat, rfl, ?_, ?_⟩
      · split_ifs <;> rfl
      · rw [isTwin.fileType]
        refine ⟨?_, ?_, isKnown, ?_⟩
        · split_ifs
          · exact isTwin.fileType.symm
          · exact isTwin.fileType.symm
        · dsimp only
          split_ifs
          · exact same.symm
          · exact isTwin.len.symm
        · rw [matched.link_eq listed]
          split_ifs <;> rfl

theorem list_agrees (userland : Userland) (relative : List Char) :
    (∃ left right, store.list userland (ramPath relative) capacity = .error left ∧
      planList table (volumePath relative) capacity = .error right) ∨
    ∃ left right : List (List UInt8), left.Perm right ∧
      store.list userland (ramPath relative) capacity = .ok (render left) ∧
      planList table (volumePath relative) capacity = .ok (render right) := by
  obtain ⟨notRoot, notBin, -⟩ := ramPath_ne relative
  obtain ⟨resolved, known⟩ := matched.resolve_agrees relative
  rw [WritableStore.list, if_neg notRoot, if_neg notBin, planList, resolved]
  cases reached : store.resolvePath (ramPath relative) with
  | none => exact .inl ⟨_, _, rfl, rfl⟩
  | some inode =>
    have isKnown := known inode reached
    dsimp only [Option.map_some]
    by_cases notDirectory : inode ≠ tmpInode ∧
        isNoneOrNotDirectory Ramfs.place (store.findInode inode) = true
    · rw [if_pos notDirectory, if_pos ((matched.isDirectory_agrees isKnown).mpr notDirectory)]
      exact .inl ⟨_, _, rfl, rfl⟩
    rw [if_neg notDirectory, if_neg (mt (matched.isDirectory_agrees isKnown).mp notDirectory)]
    have names : ((store.nodes.filter (·.parent = inode)).map (·.text)).Perm
        ((table.entries.filter (·.parent = linkOf twin inode)).map (·.text)) := by
      refine .trans (.of_eq ?_) ((matched.children_perm isKnown).map _).symm
      rw [List.map_map]
      refine List.map_congr_left fun node isChild => ?_
      exact (matched.twins node (List.mem_filter.mp isChild).1).text.symm
    have folded : (table.entries.filter (·.parent = linkOf twin inode)).foldlM
        (fun written entry => appendLine capacity written entry.text) [] =
          ((table.entries.filter (·.parent = linkOf twin inode)).map (·.text)).foldlM
            (appendLine capacity) [] := by
      rw [List.foldlM_map]
    rw [WritableStore.appendLines, folded]
    rcases @appendLines_agrees capacity _ _ names with ⟨error, left, right⟩ | ⟨left, right⟩
    · exact .inl ⟨_, _, left, right⟩
    · exact .inr ⟨_, _, names, left, right⟩

/-- The volume is full exactly if the store is. -/
theorem full_iff : table.findIdx? Option.isNone = none ↔ store.nodes.length = maxWritableNodes := by
  have sameLength : table.entries.length = store.nodes.length := by
    rw [matched.perm.length_eq, List.length_map]
  have isFull : store.nodes.length = maxWritableNodes ↔ table.entries.length = table.length := by
    rw [sameLength, matched.volume.2.length]
    rfl
  rw [isFull, Table.entries, List.filterMap_length_eq_length, List.findIdx?_eq_none_iff]
  refine forall₂_congr fun entry _ => ?_
  cases entry <;> simp

/-- A node is created on both sides, or on none. -/
theorem create_agrees (plain : relative.head? ≠ some '/') (room : store.nextInode + 1 < 2 ^ 64) :
    (∃ left right, store.create (ramPath relative) fileType = .error left ∧
      effectOf table (.createNode (volumePath relative) fileType) = some (.error right)) ∨
    ∃ parent name slot, Known store parent ∧ Named name ∧ table[slot]? = some none ∧
      store.create (ramPath relative) fileType = .ok (store.nextInode,
        ⟨store.nodes ++ [.new store.nextInode parent name fileType], store.nextInode + 1⟩) ∧
      effectOf table (.createNode (volumePath relative) fileType) =
        some (.ok (slot, some (.new slot (linkOf twin parent) name fileType))) := by
  rw [WritableStore.create, effectOf]
  rcases splitParentName_agrees plain with ⟨left, right, isLeft, isRight⟩ |
    ⟨directory, name, isLeft, isRight⟩
  · rw [isLeft, isRight]
    exact .inl ⟨_, _, rfl, rfl⟩
  have named := Ramfs.splitParentName_ok isLeft
  rw [isLeft, isRight]
  obtain ⟨resolved, known⟩ := matched.resolve_agrees directory
  dsimp only
  rw [planCreate, resolved]
  cases reached : store.resolvePath (ramPath directory) with
  | none => exact .inl ⟨_, _, rfl, rfl⟩
  | some parent =>
    have isKnown := known parent reached
    dsimp only [Option.map_some]
    by_cases notDirectory : parent ≠ tmpInode ∧
        isNoneOrNotDirectory Ramfs.place (store.findInode parent) = true
    · rw [if_pos notDirectory, if_pos ((matched.isDirectory_agrees isKnown).mpr notDirectory)]
      exact .inl ⟨_, _, rfl, rfl⟩
    rw [if_neg notDirectory, if_neg (mt (matched.isDirectory_agrees isKnown).mp notDirectory),
      matched.child_agrees isKnown, Option.isSome_map]
    by_cases exists_ : (store.child parent name).isSome = true
    · rw [if_pos exists_, if_pos exists_]
      exact .inl ⟨_, _, rfl, rfl⟩
    rw [if_neg exists_, if_neg exists_]
    cases isFree : table.findIdx? Option.isNone with
    | none =>
      rw [if_pos (matched.full_iff.mp isFree)]
      exact .inl ⟨_, _, rfl, rfl⟩
    | some slot =>
      have notFull : store.nodes.length ≠ maxWritableNodes := fun isFull => by
        rw [matched.full_iff.mpr isFull] at isFree
        cases isFree
      rw [if_neg notFull, if_neg (Nat.not_le.mpr room)]
      obtain ⟨inside, isNone, -⟩ := List.findIdx?_eq_some_iff_getElem.mp isFree
      refine .inr ⟨parent, name, slot, isKnown, named, ?_, rfl, rfl⟩
      rw [List.getElem?_eq_getElem inside, Option.isNone_iff_eq_none.mp isNone]

/-- A node is removed on both sides, or on none. -/
theorem remove_agrees (relative : List Char) :
    (∃ left right, store.remove (ramPath relative) expected = .error left ∧
      effectOf table (.removeNode (volumePath relative) expected) = some (.error right)) ∨
    ∃ node, store.findInode node.inode = some node ∧
      store.remove (ramPath relative) expected = .ok (node.inode,
        { store with nodes := Ramfs.place.erase store.nodes node.inode }) ∧
      effectOf table (.removeNode (volumePath relative) expected) =
        some (.ok ((twin node.inode).slot, none)) := by
  obtain ⟨resolved, known⟩ := matched.resolve_agrees relative
  rw [WritableStore.remove, effectOf, planRemove, resolved]
  cases reached : store.resolvePath (ramPath relative) with
  | none => exact .inl ⟨_, _, rfl, rfl⟩
  | some inode =>
    have isKnown := known inode reached
    dsimp only [Option.map_some]
    simp only [matched.link_eq_root_iff isKnown]
    by_cases isRoot : inode = tmpInode
    · rw [if_pos isRoot, if_pos isRoot]
      exact .inl ⟨_, _, rfl, rfl⟩
    rw [if_neg isRoot, if_neg isRoot, matched.find_agrees isKnown]
    cases found : store.findInode inode with
    | none => exact .inl ⟨_, _, rfl, rfl⟩
    | some node =>
      obtain ⟨rfl, listed, isTwin⟩ := matched.twin_of_find found
      dsimp only [Option.map_some]
      rw [isTwin.fileType]
      by_cases other : node.fileType ≠ expected
      · rw [if_pos other, if_pos other]
        split_ifs <;> exact .inl ⟨_, _, rfl, rfl⟩
      rw [if_neg other, if_neg other]
      have sameEmpty : table.entries.any (·.parent = linkOf twin node.inode) =
          store.nodes.any (·.parent = node.inode) := by
        have length := matched.children_length isKnown
        rw [← List.countP_eq_length_filter, ← List.countP_eq_length_filter] at length
        refine Bool.eq_iff_iff.mpr ?_
        rw [List.any_eq_true, List.any_eq_true, ← List.countP_pos_iff, ← List.countP_pos_iff,
          length]
      rw [sameEmpty]
      by_cases notEmpty : expected = .directory ∧
          store.nodes.any (·.parent = node.inode) = true
      · rw [if_pos notEmpty, if_pos notEmpty]
        exact .inl ⟨_, _, rfl, rfl⟩
      rw [if_neg notEmpty, if_neg notEmpty]
      exact .inr ⟨node, found, rfl, rfl⟩

/-- A node is renamed on both sides, or on none. -/
theorem rename_agrees (oldPath : List Char) (plain : newPath.head? ≠ some '/') :
    (∃ left right, store.rename (ramPath oldPath) (ramPath newPath) = some (.error left) ∧
      effectOf table (.rename (volumePath oldPath) (volumePath newPath)) =
        some (.error right)) ∨
    ∃ node newParent newName, store.findInode node.inode = some node ∧
      Known store newParent ∧ Named newName ∧
      store.rename (ramPath oldPath) (ramPath newPath) = some (.ok (node.inode,
        { store with
          nodes := Ramfs.place.change node.inode (·.moveTo newParent newName) store.nodes })) ∧
      effectOf table (.rename (volumePath oldPath) (volumePath newPath)) =
        some (.ok ((twin node.inode).slot,
          some ((twin node.inode).moveTo (linkOf twin newParent) newName))) := by
  obtain ⟨resolved, known⟩ := matched.resolve_agrees oldPath
  rw [WritableStore.rename, effectOf, planRename, resolved]
  cases reached : store.resolvePath (ramPath oldPath) with
  | none => exact .inl ⟨_, _, rfl, rfl⟩
  | some inode =>
    have isKnown := known inode reached
    dsimp only [Option.map_some]
    simp only [matched.link_eq_root_iff isKnown]
    by_cases isRoot : inode = tmpInode
    · rw [if_pos isRoot, if_pos isRoot]
      exact .inl ⟨_, _, rfl, rfl⟩
    rw [if_neg isRoot, if_neg isRoot]
    rcases splitParentName_agrees plain with ⟨left, right, isLeft, isRight⟩ |
      ⟨directory, newName, isLeft, isRight⟩
    · rw [isLeft, isRight]
      exact .inl ⟨_, _, rfl, rfl⟩
    have named := Ramfs.splitParentName_ok isLeft
    rw [isLeft, isRight]
    obtain ⟨newResolved, newKnown⟩ := matched.resolve_agrees directory
    dsimp only
    rw [newResolved]
    cases newReached : store.resolvePath (ramPath directory) with
    | none => exact .inl ⟨_, _, rfl, rfl⟩
    | some newParent =>
      have parentKnown := newKnown newParent newReached
      dsimp only [Option.map_some]
      by_cases notDirectory : newParent ≠ tmpInode ∧
          isNoneOrNotDirectory Ramfs.place (store.findInode newParent) = true
      · rw [if_pos notDirectory,
          if_pos ((matched.isDirectory_agrees parentKnown).mpr notDirectory)]
        exact .inl ⟨_, _, rfl, rfl⟩
      rw [if_neg notDirectory,
        if_neg (mt (matched.isDirectory_agrees parentKnown).mp notDirectory),
        matched.child_agrees parentKnown, Option.isSome_map]
      by_cases exists_ : (store.child newParent newName).isSome = true
      · rw [if_pos exists_, if_pos exists_]
        exact .inl ⟨_, _, rfl, rfl⟩
      rw [if_neg exists_, if_neg exists_, matched.isDescendant_agrees parentKnown isKnown]
      obtain ⟨descends, ends⟩ := matched.formed.isDescendant_total newParent inode
      rw [ends]
      cases descends with
      | true => exact .inl ⟨_, _, rfl, rfl⟩
      | false =>
        dsimp only
        rw [matched.find_agrees isKnown]
        cases found : store.findInode inode with
        | none => exact .inl ⟨_, _, rfl, rfl⟩
        | some node =>
          obtain ⟨rfl, -⟩ := matched.twin_of_find found
          exact .inr ⟨node, newParent, newName, found, parentKnown, named, rfl, rfl⟩

/-- Bytes are written on both sides, or on none. -/
theorem write_agrees (isKnown : Known store inode) :
    (∃ left right, store.write inode offset source = .error left ∧
      effectOf table (.write (linkOf twin inode) offset source) = some (.error right)) ∨
    ∃ node, store.findInode node.inode = some node ∧ node.inode = inode ∧
      node.fileType = .file ∧
      store.write inode offset source = .ok (source.length,
        { store with
          nodes := Ramfs.place.change node.inode (·.copyIn offset source) store.nodes }) ∧
      effectOf table (.write (linkOf twin inode) offset source) =
        some (.ok ((twin node.inode).slot,
          some ((twin node.inode).extend (offset + source.length)))) := by
  rw [WritableStore.write, effectOf, planAccess, matched.find_agrees isKnown]
  cases found : store.findInode inode with
  | none =>
    split_ifs <;> exact .inl ⟨_, _, rfl, rfl⟩
  | some node =>
    obtain ⟨rfl, listed, isTwin⟩ := matched.twin_of_find found
    dsimp only [Option.map_some]
    rw [isTwin.fileType]
    by_cases notFile : node.fileType ≠ .file
    · rw [if_pos notFile]
      split_ifs <;> exact .inl ⟨_, _, rfl, rfl⟩
    rw [if_neg notFile, if_neg notFile]
    by_cases overflow : offset + source.length ≥ 2 ^ 64
    · rw [if_pos overflow, if_pos (.inl overflow)]
      exact .inl ⟨_, _, rfl, rfl⟩
    rw [if_neg overflow]
    by_cases tooLarge : offset + source.length > maxFileSize
    · rw [if_pos tooLarge, if_pos (.inr tooLarge)]
      exact .inl ⟨_, _, rfl, rfl⟩
    rw [if_neg tooLarge, if_neg (not_or.mpr ⟨overflow, tooLarge⟩)]
    exact .inr ⟨node, found, rfl, not_not.mp notFile, rfl, rfl⟩

end Matches

/-! ## Steps and runs -/

section Settling

variable {α : Type} {program : DiskM α} {answers : α → Nat → Prop} {outcome : α → Outcome}
  (spec : Performs call blocks table True program answers)

include spec

/-- An operation that is refused changes nothing. -/
theorem settleVolume_refused (effect : effectOf table call = some (.error error)) :
    settleVolume outcome (program blocks.disk) = (blocks, .failed) := by
  cases ran : program blocks.disk with
  | ok value disk =>
    obtain ⟨slot, changed, -, after, done, -⟩ := spec.of_ok starts_kept ran
    have differ := effect.symm.trans done.effect
    cases differ
  | error error disk =>
    rw [settleVolume, ((spec.of_error starts_kept ran).refused trivial).2]

/-- An operation that is not refused is done. -/
theorem settleVolume_done (effect : effectOf table call = some (.ok (slot, changed))) :
    ∃ value after, settleVolume outcome (program blocks.disk) = (after, outcome value) ∧
      answers value slot ∧ Done call blocks table slot changed after := by
  cases ran : program blocks.disk with
  | ok value disk =>
    obtain ⟨target, entry, isAnswer, after, done, isKept⟩ := spec.of_ok starts_kept ran
    have same := effect.symm.trans done.effect
    cases same
    exact ⟨value, after, by rw [settleVolume, isKept.blocks], isAnswer, done⟩
  | error error disk =>
    have differ := effect.symm.trans ((spec.of_error starts_kept ran).refused trivial).1
    cases differ

end Settling

namespace Matches

variable {twin : Nat → DirectoryEntry} {store : WritableStore} {blocks : Blocks} {table : Table}
  (matched : Matches twin store blocks table)

/-- After a step on both sides they match again, the outcomes agree, and the store has
issued one inode at most. -/
def StepsTogether (store : WritableStore) (ram : WritableStore × Outcome)
    (volume : Blocks × Outcome) : Prop :=
  (∃ twin table, Matches twin ram.1 volume.1 table) ∧ Agrees ram.2 volume.2 ∧
    ram.1.nextInode ≤ store.nextInode + 1

include matched

theorem steps_same (agrees : Agrees left right) :
    StepsTogether store (store, left) (blocks, right) :=
  ⟨⟨twin, table, matched⟩, agrees, Nat.le_succ _⟩

theorem steps_create (plain : relative.head? ≠ some '/') (room : store.nextInode + 1 < 2 ^ 64) :
    StepsTogether store
      (settleRam store (fun _ => .status fileType 0) (store.create (ramPath relative) fileType))
      (settleVolume (fun stat => .status stat.fileType stat.size)
        (createNode (volumePath relative) fileType blocks.disk)) := by
  have spec := @createNode_spec _ _ True matched.volume.1 matched.volume.2 (volumePath relative)
    fileType
  rcases @create_agrees _ _ _ _ matched _ fileType plain room with
    ⟨left, right, isLeft, isRight⟩ | ⟨parent, name, slot, known, named, isFree, isLeft, isRight⟩
  · rw [isLeft, settleVolume_refused spec isRight]
    exact matched.steps_same .same
  · obtain ⟨stat, after, settled, ⟨-, isType, isSize⟩, done⟩ := settleVolume_done spec isRight
    have formed := matched.formed.create isLeft
    rw [isLeft, settled, isType, isSize]
    exact ⟨⟨_, _, matched.create formed known named isFree done⟩, .same, le_rfl⟩

theorem steps_remove :
    StepsTogether store
      (settleRam store (fun _ => .changed) (store.remove (ramPath relative) expected))
      (settleVolume (fun _ => .changed)
        (removeNode (volumePath relative) expected blocks.disk)) := by
  have spec := @removeNode_spec _ _ True matched.volume.1 matched.volume.2 (volumePath relative)
    expected
  rcases @remove_agrees _ _ _ _ matched expected relative with
    ⟨left, right, isLeft, isRight⟩ | ⟨node, found, isLeft, isRight⟩
  · rw [isLeft, settleVolume_refused spec isRight]
    exact matched.steps_same .same
  · obtain ⟨inode, after, settled, -, done⟩ := settleVolume_done spec isRight
    have formed := matched.formed.remove isLeft
    rw [isLeft, settled]
    exact ⟨⟨_, _, matched.remove formed found done⟩, .same, Nat.le_succ _⟩

theorem steps_rename (plain : newPath.head? ≠ some '/') :
    StepsTogether store
      (match store.rename (ramPath oldPath) (ramPath newPath) with
        | none => (store, .stuck)
        | some answer => settleRam store (fun _ => .changed) answer)
      (settleVolume (fun inode => if inode = none then .stuck else .changed)
        (Vantfs.rename (volumePath oldPath) (volumePath newPath) blocks.disk)) := by
  have spec := @rename_spec _ _ True matched.volume.1 matched.volume.2 (volumePath oldPath)
    (volumePath newPath)
  rcases matched.rename_agrees oldPath plain with ⟨left, right, isLeft, isRight⟩ |
    ⟨node, newParent, newName, found, known, named, isLeft, isRight⟩
  · rw [isLeft, settleVolume_refused spec isRight]
    exact matched.steps_same .same
  · obtain ⟨inode, after, settled, isInode, done⟩ := settleVolume_done spec isRight
    have formed := matched.formed.rename isLeft
    obtain ⟨-, listed, isTwin⟩ := matched.twin_of_find found
    have moved : Twin (linkOf twin) after (node.moveTo newParent newName)
        ((twin node.inode).moveTo (linkOf twin newParent) newName) := by
      refine ⟨rfl, ?_, isTwin.fileType, isTwin.len, fun isFile index inside => ?_⟩
      · rw [DirectoryEntry.text_of_name named rfl rfl, WritableNode.text_of_name named rfl rfl]
      · have slotInside := matched.volume.2.slot_lt (matched.twin_mem listed)
        exact (done.contents _ slotInside index inside).trans (isTwin.data isFile index inside)
    rw [isLeft, settled, isInode]
    exact ⟨⟨_, _, matched.change formed found (fun _ => rfl) (by rfl) (by rfl) done moved⟩,
      .same, Nat.le_succ _⟩

theorem steps_write (known : Known store inode) :
    StepsTogether store
      (settleRam store .count (store.write inode offset source))
      (settleVolume .count (Vantfs.write (linkOf twin inode) offset source blocks.disk)) := by
  have spec := (@Vantfs.write_spec _ _ True matched.volume.1 matched.volume.2 (linkOf twin inode)
    offset source)
  rcases @write_agrees _ _ _ _ matched inode offset source known with
    ⟨left, right, isLeft, isRight⟩ | ⟨node, found, rfl, isFile, isLeft, isRight⟩
  · rw [isLeft, settleVolume_refused spec isRight]
    exact matched.steps_same .same
  · obtain ⟨count, after, settled, isCount, done⟩ := settleVolume_done spec isRight
    have formed := matched.formed.write isLeft
    obtain ⟨-, listed, isTwin⟩ := matched.twin_of_find found
    have extended : Twin (linkOf twin) after (node.copyIn offset source)
        ((twin node.inode).extend (offset + source.length)) := by
      refine ⟨isTwin.parent, isTwin.text, isTwin.fileType, ?_, fun _ index inside => ?_⟩
      · exact congrArg (max · _) isTwin.len
      · show content after (twin node.inode).slot index = if _ then _ else _
        rw [done.contents index inside, isTwin.data isFile index inside]
    rw [isLeft, settled, isCount]
    exact ⟨⟨_, _, matched.change formed found (fun _ => rfl) (by rfl) (by rfl) done extended⟩,
      .same, Nat.le_succ _⟩

theorem steps_read (userland : Userland) (known : Known store inode)
    (inRange : offset ≤ maxFileSize) :
    StepsTogether store
      (match store.read userland inode offset capacity with
        | none => (store, .stuck)
        | some (.error _) => (store, .failed)
        | some (.ok buffer) => (store, .bytes buffer))
      (settleVolume .bytes (Vantfs.read (linkOf twin inode) offset capacity blocks.disk)) := by
  have isWritable : inode = tmpInode ∨ firstWritableInode ≤ inode := by
    rcases known with isTmp | ⟨node, listed, rfl⟩
    · exact .inl isTmp
    · exact .inr (matched.formed.issued node listed).1
  obtain ⟨disk, -, isKept, continues⟩ := matched.volume.1.opened
  rw [WritableStore.read, Userland.staticByInode_eq_none isWritable, Vantfs.read, continues,
    planAccess, matched.find_agrees known]
  have failed : StepsTogether store (store, .failed) (disk.blocks, .failed) := by
    rw [isKept.blocks]
    exact matched.steps_same .same
  cases found : store.findInode inode with
  | none => exact failed
  | some node =>
    obtain ⟨-, listed, isTwin⟩ := matched.twin_of_find found
    dsimp only [Option.map_some]
    rw [isTwin.fileType]
    by_cases notFile : node.fileType ≠ .file
    · rw [if_pos notFile, if_pos notFile]
      exact failed
    have isFile := not_not.mp notFile
    have sized := (matched.formed.proper node listed).sized
    have fits : offset + min (node.len - offset) capacity ≤ maxFileSize := by omega
    rw [if_neg notFile, if_neg notFile, if_pos fits]
    have slotInside := matched.volume.2.slot_lt (matched.twin_mem listed)
    have data := @readData_spec _ offset (min (node.len - offset) capacity) blocks True
      slotInside fits
    dsimp only
    rw [isTwin.len]
    cases readData : readData (twin node.inode).slot offset
        (min (node.len - offset) capacity) disk with
    | error error last => exact absurd trivial (data.of_error isKept readData).1
    | ok bytes last =>
      obtain ⟨rfl, lastKept⟩ := data.of_ok isKept readData
      rw [settleVolume, lastKept.blocks]
      have same : (List.range (min (node.len - offset) capacity)).map
          (fun index => content blocks (twin node.inode).slot (offset + index)) =
            (List.range (min (node.len - offset) capacity)).map
              fun index => node.data (offset + index) := by
        refine List.map_congr_left fun index isIndex => ?_
        have small := List.mem_range.mp isIndex
        exact isTwin.data isFile _ (by omega)
      rw [same]
      exact matched.steps_same .same

/-- Every plain operation has the same outcome on both sides. -/
theorem step (userland : Userland)
    (plain : call.isPlain = true)
    (room : store.nextInode + 1 < 2 ^ 64) :
    StepsTogether store (ramStep userland store call) (volumeStep blocks call) := by
  cases call with
  | create path | mkdir path => exact matched.steps_create (of_decide_eq_true plain) room
  | unlink path | rmdir path => exact matched.steps_remove
  | rename oldPath newPath => exact matched.steps_rename (of_decide_eq_true plain).2
  | stat path =>
    obtain ⟨disk, same, ran⟩ := @stat_clean _ _ (volumePath path) matched.volume
    rw [ramStep, volumeStep, ran]
    rcases matched.stat_agrees userland path with ⟨left, right, isLeft, isRight⟩ |
      ⟨left, right, isLeft, isRight, sameType, sameSize, -⟩
    · rw [isLeft, isRight, settleVolume, same]
      exact matched.steps_same .same
    · rw [isLeft, isRight, settleVolume, same, ← sameType, ← sameSize]
      exact matched.steps_same .same
  | list path capacity =>
    obtain ⟨disk, same, ran⟩ := @list_clean _ _ (volumePath path) capacity matched.volume
    rw [ramStep, volumeStep, ran]
    rcases @list_agrees _ _ _ _ matched capacity userland path with
      ⟨left, right, isLeft, isRight⟩ | ⟨left, right, perm, isLeft, isRight⟩
    · rw [isLeft, isRight, settleVolume, same]
      exact matched.steps_same .same
    · rw [isLeft, isRight, settleVolume, same]
      exact matched.steps_same (.lines perm)
  | read path offset capacity =>
    obtain ⟨disk, -, ran⟩ := @stat_clean _ _ (volumePath path) matched.volume
    rw [ramStep, volumeStep, ran]
    rcases matched.stat_agrees userland path with ⟨left, right, isLeft, isRight⟩ |
      ⟨left, right, isLeft, isRight, -, -, known, isInode⟩
    · rw [isLeft, isRight]
      exact matched.steps_same .same
    · rw [isLeft, isRight]
      dsimp only [answer]
      rw [isInode]
      exact matched.steps_read userland known (of_decide_eq_true plain).2
  | write path offset source =>
    obtain ⟨disk, -, ran⟩ := @stat_clean _ _ (volumePath path) matched.volume
    rw [ramStep, volumeStep, ran]
    rcases matched.stat_agrees userland path with ⟨left, right, isLeft, isRight⟩ |
      ⟨left, right, isLeft, isRight, -, -, known, isInode⟩
    · rw [isLeft, isRight]
      exact matched.steps_same .same
    · rw [isLeft, isRight]
      dsimp only [answer]
      rw [isInode]
      exact matched.steps_write known

end Matches

/-- The outcomes of operations on the RAM filesystem. -/
def ramRun (userland : Userland) (store : WritableStore) : List Call → List Outcome
  | [] => []
  | call :: rest =>
    (ramStep userland store call).2 :: ramRun userland (ramStep userland store call).1 rest

/-- The outcomes of operations on the persistent filesystem. -/
def volumeRun (blocks : Blocks) : List Call → List Outcome
  | [] => []
  | call :: rest => (volumeStep blocks call).2 :: volumeRun (volumeStep blocks call).1 rest

theorem matches_new (image : Blocks) :
    Matches (fun _ => .new 0 0 [] .file) WritableStore.new (formatted image)
      (List.replicate maxFiles none) where
  formed := WritableStore.wellFormed_new
  volume := isVolume_formatted image
  perm := by
    rw [Table.entries, List.filterMap_replicate]
    exact .refl _
  twins := nofun
  distinct := nofun

theorem Matches.run (matched : Matches twin store blocks table) (userland : Userland)
    (plain : ∀ call ∈ calls, call.isPlain = true)
    (room : store.nextInode + calls.length < 2 ^ 64) :
    List.Forall₂ Agrees (ramRun userland store calls) (volumeRun blocks calls) := by
  induction calls generalizing twin store blocks table with
  | nil => exact .nil
  | cons call rest ih =>
    rw [List.length_cons] at room
    obtain ⟨⟨nextTwin, nextTable, next⟩, agrees, issued⟩ :=
      matched.step userland (plain call (List.mem_cons_self ..)) (by omega)
    exact .cons agrees (ih next
      (fun call isRest => plain call (List.mem_cons_of_mem _ isRest)) (by omega))

/-- On a new store and on a formatted volume, any operations by paths that do not begin
with a slash, fewer than the store has inodes for, have the same outcomes one by
one. -/
theorem runs_agree (userland : Userland) (image : Blocks) (calls : List Call)
    (plain : ∀ call ∈ calls, call.isPlain = true)
    (room : calls.length < 2 ^ 64 - 10000) :
    List.Forall₂ Agrees (ramRun userland WritableStore.new calls)
      (volumeRun (formatted image) calls) := by
  refine (matches_new image).run userland plain ?_
  show 10000 + calls.length < 2 ^ 64
  omega

/-- The userland of the runs below has no programs. -/
def bareUserland : Userland := ⟨[], [], by decide⟩

/-- The same outcomes for a directory, a file in it that is written and read, and a
rename. -/
theorem sampleRun_agrees :
    List.Forall₂ Agrees
      (ramRun bareUserland WritableStore.new
        [.mkdir "d".toList, .create "d/f".toList, .write "d/f".toList 1000 [1, 2, 3],
          .rename "d".toList "e".toList, .read "e/f".toList 999 10])
      (volumeRun (formatted fun _ _ => 7)
        [.mkdir "d".toList, .create "d/f".toList, .write "d/f".toList 1000 [1, 2, 3],
          .rename "d".toList "e".toList, .read "e/f".toList 999 10]) :=
  runs_agree bareUserland _ _ (by decide +kernel) (by decide)

/-! ## Where they differ -/

/-- A store without nodes after some inodes have been issued. -/
def emptyStore (issued : Nat) : WritableStore := ⟨[], 10000 + issued⟩

theorem named_a : Named [97] :=
  ⟨fromUtf8_asBytes ['a'], by decide, by decide⟩

/-- Creating a file and removing it again costs an inode. -/
theorem ramStep_create_unlink (room : 10000 + issued + 1 < 2 ^ 64) :
    ramStep bareUserland (ramStep bareUserland (emptyStore issued) (.create ['a'])).1
      (.unlink ['a']) = (emptyStore (issued + 1), .changed) := by
  have created : (emptyStore issued).create (ramPath ['a']) .file =
      .ok (10000 + issued, ⟨[.new (10000 + issued) tmpInode [97] .file], 10000 + issued + 1⟩) := by
    have split : Ramfs.splitParentName (ramPath ['a']) = .ok (tmpPath, [97]) := rfl
    have resolved : (emptyStore issued).resolvePath tmpPath = some tmpInode := if_pos rfl
    rw [WritableStore.create, split]
    dsimp only
    rw [resolved]
    dsimp only
    rw [if_neg fun notTmp => notTmp.1 rfl]
    exact if_neg (Nat.not_le.mpr room)
  have text := @WritableNode.text_of_name (.new (10000 + issued) tmpInode [97] .file) _ named_a
    rfl rfl
  have found : place.child [WritableNode.new (10000 + issued) tmpInode [97] .file] tmpInode
      (asBytes ['a']) = some (.new (10000 + issued) tmpInode [97] .file) := by
    refine List.find?_cons_of_pos ?_
    rw [Bool.and_eq_true]
    exact ⟨decide_eq_true rfl, decide_eq_true text⟩
  have resolved : WritableStore.resolvePath
      ⟨[.new (10000 + issued) tmpInode [97] .file], 10000 + issued + 1⟩ (ramPath ['a']) =
        some (10000 + issued) := by
    rw [ramResolve_eq]
    show walk _ _ _ [['a']] = _
    rw [walk, if_neg (by decide)]
    dsimp only
    rw [found]
    rfl
  have isNode : WritableStore.findInode
      ⟨[.new (10000 + issued) tmpInode [97] .file], 10000 + issued + 1⟩ (10000 + issued) =
        some (.new (10000 + issued) tmpInode [97] .file) := by
    rw [WritableStore.findInode, Placement.find]
    refine List.find?_cons_of_pos ?_
    exact decide_eq_true rfl
  have removed : WritableStore.remove
      ⟨[.new (10000 + issued) tmpInode [97] .file], 10000 + issued + 1⟩ (ramPath ['a']) .file =
        .ok (10000 + issued, emptyStore (issued + 1)) := by
    have notTmp : 10000 + issued ≠ tmpInode := by
      have tmp : tmpInode = 3 := rfl
      omega
    have erased : place.erase [WritableNode.new (10000 + issued) tmpInode [97] .file]
        (10000 + issued) = [] := List.eraseP_cons_of_pos (decide_eq_true rfl)
    rw [WritableStore.remove, resolved]
    dsimp only
    rw [if_neg notTmp, isNode]
    dsimp only
    rw [erased]
    rfl
  rw [ramStep, created, ramStep]
  dsimp only [settleRam]
  rw [removed]

/-- Create and remove a file that many times, and create it once more. -/
def cycles : Nat → List Call
  | 0 => [.create ['a']]
  | rounds + 1 => .create ['a'] :: .unlink ['a'] :: cycles rounds

/-- The store has no inode left for the last creation. -/
theorem ramRun_cycles (issued : Nat) (exhausts : 10000 + issued + rounds + 1 = 2 ^ 64) :
    (ramRun bareUserland (emptyStore issued) (cycles rounds)).getLast? = some .failed := by
  induction rounds generalizing issued with
  | zero =>
    have refused : (emptyStore issued).create (ramPath ['a']) .file = .error .noSpace := by
      have split : Ramfs.splitParentName (ramPath ['a']) = .ok (tmpPath, [97]) := rfl
      have resolved : (emptyStore issued).resolvePath tmpPath = some tmpInode := if_pos rfl
      rw [WritableStore.create, split]
      dsimp only
      rw [resolved]
      dsimp only
      rw [if_neg fun notTmp => notTmp.1 rfl]
      exact if_pos (Nat.le_of_eq exhausts.symm)
    rw [cycles, ramRun, ramStep, refused]
    rfl
  | succ rounds ih =>
    have next := ih (issued + 1) (by omega)
    rw [cycles, ramRun, ramRun, ramStep_create_unlink (by omega)]
    have nonempty : ramRun bareUserland (emptyStore (issued + 1)) (cycles rounds) ≠ [] := by
      intro isEmpty
      rw [isEmpty] at next
      cases next
    rw [List.getLast?_cons, List.getLast?_cons, next]
    rfl

/-- The file that is created on the volume. -/
def entryA : DirectoryEntry := .new 0 1 [97] .file

/-- The directory with that file only. -/
def tableA : Table := some entryA :: List.replicate 31 none

theorem effectOf_createA :
    effectOf (List.replicate maxFiles none) (.createNode (volumePath ['a']) .file) =
      some (.ok (0, some entryA)) :=
  rfl

theorem effectOf_removeA :
    effectOf tableA (.removeNode (volumePath ['a']) .file) = some (.ok (0, none)) := by
  have text := @DirectoryEntry.text_of_name entryA _ named_a rfl rfl
  have found : place.child tableA.entries 1 (asBytes ['a']) = some entryA := by
    refine List.find?_cons_of_pos ?_
    rw [Bool.and_eq_true]
    exact ⟨decide_eq_true rfl, decide_eq_true text⟩
  have resolved : Vantfs.resolvePath tableA (volumePath ['a']) = some 2 := by
    have isSingle : ['a'].splitOn '/' = [['a']] := by decide
    rw [volumeResolve_eq, if_neg (by decide), isSingle, walk, if_neg (by decide),
      show rootInode = 1 from rfl, found]
    rfl
  rw [effectOf, planRemove, resolved]
  rfl

/-- The outcome of creating a file and the volume after that. -/
theorem volumeStep_create (volume : IsVolume blocks (List.replicate maxFiles none)) :
    (volumeStep blocks (.create ['a'])).2 = .status .file 0 ∧
      IsVolume (volumeStep blocks (.create ['a'])).1 tableA := by
  have spec := @createNode_spec _ _ True volume.1 volume.2 (volumePath ['a']) .file
  obtain ⟨stat, after, settled, ⟨-, isType, isSize⟩, done⟩ :=
    settleVolume_done spec effectOf_createA
  rw [volumeStep, settled, isType, isSize]
  exact ⟨rfl, done.reads, (volume.2.effect done.effect).2⟩

theorem volumeStep_unlink (volume : IsVolume blocks tableA) :
    IsVolume (volumeStep blocks (.unlink ['a'])).1 (List.replicate maxFiles none) := by
  have spec := @removeNode_spec _ _ True volume.1 volume.2 (volumePath ['a']) .file
  obtain ⟨inode, after, settled, -, done⟩ :=
    settleVolume_done spec effectOf_removeA
  rw [volumeStep, settled]
  exact ⟨done.reads, (volume.2.effect done.effect).2⟩

/-- On a volume without entries the last creation succeeds. -/
theorem volumeRun_cycles (volume : IsVolume blocks (List.replicate maxFiles none)) :
    (volumeRun blocks (cycles rounds)).getLast? = some (.status .file 0) := by
  induction rounds generalizing blocks with
  | zero =>
    rw [cycles, volumeRun, (volumeStep_create volume).1]
    rfl
  | succ rounds ih =>
    have next := ih (volumeStep_unlink (volumeStep_create volume).2)
    rw [cycles, volumeRun, volumeRun, List.getLast?_cons, List.getLast?_cons, next]
    rfl

/-- After the last inode of the store has been issued, a file can be created on the volume
only. -/
theorem runs_differ :
    (ramRun bareUserland WritableStore.new (cycles (2 ^ 64 - 10001))).getLast? = some .failed ∧
      (volumeRun (formatted fun _ _ => 0) (cycles (2 ^ 64 - 10001))).getLast? =
        some (.status .file 0) :=
  ⟨ramRun_cycles 0 (by decide), volumeRun_cycles (isVolume_formatted _)⟩

end Fs
end Vantara
