import Vantara.Fs.Ramfs

/-!
# The RAM store is a tree

Every operation keeps the nodes a tree of properly named and sized nodes.  The
walk to the root in `is_descendant` ends because of that, so every operation does.
-/

namespace Vantara
namespace Fs
namespace Ramfs

open Foundation

/-- The name and the data of a node fit it, and no data is left beyond its length. -/
structure WritableNode.Proper (node : WritableNode) : Prop where
  text : node.text = node.name.take node.nameLen
  named : 1 ≤ node.nameLen ∧ node.nameLen ≤ maxNameLen
  sized : node.len ≤ maxFileSize
  blank : ∀ index, node.len ≤ index → node.data index = 0

namespace WritableNode

theorem text_of_name
    {node : WritableNode} {name : List UInt8}
    (named : Named name)
    (isName : node.name = padName name)
    (isLen : node.nameLen = name.length) :
    node.text = name := by
  rw [text, isName, isLen, take_padName, named.text]

theorem proper_new
    {inode parent : Nat} {name : List UInt8} {fileType : FileType}
    (named : Named name) :
    (new inode parent name fileType).Proper where
  text := by
    rw [text_of_name named rfl rfl]
    exact (take_padName name).symm
  named := ⟨List.length_pos_iff.mpr named.nonempty, named.short⟩
  sized := Nat.zero_le _
  blank _ _ := rfl

theorem Proper.moveTo
    {node : WritableNode} {parent : Nat} {name : List UInt8}
    (proper : node.Proper)
    (named : Named name) :
    (node.moveTo parent name).Proper where
  text := by
    rw [text_of_name named rfl rfl]
    exact (take_padName name).symm
  named := ⟨List.length_pos_iff.mpr named.nonempty, named.short⟩
  sized := proper.sized
  blank := proper.blank

theorem Proper.copyIn {node : WritableNode}
    (proper : node.Proper)
    (fits : offset + source.length ≤ maxFileSize) :
    (node.copyIn offset source).Proper where
  text := proper.text
  named := proper.named
  sized := Nat.max_le.mpr ⟨proper.sized, fits⟩
  blank index beyond := by
    have isBeyond : max node.len (offset + source.length) ≤ index := beyond
    rw [Nat.max_le] at isBeyond
    show (if _ then _ else _) = _
    rw [if_neg (by omega)]
    exact proper.blank index isBeyond.1

end WritableNode

/-- The nodes form a tree, have been issued their inodes in turn and are proper. -/
structure WritableStore.WellFormed (store : WritableStore) : Prop where
  lists : place.ListsTree store.nodes
  started : firstWritableInode ≤ store.nextInode
  issued : ∀ node ∈ store.nodes, firstWritableInode ≤ node.inode ∧ node.inode < store.nextInode
  bounded : store.nodes.length ≤ maxWritableNodes
  proper : ∀ node ∈ store.nodes, node.Proper

theorem splitParentName_ok (split : splitParentName path = .ok (parent, name)) : Named name := by
  unfold splitParentName at split
  split_ifs at split
  exact splitParentName_spec split

namespace WritableStore

variable {store after : WritableStore}

theorem wellFormed_new : new.WellFormed where
  lists := ⟨List.nodup_nil, by simpa [new] using Placement.isTree_empty⟩
  started := le_rfl
  issued := nofun
  bounded := Nat.zero_le _
  proper := nofun

/-- A new node has a fresh inode and a name that its directory does not have. -/
theorem create_spec (created : store.create path fileType = .ok (inode, after)) :
    ∃ parentPath parent name, splitParentName path = .ok (parentPath, name) ∧
      store.resolvePath parentPath = some parent ∧
      place.Holds { node | node ∈ store.nodes } parent ∧
      store.child parent name = none ∧
      store.nodes.length ≠ maxWritableNodes ∧
      inode = store.nextInode ∧
      after = ⟨store.nodes ++ [.new store.nextInode parent name fileType],
        store.nextInode + 1⟩ := by
  unfold create at created
  split at created
  next => cases created
  next parentPath name split =>
    split at created
    next => cases created
    next parent resolved =>
      split_ifs at created with notDirectory exists_ full exhausted
      cases created
      exact ⟨parentPath, parent, name, split, resolved, holds_of_isDirectory notDirectory,
        Option.not_isSome_iff_eq_none.mp exists_, full, rfl, rfl⟩

theorem WellFormed.create
    (formed : store.WellFormed)
    (created : store.create path fileType = .ok (inode, after)) :
    after.WellFormed := by
  obtain ⟨parentPath, parent, name, split, -, held, unused, notFull, -, rfl⟩ := create_spec created
  have named := splitParentName_ok split
  have fresh : ∀ old ∈ store.nodes, old.inode ≠ store.nextInode := fun old listed =>
    Nat.ne_of_lt (formed.issued old listed).2
  constructor
  case lists =>
    refine formed.lists.push fresh ?_ ?_ held
    · exact Nat.ne_of_gt (Nat.lt_of_lt_of_le (by decide) formed.started)
    · show place.child store.nodes parent (WritableNode.text _) = none
      rw [WritableNode.text_of_name named rfl rfl]
      exact unused
  case started => exact Nat.le_succ_of_le formed.started
  case issued =>
    intro node listed
    rcases List.mem_append.mp listed with isOld | isNew
    · obtain ⟨first, last⟩ := formed.issued node isOld
      exact ⟨first, Nat.lt_succ_of_lt last⟩
    · rw [List.mem_singleton.mp isNew]
      exact ⟨formed.started, Nat.lt_succ_self _⟩
  case bounded =>
    rw [List.length_append, List.length_singleton]
    exact Nat.succ_le_of_lt (Nat.lt_of_le_of_ne formed.bounded notFull)
  case proper =>
    intro node listed
    rcases List.mem_append.mp listed with isOld | isNew
    · exact formed.proper node isOld
    · rw [List.mem_singleton.mp isNew]
      exact WritableNode.proper_new named

/-- A change of one node that keeps its inode. -/
theorem WellFormed.change
    {edit : WritableNode → WritableNode}
    (formed : store.WellFormed)
    (found : store.findInode inode = some old)
    (sameKey : ∀ node, (edit node).inode = node.inode)
    (proper : (edit old).Proper)
    (lists : place.ListsTree (place.change inode edit store.nodes)) :
    WellFormed { store with nodes := place.change inode edit store.nodes } := by
  obtain ⟨listed, isKey⟩ := Placement.mem_of_find found
  have members : ∀ node ∈ place.change inode edit store.nodes,
      node = edit old ∨ node ∈ store.nodes := by
    intro node isNode
    have inSet : node ∈ { node | node ∈ place.change inode edit store.nodes } := isNode
    rw [Placement.setOf_change formed.lists.nodup found] at inSet
    exact inSet.imp id And.left
  constructor
  case lists => exact lists
  case started => exact formed.started
  case issued =>
    intro node isNode
    rcases members node isNode with rfl | isOld
    · rw [sameKey]
      exact formed.issued old listed
    · exact formed.issued node isOld
  case bounded =>
    show (place.change inode edit store.nodes).length ≤ _
    rw [Placement.length_change]
    exact formed.bounded
  case proper =>
    intro node isNode
    rcases members node isNode with rfl | isOld
    · exact proper
    · exact formed.proper node isOld

theorem write_spec (written : store.write inode offset source = .ok (count, after)) :
    ∃ node, store.findInode inode = some node ∧ node.fileType = .file ∧
      offset + source.length ≤ maxFileSize ∧ count = source.length ∧
      after = { store with nodes := place.change inode (·.copyIn offset source) store.nodes } := by
  unfold write at written
  split at written
  next => cases written
  next node found =>
    split_ifs at written with notFile overflow tooLarge
    cases written
    exact ⟨node, found, not_not.mp notFile, Nat.le_of_not_gt tooLarge, rfl, rfl⟩

theorem WellFormed.write
    (formed : store.WellFormed)
    (written : store.write inode offset source = .ok (count, after)) :
    after.WellFormed := by
  obtain ⟨node, found, -, fits, -, rfl⟩ := write_spec written
  obtain ⟨listed, -⟩ := Placement.mem_of_find found
  exact formed.change found (fun _ => rfl) ((formed.proper node listed).copyIn fits)
    (formed.lists.update found (fun _ => rfl) rfl rfl rfl)

/-- A file has no children. -/
theorem WellFormed.childless_of_file
    (formed : store.WellFormed)
    (found : store.findInode inode = some node)
    (isFile : node.fileType = .file)
    (notRoot : inode ≠ tmpInode) :
    ∀ child ∈ store.nodes, child.parent ≠ inode := by
  intro child listed isParent
  obtain ⟨nodeListed, nodeKey⟩ := Placement.mem_of_find found
  rcases formed.lists.tree.held child listed with isRoot | ⟨parent, parentListed, key, kind⟩
  · exact notRoot (isParent.symm.trans isRoot)
  · have same := formed.lists.tree.distinct _ parentListed _ nodeListed
      (key.trans (isParent.trans nodeKey.symm))
    rw [same] at kind
    simp [place, isFile] at kind

theorem remove_spec (removed : store.remove path expected = .ok (inode, after)) :
    ∃ node, store.resolvePath path = some inode ∧ inode ≠ tmpInode ∧
      store.findInode inode = some node ∧ node.fileType = expected ∧
      ¬ (expected = .directory ∧ store.nodes.any (·.parent = inode)) ∧
      after = { store with nodes := place.erase store.nodes inode } := by
  unfold remove at removed
  split at removed
  next => cases removed
  next target resolved =>
    split at removed
    next => cases removed
    next notRoot =>
      split at removed
      next => cases removed
      next node found =>
        split_ifs at removed with other isFile notEmpty
        cases removed
        obtain ⟨-, isKey⟩ := Placement.mem_of_find found
        have isKey : node.inode = target := isKey
        rw [isKey]
        exact ⟨node, resolved, notRoot, found, not_not.mp other, notEmpty, rfl⟩

/-- Nothing is below what is removed. -/
theorem WellFormed.childless_of_remove
    (formed : store.WellFormed)
    (removed : store.remove path expected = .ok (inode, after)) :
    ∀ child ∈ store.nodes, child.parent ≠ inode := by
  obtain ⟨node, -, notRoot, found, isKind, empty, -⟩ := remove_spec removed
  cases expected with
  | file => exact formed.childless_of_file found isKind notRoot
  | directory =>
    intro child listed isParent
    exact empty ⟨rfl, List.any_eq_true.mpr ⟨child, listed, decide_eq_true isParent⟩⟩

theorem WellFormed.remove
    (formed : store.WellFormed)
    (removed : store.remove path expected = .ok (inode, after)) :
    after.WellFormed := by
  have childless := formed.childless_of_remove removed
  obtain ⟨node, -, -, -, -, -, rfl⟩ := remove_spec removed
  have members : ∀ node ∈ place.erase store.nodes inode, node ∈ store.nodes :=
    fun node isNode => List.mem_of_mem_eraseP isNode
  constructor
  case lists => exact formed.lists.erase childless
  case started => exact formed.started
  case issued => exact fun node isNode => formed.issued node (members node isNode)
  case bounded => exact List.length_eraseP_le.trans formed.bounded
  case proper => exact fun node isNode => formed.proper node (members node isNode)

/-- In a tree the walk to the root ends. -/
theorem WellFormed.isDescendant_total (formed : store.WellFormed) (candidate ancestor : Nat) :
    ∃ answer, store.isDescendant candidate ancestor = some answer :=
  formed.lists.tree.descends_total (Placement.finds_find formed.lists.nodup)
    candidate ancestor

theorem rename_spec (renamed : store.rename oldPath newPath = some (.ok (inode, after))) :
    ∃ node newParentPath newParent newName, store.resolvePath oldPath = some inode ∧
      inode ≠ tmpInode ∧ store.findInode inode = some node ∧
      splitParentName newPath = .ok (newParentPath, newName) ∧
      store.resolvePath newParentPath = some newParent ∧
      place.Holds { node | node ∈ store.nodes } newParent ∧
      store.child newParent newName = none ∧
      store.isDescendant newParent inode = some false ∧
      after = { store with
        nodes := place.change inode (·.moveTo newParent newName) store.nodes } := by
  unfold rename at renamed
  split at renamed
  next => cases renamed
  next target resolved =>
    split at renamed
    next => cases renamed
    next notRoot =>
      split at renamed
      next => cases renamed
      next newParentPath newName split =>
        split at renamed
        next => cases renamed
        next newParent newResolved =>
          split at renamed
          next => cases renamed
          next isDirectory =>
            split at renamed
            next => cases renamed
            next unused =>
              split at renamed
              next => cases renamed
              next => cases renamed
              next avoids =>
                split at renamed
                next => cases renamed
                next node found =>
                  cases renamed
                  obtain ⟨-, isKey⟩ := Placement.mem_of_find found
                  have isKey : node.inode = target := isKey
                  rw [isKey]
                  exact ⟨node, newParentPath, newParent, newName, resolved, notRoot, found, split,
                    newResolved, holds_of_isDirectory isDirectory,
                    Option.not_isSome_iff_eq_none.mp unused, avoids, rfl⟩

theorem WellFormed.rename
    (formed : store.WellFormed)
    (renamed : store.rename oldPath newPath = some (.ok (inode, after))) :
    after.WellFormed := by
  obtain ⟨node, newParentPath, newParent, newName, -, -, found, split, -, held, unused, avoids,
    rfl⟩ := rename_spec renamed
  have named := splitParentName_ok split
  obtain ⟨listed, -⟩ := Placement.mem_of_find found
  refine formed.change found (fun _ => rfl) ((formed.proper node listed).moveTo named)
    (formed.lists.move found (fun _ => rfl) rfl ?_ held avoids)
  show place.child store.nodes newParent (WritableNode.text _) = none
  rw [WritableNode.text_of_name named rfl rfl]
  exact unused

theorem WellFormed.rename_total (formed : store.WellFormed) (oldPath newPath : List Char) :
    ∃ answer, store.rename oldPath newPath = some answer := by
  unfold WritableStore.rename
  repeat' split
  all_goals first
    | exact ⟨_, rfl⟩
    | next stuck =>
      obtain ⟨answer, ends⟩ := formed.isDescendant_total _ _
      exact absurd (ends.symm.trans stuck) (Option.some_ne_none answer)

/-- Every operation ends and keeps the store well formed. -/
theorem WellFormed.perform (formed : store.WellFormed) (call : StoreCall) :
    ∃ after, store.perform call = some after ∧ after.WellFormed := by
  cases call with
  | create path fileType =>
    refine ⟨_, rfl, ?_⟩
    cases created : store.create path fileType with
    | error => exact formed
    | ok answer => exact formed.create created
  | write inode offset source =>
    refine ⟨_, rfl, ?_⟩
    cases written : store.write inode offset source with
    | error => exact formed
    | ok answer => exact formed.write written
  | remove path expected =>
    refine ⟨_, rfl, ?_⟩
    cases removed : store.remove path expected with
    | error => exact formed
    | ok answer => exact formed.remove removed
  | rename oldPath newPath =>
    obtain ⟨answer, ends⟩ := formed.rename_total oldPath newPath
    refine ⟨store.settle answer, by rw [WritableStore.perform, ends, Option.map_some], ?_⟩
    cases answer with
    | error => exact formed
    | ok answer => exact formed.rename ends

theorem WellFormed.performAll (formed : store.WellFormed) (calls : List StoreCall) :
    ∃ after, store.performAll calls = some after ∧ after.WellFormed := by
  induction calls generalizing store with
  | nil => exact ⟨store, rfl, formed⟩
  | cons call rest ih =>
    obtain ⟨next, stepped, nextFormed⟩ := formed.perform call
    obtain ⟨last, ran, lastFormed⟩ := ih nextFormed
    refine ⟨last, ?_, lastFormed⟩
    rw [WritableStore.performAll, List.foldlM_cons, stepped]
    exact ran

/-- After any operations on a new store, all of which end, the nodes are a tree below
`/tmp`, and from every inode the walk to the root ends. -/
theorem performAll_new_isTree (calls : List StoreCall) :
    ∃ store, new.performAll calls = some store ∧
      (store.nodes.map (·.inode)).Nodup ∧
      (∀ node ∈ store.nodes, 10000 ≤ node.inode) ∧
      (store.nodes.map fun node => (node.parent, node.name.take node.nameLen)).Nodup ∧
      (∀ node ∈ store.nodes, node.parent = tmpInode ∨
        ∃ parent ∈ store.nodes, parent.inode = node.parent ∧ parent.fileType = .directory) ∧
      (∀ node ∈ store.nodes, ∃ depth,
        place.Depth { node | node ∈ store.nodes } depth node.inode) ∧
      store.nodes.length ≤ 32 ∧
      (∀ node ∈ store.nodes, 1 ≤ node.nameLen ∧ node.nameLen ≤ 32 ∧ node.len ≤ 1024 ∧
        ∀ index, node.len ≤ index → node.data index = 0) ∧
      ∀ candidate ancestor, ∃ answer, store.isDescendant candidate ancestor = some answer := by
  obtain ⟨store, ran, formed⟩ := wellFormed_new.performAll calls
  have tree := formed.lists.tree
  refine ⟨store, ran, formed.lists.nodup, fun node listed => (formed.issued node listed).1,
    ?names, ?parents, tree.grounded, formed.bounded, ?nodes, formed.isDescendant_total⟩
  case names =>
    refine formed.lists.nodup.of_map.map_on fun left isLeft right isRight same => ?_
    obtain ⟨sameParent, sameName⟩ := Prod.mk.inj same
    refine tree.named left isLeft right isRight sameParent ?_
    exact ((formed.proper left isLeft).text.trans sameName).trans
      (formed.proper right isRight).text.symm
  case parents =>
    intro node listed
    refine (tree.held node listed).imp id ?_
    rintro ⟨parent, parentListed, isKey, isDirectory⟩
    exact ⟨parent, parentListed, isKey, of_decide_eq_true isDirectory⟩
  case nodes =>
    intro node listed
    have proper := formed.proper node listed
    exact ⟨proper.named.1, proper.named.2, proper.sized, proper.blank⟩

end WritableStore

end Ramfs
end Fs
end Vantara
