import Vantara.Fs.Twins

/-!
# Operations keep a match

The same change of a store and of a volume that match: a new node and its twin, a node
and its twin removed, and a node and its twin changed.
-/

namespace Vantara
namespace Fs

open Foundation Ramfs Vantfs
open Function (update_of_ne update_self)

/-- A twin stays one if the link of its parent and its contents stay. -/
theorem Twin.mono (isTwin : Twin link blocks node entry)
    (sameParent : link' node.parent = link node.parent)
    (sameData : ∀ index < maxFileSize,
      content after entry.slot index = content blocks entry.slot index) :
    Twin link' after node entry where
  parent := isTwin.parent.trans sameParent.symm
  text := isTwin.text
  fileType := isTwin.fileType
  len := isTwin.len
  data isFile index inside := (sameData index inside).trans (isTwin.data isFile index inside)

theorem linkOf_update (differ : inode ≠ target) :
    linkOf (Function.update twin target entry) inode = linkOf twin inode := by
  rw [linkOf, linkOf, update_of_ne differ]

namespace Matches

variable {twin : Nat → DirectoryEntry} {store : WritableStore} {blocks after : Blocks}
  {table : Table} (matched : Matches twin store blocks table)

include matched

theorem slot_injective
    (isLeft : left ∈ store.nodes)
    (isRight : right ∈ store.nodes)
    (same : (twin left.inode).slot = (twin right.inode).slot) :
    left = right := by
  refine matched.distinct _ isLeft _ isRight ?_
  have leftAt := matched.volume.2.getElem?_slot (matched.twin_mem isLeft)
  rw [same, matched.volume.2.getElem?_slot (matched.twin_mem isRight)] at leftAt
  exact (Option.some.inj (Option.some.inj leftAt)).symm

theorem of_mem_erase (isOther : other ∈ Ramfs.place.erase store.nodes inode) :
    other ∈ store.nodes ∧ other.inode ≠ inode := by
  have inSet : other ∈ { other | other ∈ Ramfs.place.erase store.nodes inode } := isOther
  rw [Placement.setOf_erase matched.formed.lists.nodup] at inSet
  exact inSet

/-- Different nodes have different twins if this is so without the only one with a new twin. -/
theorem update_injective
    {nodes : List WritableNode} {changed : WritableNode} {entry : DirectoryEntry}
    (members : ∀ other ∈ nodes,
      other = changed ∨ other ∈ store.nodes ∧ other.inode ≠ changed.inode)
    (unequal : ∀ other ∈ store.nodes, other.inode ≠ changed.inode → twin other.inode ≠ entry) :
    ∀ left ∈ nodes, ∀ right ∈ nodes, Function.update twin changed.inode entry left.inode =
      Function.update twin changed.inode entry right.inode → left = right := by
  intro left isLeft right isRight same
  rcases members left isLeft with rfl | ⟨leftListed, leftDiffers⟩
  · rcases members right isRight with rfl | ⟨rightListed, rightDiffers⟩
    · rfl
    · rw [update_self, update_of_ne rightDiffers] at same
      exact absurd same.symm (unequal right rightListed rightDiffers)
  · rcases members right isRight with rfl | ⟨rightListed, rightDiffers⟩
    · rw [update_self, update_of_ne leftDiffers] at same
      exact absurd same (unequal left leftListed leftDiffers)
    · rw [update_of_ne leftDiffers, update_of_ne rightDiffers] at same
      exact matched.distinct _ leftListed _ rightListed same

/-- A new node and its twin. -/
theorem create
    (formed : WritableStore.WellFormed
      ⟨store.nodes ++ [.new store.nextInode parent name fileType], store.nextInode + 1⟩)
    (known : Known store parent) (named : Named name)
    (isFree : table[slot]? = some none)
    (done : Done (.createNode path fileType) blocks table slot
      (some (.new slot (linkOf twin parent) name fileType)) after) :
    Matches
      (Function.update twin store.nextInode (.new slot (linkOf twin parent) name fileType))
      ⟨store.nodes ++ [.new store.nextInode parent name fileType], store.nextInode + 1⟩
      after
      (table.set slot (some (.new slot (linkOf twin parent) name fileType))) := by
  have notTmp : store.nextInode ≠ tmpInode :=
    Nat.ne_of_gt (Nat.lt_of_lt_of_le (by decide) matched.formed.started)
  have older : ∀ node ∈ store.nodes, node.inode ≠ store.nextInode := fun node listed =>
    Nat.ne_of_lt (matched.formed.issued node listed).2
  have knownOlder : ∀ inode, Known store inode → inode ≠ store.nextInode := by
    rintro inode (rfl | ⟨node, listed, rfl⟩)
    · exact notTmp.symm
    · exact older node listed
  have otherSlot : ∀ node ∈ store.nodes, (twin node.inode).slot ≠ slot := by
    rintro node listed rfl
    have isEntry := matched.volume.2.getElem?_slot (matched.twin_mem listed)
    rw [isFree] at isEntry
    cases isEntry
  obtain ⟨isSlot, formedTable⟩ := matched.volume.2.effect done.effect
  constructor
  case formed => exact formed
  case volume => exact ⟨done.reads, formedTable⟩
  case perm =>
    have inside : slot < table.length := matched.volume.2.length.symm ▸ isSlot
    have unchanged : table.set slot none = table := by
      have isNone := (List.getElem?_eq_some_iff.mp isFree).2
      rw [← isNone, List.set_getElem_self]
    have split := @Table.entries_set_perm table slot
      (some (.new slot (linkOf twin parent) name fileType)) inside
    rw [unchanged] at split
    rw [List.map_append, List.map_singleton]
    refine split.trans (.trans ?_ (List.perm_append_singleton _ _).symm)
    show (_ :: table.entries).Perm (_ :: _)
    have same : store.nodes.map (fun node => Function.update twin store.nextInode
        (.new slot (linkOf twin parent) name fileType) node.inode) =
          store.nodes.map fun node => twin node.inode :=
      List.map_congr_left fun node listed => update_of_ne (older node listed) _ _
    rw [same, show (WritableNode.new store.nextInode parent name fileType).inode =
      store.nextInode from rfl, update_self]
    exact matched.perm.cons _
  case twins =>
    intro node listed
    rcases List.mem_append.mp listed with isOld | isNew
    · rw [update_of_ne (older node isOld)]
      refine (matched.twins node isOld).mono ?_ ?_
      · exact linkOf_update (knownOlder _ (matched.known_parent isOld))
      · exact done.others _ (matched.volume.2.slot_lt (matched.twin_mem isOld))
          (otherSlot node isOld)
    · rw [List.mem_singleton.mp isNew,
        show (WritableNode.new store.nextInode parent name fileType).inode =
          store.nextInode from rfl, update_self]
      refine ⟨?_, ?_, rfl, rfl, ?_⟩
      · exact (linkOf_update (knownOlder _ known)).symm
      · rw [DirectoryEntry.text_of_name named rfl rfl, WritableNode.text_of_name named rfl rfl]
      · intro isFile index inside
        have isFile : fileType = .file := isFile
        subst isFile
        exact done.contents index inside
  case distinct =>
    refine @update_injective _ _ _ _ matched _ (.new store.nextInode parent name fileType) _
      (fun node listed => ?_)
      fun node listed _ isNew => otherSlot node listed (congrArg DirectoryEntry.slot isNew)
    rcases List.mem_append.mp listed with isOld | isNew
    · exact .inr ⟨isOld, older node isOld⟩
    · exact .inl (List.mem_singleton.mp isNew)

/-- What is left of a match without a node and its twin. -/
theorem rest_perm (found : store.findInode inode = some node) :
    (Table.entries (table.set (twin node.inode).slot none)).Perm
      ((Ramfs.place.erase store.nodes inode).map fun node => twin node.inode) := by
  have listed := (Placement.mem_of_find found).1
  have split := Table.entries_perm (matched.volume.2.getElem?_slot (matched.twin_mem listed))
  have nodes := (Placement.perm_erase found).map fun node => twin node.inode
  exact ((split.symm.trans matched.perm).trans nodes).cons_inv

/-- A node and its twin are removed. -/
theorem remove
    (formed : WritableStore.WellFormed
      { store with nodes := Ramfs.place.erase store.nodes inode })
    (found : store.findInode inode = some node)
    (done : Done (.removeNode path expected) blocks table (twin node.inode).slot none after) :
    Matches twin { store with nodes := Ramfs.place.erase store.nodes inode } after
      (table.set (twin node.inode).slot none) := by
  obtain ⟨listed, isKey⟩ := Placement.mem_of_find found
  have isKey : node.inode = inode := isKey
  constructor
  case formed => exact formed
  case volume => exact ⟨done.reads, (matched.volume.2.effect done.effect).2⟩
  case perm => exact matched.rest_perm found
  case twins =>
    intro other isOther
    obtain ⟨otherListed, differ⟩ := matched.of_mem_erase isOther
    refine (matched.twins other otherListed).mono rfl ?_
    refine done.others _ (matched.volume.2.slot_lt (matched.twin_mem otherListed)) ?_
    intro same
    exact differ (matched.slot_injective otherListed listed same ▸ isKey)
  case distinct =>
    exact fun left isLeft right isRight =>
      matched.distinct left (matched.of_mem_erase isLeft).1 right (matched.of_mem_erase isRight).1

/-- A node and its twin change together. -/
theorem change
    {edit : WritableNode → WritableNode} {changed : DirectoryEntry}
    (formed : WritableStore.WellFormed
      { store with nodes := Ramfs.place.change inode edit store.nodes })
    (found : store.findInode inode = some node)
    (sameInode : ∀ node, (edit node).inode = node.inode)
    (sameSlot : changed.slot = (twin node.inode).slot)
    (sameKey : changed.inode = (twin node.inode).inode)
    (done : Done call blocks table (twin node.inode).slot (some changed) after)
    (isTwin : Twin (linkOf twin) after (edit node) changed) :
    Matches (Function.update twin inode changed)
      { store with nodes := Ramfs.place.change inode edit store.nodes } after
      (table.set (twin node.inode).slot (some changed)) := by
  obtain ⟨listed, isKey⟩ := Placement.mem_of_find found
  have isKey : node.inode = inode := isKey
  subst isKey
  have notTmp := matched.inode_ne_tmp listed
  have members : ∀ other ∈ Ramfs.place.change node.inode edit store.nodes,
      other = edit node ∨ other ∈ store.nodes ∧ other.inode ≠ node.inode := by
    intro other isOther
    have inSet : other ∈ { other | other ∈ Ramfs.place.change node.inode edit store.nodes } :=
      isOther
    rw [Placement.setOf_change matched.formed.lists.nodup found] at inSet
    exact inSet
  have sameLink : ∀ inode, linkOf (Function.update twin node.inode changed) inode =
      linkOf twin inode := by
    intro inode
    by_cases isNode : inode = node.inode
    · rw [isNode, linkOf, linkOf, if_neg notTmp, if_neg notTmp, update_self, sameKey]
    · exact linkOf_update isNode
  have newTwin : Function.update twin node.inode changed (edit node).inode = changed := by
    rw [sameInode, update_self]
  obtain ⟨isSlot, formedTable⟩ := matched.volume.2.effect done.effect
  constructor
  case formed => exact formed
  case volume => exact ⟨done.reads, formedTable⟩
  case perm =>
    have inside : (twin node.inode).slot < table.length := matched.volume.2.length.symm ▸ isSlot
    have split := @Table.entries_set_perm table (twin node.inode).slot (some changed) inside
    have nodes := (@Placement.change_perm _ _ _ Ramfs.place _ _ _ _ edit found).map
      fun other => Function.update twin node.inode changed other.inode
    have others : (Ramfs.place.erase store.nodes node.inode).map
        (fun other => Function.update twin node.inode changed other.inode) =
          (Ramfs.place.erase store.nodes node.inode).map fun other => twin other.inode := by
      exact List.map_congr_left fun other isOther =>
        update_of_ne (matched.of_mem_erase isOther).2 _ _
    rw [List.map_cons, others, newTwin] at nodes
    exact split.trans (((matched.rest_perm found).cons changed).trans nodes.symm)
  case twins =>
    intro other isOther
    rcases members other isOther with rfl | ⟨otherListed, differ⟩
    · rw [newTwin]
      exact isTwin.mono (sameLink _) fun _ _ => rfl
    · rw [update_of_ne differ]
      refine (matched.twins other otherListed).mono (sameLink _) ?_
      refine done.others _ (matched.volume.2.slot_lt (matched.twin_mem otherListed)) ?_
      intro same
      exact differ (congrArg _ (matched.slot_injective otherListed listed same))
  case distinct =>
    have unequal : ∀ other ∈ store.nodes, other.inode ≠ node.inode →
        twin other.inode ≠ changed := by
      intro other otherListed differ same
      exact differ (congrArg _ (matched.slot_injective otherListed listed
        ((congrArg DirectoryEntry.slot same).trans sameSlot)))
    rw [← sameInode node] at members unequal
    exact sameInode node ▸ matched.update_injective members unequal

end Matches

end Fs
end Vantara
