import Vantara.Fs.RamFilesystem
import Vantara.Fs.VolumeRuns

/-!
# Twins in the two filesystems

A store below `/tmp` and a volume match if every node of the one has a twin in the
other, in the corresponding directory, with the same name, kind, length and data.
Paths that correspond then lead to twins.
-/

namespace Vantara
namespace Fs

open Foundation Ramfs Vantfs

/-- The path of the RAM filesystem for a path relative to `/tmp`. -/
def ramPath (relative : List Char) : List Char :=
  if relative = [] then tmpPath else tmpPrefix ++ relative

/-- The path of the persistent filesystem for a path relative to its root. -/
def volumePath (relative : List Char) : List Char :=
  '/' :: relative

/-! ## Corresponding paths -/

/-- The relative path of the directory, and the name. -/
theorem splitParentName_agrees (plain : relative.head? ≠ some '/') :
    (∃ left right, Ramfs.splitParentName (ramPath relative) = .error left ∧
      Vantfs.splitParentName (volumePath relative) = .error right) ∨
    ∃ directory name, Ramfs.splitParentName (ramPath relative) = .ok (ramPath directory, name) ∧
      Vantfs.splitParentName (volumePath relative) = .ok (volumePath directory, name) := by
  by_cases isRoot : relative = []
  · subst isRoot
    exact .inl ⟨.readOnly, .invalidPath, rfl, rfl⟩
  have ram : Ramfs.splitParentName (ramPath relative) =
      Fs.splitParentName (tmpPrefix ++ relative) := by
    rw [Ramfs.splitParentName, ramPath, if_neg isRoot, if_neg]
    simp
  have volume : Vantfs.splitParentName (volumePath relative) =
      Fs.splitParentName ('/' :: relative) := by
    rw [Vantfs.splitParentName, volumePath, if_neg]
    simp [isRoot]
  rw [ram, volume]
  obtain ⟨directory, name, leftSplit, rightSplit⟩ : ∃ directory name,
      splitLast (tmpPrefix ++ relative) = some (ramPath directory, name) ∧
        (splitLast ('/' :: relative) = some (volumePath directory, name) ∨
          directory = [] ∧ splitLast ('/' :: relative) = some ([], name)) := by
    rcases split_cases relative with noSlash | ⟨directory, name, noSlash, rfl⟩
    · exact ⟨[], relative, @splitLast_append _ tmpPath noSlash,
        .inr ⟨rfl, @splitLast_append _ [] noSlash⟩⟩
    · have nonempty : directory ≠ [] := by
        rintro rfl
        exact plain rfl
      refine ⟨directory, name, ?_, .inl ?_⟩
      · rw [ramPath, if_neg nonempty, ← List.append_assoc]
        exact splitLast_append noSlash
      · exact @splitLast_append _ (volumePath directory) noSlash
  have ramParent : ramPath directory ≠ [] := by
    rw [ramPath]
    split_ifs
    · decide
    · simp [tmpPrefix]
  have rightParent : Fs.splitParentName ('/' :: relative) =
      if asBytes name = [] then .error .invalidPath
      else if (asBytes name).length > maxNameLen then .error .nameTooLong
      else .ok (volumePath directory, asBytes name) := by
    rcases rightSplit with rightSplit | ⟨rfl, rightSplit⟩
    · rw [Fs.splitParentName, rightSplit]
      rfl
    · rw [Fs.splitParentName, rightSplit]
      rfl
  have leftParent : Fs.splitParentName (tmpPrefix ++ relative) =
      if asBytes name = [] then .error .invalidPath
      else if (asBytes name).length > maxNameLen then .error .nameTooLong
      else .ok (ramPath directory, asBytes name) := by
    rw [Fs.splitParentName, leftSplit]
    dsimp only
    rw [if_neg ramParent]
  rw [leftParent, rightParent]
  split_ifs
  · exact .inl ⟨_, _, rfl, rfl⟩
  · exact .inl ⟨_, _, rfl, rfl⟩
  · exact .inr ⟨directory, _, rfl, rfl⟩

theorem ramResolve_eq (store : WritableStore) :
    store.resolvePath (ramPath relative) =
      if relative = [] then some tmpInode
      else walk Ramfs.place store.nodes tmpInode (relative.splitOn '/') := by
  rw [WritableStore.resolvePath, ramPath]
  by_cases isRoot : relative = []
  · rw [if_pos isRoot, if_pos rfl, if_pos isRoot]
  · rw [if_neg isRoot, if_neg isRoot, if_neg]
    · have stripped : (tmpPrefix ++ relative).dropPrefix? tmpPrefix = some relative := by
        simp [List.dropPrefix?_eq_some_iff]
      rw [stripped]
    · simp [tmpPrefix, tmpPath]

theorem volumeResolve_eq (table : Table) :
    Vantfs.resolvePath table (volumePath relative) =
      if relative = [] then some rootInode
      else walk Vantfs.place table.entries rootInode (relative.splitOn '/') := by
  rw [Vantfs.resolvePath, volumePath]
  by_cases isRoot : relative = []
  · rw [if_pos (by rw [isRoot]), if_pos isRoot]
  · rw [if_neg (by simpa using isRoot), if_neg isRoot]
    have stripped : ('/' :: relative).dropPrefix? ['/'] = some relative := by
      simp [List.dropPrefix?_eq_some_iff]
    rw [stripped]

/-! ## The relation -/

/-- A node and its twin. -/
structure Twin
    (link : Nat → Nat)
    (blocks : Blocks) (node : WritableNode)
    (entry : DirectoryEntry) : Prop where
  parent : entry.parent = link node.parent
  text : entry.text = node.text
  fileType : entry.fileType = node.fileType
  len : entry.len = node.len
  data : node.fileType = .file → ∀ index < maxFileSize,
    content blocks entry.slot index = node.data index

/-- The inode of a twin, the two roots being twins. -/
def linkOf (twin : Nat → DirectoryEntry) (inode : Nat) : Nat :=
  if inode = tmpInode then rootInode else (twin inode).inode

/-- The store and the volume have the same nodes, up to their inodes and their order. -/
structure Matches
    (twin : Nat → DirectoryEntry)
    (store : WritableStore) (blocks : Blocks)
    (table : Table) : Prop where
  formed : store.WellFormed
  volume : IsVolume blocks table
  perm : table.entries.Perm (store.nodes.map fun node => twin node.inode)
  twins : ∀ node ∈ store.nodes, Twin (linkOf twin) blocks node (twin node.inode)
  distinct : ∀ left ∈ store.nodes, ∀ right ∈ store.nodes,
    twin left.inode = twin right.inode → left = right

/-- An inode of the store: that of `/tmp` or of a node. -/
def Known (store : WritableStore) (inode : Nat) : Prop :=
  inode = tmpInode ∨ ∃ node ∈ store.nodes, node.inode = inode

namespace Matches

variable {twin : Nat → DirectoryEntry} {store : WritableStore} {blocks : Blocks} {table : Table}
  (matched : Matches twin store blocks table)

include matched

theorem mem_iff : entry ∈ table.entries ↔ ∃ node ∈ store.nodes, twin node.inode = entry := by
  rw [matched.perm.mem_iff, List.mem_map]

theorem twin_mem (listed : node ∈ store.nodes) : twin node.inode ∈ table.entries :=
  matched.mem_iff.mpr ⟨node, listed, rfl⟩

theorem inode_ne_tmp (listed : node ∈ store.nodes) : node.inode ≠ tmpInode :=
  matched.formed.lists.tree.rootless node listed

theorem link_eq (listed : node ∈ store.nodes) : linkOf twin node.inode = (twin node.inode).inode :=
  if_neg (matched.inode_ne_tmp listed)

omit matched in
theorem link_tmp : linkOf twin tmpInode = rootInode :=
  if_pos rfl

/-- Different inodes have different twins. -/
theorem link_injective (knownLeft : Known store left) (knownRight : Known store right)
    (same : linkOf twin left = linkOf twin right) :
    left = right := by
  have notRoot : ∀ node ∈ store.nodes, (twin node.inode).inode ≠ rootInode := fun node listed =>
    matched.volume.2.tree.rootless _ (matched.twin_mem listed)
  rcases knownLeft with rfl | ⟨leftNode, isLeft, rfl⟩
  · rcases knownRight with rfl | ⟨rightNode, isRight, rfl⟩
    · rfl
    · rw [link_tmp, matched.link_eq isRight] at same
      exact absurd same.symm (notRoot _ isRight)
  · rcases knownRight with rfl | ⟨rightNode, isRight, rfl⟩
    · rw [link_tmp, matched.link_eq isLeft] at same
      exact absurd same (notRoot _ isLeft)
    · rw [matched.link_eq isLeft, matched.link_eq isRight] at same
      have sameEntry := matched.volume.2.tree.distinct _ (matched.twin_mem isLeft) _
        (matched.twin_mem isRight) same
      rw [matched.distinct _ isLeft _ isRight sameEntry]

theorem known_parent (listed : node ∈ store.nodes) : Known store node.parent := by
  rcases matched.formed.lists.tree.held node listed with isRoot | ⟨parent, isListed, isKey, -⟩
  · exact .inl isRoot
  · exact .inr ⟨parent, isListed, isKey⟩

/-- Twins have the same parents and names to look them up by. -/
theorem child_agrees (known : Known store parent) :
    Vantfs.child table (linkOf twin parent) name =
      (store.child parent name).map fun node => twin node.inode := by
  cases found : store.child parent name with
  | some node =>
    obtain ⟨listed, isParent, isName⟩ := Placement.mem_of_child found
    have isTwin := matched.twins node listed
    refine (matched.volume.2.tree.child_eq_some_iff).mpr ⟨matched.twin_mem listed, ?_, ?_⟩
    · exact isTwin.parent.trans (congrArg (linkOf twin) isParent)
    · exact isTwin.text.trans isName
  | none =>
    refine Placement.child_eq_none_iff.mpr fun entry isEntry isParent isName => ?_
    obtain ⟨node, listed, rfl⟩ := matched.mem_iff.mp isEntry
    have isTwin := matched.twins node listed
    have sameParent := matched.link_injective (matched.known_parent listed) known
      (isTwin.parent.symm.trans isParent)
    exact Placement.child_eq_none_iff.mp found node listed sameParent
      (isTwin.text.symm.trans isName)

theorem find_agrees (known : Known store inode) :
    Vantfs.findInode table (linkOf twin inode) =
      (store.findInode inode).map fun node => twin node.inode := by
  rcases known with rfl | ⟨node, listed, rfl⟩
  · have noNode : store.findInode tmpInode = none := by
      refine List.find?_eq_none.mpr fun node listed isTmp => ?_
      exact matched.inode_ne_tmp listed (of_decide_eq_true isTmp)
    have noEntry : Vantfs.findInode table rootInode = none := by
      refine List.find?_eq_none.mpr fun entry listed isRoot => ?_
      exact matched.volume.2.tree.rootless entry listed (of_decide_eq_true isRoot)
    rw [noNode, link_tmp, noEntry, Option.map_none]
  · have isNode : store.findInode node.inode = some node :=
      (Placement.finds_find matched.formed.lists.nodup _ _).mpr ⟨listed, rfl⟩
    rw [isNode, matched.link_eq listed, Option.map_some]
    exact (matched.volume.2.finds _ _).mpr ⟨matched.twin_mem listed, rfl⟩

theorem link_eq_root_iff (known : Known store inode) :
    linkOf twin inode = rootInode ↔ inode = tmpInode := by
  constructor
  · intro isRoot
    exact matched.link_injective known (.inl rfl) (isRoot.trans link_tmp.symm)
  · rintro rfl
    exact link_tmp

/-- Whether an inode is that of a directory. -/
theorem isDirectory_agrees (known : Known store inode) :
    (linkOf twin inode ≠ rootInode ∧
        isNoneOrNotDirectory Vantfs.place (Vantfs.findInode table (linkOf twin inode)) = true) ↔
      inode ≠ tmpInode ∧
        isNoneOrNotDirectory Ramfs.place (store.findInode inode) = true := by
  rw [Ne, matched.link_eq_root_iff known, matched.find_agrees known]
  refine and_congr_right fun _ => ?_
  cases found : store.findInode inode with
  | none => rfl
  | some node =>
    have isTwin := matched.twins node (Placement.mem_of_find found).1
    simp [isNoneOrNotDirectory, Vantfs.place, Ramfs.place, isTwin.fileType]

theorem walk_agrees (known : Known store start) :
    walk Vantfs.place table.entries (linkOf twin start) components =
        (walk Ramfs.place store.nodes start components).map (linkOf twin) ∧
      ∀ reached, walk Ramfs.place store.nodes start components = some reached →
        Known store reached := by
  induction components generalizing start with
  | nil =>
    refine ⟨rfl, ?_⟩
    rintro _ ⟨⟩
    exact known
  | cons component rest ih =>
    rw [walk, walk]
    by_cases isEmpty : component = []
    · rw [if_pos isEmpty, if_pos isEmpty]
      exact ⟨rfl, nofun⟩
    rw [if_neg isEmpty, if_neg isEmpty]
    have agrees := @child_agrees _ _ _ _ matched start (asBytes component) known
    rw [Vantfs.child] at agrees
    rw [agrees]
    cases found : store.child start (asBytes component) with
    | none =>
      rw [WritableStore.child] at found
      rw [found]
      exact ⟨rfl, nofun⟩
    | some node =>
      have listed := (Placement.mem_of_child found).1
      rw [WritableStore.child] at found
      rw [found]
      have next := @ih node.inode (.inr ⟨node, listed, rfl⟩)
      rw [matched.link_eq listed] at next
      exact next

/-- Corresponding paths lead to twins. -/
theorem resolve_agrees (relative : List Char) :
    Vantfs.resolvePath table (volumePath relative) =
        (store.resolvePath (ramPath relative)).map (linkOf twin) ∧
      ∀ reached, store.resolvePath (ramPath relative) = some reached →
        Known store reached := by
  rw [ramResolve_eq, volumeResolve_eq]
  split_ifs
  · refine ⟨by rw [Option.map_some, link_tmp], ?_⟩
    rintro _ ⟨⟩
    exact .inl rfl
  · have walked := @walk_agrees _ _ _ _ matched tmpInode (relative.splitOn '/') (.inl rfl)
    rw [link_tmp] at walked
    exact walked

theorem isDescendant_agrees (known : Known store candidate) (knownAncestor : Known store ancestor) :
    Vantfs.isDescendant table (linkOf twin candidate) (linkOf twin ancestor) =
      store.isDescendant candidate ancestor := by
  have sameFuel : table.entries.length = store.nodes.length := by
    rw [matched.perm.length_eq, List.length_map]
  rw [Vantfs.isDescendant, WritableStore.isDescendant, sameFuel]
  generalize store.nodes.length + 1 = fuel
  induction fuel generalizing candidate with
  | zero => rfl
  | succ fuel ih =>
    have rootIff : linkOf twin candidate = Vantfs.place.root ↔ candidate = Ramfs.place.root :=
      matched.link_eq_root_iff known
    have ancestorIff : linkOf twin candidate = linkOf twin ancestor ↔ candidate = ancestor :=
      ⟨matched.link_injective known knownAncestor, congrArg _⟩
    rw [Placement.descends, Placement.descends]
    simp only [rootIff, ancestorIff]
    split_ifs
    · rfl
    · rfl
    · rw [matched.find_agrees known]
      cases found : store.findInode candidate with
      | none => rfl
      | some node =>
        have listed := (Placement.mem_of_find found).1
        have next := ih (matched.known_parent listed)
        rw [← (matched.twins node listed).parent] at next
        exact next

end Matches

end Fs
end Vantara
