import Mathlib.Data.List.FinRange
import Mathlib.Data.List.Perm.Subperm

/-!
# Trees of named nodes

A tree is a set of nodes.  Each node knows its key, the key of its parent and its
name, and only directories have children; the root is a key that no node has.
The tree is grounded if every chain of parents ends at the root.
-/

namespace Foundation

/-- Where a node is in a tree. -/
structure Placement (α : Type u) (κ : Type v) (ν : Type w) where
  key : α → κ
  parent : α → κ
  name : α → ν
  directory : α → Bool
  root : κ

namespace Placement

variable {α : Type u} {κ : Type v} {ν : Type w} {place : Placement α κ ν} {nodes after : Set α}
  {start : κ}

/-- A key from which that many steps to parents lead to the root. -/
inductive Depth (place : Placement α κ ν) (nodes : Set α) : Nat → κ → Prop
  | root : Depth place nodes 0 place.root
  | step {node depth} :
      node ∈ nodes →
      Depth place nodes depth (place.parent node) →
      Depth place nodes (depth + 1) (place.key node)

/-- Whether a key is that of a directory or of the root. -/
def Holds (place : Placement α κ ν) (nodes : Set α) (key : κ) : Prop :=
  key = place.root ∨ ∃ node ∈ nodes, place.key node = key ∧ place.directory node = true

/-- The nodes form a tree. -/
structure IsTree (place : Placement α κ ν) (nodes : Set α) : Prop where
  distinct : ∀ node ∈ nodes, ∀ other ∈ nodes, place.key node = place.key other → node = other
  rootless : ∀ node ∈ nodes, place.key node ≠ place.root
  named : ∀ node ∈ nodes, ∀ other ∈ nodes, place.parent node = place.parent other →
    place.name node = place.name other → node = other
  held : ∀ node ∈ nodes, place.Holds nodes (place.parent node)
  grounded : ∀ node ∈ nodes, ∃ depth, place.Depth nodes depth (place.key node)

theorem isTree_empty : place.IsTree (∅ : Set α) :=
  ⟨nofun, nofun, nofun, nofun, nofun⟩

namespace IsTree

/-- The number of steps to the root is determined. -/
theorem depth_unique
    (tree : place.IsTree nodes)
    (left : place.Depth nodes first start)
    (right : place.Depth nodes second start) :
    first = second := by
  induction left generalizing second with
  | root =>
    generalize isRoot : place.root = key at right
    cases right with
    | root => rfl
    | step found => exact absurd isRoot.symm (tree.rootless _ found)
  | @step node depth found _ ih =>
    generalize isKey : place.key node = key at right
    cases right with
    | root => exact absurd isKey (tree.rootless _ found)
    | step hasOther rest =>
      obtain rfl := tree.distinct _ found _ hasOther isKey
      rw [ih rest]

/-- Whatever a directory or the root holds is grounded. -/
theorem grounded_of_holds (tree : place.IsTree nodes) (holds : place.Holds nodes start) :
    ∃ depth, place.Depth nodes depth start := by
  rcases holds with rfl | ⟨node, found, rfl, -⟩
  · exact ⟨0, .root⟩
  · exact tree.grounded node found

end IsTree

/-- On the way to the root there is a node at every smaller depth. -/
theorem Depth.exists_above
    (deep : place.Depth nodes depth start)
    (positive : 0 < shallower)
    (smaller : shallower ≤ depth) :
    ∃ node ∈ nodes, place.Depth nodes shallower (place.key node) := by
  induction deep with
  | root => omega
  | @step node depth found rest ih =>
    by_cases isSame : shallower = depth + 1
    · exact ⟨node, found, isSame ▸ .step found rest⟩
    · exact ih (by omega)

/-- No chain of parents is longer than the number of nodes. -/
theorem IsTree.depth_le {items : List α}
    (tree : place.IsTree { node | node ∈ items })
    (deep : place.Depth { node | node ∈ items } depth start) :
    depth ≤ items.length := by
  choose node listed isAt using fun index : Fin depth =>
    deep.exists_above (Nat.succ_pos index) (Nat.succ_le_of_lt index.isLt)
  have distinct : ((List.finRange depth).map node).Nodup := by
    refine (List.nodup_finRange depth).map fun left right same => ?_
    have leftAt := isAt left
    rw [same] at leftAt
    exact Fin.ext (Nat.succ.inj (tree.depth_unique leftAt (isAt right)))
  have inside : (List.finRange depth).map node ⊆ items := by
    intro found isFound
    obtain ⟨index, -, rfl⟩ := List.mem_map.mp isFound
    exact listed index
  simpa using (distinct.subperm inside).length_le

/-! ## Walking to the root -/

/-- Follow parents from a key until an ancestor or the root is met, or a key that no
node has; `none` if the fuel does not suffice. -/
def descends [DecidableEq κ] (place : Placement α κ ν) (find : κ → Option α) :
    Nat → κ → κ → Option Bool
  | 0, _, _ => none
  | fuel + 1, candidate, ancestor =>
    if candidate = place.root then some false
    else if candidate = ancestor then some true
    else
      match find candidate with
      | none => some false
      | some node => place.descends find fuel (place.parent node) ancestor

section Walk

variable [DecidableEq κ] {find : κ → Option α}

/-- A look-up that finds exactly the nodes. -/
def Finds (place : Placement α κ ν) (nodes : Set α) (find : κ → Option α) : Prop :=
  ∀ key node, find key = some node ↔ node ∈ nodes ∧ place.key node = key

/-- The walk ends after as many steps as the start is deep. -/
theorem IsTree.descends_isSome
    (tree : place.IsTree nodes)
    (finds : place.Finds nodes find)
    (deep : place.Depth nodes depth candidate)
    (enough : depth < fuel) :
    ∃ answer, place.descends find fuel candidate ancestor = some answer := by
  induction deep generalizing fuel with
  | root =>
    obtain ⟨fuel, rfl⟩ := Nat.exists_eq_add_of_lt enough
    exact ⟨false, by rw [descends, if_pos rfl]⟩
  | @step node depth found rest ih =>
    cases fuel with
    | zero => omega
    | succ fuel =>
      rw [descends, if_neg (tree.rootless _ found)]
      split_ifs
      · exact ⟨true, rfl⟩
      · rw [(finds _ node).mpr ⟨found, rfl⟩]
        exact ih (by omega)

/-- From any key the walk ends with as much fuel as there are nodes, and one step
more. -/
theorem IsTree.descends_total {items : List α}
    (tree : place.IsTree { node | node ∈ items })
    (finds : place.Finds { node | node ∈ items } find)
    (candidate ancestor : κ) :
    ∃ answer, place.descends find (items.length + 1) candidate ancestor = some answer := by
  by_cases isRoot : candidate = place.root
  · exact ⟨false, by rw [descends, if_pos isRoot]⟩
  cases found : find candidate with
  | none =>
    rw [descends, if_neg isRoot]
    split_ifs
    · exact ⟨true, rfl⟩
    · exact ⟨false, by rw [found]⟩
  | some node =>
    obtain ⟨listed, rfl⟩ := (finds _ node).mp found
    obtain ⟨depth, deep⟩ := tree.grounded node listed
    exact tree.descends_isSome finds deep (Nat.lt_succ_of_le (tree.depth_le deep))

/-- A walk that does not meet a node stays grounded without it. -/
theorem IsTree.depth_of_avoids
    (tree : place.IsTree nodes)
    (finds : place.Finds nodes find)
    (keeps : ∀ node ∈ nodes, place.key node ≠ ancestor → node ∈ after)
    (deep : place.Depth nodes depth candidate)
    (avoids : place.descends find fuel candidate ancestor = some false) :
    place.Depth after depth candidate := by
  induction deep generalizing fuel with
  | root => exact .root
  | @step node depth found rest ih =>
    cases fuel with
    | zero => cases avoids
    | succ fuel =>
      rw [descends, if_neg (tree.rootless _ found)] at avoids
      by_cases isAncestor : place.key node = ancestor
      · rw [if_pos isAncestor] at avoids
        cases avoids
      rw [if_neg isAncestor] at avoids
      rw [(finds _ node).mpr ⟨found, rfl⟩] at avoids
      exact .step (keeps node found isAncestor) (ih avoids)

end Walk

/-! ## Changes of a tree -/

namespace IsTree

/-- A new node under a directory. -/
theorem insert
    (tree : place.IsTree nodes)
    (fresh : ∀ old ∈ nodes, place.key old ≠ place.key node)
    (notRoot : place.key node ≠ place.root)
    (unused : ∀ old ∈ nodes, place.parent old = place.parent node →
      place.name old ≠ place.name node)
    (held : place.Holds nodes (place.parent node)) :
    place.IsTree (Insert.insert node nodes) := by
  have mono : ∀ {depth key}, place.Depth nodes depth key →
      place.Depth (Insert.insert node nodes) depth key := by
    intro depth key deep
    induction deep with
    | root => exact .root
    | step found _ ih =>
      exact .step (Set.mem_insert_of_mem _ found) ih
  have holdsMono : ∀ {key}, place.Holds nodes key → place.Holds (Insert.insert node nodes) key := by
    rintro key (rfl | ⟨old, found, rest⟩)
    · exact .inl rfl
    · exact .inr ⟨old, Set.mem_insert_of_mem _ found, rest⟩
  constructor
  case distinct =>
    rintro left (rfl | isLeft) right (rfl | isRight) same
    · rfl
    · exact absurd same.symm (fresh _ isRight)
    · exact absurd same (fresh _ isLeft)
    · exact tree.distinct _ isLeft _ isRight same
  case rootless =>
    rintro old (rfl | isOld)
    · exact notRoot
    · exact tree.rootless _ isOld
  case named =>
    rintro left (rfl | isLeft) right (rfl | isRight) sameParent sameName
    · rfl
    · exact absurd sameName.symm (unused _ isRight sameParent.symm)
    · exact absurd sameName (unused _ isLeft sameParent)
    · exact tree.named _ isLeft _ isRight sameParent sameName
  case held =>
    rintro old (rfl | isOld)
    · exact holdsMono held
    · exact holdsMono (tree.held _ isOld)
  case grounded =>
    rintro old (rfl | isOld)
    · obtain ⟨depth, deep⟩ := tree.grounded_of_holds held
      exact ⟨depth + 1, .step (Set.mem_insert _ _) (mono deep)⟩
    · obtain ⟨depth, deep⟩ := tree.grounded _ isOld
      exact ⟨depth, mono deep⟩

/-- A node that is no parent is taken out. -/
theorem remove
    (tree : place.IsTree nodes)
    (childless : ∀ child ∈ nodes, place.parent child ≠ gone) :
    place.IsTree { node | node ∈ nodes ∧ place.key node ≠ gone } := by
  have keeps : ∀ {depth start}, place.Depth nodes depth start → start ≠ gone →
      place.Depth { node | node ∈ nodes ∧ place.key node ≠ gone } depth start := by
    intro depth start deep
    induction deep with
    | root => exact fun _ => .root
    | step found _ ih =>
      exact fun differ => .step ⟨found, differ⟩ (ih (childless _ found))
  constructor
  case distinct => exact fun left isLeft right isRight => tree.distinct _ isLeft.1 _ isRight.1
  case rootless => exact fun old isOld => tree.rootless _ isOld.1
  case named => exact fun left isLeft right isRight => tree.named _ isLeft.1 _ isRight.1
  case held =>
    intro old isOld
    rcases tree.held _ isOld.1 with isRoot | ⟨parent, found, isParent, isDirectory⟩
    · exact .inl isRoot
    · refine .inr ⟨parent, ⟨found, ?_⟩, isParent, isDirectory⟩
      rw [isParent]
      exact childless _ isOld.1
  case grounded =>
    intro old isOld
    obtain ⟨depth, deep⟩ := tree.grounded _ isOld.1
    exact ⟨depth, keeps deep isOld.2⟩

/-- A node takes the place of another one with its key, and no chain of parents is lost. -/
theorem replace
    (tree : place.IsTree nodes)
    (found : old ∈ nodes)
    (sameKey : place.key changed = place.key old)
    (sameKind : place.directory changed = place.directory old)
    (unused : ∀ other ∈ nodes, place.key other ≠ place.key old →
      place.parent other = place.parent changed → place.name other ≠ place.name changed)
    (held : place.Holds nodes (place.parent changed))
    (isAfter : after =
      Insert.insert changed { node | node ∈ nodes ∧ place.key node ≠ place.key old })
    (deeper : ∀ {depth start}, place.Depth nodes depth start →
      ∃ depth, place.Depth after depth start) :
    place.IsTree after := by
  subst isAfter
  have holds : ∀ {key}, place.Holds nodes key → place.Holds
      (Insert.insert changed { node | node ∈ nodes ∧ place.key node ≠ place.key old }) key := by
    rintro key (rfl | ⟨node, isNode, rfl, isDirectory⟩)
    · exact .inl rfl
    · by_cases isOld : place.key node = place.key old
      · obtain rfl := tree.distinct _ isNode _ found isOld
        exact .inr ⟨changed, .inl rfl, sameKey, sameKind.trans isDirectory⟩
      · exact .inr ⟨node, .inr ⟨isNode, isOld⟩, rfl, isDirectory⟩
  constructor
  case distinct =>
    rintro left (rfl | isLeft) right (rfl | isRight) same
    · rfl
    · exact absurd (same.symm.trans sameKey) isRight.2
    · exact absurd (same.trans sameKey) isLeft.2
    · exact tree.distinct _ isLeft.1 _ isRight.1 same
  case rootless =>
    rintro node (rfl | isNode)
    · exact sameKey ▸ tree.rootless _ found
    · exact tree.rootless _ isNode.1
  case named =>
    rintro left (rfl | isLeft) right (rfl | isRight) sameParent sameName
    · rfl
    · exact absurd sameName.symm (unused _ isRight.1 isRight.2 sameParent.symm)
    · exact absurd sameName (unused _ isLeft.1 isLeft.2 sameParent)
    · exact tree.named _ isLeft.1 _ isRight.1 sameParent sameName
  case held =>
    rintro node (rfl | isNode)
    · exact holds held
    · exact holds (tree.held _ isNode.1)
  case grounded =>
    rintro node (rfl | isNode)
    · obtain ⟨depth, deep⟩ := tree.grounded _ found
      exact sameKey ▸ deeper deep
    · obtain ⟨depth, deep⟩ := tree.grounded _ isNode.1
      exact deeper deep

/-- A node gets another parent and another name, and its new parent is not below
it. -/
theorem move
    [DecidableEq κ] {find : κ → Option α}
    (tree : place.IsTree nodes)
    (finds : place.Finds nodes find)
    (found : old ∈ nodes)
    (sameKey : place.key moved = place.key old)
    (sameKind : place.directory moved = place.directory old)
    (unused : ∀ other ∈ nodes, place.parent other = place.parent moved →
      place.name other ≠ place.name moved)
    (held : place.Holds nodes (place.parent moved))
    (avoids : place.descends find fuel (place.parent moved) (place.key old) = some false) :
    place.IsTree
      (Insert.insert moved { node | node ∈ nodes ∧ place.key node ≠ place.key old }) := by
  let after : Set α := Insert.insert moved { node | node ∈ nodes ∧ place.key node ≠ place.key old }
  have keeps : ∀ node ∈ nodes, place.key node ≠ place.key old → node ∈ after :=
    fun node isNode differ => .inr ⟨isNode, differ⟩
  obtain ⟨depth, parentDeep⟩ := tree.grounded_of_holds held
  have movedDeep : place.Depth after (depth + 1) (place.key old) :=
    sameKey ▸ .step (.inl rfl) (tree.depth_of_avoids finds keeps parentDeep avoids)
  refine tree.replace found sameKey sameKind (fun other isOther _ => unused other isOther) held
    rfl ?_
  -- A chain that passed through the node now continues from its new parent.
  intro depth start deep
  induction deep with
  | root => exact ⟨0, .root⟩
  | @step node depth isNode _ ih =>
    by_cases isOld : place.key node = place.key old
    · exact ⟨_, isOld ▸ movedDeep⟩
    · obtain ⟨later, deeper⟩ := ih
      exact ⟨later + 1, .step (keeps node isNode isOld) deeper⟩

/-- A node changes in what its place does not depend on. -/
theorem update
    (tree : place.IsTree nodes)
    (found : old ∈ nodes)
    (sameKey : place.key changed = place.key old)
    (sameParent : place.parent changed = place.parent old)
    (sameName : place.name changed = place.name old)
    (sameKind : place.directory changed = place.directory old) :
    place.IsTree
      (Insert.insert changed { node | node ∈ nodes ∧ place.key node ≠ place.key old }) := by
  refine tree.replace found sameKey sameKind (fun other isOther differ ofParent ofName => ?_)
    (sameParent ▸ tree.held _ found) rfl fun {depth start} deep => ⟨depth, ?_⟩
  · exact differ (congrArg place.key
      (tree.named _ isOther _ found (ofParent.trans sameParent) (ofName.trans sameName)))
  · -- Every node has a stand-in in the same place.
    induction deep with
    | root => exact .root
    | @step node depth isNode _ ih =>
      by_cases isOld : place.key node = place.key old
      · obtain rfl := tree.distinct _ isNode _ found isOld
        exact (congrArg (place.Depth _ _) sameKey).mp (.step (.inl rfl) (sameParent.symm ▸ ih))
      · exact .step (.inr ⟨isNode, isOld⟩) ih

end IsTree

/-! ## Lists of nodes -/

section Lists

variable [DecidableEq κ] {items : List α}

/-- The first node with a key. -/
def find (place : Placement α κ ν) (items : List α) (key : κ) : Option α :=
  items.find? fun node => place.key node = key

/-- The first node with a parent and a name. -/
def child [DecidableEq ν] (place : Placement α κ ν) (items : List α) (parent : κ) (name : ν) :
    Option α :=
  items.find? fun node => place.parent node = parent && place.name node = name

/-- Change the first node with a key. -/
def change (place : Placement α κ ν) (key : κ) (edit : α → α) : List α → List α
  | [] => []
  | node :: rest =>
    if place.key node = key then edit node :: rest else node :: place.change key edit rest

/-- The list without the first node with a key. -/
def erase (place : Placement α κ ν) (items : List α) (key : κ) : List α :=
  items.eraseP fun node => place.key node = key

/-- A list of nodes with distinct keys that form a tree. -/
structure ListsTree (place : Placement α κ ν) (items : List α) : Prop where
  nodup : (items.map place.key).Nodup
  tree : place.IsTree { node | node ∈ items }

theorem find_isSome_of_mem (listed : node ∈ items) (isKey : place.key node = start) :
    ∃ found, place.find items start = some found := by
  have isSome : (place.find items start).isSome = true :=
    List.find?_isSome.mpr ⟨node, listed, decide_eq_true isKey⟩
  exact Option.isSome_iff_exists.mp isSome

theorem mem_of_find (found : place.find items start = some node) :
    node ∈ items ∧ place.key node = start :=
  ⟨List.mem_of_find?_eq_some found, of_decide_eq_true (List.find?_some found :)⟩

theorem mem_of_child [DecidableEq ν] {name : ν} (found : place.child items start name = some node) :
    node ∈ items ∧ place.parent node = start ∧ place.name node = name := by
  have matched := List.find?_some found
  rw [Bool.and_eq_true, decide_eq_true_eq, decide_eq_true_eq] at matched
  exact ⟨List.mem_of_find?_eq_some found, matched⟩

theorem child_eq_none_iff [DecidableEq ν] {name : ν} :
    place.child items start name = none ↔
      ∀ node ∈ items, place.parent node = start → place.name node ≠ name := by
  simp [child, List.find?_eq_none]

/-- With distinct keys the first node with a key is the only one. -/
theorem finds_find (nodup : (items.map place.key).Nodup) :
    place.Finds { node | node ∈ items } (place.find items) := by
  intro key node
  constructor
  · exact mem_of_find
  · rintro ⟨listed, isKey⟩
    obtain ⟨found, isFound⟩ := find_isSome_of_mem listed isKey
    obtain ⟨foundListed, foundKey⟩ := mem_of_find isFound
    rw [isFound, List.inj_on_of_nodup_map nodup foundListed listed (foundKey.trans isKey.symm)]

/-- In a tree the first node with a parent and a name is the only one. -/
theorem IsTree.child_eq_some_iff
    [DecidableEq ν] {name : ν}
    (tree : place.IsTree { node | node ∈ items }) :
    place.child items start name = some node ↔
      node ∈ items ∧ place.parent node = start ∧ place.name node = name := by
  constructor
  · exact mem_of_child
  · rintro ⟨listed, isParent, isName⟩
    cases found : place.child items start name with
    | none => exact absurd isName (child_eq_none_iff.mp found node listed isParent)
    | some other =>
      obtain ⟨otherListed, otherParent, otherName⟩ := mem_of_child found
      rw [tree.named _ otherListed _ listed (otherParent.trans isParent.symm)
        (otherName.trans isName.symm)]

theorem map_key_change {edit : α → α} (keeps : ∀ node, place.key (edit node) = place.key node) :
    (place.change start edit items).map place.key = items.map place.key := by
  induction items with
  | nil => rfl
  | cons node rest ih =>
    rw [change]
    split_ifs
    · rw [List.map_cons, List.map_cons, keeps]
    · rw [List.map_cons, List.map_cons, ih]

theorem length_change {edit : α → α} : (place.change start edit items).length = items.length := by
  induction items with
  | nil => rfl
  | cons node rest ih =>
    rw [change]
    split_ifs
    · rfl
    · rw [List.length_cons, List.length_cons, ih]

/-- After a change the nodes are the changed one and all others. -/
theorem setOf_change
    {edit : α → α}
    (nodup : (items.map place.key).Nodup)
    (found : place.find items start = some old) :
    { node | node ∈ place.change start edit items } =
      Insert.insert (edit old) { node | node ∈ items ∧ place.key node ≠ start } := by
  induction items with
  | nil => cases found
  | cons head rest ih =>
    rw [List.map_cons, List.nodup_cons] at nodup
    rw [find, List.find?_cons] at found
    by_cases isKey : place.key head = start
    · rw [decide_eq_true isKey] at found
      cases found
      have others : ∀ node ∈ rest, place.key node ≠ start := fun node listed same =>
        nodup.1 (List.mem_map.mpr ⟨node, listed, same.trans isKey.symm⟩)
      ext node
      simp only [change, if_pos isKey, Set.mem_ofPred_eq, List.mem_cons, Set.mem_insert_iff]
      grind
    · rw [decide_eq_false isKey] at found
      have rest := ih nodup.2 found
      ext node
      have atNode := Set.ext_iff.mp rest node
      simp only [Set.mem_ofPred_eq, Set.mem_insert_iff] at atNode
      simp only [change, if_neg isKey, Set.mem_ofPred_eq, List.mem_cons, Set.mem_insert_iff]
      grind

/-- After an erasure the nodes are all others. -/
theorem setOf_erase (nodup : (items.map place.key).Nodup) :
    { node | node ∈ place.erase items start } =
      { node | node ∈ items ∧ place.key node ≠ start } := by
  induction items with
  | nil => simp [erase]
  | cons head rest ih =>
    rw [List.map_cons, List.nodup_cons] at nodup
    have atRest := Set.ext_iff.mp (ih nodup.2)
    ext node
    have atNode := atRest node
    simp only [erase, Set.mem_ofPred_eq] at atNode
    simp only [erase, Set.mem_ofPred_eq, List.eraseP_cons]
    by_cases isKey : place.key head = start
    · have others : ∀ node ∈ rest, place.key node ≠ start := fun node listed same =>
        nodup.1 (List.mem_map.mpr ⟨node, listed, same.trans isKey.symm⟩)
      simp only [isKey, decide_true, cond_true, List.mem_cons]
      grind
    · simp only [isKey, decide_false, cond_false, List.mem_cons, atNode]
      grind

/-- A node that is found and the others. -/
theorem perm_erase (found : place.find items start = some old) :
    items.Perm (old :: place.erase items start) := by
  induction items with
  | nil => cases found
  | cons head rest ih =>
    rw [find, List.find?_cons] at found
    rw [erase, List.eraseP_cons]
    by_cases isKey : place.key head = start
    · simp only [isKey, decide_true, Option.some.injEq] at found
      subst found
      simp only [isKey, decide_true, cond_true, List.Perm.refl]
    · simp only [isKey, decide_false] at found
      simp only [isKey, decide_false, cond_false]
      exact ((ih found).cons head).trans (.swap ..)

/-- A node that is changed and the others. -/
theorem change_perm {edit : α → α} (found : place.find items start = some old) :
    (place.change start edit items).Perm (edit old :: place.erase items start) := by
  induction items with
  | nil => cases found
  | cons head rest ih =>
    rw [find, List.find?_cons] at found
    rw [erase, List.eraseP_cons, change]
    by_cases isKey : place.key head = start
    · simp only [isKey, decide_true, Option.some.injEq] at found
      subst found
      simp only [isKey, decide_true, cond_true, if_true, List.Perm.refl]
    · simp only [isKey, decide_false] at found
      simp only [isKey, decide_false, cond_false, if_false]
      exact ((ih found).cons head).trans (.swap ..)

namespace ListsTree

variable (lists : place.ListsTree items)

include lists

/-- A new node at the end. -/
theorem push
    [DecidableEq ν]
    (fresh : ∀ old ∈ items, place.key old ≠ place.key node)
    (notRoot : place.key node ≠ place.root)
    (unused : place.child items (place.parent node) (place.name node) = none)
    (held : place.Holds { node | node ∈ items } (place.parent node)) :
    place.ListsTree (items ++ [node]) := by
  constructor
  · rw [List.map_append, List.nodup_append]
    refine ⟨lists.nodup, List.nodup_singleton _, ?_⟩
    intro left isLeft right isRight same
    obtain ⟨old, listed, rfl⟩ := List.mem_map.mp isLeft
    rw [List.mem_singleton.mp isRight] at same
    exact fresh old listed same
  · have nodes : { old | old ∈ items ++ [node] } = Insert.insert node { old | old ∈ items } := by
      ext old
      simp [or_comm]
    rw [nodes]
    exact lists.tree.insert fresh notRoot (child_eq_none_iff.mp unused) held

/-- A node without children is taken out. -/
theorem erase (childless : ∀ child ∈ items, place.parent child ≠ start) :
    place.ListsTree (place.erase items start) := by
  constructor
  · exact lists.nodup.sublist (List.eraseP_sublist.map _)
  · rw [setOf_erase lists.nodup]
    exact lists.tree.remove childless

/-- A node gets another parent, which is not below it, and another name. -/
theorem move
    [DecidableEq ν] {edit : α → α}
    (found : place.find items start = some old)
    (sameKey : ∀ node, place.key (edit node) = place.key node)
    (sameKind : place.directory (edit old) = place.directory old)
    (unused : place.child items (place.parent (edit old)) (place.name (edit old)) = none)
    (held : place.Holds { node | node ∈ items } (place.parent (edit old)))
    (avoids : place.descends (place.find items) fuel (place.parent (edit old)) start =
      some false) :
    place.ListsTree (place.change start edit items) := by
  obtain ⟨listed, rfl⟩ := mem_of_find found
  constructor
  · rw [map_key_change sameKey]
    exact lists.nodup
  · rw [setOf_change lists.nodup found]
    exact lists.tree.move (finds_find lists.nodup) listed (sameKey old) sameKind
      (child_eq_none_iff.mp unused) held avoids

/-- A node changes in what its place does not depend on. -/
theorem update
    {edit : α → α}
    (found : place.find items start = some old)
    (sameKey : ∀ node, place.key (edit node) = place.key node)
    (sameParent : place.parent (edit old) = place.parent old)
    (sameName : place.name (edit old) = place.name old)
    (sameKind : place.directory (edit old) = place.directory old) :
    place.ListsTree (place.change start edit items) := by
  obtain ⟨listed, rfl⟩ := mem_of_find found
  constructor
  · rw [map_key_change sameKey]
    exact lists.nodup
  · rw [setOf_change lists.nodup found]
    exact lists.tree.update listed (sameKey old) sameParent sameName sameKind

end ListsTree

end Lists

end Placement
end Foundation
