import Vantara.Fs.Backend

/-!
# The writable store of the RAM filesystem

The nodes below `/tmp` and the operations on them, each with the errors it can
answer.  A store is unchanged by an operation that fails.  The walk to the root in
`is_descendant` is a loop without a bound, so `rename` has no value where that loop
does not end.
-/

namespace Vantara
namespace Fs
namespace Ramfs

open Foundation

/-- The most nodes, the inode of `/tmp`, and the first one below it. -/
def maxWritableNodes : Nat := 32
def tmpInode : Nat := 3
def firstWritableInode : Nat := 10000

/-- A node; its arrays are given by index, and `data` has 1024 bytes. -/
structure WritableNode where
  inode : Nat
  parent : Nat
  name : List UInt8
  nameLen : Nat
  fileType : FileType
  data : Nat → UInt8
  len : Nat

namespace WritableNode

/-- A node without data. -/
def new (inode parent : Nat) (name : List UInt8) (fileType : FileType) : WritableNode where
  inode := inode
  parent := parent
  name := padName name
  nameLen := name.length
  fileType := fileType
  data := fun _ => 0
  len := 0

/-- The bytes of `fn name(&self) -> &str`. -/
def text (node : WritableNode) : List UInt8 :=
  fromUtf8 (node.name.take node.nameLen)

/-- Bytes are copied into the data at an offset. -/
def copyIn (node : WritableNode) (offset : Nat) (source : List UInt8) : WritableNode :=
  { node with
    data := fun index =>
      if offset ≤ index ∧ index < offset + source.length then source.getD (index - offset) 0
      else node.data index
    len := max node.len (offset + source.length) }

/-- The node gets a new parent and name. -/
def moveTo (node : WritableNode) (parent : Nat) (name : List UInt8) : WritableNode :=
  { node with parent, name := padName name, nameLen := name.length }

end WritableNode

/-- The nodes below `/tmp`, and the next inode. -/
structure WritableStore where
  nodes : List WritableNode
  nextInode : Nat

/-- Where the nodes of the store are. -/
def place : Placement WritableNode Nat (List UInt8) where
  key := WritableNode.inode
  parent := WritableNode.parent
  name := WritableNode.text
  directory node := node.fileType = .directory
  root := tmpInode

/-- Where the writable nodes are. -/
def tmpPath : List Char := "/tmp".toList
def tmpPrefix : List Char := "/tmp/".toList

/-- `split_parent_name` of the RAM filesystem. -/
def splitParentName (path : List Char) : Except FsError (List Char × List UInt8) :=
  if ¬ tmpPrefix.isPrefixOf path then .error .readOnly else Fs.splitParentName path

namespace WritableStore

variable (store : WritableStore)

/-- The store at first. -/
def new : WritableStore := ⟨[], firstWritableInode⟩

/-- The node in a directory that has a name. -/
def child (parent : Nat) (name : List UInt8) : Option WritableNode :=
  place.child store.nodes parent name

/-- The node with an inode. -/
def findInode (inode : Nat) : Option WritableNode :=
  place.find store.nodes inode

/-- The inode of a path. -/
def resolvePath (path : List Char) : Option Nat :=
  if path = tmpPath then some tmpInode
  else
    match path.dropPrefix? tmpPrefix with
    | none => none
    | some relative => walk place store.nodes tmpInode (relative.splitOn '/')

/-- The loop ends if it does within one step more than there are nodes. -/
def isDescendant (candidate ancestor : Nat) : Option Bool :=
  place.descends store.findInode (store.nodes.length + 1) candidate ancestor

/-- Create a file or a directory. -/
def create (path : List Char) (fileType : FileType) : Except FsError (Nat × WritableStore) :=
  match splitParentName path with
  | .error error => .error error
  | .ok (parentPath, name) =>
    match store.resolvePath parentPath with
    | none => .error .notFound
    | some parent =>
      if parent ≠ tmpInode ∧ isNoneOrNotDirectory place (store.findInode parent) then
        .error .notDirectory
      else if (store.child parent name).isSome then .error .alreadyExists
      else if store.nodes.length = maxWritableNodes then .error .noSpace
      else if store.nextInode + 1 ≥ 2 ^ 64 then .error .noSpace
      else
        .ok (store.nextInode,
          { nodes := store.nodes ++ [.new store.nextInode parent name fileType]
            nextInode := store.nextInode + 1 })

/-- Write bytes to a file. -/
def write (inode offset : Nat) (source : List UInt8) : Except FsError (Nat × WritableStore) :=
  match store.findInode inode with
  | none => .error .notFound
  | some node =>
    if node.fileType ≠ .file then .error .isDirectory
    else if offset + source.length ≥ 2 ^ 64 then .error .fileTooLarge
    else if offset + source.length > maxFileSize then .error .fileTooLarge
    else
      .ok (source.length,
        { store with nodes := place.change inode (·.copyIn offset source) store.nodes })

/-- Remove a node of the expected type. -/
def remove (path : List Char) (expected : FileType) : Except FsError (Nat × WritableStore) :=
  match store.resolvePath path with
  | none => .error .notFound
  | some inode =>
    if inode = tmpInode then .error .readOnly
    else
      match store.findInode inode with
      | none => .error .notFound
      | some node =>
        if node.fileType ≠ expected then
          if expected = .file then .error .isDirectory else .error .notDirectory
        else if expected = .directory ∧ store.nodes.any (·.parent = inode) then
          .error .directoryNotEmpty
        else .ok (node.inode, { store with nodes := place.erase store.nodes inode })

/-- `rename`, with no value if its walk to the root does not end. -/
def rename (oldPath newPath : List Char) : Option (Except FsError (Nat × WritableStore)) :=
  match store.resolvePath oldPath with
  | none => some (.error .notFound)
  | some inode =>
    if inode = tmpInode then some (.error .readOnly)
    else
      match splitParentName newPath with
      | .error error => some (.error error)
      | .ok (newParentPath, newName) =>
        match store.resolvePath newParentPath with
        | none => some (.error .notFound)
        | some newParent =>
          if newParent ≠ tmpInode ∧
              isNoneOrNotDirectory place (store.findInode newParent) then
            some (.error .notDirectory)
          else if (store.child newParent newName).isSome then some (.error .alreadyExists)
          else
            match store.isDescendant newParent inode with
            | none => none
            | some true => some (.error .invalidPath)
            | some false =>
              match store.findInode inode with
              | none => some (.error .notFound)
              | some node =>
                some (.ok (node.inode,
                  { store with
                    nodes :=
                      place.change inode (·.moveTo newParent newName) store.nodes }))

end WritableStore

/-! ## Runs of the store -/

/-- An operation on the store. -/
inductive StoreCall
  | create (path : List Char) (fileType : FileType)
  | write (inode offset : Nat) (source : List UInt8)
  | remove (path : List Char) (expected : FileType)
  | rename (oldPath newPath : List Char)

namespace WritableStore

/-- What the store is after an answer. -/
def settle (store : WritableStore) : Except FsError (Nat × WritableStore) → WritableStore
  | .error _ => store
  | .ok (_, after) => after

/-- The store after an operation, if the operation ends. -/
def perform (store : WritableStore) : StoreCall → Option WritableStore
  | .create path fileType => some (store.settle (store.create path fileType))
  | .write inode offset source => some (store.settle (store.write inode offset source))
  | .remove path expected => some (store.settle (store.remove path expected))
  | .rename oldPath newPath => (store.rename oldPath newPath).map store.settle

/-- The store after some operations, if they all end. -/
def performAll (store : WritableStore) (calls : List StoreCall) : Option WritableStore :=
  calls.foldlM perform store

end WritableStore

end Ramfs
end Fs
end Vantara
