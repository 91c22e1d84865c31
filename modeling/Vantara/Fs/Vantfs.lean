import Vantara.Fs.Disk

/-!
# The persistent filesystem VANTFS

Block 0 is the header, blocks 1 to 4 hold a directory of 32 entries of 64 bytes, and
each entry has two blocks of data.  Every operation reads the whole directory anew;
the ones that change it rewrite the block of one entry.
-/

namespace Vantara
namespace Fs
namespace Vantfs

open Foundation

/-- What the header of a volume says. -/
def magic : List UInt8 := "VANTFS01".toUTF8.data.toList
def version : Nat := 1

/-- Where the header, the directory and the data are. -/
def headerBlock : Nat := 0
def directoryStartBlock : Nat := 1
def directoryBlocks : Nat := 4
def dataStartBlock : Nat := directoryStartBlock + directoryBlocks

/-- The bytes of an entry. -/
def entrySize : Nat := 64

/-- The entries in one block of the directory. -/
def entriesPerBlock : Nat := blockSize / entrySize

/-- The slots of the directory. -/
def maxFiles : Nat := directoryBlocks * blockSize / entrySize

/-- The data blocks of a slot. -/
def blocksPerFile : Nat := 2

/-- The inode of `/`. -/
def rootInode : Nat := 1

/-- An entry of the directory, with its slot. -/
structure DirectoryEntry where
  slot : Nat
  inode : Nat
  len : Nat
  parent : Nat
  fileType : FileType
  name : List UInt8
  nameLen : Nat
  deriving DecidableEq, Repr

namespace DirectoryEntry

/-- The entry of a new node. -/
def new (slot parent : Nat) (name : List UInt8) (fileType : FileType) : DirectoryEntry where
  slot := slot
  inode := slot + 2
  len := 0
  parent := parent
  fileType := fileType
  name := padName name
  nameLen := name.length

/-- The bytes of `fn name(&self) -> &str`. -/
def text (entry : DirectoryEntry) : List UInt8 :=
  fromUtf8 (entry.name.take entry.nameLen)

/-- What is known about an entry. -/
def stat (entry : DirectoryEntry) : BackendStat where
  fileType := entry.fileType
  size := entry.len
  readonly := false
  inode := entry.inode

/-- The entry with a new parent and name. -/
def moveTo (entry : DirectoryEntry) (parent : Nat) (name : List UInt8) : DirectoryEntry :=
  { entry with parent, name := padName name, nameLen := name.length }

/-- The entry after a write that ends at an offset. -/
def extend (entry : DirectoryEntry) (writeEnd : Nat) : DirectoryEntry :=
  { entry with len := max entry.len writeEnd }

end DirectoryEntry

/-- The directory: an entry or none for each slot. -/
abbrev Table := List (Option DirectoryEntry)

/-- The entries there are: `entries.iter().flatten()`. -/
def Table.entries (table : Table) : List DirectoryEntry :=
  table.filterMap id

/-- Where the entries are. -/
def place : Placement DirectoryEntry Nat (List UInt8) where
  key := DirectoryEntry.inode
  parent := DirectoryEntry.parent
  name := DirectoryEntry.text
  directory entry := entry.fileType = .directory
  root := rootInode

/-! ## The layout of the directory -/

/-- The block of a slot, and where the slot starts in it. -/
def blockOfSlot (slot : Nat) : Nat := directoryStartBlock + slot / entriesPerBlock
def startOfSlot (slot : Nat) : Nat := slot % entriesPerBlock * entrySize

/-- The type that a byte stands for. -/
def typeOfByte (byte : UInt8) : Option FileType :=
  if byte = 0 ∨ byte = 1 then some .file
  else if byte = 2 then some .directory
  else none

/-- The byte that stands for a type. -/
def byteOfType : FileType → UInt8
  | .file => 1
  | .directory => 2

/-- The entry of a slot in its block, as `read_entries` finds it. -/
def parseEntry (block : Block) (slot : Nat) : Except FsError (Option DirectoryEntry) :=
  let start := startOfSlot slot
  if block start = 0 then .ok none
  else
    let nameLen := (block (start + 1)).toNat
    if nameLen = 0 ∨ nameLen > maxNameLen then .error .corrupt
    else
      match typeOfByte (block (start + 2)) with
      | none => .error .corrupt
      | some fileType =>
        .ok (some
          { slot
            inode := readLe block (start + 8) 8
            len := readLe block (start + 16) 4
            parent :=
              if readLe block (start + 20) 4 = 0 then 1 else readLe block (start + 20) 4
            fileType
            name := (List.range maxNameLen).map fun index => block (start + 24 + index)
            nameLen })

/-- The entries of some slots in their block; the first bad one is an error. -/
def parseSlots (block : Block) : List Nat → Except FsError Table
  | [] => .ok []
  | slot :: rest =>
    match parseEntry block slot with
    | .error error => .error error
    | .ok entry =>
      match parseSlots block rest with
      | .error error => .error error
      | .ok table => .ok (entry :: table)

/-- The slots in a block of the directory. -/
def slotsOf (blockIndex : Nat) : List Nat :=
  (List.range entriesPerBlock).map (blockIndex * entriesPerBlock + ·)

/-- Read some blocks of the directory. -/
def readBlocks : List Nat → DiskM Table
  | [] => pure []
  | blockIndex :: rest => do
      let block ← readBlock (directoryStartBlock + blockIndex)
      match parseSlots block (slotsOf blockIndex) with
      | .error error => throw error
      | .ok here =>
        let others ← readBlocks rest
        pure (here ++ others)

/-- Read the directory. -/
def readEntries : DiskM Table :=
  readBlocks (List.range directoryBlocks)

/-- The bytes of an entry on the disk. -/
def entryByte (entry : DirectoryEntry) (index : Nat) : UInt8 :=
  if index = 0 then 1
  else if index = 1 then UInt8.ofNat entry.nameLen
  else if index = 2 then byteOfType entry.fileType
  else if 8 ≤ index ∧ index < 16 then leByte entry.inode (index - 8)
  else if 16 ≤ index ∧ index < 20 then leByte entry.len (index - 16)
  else if 20 ≤ index ∧ index < 24 then leByte entry.parent (index - 20)
  else if 24 ≤ index ∧ index < 24 + maxNameLen then entry.name.getD (index - 24) 0
  else 0

/-- The block of a slot with the slot's bytes replaced. -/
def spliceEntry (block : Block) (slot : Nat) (bytes : Nat → UInt8) : Block := fun index =>
  if startOfSlot slot ≤ index ∧ index < startOfSlot slot + entrySize then
    bytes (index - startOfSlot slot)
  else block index

/-- Write an entry to its slot. -/
def writeEntry (entry : DirectoryEntry) : DiskM Unit := do
  let block ← readBlock (blockOfSlot entry.slot)
  writeBlock (blockOfSlot entry.slot) (spliceEntry block entry.slot (entryByte entry))

/-- Empty a slot. -/
def writeEmptyEntry (slot : Nat) : DiskM Unit := do
  let block ← readBlock (blockOfSlot slot)
  writeBlock (blockOfSlot slot) (spliceEntry block slot fun _ => 0)

/-! ## The data of the files -/

/-- A data block of a slot. -/
def dataBlock (slot fileBlock : Nat) : Nat :=
  dataStartBlock + slot * blocksPerFile + fileBlock

/-- The bytes of a block with some of them replaced. -/
def spliceData (block : Block) (within : Nat) (source : List UInt8) : Block := fun index =>
  if within ≤ index ∧ index < within + source.length then source.getD (index - within) 0
  else block index

/-- The loop of `write_data`; every turn copies a byte at least, so as many turns as there
are bytes are enough. -/
def writeDataLoop (slot : Nat) : Nat → Nat → List UInt8 → DiskM Unit
  | 0, _, _ => pure ()
  | turns + 1, offset, source =>
    if source = [] then pure ()
    else do
      let within := offset % blockSize
      let count := min (blockSize - within) source.length
      let blockIndex := dataBlock slot (offset / blockSize)
      let block ← readBlock blockIndex
      writeBlock blockIndex (spliceData block within (source.take count))
      writeDataLoop slot turns (offset + count) (source.drop count)

/-- Write data of a slot. -/
def writeData (slot offset : Nat) (source : List UInt8) : DiskM Unit :=
  writeDataLoop slot source.length offset source

/-- The loop of `transfer_data`, with the number of bytes that are still to be read. -/
def readDataLoop (slot : Nat) : Nat → Nat → Nat → DiskM (List UInt8)
  | 0, _, _ => pure []
  | turns + 1, offset, wanted =>
    if wanted = 0 then pure []
    else do
      let within := offset % blockSize
      let count := min (blockSize - within) wanted
      let block ← readBlock (dataBlock slot (offset / blockSize))
      let rest ← readDataLoop slot turns (offset + count) (wanted - count)
      pure ((List.range count).map (fun index => block (within + index)) ++ rest)

/-- Read data of a slot. -/
def readData (slot offset wanted : Nat) : DiskM (List UInt8) :=
  readDataLoop slot wanted offset wanted

/-- Clear the data of a slot. -/
def clearData (slot : Nat) : DiskM Unit := do
  writeBlock (dataBlock slot 0) (fun _ => 0)
  writeBlock (dataBlock slot 1) (fun _ => 0)

/-! ## The volume -/

/-- The bytes of the header. -/
def headerBytes (index : Nat) : UInt8 :=
  if index < 8 then magic.getD index 0
  else if 8 ≤ index ∧ index < 12 then leByte version (index - 8)
  else if 12 ≤ index ∧ index < 16 then leByte maxFiles (index - 12)
  else 0

/-- Clear some blocks of the directory. -/
def clearBlocks : List Nat → DiskM Unit
  | [] => pure ()
  | index :: rest => do
      writeBlock (directoryStartBlock + index) (fun _ => 0)
      clearBlocks rest

/-- Write the header and clear the directory. -/
def formatVolume : DiskM Unit := do
  writeBlock headerBlock headerBytes
  clearBlocks (List.range directoryBlocks)

/-- Whether the volume has been formatted. -/
def hasMagic (header : Block) : Bool :=
  (List.range 8).map header = magic

/-- `initialize_disk`: whether the volume was formatted. -/
def initializeDisk : DiskM Bool := do
  probe
  let header ← readBlock headerBlock
  if hasMagic header then
    if readLe header 8 4 ≠ version then throw .corrupt else pure false
  else do
    formatVolume
    pure true

/-- Fail unless the filesystem is in use. -/
def ensureAvailable : DiskM Unit := fun disk =>
  if disk.available then .ok () disk else .error .unavailable disk

/-! ## Paths -/

/-- `split_parent_name` of the persistent filesystem. -/
def splitParentName (path : List Char) : Except FsError (List Char × List UInt8) :=
  if path.head? ≠ some '/' ∨ path = ['/'] then .error .invalidPath else Fs.splitParentName path

/-- The entry in a directory that has a name. -/
def child (table : Table) (parent : Nat) (name : List UInt8) : Option DirectoryEntry :=
  place.child table.entries parent name

/-- The entry with an inode. -/
def findInode (table : Table) (inode : Nat) : Option DirectoryEntry :=
  place.find table.entries inode

/-- The inode of a path. -/
def resolvePath (table : Table) (path : List Char) : Option Nat :=
  if path = ['/'] then some rootInode
  else
    match path.dropPrefix? ['/'] with
    | none => none
    | some relative => walk place table.entries rootInode (relative.splitOn '/')

/-- The loop ends if it does within one step more than there are entries. -/
def isDescendant (table : Table) (candidate ancestor : Nat) : Option Bool :=
  place.descends (findInode table) (table.entries.length + 1) candidate ancestor

/-! ## The operations -/

/-- The slot, parent and name of a new node, or why there is none. -/
def planCreate (table : Table) (parentPath : List Char) (name : List UInt8) :
    Except FsError (Nat × Nat) :=
  match resolvePath table parentPath with
  | none => .error .notFound
  | some parent =>
    if parent ≠ rootInode ∧ isNoneOrNotDirectory place (findInode table parent) then
      .error .notDirectory
    else if (child table parent name).isSome then .error .alreadyExists
    else
      match table.findIdx? Option.isNone with
      | none => .error .noSpace
      | some slot => .ok (slot, parent)

/-- Create a file or a directory. -/
def createNode (path : List Char) (fileType : FileType) : DiskM BackendStat := do
  ensureAvailable
  match splitParentName path with
  | .error error => throw error
  | .ok (parentPath, name) => do
      let table ← readEntries
      match planCreate table parentPath name with
      | .error error => throw error
      | .ok (slot, parent) => do
          if fileType = .file then clearData slot
          let entry := DirectoryEntry.new slot parent name fileType
          writeEntry entry
          pure entry.stat

/-- The entry that is to be removed, or why there is none. -/
def planRemove (table : Table) (path : List Char) (expected : FileType) :
    Except FsError DirectoryEntry :=
  match resolvePath table path with
  | none => .error .notFound
  | some inode =>
    if inode = rootInode then .error .readOnly
    else
      match findInode table inode with
      | none => .error .notFound
      | some entry =>
        if entry.fileType ≠ expected then
          if expected = .file then .error .isDirectory else .error .notDirectory
        else if expected = .directory ∧ table.entries.any (·.parent = inode) then
          .error .directoryNotEmpty
        else .ok entry

/-- Remove a node of the expected type. -/
def removeNode (path : List Char) (expected : FileType) : DiskM Nat := do
  ensureAvailable
  let table ← readEntries
  match planRemove table path expected with
  | .error error => throw error
  | .ok entry => do
      writeEmptyEntry entry.slot
      if expected = .file then clearData entry.slot
      pure entry.inode

/-- The entry that is renamed, as it will be, or why there is none; no value if the walk
to the root does not end. -/
def planRename (table : Table) (oldPath newPath : List Char) :
    Option (Except FsError DirectoryEntry) :=
  match resolvePath table oldPath with
  | none => some (.error .notFound)
  | some inode =>
    if inode = rootInode then some (.error .readOnly)
    else
      match splitParentName newPath with
      | .error error => some (.error error)
      | .ok (parentPath, newName) =>
        match resolvePath table parentPath with
        | none => some (.error .notFound)
        | some newParent =>
          if newParent ≠ rootInode ∧
              isNoneOrNotDirectory place (findInode table newParent) then
            some (.error .notDirectory)
          else if (child table newParent newName).isSome then
            some (.error .alreadyExists)
          else
            match isDescendant table newParent inode with
            | none => none
            | some true => some (.error .invalidPath)
            | some false =>
              match findInode table inode with
              | none => some (.error .notFound)
              | some entry => some (.ok (entry.moveTo newParent newName))

/-- `rename`, whose value is missing if its walk to the root does not end. -/
def rename (oldPath newPath : List Char) : DiskM (Option Nat) := do
  ensureAvailable
  let table ← readEntries
  match planRename table oldPath newPath with
  | none => pure none
  | some (.error error) => throw error
  | some (.ok entry) => do
      writeEntry entry
      pure (some entry.inode)

/-- The file with an inode, or why there is none. -/
def planAccess (table : Table) (inode : Nat) : Except FsError DirectoryEntry :=
  match findInode table inode with
  | none => .error .notFound
  | some entry => if entry.fileType ≠ .file then .error .isDirectory else .ok entry

/-- `read` into a buffer of some capacity. -/
def read (inode offset capacity : Nat) : DiskM (List UInt8) := do
  ensureAvailable
  let table ← readEntries
  match planAccess table inode with
  | .error error => throw error
  | .ok entry => readData entry.slot offset (min (entry.len - offset) capacity)

/-- Write bytes to a file. -/
def write (inode offset : Nat) (source : List UInt8) : DiskM Nat := do
  ensureAvailable
  if offset + source.length ≥ 2 ^ 64 ∨ offset + source.length > maxFileSize then
    throw .fileTooLarge
  else do
    let table ← readEntries
    match planAccess table inode with
    | .error error => throw error
    | .ok entry => do
        writeData entry.slot offset source
        writeEntry (entry.extend (offset + source.length))
        pure source.length

/-- The lines of a listing, into a buffer of some capacity. -/
def planList (table : Table) (path : List Char) (capacity : Nat) : Except FsError (List UInt8) :=
  match resolvePath table path with
  | none => .error .notFound
  | some parent =>
    if parent ≠ rootInode ∧ isNoneOrNotDirectory place (findInode table parent) then
      .error .notDirectory
    else
      (table.entries.filter (·.parent = parent)).foldlM
        (fun written entry => appendLine capacity written entry.text) []

/-- `list` into a buffer of some capacity. -/
def list (path : List Char) (capacity : Nat) : DiskM (List UInt8) := do
  ensureAvailable
  let table ← readEntries
  match planList table path capacity with
  | .error error => throw error
  | .ok lines => pure lines

/-- What is known about a path, or why nothing is. -/
def planStat (table : Table) (path : List Char) : Except FsError BackendStat :=
  if path = ['/'] then
    .ok ⟨.directory, (table.entries.filter (·.parent = rootInode)).length, false, rootInode⟩
  else
    match resolvePath table path with
    | none => .error .notFound
    | some inode =>
      match findInode table inode with
      | none => .error .notFound
      | some entry =>
        if entry.fileType = .directory then
          .ok { entry.stat with
            size := (table.entries.filter (·.parent = entry.inode)).length }
        else .ok entry.stat

/-- `stat` of a path. -/
def stat (path : List Char) : DiskM BackendStat := do
  ensureAvailable
  let table ← readEntries
  match planStat table path with
  | .error error => throw error
  | .ok answer => pure answer

end Vantfs
end Fs
end Vantara
