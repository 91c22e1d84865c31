import Vantara.Fs.RamfsTree

/-!
# The RAM filesystem as a backend

Listing, status and reading, which also serve the read-only system files and the
programs in `/bin`.
-/

namespace Vantara
namespace Fs
namespace Ramfs

/-- A file that is part of the kernel image. -/
structure FileEntry where
  inode : Nat
  path : List Char
  data : List UInt8

/-- The text of `/README`. -/
def readme : List UInt8 := asBytes
  ("Vantara OS RAM filesystem\n\nThis filesystem has read-only system files and writable /tmp " ++
    "storage.\n").toList

/-- The text of `/MOTD`. -/
def motd : List UInt8 := asBytes
  "Welcome to Vantara OS.\nTry: help, uptime, mem, tasks, pci, ls, cat, stat.\n".toList

/-- What the build puts into the image: the version and the programs, each by name.
There is room for the inodes of the programs below the writable ones. -/
structure Userland where
  version : List UInt8
  images : List (List Char × List UInt8)
  few : images.length ≤ 9000

namespace Userland

variable (userland : Userland)

/-- The files with fixed inodes. -/
def files : List FileEntry :=
  [⟨10, "/README".toList, readme⟩, ⟨11, "/VERSION".toList, userland.version⟩,
    ⟨12, "/MOTD".toList, motd⟩]

/-- The path of a program. -/
def imagePath (name : List Char) : List Char := "/bin/".toList ++ name

/-- The inode of a program. -/
def userlandInode (path : List Char) : Nat :=
  match userland.images.findIdx? (fun image => imagePath image.1 = path) with
  | none => 0
  | some index => 1000 + index

/-- The programs as files. -/
def programs : List FileEntry :=
  userland.images.map fun image =>
    ⟨userland.userlandInode (imagePath image.1), imagePath image.1, image.2⟩

/-- The file of the image at a path. -/
def findStatic (path : List Char) : Option FileEntry :=
  (userland.files.find? (·.path = path)).or (userland.programs.find? (·.path = path))

/-- The file of the image with an inode. -/
def staticByInode (inode : Nat) : Option FileEntry :=
  (userland.files.find? (·.inode = inode)).or (userland.programs.find? (·.inode = inode))

end Userland

namespace WritableStore

variable (store : WritableStore)

/-- Append the names of a listing line by line. -/
def appendLines (capacity : Nat) (names : List (List UInt8)) : Except FsError (List UInt8) :=
  names.foldlM (appendLine capacity) []

/-- `list` into a buffer of some capacity. -/
def list (userland : Userland) (path : List Char) (capacity : Nat) : Except FsError (List UInt8) :=
  if path = "/".toList then
    appendLines capacity (["README", "VERSION", "MOTD", "bin", "tmp"].map (asBytes ·.toList))
  else if path = "/bin".toList then
    appendLines capacity (userland.images.map (asBytes ·.1))
  else
    match store.resolvePath path with
    | none => .error .notFound
    | some directory =>
      if directory ≠ tmpInode ∧ isNoneOrNotDirectory place (store.findInode directory) then
        .error .notDirectory
      else
        appendLines capacity ((store.nodes.filter (·.parent = directory)).map (·.text))

/-- `stat` of a path. -/
def stat (userland : Userland) (path : List Char) : Except FsError BackendStat :=
  if path = "/".toList then .ok ⟨.directory, 5, true, 1⟩
  else if path = "/bin".toList then .ok ⟨.directory, userland.images.length, true, 2⟩
  else if path = tmpPath then
    .ok ⟨.directory, (store.nodes.filter (·.parent = tmpInode)).length, false, tmpInode⟩
  else
    match userland.findStatic path with
    | some entry => .ok ⟨.file, entry.data.length, true, entry.inode⟩
    | none =>
      match store.resolvePath path with
      | none => .error .notFound
      | some inode =>
        match store.findInode inode with
        | none => .error .notFound
        | some node =>
          .ok ⟨node.fileType,
            if node.fileType = .directory then
              (store.nodes.filter (·.parent = node.inode)).length
            else node.len, false, node.inode⟩

/-- `read` into a buffer of some capacity; no value if a slice is out of range, which is a
panic. -/
def read (userland : Userland) (inode offset capacity : Nat) :
    Option (Except FsError (List UInt8)) :=
  match userland.staticByInode inode with
  | some entry =>
    if offset ≤ entry.data.length then some (.ok ((entry.data.drop offset).take capacity))
    else none
  | none =>
    match store.findInode inode with
    | none => some (.error .notFound)
    | some node =>
      if node.fileType ≠ .file then some (.error .isDirectory)
      else if offset + min (node.len - offset) capacity ≤ maxFileSize then
        some (.ok ((List.range (min (node.len - offset) capacity)).map fun index =>
          node.data (offset + index)))
      else none

end WritableStore

/-! ## The system files are apart from the writable ones -/

namespace Userland

variable {userland : Userland}

theorem programs_spec (listed : entry ∈ userland.programs) :
    (∃ name, entry.path = imagePath name) ∧ (entry.inode = 0 ∨ 1000 ≤ entry.inode) ∧
      entry.inode < firstWritableInode := by
  obtain ⟨image, -, rfl⟩ := List.mem_map.mp listed
  refine ⟨⟨image.1, rfl⟩, ?_⟩
  show (userlandInode _ _ = 0 ∨ 1000 ≤ userlandInode _ _) ∧ userlandInode _ _ < 10000
  unfold userlandInode
  split
  · decide
  next index found =>
    obtain ⟨inside, -⟩ := List.findIdx?_eq_some_iff_getElem.mp found
    have few := userland.few
    omega

theorem files_spec (listed : entry ∈ userland.files) :
    entry.path.take 2 ≠ "/t".toList ∧ entry.inode ≠ tmpInode ∧
      entry.inode < firstWritableInode := by
  simp only [files, List.mem_cons, List.not_mem_nil, or_false] at listed
  rcases listed with rfl | rfl | rfl
  all_goals
    dsimp only
    decide

theorem findStatic_eq_none (isTmp : path.take 2 = "/t".toList) :
    userland.findStatic path = none := by
  rw [findStatic, Option.or_eq_none_iff, List.find?_eq_none, List.find?_eq_none]
  constructor
  · intro entry listed isPath
    exact (files_spec listed).1 (of_decide_eq_true isPath ▸ isTmp)
  · intro entry listed isPath
    obtain ⟨⟨name, isImage⟩, -⟩ := programs_spec listed
    rw [← of_decide_eq_true isPath, isImage] at isTmp
    exact absurd isTmp (by simp [imagePath])

theorem staticByInode_eq_none (isWritable : inode = tmpInode ∨ firstWritableInode ≤ inode) :
    userland.staticByInode inode = none := by
  rw [staticByInode, Option.or_eq_none_iff, List.find?_eq_none, List.find?_eq_none]
  have tmp : tmpInode = 3 := rfl
  constructor
  · intro entry listed isInode
    obtain ⟨-, notTmp, below⟩ := files_spec listed
    rw [of_decide_eq_true isInode] at notTmp below
    rcases isWritable with isTmp | beyond
    · exact notTmp isTmp
    · omega
  · intro entry listed isInode
    obtain ⟨-, range, below⟩ := programs_spec listed
    rw [of_decide_eq_true isInode] at range below
    omega

end Userland

end Ramfs
end Fs
end Vantara
