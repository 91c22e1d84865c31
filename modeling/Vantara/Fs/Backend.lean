import Mathlib.Algebra.Group.Nat.Defs
import Vantara.Foundation.NamedTree

/-!
# What the filesystem backends share

Errors, kinds of nodes, the answer to a status query, and the texts of paths.  A
path is the list of its characters; names are kept and compared as the bytes of
their UTF-8 encoding.
-/

namespace Vantara
namespace Fs

open Foundation

/-- Why an operation fails. -/
inductive FsError
  | notFound
  | notDirectory
  | isDirectory
  | invalidPath
  | pathTooLong
  | nameTooLong
  | alreadyExists
  | readOnly
  | noSpace
  | fileTooLarge
  | bufferTooSmall
  | crossDevice
  | staleNode
  | unavailable
  | corrupt
  | io
  | directoryNotEmpty
  deriving DecidableEq, Repr

/-- The two kinds of nodes. -/
inductive FileType
  | file
  | directory
  deriving DecidableEq, Repr

/-- What is known about a node. -/
structure BackendStat where
  fileType : FileType
  size : Nat
  readonly : Bool
  inode : Nat
  deriving DecidableEq, Repr

/-! ## Texts -/

/-- The UTF-8 bytes of a text. -/
def asBytes (text : List Char) : List UInt8 :=
  text.flatMap String.utf8EncodeChar

/-- The bytes of a name, or no bytes if they are not UTF-8:
`core::str::from_utf8(..).unwrap_or("")`. -/
def fromUtf8 (bytes : List UInt8) : List UInt8 :=
  if bytes.toByteArray.validateUTF8 then bytes else []

theorem fromUtf8_asBytes (text : List Char) : fromUtf8 (asBytes text) = asBytes text :=
  if_pos (ByteArray.validateUTF8_eq_true_iff.mpr ByteArray.isValidUTF8_utf8Encode)

/-- The text is split at its last slash. -/
def splitLast (path : List Char) : Option (List Char × List Char) :=
  if '/' ∈ path then
    let name := (path.reverse.takeWhile (· ≠ '/')).reverse
    some (path.take (path.length - name.length - 1), name)
  else
    none

/-- Names are cut off at 32 bytes. -/
def maxNameLen : Nat := 32

/-- The most bytes of a file. -/
def maxFileSize : Nat := 1024

/-- The last steps of both backends' `split_parent_name`. -/
def splitParentName (path : List Char) : Except FsError (List Char × List UInt8) :=
  match splitLast path with
  | none => .error .invalidPath
  | some (directory, name) =>
    let parent := if directory = [] then ['/'] else directory
    if asBytes name = [] then .error .invalidPath
    else if (asBytes name).length > maxNameLen then .error .nameTooLong
    else .ok (parent, asBytes name)

/-- Follow the components of a path from a directory; an empty one leads nowhere. -/
def walk (place : Placement α Nat (List UInt8)) (items : List α) :
    Nat → List (List Char) → Option Nat
  | parent, [] => some parent
  | parent, component :: rest =>
    if component = [] then none
    else
      match place.child items parent (asBytes component) with
      | none => none
      | some node => walk place items (place.key node) rest

/-- The name filled up to the 32 bytes a node keeps. -/
def padName (name : List UInt8) : List UInt8 :=
  name ++ List.replicate (maxNameLen - name.length) 0

/-- Whether a node is missing or is no directory. -/
def isNoneOrNotDirectory (place : Placement α κ ν) (found : Option α) : Bool :=
  match found with
  | none => true
  | some node => !place.directory node

/-- Append a line to what a listing has written so far. -/
def appendLine (capacity : Nat) (written value : List UInt8) : Except FsError (List UInt8) :=
  if written.length + (value.length + 1) ≥ 2 ^ 64 then .error .bufferTooSmall
  else if written.length + (value.length + 1) > capacity then .error .bufferTooSmall
  else .ok (written ++ value ++ [10])

/-! ## What they answer -/

theorem take_padName (name : List UInt8) : (padName name).take name.length = name := by
  rw [padName, List.take_append_of_le_length le_rfl, List.take_length]

theorem length_padName (fits : name.length ≤ maxNameLen) : (padName name).length = maxNameLen := by
  rw [padName, List.length_append, List.length_replicate]
  omega

theorem splitLast_append (noSlash : '/' ∉ name) :
    splitLast (directory ++ '/' :: name) = some (directory, name) := by
  have isLast : ((directory ++ '/' :: name).reverse.takeWhile (· ≠ '/')).reverse = name := by
    rw [List.reverse_append, List.reverse_cons, List.append_assoc,
      List.takeWhile_append_of_pos]
    · simp
    · intro letter listed
      have isLetter := List.mem_reverse.mp listed
      exact decide_eq_true fun same => noSlash (same ▸ isLetter)
  have rest : (directory ++ '/' :: name).length - name.length - 1 = directory.length := by
    rw [List.length_append, List.length_cons]
    omega
  rw [splitLast, if_pos (by simp)]
  dsimp only
  rw [isLast, rest, List.take_left]

/-- A text without a slash, or one that is split at its last. -/
theorem split_cases (text : List Char) :
    '/' ∉ text ∨ ∃ directory name, '/' ∉ name ∧ text = directory ++ '/' :: name := by
  induction text with
  | nil => exact .inl (List.not_mem_nil)
  | cons letter rest ih =>
    rcases ih with noSlash | ⟨directory, name, noSlash, rfl⟩
    · by_cases isSlash : letter = '/'
      · exact .inr ⟨[], rest, noSlash, by rw [isSlash, List.nil_append]⟩
      · exact .inl (by simp [noSlash, Ne.symm isSlash])
    · exact .inr ⟨letter :: directory, name, noSlash, rfl⟩

/-- A name that is split off is a proper one. -/
structure Named (name : List UInt8) : Prop where
  text : fromUtf8 name = name
  nonempty : name ≠ []
  short : name.length ≤ maxNameLen

theorem splitParentName_spec (split : splitParentName path = .ok (parent, name)) : Named name := by
  unfold splitParentName at split
  split at split
  next => cases split
  next directory last _ =>
    simp only at split
    split_ifs at split with isEmpty isLong
    all_goals
      cases split
      exact ⟨fromUtf8_asBytes last, isEmpty, Nat.le_of_not_gt isLong⟩

variable {place : Placement α Nat (List UInt8)} {items : List α}

/-- A directory that was found holds what is put into it. -/
theorem holds_of_isDirectory
    (isDirectory : ¬ (parent ≠ place.root ∧
      isNoneOrNotDirectory place (place.find items parent) = true)) :
    place.Holds { node | node ∈ items } parent := by
  by_cases isRoot : parent = place.root
  · exact .inl isRoot
  · cases found : place.find items parent with
    | none => exact absurd ⟨isRoot, by rw [found]; rfl⟩ isDirectory
    | some node =>
      obtain ⟨listed, isKey⟩ := Placement.mem_of_find found
      refine .inr ⟨node, listed, isKey, ?_⟩
      rw [found] at isDirectory
      simpa [isNoneOrNotDirectory, isRoot] using isDirectory

end Fs
end Vantara
