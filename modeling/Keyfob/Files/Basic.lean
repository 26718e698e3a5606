import Keyfob.Fault
import Keyfob.Files.Name
import Keyfob.Host.Basic
import Keyfob.Table

/-!
# File stores

Where macro files are kept. What a file store does is a class; here are a store in memory, whose
operations can be made to fail, and a directory of a host.
-/
namespace Keyfob

/-- Why a file operation failed. -/
inductive FileError where
  /-- There is no such file. -/
  | notFound (name : Text)
  /-- The name cannot be a file's. -/
  | invalidName (name : Text)
  /-- The operation failed for a cause outside. -/
  | io
deriving DecidableEq

/-- The text that reports an error, for the causes that are known here. -/
def FileError.message? : FileError → Option Text
  | notFound name => some ("file not found: " ++ name)
  | invalidName name => some ("invalid file name: \"" ++ name ++ "\"")
  | io => none

/-- Something that keeps files. -/
class FileStore (φ : Type) where
  /-- The bytes of a file. -/
  read : Text → φ → Except FileError (List UInt8)
  /-- Make a file with some bytes, in place of any of that name. -/
  write : Text → List UInt8 → φ → Except FileError Unit × φ
  /-- Add bytes to a file, which is made if there is none. -/
  append : Text → List UInt8 → φ → Except FileError Unit × φ
  /-- The names of all files. -/
  names : φ → Except FileError (List Text)
  /-- Whether there is a file of a name. -/
  holds : Text → φ → Bool

namespace FileStore

/-- The macro files of a store, in the order of listings. Sorting names that are in no order is a
crash. -/
def listing {φ : Type} [FileStore φ] (files : φ) : Except (Fault FileError) (List Text) :=
  match names files with
  | .error e => .error (.error e)
  | .ok held =>
    match FileName.listing? held with
    | some listed => .ok listed
    | none => .error (.crash .disorder)

end FileStore

/-- The file that a user's name means, or why it means none. -/
def FileName.ofUser (name : Text) : Except FileError Text :=
  match FileName.ofUser? name with
  | some file => .ok file
  | none => .error (.invalidName name.trim)

/-- Which operations of a store in memory fail. -/
structure FileFaults where
  /-- Reading fails. -/
  read : Bool := false
  /-- Writing fails. -/
  write : Bool := false
  /-- Appending fails. -/
  append : Bool := false
  /-- Listing fails. -/
  list : Bool := false
deriving DecidableEq

/-- Files in memory. -/
structure MemoryFiles where
  /-- The bytes of each file. -/
  held : Table (List UInt8) := ∅
  /-- The operations that fail. -/
  faults : FileFaults := {}
deriving DecidableEq

namespace MemoryFiles

/-- The files with one made or replaced. -/
def put (files : MemoryFiles) (name : Text) (bytes : List UInt8) : MemoryFiles :=
  { files with held := files.held.insert name bytes }

/-- The text of a file. -/
def text? (files : MemoryFiles) (name : Text) : Option Text :=
  (files.held.get? name).map Text.decode

instance : FileStore MemoryFiles where
  read name files :=
    if files.faults.read then .error .io
    else
      match files.held.get? name with
      | some bytes => .ok bytes
      | none => .error (.notFound name)
  write name bytes files :=
    if files.faults.write then (.error .io, files) else (.ok (), files.put name bytes)
  append name bytes files :=
    if files.faults.append then (.error .io, files)
    else (.ok (), files.put name ((files.held.get? name).getD [] ++ bytes))
  names files :=
    if files.faults.list then .error .io else .ok (files.held.entries.map (·.1))
  holds name files := files.held.holds name

end MemoryFiles

/-- What stands under a name in a directory. -/
inductive DirectoryEntry where
  /-- A file with its bytes. -/
  | file (bytes : List UInt8)
  /-- A directory. -/
  | directory
deriving DecidableEq

/-- A directory of a host that keeps files; none once it has been deleted. -/
structure DirectoryFiles where
  /-- What the directory holds, while there is one. -/
  entries? : Option (Table DirectoryEntry) := some ∅
deriving DecidableEq

namespace DirectoryFiles

/-- What stands under a name. The directory itself goes by a single dot, and a name that a host
refuses stands for an entry that can be neither read nor written. -/
def standing? (entries : Table DirectoryEntry) (name : Text) : Option DirectoryEntry :=
  if name = ".".toList || (HostPath.fault? name).isSome ||
      name.byteLength > HostPath.longestName then some .directory
  else entries.get? name

/-- Make a file from what stands under its name now. -/
def update (files : DirectoryFiles) (name : Text) (bytes : List UInt8 → List UInt8) :
    Except FileError Unit × DirectoryFiles :=
  if FileName.leadsAway name then (.error (.invalidName name), files)
  else
    match files.entries? with
    | none => (.error .io, files)
    | some entries =>
      match standing? entries name with
      | some .directory => (.error .io, files)
      | some (.file held) => (.ok (), ⟨some (entries.insert name (.file (bytes held)))⟩)
      | none => (.ok (), ⟨some (entries.insert name (.file (bytes [])))⟩)

/-- The entries with the directories that lead along path components from a depth. Files are met
at the front only, and no further than the directory itself is followed. -/
def makeAlong (entries : Table DirectoryEntry) : Nat → List Text → Table DirectoryEntry
  | _, [] => entries
  | 0, part :: parts =>
    if part = ['.', '.'] || part.byteLength > HostPath.longestName then entries
    else
      match entries.get? part with
      | some (.file _) => entries
      | some .directory => makeAlong entries 1 parts
      | none => makeAlong (entries.insert part .directory) 1 parts
  | depth + 1, part :: parts =>
    if part = ['.', '.'] then makeAlong entries depth parts
    else if part.byteLength > HostPath.longestName then entries
    else makeAlong entries (depth + 2) parts

/-- The directory with the directories made in it that a path leads through, and itself made
again where it was deleted. A single dot at the end asks for what must be there already. -/
def makeDirectory (files : DirectoryFiles) (path : Text) : DirectoryFiles :=
  let parts := HostPath.components path
  let dotted := ((Text.splitAll '/' path).filter (· ≠ [])).getLast? = some ['.']
  if (HostPath.fault? path).isSome || path.head? = some '/' || (dotted && parts.isEmpty) then files
  else ⟨some (makeAlong (files.entries?.getD ∅) 0 (if dotted then parts.dropLast else parts))⟩

instance : FileStore DirectoryFiles where
  read name files :=
    if FileName.leadsAway name then .error (.invalidName name)
    else
      match files.entries? with
      | none => .error (if (HostPath.fault? name).isSome then .io else .notFound name)
      | some entries =>
        match standing? entries name with
        | some (.file bytes) => .ok bytes
        | some .directory => .error .io
        | none => .error (.notFound name)
  write name bytes files := files.update name fun _ => bytes
  append name bytes files := files.update name fun held => held ++ bytes
  names files :=
    match files.entries? with
    | none => .error .io
    | some entries => .ok (entries.entries.filterMap fun
        | (name, .file _) => some name
        | (_, .directory) => none)
  holds name files :=
    !FileName.leadsAway name &&
      match files.entries?.bind (standing? · name) with
      | some (.file _) => true
      | _ => false

end DirectoryFiles

end Keyfob
