import Keyfob.Proofs.Files.Dependable

/-!
# Files that are kept honestly

A store keeps a file honestly (`FileStore.Honest`) when the file holds what was written and then
added, as far as the store says that this was done, and nothing else changes it. Any operation may
be refused at any time, so this asks for less than that a file can be depended on: every file of a
store in memory is kept honestly whatever faults there are, and so is every file of a directory.
-/
namespace Keyfob

/-- What the store says of a file is so. -/
structure FileStore.Honest {φ : Type} [FileStore φ] (file : Text)
    (held? : φ → Option (List UInt8)) : Prop where
  /-- What is read is held. -/
  read : ∀ (bytes : List UInt8) (files : φ),
    FileStore.read file files = .ok bytes → held? files = some bytes
  /-- What is written is held from then on. -/
  write : ∀ (bytes : List UInt8) (files : φ), (FileStore.write file bytes files).1 = .ok () →
    held? (FileStore.write file bytes files).2 = some bytes
  /-- What cannot be written changes nothing. -/
  unwritten : ∀ (bytes : List UInt8) (files : φ), (FileStore.write file bytes files).1 ≠ .ok () →
    held? (FileStore.write file bytes files).2 = held? files
  /-- What is added is held after what was held before. -/
  append : ∀ (more : List UInt8) (files : φ), (FileStore.append file more files).1 = .ok () →
    held? (FileStore.append file more files).2 = some ((held? files).getD [] ++ more)
  /-- What cannot be added changes nothing. -/
  unappended : ∀ (more : List UInt8) (files : φ), (FileStore.append file more files).1 ≠ .ok () →
    held? (FileStore.append file more files).2 = held? files
  /-- What is written to another file changes nothing. -/
  apart : ∀ (other : Text) (bytes : List UInt8) (files : φ), other ≠ file →
    held? (FileStore.write other bytes files).2 = held? files

namespace MemoryFiles

/-- What a file of a store in memory holds. -/
def held? (file : Text) (files : MemoryFiles) : Option (List UInt8) := files.held.get? file

/-- What is put into a file is held by it and by no other. -/
theorem held?_put (file other : Text) (bytes : List UInt8) (files : MemoryFiles) :
    held? file (files.put other bytes) = if other = file then some bytes else held? file files :=
  Table.get?_insert files.held other file bytes

/-- Any file of a store in memory is kept honestly, whatever fails. -/
theorem honest (file : Text) : FileStore.Honest file (held? file) where
  read bytes files read := by
    simp only [FileStore.read] at read
    split at read
    · cases read
    · split at read
      · next found =>
        cases read
        exact found
      · cases read
  write bytes files written := by
    simp only [FileStore.write] at written ⊢
    split
    · next fails =>
      rw [if_pos fails] at written
      cases written
    · exact (held?_put file file bytes files).trans (if_pos rfl)
  unwritten bytes files refused := by
    simp only [FileStore.write] at refused ⊢
    split
    · rfl
    · next works =>
      rw [if_neg works] at refused
      exact absurd rfl refused
  append more files added := by
    simp only [FileStore.append] at added ⊢
    split
    · next fails =>
      rw [if_pos fails] at added
      cases added
    · exact (held?_put file file _ files).trans (if_pos rfl)
  unappended more files refused := by
    simp only [FileStore.append] at refused ⊢
    split
    · rfl
    · next works =>
      rw [if_neg works] at refused
      exact absurd rfl refused
  apart other bytes files differs := by
    simp only [FileStore.write]
    split
    · rfl
    · exact (held?_put file other bytes files).trans (if_neg differs)

end MemoryFiles

namespace DirectoryFiles

/-- What a file of a directory holds. -/
def held? (file : Text) (files : DirectoryFiles) : Option (List UInt8) :=
  match files.entries?.bind (standing? · file) with
  | some (.file bytes) => some bytes
  | _ => none

/-- What stands under a name after another entry was made. -/
theorem standing?_insert_of_ne (entries : Table DirectoryEntry) {file other : Text}
    (differs : other ≠ file) (entry : DirectoryEntry) :
    standing? (entries.insert other entry) file = standing? entries file := by
  unfold standing?
  split
  · rfl
  · rw [Table.get?_insert, if_neg differs]

/-- What updating a file of a directory comes to: it is refused, or the file is made from what it
held. -/
theorem update_cases (files : DirectoryFiles) (file : Text) (make : List UInt8 → List UInt8) :
    (∃ e, files.update file make = (.error e, files)) ∨
      ∃ entries, files.entries? = some entries ∧ standing? entries file ≠ some .directory ∧
        files.update file make =
          (.ok (), ⟨some (entries.insert file (.file (make ((held? file files).getD []))))⟩) := by
  unfold update
  split
  · exact .inl ⟨_, rfl⟩
  cases place : files.entries? with
  | none => exact .inl ⟨_, rfl⟩
  | some entries =>
    cases standing : standing? entries file with
    | none =>
      have nothing : held? file files = none := by
        simp only [held?, place, Option.bind_some, standing]
      simp only [standing, nothing]
      exact .inr ⟨entries, rfl, by simp [standing], rfl⟩
    | some entry =>
      cases entry with
      | directory => exact .inl ⟨.io, by simp only [standing]⟩
      | file held =>
        have something : held? file files = some held := by
          simp only [held?, place, Option.bind_some, standing]
        simp only [standing, something]
        exact .inr ⟨entries, rfl, by simp [standing], rfl⟩

/-- A file that was updated holds what was made of it. -/
theorem held?_update {files : DirectoryFiles} {file : Text} {make : List UInt8 → List UInt8}
    (done : (files.update file make).1 = .ok ()) :
    held? file (files.update file make).2 = some (make ((held? file files).getD [])) := by
  obtain ⟨e, refused⟩ | ⟨entries, _, free, made⟩ := files.update_cases file make
  · rw [refused] at done
    cases done
  · rw [made]
    simp only [held?, Option.bind_some, standing?_insert free]

/-- A file that could not be updated is as it was. -/
theorem update_of_refused {files : DirectoryFiles} {file : Text} {make : List UInt8 → List UInt8}
    (refused : (files.update file make).1 ≠ .ok ()) : (files.update file make).2 = files := by
  obtain ⟨e, same⟩ | ⟨entries, _, _, made⟩ := files.update_cases file make
  · rw [same]
  · rw [made] at refused
    exact absurd rfl refused

/-- Any file of a directory is kept honestly. -/
theorem honest (file : Text) : FileStore.Honest file (held? file) where
  read bytes files read := by
    simp only [FileStore.read] at read
    split at read
    · cases read
    cases place : files.entries? with
    | none =>
      rw [place] at read
      cases read
    | some entries =>
      rw [place] at read
      dsimp only at read
      split at read
      · next standing =>
        cases read
        simp only [held?, place, Option.bind_some, standing]
      · cases read
      · cases read
  write bytes files := held?_update
  unwritten bytes files refused := congrArg (held? file) (update_of_refused refused)
  append more files := held?_update
  unappended more files refused := congrArg (held? file) (update_of_refused refused)
  apart other bytes files differs := by
    change held? file (files.update other fun _ => bytes).2 = held? file files
    obtain ⟨e, same⟩ | ⟨entries, place, _, made⟩ := files.update_cases other fun _ => bytes
    · rw [same]
    · rw [made]
      simp only [held?, place, Option.bind_some, standing?_insert_of_ne entries differs]

end DirectoryFiles

end Keyfob
