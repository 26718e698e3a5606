import Keyfob.Files.Basic

/-!
# Files that can be depended on

A file of a store can be depended on (`FileStore.Dependable`) when writing it and adding to it
succeed, and reading it gives what was written and then added. A store in memory without faults
has such files, and so has a directory under every name that stands for a file or for nothing.
-/
namespace Keyfob

/-- Writing a file and adding to it succeed, and keep both the store as it should be and what is
to be read. -/
structure FileStore.Dependable {φ : Type} [FileStore φ] (file : Text) (fit : φ → Prop) : Prop where
  /-- A file that is written can be read. -/
  write : ∀ (bytes : List UInt8) (files : φ), fit files →
    (FileStore.write file bytes files).1 = .ok () ∧
      fit (FileStore.write file bytes files).2 ∧
      FileStore.read file (FileStore.write file bytes files).2 = .ok bytes
  /-- What is added to a file can be read after what it held. -/
  append : ∀ (held more : List UInt8) (files : φ), fit files →
    FileStore.read file files = .ok held →
      (FileStore.append file more files).1 = .ok () ∧
        fit (FileStore.append file more files).2 ∧
        FileStore.read file (FileStore.append file more files).2 = .ok (held ++ more)

namespace MemoryFiles

/-- A store in memory none of whose operations fails. -/
def Sound (files : MemoryFiles) : Prop := files.faults = {}

/-- The file that was put into a store in memory is read. -/
theorem read_put {files : MemoryFiles} (sound : files.Sound) (file : Text) (bytes : List UInt8) :
    FileStore.read file (files.put file bytes) = .ok bytes := by
  unfold Sound at sound
  simp only [FileStore.read, put, sound, Table.get?_insert, if_true]
  rfl

/-- Any file of a store in memory can be depended on. -/
theorem dependable (file : Text) : FileStore.Dependable file Sound where
  write bytes files sound := by
    have read := read_put sound file bytes
    have written : FileStore.write file bytes files = (.ok (), files.put file bytes) := by
      unfold Sound at sound
      simp only [FileStore.write, sound]
      rfl
    rw [written]
    exact ⟨rfl, sound, read⟩
  append held more files sound readable := by
    have there : files.held.get? file = some held := by
      unfold Sound at sound
      simp only [FileStore.read, sound] at readable
      cases found : files.held.get? file with
      | none => simp [found] at readable
      | some bytes => simpa [found] using readable
    have read := read_put sound file (held ++ more)
    have added : FileStore.append file more files = (.ok (), files.put file (held ++ more)) := by
      unfold Sound at sound
      simp only [FileStore.append, sound, there]
      rfl
    rw [added]
    exact ⟨rfl, sound, read⟩

end MemoryFiles

namespace DirectoryFiles

/-- A name stands for a file of a directory or for nothing yet. -/
def Offers (file : Text) (files : DirectoryFiles) : Prop :=
  ∃ entries, files.entries? = some entries ∧ standing? entries file ≠ some .directory

/-- What stands under a file's name after it was put there. -/
theorem standing?_insert {entries : Table DirectoryEntry} {file : Text}
    (free : standing? entries file ≠ some .directory) (bytes : List UInt8) :
    standing? (entries.insert file (.file bytes)) file = some (.file bytes) := by
  unfold standing? at free ⊢
  split
  · next refused => exact absurd (if_pos refused) free
  · rw [Table.get?_insert, if_pos rfl]

/-- The file that stands under a name is read. -/
theorem read_of_standing? {entries : Table DirectoryEntry} {file : Text} {bytes : List UInt8}
    (within : FileName.leadsAway file = false)
    (standing : standing? entries file = some (.file bytes)) :
    FileStore.read file (⟨some entries⟩ : DirectoryFiles) = .ok bytes := by
  simp only [FileStore.read, within, standing]
  rfl

/-- A file that a directory offers is made from what it held, and can then be read. -/
theorem update_of_offers {files : DirectoryFiles} {file : Text}
    (within : FileName.leadsAway file = false) (offered : files.Offers file)
    (make : List UInt8 → List UInt8) :
    ∃ held, (∀ bytes, FileStore.read file files = .ok bytes → held = bytes) ∧
      (files.update file make).1 = .ok () ∧ (files.update file make).2.Offers file ∧
      FileStore.read file (files.update file make).2 = .ok (make held) := by
  obtain ⟨place⟩ := files
  obtain ⟨entries, rfl, free⟩ := offered
  have made (bytes : List UInt8) :
      (⟨some (entries.insert file (.file bytes))⟩ : DirectoryFiles).Offers file ∧
        FileStore.read file (⟨some (entries.insert file (.file bytes))⟩ : DirectoryFiles) =
          .ok bytes := by
    have standing := standing?_insert free bytes
    refine ⟨⟨_, rfl, ?_⟩, read_of_standing? within standing⟩
    rw [standing]
    nofun
  cases standing : standing? entries file with
  | none =>
    have outcome : update ⟨some entries⟩ file make =
        (.ok (), ⟨some (entries.insert file (.file (make [])))⟩) := by
      simp only [update, within, standing]
      rfl
    rw [outcome]
    refine ⟨[], ?_, rfl, made (make [])⟩
    intro bytes read
    simp only [FileStore.read, within, standing] at read
    cases read
  | some entry =>
    cases entry with
    | directory => exact absurd standing free
    | file held =>
      have outcome : update ⟨some entries⟩ file make =
          (.ok (), ⟨some (entries.insert file (.file (make held)))⟩) := by
        simp only [update, within, standing]
        rfl
      rw [outcome]
      refine ⟨held, ?_, rfl, made (make held)⟩
      intro bytes read
      rw [read_of_standing? within standing] at read
      cases read
      rfl

/-- A file that a directory offers can be depended on. -/
theorem dependable {file : Text} (within : FileName.leadsAway file = false) :
    FileStore.Dependable file (Offers file) where
  write bytes files offered := by
    obtain ⟨_, _, written, kept, read⟩ := update_of_offers within offered fun _ => bytes
    exact ⟨written, kept, read⟩
  append held more files offered readable := by
    obtain ⟨before, same, added, kept, read⟩ :=
      update_of_offers within offered fun held => held ++ more
    rw [same held readable] at read
    exact ⟨added, kept, read⟩

end DirectoryFiles

end Keyfob
