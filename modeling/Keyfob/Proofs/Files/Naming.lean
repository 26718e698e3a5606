import Keyfob.Proofs.Files.Dependable
import Keyfob.Proofs.Text.Ends

/-!
# The files that names mean

The file that a user's name means is looked for in the name as it was given, and the ending is
added afterwards. So a name that ends in a dot comes to mean a file with two dots in a row, which
no directory takes for a file's name and which, given back, means none. Every other name means a
file that a directory takes and that means itself when it is given back
(`FileName.ofUser_again_iff`).
-/
namespace Keyfob

/-- A pair of one character stands across the place where a text is followed by that character,
or within the text. -/
theorem Text.pair_infix_append_iff {c : Char} {rest : Text} (single : ¬[c, c] <:+: c :: rest)
    (t : Text) : [c, c] <:+: t ++ c :: rest ↔ [c, c] <:+: t ∨ [c] <:+ t := by
  induction t with
  | nil =>
    refine iff_of_false single ?_
    rintro (pair | last)
    · exact absurd (List.infix_nil.mp pair) nofun
    · exact absurd (List.suffix_nil.mp last) nofun
  | cons d ds ih =>
    have first : [c, c] <+: d :: (ds ++ c :: rest) ↔ [c, c] <+: d :: ds ∨ [c] = d :: ds := by
      cases ds with
      | nil => simp [List.cons_prefix_cons, eq_comm]
      | cons e es => simp [List.cons_prefix_cons]
    rw [List.cons_append, List.infix_cons_iff, ih, first, List.infix_cons_iff,
      List.suffix_cons_iff, or_or_or_comm]

namespace DirectoryFiles

/-- Directories take a name for a file's: what is done with the file may fail for another cause,
but not because of the name. -/
structure Takes (file : Text) : Prop where
  /-- Reading does not find the name invalid. -/
  read : ∀ files : DirectoryFiles, FileStore.read file files ≠ .error (.invalidName file)
  /-- Writing does not find the name invalid. -/
  write : ∀ (bytes : List UInt8) (files : DirectoryFiles),
    (FileStore.write file bytes files).1 ≠ .error (.invalidName file)
  /-- Adding does not find the name invalid. -/
  append : ∀ (bytes : List UInt8) (files : DirectoryFiles),
    (FileStore.append file bytes files).1 ≠ .error (.invalidName file)

/-- A file is made without a complaint about a name that does not lead away. -/
theorem update_ne_invalidName {file : Text} (within : FileName.leadsAway file = false)
    (files : DirectoryFiles) (bytes : List UInt8 → List UInt8) :
    (files.update file bytes).1 ≠ .error (.invalidName file) := by
  unfold update
  rw [within]
  cases files.entries? with
  | none => nofun
  | some entries =>
    dsimp only
    cases standing? entries file with
    | none => nofun
    | some entry =>
      cases entry with
      | file held => nofun
      | directory => nofun

/-- Directories take the names that do not lead away. -/
theorem takes_iff {file : Text} : Takes file ↔ FileName.leadsAway file = false := by
  constructor
  · intro takes
    by_contra away
    have refused : FileStore.read file ({} : DirectoryFiles) = .error (.invalidName file) :=
      if_pos (eq_true_of_ne_false away)
    exact takes.read {} refused
  · intro within
    refine ⟨fun files => ?_, fun bytes files => ?_, fun bytes files => ?_⟩
    · unfold FileStore.read instFileStore
      dsimp only
      rw [within]
      cases files.entries? with
      | none =>
        dsimp only
        cases (HostPath.fault? file).isSome with
        | false => nofun
        | true => nofun
      | some entries =>
        dsimp only
        cases standing? entries file with
        | none => nofun
        | some entry =>
          cases entry with
          | file held => nofun
          | directory => nofun
    · exact update_ne_invalidName within files fun _ => bytes
    · exact update_ne_invalidName within files fun held => held ++ bytes

end DirectoryFiles

namespace FileName

/-- A name stays within its directory when it is one component without two dots in a row. -/
theorem leadsAway_eq_false_iff {name : Text} : leadsAway name = false ↔
    name ≠ [] ∧ '/' ∉ name ∧ '\\' ∉ name ∧ ¬['.', '.'] <:+: name := by
  have dots : name.has ".." = true ↔ ['.', '.'] <:+: name := Text.has_iff
  unfold leadsAway
  rw [← dots]
  simp [and_assoc]

/-- A name that means a file stays within its directory and holds no control characters, and the
file is the name with the ending. -/
theorem ofUser?_eq_some_iff {name file : Text} : ofUser? name = some file ↔
    leadsAway name.trim = false ∧ (∀ c ∈ name.trim, Text.isControl c = false) ∧
      file = if isText name.trim then name.trim else name.trim ++ ending := by
  unfold ofUser?
  by_cases refused : (leadsAway name.trim || name.trim.any Text.isControl) = true
  · rw [if_pos refused]
    refine iff_of_false nofun ?_
    rintro ⟨within, plain, _⟩
    rw [within, Bool.false_or, List.any_eq_true] at refused
    obtain ⟨c, listed, control⟩ := refused
    rw [plain c listed] at control
    cases control
  · rw [if_neg refused]
    rw [Bool.or_eq_true, not_or, Bool.not_eq_true, List.any_eq_true] at refused
    obtain ⟨within, plain⟩ := refused
    have clean : ∀ c ∈ name.trim, Text.isControl c = false := fun c listed =>
      eq_false_of_ne_true fun control => plain ⟨c, listed, control⟩
    have outcome : (if isText name.trim = true then some name.trim
        else some (name.trim ++ ending)) =
        some (if isText name.trim then name.trim else name.trim ++ ending) :=
      (apply_ite some _ _ _).symm
    rw [outcome, Option.some_inj]
    constructor
    · intro same
      exact ⟨within, clean, same.symm⟩
    · rintro ⟨_, _, same⟩
      exact same.symm

/-- A name with the ending is found to have it. -/
theorem isText_append_ending (name : Text) : isText (name ++ ending) = true := by
  have small : Text.lower ending = ending := by decide
  unfold isText
  rw [Text.endsWith_iff, Text.lower, List.map_append]
  exact ⟨Text.lower name, congrArg (Text.lower name ++ ·) small.symm⟩

/-- A name that has the ending does not end in a dot. -/
theorem not_dot_suffix_of_isText {name : Text} (text : isText name = true) : ¬['.'] <:+ name := by
  rintro ⟨front, rfl⟩
  unfold isText at text
  rw [Text.endsWith_iff, Text.lower, List.map_append] at text
  obtain ⟨lead, whole⟩ := text
  have last := congrArg List.getLast? whole
  have left : (lead ++ ending).getLast? = some 't' :=
    List.getLast?_append_of_ne_nil lead (by decide)
  rw [left, List.map_singleton, List.getLast?_concat] at last
  exact absurd last (by decide)

/-- No character of the ending is a blank or a control character. -/
theorem plain_ending {c : Char} (listed : c ∈ ending) :
    Text.isBlank c = false ∧ Text.isControl c = false := by
  have all : ending.all (fun c => !Text.isBlank c && !Text.isControl c) = true := by decide
  have both := List.all_eq_true.mp all c listed
  rw [Bool.and_eq_true, Bool.not_eq_true', Bool.not_eq_true'] at both
  exact both

/-- A trimmed name with the ending is trimmed. -/
theorem trim_append_ending (name : Text) :
    Text.trim (name.trim ++ ending) = name.trim ++ ending := by
  have solid : ∀ c ∈ ending, Text.isBlank c = false := fun _ listed => (plain_ending listed).1
  have parts := Text.trim_around name.trim [] (by decide : ending ≠ []) solid
  rw [List.append_nil, Text.trimStart_trim] at parts
  exact parts.trans (List.append_nil _)

/-- The file that a name means is trimmed, has the ending and holds no control characters. -/
theorem written_of_ofUser? {name file : Text} (meant : ofUser? name = some file) :
    file.trim = file ∧ isText file = true ∧ ∀ c ∈ file, Text.isControl c = false := by
  obtain ⟨-, clean, rfl⟩ := ofUser?_eq_some_iff.mp meant
  split
  · next text => exact ⟨Text.trim_trim name, text, clean⟩
  · refine ⟨trim_append_ending name, isText_append_ending _, fun c listed => ?_⟩
    obtain front | back := List.mem_append.mp listed
    · exact clean c front
    · exact (plain_ending back).2

/-- The file that a name means leads away just where the name ends in a dot. -/
theorem leadsAway_ofUser?_iff {name file : Text} (meant : ofUser? name = some file) :
    '/' ∉ file ∧ '\\' ∉ file ∧ (leadsAway file = false ↔ ¬['.'] <:+ name.trim) ∧
      (¬['.', '.'] <:+: file ↔ ¬['.'] <:+ name.trim) := by
  obtain ⟨within, -, rfl⟩ := ofUser?_eq_some_iff.mp meant
  obtain ⟨nonempty, noSlash, noBackslash, noDots⟩ := leadsAway_eq_false_iff.mp within
  split
  · next text =>
    have noDot := not_dot_suffix_of_isText text
    exact ⟨noSlash, noBackslash, iff_of_true within noDot, iff_of_true noDots noDot⟩
  · have slash : '/' ∉ name.trim ++ ending :=
      List.not_mem_append noSlash (by decide)
    have backslash : '\\' ∉ name.trim ++ ending :=
      List.not_mem_append noBackslash (by decide)
    have single : ¬['.', '.'] <:+: ending := by decide
    have dots : ['.', '.'] <:+: name.trim ++ ending ↔ ['.'] <:+ name.trim :=
      (Text.pair_infix_append_iff single name.trim).trans (or_iff_right noDots)
    have filled : name.trim ++ ending ≠ [] := List.append_ne_nil_of_left_ne_nil nonempty _
    refine ⟨slash, backslash, ?_, not_congr dots⟩
    rw [leadsAway_eq_false_iff, dots]
    constructor
    · rintro ⟨-, -, -, noDot⟩
      exact noDot
    · intro noDot
      exact ⟨filled, slash, backslash, noDot⟩

/-- A name means a file, or it is reported. -/
theorem ofUser_eq_ok_iff {name file : Text} :
    ofUser name = .ok file ↔ ofUser? name = some file := by
  unfold ofUser
  cases ofUser? name with
  | none => exact iff_of_false nofun nofun
  | some meant => rw [Except.ok.injEq, Option.some_inj]

/-- The file that a name means is one component of a path. If the name does not end in a dot, and
only then: it has no two dots in a row, directories take it for a file's name, and given back it
means itself. Such a file can be written and added to wherever a directory offers it. -/
theorem ofUser_again_iff {name file : Text} (meant : ofUser name = .ok file) :
    ('/' ∉ file ∧ '\\' ∉ file) ∧
      (¬['.', '.'] <:+: file ↔ ¬['.'] <:+ name.trim) ∧
      (DirectoryFiles.Takes file ↔ ¬['.'] <:+ name.trim) ∧
      (ofUser file = .ok file ↔ ¬['.'] <:+ name.trim) ∧
      (¬['.'] <:+ name.trim →
        FileStore.Dependable file (DirectoryFiles.Offers file)) := by
  have found := ofUser_eq_ok_iff.mp meant
  obtain ⟨trimmed, text, clean⟩ := written_of_ofUser? found
  obtain ⟨slash, backslash, away, dots⟩ := leadsAway_ofUser?_iff found
  have again : ofUser file = .ok file ↔ leadsAway file = false := by
    rw [ofUser_eq_ok_iff, ofUser?_eq_some_iff, trimmed, if_pos text]
    constructor
    · rintro ⟨within, -, -⟩
      exact within
    · intro within
      exact ⟨within, clean, rfl⟩
  refine ⟨⟨slash, backslash⟩, dots, ?_, ?_, fun noDot => ?_⟩
  · rw [DirectoryFiles.takes_iff, away]
  · rw [again, away]
  · exact DirectoryFiles.dependable (away.mpr noDot)

/-- A name with blanks around it and without the ending means a file that means itself. -/
theorem ofUser_again_login :
    ofUser " login " = .ok "login.txt" ∧ ¬['.'] <:+ Text.trim " login " ∧
      DirectoryFiles.Takes "login.txt" ∧ ofUser "login.txt" = .ok "login.txt" := by
  have meant : ofUser " login " = .ok "login.txt" := by decide
  have noDot : ¬['.'] <:+ Text.trim " login " := by decide
  obtain ⟨-, -, takes, again, -⟩ := ofUser_again_iff meant
  exact ⟨meant, noDot, takes.mpr noDot, again.mpr noDot⟩

/-- A name that ends in a dot means a file with two dots in a row, which no directory takes and
which means none when it is given back. -/
theorem ofUser_not_again :
    ofUser "a." = .ok "a..txt" ∧ ['.', '.'] <:+: "a..txt".toList ∧
      (∀ (bytes : List UInt8) (files : DirectoryFiles),
        (FileStore.write "a..txt" bytes files).1 = .error (.invalidName "a..txt")) ∧
      ofUser "a..txt" = .error (.invalidName "a..txt") :=
  ⟨by decide, by decide, fun _ _ => rfl, by decide⟩

end FileName

end Keyfob
