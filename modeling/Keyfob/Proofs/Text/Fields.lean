import Keyfob.Proofs.Text.Ends

/-!
# Fields between separators

A text is split at a character into fields in which it does not stand, and these are joined to the
text again. Any fields in which it does not stand are split as they were joined, so that fields and
text stand for each other.
The fields that are not empty are the words of the text, between which the character stands once or
more often (`spaced_iff`).
-/
namespace Keyfob.Text

/-- A text has a first field. -/
theorem splitAll_eq_cons (sep : Char) (t : Text) :
    ∃ field fields, splitAll sep t = field :: fields := by
  cases t with
  | nil => exact ⟨[], [], rfl⟩
  | cons c cs =>
    rw [splitAll]
    split
    · exact ⟨_, _, rfl⟩
    · split <;> exact ⟨_, _, rfl⟩

/-- A character other than the separator belongs to the first field. -/
theorem splitAll_cons_of_ne {sep c : Char} (other : c ≠ sep) {t field : Text} {fields : List Text}
    (rest : splitAll sep t = field :: fields) :
    splitAll sep (c :: t) = (c :: field) :: fields := by
  rw [splitAll, if_neg other, rest]

/-- A text in which the separator does not stand is one field. -/
theorem splitAll_of_notMem {sep : Char} {t : Text} (free : sep ∉ t) : splitAll sep t = [t] := by
  induction t with
  | nil => rfl
  | cons c cs ih =>
    obtain ⟨first, later⟩ := List.ne_and_not_mem_of_not_mem_cons free
    exact splitAll_cons_of_ne first.symm (ih later)

/-- What stands before the first separator is the first field. -/
theorem splitAll_append {sep : Char} {field : Text} (free : sep ∉ field) (rest : Text) :
    splitAll sep (field ++ sep :: rest) = field :: splitAll sep rest := by
  induction field with
  | nil => rw [List.nil_append, splitAll, if_pos rfl]
  | cons c cs ih =>
    obtain ⟨first, later⟩ := List.ne_and_not_mem_of_not_mem_cons free
    exact splitAll_cons_of_ne first.symm (ih later)

/-- Texts after a first one are joined to it with a separator between. -/
theorem join_cons {sep : Char} (t : Text) {texts : List Text} (more : texts ≠ []) :
    join [sep] (t :: texts) = t ++ sep :: join [sep] texts := by
  cases texts with
  | nil => exact absurd rfl more
  | cons next later =>
    change t ++ [sep] ++ join [sep] (next :: later) = _
    rw [List.append_assoc, List.singleton_append]

/-- Texts before a last one are joined to it with a separator between. -/
theorem join_concat {sep : Char} {texts : List Text} (more : texts ≠ []) (t : Text) :
    join [sep] (texts ++ [t]) = join [sep] texts ++ sep :: t := by
  induction texts with
  | nil => exact absurd rfl more
  | cons first later ih =>
    have several : later ++ [t] ≠ [] := List.append_ne_nil_of_right_ne_nil _ (List.cons_ne_nil t [])
    rw [List.cons_append, join_cons first several]
    by_cases last : later = []
    · rw [last]
      rfl
    · rw [ih last, join_cons first last, List.append_assoc, List.cons_append]

/-- Fields in which the separator does not stand are split as they were joined. -/
theorem splitAll_join {sep : Char} {fields : List Text} (some' : fields ≠ [])
    (free : ∀ field ∈ fields, sep ∉ field) : splitAll sep (join [sep] fields) = fields := by
  induction fields with
  | nil => exact absurd rfl some'
  | cons field fields ih =>
    obtain ⟨first, later⟩ := List.forall_mem_cons.mp free
    by_cases last : fields = []
    · rw [last]
      exact splitAll_of_notMem first
    · rw [join_cons field last, splitAll_append first, ih last later]

/-- Fields with no blanks around them are joined to a text with none, unless the separator is
blank. -/
theorem trim_join {sep : Char} (solid : isBlank sep = false) {fields : List Text}
    (trimmed : ∀ field ∈ fields, field.trim = field) :
    (join [sep] fields).trim = join [sep] fields := by
  induction fields with
  | nil => rfl
  | cons field fields ih =>
    obtain ⟨first, later⟩ := List.forall_mem_cons.mp trimmed
    by_cases last : fields = []
    · rw [last]
      exact first
    · have front : field.trimStart = field := by rw [← first, trimStart_trim]
      have back : (join [sep] fields).trimEnd = join [sep] fields := by
        rw [← ih later, trimEnd_trim]
      rw [join_cons field last, trim_append_cons _ _ solid, front, back]

/-- The separator stands in no field. -/
theorem notMem_of_mem_splitAll {sep : Char} {t field : Text} (listed : field ∈ splitAll sep t) :
    sep ∉ field := by
  induction t generalizing field with
  | nil =>
    cases List.mem_singleton.mp listed
    exact List.not_mem_nil
  | cons c cs ih =>
    by_cases here : c = sep
    · rw [splitAll, if_pos here] at listed
      cases List.mem_cons.mp listed with
      | inl first =>
        rw [first]
        exact List.not_mem_nil
      | inr later => exact ih later
    · obtain ⟨field', fields, rest⟩ := splitAll_eq_cons sep cs
      rw [splitAll_cons_of_ne here rest] at listed
      cases List.mem_cons.mp listed with
      | inl first =>
        have free := ih (rest ▸ List.mem_cons_self)
        rw [first]
        exact fun inside => (List.mem_cons.mp inside).elim (fun same => here same.symm) free
      | inr later => exact ih (rest ▸ List.mem_cons_of_mem _ later)

/-- The fields of a text are joined to it. -/
theorem join_splitAll (sep : Char) (t : Text) : join [sep] (splitAll sep t) = t := by
  induction t with
  | nil => rfl
  | cons c cs ih =>
    obtain ⟨field, fields, rest⟩ := splitAll_eq_cons sep cs
    by_cases here : c = sep
    · rw [splitAll, if_pos here, join_cons [] (rest ▸ List.cons_ne_nil field fields), ih, here]
      rfl
    · rw [splitAll_cons_of_ne here rest]
      rw [rest] at ih
      cases fields with
      | nil =>
        rw [← ih]
        rfl
      | cons next later =>
        rw [join_cons _ (List.cons_ne_nil next later)] at ih ⊢
        rw [← ih]
        rfl

/-! ## Words between separators -/

/-- Words between which a separator stands once or more often, and any number of times before and
after them. -/
inductive Spaced (sep : Char) : List Text → Text → Prop where
  /-- No words. -/
  | none : Spaced sep [] []
  /-- A separator more in front. -/
  | space {words : List Text} {t : Text} (spaced : Spaced sep words t) : Spaced sep words (sep :: t)
  /-- One word. -/
  | last {word : Text} (nonempty : word ≠ []) (free : sep ∉ word) : Spaced sep [word] word
  /-- A word in front of others. -/
  | word {word : Text} {words : List Text} {t : Text} (nonempty : word ≠ []) (free : sep ∉ word)
    (spaced : Spaced sep words t) : Spaced sep (word :: words) (word ++ sep :: t)

/-- The fields of a text that are not empty are words with separators between. -/
theorem spaced_join {sep : Char} {fields : List Text} (free : ∀ field ∈ fields, sep ∉ field) :
    Spaced sep (fields.filter fun field => !field.isEmpty) (join [sep] fields) := by
  induction fields with
  | nil => exact .none
  | cons field fields ih =>
    obtain ⟨first, later⟩ := List.forall_mem_cons.mp free
    by_cases last : fields = []
    · subst last
      by_cases empty : field = []
      · subst empty
        exact .none
      · rw [List.filter_cons_of_pos (by simpa using empty)]
        exact .last empty first
    · rw [join_cons field last]
      by_cases empty : field = []
      · subst empty
        exact .space (ih later)
      · rw [List.filter_cons_of_pos (by simpa using empty)]
        exact .word empty first (ih later)

/-- The words between the separators of a text are its fields that are not empty. -/
theorem spaced_iff {sep : Char} {words : List Text} {t : Text} :
    Spaced sep words t ↔ (splitAll sep t).filter (fun field => !field.isEmpty) = words := by
  constructor
  · intro spaced
    induction spaced with
    | none => rfl
    | space spaced ih => rw [splitAll, if_pos rfl, List.filter_cons_of_neg (by simp), ih]
    | last nonempty free =>
      rw [splitAll_of_notMem free, List.filter_cons_of_pos (by simpa using nonempty),
        List.filter_nil]
    | word nonempty free spaced ih =>
      rw [splitAll_append free, List.filter_cons_of_pos (by simpa using nonempty), ih]
  · rintro rfl
    have spaced := spaced_join fun field (listed : field ∈ splitAll sep t) =>
      notMem_of_mem_splitAll listed
    rwa [join_splitAll] at spaced

/-- Where there are no words, nothing but separators stands. -/
theorem eq_of_spaced_nil {sep c : Char} {t : Text} (spaced : Spaced sep [] t) (listed : c ∈ t) :
    c = sep := by
  generalize nothing : ([] : List Text) = words at spaced
  induction spaced with
  | none => cases listed
  | space spaced ih =>
    rcases List.mem_cons.mp listed with first | later
    · exact first
    · exact ih later nothing
  | last => cases nothing
  | word => cases nothing

end Keyfob.Text
