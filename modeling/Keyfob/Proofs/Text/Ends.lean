import Keyfob.Text.Basic
import Mathlib.Data.List.DropRight

/-!
# The ends of a text

What trimming takes away is blank, it stops at the first character that is not, and from which end
it begins does not matter. A piece at the front or at the end of a text is told apart from the rest.
-/
namespace Keyfob.Text

/-- What is trimmed off the front of a text is blank. -/
theorem exists_blanks_trimStart (t : Text) :
    ∃ blanks, (∀ c ∈ blanks, isBlank c = true) ∧ blanks ++ t.trimStart = t :=
  ⟨t.takeWhile isBlank, fun _ => List.mem_takeWhile_imp, List.takeWhile_append_dropWhile⟩

/-- What is trimmed off the end of a text is blank. -/
theorem exists_blanks_trimEnd (t : Text) :
    ∃ blanks, (∀ c ∈ blanks, isBlank c = true) ∧ t.trimEnd ++ blanks = t :=
  ⟨t.rtakeWhile isBlank, fun _ => List.mem_rtakeWhile_imp, List.rdropWhile_append_rtakeWhile ..⟩

/-- A text is trimmed to nothing at its front exactly when all of it is blank. -/
theorem trimStart_eq_nil_iff {t : Text} : t.trimStart = [] ↔ ∀ c ∈ t, isBlank c = true :=
  List.dropWhile_eq_nil_iff

/-- A text is trimmed to nothing at its end exactly when all of it is blank. -/
theorem trimEnd_eq_nil_iff {t : Text} : t.trimEnd = [] ↔ ∀ c ∈ t, isBlank c = true :=
  List.rdropWhile_eq_nil_iff

/-- What is left of a text that is trimmed at its end begins as before. -/
theorem eq_of_head?_trimEnd {c d : Char} {t : Text} (first : d ∈ (trimEnd (c :: t)).head?) :
    d = c := by
  obtain ⟨later, begins⟩ := List.head?_eq_some_iff.mp first
  obtain ⟨blanks, -, whole⟩ := exists_blanks_trimEnd (c :: t)
  rw [begins] at whole
  exact (List.cons.inj whole).1

/-- Trimming the front stops at a character that is not blank. -/
theorem trimStart_append_cons {c : Char} (t rest : Text) (solid : isBlank c = false) :
    trimStart (t ++ c :: rest) = trimStart t ++ c :: rest := by
  unfold trimStart
  rw [List.dropWhile_append, List.dropWhile_cons_of_neg (Bool.eq_false_iff.mp solid)]
  split
  · next nothing => rw [List.isEmpty_iff.mp nothing, List.nil_append]
  · rfl

/-- Trimming the end stops at a character that is not blank. -/
theorem trimEnd_append_cons {c : Char} (front t : Text) (solid : isBlank c = false) :
    trimEnd (front ++ c :: t) = front ++ c :: trimEnd t := by
  have back := trimStart_append_cons t.reverse front.reverse solid
  unfold trimStart at back
  unfold trimEnd
  rw [List.reverse_append, List.reverse_cons, List.append_assoc, List.singleton_append, back,
    List.reverse_append, List.reverse_cons, List.reverse_reverse, List.append_assoc,
    List.singleton_append]

/-- Around a character that is not blank, both ends are trimmed by themselves. -/
theorem trim_append_cons {c : Char} (s t : Text) (solid : isBlank c = false) :
    trim (s ++ c :: t) = s.trimStart ++ c :: t.trimEnd := by
  rw [trim, trimStart_append_cons _ _ solid, trimEnd_append_cons _ _ solid]

/-- Both ends are trimmed in either order. -/
theorem trimStart_trimEnd (t : Text) : t.trimEnd.trimStart = t.trim := by
  obtain ⟨blanks, blank, whole⟩ := exists_blanks_trimStart t
  unfold trim
  cases rest : t.trimStart with
  | nil =>
    rw [trimEnd_eq_nil_iff.mpr (trimStart_eq_nil_iff.mp rest)]
    rfl
  | cons c cs =>
    have stops := List.head?_dropWhile_not isBlank t
    rw [show t.dropWhile isBlank = c :: cs from rest] at stops
    have solid : isBlank c = false := stops
    have front := trimEnd_append_cons [] cs solid
    rw [List.nil_append, List.nil_append] at front
    rw [rest] at whole
    rw [← whole, trimEnd_append_cons blanks cs solid, trimStart_append_cons _ _ solid,
      trimStart_eq_nil_iff.mpr blank, List.nil_append, front]

/-- A text trimmed at its front is trimmed as before. -/
theorem trim_trimStart (t : Text) : t.trimStart.trim = t.trim := by
  unfold trim trimStart
  rw [List.dropWhile_idempotent]

/-- A text trimmed at its end is trimmed as before. -/
theorem trim_trimEnd (t : Text) : t.trimEnd.trim = t.trim := by
  have twice : t.trimEnd.trimEnd = t.trimEnd := List.rdropWhile_idempotent isBlank t
  rw [← trimStart_trimEnd, twice, trimStart_trimEnd]

/-- The front of a trimmed text is trimmed. -/
theorem trimStart_trim (t : Text) : t.trim.trimStart = t.trim := by
  rw [← trimStart_trimEnd]
  exact List.dropWhile_idempotent ..

/-- The end of a trimmed text is trimmed. -/
theorem trimEnd_trim (t : Text) : t.trim.trimEnd = t.trim :=
  List.rdropWhile_idempotent isBlank t.trimStart

/-- A trimmed text is trimmed. -/
theorem trim_trim (t : Text) : t.trim.trim = t.trim := by
  rw [trim, trimStart_trim, trimEnd_trim]

/-- Around a sign with no blank in it, both ends are trimmed by themselves. -/
theorem trim_around {sign : Text} (s t : Text) (nonempty : sign ≠ [])
    (solid : ∀ c ∈ sign, isBlank c = false) :
    trim (s ++ sign ++ t) = s.trimStart ++ sign ++ t.trimEnd := by
  have front : trimStart (s ++ sign ++ t) = s.trimStart ++ sign ++ t := by
    cases sign with
    | nil => exact absurd rfl nonempty
    | cons c cs =>
      rw [List.append_assoc, List.cons_append,
        trimStart_append_cons _ _ (solid c List.mem_cons_self), List.append_assoc,
        List.cons_append]
  unfold trim
  rw [front, ← List.dropLast_append_getLast nonempty, ← List.append_assoc, List.append_assoc,
    List.singleton_append, trimEnd_append_cons _ _ (solid _ (List.getLast_mem nonempty)),
    List.append_assoc (s.trimStart ++ _), List.singleton_append]

/-- A blank at the end is trimmed off. -/
theorem trim_append_blank {c : Char} (t : Text) (blank : isBlank c = true) :
    trim (t ++ [c]) = t.trim := by
  have ends : trimEnd (t ++ [c]) = t.trimEnd := List.rdropWhile_concat_pos isBlank t c blank
  rw [← trimStart_trimEnd, ends, trimStart_trimEnd]

/-- A text that begins with a blank is trimmed like the rest of it. -/
theorem trim_cons_blank {c : Char} (t : Text) (blank : isBlank c = true) :
    trim (c :: t) = t.trim := by
  unfold trim trimStart
  rw [List.dropWhile_cons_of_pos blank]

/-- Only the front of a text is trimmed that ends with no blank. -/
theorem trim_append_solid {word : Text} (front : Text) (nonempty : word ≠ [])
    (solid : ∀ c ∈ word, isBlank c = false) : trim (front ++ word) = front.trimStart ++ word := by
  have around := trim_around front [] nonempty solid
  rwa [List.append_nil, show trimEnd [] = [] from rfl, List.append_nil] at around

/-- What follows a piece that was written first is found behind it. -/
theorem after?_append (lead rest : Text) : after? lead (lead ++ rest) = some rest := by
  induction lead with
  | nil => rfl
  | cons c cs ih => rw [List.cons_append, after?, if_pos rfl, ih]

/-- What stands before a piece that was written last is found before it. -/
theorem before?_append (t ending : Text) : before? ending (t ++ ending) = some t := by
  unfold before?
  rw [List.reverse_append, after?_append, Option.map_some, List.reverse_reverse]

/-- A text that something is left of behind a beginning has that beginning. -/
theorem prefix_of_after? {lead t rest : Text} (found : after? lead t = some rest) :
    lead <+: t := by
  induction lead generalizing t with
  | nil => exact List.nil_prefix
  | cons p ps ih =>
    cases t with
    | nil => cases found
    | cons c cs =>
      rw [after?] at found
      split at found
      · next same =>
        subst same
        exact (List.prefix_cons_inj p).mpr (ih found)
      · cases found

/-- Something is left of a text behind a piece just where the text begins with it. -/
theorem isSome_after?_iff {lead t : Text} : (after? lead t).isSome = true ↔ lead <+: t := by
  constructor
  · intro found
    obtain ⟨rest, found⟩ := Option.isSome_iff_exists.mp found
    exact prefix_of_after? found
  · rintro ⟨rest, rfl⟩
    rw [after?_append]
    rfl

/-- A text is found to end with a piece just where the piece stands at its end. -/
theorem endsWith_iff {t ending : Text} : t.endsWith ending = true ↔ ending <:+ t := by
  unfold endsWith before?
  rw [Option.isSome_map, isSome_after?_iff, List.reverse_prefix]

/-- A text is found to have a piece just where the piece stands somewhere in it. -/
theorem has_iff {t piece : Text} : t.has piece = true ↔ piece <:+: t := by
  unfold has
  induction t with
  | nil =>
    rw [cutAt?, List.infix_nil, ← List.isEmpty_iff]
    cases piece.isEmpty with
    | true => exact iff_of_true rfl rfl
    | false => exact iff_of_false nofun nofun
  | cons c cs ih =>
    rw [cutAt?, List.infix_cons_iff, ← isSome_after?_iff]
    cases after? piece (c :: cs) with
    | some rest => exact iff_of_true rfl (.inl rfl)
    | none =>
      rw [Option.isSome_map, ih]
      exact (or_iff_right nofun).symm

/-- A text is what is left of it when it is trimmed, with blanks around. -/
theorem exists_blanks_trim (t : Text) :
    ∃ front back, (∀ c ∈ front, isBlank c = true) ∧ (∀ c ∈ back, isBlank c = true) ∧
      front ++ t.trim ++ back = t := by
  obtain ⟨front, blankFront, whole⟩ := exists_blanks_trimStart t
  obtain ⟨back, blankBack, rest⟩ := exists_blanks_trimEnd t.trimStart
  exact ⟨front, back, blankFront, blankBack, by rw [trim, List.append_assoc, rest, whole]⟩

/-- Only characters of a text are left of it when it is trimmed. -/
theorem mem_of_mem_trim {c : Char} {t : Text} (left : c ∈ t.trim) : c ∈ t := by
  obtain ⟨front, back, -, -, whole⟩ := exists_blanks_trim t
  rw [← whole]
  exact List.mem_append_left _ (List.mem_append_right _ left)

/-- Blanks around a text are trimmed off. -/
theorem trim_padded {before after : Text} (t : Text) (blankBefore : ∀ c ∈ before, isBlank c = true)
    (blankAfter : ∀ c ∈ after, isBlank c = true) : trim (before ++ t ++ after) = t.trim := by
  have front : trimStart (before ++ (t ++ after)) = trimStart (t ++ after) :=
    List.dropWhile_append_of_pos blankBefore
  have blankBack : ∀ c ∈ after.reverse, isBlank c = true :=
    fun c listed => blankAfter c (List.mem_reverse.mp listed)
  have back : trimEnd (t ++ after) = trimEnd t := by
    unfold trimEnd
    rw [List.reverse_append, List.dropWhile_append_of_pos blankBack]
  rw [List.append_assoc, trim, front, ← trim, ← trim_trimEnd, back, trim_trimEnd]

/-- The end of a text is trimmed by itself, unless all of it is blank. -/
theorem trimEnd_append {t : Text} (front : Text) (solid : t.trim ≠ []) :
    trimEnd (front ++ t) = front ++ t.trimEnd := by
  obtain ⟨blanks, -, whole⟩ := exists_blanks_trimStart t
  cases rest : t.trimStart with
  | nil =>
    rw [trim, rest] at solid
    exact absurd rfl solid
  | cons c cs =>
    have stops : isBlank c = false := by
      have stops := List.head?_dropWhile_not isBlank t
      rwa [show t.dropWhile isBlank = c :: cs from rest] at stops
    rw [rest] at whole
    rw [← whole, ← List.append_assoc, trimEnd_append_cons _ _ stops, trimEnd_append_cons _ _ stops,
      List.append_assoc]

/-- A text is cut at a piece that does not stand anywhere before. -/
theorem cutAt?_append {piece front : Text} (rest : Text)
    (first : ¬piece <:+: front ++ piece.dropLast) :
    cutAt? piece (front ++ (piece ++ rest)) = some (front, rest) := by
  induction front with
  | nil =>
    have found := after?_append piece rest
    rw [List.nil_append]
    cases whole : piece ++ rest with
    | nil =>
      obtain ⟨rfl, rfl⟩ := List.append_eq_nil_iff.mp whole
      rfl
    | cons c cs =>
      rw [whole] at found
      rw [cutAt?, found]
  | cons c front ih =>
    rw [List.cons_append, List.infix_cons_iff, not_or] at first
    have later := ih first.2
    have apart : after? piece (c :: (front ++ (piece ++ rest))) = none := by
      refine Option.not_isSome_iff_eq_none.mp fun found => first.1 ?_
      have begins : c :: (front ++ piece.dropLast) <+: c :: (front ++ (piece ++ rest)) := by
        refine (List.prefix_cons_inj c).mpr (List.prefix_append_right_inj front |>.mpr ?_)
        exact (List.dropLast_prefix piece).trans (List.prefix_append piece rest)
      refine List.prefix_of_prefix_length_le (isSome_after?_iff.mp found) begins ?_
      rw [List.length_cons, List.length_append, List.length_dropLast]
      omega
    rw [List.cons_append, cutAt?, apart]
    dsimp only
    rw [later]
    rfl

/-- Nothing is found before a character that is not the last one. -/
theorem before?_concat {c d : Char} (t : Text) (other : c ≠ d) : before? [d] (t ++ [c]) = none := by
  refine Option.not_isSome_iff_eq_none.mp fun found => ?_
  obtain ⟨front, whole⟩ := endsWith_iff.mp found
  have last := congrArg List.getLast? whole
  rw [List.getLast?_concat, List.getLast?_concat] at last
  exact other (Option.some.inj last).symm

/-- What is found before an ending stands before it. -/
theorem eq_of_before? {t front ending : Text} (found : before? ending t = some front) :
    t = front ++ ending := by
  have ends : t.endsWith ending = true := by rw [endsWith, found]; rfl
  obtain ⟨kept, rfl⟩ := endsWith_iff.mp ends
  rw [before?_append] at found
  rw [Option.some.inj found]

end Keyfob.Text
