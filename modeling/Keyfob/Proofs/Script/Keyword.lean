import Keyfob.Proofs.Script.Condition
import Keyfob.Proofs.Text.Number

/-!
# Words at the front of a line

Most instructions begin with a word. Whether a line begins with it is told from the characters of
the line up to the first blank, whatever comes then (`Script.afterWord?_eq`). So a line that begins
with one word of letters begins with no other, and neither does a line on which anything else than a
letter stands before the first blank, such as the parenthesis of a call or the braces of a
directive. This parts the lines of blocks from calls, and both from macro text.
-/
namespace Keyfob

namespace Text

/-- A text stands apart from a word before it: it begins with a blank, if with anything. -/
def Apart (t : Text) : Prop := ∀ c ∈ t.head?, isBlank c = true

instance : (t : Text) → Decidable t.Apart
  | [] => isTrue nofun
  | c :: _ => decidable_of_iff (isBlank c = true)
      ⟨by rintro blank _ ⟨⟩; exact blank, fun apart => apart c rfl⟩

/-- Nothing stands apart from anything. -/
theorem apart_nil : Apart [] := nofun

/-- More behind a text that stands apart does not move it. -/
theorem Apart.append {t : Text} (apart : t.Apart) (nonempty : t ≠ []) (rest : Text) :
    Apart (t ++ rest) := by
  obtain ⟨c, cs, rfl⟩ := List.exists_cons_of_ne_nil nonempty
  exact apart

/-- A text of no blanks and one apart from it are found again. -/
theorem span_solid {word rest : Text} (solid : ∀ c ∈ word, isBlank c = false) (apart : rest.Apart) :
    (word ++ rest).takeWhile (!isBlank ·) = word ∧
      (word ++ rest).dropWhile (!isBlank ·) = rest := by
  refine span_run (fun c listed => ?_) fun c first => ?_
  · rw [solid c listed]
    rfl
  · rw [apart c first]
    rfl

/-- What begins with a blank still does without the blanks at its end, or is nothing. -/
theorem Apart.trimEnd {t : Text} (apart : t.Apart) : t.trimEnd.Apart := by
  cases t with
  | nil => exact apart
  | cons c cs =>
    intro d first
    rw [eq_of_head?_trimEnd first]
    exact apart c rfl

/-- Whether a text consists of letters. -/
def isLettered (t : Text) : Bool := t.lower.all isLetter

/-- What has the letters of a text of letters may stand in a name. -/
theorem continuesName_of_lettered {written word : Text} (same : sameLetters written word = true)
    (lettered : word.isLettered = true) : ∀ c ∈ written, continuesName c = true := fun _ =>
  continuesName_of_sameLetters same (List.all_eq_true.mp lettered)

/-- It has no blank in it. -/
theorem solid_of_lettered {written word : Text} (same : sameLetters written word = true)
    (lettered : word.isLettered = true) : ∀ c ∈ written, isBlank c = false := fun c listed =>
  isBlank_of_continuesName (continuesName_of_lettered same lettered c listed)

/-- A character that is another in small letters is a letter. -/
theorem toLower_eq_or_isLetter (c : Char) : c.toLower = c ∨ isLetter c = true := by
  by_cases capital : c.val ≥ 'A'.val ∧ c.val ≤ 'Z'.val
  · exact .inr ((isLetter_iff c).mpr (.inr capital))
  · exact .inl (dif_neg capital)

/-- What is a name in small letters is a name. -/
theorem isName_of_lower {t : Text} (isName : t.lower.isName = true) : t.isName = true := by
  have starts {c : Char} (starts : startsName c.toLower = true) : startsName c = true := by
    obtain same | letter := toLower_eq_or_isLetter c
    · rwa [same] at starts
    · rw [startsName, letter]
      rfl
  have continues {c : Char} (continues : continuesName c.toLower = true) :
      continuesName c = true := by
    obtain same | letter := toLower_eq_or_isLetter c
    · rwa [same] at continues
    · rw [continuesName, letter]
      rfl
  cases t with
  | nil => exact isName
  | cons c cs =>
    obtain ⟨first, later⟩ := (Bool.and_eq_true _ _).mp isName
    refine (Bool.and_eq_true _ _).mpr ⟨starts first, List.all_eq_true.mpr fun d listed => ?_⟩
    exact continues (List.all_eq_true.mp later _ (List.mem_map_of_mem listed))

/-- Every character of a name may stand in it. -/
theorem continuesName_of_mem {t : Text} (isName : t.isName = true) :
    ∀ c ∈ t, continuesName c = true := by
  cases t with
  | nil => exact nofun
  | cons c cs =>
    obtain ⟨first, later⟩ := (Bool.and_eq_true _ _).mp isName
    exact List.forall_mem_cons.mpr ⟨continuesName_of_startsName first, List.all_eq_true.mp later⟩

/-- A name has no blank in it. -/
theorem solid_of_isName {t : Text} (isName : t.isName = true) : ∀ c ∈ t, isBlank c = false :=
  fun c listed => isBlank_of_continuesName (continuesName_of_mem isName c listed)

/-- A name has a first character. -/
theorem ne_nil_of_isName {t : Text} (isName : t.isName = true) : t ≠ [] := by
  rintro rfl
  cases isName

/-- A sign that is no blank and stands in no name does not stand around a name either. -/
theorem notMem_of_trim_isName {t : Text} {sign : Char} (isName : t.trim.isName = true)
    (solid : isBlank sign = false) (other : continuesName sign = false) : sign ∉ t := by
  obtain ⟨front, back, blankFront, blankBack, whole⟩ := exists_blanks_trim t
  rw [← whole]
  refine List.not_mem_append (List.not_mem_append ?_ ?_) ?_
  · exact fun listed => Bool.false_ne_true (solid.symm.trans (blankFront _ listed))
  · exact fun listed =>
      Bool.false_ne_true (other.symm.trans (continuesName_of_mem isName _ listed))
  · exact fun listed => Bool.false_ne_true (solid.symm.trans (blankBack _ listed))

end Text

namespace Script

open Text (sameLetters Apart)

/-- Whether a line begins with a word of letters is told from its characters up to the first
blank. -/
theorem afterWord?_eq {word : Text} (lettered : word.isLettered = true) (line : Text) :
    afterWord? word line =
      if sameLetters (line.takeWhile (!Text.isBlank ·)) word then
        some (Text.trim (line.dropWhile (!Text.isBlank ·)))
      else none := by
  split
  · next same =>
    have apart : Text.Apart (line.dropWhile (!Text.isBlank ·)) := by
      intro c first
      have stops := Text.head?_dropWhile line c first
      rwa [Bool.not_eq_false'] at stops
    have found := afterWord?_of_letters same apart
    rwa [List.takeWhile_append_dropWhile] at found
  · next other =>
    -- The letters of the word at the front would be all that stands before the first blank.
    have ends (taken : sameLetters (line.take word.length) word = true)
        (apart : Text.Apart (line.drop word.length)) : False := by
      have front := (Text.span_solid (Text.solid_of_lettered taken lettered) apart).1
      rw [List.take_append_drop] at front
      rw [front] at other
      exact other taken
    unfold afterWord?
    split
    · next taken =>
      split
      · next nothing => exact (ends taken (nothing ▸ nofun)).elim
      · next c rest more =>
        refine if_neg fun blank => ends taken ?_
        rw [more]
        rintro d ⟨⟩
        exact blank
    · rfl

/-- A line that begins with the letters of one word begins with no other word. -/
theorem afterWord?_of_other {written word other rest : Text}
    (same : sameLetters written word = true) (lettered : word.isLettered = true)
    (otherLettered : other.isLettered = true) (apart : rest.Apart)
    (differ : word.lower ≠ other.lower) : afterWord? other (written ++ rest) = none := by
  rw [afterWord?_eq otherLettered,
    (Text.span_solid (Text.solid_of_lettered same lettered) apart).1]
  refine if_neg fun both => differ ?_
  rw [← Text.sameLetters_iff.mp same, Text.sameLetters_iff.mp both]

/-- A line on which something else than a letter stands before the first blank begins with no
word. -/
theorem afterWord?_of_sign {word rest : Text} {sign : Char} (front : Text)
    (lettered : word.isLettered = true) (solid : ∀ c ∈ front, Text.isBlank c = false)
    (solidSign : Text.isBlank sign = false) (other : Text.continuesName sign = false) :
    afterWord? word (front ++ sign :: rest) = none := by
  rw [afterWord?_eq lettered]
  refine if_neg fun same => ?_
  have listed : sign ∈ (front ++ sign :: rest).takeWhile (!Text.isBlank ·) := by
    have all : ∀ c ∈ front, (!Text.isBlank c) = true := fun c listed => by rw [solid c listed]; rfl
    rw [List.takeWhile_append_of_pos all, List.takeWhile_cons_of_pos (by rw [solidSign]; rfl)]
    exact List.mem_append_right _ List.mem_cons_self
  have continues := Text.continuesName_of_lettered same lettered sign listed
  rw [other] at continues
  cases continues

/-- The words that lines of blocks and assignments begin with. -/
def blockWords : List Text :=
  ["VAR", "IF", "ELSE", "ENDIF", "LOOP", "ENDLOOP", "FOR", "NEXT"]

/-- Only what is left of a line when it is trimmed matters. -/
theorem instruction?_congr {s t : Text} (same : s.trim = t.trim) :
    instruction? s = instruction? t := by
  rw [instruction?, instruction?, same]

/-- A line is no comment if it begins with something else than a slash and with no word of
remarks. -/
theorem isComment_eq_false {line : Text} (noSlash : ∀ c ∈ line.head?, c ≠ '/')
    (noRemark : afterWord? "REM" line = none) : isComment line = false := by
  rw [isComment, noRemark, Option.isSome_none, Bool.or_false]
  refine Bool.eq_false_iff.mpr fun slashes => ?_
  obtain ⟨rest, rfl⟩ := Text.isSome_after?_iff.mp slashes
  exact noSlash '/' rfl rfl

/-- The words of blocks consist of letters, and none is the word of remarks. -/
theorem lettered_of_blockWords :
    ∀ word ∈ blockWords, word ≠ [] ∧ word.lower ≠ Text.lower "REM" ∧ word.isLettered = true := by
  decide

/-- Different words of blocks differ in small letters. -/
theorem eq_of_lower_blockWords :
    ∀ word ∈ blockWords, ∀ other ∈ blockWords, word.lower = other.lower → word = other := by
  decide

/-- A line is read as it is trimmed. -/
theorem instruction?_of_trim {t line : Text} (trimmed : t.trim = line) (nonempty : line ≠ [])
    (plain : isComment line = false) : instruction? t = some (instruction line) := by
  unfold instruction?
  rw [trimmed, plain, Bool.or_false, if_neg (by rwa [List.isEmpty_iff])]

/-- What is behind a word is found without the blanks at its end. -/
theorem afterWord?_trimEnd {written word rest : Text} (same : sameLetters written word = true)
    (apart : rest.Apart) : afterWord? word (written ++ rest.trimEnd) = some rest.trim := by
  rw [← Text.trim_trimEnd rest]
  exact afterWord?_of_letters same apart.trimEnd

section Block

variable {written word rest : Text} (listed : word ∈ blockWords)
  (same : sameLetters written word = true)

include listed same

/-- A line that begins with a word of blocks begins with no other of them. -/
theorem afterWord?_other (apart : rest.Apart) (other : Text) (among : other ∈ blockWords)
    (differ : word ≠ other) : afterWord? other (written ++ rest.trimEnd) = none := by
  refine afterWord?_of_other same (lettered_of_blockWords word listed).2.2
    (lettered_of_blockWords other among).2.2 apart.trimEnd fun equal => ?_
  exact differ (eq_of_lower_blockWords word listed other among equal)

/-- Such a line holds an instruction. -/
theorem instruction?_blockWord (apart : rest.Apart) :
    instruction? (written ++ rest) = some (instruction (written ++ rest.trimEnd)) := by
  obtain ⟨nonempty, noRemark, lettered⟩ := lettered_of_blockWords word listed
  have continues := Text.continuesName_of_lettered same lettered
  have remark : afterWord? "REM" (written ++ rest.trimEnd) = none :=
    afterWord?_of_other same lettered (by decide) apart.trimEnd noRemark
  have long := Text.length_of_sameLetters same
  cases written with
  | nil => exact absurd (List.length_eq_zero_iff.mp long.symm) nonempty
  | cons c cs =>
    have trimmed : Text.trim (c :: cs ++ rest) = c :: cs ++ rest.trimEnd :=
      Text.trim_around [] rest (List.cons_ne_nil c cs) (Text.solid_of_lettered same lettered)
    refine instruction?_of_trim trimmed nofun (isComment_eq_false ?_ remark)
    rintro _ ⟨⟩ rfl
    exact absurd (continues '/' List.mem_cons_self) (by decide)

end Block

end Script

end Keyfob
