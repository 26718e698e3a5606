import Keyfob.Proofs.Expr.Spelling
import Keyfob.Proofs.Text.Lines
import Keyfob.Script.Instruction

/-!
# Conditions of blocks

A line that begins a block under a condition may end with a word that is no part of the condition.
The word is looked for in the last four letters of the line, whatever stands before them. Where it
is written after a blank the condition is what stands before it, and a condition is read as it is
written without the word too, unless its last name ends in those four letters: that name loses them.
The words at the front of a line, in contrast, are looked for up to their end
(`Script.afterWord?`).
-/
namespace Keyfob

namespace Text

/-- The run of characters of names at the end of a text. -/
def finalName (t : Text) : Text := t.rtakeWhile continuesName

/-- What is a letter in small is a letter. -/
theorem isLetter_of_toLower {c : Char} (letter : isLetter c.toLower = true) :
    isLetter c = true := by
  by_cases capital : c.val ≥ 'A'.val ∧ c.val ≤ 'Z'.val
  · exact (isLetter_iff c).mpr (.inr capital)
  · have kept : c.toLower = c := dif_neg capital
    rwa [kept] at letter

/-- Texts are the same up to the case of letters if they are the same in small letters. -/
theorem sameLetters_iff {s t : Text} : sameLetters s t = true ↔ s.lower = t.lower := beq_iff_eq

/-- The same letters are as many. -/
theorem length_of_sameLetters {s t : Text} (same : sameLetters s t = true) :
    s.length = t.length := by
  have lengths := congrArg List.length (sameLetters_iff.mp same)
  rwa [lower, lower, List.length_map, List.length_map] at lengths

/-- Up to the case of letters, a piece stands at the end of a text if one with the same letters
does. -/
theorem lower_suffix_iff {piece t : Text} :
    piece.lower <:+ t.lower ↔ ∃ front cut, t = front ++ cut ∧ sameLetters cut piece = true := by
  constructor
  · rintro ⟨front, whole⟩
    obtain ⟨kept, cut, rfl, -, same⟩ := List.map_eq_append_iff.mp whole.symm
    exact ⟨kept, cut, rfl, sameLetters_iff.mpr same⟩
  · rintro ⟨front, cut, rfl, same⟩
    rw [← sameLetters_iff.mp same, lower, lower, List.map_append]
    exact List.suffix_append _ _

/-- What has the letters of a word may stand in a name. -/
theorem continuesName_of_sameLetters {cut word : Text} (same : sameLetters cut word = true)
    (letters : ∀ c ∈ word.lower, isLetter c = true) {c : Char} (listed : c ∈ cut) :
    continuesName c = true := by
  have small : c.toLower ∈ word.lower := by
    rw [← sameLetters_iff.mp same]
    exact List.mem_map_of_mem listed
  rw [continuesName, isLetter_of_toLower (letters _ small)]
  rfl

/-- The last run of characters of names goes back as far as there are such. -/
theorem suffix_finalName {piece t : Text} (ends : piece <:+ t)
    (named : ∀ c ∈ piece, continuesName c = true) : piece <:+ t.finalName := by
  obtain ⟨front, rfl⟩ := ends
  have back : ∀ c ∈ piece.reverse, continuesName c = true :=
    fun c listed => named c (List.mem_reverse.mp listed)
  rw [finalName, List.rtakeWhile, List.reverse_append, List.takeWhile_append_of_pos back,
    List.reverse_append, List.reverse_reverse]
  exact List.suffix_append _ _

/-- A word of letters stands at the end of a text just where it stands at the end of the last
name. -/
theorem lower_suffix_finalName_iff {word t : Text} (letters : ∀ c ∈ word.lower, isLetter c = true) :
    word.lower <:+ t.finalName.lower ↔ word.lower <:+ t.lower := by
  constructor
  · intro ends
    exact ends.trans ((List.rtakeWhile_suffix continuesName t).map Char.toLower)
  · intro ends
    obtain ⟨front, cut, rfl, same⟩ := lower_suffix_iff.mp ends
    obtain ⟨before, whole⟩ := suffix_finalName (List.suffix_append front cut)
      fun c => continuesName_of_sameLetters same letters
    exact lower_suffix_iff.mpr ⟨before, cut, whole.symm, same⟩

end Text

namespace Script

open Text (sameLetters finalName)

/-- The word that may end the line of a condition consists of letters. -/
theorem letters_then : ∀ c ∈ Text.lower "THEN", Text.isLetter c = true :=
  List.all_eq_true.mp (by decide)

/-- The four letters at the end of a line are taken off the condition, and then the blanks. -/
theorem conditionOf_append {word : Text} (front : Text) (same : sameLetters word "THEN" = true) :
    conditionOf (front ++ word) = front.trim := by
  have kept : (front ++ word).length - "THEN".toList.length = front.length := by
    rw [List.length_append, Text.length_of_sameLetters same, Nat.add_sub_cancel]
  unfold conditionOf
  dsimp only
  rw [kept, List.drop_left, List.take_left, if_pos same]

/-- The line is the condition just where it does not end in these four letters. -/
theorem conditionOf_eq_iff {rest : Text} :
    conditionOf rest = rest ↔ ¬Text.lower "THEN" <:+ rest.lower := by
  constructor
  · intro whole ends
    obtain ⟨front, cut, rfl, same⟩ := Text.lower_suffix_iff.mp ends
    rw [conditionOf_append front same] at whole
    have lengths := congrArg List.length whole
    rw [List.length_append, Text.length_of_sameLetters same] at lengths
    have fewer := Text.length_trim_le front
    have four : "THEN".toList.length = 4 := rfl
    omega
  · intro other
    refine if_neg fun same => other (Text.lower_suffix_iff.mpr ?_)
    exact ⟨_, _, (List.take_append_drop _ _).symm, same⟩

/-- What follows the letters of a word is found behind them, trimmed, if it stands apart. -/
theorem afterWord?_of_letters {word front rest : Text} (same : sameLetters front word = true)
    (apart : ∀ c ∈ rest.head?, Text.isBlank c = true) :
    afterWord? word (front ++ rest) = some rest.trim := by
  unfold afterWord?
  rw [← Text.length_of_sameLetters same, List.take_left, List.drop_left, if_pos same]
  cases rest with
  | nil => rfl
  | cons c cs => exact if_pos (apart c rfl)

/-- What follows a word is found behind it, trimmed, if a blank stands between. -/
theorem afterWord?_append {word rest : Text} (apart : ∀ c ∈ rest.head?, Text.isBlank c = true) :
    afterWord? word (word ++ rest) = some rest.trim :=
  afterWord?_of_letters (Text.sameLetters_iff.mpr rfl) apart

/-- A line that begins with another letter does not begin with a word. -/
theorem afterWord?_eq_none {c d : Char} (word line : Text) (apart : c.toLower ≠ d.toLower) :
    afterWord? (d :: word) (c :: line) = none := by
  refine if_neg fun same => apart ?_
  exact (List.cons.inj (Text.sameLetters_iff.mp same)).1

/-- A line that begins with the word of conditions begins a block under the condition that follows
it. -/
theorem instruction?_if (rest : Text) :
    instruction? ("IF ".toList ++ rest) = some (.ifThen (conditionOf rest.trim)) := by
  let behind := Text.trimEnd (' ' :: rest)
  have line : Text.trim ("IF ".toList ++ rest) = "IF".toList ++ behind :=
    Text.trimEnd_append_cons ['I'] (' ' :: rest) (by decide)
  have apart : ∀ c ∈ behind.head?, Text.isBlank c = true := fun c first =>
    congrArg Text.isBlank (Text.eq_of_head?_trimEnd first)
  have condition : afterWord? "IF" ("IF".toList ++ behind) = some rest.trim := by
    rw [← Text.trim_cons_blank rest (show Text.isBlank ' ' = true by decide),
      ← Text.trim_trimEnd (' ' :: rest)]
    exact afterWord?_append apart
  have comment : isComment ("IF".toList ++ behind) = false := by
    have remark : afterWord? "REM" ("IF".toList ++ behind) = none :=
      afterWord?_eq_none _ _ (by decide)
    rw [isComment, remark]
    rfl
  have assigned : afterWord? "VAR" ("IF".toList ++ behind) = none :=
    afterWord?_eq_none _ _ (by decide)
  unfold instruction?
  rw [line, comment, Bool.or_false]
  refine congrArg some ?_
  unfold instruction
  rw [assigned, condition]

/-- A line alone that begins with the word of conditions is one instruction. -/
theorem compile_if {rest : Text} (oneLine : '\n' ∉ rest) :
    compile ("IF ".toList ++ rest) = [.ifThen (conditionOf rest.trim)] := by
  have nonempty : "IF ".toList ++ rest ≠ [] := List.append_ne_nil_of_left_ne_nil (by decide) rest
  have whole : '\n' ∉ "IF ".toList ++ rest := List.not_mem_append (by decide) oneLine
  unfold compile
  rw [Text.lines_of_notMem nonempty whole, List.filterMap_cons, instruction?_if]
  rfl

/-- A condition that the word follows after a blank is what stands before them. -/
theorem compile_if_then {condition : Text} (oneLine : '\n' ∉ condition) :
    compile ("IF ".toList ++ (condition ++ " THEN".toList)) = [.ifThen condition.trim] := by
  have whole : '\n' ∉ condition ++ " THEN".toList := List.not_mem_append oneLine (by decide)
  have solid : ∀ c ∈ "THEN".toList, Text.isBlank c = false := fun c listed =>
    Text.isBlank_of_continuesName
      (Text.continuesName_of_sameLetters (Text.sameLetters_iff.mpr rfl) letters_then listed)
  have trimmed : Text.trim (condition ++ [' '] ++ "THEN".toList) =
      Text.trimStart (condition ++ [' ']) ++ "THEN".toList :=
    Text.trim_append_solid _ (by decide) solid
  rw [List.append_assoc] at trimmed
  rw [compile_if whole, show " THEN".toList = [' '] ++ "THEN".toList by rfl, trimmed,
    conditionOf_append _ (Text.sameLetters_iff.mpr rfl), Text.trim_trimStart,
    Text.trim_append_blank _ (by decide)]

/-- A trimmed condition whose last name ends in the letters of the word is read without them, and
nothing else is taken off if something of the name is left. -/
theorem compile_if_cut {front kept cut : Text} (oneLine : '\n' ∉ front ++ (kept ++ cut))
    (trimmed : Text.trim (front ++ (kept ++ cut)) = front ++ (kept ++ cut))
    (named : ∀ c ∈ kept ++ cut, Text.continuesName c = true) (left : kept ≠ [])
    (same : sameLetters cut "THEN" = true) :
    compile ("IF ".toList ++ (front ++ (kept ++ cut))) = [.ifThen (front ++ kept)] := by
  have solid : ∀ c ∈ kept ++ cut, Text.isBlank c = false :=
    fun c listed => Text.isBlank_of_continuesName (named c listed)
  have begins : front.trimStart = front := by
    have whole := Text.trim_append_solid front (List.append_ne_nil_of_left_ne_nil left cut) solid
    exact List.append_cancel_right (whole.symm.trans trimmed)
  have rest : Text.trim (front ++ kept) = front ++ kept := by
    rw [Text.trim_append_solid front left fun c listed => solid c (List.mem_append_left _ listed),
      begins]
  rw [compile_if oneLine, trimmed, ← List.append_assoc, conditionOf_append _ same, rest]

/-- A trimmed condition on one line is read as it is written where the word follows it. Without the
word it is read so just where its last name does not end in the letters of the word; if that name
does end in them and is more than they are, they are cut off. -/
theorem compile_condition {condition : Text} (trimmed : condition.trim = condition)
    (oneLine : '\n' ∉ condition) :
    compile ("IF ".toList ++ (condition ++ " THEN".toList)) = [.ifThen condition] ∧
      (compile ("IF ".toList ++ condition) = [.ifThen condition] ↔
        ¬Text.lower "THEN" <:+ condition.finalName.lower) ∧
      ∀ kept cut : Text, condition.finalName = kept ++ cut → kept ≠ [] →
        sameLetters cut "THEN" = true → ∃ front, condition = front ++ (kept ++ cut) ∧
          compile ("IF ".toList ++ condition) = [.ifThen (front ++ kept)] := by
  refine ⟨?_, ?_, fun kept cut name left same => ?_⟩
  · rw [compile_if_then oneLine, trimmed]
  · rw [compile_if oneLine, trimmed, Text.lower_suffix_finalName_iff letters_then,
      ← conditionOf_eq_iff, List.singleton_inj, Instruction.ifThen.injEq]
  · obtain ⟨front, whole⟩ := List.rtakeWhile_suffix Text.continuesName condition
    rw [show condition.rtakeWhile Text.continuesName = kept ++ cut from name] at whole
    subst whole
    refine ⟨front, rfl, compile_if_cut oneLine trimmed (fun c listed => ?_) left same⟩
    rw [← name] at listed
    exact List.mem_rtakeWhile_imp listed

/-- Of a comparison with a variable nothing is cut off, and of one with a longer name than the word
four letters are. -/
theorem compile_condition_names :
    let plain : Text := "n > limit"
    let longer : Text := "n > Lengthen"
    plain.trim = plain ∧ '\n' ∉ plain ∧ longer.trim = longer ∧ '\n' ∉ longer ∧
      compile ("IF ".toList ++ (plain ++ " THEN".toList)) = [.ifThen plain] ∧
      compile ("IF ".toList ++ plain) = [.ifThen plain] ∧
      compile ("IF ".toList ++ (longer ++ " THEN".toList)) = [.ifThen longer] ∧
      ∃ front, longer = front ++ ("Leng".toList ++ "then".toList) ∧
        compile ("IF ".toList ++ longer) = [.ifThen (front ++ "Leng".toList)] := by
  intro plain longer
  have trimmedPlain : plain.trim = plain := by decide
  have linePlain : '\n' ∉ plain := by decide
  have trimmedLonger : longer.trim = longer := by decide
  have lineLonger : '\n' ∉ longer := by decide
  obtain ⟨withWord, without, -⟩ := compile_condition trimmedPlain linePlain
  obtain ⟨withWord', -, cut⟩ := compile_condition trimmedLonger lineLonger
  exact ⟨trimmedPlain, linePlain, trimmedLonger, lineLonger, withWord, without.mpr (by decide),
    withWord', cut "Leng" "then" (by decide) (by decide) (by decide)⟩

/-- A condition that is one name loses the end of this name. -/
theorem compile_strengthen :
    let condition : Text := "strengthen"
    condition.trim = condition ∧ '\n' ∉ condition ∧ condition.finalName = condition ∧
      sameLetters condition.finalName "THEN" = false ∧
      compile ("IF ".toList ++ (condition ++ " THEN".toList)) = [.ifThen condition] ∧
      compile ("IF ".toList ++ condition) = [.ifThen "streng"] ∧
      compile ("IF ".toList ++ condition) ≠ [.ifThen condition] := by
  decide

end Script

end Keyfob
