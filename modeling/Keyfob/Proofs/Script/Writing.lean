import Keyfob.Proofs.Script.Keyword

/-!
# Scripts as they are written

A script is written line by line (`Script.Written`): an instruction on a line of its own, with words
in any letter case and with any blanks around it, and blank lines and comments anywhere. What may
stand in an instruction is only what its line needs to be told apart: a condition, a count or the
argument of a call is any text on one line, and only what ends at a sign is free of that sign. Such
a script is compiled to its instructions (`Script.compile_written`).
-/
namespace Keyfob

/-- The names of calls that mean something. -/
def Script.builtIns : List Text := ["wait", "set_val", "combo_run"]

/-- A call as it is written, perhaps with a semicolon at its end. -/
def Script.calling (name args : Text) (closed : Bool) : Text :=
  name ++ '(' :: (args ++ ')' :: if closed then [';'] else [])

namespace Instruction

open Text (sameLetters Apart)

/-- How an instruction is written on a line, but for blanks around it. Words stand in any letter
case, and blanks stand around what is trimmed. -/
inductive Written : Instruction → Text → Prop where
  /-- An assignment of an expression that is not enclosed in double quotes. -/
  | assign (word lead rest : Text) {name expr : Text} (same : sameLetters word "VAR" = true)
    (apart : lead.Apart) (named : lead.trim = name) (isName : name.isName = true)
    (single : rest.beginsWith "=" = false) (value : rest.trim = expr)
    (bare : ∀ inside : Text, expr ≠ '"' :: (inside ++ ['"'])) :
    Written (assign name (.expr expr)) (word ++ (lead ++ '=' :: rest))
  /-- An assignment of a text between double quotes. -/
  | assignString (word lead rest : Text) {name inside : Text}
    (same : sameLetters word "VAR" = true) (apart : lead.Apart) (named : lead.trim = name)
    (isName : name.isName = true) (value : rest.trim = '"' :: (inside ++ ['"'])) :
    Written (assign name (.string inside)) (word ++ (lead ++ '=' :: rest))
  /-- The beginning of a block under a condition. -/
  | ifThen (word lead last : Text) {condition : Text} (same : sameLetters word "IF" = true)
    (nonempty : lead ≠ []) (apart : lead.Apart) (apartBehind : Apart lead.reverse)
    (trimmed : lead.trim = condition) (sameLast : sameLetters last "THEN" = true) :
    Written (ifThen condition) (word ++ (lead ++ last))
  /-- The beginning of the other branch. -/
  | otherwise (word : Text) (same : sameLetters word "ELSE" = true) : Written otherwise word
  /-- The end of a block under a condition. -/
  | endIf (word : Text) (same : sameLetters word "ENDIF" = true) : Written endIf word
  /-- The beginning of a counted block. -/
  | loop (word rest : Text) {count : Text} (same : sameLetters word "LOOP" = true)
    (apart : rest.Apart) (trimmed : rest.trim = count) : Written (loop count) (word ++ rest)
  /-- The end of a counted block. -/
  | endLoop (word : Text) (same : sameLetters word "ENDLOOP" = true) : Written endLoop word
  /-- The beginning of a block over a range. The word between the bounds stands between two spaces,
  and nowhere so before. -/
  | forRange (word lead front between back : Text) {name first last : Text}
    (same : sameLetters word "FOR" = true) (apart : lead.Apart) (named : lead.trim = name)
    (isName : name.isName = true) (sameBetween : between.upper = "TO")
    (free : ¬" TO ".toList <:+: Text.upper (front ++ [' '])) (trimmedFirst : front.trim = first)
    (trimmedLast : back.trim = last) (nonempty : last ≠ []) :
    Written (forRange name first last)
      (word ++ (lead ++ '=' :: (front ++ (' ' :: (between ++ [' ']) ++ back))))
  /-- The end of a block over a range, with the name of its variable. -/
  | next (word rest : Text) (same : sameLetters word "NEXT" = true) (apart : rest.Apart)
    (isName : rest.trim.isName = true) : Written next (word ++ rest)
  /-- A pause. -/
  | wait (word ms : Text) (closed : Bool) (same : sameLetters word "wait" = true) :
    Written (wait ms) (Script.calling word ms closed)
  /-- A change of a gamepad button. -/
  | setButton (word front back : Text) (closed : Bool) {button value : Text}
    (same : sameLetters word "set_val" = true) (free : ',' ∉ front)
    (trimmedButton : front.trim = button) (trimmedValue : back.trim = value) :
    Written (setButton button value) (Script.calling word (front ++ ',' :: back) closed)
  /-- A combination. -/
  | combo (word args : Text) (closed : Bool) {name : Text}
    (same : sameLetters word "combo_run" = true) (trimmed : args.trim = name) :
    Written (combo name) (Script.calling word args closed)
  /-- Any other call, which is remembered in small letters. -/
  | call (word args : Text) (closed : Bool) {name : Text} (isName : word.isName = true)
    (small : word.lower = name) (other : name ∉ Script.builtIns) :
    Written (call name) (Script.calling word args closed)
  /-- Macro text that begins with two braces. -/
  | typed {t : Text} (begins : "\x7b\x7b".toList <+: t) (trimmed : t.trim = t) :
    Written (typed t) t

end Instruction

namespace Script

open Text (sameLetters Apart)

/-- A line holds no instruction: it is blank, or a comment of one of two kinds. -/
inductive Silent : Text → Prop where
  /-- There is nothing but blanks on the line. -/
  | blank {t : Text} (blank : ∀ c ∈ t, Text.isBlank c = true) : Silent t
  /-- The line begins with two slashes. -/
  | slashes (before rest : Text) (blank : ∀ c ∈ before, Text.isBlank c = true) :
    Silent (before ++ ("//" ++ rest))
  /-- The line begins with the word of remarks. -/
  | remark (before word rest : Text) (blank : ∀ c ∈ before, Text.isBlank c = true)
    (same : sameLetters word "REM" = true) (apart : rest.Apart) : Silent (before ++ (word ++ rest))

/-- How a list of instructions is written in lines. -/
inductive Written : List Instruction → List Text → Prop where
  /-- No lines are no instructions. -/
  | nil : Written [] []
  /-- A line that holds none may stand anywhere. -/
  | silent {t : Text} {program : List Instruction} {texts : List Text} (silent : Silent t)
    (later : Written program texts) : Written program (t :: texts)
  /-- An instruction stands on a line of its own, with blanks around it. -/
  | line (before after : Text) {t : Text} {instruction : Instruction} {program : List Instruction}
    {texts : List Text} (blankBefore : ∀ c ∈ before, Text.isBlank c = true)
    (blankAfter : ∀ c ∈ after, Text.isBlank c = true) (written : instruction.Written t)
    (later : Written program texts) :
    Written (instruction :: program) ((before ++ t ++ after) :: texts)

/-- A text between double quotes is assigned as it stands between them. -/
theorem assigned_quoted (inside : Text) : assigned ('"' :: (inside ++ ['"'])) = .string inside := by
  unfold assigned
  rw [show Text.after? "\"" ('"' :: (inside ++ ['"'])) = some (inside ++ ['"']) from
    Text.after?_append ['"'] _, Option.bind_some,
    show Text.before? "\"" (inside ++ ['"']) = some inside from Text.before?_append inside ['"']]

/-- Anything else is an expression. -/
theorem assigned_bare {expr : Text} (bare : ∀ inside : Text, expr ≠ '"' :: (inside ++ ['"'])) :
    assigned expr = .expr expr := by
  unfold assigned
  split
  · next inside found =>
    obtain ⟨behind, after, before⟩ := Option.bind_eq_some_iff.mp found
    obtain ⟨rest, rfl⟩ := Text.prefix_of_after? after
    rw [Text.after?_append] at after
    cases after
    exact absurd (congrArg ('"' :: ·) (Text.eq_of_before? before)) (bare inside)
  · rfl

/-- An assignment is cut at its first equals sign. -/
theorem assignment?_append {lead rest : Text} (isName : lead.trim.isName = true)
    (single : rest.beginsWith "=" = false) :
    assignment? (lead ++ '=' :: rest) = some (.assign lead.trim (assigned rest.trim)) := by
  have free : '=' ∉ lead := Text.notMem_of_trim_isName isName (by decide) (by decide)
  unfold assignment?
  rw [Text.cutFirst?_append rest (List.forall_mem_ne'.mpr free)]
  dsimp only
  rw [isName, single]
  rfl

/-- What does not begin with an equals sign does not without the blanks at its end. -/
theorem single_trimEnd {rest : Text} (single : rest.beginsWith "=" = false) :
    rest.trimEnd.beginsWith "=" = false := by
  obtain ⟨blanks, -, whole⟩ := Text.exists_blanks_trimEnd rest
  refine Bool.eq_false_iff.mpr fun begins => Bool.eq_false_iff.mp single ?_
  refine Text.isSome_after?_iff.mpr ((Text.isSome_after?_iff.mp begins).trans ?_)
  exact ⟨blanks, whole⟩

/-- A line with the word of assignments assigns what is behind its first equals sign. -/
theorem instruction?_var {written lead rest : Text} (same : sameLetters written "VAR" = true)
    (apart : lead.Apart) (isName : lead.trim.isName = true)
    (single : rest.beginsWith "=" = false) :
    instruction? (written ++ (lead ++ '=' :: rest)) =
      some (.assign lead.trim (assigned rest.trim)) := by
  have nonempty : lead ≠ [] := by
    rintro rfl
    cases isName
  have begins := apart.append nonempty ('=' :: rest)
  rw [← Text.trim_trimStart] at isName
  have read := assignment?_append isName (single_trimEnd single)
  rw [instruction?_blockWord (by decide) same begins, instruction, afterWord?_trimEnd same begins,
    Text.trim_append_cons _ _ (by decide), Option.some_inj]
  dsimp only
  rw [read, Text.trim_trimStart, Text.trim_trimEnd, Option.getD_some]

/-- A line with the words of conditions begins a block under what stands between them. -/
theorem instruction?_ifThen {written lead last : Text} (same : sameLetters written "IF" = true)
    (nonempty : lead ≠ []) (apart : lead.Apart) (sameLast : sameLetters last "THEN" = true) :
    instruction? (written ++ (lead ++ last)) = some (.ifThen lead.trim) := by
  have begins := apart.append nonempty last
  have solid := Text.solid_of_lettered sameLast (by decide)
  have long : last ≠ [] := by
    rintro rfl
    cases sameLast
  have other := afterWord?_other (by decide) same begins
  rw [instruction?_blockWord (by decide) same begins]
  simp (disch := decide) only [instruction, other, afterWord?_trimEnd same begins]
  rw [Text.trim_append_solid lead long solid, conditionOf_append _ sameLast, Text.trim_trimStart]

/-- A line with a word that takes nothing behind it is read like the word. -/
theorem instruction?_alone {written word : Text}
    (listed : word ∈ ["ELSE".toList, "ENDIF", "ENDLOOP"])
    (same : sameLetters written word = true) : instruction? written = some (instruction word) := by
  have among : word ∈ blockWords :=
    (show ∀ word ∈ ["ELSE".toList, "ENDIF", "ENDLOOP"], word ∈ blockWords by decide) word listed
  have other := afterWord?_other among same Text.apart_nil
  have own := afterWord?_trimEnd same Text.apart_nil
  have read := instruction?_blockWord among same Text.apart_nil
  rw [List.append_nil] at read
  rw [read]
  simp only [List.mem_cons, List.not_mem_nil, or_false] at listed
  obtain rfl | rfl | rfl := listed
  all_goals
    simp (disch := decide) only [instruction, isWord, other, own]
    rfl

/-- A line with the word of counted blocks begins one. -/
theorem instruction?_loop {written rest : Text} (same : sameLetters written "LOOP" = true)
    (apart : rest.Apart) : instruction? (written ++ rest) = some (.loop rest.trim) := by
  have other := afterWord?_other (by decide) same apart
  rw [instruction?_blockWord (by decide) same apart]
  simp (disch := decide) only [instruction, isWord, other, afterWord?_trimEnd same apart]
  rfl

/-- The bounds of a range are parted at the word between them, where it first stands between two
spaces. -/
theorem cutAtWord?_append {front between : Text} (back : Text) (sameBetween : between.upper = "TO")
    (free : ¬" TO ".toList <:+: Text.upper (front ++ [' '])) :
    cutAtWord? " TO " (front ++ (' ' :: (between ++ [' ']) ++ back)) = some (front, back) := by
  have middle : Text.upper (' ' :: (between ++ [' '])) = " TO ".toList := by
    rw [Text.upper, List.map_cons, List.map_append, ← Text.upper, sameBetween]
    rfl
  -- The piece ends in a space, so it does not end among the letters of the word.
  have first : ¬" TO ".toList <:+: front.upper ++ " TO ".toList.dropLast := by
    have spread : front.upper ++ " TO ".toList.dropLast =
        Text.upper (front ++ [' ']) ++ ['T'] ++ ['O'] := by
      rw [Text.upper, Text.upper, List.map_append, List.append_assoc, List.append_assoc]
      rfl
    have ends {t : Text} {c : Char} (other : c ≠ ' ') : ¬" TO ".toList <:+ t ++ [c] := by
      rintro ⟨lead, whole⟩
      have last := congrArg List.getLast? whole
      rw [List.getLast?_concat, List.getLast?_append_of_ne_nil lead (by decide)] at last
      exact other (Option.some.inj last).symm
    rw [spread, List.infix_concat_iff, List.infix_concat_iff, not_or, not_or]
    exact ⟨ends (by decide), ends (by decide), free⟩
  have whole : Text.upper (front ++ (' ' :: (between ++ [' ']) ++ back)) =
      front.upper ++ (" TO ".toList ++ back.upper) := by
    rw [← middle, Text.upper, Text.upper, Text.upper, Text.upper, List.map_append, List.map_append]
  have cut := Text.cutAt?_append back.upper first
  have long : front.upper.length = front.length := List.length_map Char.toUpper
  have longMiddle : " TO ".toList.length = (' ' :: (between ++ [' '])).length := by
    rw [← middle, Text.upper, List.length_map]
  unfold cutAtWord?
  rw [whole, cut, Option.map_some]
  dsimp only
  rw [long, longMiddle, List.take_left, ← List.length_append, ← List.append_assoc, List.drop_left]

/-- A line with the word of ranges begins a block over one. -/
theorem instruction?_forRange {written lead front between back : Text}
    (same : sameLetters written "FOR" = true) (apart : lead.Apart)
    (isName : lead.trim.isName = true) (sameBetween : between.upper = "TO")
    (free : ¬" TO ".toList <:+: Text.upper (front ++ [' '])) (nonempty : back.trim ≠ []) :
    instruction? (written ++ (lead ++ '=' :: (front ++ (' ' :: (between ++ [' ']) ++ back)))) =
      some (.forRange lead.trim front.trim back.trim) := by
  let bounds := front ++ (' ' :: (between ++ [' ']) ++ back)
  have long : lead ≠ [] := by
    rintro rfl
    cases isName
  have begins := apart.append long ('=' :: bounds)
  have ended : bounds.trimEnd = front ++ (' ' :: (between ++ [' ']) ++ back.trimEnd) := by
    rw [← List.append_assoc, ← Text.trimEnd_append _ nonempty, List.append_assoc]
  have isName' : lead.trimStart.trim.isName = true := by rwa [Text.trim_trimStart]
  have noSign : '=' ∉ lead.trimStart :=
    Text.notMem_of_trim_isName isName' (by decide) (by decide)
  have range : range? (Text.trim (lead ++ '=' :: bounds)) =
      some (.forRange lead.trim front.trim back.trim) := by
    unfold range?
    rw [Text.trim_append_cons _ _ (by decide),
      Text.cutFirst?_append _ (List.forall_mem_ne'.mpr noSign)]
    dsimp only
    rw [ended, cutAtWord?_append _ sameBetween free]
    dsimp only
    rw [if_pos isName', Text.trim_trimStart, Text.trim_trimEnd]
  have other := afterWord?_other (by decide) same begins
  rw [instruction?_blockWord (by decide) same begins]
  simp (disch := decide) only [instruction, isWord, other, afterWord?_trimEnd same begins, range]
  rfl

/-- A line with the word for the end of a range and a name ends one. -/
theorem instruction?_next {written rest : Text} (same : sameLetters written "NEXT" = true)
    (apart : rest.Apart) (isName : rest.trim.isName = true) :
    instruction? (written ++ rest) = some .next := by
  have other := afterWord?_other (by decide) same apart
  rw [instruction?_blockWord (by decide) same apart]
  simp (disch := decide) only [instruction, isWord, endsRange, other,
    afterWord?_trimEnd same apart, isName, Bool.or_true]
  rfl

/-- A call ends in its closing parenthesis. -/
theorem calling_bare (name args : Text) :
    calling name args false = name ++ '(' :: args ++ [')'] := by
  rw [calling, List.append_assoc, List.cons_append]
  rfl

/-- Or in a semicolon behind it. -/
theorem calling_closed (name args : Text) :
    calling name args true = calling name args false ++ [';'] := by
  rw [calling_bare, calling, List.append_assoc, List.append_assoc, List.cons_append]
  rfl

/-- Without the semicolon at its end a call is as it is written without one. -/
theorem opened_calling (name args : Text) (closed : Bool) :
    Text.trimEnd ((Text.before? ";" (calling name args closed)).getD (calling name args closed)) =
      calling name args false := by
  have ended : (calling name args false).trimEnd = calling name args false := by
    rw [calling_bare, Text.trimEnd_append_cons _ [] (by decide)]
    rfl
  cases closed with
  | false =>
    have bare : Text.before? ";" (calling name args false) = none := by
      rw [calling_bare]
      exact Text.before?_concat _ (by decide)
    rw [bare, Option.getD_none, ended]
  | true =>
    have closed : Text.before? ";" (calling name args true) = some (calling name args false) := by
      rw [calling_closed]
      exact Text.before?_append _ [';']
    rw [closed, Option.getD_some, ended]

/-- A call is read back, with its name in small letters. -/
theorem call?_calling {name : Text} (isName : name.isName = true) (args : Text) (closed : Bool) :
    call? (calling name args closed) = some (name.lower, args) := by
  have free : ∀ c ∈ name, c ≠ '(' := by
    rintro c listed rfl
    exact absurd (Text.continuesName_of_mem isName _ listed) (by decide)
  have arguments : Text.before? ")" (args ++ ')' :: if false then [';'] else []) = some args :=
    Text.before?_append args [')']
  unfold call?
  dsimp only
  rw [opened_calling, calling, Text.cutFirst?_append _ free]
  dsimp only
  rw [arguments]
  exact if_pos isName

/-- A line with a call on it begins with no word of blocks or remarks. -/
theorem afterWord?_calling {name word : Text} (isName : name.isName = true)
    (lettered : word.isLettered = true) (args : Text) (closed : Bool) :
    afterWord? word (calling name args closed) = none :=
  afterWord?_of_sign name lettered (Text.solid_of_isName isName) (by decide) (by decide)

/-- A line with a call on it is that call. -/
theorem instruction?_calling {name : Text} (isName : name.isName = true) (args : Text)
    (closed : Bool) : instruction? (calling name args closed) =
      some (ofCall (calling name args closed) name.lower args) := by
  have nonempty := Text.ne_nil_of_isName isName
  have trimmed : (calling name args closed).trim = calling name args closed := by
    have behind := Text.trimEnd_append_cons ('(' :: args) (if closed then [';'] else [])
      (show Text.isBlank ')' = false by decide)
    have around := Text.trim_around [] ('(' :: (args ++ ')' :: if closed then [';'] else []))
      nonempty (Text.solid_of_isName isName)
    rw [← List.cons_append, behind] at around
    cases closed with
    | false => exact around
    | true => exact around
  have begins : ∀ c ∈ (calling name args closed).head?, c ≠ '/' := by
    rw [calling, List.head?_append_of_ne_nil name nonempty]
    rintro _ first rfl
    exact absurd (Text.continuesName_of_mem isName _ (List.mem_of_mem_head? first)) (by decide)
  have noWord {word : Text} (lettered : word.isLettered = true) :=
    afterWord?_calling isName lettered args closed
  rw [instruction?_of_trim trimmed (List.append_ne_nil_of_left_ne_nil nonempty _)
    (isComment_eq_false begins (noWord (by decide)))]
  simp (disch := decide) only [instruction, isWord, endsRange, noWord]
  rw [call?_calling isName]
  rfl

/-- A call of a name that means something is what the name means. -/
theorem instruction?_builtIn {word name : Text} (listed : name ∈ builtIns)
    (same : sameLetters word name = true) (args : Text) (closed : Bool) :
    instruction? (calling word args closed) =
      some (ofCall (calling word args closed) name args) := by
  obtain ⟨isName, small⟩ := (show ∀ name ∈ builtIns, name.lower.isName = true ∧ name.lower = name
    by decide) name listed
  have letters := Text.sameLetters_iff.mp same
  rw [← letters] at isName
  rw [instruction?_calling (Text.isName_of_lower isName), letters, small]

/-- Any other call. -/
theorem instruction?_call {word : Text} (isName : word.isName = true)
    (other : word.lower ∉ builtIns) (args : Text) (closed : Bool) :
    instruction? (calling word args closed) = some (.call word.lower) := by
  have unequal {name : String} (among : name.toList ∈ builtIns) :
      String.ofList word.lower ≠ name := by
    rintro rfl
    rw [String.toList_ofList] at among
    exact other among
  rw [instruction?_calling isName, Option.some_inj]
  unfold ofCall
  split
  · next name => exact absurd name (unequal (by decide))
  · next name => exact absurd name (unequal (by decide))
  · next name => exact absurd name (unequal (by decide))
  · rfl

/-- A line that begins with what begins no name is no call. -/
theorem call?_eq_none {line : Text} (starts : ∀ c ∈ line.head?, Text.startsName c = false) :
    call? line = none := by
  obtain ⟨behind, shortened⟩ : ((Text.before? ";" line).getD line).trimEnd <+: line := by
    obtain ⟨blanks, -, whole⟩ := Text.exists_blanks_trimEnd ((Text.before? ";" line).getD line)
    refine List.IsPrefix.trans ⟨blanks, whole⟩ ?_
    cases found : Text.before? ";" line with
    | none => exact List.prefix_rfl
    | some front => exact ⟨_, (Text.eq_of_before? found).symm⟩
  unfold call?
  dsimp only
  split
  · rfl
  next name rest cut =>
  split
  · rfl
  refine if_neg fun isName => ?_
  rw [Text.eq_of_cutFirst? cut, List.append_assoc] at shortened
  cases name with
  | nil => cases isName
  | cons c cs =>
    obtain ⟨first, -⟩ := (Bool.and_eq_true _ _).mp isName
    rw [starts c (by rw [← shortened]; rfl)] at first
    cases first

/-- Nor is it an assignment, if that is no blank. -/
theorem assignment?_eq_none {c : Char} (cs : Text) (solid : Text.isBlank c = false)
    (starts : Text.startsName c = false) : assignment? (c :: cs) = none := by
  unfold assignment?
  split
  · rfl
  next name rest cut =>
  refine if_neg fun both => ?_
  obtain ⟨isName, -⟩ := (Bool.and_eq_true _ _).mp both
  have whole := Text.eq_of_cutFirst? cut
  cases name with
  | nil => cases isName
  | cons d ds =>
    obtain ⟨rfl, -⟩ := List.cons.inj whole
    rw [show Text.trim (c :: ds) = c :: Text.trimEnd ds from
      Text.trim_append_cons [] ds solid] at isName
    obtain ⟨first, -⟩ := (Bool.and_eq_true _ _).mp isName
    rw [starts] at first
    cases first

/-- What begins with two braces and is trimmed is macro text. -/
theorem instruction?_typed {t : Text} (begins : "\x7b\x7b".toList <+: t) (trimmed : t.trim = t) :
    instruction? t = some (.typed t) := by
  obtain ⟨rest, rfl⟩ := begins
  have noWord {word : Text} (lettered : word.isLettered = true) :
      afterWord? word ("\x7b\x7b".toList ++ rest) = none :=
    afterWord?_of_sign [] lettered nofun (by decide) (by decide)
  have noSlash : ∀ c ∈ ("\x7b\x7b".toList ++ rest).head?, c ≠ '/' := by
    rintro _ ⟨⟩
    decide
  have noCall : call? ("\x7b\x7b".toList ++ rest) = none := by
    refine call?_eq_none ?_
    rintro _ ⟨⟩
    rfl
  have noAssignment : assignment? ("\x7b\x7b".toList ++ rest) = none :=
    assignment?_eq_none _ (by decide) (by decide)
  rw [instruction?_of_trim trimmed nofun (isComment_eq_false noSlash (noWord (by decide)))]
  simp (disch := decide) only [instruction, isWord, endsRange, noWord, noCall, noAssignment]
  rfl

/-- A text whose first character that is no blank is a double quote does not begin with an equals
sign. -/
theorem single_of_quoted {rest behind : Text} (value : rest.trim = '"' :: behind) :
    rest.beginsWith "=" = false := by
  refine Bool.eq_false_iff.mpr fun begins => ?_
  obtain ⟨later, rfl⟩ := Text.isSome_after?_iff.mp begins
  have around : Text.trim ('=' :: later) = '=' :: Text.trimEnd later :=
    Text.trim_append_cons [] later (by decide)
  cases value.symm.trans around

/-- A line holds the instruction that is written on it. -/
theorem instruction?_of_written {instruction : Instruction} {t : Text}
    (written : instruction.Written t) : instruction? t = some instruction := by
  cases written with
  | assign word lead rest same apart named isName single value bare =>
    rw [instruction?_var same apart (by rwa [named]) single, named, value, assigned_bare bare]
  | assignString word lead rest same apart named isName value =>
    rw [instruction?_var same apart (by rwa [named]) (single_of_quoted value), named, value,
      assigned_quoted]
  | ifThen word lead last same nonempty apart apartBehind trimmed sameLast =>
    rw [instruction?_ifThen same nonempty apart sameLast, trimmed]
  | otherwise word same => exact instruction?_alone (by decide) same
  | endIf word same => exact instruction?_alone (by decide) same
  | loop word rest same apart trimmed => rw [instruction?_loop same apart, trimmed]
  | endLoop word same => exact instruction?_alone (by decide) same
  | forRange word lead front between back same apart named isName sameBetween free trimmedFirst
      trimmedLast nonempty =>
    rw [instruction?_forRange same apart (by rwa [named]) sameBetween free (by rwa [trimmedLast]),
      named, trimmedFirst, trimmedLast]
  | next word rest same apart isName => exact instruction?_next same apart isName
  | wait word ms closed same => exact instruction?_builtIn (by decide) same ms closed
  | setButton word front back closed same free trimmedButton trimmedValue =>
    rw [instruction?_builtIn (by decide) same, ofCall,
      Text.cutFirst?_append back (List.forall_mem_ne'.mpr free), ← trimmedButton, ← trimmedValue]
    rfl
  | combo word args closed same trimmed =>
    rw [instruction?_builtIn (by decide) same, ← trimmed]
    rfl
  | call word args closed isName small other =>
    rw [instruction?_call isName (by rwa [small]) args closed, small]
  | typed begins trimmed => exact instruction?_typed begins trimmed

/-- A silent line holds no instruction. -/
theorem instruction?_of_silent {t : Text} (silent : Silent t) : instruction? t = none := by
  unfold instruction?
  cases silent with
  | blank blank =>
    have nothing : t.trim = [] := by
      rw [Text.trim, Text.trimStart_eq_nil_iff.mpr blank]
      rfl
    rw [nothing]
    rfl
  | slashes before rest blank =>
    have trimmed := Text.trim_around before rest (show "//".toList ≠ [] by decide)
      (List.forall_mem_cons.mpr ⟨rfl, List.forall_mem_singleton.mpr rfl⟩)
    rw [Text.trimStart_eq_nil_iff.mpr blank, List.nil_append, List.append_assoc] at trimmed
    have comment : isComment ("//".toList ++ rest.trimEnd) = true := by
      rw [isComment, Text.beginsWith, Text.after?_append]
      rfl
    rw [trimmed, comment, Bool.or_true, if_pos rfl]
  | remark before word rest blank same apart =>
    have solid := Text.solid_of_lettered same (by decide)
    have nonempty : word ≠ [] := by
      rintro rfl
      cases same
    have trimmed := Text.trim_around before rest nonempty solid
    rw [Text.trimStart_eq_nil_iff.mpr blank, List.nil_append, List.append_assoc] at trimmed
    have comment : isComment (word ++ rest.trimEnd) = true := by
      rw [isComment, afterWord?_trimEnd same apart, Option.isSome_some, Bool.or_true]
    rw [trimmed, comment, Bool.or_true, if_pos rfl]

/-- A carriage return at the end of a line does not matter. -/
theorem instruction?_withoutReturn (t : Text) : instruction? t.withoutReturn = instruction? t := by
  unfold Text.withoutReturn
  split
  · next last =>
    obtain ⟨front, rfl⟩ := List.getLast?_eq_some_iff.mp last
    rw [List.dropLast_concat]
    exact instruction?_congr (Text.trim_append_blank front (by decide)).symm
  · rfl

/-- A script is compiled line by line. -/
theorem compile_join {texts : List Text} (oneLine : ∀ t ∈ texts, '\n' ∉ t) :
    compile (Text.join ['\n'] texts) = texts.filterMap instruction? := by
  unfold compile
  induction texts with
  | nil => rfl
  | cons t texts ih =>
    obtain ⟨first, later⟩ := List.forall_mem_cons.mp oneLine
    cases texts with
    | nil =>
      cases t with
      | nil => rfl
      | cons c cs => rw [Text.join, Text.lines_of_notMem (List.cons_ne_nil c cs) first]
    | cons next texts =>
      have joined : Text.join ['\n'] (t :: next :: texts) =
          t ++ '\n' :: Text.join ['\n'] (next :: texts) := by
        exact List.append_assoc t ['\n'] _
      rw [joined, Text.lines_append_feed first, List.filterMap_cons, ih later,
        instruction?_withoutReturn, ← List.filterMap_cons]

/-- A script is compiled to the instructions that are written in it. -/
theorem compile_written {program : List Instruction} {texts : List Text}
    (written : Written program texts) (oneLine : ∀ t ∈ texts, '\n' ∉ t) :
    compile (Text.join ['\n'] texts) = program := by
  rw [compile_join oneLine]
  clear oneLine
  induction written with
  | nil => rfl
  | silent silent later ih => rw [List.filterMap_cons_none (instruction?_of_silent silent), ih]
  | line before after blankBefore blankAfter written later ih =>
    have read := instruction?_of_written written
    rw [← instruction?_congr (Text.trim_padded _ blankBefore blankAfter)] at read
    rw [List.filterMap_cons_some read, ih]

/-- A script with every kind of line in it. -/
def sampleLines : List Text :=
  ["// warm up", "", "  var x = 1 + 2", "VAR s = \"a = \"b\" (c)\"", "Rem note", "\tif x > 0 then",
    "Wait(x * 10);", "set_val(PS4_CROSS, x)", "else", "COMBO_RUN(dash)", "EndIf", "loop 3 ",
    "\x7b\x7bTEXT:a = b(c)\x7d\x7d", "ENDLOOP", "for i = 1 to x", "Beep();", "next i"]

/-- The instructions that are written in it. -/
def sampleProgram : List Instruction :=
  [.assign "x" (.expr "1 + 2"), .assign "s" (.string "a = \"b\" (c)"), .ifThen "x > 0",
    .wait "x * 10", .setButton "PS4_CROSS" "x", .otherwise, .combo "dash", .endIf, .loop "3",
    .typed "\x7b\x7bTEXT:a = b(c)\x7d\x7d", .endLoop, .forRange "i" "1" "x", .call "beep", .next]

/-- They are written in it. -/
theorem written_sample : Written sampleProgram sampleLines := by
  refine .silent (.slashes [] _ nofun) (.silent (.blank nofun) ?_)
  refine .line "  " [] (List.all_eq_true.mp rfl) nofun (.assign "var" " x " " 1 + 2" (by decide)
    (by decide) rfl (by decide) (by decide) rfl fun inside quoted => ?_) ?_
  · have first : some '1' = some '"' := congrArg List.head? quoted
    exact absurd first (by decide)
  refine .line [] [] nofun nofun (.assignString "VAR" " s " " \"a = \"b\" (c)\"" (by decide)
    (by decide) rfl (by decide) rfl) ?_
  refine .silent (.remark [] "Rem" _ nofun (by decide) (by decide)) ?_
  refine .line "\t" [] (List.all_eq_true.mp rfl) nofun (.ifThen "if" " x > 0 " "then" (by decide)
    (by decide) (by decide) (by decide) rfl (by decide)) ?_
  refine .line [] [] nofun nofun (.wait "Wait" _ true (by decide)) ?_
  refine .line [] [] nofun nofun (.setButton "set_val" "PS4_CROSS" " x" false (by decide)
    (by decide) rfl rfl) ?_
  refine .line [] [] nofun nofun (.otherwise "else" (by decide)) ?_
  refine .line [] [] nofun nofun (.combo "COMBO_RUN" "dash" false (by decide) rfl) ?_
  refine .line [] [] nofun nofun (.endIf "EndIf" (by decide)) ?_
  refine .line [] " " nofun (List.all_eq_true.mp rfl) (.loop "loop" " 3" (by decide) (by decide)
    rfl) ?_
  refine .line [] [] nofun nofun (.typed (by decide) (by decide)) ?_
  refine .line [] [] nofun nofun (.endLoop "ENDLOOP" (by decide)) ?_
  refine .line [] [] nofun nofun (.forRange "for" " i " " 1" "to" "x" (by decide) (by decide) rfl
    (by decide) (by decide) (by decide) rfl rfl (by decide)) ?_
  refine .line [] [] nofun nofun (.call "Beep" [] true (by decide) rfl (by decide)) ?_
  exact .line [] [] nofun nofun (.next "next" " i" (by decide) (by decide) (by decide)) .nil

/-- And they are what it is compiled to. -/
theorem compile_sample :
    Written sampleProgram sampleLines ∧ (∀ t ∈ sampleLines, '\n' ∉ t) ∧
      compile (Text.join ['\n'] sampleLines) = sampleProgram := by
  have oneLine : ∀ t ∈ sampleLines, '\n' ∉ t := by decide
  exact ⟨written_sample, oneLine, compile_written written_sample oneLine⟩

end Script

end Keyfob
