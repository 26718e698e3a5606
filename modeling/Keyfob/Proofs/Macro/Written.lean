import Keyfob.Macro.Directive
import Keyfob.Proofs.Text.Ends
import Keyfob.Proofs.Text.Number
import Mathlib.Data.Bool.AllAny

/-!
# Reading back written directives

A command that was read keeps its numbers within the bounds of reading, and keeps what makes no
sense as it was, so writing it and reading that again gives the same command
(`MouseCommand.parse_text`, `PadCommand.parse_text`, `AudioCommand.parse_text`). Whatever was read
as a directive is therefore read back as itself (`Directive.ReadsBack`), whatever stands in its
arguments, and what is written for a directive tells it from all others that can be read
(`Directive.ofWritten?_written`).
-/
namespace Keyfob

namespace Text

/-- A character at the end of a text is a word, unless it is blank. -/
theorem words_last {c : Char} (solid : isBlank c = false) : words [c] = [[c]] := by
  change (if isBlank c then words [] else [[c]]) = [[c]]
  rw [solid]
  rfl

/-- A character before a blank is the end of a word, unless it is blank itself. -/
theorem words_before_blank {c d : Char} (cs : Text) (solid : isBlank c = false)
    (blank : isBlank d = true) : words (c :: d :: cs) = [c] :: words cs := by
  change (if isBlank c then words (d :: cs) else if isBlank d then [c] :: words (d :: cs) else _) =
    _
  rw [solid, blank]
  change [c] :: (if isBlank d then words cs else _) = _
  rw [blank]
  rfl

/-- A character before another one of a word is part of that word. -/
theorem words_before_solid {c d : Char} {cs word : Text} {rest : List Text}
    (solid : isBlank c = false) (next : isBlank d = false)
    (later : words (d :: cs) = word :: rest) : words (c :: d :: cs) = (c :: word) :: rest := by
  rw [words.eq_def]
  simp only [solid, next, later, Bool.false_eq_true, if_false]

/-- A run of characters without blanks is a word of its own. -/
theorem words_solid {word : Text} (solid : ∀ c ∈ word, isBlank c = false) (nonempty : word ≠ []) :
    words word = [word] := by
  induction word with
  | nil => exact absurd rfl nonempty
  | cons c cs ih =>
    have first := solid c List.mem_cons_self
    cases cs with
    | nil => exact words_last first
    | cons d ds =>
      have second := solid d (List.mem_cons_of_mem _ List.mem_cons_self)
      have rest := ih (fun e later => solid e (List.mem_cons_of_mem _ later)) nofun
      exact words_before_solid first second rest

/-- A run of characters without blanks ends at a blank. -/
theorem words_append {word : Text} (rest : Text) (solid : ∀ c ∈ word, isBlank c = false)
    (nonempty : word ≠ []) : words (word ++ ' ' :: rest) = word :: words rest := by
  induction word with
  | nil => exact absurd rfl nonempty
  | cons c cs ih =>
    have first := solid c List.mem_cons_self
    cases cs with
    | nil => exact words_before_blank rest first rfl
    | cons d ds =>
      have second := solid d (List.mem_cons_of_mem _ List.mem_cons_self)
      have later := ih (fun e listed => solid e (List.mem_cons_of_mem _ listed)) nofun
      exact words_before_solid first second later

end Text

/-- A number that is cut down is within the bound. -/
theorem boundedNumber_le (bound : Nat) (t : Text) : boundedNumber bound t ≤ bound := by
  have bounds := Text.clamp_bounds (Int.natCast_nonneg bound) (Text.leadingInteger t)
  unfold boundedNumber
  omega

/-- A number within the bound that was written is read back. -/
theorem boundedNumber_ofNat {bound n : Nat} (bounded : n ≤ bound)
    (readable : bound ≤ Text.integerBound) : boundedNumber bound (Text.ofNat n) = n := by
  unfold boundedNumber
  rw [Text.leadingInteger_ofNat (Nat.le_trans bounded readable),
    Text.clamp_of_bounds (by omega) (by omega)]
  exact Int.toNat_natCast n

/-- A number within the bound that was written as a word is read back. -/
theorem boundedNumber_word {bound n : Nat} (bounded : n ≤ bound) (word : bound < 4294967296) :
    boundedNumber bound (Text.ofNat (UInt32.ofNat n).toNat) = n := by
  have limit : Text.integerBound = 9223372036854775807 := by decide
  have small : (UInt32.ofNat n).toNat = n := by
    rw [UInt32.toNat_ofNat']
    exact Nat.mod_eq_of_lt (by omega)
  rw [small]
  exact boundedNumber_ofNat bounded (by omega)

/-- A coordinate fits a signed 32-bit word. -/
theorem coordinate_bounds (t : Text) : -2147483648 ≤ coordinate t ∧ coordinate t ≤ 2147483647 :=
  Text.clamp_bounds (by decide) _

/-- A coordinate that was written is read back. -/
theorem coordinate_ofInt {n : Int} (above : -2147483648 ≤ n) (below : n ≤ 2147483647) :
    coordinate (Text.ofInt n) = n := by
  have bound : Text.integerBound = 9223372036854775807 := by decide
  unfold coordinate
  rw [Text.leadingInteger_ofInt (by omega), Text.clamp_of_bounds above below]

/-- A deflection is no more than an axis reports. -/
theorem deflection_bounds (t : Text) : -127 ≤ (deflection t).toInt := by
  have ordered : (-127 : Int) ≤ 127 := by decide
  have bounds := Text.clamp_bounds ordered (Text.leadingInteger t)
  unfold deflection
  rw [Int8.toInt_ofInt_of_le (by omega) (by omega)]
  exact bounds.1

/-- A deflection that was written is read back. -/
theorem deflection_ofInt {value : Int8} (above : -127 ≤ value.toInt) :
    deflection (Text.ofInt value.toInt) = value := by
  have bound : Text.integerBound = 9223372036854775807 := by decide
  have below : value.toInt ≤ 127 := value.toInt_le
  unfold deflection
  rw [Text.leadingInteger_ofInt (by omega), Text.clamp_of_bounds above below, Int8.ofInt_toInt]

namespace MouseCommand

/-- A command whose numbers are within the bounds of reading, and which is kept as it was if it
makes no sense. -/
def Sound : MouseCommand → Prop
  | moveTo target => ∃ x y, target = ⟨coordinate x, coordinate y⟩
  | moveBy displacement => ∃ x y, displacement = ⟨coordinate x, coordinate y⟩
  | scroll clicks => ∃ t, clicks = coordinate t
  | panning clicks => ∃ t, clicks = coordinate t
  | invalid args => parse args = invalid args
  | _ => True

/-- A coordinate that was read is read back. -/
theorem coordinate_coordinate (t : Text) : coordinate (Text.ofInt (coordinate t)) = coordinate t :=
  coordinate_ofInt (coordinate_bounds t).1 (coordinate_bounds t).2

/-- Two coordinates that were read are read back. -/
theorem pair?_pairText (x y : Text) :
    pair? (pairText ⟨coordinate x, coordinate y⟩) = some ⟨coordinate x, coordinate y⟩ := by
  have without : ∀ c ∈ Text.ofInt (coordinate x), c ≠ ',' := fun c listed =>
    Text.ne_of_isNumeral (Text.isNumeral_of_mem_ofInt listed) (by decide)
  have split : pairText ⟨coordinate x, coordinate y⟩ =
      Text.ofInt (coordinate x) ++ ',' :: Text.ofInt (coordinate y) := List.append_assoc _ _ _
  unfold pair?
  rw [split, Text.cutFirst?_append _ without, Option.map_some]
  dsimp only
  rw [coordinate_coordinate, coordinate_coordinate]

/-- Two coordinates are read as such. -/
theorem exists_of_pair? {args : Text} {vector : Vector2} (read : pair? args = some vector) :
    ∃ x y, vector = ⟨coordinate x, coordinate y⟩ := by
  unfold pair? at read
  cases cut : Text.cutFirst? ',' args with
  | none =>
    rw [cut] at read
    cases read
  | some parts =>
    rw [cut] at read
    cases read
    exact ⟨parts.1, parts.2, rfl⟩

/-- A verb makes a command whose numbers are within bounds. -/
theorem sound_of_ofVerb? {verb rest : Text} {command : MouseCommand}
    (read : ofVerb? verb rest = some command) : command.Sound := by
  unfold ofVerb? at read
  split at read
  · cases read
    trivial
  · obtain ⟨vector, pair, rfl⟩ := Option.map_eq_some_iff.mp read
    exact exists_of_pair? pair
  · obtain ⟨vector, pair, rfl⟩ := Option.map_eq_some_iff.mp read
    exact exists_of_pair? pair
  · obtain ⟨held, _, rfl⟩ := Option.map_eq_some_iff.mp read
    trivial
  · obtain ⟨held, _, rfl⟩ := Option.map_eq_some_iff.mp read
    trivial
  · obtain ⟨held, _, rfl⟩ := Option.map_eq_some_iff.mp read
    trivial
  · cases read
    exact ⟨rest, rfl⟩
  · cases read
    exact ⟨rest, rfl⟩
  · cases read

/-- Whatever is read is a sound command. -/
theorem sound_parse (args : Text) : (parse args).Sound := by
  generalize made : parse args = command
  have read := made
  unfold parse at read
  cases found : ofVerb? ((Text.cutFirst? ':' args).getD (args, [])).1.trim.upper
      ((Text.cutFirst? ':' args).getD (args, [])).2 with
  | none =>
    simp only [found, Option.getD_none] at read
    subst read
    exact made
  | some known =>
    simp only [found, Option.getD_some] at read
    subst read
    exact sound_of_ofVerb? found

/-- A command is read from its verb and from what follows the first colon. -/
theorem parse_append {verb : Text} (rest : Text) (without : ':' ∉ verb) :
    parse (verb ++ ':' :: rest) =
      (ofVerb? verb.trim.upper rest).getD (invalid (verb ++ ':' :: rest)) := by
  have apart : ∀ c ∈ verb, c ≠ ':' := fun c listed same => without (same ▸ listed)
  unfold parse
  rw [Text.cutFirst?_append rest apart]
  rfl

/-- A sound command that is written is read back. -/
theorem parse_text_of_sound {command : MouseCommand} (sound : command.Sound) :
    parse command.text = command := by
  cases command with
  | reset => decide
  | moveTo target =>
    obtain ⟨x, y, rfl⟩ := sound
    have verb (t : Text) : ofVerb? (Text.upper (Text.trim "MOVE")) t = (pair? t).map moveTo := rfl
    have written (target : Vector2) :
        (moveTo target).text = "MOVE".toList ++ ':' :: pairText target := rfl
    rw [written, parse_append _ (by decide), verb, pair?_pairText]
    rfl
  | moveBy displacement =>
    obtain ⟨x, y, rfl⟩ := sound
    have verb (t : Text) :
        ofVerb? (Text.upper (Text.trim "MOVE_REL")) t = (pair? t).map moveBy := rfl
    have written (displacement : Vector2) :
        (moveBy displacement).text = "MOVE_REL".toList ++ ':' :: pairText displacement := rfl
    rw [written, parse_append _ (by decide), verb, pair?_pairText]
    rfl
  | button use held =>
    cases use with
    | down => cases held <;> decide
    | up => cases held <;> decide
    | click => cases held <;> decide
  | scroll clicks =>
    obtain ⟨t, rfl⟩ := sound
    have verb (t : Text) :
        ofVerb? (Text.upper (Text.trim "SCROLL")) t = some (scroll (coordinate t)) := rfl
    have written (clicks : Int) :
        (scroll clicks).text = "SCROLL".toList ++ ':' :: Text.ofInt clicks := rfl
    rw [written, parse_append _ (by decide), verb, coordinate_coordinate]
    rfl
  | panning clicks =>
    obtain ⟨t, rfl⟩ := sound
    have verb (t : Text) :
        ofVerb? (Text.upper (Text.trim "HSCROLL")) t = some (panning (coordinate t)) := rfl
    have written (clicks : Int) :
        (panning clicks).text = "HSCROLL".toList ++ ':' :: Text.ofInt clicks := rfl
    rw [written, parse_append _ (by decide), verb, coordinate_coordinate]
    rfl
  | invalid args => exact sound

/-- A command that was read is read back from what is written for it. -/
theorem parse_text (args : Text) : parse (parse args).text = parse args :=
  parse_text_of_sound (sound_parse args)

end MouseCommand

namespace PadCommand

/-- A command whose numbers are within the bounds of reading, and which is kept as it was if it
makes no sense. -/
def Sound : PadCommand → Prop
  | stick _ x y => ∃ s t, x = deflection s ∧ y = deflection t
  | trigger _ value => ∃ t, value = deflection t
  | invalid args => parse args = invalid args
  | _ => True

/-- A verb makes a command whose numbers are within bounds. -/
theorem sound_of_ofVerb? {verb : Text} {args : List Text} {command : PadCommand}
    (read : ofVerb? verb args = some command) : command.Sound := by
  unfold ofVerb? at read
  simp only at read
  split at read
  · obtain ⟨button, _, rfl⟩ := Option.map_eq_some_iff.mp read
    trivial
  · obtain ⟨button, _, rfl⟩ := Option.map_eq_some_iff.mp read
    trivial
  · obtain ⟨position, _, rfl⟩ := Option.map_eq_some_iff.mp read
    trivial
  · obtain ⟨position, _, rfl⟩ := Option.map_eq_some_iff.mp read
    trivial
  · cases read
    exact ⟨_, _, rfl, rfl⟩
  · cases read
    exact ⟨_, _, rfl, rfl⟩
  · cases read
    exact ⟨_, rfl⟩
  · cases read
    exact ⟨_, rfl⟩
  · cases read

/-- Whatever is read is a sound command. -/
theorem sound_parse (args : Text) : (parse args).Sound := by
  generalize made : parse args = command
  have read := made
  unfold parse at read
  cases split : words args with
  | nil =>
    simp only [split] at read
    subst read
    exact made
  | cons verb rest =>
    simp only [split] at read
    cases found : ofVerb? verb.upper rest with
    | none =>
      simp only [found, Option.getD_none] at read
      subst read
      exact made
    | some known =>
      simp only [found, Option.getD_some] at read
      subst read
      exact sound_of_ofVerb? found

/-- The words of a command are those of its text where neither colons nor commas stand in
it. -/
theorem words_eq {args : Text} (without : ∀ c ∈ args, c ≠ ':' ∧ c ≠ ',') :
    words args = Text.words args := by
  have kept : (args.map fun c => if c = ':' ∨ c = ',' then ' ' else c) = args := by
    refine (List.map_congr_left fun c listed => ?_).trans (List.map_id args)
    obtain ⟨colon, comma⟩ := without c listed
    rw [if_neg (not_or.mpr ⟨colon, comma⟩)]
    rfl
  unfold words
  rw [kept]

/-- No character of a written number is a blank, a colon or a comma. -/
theorem apart_of_mem_ofInt {n : Int} {c : Char} (listed : c ∈ Text.ofInt n) :
    Text.isBlank c = false ∧ c ≠ ':' ∧ c ≠ ',' := by
  have numeral := Text.isNumeral_of_mem_ofInt listed
  exact ⟨Text.isBlank_of_isNumeral numeral, Text.ne_of_isNumeral numeral (by decide),
    Text.ne_of_isNumeral numeral (by decide)⟩

/-- The characters of a word, once they are looked through. -/
theorem apart_of_all {word : Text}
    (solid : (word.all fun c => !Text.isBlank c && c != ':' && c != ',') = true) :
    ∀ c ∈ word, Text.isBlank c = false ∧ c ≠ ':' ∧ c ≠ ',' := by
  intro c listed
  have apart := List.all_eq_true.mp solid c listed
  simpa [and_assoc] using apart

/-- A written number has a character. -/
theorem ofInt_ne_nil (n : Int) : Text.ofInt n ≠ [] := by
  cases n with
  | ofNat n => exact Nat.toDigits_ne_nil
  | negSucc n => nofun

/-- The words of a command for a trigger. -/
theorem words_trigger {verb : Text} {n : Int}
    (solid : ∀ c ∈ verb, Text.isBlank c = false ∧ c ≠ ':' ∧ c ≠ ',') (nonempty : verb ≠ []) :
    words (verb ++ ' ' :: Text.ofInt n) = [verb, Text.ofInt n] := by
  have without : ∀ c ∈ verb ++ ' ' :: Text.ofInt n, c ≠ ':' ∧ c ≠ ',' := by
    intro c listed
    cases List.mem_append.mp listed with
    | inl front => exact (solid c front).2
    | inr back =>
      cases back with
      | head => exact ⟨by decide, by decide⟩
      | tail _ number => exact (apart_of_mem_ofInt number).2
  rw [words_eq without, Text.words_append _ (fun c listed => (solid c listed).1) nonempty,
    Text.words_solid (fun c listed => (apart_of_mem_ofInt listed).1) (ofInt_ne_nil n)]

/-- The words of a command for a stick. -/
theorem words_stick {verb : Text} {x y : Int}
    (solid : ∀ c ∈ verb, Text.isBlank c = false ∧ c ≠ ':' ∧ c ≠ ',') (nonempty : verb ≠ []) :
    words (verb ++ ' ' :: (Text.ofInt x ++ ' ' :: Text.ofInt y)) =
      [verb, Text.ofInt x, Text.ofInt y] := by
  have numbers : ∀ c ∈ Text.ofInt x ++ ' ' :: Text.ofInt y, c ≠ ':' ∧ c ≠ ',' := by
    intro c listed
    cases List.mem_append.mp listed with
    | inl front => exact (apart_of_mem_ofInt front).2
    | inr back =>
      cases back with
      | head => exact ⟨by decide, by decide⟩
      | tail _ number => exact (apart_of_mem_ofInt number).2
  have without : ∀ c ∈ verb ++ ' ' :: (Text.ofInt x ++ ' ' :: Text.ofInt y),
      c ≠ ':' ∧ c ≠ ',' := by
    intro c listed
    cases List.mem_append.mp listed with
    | inl front => exact (solid c front).2
    | inr back =>
      cases back with
      | head => exact ⟨by decide, by decide⟩
      | tail _ number => exact numbers c number
  rw [words_eq without, Text.words_append _ (fun c listed => (solid c listed).1) nonempty,
    Text.words_append _ (fun c listed => (apart_of_mem_ofInt listed).1) (ofInt_ne_nil x),
    Text.words_solid (fun c listed => (apart_of_mem_ofInt listed).1) (ofInt_ne_nil y)]

/-- A deflection that was read is read back. -/
theorem deflection_deflection (t : Text) :
    deflection (Text.ofInt (deflection t).toInt) = deflection t :=
  deflection_ofInt (deflection_bounds t)

/-- A command is read from its first word and the words after it. -/
theorem parse_of_words {args verb : Text} {rest : List Text} (split : words args = verb :: rest) :
    parse args = (ofVerb? verb.upper rest).getD (invalid args) := by
  unfold parse
  rw [split]

/-- A command for a stick that was read is read back. -/
theorem parse_stick (left : Bool) (s t : Text) :
    parse (stick left (deflection s) (deflection t)).text =
      stick left (deflection s) (deflection t) := by
  cases left with
  | true =>
    have verb (x y : Text) : ofVerb? (Text.upper "LS") [x, y] =
        some (stick true (deflection x) (deflection y)) := by
      rw [show Text.upper "LS" = "LS".toList from rfl]
      simp [ofVerb?]
    have written (x y : Int8) : (stick true x y).text =
        "LS".toList ++ ' ' :: (Text.ofInt x.toInt ++ ' ' :: Text.ofInt y.toInt) :=
      (List.append_assoc _ _ _).trans (List.append_assoc _ _ _)
    rw [written, parse_of_words (words_stick (apart_of_all (by decide)) (by decide)), verb,
      deflection_deflection, deflection_deflection]
    rfl
  | false =>
    have verb (x y : Text) : ofVerb? (Text.upper "RS") [x, y] =
        some (stick false (deflection x) (deflection y)) := by
      rw [show Text.upper "RS" = "RS".toList from rfl]
      simp [ofVerb?]
    have written (x y : Int8) : (stick false x y).text =
        "RS".toList ++ ' ' :: (Text.ofInt x.toInt ++ ' ' :: Text.ofInt y.toInt) :=
      (List.append_assoc _ _ _).trans (List.append_assoc _ _ _)
    rw [written, parse_of_words (words_stick (apart_of_all (by decide)) (by decide)), verb,
      deflection_deflection, deflection_deflection]
    rfl

/-- A command for a trigger that was read is read back. -/
theorem parse_trigger (left : Bool) (t : Text) :
    parse (trigger left (deflection t)).text = trigger left (deflection t) := by
  cases left with
  | true =>
    have verb (value : Text) : ofVerb? (Text.upper "LT") [value] =
        some (trigger true (deflection value)) := by
      rw [show Text.upper "LT" = "LT".toList from rfl]
      simp [ofVerb?]
    have written (value : Int8) : (trigger true value).text =
        "LT".toList ++ ' ' :: Text.ofInt value.toInt := rfl
    rw [written, parse_of_words (words_trigger (apart_of_all (by decide)) (by decide)), verb,
      deflection_deflection]
    rfl
  | false =>
    have verb (value : Text) : ofVerb? (Text.upper "RT") [value] =
        some (trigger false (deflection value)) := by
      rw [show Text.upper "RT" = "RT".toList from rfl]
      simp [ofVerb?]
    have written (value : Int8) : (trigger false value).text =
        "RT".toList ++ ' ' :: Text.ofInt value.toInt := rfl
    rw [written, parse_of_words (words_trigger (apart_of_all (by decide)) (by decide)), verb,
      deflection_deflection]
    rfl

/-- A sound command that is written is read back. -/
theorem parse_text_of_sound {command : PadCommand} (sound : command.Sound) :
    parse command.text = command := by
  cases command with
  | press button => cases button <;> rfl
  | release button => cases button <;> rfl
  | hat position => cases position <;> rfl
  | invalid args => exact sound
  | stick left x y =>
    obtain ⟨s, t, rfl, rfl⟩ := sound
    exact parse_stick left s t
  | trigger left value =>
    obtain ⟨t, rfl⟩ := sound
    exact parse_trigger left t

/-- A command that was read is read back from what is written for it. -/
theorem parse_text (args : Text) : parse (parse args).text = parse args :=
  parse_text_of_sound (sound_parse args)

end PadCommand

namespace AudioCommand

/-- A command that taps no more often than is read, and only the keys that set the volume more
than once, and which is kept as it was if it makes no sense. -/
def Sound : AudioCommand → Prop
  | tap key times => 1 ≤ times ∧ times ≤ mostTaps ∧ (1 < times → key.repeats = true)
  | invalid args => parse args = invalid args

/-- A key is tapped at least once and not too often, and only for the volume more than once. -/
theorem times_bounds (key : MediaKey) (count : Option Text) :
    1 ≤ times key count ∧ times key count ≤ mostTaps ∧
      (1 < times key count → key.repeats = true) := by
  have limit : mostTaps = 10 := rfl
  have single : 1 ≤ 1 ∧ 1 ≤ mostTaps ∧ (1 < 1 → key.repeats = true) :=
    ⟨Nat.le_refl 1, by omega, fun more => absurd more (Nat.lt_irrefl 1)⟩
  unfold times
  cases count with
  | none => exact single
  | some t =>
    have ordered : (1 : Int) ≤ mostTaps := by omega
    have bounds := Text.clamp_bounds ordered (Text.leadingInteger t)
    dsimp only
    split
    · next repeated => exact ⟨by omega, by omega, fun _ => repeated⟩
    · exact single

/-- Whatever is read is a sound command. -/
theorem sound_parse (args : Text) : (parse args).Sound := by
  generalize made : parse args = command
  have read := made
  unfold parse at read
  dsimp only at read
  split at read
  · subst read
    exact times_bounds _ _
  · subst read
    exact made

/-- A media key is read from the word that names it. -/
theorem parse?_word (key : MediaKey) : MediaKey.parse? key.word = some key := by
  cases key <;> decide

/-- No colon stands in the word that names a media key. -/
theorem apart_of_mem_word (key : MediaKey) : ∀ c ∈ key.word, c ≠ ':' := by
  cases key <;> exact List.all_iff_forall_prop.mp (by decide)

/-- A number of taps that was written for a key that sets the volume is read back. -/
theorem times_ofNat {key : MediaKey} {taps : Nat} (repeated : key.repeats = true) (any : 1 ≤ taps)
    (few : taps ≤ mostTaps) : times key (some (Text.ofNat taps)) = taps := by
  have limit : mostTaps = 10 := rfl
  have bound : Text.integerBound = 9223372036854775807 := by decide
  unfold times
  dsimp only
  rw [if_pos repeated, Text.leadingInteger_ofNat (by omega),
    Text.clamp_of_bounds (by omega) (by omega)]
  exact Int.toNat_natCast taps

/-- A sound command that is written is read back. -/
theorem parse_text_of_sound {command : AudioCommand} (sound : command.Sound) :
    parse command.text = command := by
  cases command with
  | invalid args => exact sound
  | tap key taps =>
    obtain ⟨any, few, repeated⟩ := sound
    by_cases more : 1 < taps
    · have written : (tap key taps).text = key.word ++ ':' :: Text.ofNat taps :=
        (if_pos more).trans (List.append_assoc _ _ _)
      unfold parse
      rw [written, Text.cutFirst?_append _ (apart_of_mem_word key)]
      dsimp only
      rw [parse?_word]
      dsimp only
      rw [times_ofNat (repeated more) any few]
    · have once : taps = 1 := by omega
      subst once
      cases key <;> decide

/-- A command that was read is read back from what is written for it. -/
theorem parse_text (args : Text) : parse (parse args).text = parse args :=
  parse_text_of_sound (sound_parse args)

end AudioCommand

namespace Directive

/-- A directive that is read back as itself from what stands between its braces. -/
def ReadsBack (directive : Directive) : Prop := parse directive.body = directive

/-- A pause that is not too long is read back. -/
theorem readsBack_delay {ms : Nat} (bounded : ms ≤ longestDelay) :
    ReadsBack (delay (UInt32.ofNat ms)) := by
  have read (t : Text) :
      parse ("DELAY:" ++ t) = delay (UInt32.ofNat (boundedNumber longestDelay t)) := rfl
  have written :
      (delay (UInt32.ofNat ms)).body = "DELAY:" ++ Text.ofNat (UInt32.ofNat ms).toNat := rfl
  unfold ReadsBack
  rw [written, read, boundedNumber_word bounded (by decide)]

/-- A typing speed that is not too slow is read back. -/
theorem readsBack_speed {ms : Nat} (bounded : ms ≤ slowestSpeed) :
    ReadsBack (speed (UInt32.ofNat ms)) := by
  have read (t : Text) :
      parse ("SPEED:" ++ t) = speed (UInt32.ofNat (boundedNumber slowestSpeed t)) := rfl
  have written :
      (speed (UInt32.ofNat ms)).body = "SPEED:" ++ Text.ofNat (UInt32.ofNat ms).toNat := rfl
  unfold ReadsBack
  rw [written, read, boundedNumber_word bounded (by decide)]

/-- A chord is read back as it was written. -/
theorem readsBack_key (spec : Text) : ReadsBack (key spec) := rfl

/-- A text to type is read back. -/
theorem readsBack_text (t : Text) : ReadsBack (text t) := rfl

/-- A command for the mouse that was read is read back. -/
theorem readsBack_mouse (args : Text) : ReadsBack (mouse (.parse args)) := by
  have read (t : Text) : parse ("MOUSE:" ++ t) = mouse (.parse t) := rfl
  have written (command : MouseCommand) : (mouse command).body = "MOUSE:" ++ command.text := rfl
  unfold ReadsBack
  rw [written, read, MouseCommand.parse_text]

/-- A command for the gamepad that was read is read back. -/
theorem readsBack_gamepad (args : Text) : ReadsBack (gamepad (.parse args)) := by
  have read (t : Text) : parse ("GAMEPAD:" ++ t) = gamepad (.parse t) := rfl
  have written (command : PadCommand) : (gamepad command).body = "GAMEPAD:" ++ command.text := rfl
  unfold ReadsBack
  rw [written, read, PadCommand.parse_text]

/-- A command for the media keys that was read is read back. -/
theorem readsBack_audio (args : Text) : ReadsBack (audio (.parse args)) := by
  have read (t : Text) : parse ("AUDIO:" ++ t) = audio (.parse t) := rfl
  have written (command : AudioCommand) : (audio command).body = "AUDIO:" ++ command.text := rfl
  unfold ReadsBack
  rw [written, read, AudioCommand.parse_text]

/-- A directive of a known kind is read back. -/
theorem readsBack_of_ofKind? {kind args : Text} {directive : Directive}
    (known : ofKind? kind args = some directive) : ReadsBack directive := by
  unfold ofKind? at known
  split at known
  · cases known
    exact readsBack_delay (boundedNumber_le _ _)
  · cases known
    exact readsBack_speed (boundedNumber_le _ _)
  · cases known
    exact readsBack_key args
  · cases known
    exact readsBack_text args
  · cases known
    exact readsBack_mouse args
  · cases known
    exact readsBack_gamepad args
  · cases known
    exact readsBack_audio args
  · cases known

/-- Whatever is read is read back. -/
theorem readsBack_parse (body : Text) : ReadsBack (parse body) := by
  generalize made : parse body = directive
  have read := made
  unfold parse at read
  split at read
  · subst read
    exact made
  · next kind args _ =>
    cases known : ofKind? kind args with
    | none =>
      rw [known, Option.getD_none] at read
      subst read
      exact made
    | some other =>
      rw [known, Option.getD_some] at read
      subst read
      exact readsBack_of_ofKind? known

/-- The directive that is written in a text, its outer braces and no others taken off. -/
def ofWritten? (t : Text) : Option Directive :=
  ((Text.after? "\x7b\x7b" t).bind (Text.before? "\x7d\x7d")).map parse

/-- Taking the outer braces off what is written leaves what stands between them. -/
theorem ofWritten?_eq (directive : Directive) :
    ofWritten? directive.written = some (parse directive.body) := by
  have inner : Text.after? "\x7b\x7b" directive.written =
      some (directive.body ++ ['\x7d', '\x7d']) := Text.after?_append ['\x7b', '\x7b'] _
  have body : Text.before? "\x7d\x7d" (directive.body ++ ['\x7d', '\x7d']) =
      some directive.body := Text.before?_append _ _
  unfold ofWritten?
  rw [inner, Option.bind_some, body, Option.map_some]

/-- Whatever stands between the braces of a directive, the directive that is read from it is read
again from what is written for that, and no other directive that can be read is written so. -/
theorem ofWritten?_written (body : Text) :
    ofWritten? (parse body).written = some (parse body) ∧
      ∀ other, (parse other).written = (parse body).written ↔ parse other = parse body := by
  have back (t : Text) : ofWritten? (parse t).written = some (parse t) :=
    (ofWritten?_eq _).trans (congrArg some (readsBack_parse t))
  refine ⟨back body, fun other => ⟨fun same => ?_, fun same => congrArg written same⟩⟩
  have found := back other
  rw [same, back body] at found
  exact (Option.some.inj found).symm

end Directive

end Keyfob
