import Keyfob.Ducky
import Keyfob.Proofs.Hid.Chords
import Keyfob.Proofs.Macro.Batch

/-!
# DuckyScript line by line

What a line of DuckyScript does is told by its first word and what follows the first space, or by
its words between spaces (`Ducky.Does`). Each line has just one list of actions that it does, and a
script does what its lines do, one after another, whatever default delay was noted before
(`Ducky.run_line_by_line`).
-/
namespace Keyfob

namespace Ducky

/-- A line has a given word before its first space, or is that word. -/
inductive Opens (word : Text) : Text → Text → Prop where
  /-- The line is the word. -/
  | alone : Opens word word []
  /-- Something follows the space. -/
  | before (rest : Text) : Opens word (word ++ ' ' :: rest) rest

/-- The commands of which nothing is done. -/
def silentVerbs : List String := ["REM", "DEFAULT_DELAY", "DEFAULTDELAY"]

/-- The commands that are no keys. -/
def verbs : List String := silentVerbs ++ ["STRING", "STRINGLN", "DELAY", "REPEAT"]

/-- A word is one ASCII letter. -/
def IsLetter (word : Text) : Prop := ∃ c, word = [c] ∧ Text.isLetter c = true

/-- A pause of some milliseconds, at most the longest there is, and nothing for no time or less. -/
def waiting (ms : Int) : List Action :=
  if ms ≤ 0 then [] else [.delay (UInt32.ofNat (min ms 4294967295).toNat)]

/-- What a line does. -/
inductive Does (line : Text) : List Action → Prop where
  /-- A blank line. -/
  | blank (nothing : line.trim = []) : Does line []
  /-- A comment, or a default delay, which is not applied. -/
  | silent {verb : String} {rest : Text} (listed : verb ∈ silentVerbs)
    (opens : Opens verb line.trim rest) : Does line []
  /-- A text to type. -/
  | string {rest : Text} (opens : Opens "STRING" line.trim rest) :
    Does line (rest.map .type ++ [.delay 10])
  /-- A text to type and a new line. -/
  | stringLine {rest : Text} (opens : Opens "STRINGLN" line.trim rest) :
    Does line (rest.map .type ++ [.type '\n', .delay 10])
  /-- A pause. -/
  | delay {rest : Text} {n : Int} (opens : Opens "DELAY" line.trim rest)
    (counts : Text.Counts rest.trim n) : Does line (waiting n)
  /-- A repetition, which takes its time and does nothing. -/
  | again {rest : Text} {n : Int} (opens : Opens "REPEAT" line.trim rest)
    (counts : Text.Counts rest.trim n) : Does line (waiting (10 * n))
  /-- Any other line whose last word is a key. A letter alone is taken without Shift, and words that
  name no modifier count for nothing. -/
  | keys {words : List Text} {key : Text} {named chord : Chord}
    (other : ∀ verb ∈ verbs, ∀ rest, ¬Opens verb line.trim rest)
    (spaced : Text.Spaced ' ' (words ++ [key]) line.trim)
    (known : Chord.ofKeyName? key = some named) (same : chord.key = named.key)
    (held : ∀ place, chord.Holds place ↔
      named.Holds place ∧ ¬IsLetter key ∨ ∃ word ∈ words, Chord.Names word place) :
    Does line (Action.tap chord ++ [.delay 10])
  /-- Any other line whose last word is no key. -/
  | unknown {words : List Text} {key : Text}
    (other : ∀ verb ∈ verbs, ∀ rest, ¬Opens verb line.trim rest)
    (spaced : Text.Spaced ' ' (words ++ [key]) line.trim)
    (unknown : Chord.ofKeyName? key = none) : Does line []

/-- The actions of a line. -/
def doing (line : Text) : List Action :=
  match DuckyCommand.parse? line with
  | none => []
  | some command => command.actions

/-! ## The first word of a line -/

/-- A line is cut behind the word that it opens with. -/
theorem Opens.cut {word line rest : Text} (opens : Opens word line rest) (free : ' ' ∉ word) :
    (Text.cutFirst? ' ' line).getD (line, []) = (word, rest) := by
  cases opens with
  | alone => rw [Text.cutFirst?_of_notMem free, Option.getD_none]
  | before => rw [Text.cutFirst?_append rest (List.forall_mem_ne'.mpr free), Option.getD_some]

/-- Every line opens with the word that it is cut behind. -/
theorem opens_cut {word line rest : Text}
    (cut : (Text.cutFirst? ' ' line).getD (line, []) = (word, rest)) : Opens word line rest := by
  cases parted : Text.cutFirst? ' ' line with
  | none =>
    rw [parted, Option.getD_none] at cut
    cases cut
    exact .alone
  | some parts =>
    rw [parted, Option.getD_some] at cut
    rw [cut] at parted
    rw [Text.eq_of_cutFirst? parted]
    exact .before rest

/-- No command has a space in it. -/
theorem free_of_mem_verbs {verb : String} (listed : verb ∈ verbs) : ' ' ∉ verb.toList := by
  have all : ∀ verb ∈ verbs, ' ' ∉ verb.toList := by decide
  exact all verb listed

/-- No command is nothing. -/
theorem ne_nil_of_mem_verbs {verb : String} (listed : verb ∈ verbs) : verb.toList ≠ [] := by
  have all : ∀ verb ∈ verbs, verb.toList ≠ [] := by decide
  exact all verb listed

/-- A line that is not blank does what its command does. -/
theorem doing_of_solid {line : Text} (solid : line.trim ≠ []) :
    doing line = (DuckyCommand.ofLine line.trim).actions := by
  have some' : line.trim.isEmpty = false := List.isEmpty_eq_false_iff.mpr solid
  rw [doing, DuckyCommand.parse?, some', if_neg Bool.false_ne_true]

/-- A line that opens with a command is not blank. -/
theorem solid_of_opens {verb : String} {line rest : Text} (listed : verb ∈ verbs)
    (opens : Opens verb line.trim rest) : line.trim ≠ [] := by
  intro nothing
  generalize line.trim = trimmed at *
  cases opens with
  | alone => exact ne_nil_of_mem_verbs listed nothing
  | before =>
    exact absurd nothing (List.append_ne_nil_of_right_ne_nil _ (List.cons_ne_nil ' ' rest))

/-- A line with a word in it is not blank. -/
theorem solid_of_spaced {words : List Text} {key line : Text}
    (spaced : Text.Spaced ' ' (words ++ [key]) line.trim) : line.trim ≠ [] := by
  intro nothing
  have fields := Text.spaced_iff.mp spaced
  rw [nothing] at fields
  exact List.append_ne_nil_of_right_ne_nil words (List.cons_ne_nil key []) fields.symm

/-- A line that is not blank has a last word. -/
theorem exists_spaced {line : Text} (solid : line.trim ≠ []) :
    ∃ words key, Text.Spaced ' ' (words ++ [key]) line.trim := by
  have spaced := Text.spaced_iff.mpr (rfl : (Text.splitAll ' ' line.trim).filter _ = _)
  generalize (Text.splitAll ' ' line.trim).filter _ = words at spaced
  have some' : words ≠ [] := by
    rintro rfl
    have blank : ∀ c ∈ line.trim, Text.isBlank c = true := by
      intro c listed
      rw [Text.eq_of_spaced_nil spaced listed]
      rfl
    have nothing := Text.trimStart_eq_nil_iff.mpr blank
    rw [Text.trimStart_trim] at nothing
    exact solid nothing
  refine ⟨words.dropLast, words.getLast some', ?_⟩
  rwa [List.dropLast_append_getLast some']

/-! ## Numbers -/

/-- A pause lasts as long as it says, if it lasts at all. -/
theorem pause_ofNat {count : Nat} (bounded : count ≤ 4294967295) :
    Action.pause (UInt32.ofNat count) =
      if count = 0 then [] else [.delay (UInt32.ofNat count)] := by
  have value : (UInt32.ofNat count).toNat = count :=
    UInt32.toNat_ofNat_of_lt' (by show count < 4294967296; omega)
  by_cases zero : count = 0
  · rw [zero]
    rfl
  · have some' : UInt32.ofNat count ≠ 0 := by
      intro nothing
      rw [nothing] at value
      exact zero value.symm
    rw [Action.pause, if_neg some', if_neg zero]

/-- A pause of any number of milliseconds. -/
theorem waiting_eq (ms : Int) :
    waiting ms = Action.pause (UInt32.ofNat (min ms 4294967295).toNat) := by
  rw [pause_ofNat (by omega), waiting]
  by_cases none' : ms ≤ 0
  · rw [if_pos none', if_pos (by omega)]
  · rw [if_neg none', if_neg (by omega)]

/-- The number of a command is the one at the front of what follows, as far as it is in range. -/
theorem number_of_counts {rest : Text} {n : Int} (counts : Text.Counts rest.trim n) :
    DuckyCommand.number rest = UInt32.ofNat (min n 4294967295).toNat := by
  have wide : (4294967295 : Int) ≤ Text.integerBound := by decide
  rw [DuckyCommand.number, Text.leadingInteger_of_counts counts]
  congr 1
  unfold Text.clamp
  omega

/-- A repetition takes ten milliseconds for each time, as far as that is in range. -/
theorem repeatTime_of_counts {rest : Text} {n : Int} (counts : Text.Counts rest.trim n) :
    DuckyCommand.repeatTime (DuckyCommand.number rest) =
      UInt32.ofNat (min (10 * n) 4294967295).toNat := by
  have value : (UInt32.ofNat (min n 4294967295).toNat).toNat = (min n 4294967295).toNat :=
    UInt32.toNat_ofNat_of_lt' (by show _ < 4294967296; omega)
  rw [DuckyCommand.repeatTime, number_of_counts counts, value]
  congr 1
  omega

/-! ## Keys -/

/-- The ASCII letters are ASCII characters. -/
theorem lt_of_isLetter {c : Char} (letter : Text.isLetter c = true) : c.toNat < 128 := by
  unfold Text.isLetter at letter
  simp only [Bool.or_eq_true, Bool.and_eq_true, decide_eq_true_eq, Char.le_def,
    UInt32.le_iff_toNat_le] at letter
  have small : 'z'.val.toNat = 122 := rfl
  have capital : 'Z'.val.toNat = 90 := rfl
  show c.val.toNat < 128
  omega

/-- A letter names the same key in either case, and no Shift as a small letter. -/
theorem ofKeyName?_letter {c : Char} (letter : Text.isLetter c = true) :
    ∃ named, Chord.ofKeyName? [c] = some named ∧
      Chord.ofKeyName? [c.toLower] = some ⟨0, named.key⟩ := by
  have all : ∀ n < 128, Text.isLetter (Char.ofNat n) = true →
      (Chord.ofKeyName? [Char.ofNat n]).isSome = true ∧
        Chord.ofKeyName? [(Char.ofNat n).toLower] =
          (Chord.ofKeyName? [Char.ofNat n]).map fun named => ⟨0, named.key⟩ := by
    decide +kernel
  have here := all c.toNat (lt_of_isLetter letter)
  rw [Char.ofNat_toNat] at here
  obtain ⟨known, lower⟩ := here letter
  obtain ⟨named, known⟩ := Option.isSome_iff_exists.mp known
  rw [known, Option.map_some] at lower
  exact ⟨named, known, lower⟩

/-- A word that is not a letter alone is taken as it is. -/
theorem keyNamed?_of_other {key : Text} (other : ¬IsLetter key) :
    DuckyCommand.keyNamed? key = Chord.ofKeyName? key := by
  unfold DuckyCommand.keyNamed?
  split
  · next c =>
    have apart : ¬Text.isLetter c = true := fun letter => other ⟨c, rfl, letter⟩
    rw [if_neg apart]
  · rfl

/-- Without report bits no modifier is held. -/
theorem not_testBit_zero (place : Nat) : ¬(0 : UInt8).toNat.testBit place = true := by
  rw [UInt8.toNat_zero, Nat.zero_testBit]
  exact Bool.false_ne_true

/-- The key of a key line is the one that its word names, without Shift for a letter. -/
theorem of_keyNamed? {key : Text} {named : Chord} (known : Chord.ofKeyName? key = some named) :
    ∃ own, DuckyCommand.keyNamed? key = some own ∧ own.key = named.key ∧
      ∀ place, own.Holds place ↔ named.Holds place ∧ ¬IsLetter key := by
  by_cases alone : IsLetter key
  · obtain ⟨c, rfl, letter⟩ := alone
    obtain ⟨named', known', lower⟩ := ofKeyName?_letter letter
    rw [known] at known'
    cases known'
    refine ⟨⟨0, named.key⟩, ?_, rfl, fun place => ?_⟩
    · show Chord.ofKeyName? (if Text.isLetter c then [c.toLower] else [c]) = _
      rw [if_pos letter, lower]
    · exact iff_of_false (not_testBit_zero place) fun both => both.2 ⟨c, rfl, letter⟩
  · refine ⟨named, (keyNamed?_of_other alone).trans known, rfl, fun place => ?_⟩
    exact (and_iff_left alone).symm

/-- A key line has no key if its word names none: every letter names one. -/
theorem keyNamed?_of_unknown {key : Text} (unknown : Chord.ofKeyName? key = none) :
    DuckyCommand.keyNamed? key = none := by
  have other : ¬IsLetter key := by
    rintro ⟨c, rfl, letter⟩
    obtain ⟨named, known, -⟩ := ofKeyName?_letter letter
    rw [unknown] at known
    cases known
  rw [keyNamed?_of_other other, unknown]

/-- The report bits of a word are the modifiers that it names, and none if it names none. -/
theorem testBit_getD (word : Text) (place : Nat) :
    ((Chord.modifier? word).getD 0).toNat.testBit place = true ↔ Chord.Names word place := by
  cases known : Chord.modifier? word with
  | none =>
    have nothing : ¬Chord.Names word place := by
      rintro ⟨bits, known', -⟩
      rw [known] at known'
      cases known'
    exact iff_of_false (not_testBit_zero place) nothing
  | some bits => exact (Chord.names_iff known place).symm

/-- A chord with the modifiers that some words name; words that name none count for nothing. -/
def holdingNamed (own : Chord) (words : List Text) : Chord :=
  words.foldl (fun chord word => chord.holding ((Chord.modifier? word).getD 0)) own

/-- Further modifiers leave the key as it is. -/
theorem key_holdingNamed (own : Chord) (words : List Text) :
    (holdingNamed own words).key = own.key := by
  induction words generalizing own with
  | nil => rfl
  | cons word words ih => exact ih (own.holding ((Chord.modifier? word).getD 0))

/-- With the modifiers that some words name, a chord holds just those and its own. -/
theorem holds_holdingNamed (own : Chord) (words : List Text) (place : Nat) :
    (holdingNamed own words).Holds place ↔
      own.Holds place ∨ ∃ word ∈ words, Chord.Names word place := by
  induction words generalizing own with
  | nil =>
    refine (or_iff_left ?_).symm
    rintro ⟨word, listed, -⟩
    cases listed
  | cons word words ih =>
    show (holdingNamed (own.holding ((Chord.modifier? word).getD 0)) words).Holds place ↔ _
    rw [ih, Chord.holds_holding, testBit_getD, or_assoc, List.exists_mem_cons_iff]

/-! ## What a line does -/

/-- A line that opens with a command is cut behind it. -/
theorem cut_of_opens (verb : String) {line rest : Text} (listed : verb ∈ verbs)
    (opens : Opens verb line.trim rest) :
    doing line = (DuckyCommand.ofLine line.trim).actions ∧
      (Text.cutFirst? ' ' line.trim).getD (line.trim, []) = (verb.toList, rest) :=
  ⟨doing_of_solid (solid_of_opens listed opens), opens.cut (free_of_mem_verbs listed)⟩

/-- Any other line taps its key with its modifiers, if there is such a key. -/
theorem doing_of_other {words : List Text} {key line : Text}
    (other : ∀ verb ∈ verbs, ∀ rest, ¬Opens verb line.trim rest)
    (spaced : Text.Spaced ' ' (words ++ [key]) line.trim) :
    doing line =
      (DuckyCommand.keys ((DuckyCommand.keyNamed? key).map (holdingNamed · words))).actions := by
  rw [doing_of_solid (solid_of_spaced spaced)]
  congr 1
  have fields := Text.spaced_iff.mp spaced
  have chord : DuckyCommand.chordOf? (words ++ [key]) =
      (DuckyCommand.keyNamed? key).map (holdingNamed · words) := by
    rw [DuckyCommand.chordOf?, List.getLast?_concat, List.dropLast_concat]
    rfl
  obtain ⟨word, rest, cut⟩ : ∃ word rest,
      (Text.cutFirst? ' ' line.trim).getD (line.trim, []) = (word, rest) := ⟨_, _, rfl⟩
  have apart : ∀ verb ∈ verbs, String.ofList word ≠ verb := by
    rintro verb listed rfl
    refine other _ listed rest ?_
    rw [String.toList_ofList]
    exact opens_cut cut
  rw [DuckyCommand.ofLine, cut, fields, chord]
  dsimp only
  -- Each branch but the last is for a line that opens with a command.
  split
  all_goals first
    | rfl
    | next same => exact absurd same (apart _ (by decide))

/-- A text is typed character by character. -/
theorem typeText_zero (t : Text) : Action.typeText 0 t = t.map .type := List.map_eq_flatMap.symm

/-- What a line does are its actions. -/
theorem eq_of_does {line : Text} {actions : List Action} (does : Does line actions) :
    actions = doing line := by
  cases does with
  | blank nothing =>
    rw [doing, DuckyCommand.parse?, nothing]
    rfl
  | @silent verb rest listed opens =>
    obtain ⟨done, cut⟩ := cut_of_opens verb (List.mem_append_left _ listed) opens
    rw [done, DuckyCommand.ofLine, cut]
    dsimp only
    rw [String.ofList_toList]
    have three : verb = "REM" ∨ verb = "DEFAULT_DELAY" ∨ verb = "DEFAULTDELAY" := by
      simpa [silentVerbs] using listed
    rcases three with rfl | rfl | rfl <;> rfl
  | string opens =>
    obtain ⟨done, cut⟩ := cut_of_opens "STRING" (by decide) opens
    rw [done, DuckyCommand.ofLine, cut, ← typeText_zero]
    rfl
  | stringLine opens =>
    obtain ⟨done, cut⟩ := cut_of_opens "STRINGLN" (by decide) opens
    rw [done, DuckyCommand.ofLine, cut, ← typeText_zero]
    rfl
  | @delay rest n opens counts =>
    obtain ⟨done, cut⟩ := cut_of_opens "DELAY" (by decide) opens
    rw [done, DuckyCommand.ofLine, cut, waiting_eq, ← number_of_counts counts]
    rfl
  | @again rest n opens counts =>
    obtain ⟨done, cut⟩ := cut_of_opens "REPEAT" (by decide) opens
    rw [done, DuckyCommand.ofLine, cut, waiting_eq, ← repeatTime_of_counts counts]
    rfl
  | @keys words key named chord other spaced known same held =>
    obtain ⟨own, taken, key', unshifted⟩ := of_keyNamed? known
    have tapped : holdingNamed own words = chord := by
      apply Chord.eq_of_holds
      · rw [key_holdingNamed, key', same]
      · intro place
        rw [holds_holdingNamed, unshifted, held]
    rw [doing_of_other other spaced, taken, Option.map_some, tapped]
    rfl
  | unknown other spaced unknown =>
    rw [doing_of_other other spaced, keyNamed?_of_unknown unknown]
    rfl

/-- Every line does something, if only nothing at all. -/
theorem exists_does (line : Text) : ∃ actions, Does line actions := by
  by_cases solid : line.trim = []
  · exact ⟨_, .blank solid⟩
  · by_cases listed : ∃ verb ∈ verbs, ∃ rest, Opens verb line.trim rest
    · obtain ⟨verb, listed, rest, opens⟩ := listed
      obtain ⟨n, counts⟩ := Text.exists_counts rest.trim
      rcases List.mem_append.mp listed with silent | other
      · exact ⟨_, .silent silent opens⟩
      · have four : verb = "STRING" ∨ verb = "STRINGLN" ∨ verb = "DELAY" ∨ verb = "REPEAT" := by
          simpa using other
        rcases four with rfl | rfl | rfl | rfl
        · exact ⟨_, .string opens⟩
        · exact ⟨_, .stringLine opens⟩
        · exact ⟨_, .delay opens counts⟩
        · exact ⟨_, .again opens counts⟩
    · have other : ∀ verb ∈ verbs, ∀ rest, ¬Opens verb line.trim rest :=
        fun verb among rest opens => listed ⟨verb, among, rest, opens⟩
      obtain ⟨words, key, spaced⟩ := exists_spaced solid
      cases known : Chord.ofKeyName? key with
      | none => exact ⟨_, .unknown other spaced known⟩
      | some named =>
        obtain ⟨own, -, key', unshifted⟩ := of_keyNamed? known
        have same := (key_holdingNamed own words).trans key'
        refine ⟨_, .keys other spaced known same fun place => ?_⟩
        rw [holds_holdingNamed, unshifted]

/-- What a line does is said in full: it does one list of actions and no other. -/
theorem does_iff {line : Text} {actions : List Action} :
    Does line actions ↔ actions = doing line := by
  constructor
  · exact eq_of_does
  · rintro rfl
    -- That the line does anything is known from the relation alone, what it is then from the code.
    obtain ⟨actions, does⟩ := exists_does line
    rwa [eq_of_does does] at does

/-! ## What a script does -/

/-- Lines do what they do, one after another, whatever default delay was noted. -/
theorem run_eq_flatMap (ducky : Ducky) (lines : List Text) :
    (next.run ducky lines).2 = lines.flatMap doing := by
  induction lines generalizing ducky with
  | nil => rfl
  | cons line lines ih =>
    have first : (next ducky line).2.all = doing line := by
      unfold next doing
      cases DuckyCommand.parse? line with
      | none => exact Burst.all_once []
      | some command => exact Burst.all_once command.actions
    rw [Interpreter.run, List.flatMap_cons, ← first, ← ih (next ducky line).1]

/-- A script does what its lines do, one after another, whatever default delay was noted before.
Each line does just one list of actions, told by that line alone. A device carries these out as one
list, up to the first that it refuses, and a recording keeps all of them. -/
theorem run_line_by_line (ducky : Ducky) (script : Text) :
    (∀ line actions, Does line actions ↔ actions = doing line) ∧
      (∀ (δ : Type) [Device δ] (device : δ),
        ((ducky.run script device).1, (ducky.run script device).2.2) =
          performAll (script.lines.flatMap doing) device) ∧
      ∀ recording : Recording, (ducky.run script recording).1 = .ok () ∧
        (ducky.run script recording).2.2.actions =
          recording.actions ++ script.lines.flatMap doing := by
  have listed := run_eq_flatMap ducky script.lines
  refine ⟨fun line actions => does_iff, fun δ _ device => ?_, fun recording => ?_⟩
  · rw [← listed]
    exact (drive_eq_performAll next ducky script.lines device).1
  · rw [run, drive_eq_of_accepts, listed]
    exact ⟨rfl, Recording.actions_carriedOut _ _⟩

example : doing " HYPER  CTRL C " = Action.tap ⟨0x01, 0x06⟩ ++ [.delay 10] := by decide

end Ducky

end Keyfob
