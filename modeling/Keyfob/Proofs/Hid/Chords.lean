import Keyfob.Hid.Chord
import Keyfob.Proofs.Text.Fields
import Keyfob.Proofs.Text.Number

/-!
# Chords as they are written

A chord is written as the words for its modifiers and the word for its key with plus signs between
them, the plus key directly at the end. Reading cuts the text at the last plus sign and finds the
same words again, up to blanks (`Chord.parse?_of_written`). So the chord is there exactly where the
key and every modifier are known, and it holds just the modifiers that some word names and those
that its key brings along (`Chord.parse?_join`): order, repetition and letter case of the words
make no difference.
-/
namespace Keyfob.Chord

/-- A chord holds the modifier whose report bit stands at a place. -/
def Holds (chord : Chord) (place : Nat) : Prop := chord.modifiers.toNat.testBit place = true

/-- A word names the modifier whose report bit stands at a place. -/
def Names (word : Text) (place : Nat) : Prop :=
  ∃ bits, modifier? word = some bits ∧ bits.toNat.testBit place = true

/-- The words of a list that are not blank all stand in another list too, in some letter case and
with some blanks around them. -/
def Within (words others : List Text) : Prop :=
  ∀ word ∈ words, word.trim ≠ [] → ∃ other ∈ others, other.trim.lower = word.trim.lower

/-- A text writes a chord by some words for modifiers and a word for the key. -/
inductive Written (modifiers : List Text) : Text → Text → Prop where
  /-- The words with plus signs between them. -/
  | joined {key : Text} (free : '+' ∉ key) (solid : key.trim ≠ []) :
    Written modifiers key (Text.join ['+'] (modifiers ++ [key]))
  /-- The plus key alone. -/
  | plus (alone : modifiers = []) : Written modifiers ['+'] ['+']
  /-- The plus key behind the plus sign that divides it from the modifiers. -/
  | plusAfter : Written modifiers ['+'] (Text.join ['+'] modifiers ++ ['+', '+'])

/-- The words of a list that are not blank, without the blanks around them. -/
def solids (words : List Text) : List Text :=
  (words.map Text.trim).filter fun word => !word.isEmpty

/-- Which modifier a word names does not depend on blanks and letter case. -/
theorem modifier?_congr {word other : Text} (same : other.trim.lower = word.trim.lower) :
    modifier? other = modifier? word := by
  unfold modifier?
  rw [same]

/-- Blanks around a word make no difference to what it names. -/
theorem modifier?_trim (word : Text) : modifier? word.trim = modifier? word :=
  modifier?_congr (congrArg Text.lower (Text.trim_trim word))

/-- What a word names at a place is read off its bits. -/
theorem names_iff {word : Text} {bits : UInt8} (known : modifier? word = some bits) (place : Nat) :
    Names word place ↔ bits.toNat.testBit place = true := by
  constructor
  · rintro ⟨bits', known', there⟩
    rw [known] at known'
    rwa [Option.some.inj known']
  · intro there
    exact ⟨bits, known, there⟩

/-- A blank word names nothing. -/
theorem solid_of_names {word : Text} {place : Nat} (named : Names word place) : word.trim ≠ [] := by
  intro blank
  obtain ⟨bits, known, -⟩ := named
  have unknown : modifier? word = modifier? [] := modifier?_congr (congrArg Text.lower blank)
  rw [known] at unknown
  cases unknown

/-- Chords of one key are the same if they hold the same modifiers. -/
theorem eq_of_holds {chord other : Chord} (key : chord.key = other.key)
    (same : ∀ place, chord.Holds place ↔ other.Holds place) : chord = other := by
  have bits : chord.modifiers.toNat = other.modifiers.toNat :=
    Nat.eq_of_testBit_eq fun place => Bool.eq_iff_iff.mpr (same place)
  have modifiers : chord.modifiers = other.modifiers := UInt8.toNat_inj.mp bits
  cases chord
  cases other
  cases key
  cases modifiers
  rfl

/-- A chord with further modifiers holds these and its own. -/
theorem holds_holding (chord : Chord) (bits : UInt8) (place : Nat) :
    (chord.holding bits).Holds place ↔ chord.Holds place ∨ bits.toNat.testBit place = true := by
  unfold Holds
  rw [show (chord.holding bits).modifiers = chord.modifiers ||| bits from rfl, UInt8.toNat_or,
    Nat.testBit_or, Bool.or_eq_true]

/-- Modifiers are held exactly if all words for them are known. -/
theorem isSome_holdingAll?_iff (chord : Chord) (words : List Text) :
    (chord.holdingAll? words).isSome = true ↔
      ∀ word ∈ words, (modifier? word).isSome = true := by
  induction words generalizing chord with
  | nil => exact iff_of_true rfl (List.forall_mem_nil _)
  | cons word words ih =>
    rw [holdingAll?, List.forall_mem_cons]
    cases modifier? word with
    | none => exact iff_of_false nofun fun known => nomatch known.1
    | some bits =>
      show ((chord.holding bits).holdingAll? words).isSome = true ↔ _
      rw [ih]
      exact (and_iff_right rfl).symm

/-- With the modifiers that some words name, a chord has its key and holds just those and its
own. -/
theorem of_holdingAll? {chord held : Chord} {words : List Text}
    (done : chord.holdingAll? words = some held) :
    held.key = chord.key ∧
      ∀ place, held.Holds place ↔ chord.Holds place ∨ ∃ word ∈ words, Names word place := by
  induction words generalizing chord with
  | nil =>
    cases done
    refine ⟨rfl, fun place => (or_iff_left ?_).symm⟩
    rintro ⟨word, listed, -⟩
    cases listed
  | cons word words ih =>
    rw [holdingAll?] at done
    cases known : modifier? word with
    | none =>
      rw [known] at done
      cases done
    | some bits =>
      rw [known] at done
      obtain ⟨key, places⟩ := ih done
      refine ⟨key, fun place => ?_⟩
      rw [places, holds_holding, or_assoc, List.exists_mem_cons_iff, names_iff known]

/-- Blanks around the words for modifiers make no difference. -/
theorem holdingAll?_map_trim (chord : Chord) (words : List Text) :
    chord.holdingAll? (words.map Text.trim) = chord.holdingAll? words := by
  induction words generalizing chord with
  | nil => rfl
  | cons word words ih =>
    rw [List.map_cons, holdingAll?, holdingAll?, modifier?_trim]
    cases modifier? word with
    | none => rfl
    | some bits => exact ih _

/-- Blank words for modifiers are passed over. -/
theorem holdingAll?_solids (chord : Chord) (words : List Text) :
    chord.holdingAll? (words.filter fun word => !word.trim.isEmpty) =
      chord.holdingAll? (solids words) := by
  have filtered : solids words =
      (words.filter fun word => !word.trim.isEmpty).map Text.trim := List.filter_map ..
  rw [filtered, holdingAll?_map_trim]

/-- The words that are not blank are trimmed words. -/
theorem mem_solids {words : List Text} {solid : Text} :
    solid ∈ solids words ↔ solid ≠ [] ∧ ∃ word ∈ words, word.trim = solid := by
  unfold solids
  rw [List.mem_filter, List.mem_map, Bool.not_eq_true', List.isEmpty_eq_false_iff]
  exact And.comm

/-- All words that are not blank are known if their trimmed forms are. -/
theorem known_solids_iff (words : List Text) :
    (∀ solid ∈ solids words, (modifier? solid).isSome = true) ↔
      ∀ word ∈ words, word.trim ≠ [] → (modifier? word).isSome = true := by
  constructor
  · intro known word listed solid
    rw [← modifier?_trim]
    exact known _ (mem_solids.mpr ⟨solid, word, listed, rfl⟩)
  · intro known solid listed
    obtain ⟨nonempty, word, among, rfl⟩ := mem_solids.mp listed
    rw [modifier?_trim]
    exact known word among nonempty

/-- What some words name is what their trimmed forms name: a blank one names nothing. -/
theorem names_solids_iff (words : List Text) (place : Nat) :
    (∃ solid ∈ solids words, Names solid place) ↔ ∃ word ∈ words, Names word place := by
  have trimmed (word : Text) : Names word.trim place ↔ Names word place := by
    unfold Names
    rw [modifier?_trim]
  constructor
  · rintro ⟨solid, listed, named⟩
    obtain ⟨-, word, among, rfl⟩ := mem_solids.mp listed
    exact ⟨word, among, (trimmed word).mp named⟩
  · rintro ⟨word, listed, named⟩
    have listed' := mem_solids.mpr ⟨solid_of_names named, word, listed, rfl⟩
    exact ⟨word.trim, listed', (trimmed word).mpr named⟩

/-- A text without a plus sign is all key. -/
theorem divide_of_notMem {spec : Text} (free : '+' ∉ spec) : divide spec = ([], spec) := by
  have other : spec ≠ "+".toList := by
    rintro rfl
    exact free List.mem_cons_self
  have open' : Text.before? "++".toList spec = none := by
    refine Option.eq_none_iff_forall_ne_some.mpr fun front found => free ?_
    rw [Text.eq_of_before? found]
    exact List.mem_append_right _ List.mem_cons_self
  rw [divide, if_neg other, open', Text.cutLast?_of_notMem free]
  rfl

/-- The last plus sign divides. -/
theorem divide_append {front key : Text} (some' : key ≠ []) (free : '+' ∉ key) :
    divide (front ++ '+' :: key) = (front, key) := by
  have last : (front ++ '+' :: key).getLast? = some (key.getLast some') := by
    rw [List.getLast?_append_of_ne_nil _ (List.cons_ne_nil '+' key), List.getLast?_cons,
      List.getLast?_eq_some_getLast some', Option.getD_some]
  have apart : key.getLast some' ≠ '+' := fun same => free (same ▸ List.getLast_mem some')
  have other : front ++ '+' :: key ≠ "+".toList := by
    intro same
    rw [same] at last
    exact apart (Option.some.inj last).symm
  have open' : Text.before? "++".toList (front ++ '+' :: key) = none := by
    refine Option.eq_none_iff_forall_ne_some.mpr fun modifiers found => ?_
    have plus : (front ++ '+' :: key).getLast? = some '+' := by
      rw [Text.eq_of_before? found]
      exact List.getLast?_append_of_ne_nil modifiers (List.cons_ne_nil '+' ['+'])
    rw [last] at plus
    exact apart (Option.some.inj plus)
  rw [divide, if_neg other, open', Text.cutLast?_append front free]
  rfl

/-- Two plus signs at the end are the one that divides and the plus key. -/
theorem divide_plus (front : Text) : divide (front ++ ['+', '+']) = (front, ['+']) := by
  have other : front ++ ['+', '+'] ≠ "+".toList := by
    intro same
    have size := congrArg List.length same
    rw [List.length_append] at size
    change front.length + 2 = 1 at size
    omega
  have found : Text.before? "++".toList (front ++ ['+', '+']) = some front :=
    Text.before?_append front ['+', '+']
  rw [divide, if_neg other, found]
  rfl

/-- Words in which no plus sign stands are found again between the plus signs, also when the blanks
at the front of the text are trimmed. -/
theorem solids_splitAll {words : List Text} (free : ∀ word ∈ words, '+' ∉ word) :
    solids (Text.splitAll '+' (Text.join ['+'] words).trimStart) = solids words := by
  have trimmed (word : Text) : (word.trimStart).trim = word.trim := Text.trim_trimStart word
  have notBlank : Text.isBlank '+' = false := rfl
  cases words with
  | nil => rfl
  | cons word words =>
    obtain ⟨first, later⟩ := List.forall_mem_cons.mp free
    have first' : '+' ∉ word.trimStart := fun inside => first (List.dropWhile_subset _ inside)
    have same : (Text.splitAll '+' (Text.join ['+'] (word :: words)).trimStart).map Text.trim =
        (word :: words).map Text.trim := by
      by_cases last : words = []
      · subst last
        show (Text.splitAll '+' word.trimStart).map Text.trim = _
        rw [Text.splitAll_of_notMem first', List.map_singleton, List.map_singleton, trimmed]
      · rw [Text.join_cons word last, Text.trimStart_append_cons _ _ notBlank,
          Text.splitAll_append first', Text.splitAll_join last later, List.map_cons, List.map_cons,
          trimmed]
    unfold solids
    rw [same]

/-- A chord is read by the parts that its text is divided into. -/
theorem parse?_of_divide {spec front back : Text} (solid : spec.trim ≠ [])
    (divided : divide spec.trim = (front, back)) :
    parse? spec = (ofKeyName? back).bind
      (·.holdingAll? (solids (Text.splitAll '+' front))) := by
  have some' : spec.trim.isEmpty = false := List.isEmpty_eq_false_iff.mpr solid
  rw [parse?, some', if_neg Bool.false_ne_true, divided]
  dsimp only
  cases ofKeyName? back with
  | none => rfl
  | some chord => exact holdingAll?_solids chord _

/-- A key is known by a word with any blanks around it. -/
theorem ofKeyName?_congr {word other : Text} (same : other.trim = word.trim) :
    ofKeyName? other = ofKeyName? word := by
  unfold ofKeyName?
  rw [same]

/-- A written chord is the chord of its key with the modifiers of its words. -/
theorem parse?_of_written {modifiers : List Text} {key spec : Text}
    (written : Written modifiers key spec) (free : ∀ word ∈ modifiers, '+' ∉ word) :
    parse? spec = (ofKeyName? key).bind (·.holdingAll? (solids modifiers)) := by
  have notBlank : Text.isBlank '+' = false := rfl
  cases written with
  | joined without solid =>
    by_cases none' : modifiers = []
    · subst none'
      have without' : '+' ∉ key.trim := fun inside => without (Text.mem_of_mem_trim inside)
      show parse? key = _
      rw [parse?_of_divide solid (divide_of_notMem without'),
        ofKeyName?_congr (Text.trim_trim key)]
      rfl
    · -- The key has a character that is not blank, so the plus sign before it is kept and the last.
      have without' : '+' ∉ key.trimEnd := by
        intro inside
        obtain ⟨blanks, -, whole⟩ := Text.exists_blanks_trimEnd key
        exact without (whole ▸ List.mem_append_left _ inside)
      have solid' : key.trimEnd ≠ [] := by
        intro nothing
        rw [← Text.trim_trimEnd, nothing] at solid
        exact solid rfl
      have ends : (Text.join ['+'] (modifiers ++ [key])).trim =
          (Text.join ['+'] modifiers).trimStart ++ '+' :: key.trimEnd := by
        rw [Text.join_concat none', Text.trim_append_cons _ _ notBlank]
      have some' : (Text.join ['+'] (modifiers ++ [key])).trim ≠ [] := by
        rw [ends]
        exact List.append_ne_nil_of_right_ne_nil _ (List.cons_ne_nil _ _)
      rw [parse?_of_divide some' (ends ▸ divide_append solid' without'), solids_splitAll free,
        ofKeyName?_congr (Text.trim_trimEnd key)]
  | plus alone =>
    subst alone
    have alone : divide (Text.trim ['+']) = ([], ['+']) := rfl
    have solid : Text.trim ['+'] ≠ [] := List.cons_ne_nil _ _
    rw [parse?_of_divide solid alone]
    rfl
  | plusAfter =>
    have ends : (Text.join ['+'] modifiers ++ ['+', '+']).trim =
        (Text.join ['+'] modifiers).trimStart ++ ['+', '+'] := Text.trim_append_cons _ _ notBlank
    have some' : (Text.join ['+'] modifiers ++ ['+', '+']).trim ≠ [] := by
      rw [ends]
      exact List.append_ne_nil_of_right_ne_nil _ (List.cons_ne_nil _ _)
    rw [parse?_of_divide some' (ends ▸ divide_plus _), solids_splitAll free]

/-- Blanks around a written chord make no difference. -/
theorem parse?_padded {before after : Text} (spec : Text)
    (blankBefore : ∀ c ∈ before, Text.isBlank c = true)
    (blankAfter : ∀ c ∈ after, Text.isBlank c = true) :
    parse? (before ++ spec ++ after) = parse? spec := by
  unfold parse?
  rw [Text.trim_padded spec blankBefore blankAfter]

/-- Words are known that all stand among known words. -/
theorem known_of_within {words others : List Text} (within : Within words others)
    (known : ∀ other ∈ others, other.trim ≠ [] → (modifier? other).isSome = true) :
    ∀ word ∈ words, word.trim ≠ [] → (modifier? word).isSome = true := by
  intro word listed solid
  obtain ⟨other, among, same⟩ := within word listed solid
  have solid' : other.trim ≠ [] := by
    intro blank
    rw [blank] at same
    exact solid (List.map_eq_nil_iff.mp same.symm)
  rw [← modifier?_congr same]
  exact known other among solid'

/-- What some words name is named by words among which they all stand. -/
theorem names_of_within {words others : List Text} (within : Within words others) {place : Nat}
    (named : ∃ word ∈ words, Names word place) : ∃ other ∈ others, Names other place := by
  obtain ⟨word, listed, named⟩ := named
  obtain ⟨other, among, same⟩ := within word listed (solid_of_names named)
  obtain ⟨bits, known, there⟩ := named
  exact ⟨other, among, bits, (modifier?_congr same).trans known, there⟩

/-- The same words for modifiers hold the same modifiers, in any order, however often each of them
stands, and in any letter case. -/
theorem holdingAll?_of_within {chord held : Chord} {words others : List Text}
    (within : Within words others) (within' : Within others words)
    (done : chord.holdingAll? (solids words) = some held) :
    chord.holdingAll? (solids others) = some held := by
  have known := (isSome_holdingAll?_iff chord _).mp (Option.isSome_of_eq_some done)
  have known' := known_of_within within' ((known_solids_iff words).mp known)
  obtain ⟨held', done'⟩ := Option.isSome_iff_exists.mp
    ((isSome_holdingAll?_iff chord _).mpr ((known_solids_iff others).mpr known'))
  obtain ⟨key, places⟩ := of_holdingAll? done
  obtain ⟨key', places'⟩ := of_holdingAll? done'
  have same : held' = held := by
    refine eq_of_holds (key'.trans key.symm) fun place => ?_
    rw [places, places', names_solids_iff, names_solids_iff]
    exact or_congr_right ⟨names_of_within within', names_of_within within⟩
  rw [done', same]

/-- A written chord, with any blanks around it, is read exactly if its key is known and every word
for a modifier that is not blank. The chord then has that key and holds just the modifiers that some
word names and those that the key brings along. It is the same chord for the same words in another
order, more or less often, or in another letter case. -/
theorem parse?_join {modifiers : List Text} {key spec before after : Text}
    (written : Written modifiers key spec) (free : ∀ word ∈ modifiers, '+' ∉ word)
    (blankBefore : ∀ c ∈ before, Text.isBlank c = true)
    (blankAfter : ∀ c ∈ after, Text.isBlank c = true) :
    ((parse? (before ++ spec ++ after)).isSome = true ↔
        (ofKeyName? key).isSome = true ∧
          ∀ word ∈ modifiers, word.trim ≠ [] → (modifier? word).isSome = true) ∧
      (∀ chord, parse? (before ++ spec ++ after) = some chord →
        ∃ own, ofKeyName? key = some own ∧ chord.key = own.key ∧
          ∀ place, chord.Holds place ↔
            own.Holds place ∨ ∃ word ∈ modifiers, Names word place) ∧
      ∀ (others : List Text) (spec' : Text), Written others key spec' →
        (∀ word ∈ others, '+' ∉ word) → Within modifiers others → Within others modifiers →
          parse? spec' = parse? (before ++ spec ++ after) := by
  rw [parse?_padded spec blankBefore blankAfter, parse?_of_written written free]
  refine ⟨?_, fun chord read => ?_, fun others spec' written' free' within within' => ?_⟩
  · cases ofKeyName? key with
    | none => exact iff_of_false nofun fun known => nomatch known.1
    | some own =>
      show (own.holdingAll? (solids modifiers)).isSome = true ↔ _
      rw [isSome_holdingAll?_iff, known_solids_iff]
      exact (and_iff_right rfl).symm
  · obtain ⟨own, found, held⟩ := Option.bind_eq_some_iff.mp read
    obtain ⟨same, places⟩ := of_holdingAll? held
    refine ⟨own, found, same, fun place => ?_⟩
    rw [places, names_solids_iff]
  · rw [parse?_of_written written' free']
    cases ofKeyName? key with
    | none => rfl
    | some own =>
      refine Option.ext fun chord => ?_
      exact ⟨holdingAll?_of_within within' within, holdingAll?_of_within within within'⟩

/-- Control, Alt and the plus key, with blanks, an empty word and capitals, are the chord of the
same words in another order and with one of them repeated. -/
theorem parse?_join_plus :
    let modifiers : List Text := [" Ctrl", "", "ALT "]
    let others : List Text := ["alt", "ctrl", "alt"]
    let spec : Text := " Ctrl++ALT ++"
    let spec' : Text := "alt+ctrl+alt++"
    Written modifiers ['+'] spec ∧ Written others ['+'] spec' ∧
      (parse? (['\t'] ++ spec ++ [' '])).isSome = true ∧
      (∀ chord, parse? (['\t'] ++ spec ++ [' ']) = some chord →
        chord.key = 0x2e ∧ chord.Holds 0 ∧ chord.Holds 1 ∧ chord.Holds 2) ∧
      parse? spec' = parse? (['\t'] ++ spec ++ [' ']) := by
  intro modifiers others spec spec'
  have written : Written modifiers ['+'] spec := .plusAfter
  have written' : Written others ['+'] spec' := .plusAfter
  have free : ∀ word ∈ modifiers, '+' ∉ word := by decide
  have free' : ∀ word ∈ others, '+' ∉ word := by decide
  have within : Within modifiers others := by unfold Within; decide
  have within' : Within others modifiers := by unfold Within; decide
  have tab : ∀ c ∈ ['\t'], Text.isBlank c = true := List.forall_mem_singleton.mpr rfl
  have space : ∀ c ∈ [' '], Text.isBlank c = true := List.forall_mem_singleton.mpr rfl
  obtain ⟨there, held, same⟩ := parse?_join written free tab space
  have ctrl : ∃ word ∈ modifiers, Names word 0 :=
    ⟨" Ctrl".toList, by decide, 0x01, by decide, by decide⟩
  have alt : ∃ word ∈ modifiers, Names word 2 :=
    ⟨"ALT ".toList, by decide, 0x04, by decide, by decide⟩
  refine ⟨written, written', there.mpr ⟨by decide, by decide⟩, fun chord read => ?_,
    same others spec' written' free' within within'⟩
  obtain ⟨own, found, key, places⟩ := held chord read
  have own' : own = ⟨Usage.shiftBit, 0x2e⟩ := (Option.some.inj found).symm
  have shift : own.Holds 1 := by
    rw [own']
    show (Usage.shiftBit.toNat).testBit 1 = true
    decide
  have plus : own.key = 0x2e := by rw [own']
  exact ⟨key.trans plus, (places 0).mpr (.inr ctrl), (places 1).mpr (.inl shift),
    (places 2).mpr (.inr alt)⟩

end Keyfob.Chord
