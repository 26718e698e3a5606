import Keyfob.Proofs.Json.Spelling
import Keyfob.Proofs.Store.Ordered
import Keyfob.Proofs.Text.Number
import Keyfob.Proofs.Text.Utf8
import Keyfob.Store.Document

/-!
# Reading back documents that were written

What a document is read as is put together from what its pieces are read as: a character inside a
string, a string, a number, a member of an object, an object. Contents that stand in order are read
back from their document as they are (`StoreDocument.read?_write`), and what is read from any
document stands in order, so this is so for everything that a store can hold.
-/
namespace Keyfob

open JsonScanner (between)

namespace StoreDocument

/-! ## Strings -/

/-- A unit of a string spells a character, whatever units follow. -/
def Spells (unit : JsonUnit) (c : Char) : Prop :=
  ∀ rest, JsonUnit.text? (unit :: rest) = (JsonUnit.text? rest).map (c :: ·)

/-- A character spells itself. -/
theorem spells_char (c : Char) : Spells (.char c) c := fun _ => rfl

/-- A control character is spelled by its number. -/
theorem spells_escaped {c : Char} (control : c.toNat < 0x20) : Spells (.escaped c.toNat) c := by
  have high : JsonUnit.isHigh c.toNat = false := by
    unfold JsonUnit.isHigh
    rw [Bool.and_eq_false_iff, decide_eq_false_iff_not]
    exact .inl (by omega)
  have low : JsonUnit.isLow c.toNat = false := by
    unfold JsonUnit.isLow
    rw [Bool.and_eq_false_iff, decide_eq_false_iff_not]
    exact .inl (by omega)
  intro rest
  rw [JsonUnit.text?.eq_def]
  simp only [high, low, Bool.false_eq_true, if_false, Char.ofNat_toNat]

/-- An escape of one letter is the character that it means. -/
theorem passes_escape {letter c : Char} (latest : List JsonUnit) (short : letter ≠ 'u')
    (means : JsonScanner.escaped? letter = some c) :
    (JsonScanner.string latest).Passes ['\\', letter] (.string (.char c :: latest)) [] := by
  have first : (JsonScanner.string latest).feed '\\' = some (.escape latest, []) := rfl
  have second : (JsonScanner.escape latest).feed letter =
      some (.string (.char c :: latest), []) := by
    rw [JsonScanner.feed, if_neg short, means]
    rfl
  exact (JsonScanner.passes_of_feed first).trans (JsonScanner.passes_of_feed second)

/-- A hexadecimal digit is read as what it was written for. -/
theorem hexValue?_digitChar : ∀ digit < 16,
    JsonScanner.hexValue? (Nat.digitChar digit) = some digit := by decide

/-- Two hexadecimal digits after two zeros are the number that they were written for. -/
theorem passes_hexPair {n : Nat} (latest : List JsonUnit) (small : n < 256) :
    (JsonScanner.string latest).Passes ("\\u00".toList ++ hexPair n)
      (.string (.escaped n :: latest)) [] := by
  have zeros : (JsonScanner.string latest).Passes "\\u00".toList (.digits latest 2 0) [] := by
    have slash : (JsonScanner.string latest).Passes ['\\'] (.escape latest) [] :=
      JsonScanner.passes_of_feed rfl
    have letter : (JsonScanner.escape latest).Passes ['u'] (.digits latest 4 0) [] :=
      JsonScanner.passes_of_feed rfl
    have first : (JsonScanner.digits latest 4 0).Passes ['0'] (.digits latest 3 0) [] :=
      JsonScanner.passes_of_feed rfl
    have second : (JsonScanner.digits latest 3 0).Passes ['0'] (.digits latest 2 0) [] :=
      JsonScanner.passes_of_feed rfl
    exact slash.trans (letter.trans (first.trans second))
  have high : (JsonScanner.digits latest 2 0).feed (Nat.digitChar (n / 16)) =
      some (.digits latest 1 (n / 16), []) := by
    rw [JsonScanner.feed, hexValue?_digitChar _ (by omega), Option.map_some, if_neg (by decide),
      Nat.mul_zero, Nat.zero_add]
  have low : (JsonScanner.digits latest 1 (n / 16)).feed (Nat.digitChar (n % 16)) =
      some (.string (.escaped n :: latest), []) := by
    rw [JsonScanner.feed, hexValue?_digitChar _ (by omega), Option.map_some, if_pos (by decide),
      Nat.div_add_mod]
  exact zeros.trans ((JsonScanner.passes_of_feed high).trans (JsonScanner.passes_of_feed low))

/-- A written character is a unit that spells it. -/
theorem passes_character (c : Char) : ∃ unit, Spells unit c ∧ ∀ latest,
    (JsonScanner.string latest).Passes (character c) (.string (unit :: latest)) [] := by
  have escape {letter d : Char} (same : c = d) (short : letter ≠ 'u')
      (means : JsonScanner.escaped? letter = some d) : ∃ unit, Spells unit c ∧ ∀ latest,
        (JsonScanner.string latest).Passes ['\\', letter] (.string (unit :: latest)) [] :=
    ⟨.char d, same ▸ spells_char d, fun latest => passes_escape latest short means⟩
  unfold character
  split
  · next same => exact escape same (by decide) rfl
  split
  · next same => exact escape same (by decide) rfl
  split
  · next same => exact escape same (by decide) rfl
  split
  · next same => exact escape same (by decide) rfl
  split
  · next same => exact escape same (by decide) rfl
  split
  · next same => exact escape same (by decide) rfl
  split
  · next same => exact escape same (by decide) rfl
  split
  · next control =>
    exact ⟨_, spells_escaped control, fun latest => passes_hexPair latest (by omega)⟩
  · next quote slash _ _ _ _ _ visible =>
    refine ⟨_, spells_char c, fun latest => JsonScanner.passes_of_feed ?_⟩
    rw [JsonScanner.feed, if_neg quote, if_neg slash, if_neg visible]

/-- The written characters of a text are units that spell it. -/
theorem passes_characters (t : Text) : ∃ units, JsonUnit.text? units = some t ∧ ∀ latest,
    (JsonScanner.string latest).Passes (t.flatMap character)
      (.string (units.reverse ++ latest)) [] := by
  induction t with
  | nil => exact ⟨[], rfl, fun latest => JsonScanner.Passes.refl _⟩
  | cons c cs ih =>
    obtain ⟨units, spelled, later⟩ := ih
    obtain ⟨unit, spells, first⟩ := passes_character c
    refine ⟨unit :: units, by rw [spells, spelled]; rfl, fun latest => ?_⟩
    rw [List.reverse_cons, List.append_assoc]
    exact (first latest).trans (later (unit :: latest))

/-- A written string is the string token of its text. -/
theorem passes_string (t : Text) : between.Passes (string t) between [.string (some t)] := by
  obtain ⟨units, spelled, inside⟩ := passes_characters t
  have opens : between.feed '"' = some (.string [], []) := rfl
  have closes : (JsonScanner.string (units.reverse ++ [])).feed '"' =
      some (between, [.string (some t)]) := by
    rw [JsonScanner.feed, if_pos rfl, List.append_nil, List.reverse_reverse, spelled]
  exact ((JsonScanner.passes_of_feed opens).trans (inside [])).trans
    (JsonScanner.passes_of_feed closes)

/-- A written string spells the string of its text. -/
theorem spelledAlone_string (t : Text) :
    JsonValue.SpelledAlone (string t) (.string (some t)) :=
  ⟨_, passes_string t, JsonBuilder.makes_string (some t)⟩

/-! ## Objects -/

section Object

variable {α : Type} (written : α → Text) (meant : α → JsonValue)

/-- The line of a member in an object of a level. -/
def line (level : Nat) (entry : Text × α) : Text :=
  indent (level + 1) ++ string entry.1 ++ ": " ++ written entry.2

/-- The blanks that lead a line are no token. -/
theorem passes_indent (level : Nat) : between.Passes (indent level) between [] := by
  refine JsonScanner.passes_blanks fun c listed => ?_
  rw [(List.mem_replicate.mp listed).2]
  rfl

/-- What stands before the value in the line of a member. -/
theorem passes_key (level : Nat) (key : Text) :
    between.Passes (indent level ++ string key ++ ": ") between [.string (some key), .colon] := by
  have colon : between.Passes [':'] between [.colon] := JsonScanner.passes_of_feed rfl
  have space : between.Passes [' '] between [] := JsonScanner.passes_of_feed rfl
  exact ((passes_indent level).trans (passes_string key)).trans (colon.trans space)

variable {written meant}

/-- The lines of an object make its members. -/
theorem passes_lines (level : Nat) (entry : Text × α) (entries : List (Text × α))
    (spelled : ∀ other ∈ entry :: entries,
      JsonValue.Spelled (written other.2) (meant other.2)) :
    ∃ tokens,
      between.Passes (Text.join ",\n" ((entry :: entries).map (line written level)) ++ ['\n'])
        between tokens ∧
      ∀ latest frames rest,
        (JsonBuilder.key latest frames).feedAll (tokens ++ .closeObject :: rest) =
          (JsonBuilder.close (.object (latest.reverse ++
            (entry :: entries).map fun entry => (some entry.1, meant entry.2))) frames).feedAll
              rest := by
  -- Whatever members come before the first line are `latest`, which the builder carries along.
  induction entries generalizing entry with
  | nil =>
    obtain ⟨tokens, passes, _, makes⟩ := spelled entry List.mem_cons_self
    refine ⟨.string (some entry.1) :: .colon :: tokens, ?_, fun latest frames rest => ?_⟩
    · have whole := (passes_key (level + 1) entry.1).trans passes
      rw [← List.append_assoc] at whole
      exact whole
    · have value := makes (.object latest (some entry.1) :: frames) (.closeObject :: rest)
      refine value.trans ?_
      rw [JsonBuilder.close, JsonBuilder.feedAll, JsonBuilder.feed, List.reverse_cons]
      rfl
  | cons next entries ih =>
    obtain ⟨tokens, _, passes, makes⟩ := spelled entry List.mem_cons_self
    obtain ⟨later, passesLater, makesLater⟩ :=
      ih next fun other listed => spelled other (List.mem_cons_of_mem _ listed)
    refine ⟨.string (some entry.1) :: .colon :: (tokens ++ .comma :: later), ?_,
      fun latest frames rest => ?_⟩
    · have feed : between.Passes ['\n'] between [] := JsonScanner.passes_of_feed rfl
      have whole := (((passes_key (level + 1) entry.1).trans passes).trans feed).trans passesLater
      have text : Text.join ",\n" ((entry :: next :: entries).map (line written level)) ++ ['\n'] =
          indent (level + 1) ++ string entry.1 ++ ": " ++ (written entry.2 ++ [',']) ++ ['\n'] ++
            (Text.join ",\n" ((next :: entries).map (line written level)) ++ ['\n']) := by
        simp [Text.join, line]
      rw [text]
      simpa using whole
    · have value := makes (.object latest (some entry.1) :: frames)
        (.comma :: (later ++ .closeObject :: rest))
      have closed := makesLater ((some entry.1, meant entry.2) :: latest) frames rest
      rw [List.reverse_cons, List.append_assoc] at closed
      have split : tokens ++ .comma :: later ++ .closeObject :: rest =
          tokens ++ .comma :: (later ++ .closeObject :: rest) := List.append_assoc _ _ _
      refine Eq.trans ?_ (value.trans closed)
      exact congrArg (JsonBuilder.value (.object latest (some entry.1) :: frames)).feedAll split

/-- An object with some members, piece by piece. -/
theorem object_cons (level : Nat) (entry : Text × α) (entries : List (Text × α)) :
    object level ((entry :: entries).map fun entry => (entry.1, written entry.2)) =
      ['{'] ++ ['\n'] ++
        (Text.join ",\n" ((entry :: entries).map (line written level)) ++ ['\n']) ++
          indent level ++ ['}'] := by
  have lines : (((entry :: entries).map fun entry => (entry.1, written entry.2)).map
      fun member => indent (level + 1) ++ string member.1 ++ ": " ++ member.2) =
        (entry :: entries).map (line written level) := by
    rw [List.map_map]
    rfl
  rw [object, if_neg (by simp)]
  simp only
  rw [lines]
  simp

/-- A written object spells the object of its members. -/
theorem spelledAlone_object (level : Nat) (entries : List (Text × α))
    (spelled : ∀ entry ∈ entries, JsonValue.Spelled (written entry.2) (meant entry.2)) :
    JsonValue.SpelledAlone (object level (entries.map fun entry => (entry.1, written entry.2)))
      (.object (entries.map fun entry => (some entry.1, meant entry.2))) := by
  have opens : between.Passes ['{'] between [.openObject] := JsonScanner.passes_of_feed rfl
  have closes : between.Passes ['}'] between [.closeObject] := JsonScanner.passes_of_feed rfl
  cases entries with
  | nil => exact ⟨_, opens.trans closes, fun frames rest => rfl⟩
  | cons entry entries =>
    obtain ⟨tokens, passes, makes⟩ := passes_lines level entry entries spelled
    have feed : between.Passes ['\n'] between [] := JsonScanner.passes_of_feed rfl
    have whole := (((opens.trans feed).trans passes).trans (passes_indent level)).trans closes
    rw [object_cons]
    refine ⟨_, whole, fun frames rest => ?_⟩
    have split : [.openObject] ++ [] ++ tokens ++ [] ++ [.closeObject] ++ rest =
        .openObject :: (tokens ++ .closeObject :: rest) := by simp
    rw [split]
    exact makes [] frames rest

end Object

/-! ## Values -/

/-- A numeral neither separates tokens nor begins another one. -/
theorem solid_of_isNumeral {c : Char} (numeral : Text.isNumeral c = true) :
    JsonScanner.Solid c := by
  have other {sign : Char} (not : Text.isNumeral sign = false) : c ≠ sign :=
    Text.ne_of_isNumeral numeral not
  have solid : JsonScanner.isBlank c = false := by
    unfold JsonScanner.isBlank
    simp only [Bool.or_eq_false_iff, beq_eq_false_iff_ne]
    exact ⟨⟨⟨other (by decide), other (by decide)⟩, other (by decide)⟩, other (by decide)⟩
  have unmarked : JsonScanner.mark? c = none := by
    unfold JsonScanner.mark?
    rw [if_neg (other (by decide)), if_neg (other (by decide)), if_neg (other (by decide)),
      if_neg (other (by decide)), if_neg (other (by decide)), if_neg (other (by decide))]
  unfold JsonScanner.Solid
  rw [JsonScanner.start, solid, if_neg Bool.false_ne_true, if_neg (other (by decide)), unmarked]

end StoreDocument

namespace Text

/-- A written number begins with no zero, unless it is zero. -/
theorem head?_ofNat {n : Nat} (positive : 0 < n) : (ofNat n).head? ≠ some '0' := by
  induction n using Nat.strongRecOn with
  | ind n ih =>
    have digits : ∀ n < 10, 0 < n → [Nat.digitChar n].head? ≠ some '0' := by decide
    by_cases small : n < 10
    · rw [ofNat, Nat.toDigits_of_lt_base small]
      exact digits n small positive
    · have front := ih (n / 10) (by omega) (by omega)
      obtain ⟨c, cs, written, _⟩ := ofNat_eq_cons (n / 10)
      rw [written] at front
      rw [ofNat, Nat.toDigits_of_base_le (by decide) (Nat.not_lt.mp small)]
      rw [ofNat] at written
      rw [written]
      exact front

end Text

namespace JsonValue

/-- A written natural number is a whole number. -/
theorem isWhole_ofNat (n : Nat) : isWhole (Text.ofNat n) = true := by
  have digits : isDigits (Text.ofNat n) = true := by
    obtain ⟨c, cs, written, _⟩ := Text.ofNat_eq_cons n
    unfold isDigits
    rw [Bool.and_eq_true, List.all_eq_true]
    exact ⟨by rw [written]; rfl, fun c listed => Text.isDigit_of_mem_ofNat listed⟩
  rw [isWhole, digits, Bool.true_and, Bool.or_eq_true, bne_iff_ne]
  obtain rfl | positive := Nat.eq_zero_or_pos n
  · exact .inl rfl
  · exact .inr (Text.head?_ofNat positive)

/-- A digit is no mark of an exponent and no point. -/
theorem unmarked_of_isDigit {c : Char} (digit : Text.isDigit c = true) :
    (!isExponentMark c) = true ∧ (c != '.') = true := by
  rw [Text.isDigit_iff] at digit
  have other {sign : Char} (beyond : ¬(48 ≤ sign.toNat ∧ sign.toNat ≤ 57)) : c ≠ sign :=
    fun same => beyond (same ▸ digit)
  unfold isExponentMark
  rw [Bool.not_eq_true', Bool.or_eq_false_iff, beq_eq_false_iff_ne, beq_eq_false_iff_ne,
    bne_iff_ne]
  exact ⟨⟨other (by decide), other (by decide)⟩, other (by decide)⟩

/-- A written natural number begins with no sign. -/
theorem minus_ne_head?_ofNat (k : Nat) : (Text.ofNat k).head? ≠ some '-' := by
  obtain ⟨c, cs, written, digit⟩ := Text.ofNat_eq_cons k
  rw [written, List.head?_cons, ne_eq, Option.some.injEq]
  rintro rfl
  exact absurd digit (by decide)

/-- A written integer is a number. -/
theorem isNumber_ofInt (n : Int) : isNumber (Text.ofInt n) = true := by
  have unsigned : ∃ k, (if (Text.ofInt n).head? = some '-' then (Text.ofInt n).tail
      else Text.ofInt n) = Text.ofNat k := by
    cases n with
    | ofNat k => exact ⟨k, if_neg (minus_ne_head?_ofNat k)⟩
    | negSucc k => exact ⟨k + 1, if_pos rfl⟩
  obtain ⟨k, unsigned⟩ := unsigned
  have digits (c : Char) (listed : c ∈ Text.ofNat k) :=
    unmarked_of_isDigit (Text.isDigit_of_mem_ofNat listed)
  -- All of the digits stand before the place where a fraction or an exponent would begin.
  have all (p : Char → Bool) (holds : ∀ c ∈ Text.ofNat k, p c = true) :
      (Text.ofNat k).takeWhile p = Text.ofNat k ∧ (Text.ofNat k).dropWhile p = [] := by
    have taken : (Text.ofNat k ++ []).takeWhile p = Text.ofNat k ++ [] :=
      List.takeWhile_append_of_pos holds
    have dropped : (Text.ofNat k ++ []).dropWhile p = [] := List.dropWhile_append_of_pos holds
    rw [List.append_nil] at taken dropped
    exact ⟨taken, dropped⟩
  have mantissa := all (fun c => !isExponentMark c) fun c listed => (digits c listed).1
  have whole := all (fun c => c != '.') fun c listed => (digits c listed).2
  unfold isNumber
  simp only [unsigned, mantissa, whole, isWhole_ofNat, List.isEmpty_nil, Bool.true_or,
    Bool.and_self]

/-- A written number of 64 bits is read back. -/
theorem int?_ofInt (n : Int64) : int? (Text.ofInt n.toInt) = some n := by
  have low := n.minValue_le_toInt
  have high := n.toInt_le
  have back := n.ofInt_toInt
  generalize n.toInt = value at low high back
  cases value with
  | ofNat k =>
    have unsigned : Text.ofInt (.ofNat k) = Text.ofNat k := rfl
    rw [unsigned]
    unfold int?
    split
    · next digits signed =>
      have first := minus_ne_head?_ofNat k
      rw [signed] at first
      exact absurd rfl first
    · rw [if_pos (isWhole_ofNat k), Text.digitsValue_ofNat]
      exact (if_pos ⟨low, high⟩).trans (congrArg some back)
  | negSucc k =>
    have signed : Text.ofInt (.negSucc k) = '-' :: Text.ofNat (k + 1) := rfl
    have apart : Text.ofNat (k + 1) ≠ ['0'] := by
      intro zero
      have first := Text.head?_ofNat (Nat.succ_pos k)
      rw [zero] at first
      exact first rfl
    have written : (isWhole (Text.ofNat (k + 1)) && Text.ofNat (k + 1) != ['0']) = true := by
      rw [isWhole_ofNat, Bool.true_and, bne_iff_ne]
      exact apart
    rw [signed, int?, if_pos written, Text.digitsValue_ofNat]
    exact (if_pos ⟨low, high⟩).trans (congrArg some back)

/-- A written integer spells its number. -/
theorem spelled_ofInt (n : Int) : Spelled (Text.ofInt n) (.number (Text.ofInt n)) := by
  have other {word : Text} {c : Char} (first : word.head? = some c)
      (not : Text.isNumeral c = false) : Text.ofInt n ≠ word := by
    rintro rfl
    have numeral := Text.isNumeral_of_mem_ofInt (List.mem_of_head? first)
    rw [not] at numeral
    exact Bool.false_ne_true numeral
  have nonempty : Text.ofInt n ≠ [] := by
    cases n with
    | ofNat k => exact Nat.toDigits_ne_nil
    | negSucc k => exact List.cons_ne_nil _ _
  refine spelled_bare (fun c listed => StoreDocument.solid_of_isNumeral
    (Text.isNumeral_of_mem_ofInt listed)) nonempty ?_
  rw [ofBare?, if_neg (other rfl (by decide)), if_neg (other rfl (by decide)),
    if_neg (other rfl (by decide)), if_pos (isNumber_ofInt n)]

end JsonValue

namespace StoreDocument

/-- The JSON value that a stored value is written as, next to its type. -/
def content : StoreValue → JsonValue
  | .int value => .number (Text.ofInt value.toInt)
  | .string t => .string (some t)
  | .bool value => .bool value

/-- The JSON value of a stored value. -/
def valueJson (held : StoreValue) : JsonValue :=
  .object [(some "type".toList, .string (some (fields held).1)),
    (some "value".toList, content held)]

/-- The JSON value of a namespace. -/
def spaceJson (entries : Table StoreValue) : JsonValue :=
  .object (entries.entries.map fun entry => (some entry.1, valueJson entry.2))

/-- The JSON value of some contents. -/
def json (contents : Namespaces) : JsonValue :=
  .object (contents.entries.map fun entry => (some entry.1, spaceJson entry.2))

/-- The written content of a value spells its JSON value. -/
theorem spelled_content (held : StoreValue) :
    JsonValue.Spelled (fields held).2 (content held) := by
  have solid {word : Text} (all : word.all (fun c => decide (JsonScanner.Solid c)) = true) :
      ∀ c ∈ word, JsonScanner.Solid c :=
    fun c listed => of_decide_eq_true (List.all_eq_true.mp all c listed)
  match held with
  | .int value => exact JsonValue.spelled_ofInt value.toInt
  | .string t => exact (spelledAlone_string t).spelled
  | .bool true => exact JsonValue.spelled_bare (solid rfl) (List.cons_ne_nil _ _) rfl
  | .bool false => exact JsonValue.spelled_bare (solid rfl) (List.cons_ne_nil _ _) rfl

/-- A written value spells its JSON value. -/
theorem spelledAlone_value (held : StoreValue) :
    JsonValue.SpelledAlone (value held) (valueJson held) := by
  obtain ⟨members, made⟩ : ∃ members : List (Text × Text × JsonValue), members =
      [("type".toList, string (fields held).1, .string (some (fields held).1)),
        ("value".toList, (fields held).2, content held)] := ⟨_, rfl⟩
  have spelled : ∀ entry ∈ members, JsonValue.Spelled entry.2.1 entry.2.2 := by
    intro entry listed
    rw [made] at listed
    obtain rfl | last := List.mem_cons.mp listed
    · exact (spelledAlone_string _).spelled
    · rw [List.mem_singleton.mp last]
      exact spelled_content held
  have whole : JsonValue.SpelledAlone
      (object 2 (members.map fun entry => (entry.1, entry.2.1)))
      (.object (members.map fun entry => (some entry.1, entry.2.2))) :=
    spelledAlone_object 2 members spelled
  rw [made] at whole
  exact whole

/-- A written namespace spells its JSON value. -/
theorem spelledAlone_space (entries : Table StoreValue) :
    JsonValue.SpelledAlone (space entries) (spaceJson entries) :=
  spelledAlone_object 1 entries.entries fun entry _ => (spelledAlone_value entry.2).spelled

/-- A written document spells the JSON value of its contents. -/
theorem spelledAlone_write (contents : Namespaces) :
    JsonValue.SpelledAlone (write contents) (json contents) :=
  spelledAlone_object 0 contents.entries fun entry _ => (spelledAlone_space entry.2).spelled

/-- A stored value is read back from its JSON value. -/
theorem value?_valueJson (held : StoreValue) : value? (valueJson held) = some held := by
  -- The keys of the two members are literals, so looking them up is computed.
  have typed : value? (valueJson held) =
      typed? (.string (some (fields held).1)) (content held) := rfl
  rw [typed]
  match held with
  | .int value =>
    have back : JsonValue.int? (Text.ofInt value.toInt) = some value := JsonValue.int?_ofInt value
    have read : typed? (.string (some (fields (.int value)).1)) (content (.int value)) =
        (JsonValue.int? (Text.ofInt value.toInt)).map StoreValue.int := rfl
    rw [read, back]
    rfl
  | .string t => rfl
  | .bool true => rfl
  | .bool false => rfl

/-- A table in order is read back from the object of its entries, if its values are. -/
theorem table?_object {α : Type} {read : JsonValue → Option α} {meant : α → JsonValue}
    {table : Table α} (ordered : table.Ordered)
    (back : ∀ entry ∈ table.entries, read (meant entry.2) = some entry.2) :
    table? read (.object (table.entries.map fun entry => (some entry.1, meant entry.2))) =
      some table := by
  have members (entries : List (Text × α)) :
      members? (.object (entries.map fun entry => (some entry.1, meant entry.2))) =
        some (entries.map fun entry => (entry.1, meant entry.2)) := by
    rw [members?, List.mapM_map]
    exact List.mapM_pure
  have filled (entries : List (Text × α)) (start : Table α)
      (back : ∀ entry ∈ entries, read (meant entry.2) = some entry.2) :
      (entries.map fun entry => (entry.1, meant entry.2)).foldlM
        (fun table entry => (read entry.2).map (table.insert entry.1)) start =
        some (entries.foldl (fun table entry => table.insert entry.1 entry.2) start) := by
    induction entries generalizing start with
    | nil => rfl
    | cons entry entries ih =>
      rw [List.map_cons, List.foldlM_cons, back entry List.mem_cons_self]
      exact ih _ fun later listed => back later (List.mem_cons_of_mem _ listed)
  rw [table?, members]
  refine (filled table.entries ∅ back).trans ?_
  rw [Table.foldl_insert_empty ordered]

/-- Contents in order are read back from their document. -/
theorem read?_write {contents : Namespaces} (ordered : contents.Ordered) :
    read? (write contents) = some contents := by
  have parsed : JsonValue.parse? (write contents) = some (json contents) :=
    JsonValue.parse?_of_spelledAlone (spelledAlone_write contents)
  rw [read?, parsed]
  refine table?_object ordered.outer fun entry listed => ?_
  exact table?_object (ordered.inner entry listed) fun inside _ => value?_valueJson inside.2

/-- A table that is read from a document is in order, and each of its values was read. -/
theorem ordered_of_table? {α : Type} {read : JsonValue → Option α} {P : α → Prop}
    (sound : ∀ {json held}, read json = some held → P held) {json : JsonValue} {table : Table α}
    (found : table? read json = some table) :
    table.Ordered ∧ ∀ entry ∈ table.entries, P entry.2 := by
  have filled (members : List (Text × JsonValue)) (start : Table α) (ordered : start.Ordered)
      (fine : ∀ entry ∈ start.entries, P entry.2)
      (made : members.foldlM (fun table entry => (read entry.2).map (table.insert entry.1)) start =
        some table) : table.Ordered ∧ ∀ entry ∈ table.entries, P entry.2 := by
    induction members generalizing start with
    | nil =>
      cases made
      exact ⟨ordered, fine⟩
    | cons member members ih =>
      rw [List.foldlM_cons] at made
      cases value : read member.2 with
      | none =>
        rw [value] at made
        cases made
      | some held =>
        rw [value] at made
        refine ih _ (Table.ordered_insert ordered member.1 held) (fun entry listed => ?_) made
        obtain rfl | among := Table.mem_place listed
        · exact sound value
        · exact fine entry among
  rw [table?] at found
  cases members : members? json with
  | none =>
    rw [members] at found
    cases found
  | some listed =>
    rw [members] at found
    exact filled listed ∅ Table.ordered_empty nofun found

/-- What is read from a document stands in order. -/
theorem ordered_of_read? {t : Text} {contents : Namespaces} (found : read? t = some contents) :
    contents.Ordered := by
  rw [read?] at found
  cases parsed : JsonValue.parse? t with
  | none =>
    rw [parsed] at found
    cases found
  | some json =>
    rw [parsed] at found
    have inner {json : JsonValue} {entries : Table StoreValue}
        (found : table? value? json = some entries) : entries.Ordered :=
      (ordered_of_table? (P := fun _ => True) (fun _ => trivial) found).1
    have whole : table? (table? value?) json = some contents := found
    obtain ⟨outer, inside⟩ := ordered_of_table? inner whole
    exact ⟨outer, inside⟩

end StoreDocument

namespace DocumentStore

/-- A store that is opened on the document of some contents has those contents. -/
theorem ofBytes_write {contents : Namespaces} (ordered : contents.Ordered) :
    ofBytes (some (StoreDocument.write contents).utf8) =
      .ok { held := contents, document := some (StoreDocument.write contents) } := by
  rw [ofBytes, Text.decode?_utf8]
  dsimp only
  rw [StoreDocument.read?_write ordered]

end DocumentStore

end Keyfob
