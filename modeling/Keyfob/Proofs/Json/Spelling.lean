import Keyfob.Json.Value

/-!
# Texts that spell JSON values

A text takes the scanner from one place to another (`JsonScanner.Passes`) when it does so whatever
follows it, and tokens make a value (`JsonBuilder.Makes`) when they do so whatever is open around
them and whatever comes after. Both are closed under putting pieces together, so what a written
document is read as follows from what its pieces are read as. A value in an object is followed by
a comma or a line feed, which is where a number or a word ends (`JsonValue.Spelled`).
-/
namespace Keyfob

namespace JsonScanner

/-- A text takes the scanner from one place to another and gives tokens, whatever follows it. -/
def Passes (scanner : JsonScanner) (t : Text) (next : JsonScanner) (tokens : List JsonToken) :
    Prop :=
  ∀ rest, scanner.scanFrom (t ++ rest) = (next.scanFrom rest).map (tokens ++ ·)

/-- No text leaves the scanner where it is. -/
theorem Passes.refl (scanner : JsonScanner) : scanner.Passes [] scanner [] := by
  intro rest
  exact Option.map_id'.symm

/-- One text after another takes the scanner from the start of the first to the end of the
second. -/
theorem Passes.trans {first second third : JsonScanner} {s t : Text}
    {tokens later : List JsonToken} (start : first.Passes s second tokens)
    (finish : second.Passes t third later) : first.Passes (s ++ t) third (tokens ++ later) := by
  intro rest
  rw [List.append_assoc, start, finish, Option.map_map]
  congr 1
  funext more
  exact (List.append_assoc _ _ _).symm

/-- A character takes the scanner to where it feeds it. -/
theorem passes_of_feed {scanner next : JsonScanner} {c : Char} {tokens : List JsonToken}
    (fed : scanner.feed c = some (next, tokens)) : scanner.Passes [c] next tokens := by
  intro rest
  rw [List.singleton_append, scanFrom, fed]
  exact (Option.map_eq_bind).symm

/-- A blank between tokens is passed over. -/
theorem passes_blanks {t : Text} (blank : ∀ c ∈ t, isBlank c = true) :
    between.Passes t between [] := by
  induction t with
  | nil => exact Passes.refl between
  | cons c cs ih =>
    have first : between.feed c = some (between, []) := by
      rw [feed, start, if_pos (blank c List.mem_cons_self)]
    exact (passes_of_feed first).trans (ih fun d later => blank d (List.mem_cons_of_mem _ later))

/-- A character of a number or a word: it neither separates tokens nor begins another one. -/
def Solid (c : Char) : Prop := start c = (bare [c], [])

instance (c : Char) : Decidable (Solid c) := inferInstanceAs (Decidable (_ = _))

/-- The characters of a number or a word are kept. -/
theorem passes_solid {t : Text} (solid : ∀ c ∈ t, Solid c) (latest : Text) :
    (bare latest).Passes t (bare (t.reverse ++ latest)) [] := by
  induction t generalizing latest with
  | nil => exact Passes.refl _
  | cons c cs ih =>
    have first : start c = (bare [c], []) := solid c List.mem_cons_self
    have fed : (bare latest).feed c = some (bare (c :: latest), []) := by
      rw [feed, first]
    have later := ih (fun d listed => solid d (List.mem_cons_of_mem _ listed)) (c :: latest)
    rw [List.reverse_cons, List.append_assoc]
    exact (passes_of_feed fed).trans later

/-- A number or a word, up to where it ends. -/
theorem passes_bare {t : Text} (solid : ∀ c ∈ t, Solid c) (nonempty : t ≠ []) {stop : Char}
    {tokens : List JsonToken} (stops : start stop = (between, tokens)) :
    between.Passes (t ++ [stop]) between (.bare t :: tokens) := by
  cases t with
  | nil => exact absurd rfl nonempty
  | cons c cs =>
    have first : between.feed c = some (bare [c], []) := congrArg some (solid c List.mem_cons_self)
    have inside := passes_solid (fun d listed => solid d (List.mem_cons_of_mem _ listed)) [c]
    have last : (bare (cs.reverse ++ [c])).feed stop =
        some (between, .bare (c :: cs) :: tokens) := by
      rw [feed, stops]
      simp
    exact ((passes_of_feed first).trans inside).trans (passes_of_feed last)

end JsonScanner

namespace JsonBuilder

/-- Tokens make a value, whatever is open around them and whatever comes after. -/
def Makes (tokens : List JsonToken) (made : JsonValue) : Prop :=
  ∀ frames rest,
    (value frames).feedAll (tokens ++ rest) = (close made frames).feedAll rest

/-- A string makes itself. -/
theorem makes_string (t : Option Text) : Makes [.string t] (.string t) := fun _ _ => rfl

/-- A number or word makes what it is. -/
theorem makes_bare {t : Text} {made : JsonValue} (is : JsonValue.ofBare? t = some made) :
    Makes [.bare t] made := by
  intro frames rest
  rw [List.singleton_append, feedAll, feed, openValue, is]
  rfl

end JsonBuilder

namespace JsonValue

open JsonScanner (between)

/-- A text that spells a value by itself, whatever follows it. -/
def SpelledAlone (t : Text) (value : JsonValue) : Prop :=
  ∃ tokens, between.Passes t between tokens ∧ JsonBuilder.Makes tokens value

/-- A text that spells a value where a line feed or a comma follows it. -/
def Spelled (t : Text) (value : JsonValue) : Prop :=
  ∃ tokens, between.Passes (t ++ ['\n']) between tokens ∧
    between.Passes (t ++ [',']) between (tokens ++ [.comma]) ∧ JsonBuilder.Makes tokens value

/-- What is spelled whatever follows is spelled where a line feed or a comma does. -/
theorem SpelledAlone.spelled {t : Text} {value : JsonValue} (alone : SpelledAlone t value) :
    Spelled t value := by
  obtain ⟨tokens, passes, makes⟩ := alone
  have lineFeed : between.Passes ['\n'] between [] := JsonScanner.passes_of_feed rfl
  have comma : between.Passes [','] between [.comma] := JsonScanner.passes_of_feed rfl
  have whole := passes.trans lineFeed
  rw [List.append_nil] at whole
  exact ⟨tokens, whole, passes.trans comma, makes⟩

/-- A number or a word is spelled by its characters. -/
theorem spelled_bare {t : Text} {value : JsonValue} (solid : ∀ c ∈ t, JsonScanner.Solid c)
    (nonempty : t ≠ []) (is : ofBare? t = some value) : Spelled t value :=
  ⟨[.bare t], JsonScanner.passes_bare solid nonempty rfl,
    JsonScanner.passes_bare solid nonempty rfl, JsonBuilder.makes_bare is⟩

/-- A text that spells a value by itself is read as that value. -/
theorem parse?_of_spelledAlone {t : Text} {value : JsonValue} (alone : SpelledAlone t value) :
    parse? t = some value := by
  obtain ⟨tokens, passes, makes⟩ := alone
  have scanned : JsonToken.scan? t = some tokens := by
    have whole := passes []
    rw [List.append_nil] at whole
    rw [JsonToken.scan?, whole]
    exact congrArg some (List.append_nil tokens)
  have made : (JsonBuilder.value []).feedAll tokens = some (.done value) := by
    have whole := makes [] []
    rw [List.append_nil] at whole
    exact whole
  rw [parse?, scanned, Option.bind_eq_bind, Option.bind_some, made]
  rfl

end JsonValue

end Keyfob
