import Keyfob.Expr.Condition
import Keyfob.Proofs.Text.Ends

/-!
# Signs outside parentheses

A condition is divided at the first place outside parentheses where a sign stands. In a nested text
(`Text.Nested`) parentheses are paired, and outside them stands none of some characters. The search
for a sign that begins with such a character passes over the text, whatever follows
(`divide?_nested`), and a group is closed by the parenthesis that belongs to its first one
(`group?_nested`).
-/
namespace Keyfob

namespace Text

/-- Parentheses are paired, and outside them stands none of some characters. -/
inductive Nested : Text → Text → Prop where
  /-- No text. -/
  | nil {signs : Text} : Nested signs []
  /-- A character outside parentheses. -/
  | char {signs t : Text} {c : Char} (plain : c ∉ '(' :: ')' :: signs) (later : Nested signs t) :
    Nested signs (c :: t)
  /-- A group in parentheses, with any characters in it. -/
  | group {signs inside t : Text} (within : Nested [] inside) (later : Nested signs t) :
    Nested signs ('(' :: (inside ++ ')' :: t))

namespace Nested

variable {signs s t : Text}

/-- Nested texts one after another. -/
theorem append (first : Nested signs s) (second : Nested signs t) : Nested signs (s ++ t) := by
  induction first with
  | nil => exact second
  | char plain _ ih => exact .char plain (ih second)
  | group within _ _ ih =>
    rw [List.cons_append, List.append_assoc, List.cons_append]
    exact .group within (ih second)

/-- Fewer characters are left out. -/
theorem weaken {few : Text} (nested : Nested signs t) (fewer : few ⊆ signs) : Nested few t := by
  induction nested with
  | nil => exact .nil
  | char plain _ ih =>
    refine .char (fun listed => plain ?_) (ih fewer)
    exact List.cons_subset_cons _ (List.cons_subset_cons _ fewer) listed
  | group within _ _ ih => exact .group within (ih fewer)

/-- Characters outside parentheses. -/
theorem of_plain (plain : ∀ c ∈ t, c ∉ '(' :: ')' :: signs) : Nested signs t := by
  induction t with
  | nil => exact .nil
  | cons c cs ih =>
    obtain ⟨first, later⟩ := List.forall_mem_cons.mp plain
    exact .char first (ih later)

/-- What a nested text begins with is none of the characters that are left out. -/
theorem head? (nested : Nested signs t) (apart : '(' ∉ signs) : ∀ c ∈ t.head?, c ∉ signs := by
  intro c first listed
  cases nested with
  | nil => cases first
  | char plain later =>
    cases first
    exact plain (List.mem_cons_of_mem _ (List.mem_cons_of_mem _ listed))
  | group within later =>
    cases first
    exact apart listed

/-- A nested text without the blanks at its front. -/
theorem trimStart (nested : Nested signs t) : Nested signs t.trimStart := by
  induction nested with
  | nil => exact .nil
  | char plain later ih =>
    unfold Text.trimStart
    rw [List.dropWhile_cons]
    split
    · exact ih
    · exact .char plain later
  | group within later => exact .group within later

/-- The front of a nested text, where no parenthesis is closed after it. -/
theorem of_append (nested : Nested signs (s ++ t)) (after : ')' ∉ t) : Nested signs s := by
  generalize whole : s ++ t = all at nested
  induction nested generalizing s with
  | nil => exact (List.append_eq_nil_iff.mp whole).1 ▸ .nil
  | char plain _ ih =>
    cases s with
    | nil => exact .nil
    | cons c cs =>
      cases whole
      exact .char plain (ih rfl)
  | group within _ _ ih =>
    cases s with
    | nil => exact .nil
    | cons c cs =>
      rw [List.cons_append, List.cons.injEq, List.append_eq_append_iff] at whole
      obtain ⟨rfl, ⟨behind, rfl, rfl⟩ | ⟨behind, rfl, rest⟩⟩ := whole
      · exact absurd (List.mem_append_right _ List.mem_cons_self) after
      · cases behind with
        | nil =>
          rw [List.nil_append] at rest
          exact absurd (rest ▸ List.mem_cons_self) after
        | cons d ds =>
          cases rest
          exact .group within (ih rfl)

/-- A nested text without the blanks at its end. -/
theorem trimEnd (nested : Nested signs t) : Nested signs t.trimEnd := by
  obtain ⟨blanks, blank, whole⟩ := exists_blanks_trimEnd t
  rw [← whole] at nested
  exact nested.of_append fun listed => absurd (blank _ listed) (by decide)

end Nested

end Text

namespace Condition

open Text (Nested)

/-- What is divided behind some text. -/
def behind (front : Text) (sides : Text × Text) : Text × Text := (front ++ sides.1, sides.2)

section Divide

variable {sign signs s t rest : Text} {c : Char}

/-- Behind one text and another is behind both. -/
theorem behind_comp : behind s ∘ behind t = behind (s ++ t) := by
  funext sides
  exact congrArg (·, sides.2) (List.append_assoc ..).symm

/-- An opening parenthesis is passed over. -/
theorem divide?_opening (depth : Int) :
    divide? sign depth ('(' :: t) = (divide? sign (depth + 1) t).map (behind ['(']) := rfl

/-- A closing parenthesis is passed over. -/
theorem divide?_closing (depth : Int) :
    divide? sign depth (')' :: t) = (divide? sign (depth - 1) t).map (behind [')']) := rfl

/-- Another character is passed over where no sign can begin. -/
theorem divide?_char {depth : Int} (plain : c ≠ '(' ∧ c ≠ ')')
    (other : depth = 0 → Text.after? sign (c :: t) = none) :
    divide? sign depth (c :: t) = (divide? sign depth t).map (behind [c]) := by
  rw [divide?, if_neg plain.1, if_neg plain.2]
  split
  · next outside =>
    rw [other outside]
    rfl
  · rfl

/-- Inside parentheses no sign is found. -/
theorem divide?_inside {depth : Int} (inside : 0 < depth) (nested : Nested signs t) :
    divide? sign depth (t ++ rest) = (divide? sign depth rest).map (behind t) := by
  induction nested generalizing depth rest with
  | nil => exact Option.map_id'.symm
  | char plain _ ih =>
    simp only [List.mem_cons, not_or] at plain
    have within : depth ≠ 0 := Int.ne_of_gt inside
    rw [List.cons_append, divide?_char ⟨plain.1, plain.2.1⟩ (absurd · within), ih inside,
      Option.map_map, behind_comp]
    rfl
  | group _ _ ihWithin ih =>
    rw [List.cons_append, List.append_assoc, List.cons_append, divide?_opening,
      ihWithin (Int.lt_add_one_of_le (Int.le_of_lt inside)), divide?_closing, Int.add_sub_cancel,
      ih inside, Option.map_map, Option.map_map, Option.map_map, behind_comp, behind_comp,
      behind_comp, List.append_assoc, List.append_assoc]
    rfl

/-- A group is passed over. -/
theorem divide?_group (nested : Nested signs t) :
    divide? sign 0 ('(' :: (t ++ ')' :: rest)) =
      (divide? sign 0 rest).map (behind ('(' :: (t ++ [')']))) := by
  have inside : (0 : Int) < 0 + 1 := Int.lt_add_one_of_le (Int.le_refl 0)
  rw [divide?_opening, divide?_inside inside nested, divide?_closing, Int.add_sub_cancel,
    Option.map_map, Option.map_map, behind_comp, behind_comp]
  rfl

/-- A sign that begins with a character which is left out is found behind a nested text only. -/
theorem divide?_nested (listed : c ∈ signs) (nested : Nested signs t) :
    divide? (c :: s) 0 (t ++ rest) = (divide? (c :: s) 0 rest).map (behind t) := by
  induction nested with
  | nil => exact Option.map_id'.symm
  | @char signs t d plain _ ih =>
    simp only [List.mem_cons, not_or] at plain
    have other (u : Text) : Text.after? (c :: s) (d :: u) = none :=
      if_neg fun same : c = d => plain.2.2 (same ▸ listed)
    rw [List.cons_append, divide?_char ⟨plain.1, plain.2.1⟩ (fun _ => other _), ih listed,
      Option.map_map, behind_comp]
    rfl
  | group within _ _ ih =>
    rw [List.cons_append, List.append_assoc, List.cons_append, divide?_group within, ih listed,
      Option.map_map, behind_comp, List.cons_append, List.append_assoc]
    rfl

/-- A sign behind a nested text is found where the text ends. -/
theorem divide?_sign (listed : c ∈ signs) (plain : c ≠ '(' ∧ c ≠ ')') (nested : Nested signs t) :
    divide? (c :: s) 0 (t ++ c :: s ++ rest) = some (t, rest) := by
  have found : divide? (c :: s) 0 (c :: s ++ rest) = some ([], rest) := by
    rw [List.cons_append, divide?, if_neg plain.1, if_neg plain.2, if_pos rfl, ← List.cons_append,
      Text.after?_append]
  rw [List.append_assoc, divide?_nested listed nested, found]
  exact congrArg (fun front => some (front, rest)) (List.append_nil t)

/-- A nested text is not divided at a sign that begins with a character which is left out. -/
theorem divide?_eq_none (listed : c ∈ signs) (nested : Nested signs t) :
    divide? (c :: s) 0 t = none := by
  have passed : divide? (c :: s) 0 (t ++ []) = none := divide?_nested listed nested
  rwa [List.append_nil] at passed

end Divide

section Group

variable {signs t rest : Text}

/-- What stands inside a group does not close it. -/
theorem closedAtEnd?_nested (depth : Nat) (nested : Nested signs t) :
    closedAtEnd? (depth + 1) (t ++ rest) = (closedAtEnd? (depth + 1) rest).map (t ++ ·) := by
  induction nested generalizing depth rest with
  | nil => exact Option.map_id'.symm
  | char plain _ ih =>
    simp only [List.mem_cons, not_or] at plain
    rw [List.cons_append, closedAtEnd?.eq_def]
    dsimp only
    rw [if_neg plain.1, if_neg plain.2.1, ih, Option.map_map]
    rfl
  | group _ _ ihWithin ih =>
    have opening (u : Text) : closedAtEnd? (depth + 1) ('(' :: u) =
        (closedAtEnd? (depth + 2) u).map ('(' :: ·) := rfl
    have closing (u : Text) : closedAtEnd? (depth + 2) (')' :: u) =
        (closedAtEnd? (depth + 1) u).map (')' :: ·) := rfl
    rw [List.cons_append, List.append_assoc, List.cons_append, opening, ihWithin, closing, ih,
      Option.map_map, Option.map_map, Option.map_map]
    congr 1
    funext u
    simp

/-- A text that begins with a group is that group exactly when nothing follows it. -/
theorem group?_nested (nested : Nested signs t) :
    group? ('(' :: (t ++ ')' :: rest)) = if rest.isEmpty then some t else none := by
  have closing : closedAtEnd? 1 (')' :: rest) = if rest.isEmpty then some [] else none := rfl
  change closedAtEnd? 1 (t ++ ')' :: rest) = _
  rw [closedAtEnd?_nested 0 nested, closing]
  split
  · rw [Option.map_some, List.append_nil]
  · rfl

end Group

end Condition

end Keyfob
