import Keyfob.Expr.Basic

/-!
# Conditions

A condition is read from its outside inwards: it is divided at the first or-sign outside
parentheses, else at the first and-sign, else at a comparison sign, and what is left is an
expression that holds where it is not zero. Signs inside parentheses divide nothing; a
condition that is one group in parentheses is read without them.
-/
namespace Keyfob

/-- A comparison of two words. -/
inductive Comparison where
  | equal
  | different
  | atMost
  | atLeast
  | less
  | greater
deriving DecidableEq

namespace Comparison

/-- The comparisons, in the order in which their signs are looked for. -/
def all : List Comparison := [equal, different, atMost, atLeast, less, greater]

/-- The sign that writes a comparison. -/
def sign : Comparison → Text
  | equal => "=="
  | different => "!="
  | atMost => "<="
  | atLeast => ">="
  | less => "<"
  | greater => ">"

/-- Whether a comparison holds between two words. -/
def holds : Comparison → Int32 → Int32 → Bool
  | equal, x, y => x == y
  | different, x, y => x != y
  | atMost, x, y => x ≤ y
  | atLeast, x, y => y ≤ x
  | less, x, y => x < y
  | greater, x, y => y < x

end Comparison

/-- A condition, with its expressions still in writing. -/
inductive Condition where
  /-- At least one of two conditions. -/
  | either (left right : Condition)
  /-- Both of two conditions. -/
  | both (left right : Condition)
  /-- A comparison between two expressions. -/
  | compare (comparison : Comparison) (left right : Text)
  /-- An expression that is not zero. -/
  | nonzero (expr : Text)
deriving DecidableEq

namespace Condition

/-- The sign between conditions of which one is enough. -/
def orSign : Text := "||"

/-- The sign between conditions that must both hold. -/
def andSign : Text := "&&"

/-- Divide a text at the first place outside parentheses where a sign stands, given the
number of parentheses open before it; more closed than opened counts as inside, too. -/
def divide? (sign : Text) : Int → Text → Option (Text × Text)
  | _, [] => none
  | depth, c :: cs =>
    let skip (depth : Int) := (divide? sign depth cs).map fun (left, right) => (c :: left, right)
    if c = '(' then skip (depth + 1)
    else if c = ')' then skip (depth - 1)
    else if depth = 0 then
      match Text.after? sign (c :: cs) with
      | some right => some ([], right)
      | none => skip depth
    else skip depth

/-- The text up to the parenthesis that closes a given number of open ones, if that is the last
character. -/
def closedAtEnd? : Nat → Text → Option Text
  | _, [] => none
  | depth, c :: cs =>
    if c = '(' then (closedAtEnd? (depth + 1) cs).map (c :: ·)
    else if c = ')' then
      match depth with
      | 0 | 1 => if cs.isEmpty then some [] else none
      | depth + 2 => (closedAtEnd? (depth + 1) cs).map (c :: ·)
    else (closedAtEnd? depth cs).map (c :: ·)

/-- The inside of a text that is one group in parentheses. -/
def group? : Text → Option Text
  | '(' :: cs => closedAtEnd? 1 cs
  | _ => none

/-- The first comparison in the order of `Comparison.all` whose sign stands outside
parentheses, with the texts on its two sides. -/
def comparison? (t : Text) : Option (Comparison × Text × Text) :=
  Comparison.all.findSome? fun comparison =>
    (divide? comparison.sign 0 t).map fun sides => (comparison, sides)

/-- The two sides of a sign and the sign itself make up the text. -/
theorem length_of_divide? {sign t left right : Text} {depth : Int}
    (found : divide? sign depth t = some (left, right)) :
    t.length = left.length + sign.length + right.length := by
  induction t generalizing depth left with
  | nil => simp [divide?] at found
  | cons c cs ih =>
    have skipped : ∀ {inner : Int}, ((divide? sign inner cs).map fun (left, right) =>
        (c :: left, right)) = some (left, right) →
        (c :: cs).length = left.length + sign.length + right.length := by
      intro inner h
      obtain ⟨⟨front, back⟩, below, same⟩ := Option.map_eq_some_iff.mp h
      simp only [Prod.mk.injEq] at same
      obtain ⟨rfl, rfl⟩ := same
      have := ih below
      simp only [List.length_cons]
      omega
    simp only [divide?] at found
    split at found
    · exact skipped found
    split at found
    · exact skipped found
    split at found
    · split at found
      · rename_i rest matched
        simp only [Option.some.injEq, Prod.mk.injEq] at found
        obtain ⟨rfl, rfl⟩ := found
        simpa using Text.length_of_after? matched
      · exact skipped found
    · exact skipped found

/-- The inside of a group is shorter than what it closes. -/
theorem length_of_closedAtEnd? {depth : Nat} {t inside : Text}
    (found : closedAtEnd? depth t = some inside) : inside.length < t.length := by
  induction t generalizing depth inside with
  | nil => simp [closedAtEnd?] at found
  | cons c cs ih =>
    have kept : ∀ {inner : Nat}, ((closedAtEnd? inner cs).map (c :: ·)) = some inside →
        inside.length < (c :: cs).length := by
      intro inner h
      obtain ⟨rest, below, rfl⟩ := Option.map_eq_some_iff.mp h
      have := ih below
      simp only [List.length_cons]
      omega
    simp only [closedAtEnd?] at found
    split at found
    · exact kept found
    split at found
    · split at found
      · split at found
        · simp only [Option.some.injEq] at found
          subst found
          simp
        · simp at found
      · split at found
        · simp only [Option.some.injEq] at found
          subst found
          simp
        · simp at found
      · exact kept found
    · exact kept found

/-- The inside of a group is shorter than the group. -/
theorem length_of_group? {t inside : Text} (found : group? t = some inside) :
    inside.length < t.length := by
  unfold group? at found
  split at found
  · have := length_of_closedAtEnd? found
    simp only [List.length_cons]
    omega
  · simp at found

/-- The condition that a text spells. -/
def read (t : Text) : Condition :=
  match _orFound : divide? orSign 0 t.trim with
  | some (left, right) => .either (read left) (read right)
  | none =>
    match _andFound : divide? andSign 0 t.trim with
    | some (left, right) => .both (read left) (read right)
    | none =>
      match comparison? t.trim with
      | some (comparison, left, right) => .compare comparison left right
      | none =>
        match _grouped : group? t.trim with
        | some inside => read inside
        | none => .nonzero t.trim
termination_by t.length
decreasing_by
  all_goals have trimmed := Text.length_trim_le t
  · have := length_of_divide? _orFound
    simp only [orSign, show ("||".toList).length = 2 from rfl] at this
    omega
  · have := length_of_divide? _orFound
    simp only [orSign, show ("||".toList).length = 2 from rfl] at this
    omega
  · have := length_of_divide? _andFound
    simp only [andSign, show ("&&".toList).length = 2 from rfl] at this
    omega
  · have := length_of_divide? _andFound
    simp only [andSign, show ("&&".toList).length = 2 from rfl] at this
    omega
  · have := length_of_group? _grouped
    omega

/-- Whether a condition holds where each variable has a value. -/
def holds (env : Text → Int32) : Condition → Bool
  | either left right => holds env left || holds env right
  | both left right => holds env left && holds env right
  | compare comparison left right =>
    comparison.holds (Expr.evaluate env left) (Expr.evaluate env right)
  | nonzero expr => Expr.evaluate env expr != 0

/-- Whether the condition that a text spells holds. -/
def evaluate (env : Text → Int32) (t : Text) : Bool := (read t).holds env

end Condition

end Keyfob
