import Keyfob.Proofs.Expr.Nesting
import Keyfob.Proofs.Expr.Reading
import Mathlib.Data.Bool.AllAny

/-!
# Conditions as trees

A condition is built from expressions and comparisons with and, or and parentheses, where an or
directly under an and stands in parentheses (`Clause`). Its text has blanks anywhere between its
parts (`Clause.Spells`). It is read from its outside inwards, by dividing the text, but what comes
out is what the tree says: every expression of the tree has its value, both sides of each sign
included, and the condition holds where the tree does (`outcome_of_spells`).
-/
namespace Keyfob

/-- What a comparison says about two integers. -/
def Comparison.relates : Comparison → Int → Int → Bool
  | equal, x, y => x = y
  | different, x, y => x ≠ y
  | atMost, x, y => x ≤ y
  | atLeast, x, y => x ≥ y
  | less, x, y => x < y
  | greater, x, y => x > y

/-- Words are compared as the integers that they stand for. -/
theorem Comparison.holds_eq (c : Comparison) (x y : Int32) :
    c.holds x y = c.relates x.toInt y.toInt := by
  cases c with
  | equal => simp [holds, relates, Int32.toInt_inj, beq_eq_decide]
  | different => simp [holds, relates, Int32.toInt_inj, bne, beq_eq_decide]
  | atMost => simp [holds, relates, Int32.le_iff_toInt_le]
  | atLeast => simp [holds, relates, Int32.le_iff_toInt_le]
  | less => simp [holds, relates, Int32.lt_iff_toInt_lt]
  | greater => simp [holds, relates, Int32.lt_iff_toInt_lt]

/-- A condition as a tree, with whether it is an or outside parentheses, which may not stand
directly under an and. -/
inductive Clause : Bool → Type where
  /-- An expression that is not zero. -/
  | nonzero (expr : Expr.SumTree) : Clause false
  /-- A comparison between two expressions. -/
  | compare (comparison : Comparison) (left right : Expr.SumTree) : Clause false
  /-- Both of two conditions. -/
  | both (left right : Clause false) : Clause false
  /-- At least one of two conditions. -/
  | either {a b : Bool} (left : Clause a) (right : Clause b) : Clause true
  /-- A condition in parentheses. -/
  | group {a : Bool} (inner : Clause a) : Clause false

/-- Whether a condition holds, and the values of the expressions that were evaluated for it. -/
abbrev Outcome := Bool × List Int32

/-- The outcome of two conditions, both evaluated, with a sign between them. -/
def Outcome.join (op : Bool → Bool → Bool) (x y : Outcome) : Outcome := (op x.1 y.1, x.2 ++ y.2)

namespace Clause

/-- Whether a text spells a condition. -/
inductive Spells : {a : Bool} → Clause a → Text → Prop where
  /-- An expression. -/
  | nonzero {expr : Expr.SumTree} {t : Text} (spelled : expr.Spells t) : Spells (.nonzero expr) t
  /-- Two expressions with the sign of a comparison between them. -/
  | compare {comparison : Comparison} {left right : Expr.SumTree} {s t : Text}
    (first : left.Spells s) (second : right.Spells t) :
    Spells (.compare comparison left right) (s ++ comparison.sign ++ t)
  /-- Two conditions with the and-sign between them. -/
  | both {left right : Clause false} {s t : Text} (first : Spells left s)
    (second : Spells right t) : Spells (.both left right) (s ++ Condition.andSign ++ t)
  /-- Two conditions with the or-sign between them. -/
  | either {a b : Bool} {left : Clause a} {right : Clause b} {s t : Text} (first : Spells left s)
    (second : Spells right t) : Spells (.either left right) (s ++ Condition.orSign ++ t)
  /-- A condition in parentheses, with blanks around them. -/
  | group {a : Bool} {inner : Clause a} {before t after : Text}
    (front : ∀ c ∈ before, Text.isBlank c = true) (spelled : Spells inner t)
    (back : ∀ c ∈ after, Text.isBlank c = true) :
    Spells (.group inner) (before ++ '(' :: (t ++ ')' :: after))

/-- The outcome of a condition where some variables are set, if the machine has a value for each of
its expressions. -/
def outcome? (vars : Text → Option Int32) : {a : Bool} → Clause a → Option Outcome
  | _, nonzero expr => (expr.value? vars).map fun v => (v.toInt ≠ 0, [v])
  | _, compare comparison left right =>
    (left.value? vars).bind fun x =>
      (right.value? vars).map fun y => (comparison.relates x.toInt y.toInt, [x, y])
  | _, both left right =>
    (left.outcome? vars).bind fun x => (right.outcome? vars).map (Outcome.join and x)
  | _, either left right =>
    (left.outcome? vars).bind fun x => (right.outcome? vars).map (Outcome.join or x)
  | _, group inner => inner.outcome? vars

end Clause

namespace Condition

open Text (Nested)

/-- The values of the expressions of a condition, on both sides of every sign. -/
def values (env : Text → Int32) : Condition → List Int32
  | either left right => values env left ++ values env right
  | both left right => values env left ++ values env right
  | compare _ left right => [Expr.evaluate env left, Expr.evaluate env right]
  | nonzero expr => [Expr.evaluate env expr]

/-- The outcome of the condition that a text spells. -/
def outcome (env : Text → Int32) (t : Text) : Outcome := (evaluate env t, (read t).values env)

/-- The characters that signs between expressions are made of. -/
def signs : Text := "|&=!<>"

section Expressions

/-- No character of a sign, and no parenthesis, is a blank or stands in a name. -/
theorem plain_of_expression {c : Char}
    (listed : Text.isBlank c = true ∨ Text.continuesName c = true) :
    c ∉ '(' :: ')' :: signs := by
  have marks : ∀ d ∈ '(' :: ')' :: signs,
      Text.isBlank d = false ∧ Text.continuesName d = false :=
    List.all_iff_forall_prop.mp (by decide)
  intro mark
  rw [(marks c mark).1, (marks c mark).2] at listed
  exact listed.elim nofun nofun

/-- What spells tokens of which none is a parenthesis has no sign and no parenthesis in it. -/
theorem nested_of_tokens {tokens : List ExprToken} {t : Text}
    (spelled : ExprToken.Spells tokens t)
    (bare : ∀ token ∈ tokens, token ≠ .opening ∧ token ≠ .closing) : Nested signs t := by
  induction spelled with
  | nil => exact .nil
  | blank blank _ ih => exact .char (plain_of_expression (.inl blank)) (ih bare)
  | number _ all _ _ ih =>
    refine (Nested.of_plain fun c listed => ?_).append (ih (List.forall_mem_cons.mp bare).2)
    refine plain_of_expression (.inr ?_)
    unfold Text.continuesName
    rw [all c listed, Bool.or_true, Bool.true_or]
  | @ident name _ _ isName _ _ ih =>
    refine (Nested.of_plain fun c listed => ?_).append (ih (List.forall_mem_cons.mp bare).2)
    refine plain_of_expression (.inr ?_)
    cases name with
    | nil => cases listed
    | cons d ds =>
      obtain ⟨starts, all⟩ := Bool.and_eq_true_iff.mp isName
      cases listed with
      | head => exact Text.continuesName_of_startsName starts
      | tail _ later => exact List.all_eq_true.mp all c later
  | operator op _ ih =>
    exact .char (by cases op <;> decide) (ih (List.forall_mem_cons.mp bare).2)
  | opening _ _ => exact absurd rfl (bare _ List.mem_cons_self).1
  | closing _ _ => exact absurd rfl (bare _ List.mem_cons_self).2

/-- What spells tokens in two parts is nested where its two parts are. -/
theorem nested_append {first second : List ExprToken} {t : Text}
    (spelled : ExprToken.Spells (first ++ second) t)
    (front : ∀ s, ExprToken.Spells first s → Nested signs s)
    (back : ∀ s, ExprToken.Spells second s → Nested signs s) : Nested signs t := by
  obtain ⟨s, u, rfl, before, after⟩ := spelled.split
  exact (front s before).append (back u after)

/-- What spells an operator and more is nested where the latter is. -/
theorem nested_operator {op : Operator} {tokens : List ExprToken} {t : Text}
    (spelled : ExprToken.Spells (.operator op :: tokens) t)
    (back : ∀ s, ExprToken.Spells tokens s → Nested signs s) : Nested signs t := by
  have parted : ExprToken.Spells ([.operator op] ++ tokens) t := spelled
  refine nested_append parted (fun s alone => nested_of_tokens alone ?_) back
  exact List.forall_mem_singleton.mpr ⟨nofun, nofun⟩

/-- A group of tokens is spelled as a group in parentheses, with blanks around it. -/
theorem exists_of_spells_group {inner : List ExprToken} {t : Text}
    (spelled : ExprToken.Spells (.opening :: (inner ++ [.closing])) t) :
    ∃ pre inside post, t = pre ++ '(' :: (inside ++ ')' :: post) ∧ ExprToken.Spells [] pre ∧
      ExprToken.Spells inner inside ∧ ExprToken.Spells [] post := by
  obtain ⟨pre, later, rfl, before, rest⟩ := ExprToken.of_spells_opening spelled
  obtain ⟨s, u, rfl, within, last⟩ := rest.split
  obtain ⟨gap, post, rfl, between, after⟩ := ExprToken.of_spells_closing last
  have inside : ExprToken.Spells inner (s ++ gap) :=
    within.of_scan_eq (ExprToken.scan_append_blanks s (ExprToken.spells_nil_iff.mp between))
  exact ⟨pre, s ++ gap, post, by rw [List.append_assoc], before, inside, after⟩

mutual

/-- No sign stands in a sum outside its parentheses. -/
theorem nested_sum (tree : Expr.SumTree) (t : Text)
    (spelled : ExprToken.Spells tree.tokens t) : Nested signs t := by
  cases tree with
  | mk first more => exact nested_append spelled (nested_product first) (nested_terms more)

/-- No sign stands in the terms of a sum outside their parentheses. -/
theorem nested_terms (more : Expr.TermsTree) (t : Text)
    (spelled : ExprToken.Spells more.tokens t) : Nested signs t := by
  cases more with
  | done => exact nested_of_tokens spelled nofun
  | cons sign additive term later =>
    exact nested_operator spelled fun s back =>
      nested_append back (nested_product term) (nested_terms later)

/-- No sign stands in a product outside its parentheses. -/
theorem nested_product (tree : Expr.ProductTree) (t : Text)
    (spelled : ExprToken.Spells tree.tokens t) : Nested signs t := by
  cases tree with
  | mk first more => exact nested_append spelled (nested_signed first) (nested_factors more)

/-- No sign stands in the factors of a product outside their parentheses. -/
theorem nested_factors (more : Expr.FactorsTree) (t : Text)
    (spelled : ExprToken.Spells more.tokens t) : Nested signs t := by
  cases more with
  | done => exact nested_of_tokens spelled nofun
  | cons sign multiplying factor later =>
    exact nested_operator spelled fun s back =>
      nested_append back (nested_signed factor) (nested_factors later)

/-- No sign stands in a signed operand outside its parentheses. -/
theorem nested_signed (tree : Expr.SignedTree) (t : Text)
    (spelled : ExprToken.Spells tree.tokens t) : Nested signs t := by
  cases tree with
  | signed sign additive inner => exact nested_operator spelled (nested_signed inner)
  | plain operand => exact nested_operand operand t spelled

/-- No sign stands in an operand outside its parentheses. -/
theorem nested_operand (tree : Expr.OperandTree) (t : Text)
    (spelled : ExprToken.Spells tree.tokens t) : Nested signs t := by
  cases tree with
  | number value =>
    exact nested_of_tokens spelled (List.forall_mem_singleton.mpr ⟨nofun, nofun⟩)
  | ident name => exact nested_of_tokens spelled (List.forall_mem_singleton.mpr ⟨nofun, nofun⟩)
  | group inner =>
    obtain ⟨pre, inside, post, rfl, before, within, after⟩ := exists_of_spells_group spelled
    have nested := nested_sum inner inside within
    exact (nested_of_tokens before nofun).append
      (.group (nested.weaken (List.nil_subset _)) (nested_of_tokens after nofun))

end

end Expressions

section Reading

variable {s t l r : Text}

/-- A condition is read without the blanks around it. -/
theorem read_trim {u : Text} (same : t.trim = u.trim) : read t = read u := by
  rw [read.eq_1, read.eq_1, same]

/-- A condition with an or-sign outside parentheses. -/
theorem read_either (found : divide? orSign 0 t.trim = some (l, r)) :
    read t = .either (read l) (read r) := by
  rw [read]
  split
  · next left right same =>
    cases found.symm.trans same
    rfl
  · next missing => cases found.symm.trans missing

/-- A condition with an and-sign, and no or-sign, outside parentheses. -/
theorem read_both (noOr : divide? orSign 0 t.trim = none)
    (found : divide? andSign 0 t.trim = some (l, r)) : read t = .both (read l) (read r) := by
  rw [read]
  split
  · next same => cases noOr.symm.trans same
  · split
    · next left right same =>
      cases found.symm.trans same
      rfl
    · next missing => cases found.symm.trans missing

/-- A condition with neither of these signs outside parentheses. -/
theorem read_bare (noOr : divide? orSign 0 t.trim = none)
    (noAnd : divide? andSign 0 t.trim = none) :
    read t =
      match comparison? t.trim with
      | some (comparison, left, right) => .compare comparison left right
      | none => (group? t.trim).elim (.nonzero t.trim) read := by
  rw [read]
  split
  · next same => cases noOr.symm.trans same
  · split
    · next same => cases noAnd.symm.trans same
    · cases comparison? t.trim with
      | some found => rfl
      | none =>
        dsimp only
        split
        · next grouped => rw [grouped]; rfl
        · next single => rw [single]; rfl

/-- The sign of a comparison begins with one of these characters. -/
theorem exists_sign (c : Comparison) : ∃ first rest, c.sign = first :: rest ∧ first ∈ signs := by
  cases c <;> exact ⟨_, _, rfl, by decide⟩

/-- No parenthesis stands in the sign of a comparison, and none of the signs between conditions. -/
theorem nested_sign (c : Comparison) : Nested (orSign ++ andSign) c.sign := by
  cases c <;> exact .of_plain (List.all_iff_forall_prop.mp (by decide))

/-- No blank stands in the sign of a comparison. -/
theorem solid_sign (c : Comparison) : ∀ d ∈ c.sign, Text.isBlank d = false := by
  cases c <;> exact List.all_iff_forall_prop.mp (by decide)

/-- No comparison is found where no sign stands outside parentheses. -/
theorem comparison?_eq_none (nested : Nested signs t) : comparison? t = none := by
  unfold comparison?
  rw [List.findSome?_eq_none_iff]
  intro c _
  obtain ⟨first, rest, written, listed⟩ := exists_sign c
  rw [written, divide?_eq_none listed nested]
  rfl

/-- A comparison between expressions is found by its sign: none that is looked for before it stands
there, although some signs are parts of others. -/
theorem comparison?_sign (c : Comparison) (left : Nested signs l) (right : Nested signs r) :
    comparison? (l ++ c.sign ++ r) = some (c, l, r) := by
  have passed (other : Comparison) : divide? other.sign 0 (l ++ c.sign ++ r) =
      (divide? other.sign 0 (c.sign ++ r)).map (behind l) := by
    obtain ⟨first, rest, written, listed⟩ := exists_sign other
    rw [written, List.append_assoc, divide?_nested listed left]
  have later (d : Char) (ds : Text) (listed : d ∈ signs) : divide? (d :: ds) 0 r = none :=
    divide?_eq_none listed right
  have ends : Text.after? ['='] r = none := by
    cases r with
    | nil => rfl
    | cons d ds =>
      refine if_neg fun same : '=' = d => ?_
      exact right.head? (by decide) d rfl (same ▸ by decide)
  unfold comparison? Comparison.all
  simp only [List.findSome?_cons, passed]
  cases c <;> simp (disch := decide) [Comparison.sign, divide?, Text.after?, ends, later, behind]

/-- Conditions with an or-sign between them. -/
theorem read_or (left : Nested orSign l) :
    read (l ++ orSign ++ r) = .either (read l) (read r) := by
  have found : divide? orSign 0 (l.trimStart ++ orSign ++ r.trimEnd) =
      some (l.trimStart, r.trimEnd) := divide?_sign (by decide) (by decide) left.trimStart
  rw [← Text.trim_around _ _ (by decide) (List.all_iff_forall_prop.mp (by decide))] at found
  rw [read_either found, read_trim (Text.trim_trimStart l), read_trim (Text.trim_trimEnd r)]

/-- Conditions with an and-sign between them, and no or-sign outside parentheses. -/
theorem read_and (left : Nested (orSign ++ andSign) l) (right : Nested orSign r) :
    read (l ++ andSign ++ r) = .both (read l) (read r) := by
  have found : divide? andSign 0 (l.trimStart ++ andSign ++ r.trimEnd) =
      some (l.trimStart, r.trimEnd) := divide?_sign (by decide) (by decide) left.trimStart
  have noOr : divide? orSign 0 (l.trimStart ++ andSign ++ r.trimEnd) = none := by
    have sign : Nested orSign andSign := .of_plain (List.all_iff_forall_prop.mp (by decide))
    have first := left.trimStart.weaken (List.subset_append_left ..)
    exact divide?_eq_none (by decide) ((first.append sign).append right.trimEnd)
  rw [← Text.trim_around _ _ (by decide) (List.all_iff_forall_prop.mp (by decide))] at found noOr
  rw [read_both noOr found, read_trim (Text.trim_trimStart l), read_trim (Text.trim_trimEnd r)]

/-- Expressions with the sign of a comparison between them. -/
theorem read_comparison (c : Comparison) (left : Nested signs l) (right : Nested signs r) :
    read (l ++ c.sign ++ r) = .compare c l.trimStart r.trimEnd := by
  have first : Nested (orSign ++ andSign) l.trimStart := left.trimStart.weaken (by decide)
  have second : Nested (orSign ++ andSign) r.trimEnd := right.trimEnd.weaken (by decide)
  have plain := (first.append (nested_sign c)).append second
  have trimmed : (l ++ c.sign ++ r).trim = l.trimStart ++ c.sign ++ r.trimEnd :=
    Text.trim_around _ _ (by cases c <;> decide) (solid_sign c)
  rw [read_bare, trimmed, comparison?_sign c left.trimStart right.trimEnd]
  · rw [trimmed]
    exact divide?_eq_none (by decide) plain
  · rw [trimmed]
    exact divide?_eq_none (by decide) plain

/-- A text with no sign outside parentheses is a group, or else an expression. -/
theorem read_plain (nested : Nested signs t.trim) :
    read t = (group? t.trim).elim (.nonzero t.trim) read := by
  rw [read_bare (divide?_eq_none (by decide) nested) (divide?_eq_none (by decide) nested),
    comparison?_eq_none nested]

/-- A condition in parentheses. -/
theorem read_group {before after : Text} (front : ∀ c ∈ before, Text.isBlank c = true)
    (nested : Nested [] t) (back : ∀ c ∈ after, Text.isBlank c = true) :
    read (before ++ '(' :: (t ++ ')' :: after)) = read t := by
  have trimmed : (before ++ '(' :: (t ++ ')' :: after)).trim = '(' :: (t ++ [')']) := by
    unfold Text.trim
    rw [Text.trimStart_append_cons _ _ (by decide), Text.trimStart_eq_nil_iff.mpr front,
      List.nil_append, ← List.cons_append, Text.trimEnd_append_cons _ _ (by decide),
      Text.trimEnd_eq_nil_iff.mpr back, List.cons_append]
  have closed : group? ('(' :: (t ++ [')'])) = some t := group?_nested nested
  rw [read_plain, trimmed, closed]
  · rfl
  · rw [trimmed]
    exact .group nested .nil

/-- A sum whose text begins with a parenthesis begins with a group. -/
theorem exists_group_of_opening {tree : Expr.SumTree} {cs : Text}
    (spelled : tree.Spells ('(' :: cs)) :
    ∃ inner more further, tree = .mk (.mk (.plain (.group inner)) more) further := by
  have symbol : ExprToken.ofSymbol? '(' = some .opening := by decide
  have scanned := ExprToken.scan_of_spells spelled
  rw [ExprToken.scan_symbol cs (by decide) (by decide) (by decide) symbol] at scanned
  obtain ⟨later, _, begins⟩ := ExprToken.ok_of_map scanned
  obtain ⟨⟨first, more⟩, further⟩ := tree
  cases first with
  | signed sign additive inner => cases begins
  | plain operand =>
    cases operand with
    | number value => cases begins
    | ident name => cases begins
    | group inner => exact ⟨inner, more, further, rfl⟩

/-- An expression whose text is a group in parentheses is what stands in them. -/
theorem exists_of_group? {tree : Expr.SumTree} {inside : Text} (spelled : tree.Spells t)
    (grouped : group? t = some inside) :
    ∃ inner : Expr.SumTree, inner.Spells inside ∧ inner.expr = tree.expr := by
  obtain ⟨cs, rfl⟩ : ∃ cs, t = '(' :: cs := by
    unfold group? at grouped
    split at grouped
    · exact ⟨_, rfl⟩
    · cases grouped
  obtain ⟨inner, more, further, rfl⟩ := exists_group_of_opening spelled
  have parted : ExprToken.Spells
      ((Expr.OperandTree.group inner).tokens ++ (more.tokens ++ further.tokens)) ('(' :: cs) := by
    rw [← List.append_assoc]
    exact spelled
  obtain ⟨s, u, whole, group, rest⟩ := parted.split
  obtain ⟨before, within, after, rfl, front, spells, _⟩ := exists_of_spells_group group
  -- The text begins with the parenthesis of the group.
  have nothing : before = [] := by
    cases before with
    | nil => rfl
    | cons c ds =>
      cases whole
      exact absurd (ExprToken.spells_nil_iff.mp front _ List.mem_cons_self) (by decide)
  subst nothing
  have shape : '(' :: cs = '(' :: (within ++ ')' :: (after ++ u)) := by simpa using whole
  rw [shape, group?_nested (nested_sum inner within spells), Option.ite_none_right_eq_some]
    at grouped
  obtain ⟨ends, same⟩ := grouped
  cases same
  -- Nothing follows the group, so no factor and no term does.
  obtain ⟨rfl, rfl⟩ := List.append_eq_nil_iff.mp (List.isEmpty_iff.mp ends)
  have scanned := ExprToken.scan_of_spells rest
  rw [ExprToken.scan_nil] at scanned
  obtain ⟨noFactor, noTerm⟩ := List.append_eq_nil_iff.mp (Except.ok.inj scanned).symm
  refine ⟨inner, spells, ?_⟩
  cases more with
  | done =>
    cases further with
    | done => rfl
    | cons sign additive term later => cases noTerm
  | cons sign multiplying factor later => cases noFactor

/-- What is read for an expression is worth what the expression is. -/
theorem outcome_expression (env : Text → Int32) {tree : Expr.SumTree} (t : Text)
    (spelled : tree.Spells t) :
    outcome env t = (tree.expr.value env != 0, [tree.expr.value env]) := by
  have trimmed : tree.Spells t.trim :=
    spelled.of_scan_eq ((ExprToken.scan_trimEnd _).trans (ExprToken.scan_trimStart t))
  have whole := read_plain (nested_sum tree t.trim trimmed)
  cases grouped : group? t.trim with
  | none =>
    rw [grouped] at whole
    unfold outcome evaluate
    rw [whole]
    change (Expr.evaluate env t.trim != 0, [Expr.evaluate env t.trim]) = _
    rw [Expr.evaluate_of_spells trimmed]
  | some inside =>
    obtain ⟨inner, spells, same⟩ := exists_of_group? trimmed grouped
    have shorter := length_of_group? grouped
    have bounded := Text.length_trim_le t
    have later := outcome_expression env inside spells
    rw [grouped] at whole
    unfold outcome evaluate at later ⊢
    rw [whole, ← same]
    exact later
termination_by t.length

end Reading

section Outcome

variable {env : Text → Int32} {s t u : Text}

/-- The outcome of conditions with an or-sign between them. -/
theorem outcome_or (left : Nested orSign s) :
    outcome env (s ++ orSign ++ t) = (outcome env s).join or (outcome env t) := by
  unfold outcome evaluate
  rw [read_or left]
  rfl

/-- The outcome of conditions with an and-sign between them. -/
theorem outcome_and (left : Nested (orSign ++ andSign) s) (right : Nested orSign t) :
    outcome env (s ++ andSign ++ t) = (outcome env s).join and (outcome env t) := by
  unfold outcome evaluate
  rw [read_and left right]
  rfl

/-- The outcome of expressions with the sign of a comparison between them. -/
theorem outcome_comparison (c : Comparison) {left right : Expr.SumTree} (first : left.Spells s)
    (second : right.Spells t) :
    outcome env (s ++ c.sign ++ t) =
      (c.holds (left.expr.value env) (right.expr.value env),
        [left.expr.value env, right.expr.value env]) := by
  have front : left.Spells s.trimStart := first.of_scan_eq (ExprToken.scan_trimStart s)
  have back : right.Spells t.trimEnd := second.of_scan_eq (ExprToken.scan_trimEnd t)
  unfold outcome evaluate
  rw [read_comparison c (nested_sum left s first) (nested_sum right t second), holds, values,
    Expr.evaluate_of_spells front, Expr.evaluate_of_spells back]

/-- Three conditions with the or-sign between them are grouped in either way. -/
theorem join_or (x y z : Outcome) : (x.join or y).join or z = x.join or (y.join or z) := by
  unfold Outcome.join
  rw [Bool.or_assoc, List.append_assoc]

/-- Three conditions with the and-sign between them are grouped in either way. -/
theorem join_and (x y z : Outcome) : (x.join and y).join and z = x.join and (y.join and z) := by
  unfold Outcome.join
  rw [Bool.and_assoc, List.append_assoc]

/-- How a text fits into a condition, where it may be an or outside parentheses or not: whatever
follows it and a sign, its outcome is the left one of the two. -/
structure Fits (env : Text → Int32) (loose : Bool) (t : Text) : Prop where
  /-- Its parentheses are paired. -/
  nested : Nested [] t
  /-- Only an or has an or-sign outside parentheses. -/
  tight : loose = false → Nested orSign t
  /-- Before an or-sign it stays one condition. -/
  beforeOr : ∀ u, outcome env (t ++ orSign ++ u) = (outcome env t).join or (outcome env u)
  /-- Before an and-sign it stays one condition unless it is an or. -/
  beforeAnd : loose = false → ∀ u, Nested orSign u →
    outcome env (t ++ andSign ++ u) = (outcome env t).join and (outcome env u)

/-- A text without signs of either kind outside parentheses fits anywhere. -/
theorem fits_of_nested {loose : Bool} (nested : Nested (orSign ++ andSign) t) :
    Fits env loose t where
  nested := nested.weaken (List.nil_subset _)
  tight _ := nested.weaken (List.subset_append_left ..)
  beforeOr _ := outcome_or (nested.weaken (List.subset_append_left ..))
  beforeAnd _ _ right := outcome_and nested right

/-- Two texts that fit, with an and-sign between them. -/
theorem Fits.both (left : Fits env false s) (right : Fits env false t) :
    Fits env false (s ++ andSign ++ t) := by
  have sign : Nested orSign andSign := .of_plain (List.all_iff_forall_prop.mp (by decide))
  have tight := ((left.tight rfl).append sign).append (right.tight rfl)
  refine ⟨tight.weaken (List.nil_subset _), fun _ => tight, fun u => outcome_or tight, ?_⟩
  intro _ u bare
  have rest := ((right.tight rfl).append sign).append bare
  calc outcome env (s ++ andSign ++ t ++ andSign ++ u)
      = outcome env (s ++ andSign ++ (t ++ andSign ++ u)) := by simp only [List.append_assoc]
    _ = (outcome env s).join and ((outcome env t).join and (outcome env u)) := by
        rw [left.beforeAnd rfl _ rest, right.beforeAnd rfl _ bare]
    _ = (outcome env (s ++ andSign ++ t)).join and (outcome env u) := by
        rw [left.beforeAnd rfl _ (right.tight rfl), join_and]

/-- Two texts that fit, with an or-sign between them. -/
theorem Fits.either {a b : Bool} (left : Fits env a s) (right : Fits env b t) :
    Fits env true (s ++ orSign ++ t) := by
  have sign : Nested [] orSign := .of_plain (List.all_iff_forall_prop.mp (by decide))
  refine ⟨(left.nested.append sign).append right.nested, nofun, ?_, nofun⟩
  intro u
  calc outcome env (s ++ orSign ++ t ++ orSign ++ u)
      = outcome env (s ++ orSign ++ (t ++ orSign ++ u)) := by simp only [List.append_assoc]
    _ = (outcome env s).join or ((outcome env t).join or (outcome env u)) := by
        rw [left.beforeOr, right.beforeOr]
    _ = (outcome env (s ++ orSign ++ t)).join or (outcome env u) := by rw [left.beforeOr, join_or]

/-- What spells a condition fits. -/
theorem fits_of_spells (env : Text → Int32) {a : Bool} {clause : Clause a}
    (spelled : clause.Spells t) : Fits env a t := by
  induction spelled with
  | nonzero expr => exact fits_of_nested ((nested_sum _ _ expr).weaken (by decide))
  | @compare c _ _ _ _ first second =>
    have left : Nested (orSign ++ andSign) _ := (nested_sum _ _ first).weaken (by decide)
    have right : Nested (orSign ++ andSign) _ := (nested_sum _ _ second).weaken (by decide)
    exact fits_of_nested ((left.append (nested_sign c)).append right)
  | both _ _ left right => exact left.both right
  | either _ _ left right => exact left.either right
  | group front _ back inner =>
    have outside {t : Text} (blank : ∀ c ∈ t, Text.isBlank c = true) :
        Nested (orSign ++ andSign) t :=
      (nested_of_tokens (ExprToken.spells_nil_iff.mpr blank) nofun).weaken (by decide)
    exact fits_of_nested ((outside front).append (.group inner.nested (outside back)))

/-- A text that spells a condition is evaluated as the tree says: each of its expressions has its
value, on both sides of every sign, and the condition holds where the tree does. -/
theorem outcome_of_spells (vars : Text → Option Int32) {a : Bool} {clause : Clause a} (t : Text)
    (spelled : clause.Spells t) :
    clause.outcome? vars =
      some (evaluate (Expr.valuation vars) t, (read t).values (Expr.valuation vars)) := by
  change _ = some (outcome (Expr.valuation vars) t)
  induction spelled with
  | nonzero expr =>
    rw [Clause.outcome?, Expr.SumTree.value?_eq, outcome_expression _ _ expr]
    simp [bne, beq_eq_decide, ← Int32.toInt_inj]
  | @compare c _ _ _ _ first second =>
    rw [Clause.outcome?, Expr.SumTree.value?_eq, Expr.SumTree.value?_eq,
      outcome_comparison c first second, Comparison.holds_eq]
    rfl
  | both first second left right =>
    have tight := (fits_of_spells (Expr.valuation vars) second).tight rfl
    rw [Clause.outcome?, left, right, (fits_of_spells _ first).beforeAnd rfl _ tight]
    rfl
  | either first second left right =>
    rw [Clause.outcome?, left, right, (fits_of_spells _ first).beforeOr]
    rfl
  | group front spelled back inner =>
    have nested := (fits_of_spells (Expr.valuation vars) spelled).nested
    rw [Clause.outcome?, inner]
    unfold outcome evaluate
    rw [read_group front nested back]

/-- An or in parentheses under an and, with a variable that is set and two that are not. -/
theorem outcome_of_spells_or_under_and :
    outcome (Expr.valuation fun name => if name = ['x'] then some 5 else none)
      "(x > 3) && (y || z < 2)" = (true, [5, 3, 0, 0, 2]) := by
  have x : (Expr.OperandTree.ident "x").alone.Spells "x " :=
    ExprToken.scan_eq_ok_iff.mp (by decide +kernel)
  have y : (Expr.OperandTree.ident "y").alone.Spells "y " :=
    ExprToken.scan_eq_ok_iff.mp (by decide +kernel)
  have z : (Expr.OperandTree.ident "z").alone.Spells " z " :=
    ExprToken.scan_eq_ok_iff.mp (by decide +kernel)
  have two : (Expr.OperandTree.number 2).alone.Spells " 2" :=
    ExprToken.scan_eq_ok_iff.mp (by decide +kernel)
  have three : (Expr.OperandTree.number 3).alone.Spells " 3" :=
    ExprToken.scan_eq_ok_iff.mp (by decide +kernel)
  have blank : ∀ c ∈ [' '], Text.isBlank c = true := List.forall_mem_singleton.mpr rfl
  have nothing : ∀ c ∈ ([] : Text), Text.isBlank c = true := nofun
  have left : Clause.Spells (.group (.compare .greater _ _)) _ :=
    .group nothing (.compare x three) blank
  have right : Clause.Spells (.group (.either (.nonzero _) (.compare .less _ _))) _ :=
    .group blank (.either (.nonzero y) (.compare z two)) nothing
  have evaluated := outcome_of_spells (fun name => if name = ['x'] then some 5 else none)
    "(x > 3) && (y || z < 2)" (.both left right)
  exact (Option.some.inj evaluated).symm

end Outcome

end Condition

end Keyfob
