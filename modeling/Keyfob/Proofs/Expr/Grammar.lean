import Keyfob.Expr.Basic

/-!
# The grammar of expressions

    sum     := product (("+" | "-") product)*
    product := signed (("*" | "/" | "%") signed)*
    signed  := ("-" | "+") signed | operand
    operand := number | name | "(" sum ")"

A derivation is a tree with one type for each line of the grammar and one for each repetition. Its
tokens are what it derives (`SumTree.tokens`), and its value is that of the machine
(`SumTree.value?`): operators group from the left, results are cut down to 32 bits, and a division
by zero, for which the machine has no result, is never asked of it. The grammar is unambiguous:
tokens have one derivation at most (`SumTree.unique`).
-/
namespace Keyfob

namespace Operator

/-- What the machine makes of two words: the exact result cut down to 32 bits, and nothing where it
is asked to divide by zero. -/
def machine? : Operator → Int32 → Int32 → Option Int32
  | add, x, y => some (Int32.ofInt (x.toInt + y.toInt))
  | sub, x, y => some (Int32.ofInt (x.toInt - y.toInt))
  | mul, x, y => some (Int32.ofInt (x.toInt * y.toInt))
  | div, x, y => if y = 0 then none else some (Int32.ofInt (x.toInt.tdiv y.toInt))
  | rem, x, y => if y = 0 then none else some (Int32.ofInt (x.toInt.tmod y.toInt))

/-- Whether an operator divides. -/
def divides : Operator → Bool
  | div | rem => true
  | _ => false

/-- What an operator makes of two words with the machine, which is not asked to divide by zero: that
is zero. -/
def result? (op : Operator) (x y : Int32) : Option Int32 :=
  if op.divides ∧ y = 0 then some 0 else op.machine? x y

/-- The machine has a result wherever it is asked, the one that expressions are evaluated with. -/
theorem result?_eq (op : Operator) (x y : Int32) : op.result? x y = some (op.apply x y) := by
  have back (z : Int32) : Int32.ofInt z.toInt = z := Int32.ofInt_toInt z
  cases op with
  | add => simp [result?, divides, machine?, apply, Int32.ofInt_add]
  | sub => simp [result?, divides, machine?, apply, Int32.ofInt_sub]
  | mul => simp [result?, divides, machine?, apply, Int32.ofInt_mul]
  | div =>
    by_cases zero : y = 0
    · simp [result?, divides, apply, zero]
    · have quotient : Int32.ofInt (x.toInt.tdiv y.toInt) = x / y := by
        rw [Int32.ofInt_tdiv x.minValue_le_toInt x.toInt_le y.minValue_le_toInt y.toInt_le, back,
          back]
      simp [result?, divides, machine?, apply, zero, quotient]
  | rem =>
    by_cases zero : y = 0
    · simp [result?, divides, apply, zero]
    · have remainder : Int32.ofInt (x.toInt.tmod y.toInt) = x % y := by
        rw [Int32.ofInt_tmod x.minValue_le_toInt x.toInt_le y.minValue_le_toInt y.toInt_le, back,
          back]
      simp [result?, divides, machine?, apply, zero, remainder]

end Operator

namespace Expr

mutual

/-- A derivation of a sum. -/
inductive SumTree where
  /-- A product and the terms after it. -/
  | mk (first : ProductTree) (more : TermsTree)

/-- A derivation of the terms that follow the first product of a sum. -/
inductive TermsTree where
  /-- No more terms. -/
  | done
  /-- A plus or minus sign, a product, and the terms after it. -/
  | cons (sign : Operator) (additive : sign.isAdditive = true) (term : ProductTree)
    (more : TermsTree)

/-- A derivation of a product. -/
inductive ProductTree where
  /-- A signed operand and the factors after it. -/
  | mk (first : SignedTree) (more : FactorsTree)

/-- A derivation of the factors that follow the first operand of a product. -/
inductive FactorsTree where
  /-- No more factors. -/
  | done
  /-- A multiplying operator, a signed operand, and the factors after it. -/
  | cons (sign : Operator) (multiplying : sign.isAdditive = false) (factor : SignedTree)
    (more : FactorsTree)

/-- A derivation of an operand with any number of signs. -/
inductive SignedTree where
  /-- A plus or minus sign before an operand. -/
  | signed (sign : Operator) (additive : sign.isAdditive = true) (inner : SignedTree)
  /-- No sign. -/
  | plain (operand : OperandTree)

/-- A derivation of an operand. -/
inductive OperandTree where
  /-- A number. -/
  | number (value : Int32)
  /-- The name of a variable. -/
  | ident (name : Text)
  /-- A sum in parentheses. -/
  | group (inner : SumTree)

end

/-- A sum that is one operand. -/
def OperandTree.alone (operand : OperandTree) : SumTree := .mk (.mk (.plain operand) .done) .done

section Tokens

mutual

/-- The tokens that a derivation of a sum derives. -/
def SumTree.tokens : SumTree → List ExprToken
  | .mk first more => first.tokens ++ more.tokens

/-- The tokens of the terms after the first. -/
def TermsTree.tokens : TermsTree → List ExprToken
  | .done => []
  | .cons sign _ term more => .operator sign :: (term.tokens ++ more.tokens)

/-- The tokens that a derivation of a product derives. -/
def ProductTree.tokens : ProductTree → List ExprToken
  | .mk first more => first.tokens ++ more.tokens

/-- The tokens of the factors after the first. -/
def FactorsTree.tokens : FactorsTree → List ExprToken
  | .done => []
  | .cons sign _ factor more => .operator sign :: (factor.tokens ++ more.tokens)

/-- The tokens that a derivation of a signed operand derives. -/
def SignedTree.tokens : SignedTree → List ExprToken
  | .signed sign _ inner => .operator sign :: inner.tokens
  | .plain operand => operand.tokens

/-- The tokens that a derivation of an operand derives. -/
def OperandTree.tokens : OperandTree → List ExprToken
  | .number value => [.number value]
  | .ident name => [.ident name]
  | .group inner => .opening :: (inner.tokens ++ [.closing])

end

end Tokens

section Values

variable (vars : Text → Option Int32)

mutual

/-- The value of a sum where some variables are set, if the machine has one. -/
def SumTree.value? : SumTree → Option Int32
  | .mk first more => first.value?.bind more.value?

/-- The value of a sum that goes on with some terms, from the value of those before. -/
def TermsTree.value? : TermsTree → Int32 → Option Int32
  | .done, sum => some sum
  | .cons sign _ term more, sum =>
    term.value?.bind fun next => (sign.result? sum next).bind more.value?

/-- The value of a product. -/
def ProductTree.value? : ProductTree → Option Int32
  | .mk first more => first.value?.bind more.value?

/-- The value of a product that goes on with some factors, from the value of those before. -/
def FactorsTree.value? : FactorsTree → Int32 → Option Int32
  | .done, product => some product
  | .cons sign _ factor more, product =>
    factor.value?.bind fun next => (sign.result? product next).bind more.value?

/-- The value of a signed operand. -/
def SignedTree.value? : SignedTree → Option Int32
  | .signed sign _ inner =>
    inner.value?.map fun value =>
      if sign = .sub then Int32.ofInt (-value.toInt) else value
  | .plain operand => operand.value?

/-- The value of an operand, zero for a variable that is not set. -/
def OperandTree.value? : OperandTree → Option Int32
  | .number value => some value
  | .ident name => some ((vars name).getD 0)
  | .group inner => inner.value?

end

end Values

section Meaning

mutual

/-- The expression that a derivation of a sum is read as. -/
def SumTree.expr : SumTree → Expr
  | .mk first more => more.extend first.expr

/-- An expression that some terms follow. -/
def TermsTree.extend : TermsTree → Expr → Expr
  | .done, left => left
  | .cons sign _ term more, left => more.extend (.binary sign left term.expr)

/-- The expression that a derivation of a product is read as. -/
def ProductTree.expr : ProductTree → Expr
  | .mk first more => more.extend first.expr

/-- An expression that some factors follow. -/
def FactorsTree.extend : FactorsTree → Expr → Expr
  | .done, left => left
  | .cons sign _ factor more, left => more.extend (.binary sign left factor.expr)

/-- The expression that a derivation of a signed operand is read as. -/
def SignedTree.expr : SignedTree → Expr
  | .signed sign _ inner => if sign = .sub then .negate inner.expr else inner.expr
  | .plain operand => operand.expr

/-- The expression that a derivation of an operand is read as. -/
def OperandTree.expr : OperandTree → Expr
  | .number value => .literal value
  | .ident name => .var name
  | .group inner => inner.expr

end

/-- The value of every variable where some are set: the others are zero. -/
def valuation (vars : Text → Option Int32) (name : Text) : Int32 := (vars name).getD 0

variable (vars : Text → Option Int32)

mutual

/-- The machine has a value for every sum, that of the expression it is read as. -/
theorem SumTree.value?_eq (tree : SumTree) :
    tree.value? vars = some (tree.expr.value (valuation vars)) := by
  cases tree with
  | mk first more =>
    rw [SumTree.value?, first.value?_eq, Option.bind_some, more.value?_eq]
    rfl

/-- Terms go on with the value of what they follow. -/
theorem TermsTree.value?_eq (more : TermsTree) (left : Expr) :
    more.value? vars (left.value (valuation vars)) =
      some ((more.extend left).value (valuation vars)) := by
  cases more with
  | done => rfl
  | cons sign additive term later =>
    rw [TermsTree.value?, term.value?_eq, Option.bind_some, Operator.result?_eq, Option.bind_some]
    exact later.value?_eq (.binary sign left term.expr)

/-- The machine has a value for every product, that of the expression it is read as. -/
theorem ProductTree.value?_eq (tree : ProductTree) :
    tree.value? vars = some (tree.expr.value (valuation vars)) := by
  cases tree with
  | mk first more =>
    rw [ProductTree.value?, first.value?_eq, Option.bind_some, more.value?_eq]
    rfl

/-- Factors go on with the value of what they follow. -/
theorem FactorsTree.value?_eq (more : FactorsTree) (left : Expr) :
    more.value? vars (left.value (valuation vars)) =
      some ((more.extend left).value (valuation vars)) := by
  cases more with
  | done => rfl
  | cons sign multiplying factor later =>
    rw [FactorsTree.value?, factor.value?_eq, Option.bind_some, Operator.result?_eq,
      Option.bind_some]
    exact later.value?_eq (.binary sign left factor.expr)

/-- The machine has a value for every signed operand, that of the expression it is read as. -/
theorem SignedTree.value?_eq (tree : SignedTree) :
    tree.value? vars = some (tree.expr.value (valuation vars)) := by
  cases tree with
  | signed sign additive inner =>
    have negated (x : Int32) : Int32.ofInt (-x.toInt) = -x := by
      rw [Int32.ofInt_neg, Int32.ofInt_toInt]
    rw [SignedTree.value?, inner.value?_eq, Option.map_some, SignedTree.expr]
    split
    · rw [negated]
      rfl
    · rfl
  | plain operand => exact operand.value?_eq

/-- The machine has a value for every operand, that of the expression it is read as. -/
theorem OperandTree.value?_eq (tree : OperandTree) :
    tree.value? vars = some (tree.expr.value (valuation vars)) := by
  cases tree with
  | number value => rfl
  | ident name => rfl
  | group inner => exact inner.value?_eq

end

end Meaning

section Unambiguous

/-- Whether some tokens do not begin with an operator of some kind. -/
def Stops (kind : Operator → Bool) (tokens : List ExprToken) : Prop :=
  ∀ sign rest, tokens = .operator sign :: rest → kind sign = false

/-- After a closing parenthesis nothing goes on. -/
theorem stops_closing (kind : Operator → Bool) (rest : List ExprToken) :
    Stops kind (.closing :: rest) := nofun

/-- What stops at every operator stops at those of some kind. -/
theorem Stops.some {s : List ExprToken} (stops : Stops (fun _ => true) s)
    (kind : Operator → Bool) : Stops kind s :=
  fun sign rest begins => absurd (stops sign rest begins) nofun

/-- Terms begin with no multiplying operator. -/
theorem TermsTree.stops {s : List ExprToken} (more : TermsTree) (stops : Stops (fun _ => true) s) :
    Stops (fun op => !op.isAdditive) (more.tokens ++ s) := by
  cases more with
  | done => exact stops.some _
  | cons sign additive term later =>
    intro other rest begins
    cases begins
    exact (Bool.not_eq_false' ..).mpr additive

mutual

/-- Tokens derive one sum at most, which ends where no operator follows. -/
theorem SumTree.unique {s t : List ExprToken} (a b : SumTree)
    (same : a.tokens ++ s = b.tokens ++ t)
    (first : Stops (fun _ => true) s) (second : Stops (fun _ => true) t) : a = b ∧ s = t := by
  obtain ⟨p, more⟩ := a
  obtain ⟨q, further⟩ := b
  rw [SumTree.tokens, SumTree.tokens, List.append_assoc, List.append_assoc] at same
  obtain ⟨rfl, later⟩ := p.unique q same (more.stops first) (further.stops second)
  obtain ⟨rfl, rest⟩ := more.unique further later first second
  exact ⟨rfl, rest⟩
termination_by structural a

/-- Tokens derive one list of terms at most. -/
theorem TermsTree.unique {s t : List ExprToken} (a b : TermsTree)
    (same : a.tokens ++ s = b.tokens ++ t)
    (first : Stops (fun _ => true) s) (second : Stops (fun _ => true) t) : a = b ∧ s = t := by
  cases a with
  | done =>
    cases b with
    | done => exact ⟨rfl, same⟩
    | cons sign additive term more => exact absurd (first _ _ same) nofun
  | cons sign additive term more =>
    cases b with
    | done => exact absurd (second _ _ same.symm) nofun
    | cons other additive' next further =>
      simp only [TermsTree.tokens, List.cons_append, List.append_assoc, List.cons.injEq,
        ExprToken.operator.injEq] at same
      obtain ⟨rfl, inside⟩ := same
      obtain ⟨rfl, later⟩ := term.unique next inside (more.stops first) (further.stops second)
      obtain ⟨rfl, rest⟩ := more.unique further later first second
      exact ⟨rfl, rest⟩
termination_by structural a

/-- Tokens derive one product at most, which ends where no multiplying operator follows. -/
theorem ProductTree.unique {s t : List ExprToken} (a b : ProductTree)
    (same : a.tokens ++ s = b.tokens ++ t)
    (first : Stops (fun op => !op.isAdditive) s) (second : Stops (fun op => !op.isAdditive) t) :
    a = b ∧ s = t := by
  obtain ⟨p, more⟩ := a
  obtain ⟨q, further⟩ := b
  rw [ProductTree.tokens, ProductTree.tokens, List.append_assoc, List.append_assoc] at same
  obtain ⟨rfl, later⟩ := p.unique q same
  obtain ⟨rfl, rest⟩ := more.unique further later first second
  exact ⟨rfl, rest⟩
termination_by structural a

/-- Tokens derive one list of factors at most. -/
theorem FactorsTree.unique {s t : List ExprToken} (a b : FactorsTree)
    (same : a.tokens ++ s = b.tokens ++ t)
    (first : Stops (fun op => !op.isAdditive) s) (second : Stops (fun op => !op.isAdditive) t) :
    a = b ∧ s = t := by
  cases a with
  | done =>
    cases b with
    | done => exact ⟨rfl, same⟩
    | cons sign multiplying factor more =>
      have ends : (!sign.isAdditive) = false := first _ _ same
      rw [multiplying] at ends
      exact absurd ends nofun
  | cons sign multiplying factor more =>
    cases b with
    | done =>
      have ends : (!sign.isAdditive) = false := second _ _ same.symm
      rw [multiplying] at ends
      exact absurd ends nofun
    | cons other multiplying' next further =>
      simp only [FactorsTree.tokens, List.cons_append, List.append_assoc, List.cons.injEq,
        ExprToken.operator.injEq] at same
      obtain ⟨rfl, inside⟩ := same
      obtain ⟨rfl, later⟩ := factor.unique next inside
      obtain ⟨rfl, rest⟩ := more.unique further later first second
      exact ⟨rfl, rest⟩
termination_by structural a

/-- Tokens derive one signed operand at most. -/
theorem SignedTree.unique {s t : List ExprToken} (a b : SignedTree)
    (same : a.tokens ++ s = b.tokens ++ t) :
    a = b ∧ s = t := by
  cases a with
  | signed sign additive inner =>
    cases b with
    | signed other additive' within =>
      simp only [SignedTree.tokens, List.cons_append, List.cons.injEq,
        ExprToken.operator.injEq] at same
      obtain ⟨rfl, inside⟩ := same
      obtain ⟨rfl, rest⟩ := inner.unique within inside
      exact ⟨rfl, rest⟩
    | plain operand => cases operand <;> cases same
  | plain operand =>
    cases b with
    | signed other additive within => cases operand <;> cases same
    | plain other =>
      obtain ⟨rfl, rest⟩ := operand.unique other same
      exact ⟨rfl, rest⟩
termination_by structural a

/-- Tokens derive one operand at most. -/
theorem OperandTree.unique {s t : List ExprToken} (a b : OperandTree)
    (same : a.tokens ++ s = b.tokens ++ t) :
    a = b ∧ s = t := by
  cases a with
  | number value =>
    cases b with
    | number other =>
      cases same
      exact ⟨rfl, rfl⟩
    | ident name => cases same
    | group within => cases same
  | ident name =>
    cases b with
    | number other => cases same
    | ident other =>
      cases same
      exact ⟨rfl, rfl⟩
    | group within => cases same
  | group inner =>
    cases b with
    | number other => cases same
    | ident name => cases same
    | group within =>
      simp only [OperandTree.tokens, List.cons_append, List.append_assoc, List.cons.injEq,
        true_and, List.nil_append] at same
      obtain ⟨rfl, rest⟩ := inner.unique within same (stops_closing _ _) (stops_closing _ _)
      cases rest
      exact ⟨rfl, rfl⟩
termination_by structural a

end

end Unambiguous

end Expr

end Keyfob
