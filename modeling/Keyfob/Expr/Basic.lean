import Keyfob.Expr.Token

/-!
# Expressions

An expression is a sum of products of signed operands, each operand a number, a variable or an
expression in parentheses. The reader goes down these levels, and every step returns the tokens
after what it read with a proof that they are fewer. Evaluation is total: variables that are not
set are zero, arithmetic wraps, division by zero is zero. `evaluate` reads anything that is no
expression as zero.
-/
namespace Keyfob

/-- A parsed expression. -/
inductive Expr where
  /-- A number. -/
  | literal (value : Int32)
  /-- The value of a variable. -/
  | var (name : Text)
  /-- The negation of an expression. -/
  | negate (operand : Expr)
  /-- An operator between two expressions. -/
  | binary (operator : Operator) (left right : Expr)
deriving DecidableEq

namespace Expr

/-- The value of an expression where each variable has a value. -/
def value (env : Text → Int32) : Expr → Int32
  | literal value => value
  | var name => env name
  | negate operand => -value env operand
  | binary operator left right =>
    operator.apply (value env left) (value env right)

/-- An expression read from the front of some tokens. -/
structure Read (tokens : List ExprToken) where
  /-- The expression. -/
  expr : Expr
  /-- The tokens after it. -/
  rest : List ExprToken
  /-- At least one token was read. -/
  shorter : rest.length < tokens.length

/-- An expression extended by tokens that follow it, possibly by none. -/
structure Extended (tokens : List ExprToken) where
  /-- The expression. -/
  expr : Expr
  /-- The tokens after it. -/
  rest : List ExprToken
  /-- No token was added. -/
  fits : rest.length ≤ tokens.length

/-- A read of the tokens after the first one. -/
def Read.behind {token : ExprToken} {rest : List ExprToken} (inner : Read rest) (expr : Expr) :
    Read (token :: rest) :=
  ⟨expr, inner.rest, Nat.lt_succ_of_lt inner.shorter⟩

/-- A read and what extends it, as one read. -/
def Read.through {tokens : List ExprToken} (first : Read tokens) (all : Extended first.rest) :
    Read tokens :=
  ⟨all.expr, all.rest, Nat.lt_of_le_of_lt all.fits first.shorter⟩

/-- An extension by an operator, an operand and what extends these. -/
def Extended.past {token : ExprToken} {rest : List ExprToken} (operand : Read rest)
    (all : Extended operand.rest) : Extended (token :: rest) :=
  ⟨all.expr, all.rest,
    Nat.le_succ_of_le (Nat.le_trans all.fits (Nat.le_of_lt operand.shorter))⟩

mutual

/-- Read a sum: products with plus or minus between them, grouped from the left. -/
def readSum (tokens : List ExprToken) : Except ExprError (Read tokens) := do
  let first ← readProduct tokens
  return first.through (← extendSum first.expr first.rest)
termination_by 6 * tokens.length + 4
decreasing_by
  · omega
  · have := first.shorter; omega

/-- Extend a sum by the terms that follow it. -/
def extendSum (left : Expr) (tokens : List ExprToken) : Except ExprError (Extended tokens) :=
  match tokens with
  | .operator operator :: rest =>
    if operator.isAdditive then do
      let term ← readProduct rest
      return .past term (← extendSum (.binary operator left term.expr) term.rest)
    else .ok ⟨left, _, Nat.le_refl _⟩
  | tokens => .ok ⟨left, tokens, Nat.le_refl _⟩
termination_by 6 * tokens.length + 5
decreasing_by
  · simp only [List.length_cons]; omega
  · have := term.shorter; simp only [List.length_cons]; omega

/-- Read a product: signed operands with a multiplying operator between them, grouped from the
left. -/
def readProduct (tokens : List ExprToken) : Except ExprError (Read tokens) := do
  let first ← readSigned tokens
  return first.through (← extendProduct first.expr first.rest)
termination_by 6 * tokens.length + 2
decreasing_by
  · omega
  · have := first.shorter; omega

/-- Extend a product by the factors that follow it. -/
def extendProduct (left : Expr) (tokens : List ExprToken) :
    Except ExprError (Extended tokens) :=
  match tokens with
  | .operator operator :: rest =>
    if operator.isAdditive then .ok ⟨left, _, Nat.le_refl _⟩
    else do
      let factor ← readSigned rest
      return .past factor (← extendProduct (.binary operator left factor.expr) factor.rest)
  | tokens => .ok ⟨left, tokens, Nat.le_refl _⟩
termination_by 6 * tokens.length + 3
decreasing_by
  · simp only [List.length_cons]; omega
  · have := factor.shorter; simp only [List.length_cons]; omega

/-- Read an operand after any number of signs. -/
def readSigned (tokens : List ExprToken) : Except ExprError (Read tokens) :=
  match tokens with
  | .operator .sub :: rest => do
    let operand ← readSigned rest
    return operand.behind (.negate operand.expr)
  | .operator .add :: rest => do
    let operand ← readSigned rest
    return operand.behind operand.expr
  | tokens => readOperand tokens
termination_by 6 * tokens.length + 1
decreasing_by
  · simp only [List.length_cons]; omega
  · simp only [List.length_cons]; omega
  · omega

/-- Read a number, a variable or an expression in parentheses. -/
def readOperand (tokens : List ExprToken) : Except ExprError (Read tokens) :=
  match tokens with
  | [] => .error .unexpectedEnd
  | .number value :: rest => .ok ⟨.literal value, rest, Nat.lt_succ_self _⟩
  | .ident name :: rest => .ok ⟨.var name, rest, Nat.lt_succ_self _⟩
  | .opening :: rest => do
    let inner ← readSum rest
    match closed : inner.rest with
    | .closing :: after =>
      return ⟨inner.expr, after, by
        have := inner.shorter
        simp only [closed, List.length_cons] at this ⊢
        omega⟩
    | _ => throw .unclosed
  | .operator operator :: _ => .error (.unexpectedToken (.operator operator))
  | .closing :: _ => .error (.unexpectedToken .closing)
termination_by 6 * tokens.length
decreasing_by simp only [List.length_cons]; omega

end

/-- The expression that some tokens spell. -/
def ofTokens (tokens : List ExprToken) : Except ExprError Expr := do
  let all ← readSum tokens
  match all.rest with
  | [] => return all.expr
  | extra :: _ => throw (.unexpectedToken extra)

/-- The expression that a text spells. -/
def parse (t : Text) : Except ExprError Expr := do ofTokens (← ExprToken.scan t)

/-- The value of the expression that a text spells. -/
def tryEvaluate (env : Text → Int32) (t : Text) : Except ExprError Int32 :=
  (parse t).map (value env)

/-- The value of the expression that a text spells, zero if it spells none. -/
def evaluate (env : Text → Int32) (t : Text) : Int32 :=
  match tryEvaluate env t with
  | .ok value => value
  | .error _ => 0

end Expr

end Keyfob
