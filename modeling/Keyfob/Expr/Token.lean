import Keyfob.Text.Number
import Keyfob.Text.Quoted

/-!
# Tokens of expressions

An expression is written with decimal numbers, variable names, five operators and parentheses,
with blanks anywhere between them. Numbers are 32-bit words: the digits of a longer one wrap.
-/
namespace Keyfob

/-- A binary operator; `add` and `sub` are also written as signs. -/
inductive Operator where
  | add
  | sub
  | mul
  | div
  | rem
deriving DecidableEq

namespace Operator

/-- The character that writes an operator. -/
def symbol : Operator → Char
  | add => '+'
  | sub => '-'
  | mul => '*'
  | div => '/'
  | rem => '%'

/-- The operator that a character writes. -/
def ofSymbol? (c : Char) : Option Operator :=
  [add, sub, mul, div, rem].find? fun operator => operator.symbol == c

/-- The word that names an operator in an error text. -/
def word : Operator → Text
  | add => "Plus"
  | sub => "Minus"
  | mul => "Star"
  | div => "Slash"
  | rem => "Percent"

/-- What an operator makes of two words. Arithmetic wraps, quotients are cut off towards zero,
and division by zero and its remainder are zero. -/
def apply : Operator → Int32 → Int32 → Int32
  | add, x, y => x + y
  | sub, x, y => x - y
  | mul, x, y => x * y
  | div, x, y => if y = 0 then 0 else x / y
  | rem, x, y => if y = 0 then 0 else x % y

/-- Whether an operator joins the terms of a sum; the others join the factors of a product. -/
def isAdditive : Operator → Bool
  | add | sub => true
  | mul | div | rem => false

end Operator

/-- One piece of a written expression. -/
inductive ExprToken where
  /-- A decimal number. -/
  | number (value : Int32)
  /-- A variable name. -/
  | ident (name : Text)
  /-- An operator or a sign. -/
  | operator (operator : Operator)
  /-- An opening parenthesis. -/
  | opening
  /-- A closing parenthesis. -/
  | closing
deriving DecidableEq

/-- Why a text is not an expression. -/
inductive ExprError where
  /-- A character that no token begins with. -/
  | unexpectedChar (c : Char)
  /-- The tokens end where an operand is wanted. -/
  | unexpectedEnd
  /-- A token stands where none of its kind may. -/
  | unexpectedToken (token : ExprToken)
  /-- A parenthesis is not closed after the expression in it. -/
  | unclosed
deriving DecidableEq

namespace ExprToken

/-- The text that shows a token in an error. -/
def shown : ExprToken → Text
  | number n => "Num(" ++ Text.ofInt n.toInt ++ ")"
  | ident name => "Ident(" ++ Text.quoted name ++ ")"
  | operator op => op.word
  | opening => "LParen"
  | closing => "RParen"

/-- The token that a single character is, other than a digit or a letter. -/
def ofSymbol? (c : Char) : Option ExprToken :=
  if c = '(' then some opening
  else if c = ')' then some closing
  else (Operator.ofSymbol? c).map operator

/-- The tokens of a text, or the first character that begins none. Numbers and names are the
longest runs of their characters. -/
def scan (t : Text) : Except ExprError (List ExprToken) :=
  match t with
  | [] => .ok []
  | c :: cs =>
    if Text.isBlank c then scan cs
    else if Text.isDigit c then
      (scan (cs.dropWhile Text.isDigit)).map
        (number (Int32.ofNat (Text.digitsValue (c :: cs.takeWhile Text.isDigit))) :: ·)
    else if Text.startsName c then
      (scan (cs.dropWhile Text.continuesName)).map
        (ident (c :: cs.takeWhile Text.continuesName) :: ·)
    else
      match ofSymbol? c with
      | none => .error (.unexpectedChar c)
      | some token => (scan cs).map (token :: ·)
termination_by t.length
decreasing_by
  all_goals simp only [List.length_cons]
  · omega
  · exact Nat.lt_succ_of_le (Text.length_dropWhile_le _ _)
  · exact Nat.lt_succ_of_le (Text.length_dropWhile_le _ _)
  · omega

end ExprToken

/-- The text that reports an error. -/
def ExprError.message : ExprError → Text
  | .unexpectedChar c => "unexpected character '" ++ [c] ++ "'"
  | .unexpectedEnd => "unexpected end of expression"
  | .unexpectedToken token => "unexpected token " ++ token.shown
  | .unclosed => "missing closing parenthesis"

end Keyfob
