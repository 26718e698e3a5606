import Keyfob.Text.Number

/-!
# Login codes

A code is four decimal digits. It is read leniently from what someone types, strictly from a
setting, and entered on a pad with two buttons: a short press raises the current digit, a long
one accepts it.
-/
namespace Keyfob

/-- A decimal digit. -/
abbrev Digit := Fin 10

/-- Four decimal digits. -/
structure Pin where
  /-- The digits in order. -/
  digits : Vector Digit 4
deriving DecidableEq

namespace Pin

/-- The code of four digits. -/
def of (a b c d : Digit) : Pin := ⟨#v[a, b, c, d]⟩

/-- The digit that a number ends in. -/
def lastDigit (n : Nat) : Digit := Fin.ofNat 10 n

/-- The code of the digits that four numbers end in. -/
def ofNats (a b c d : Nat) : Pin := of (lastDigit a) (lastDigit b) (lastDigit c) (lastDigit d)

/-- The digits among the characters of a text. -/
def digitsIn (t : Text) : List Digit :=
  (t.filter Text.isDigit).map fun c => lastDigit (Text.digitValue c)

/-- The first four digits of a text; missing ones are zero. -/
def lenient (t : Text) : Pin :=
  let digit (place : Nat) : Digit := (digitsIn t)[place]?.getD 0
  of (digit 0) (digit 1) (digit 2) (digit 3)

/-- The code that a text is, if it is four digits with blanks around them at most. -/
def strict? (t : Text) : Option Pin :=
  if t.trim.length = 4 ∧ t.trim.all Text.isDigit then some (lenient t.trim) else none

/-- The text that reports a setting that is not a code. -/
def strictMessage (t : Text) : Text := "login code must be 4 digits, got \"" ++ t.trim ++ "\""

/-- The digits of a code as text. -/
def text (pin : Pin) : Text := pin.digits.toList.map fun digit => Nat.digitChar digit.val

end Pin

/-- The pad on which a code is entered. -/
structure PinPad where
  /-- The digits accepted so far, the latest first. -/
  accepted : List Digit := []
  /-- Fewer than four digits are accepted. -/
  unfinished : accepted.length < 4 := by decide
  /-- The digit that the next long press accepts. -/
  current : Digit := 0
deriving DecidableEq

namespace PinPad

/-- The pad before the first press. -/
def empty : PinPad := {}

/-- The place of the digit being entered. -/
def cursor (pad : PinPad) : Nat := pad.accepted.length

/-- Raise the current digit by one, nine going to zero. -/
def raise (pad : PinPad) : PinPad := { pad with current := pad.current + 1 }

/-- Accept the current digit: the code once four are in, and the pad from then on. -/
def accept (pad : PinPad) : Option Pin × PinPad :=
  match pad with
  | ⟨[c, b, a], _, current⟩ => (some (Pin.of a b c current), empty)
  | ⟨accepted, unfinished, current⟩ =>
    if more : accepted.length < 3 then
      (none, { accepted := current :: accepted, unfinished := Nat.succ_lt_succ more })
    else (none, { accepted, unfinished, current })

/-- The pad as it is shown: accepted digits masked, the current digit, places still empty. -/
def render (pad : PinPad) : Text :=
  Text.join " " (List.replicate pad.cursor ['*'] ++ [[Nat.digitChar pad.current.val]] ++
    List.replicate (3 - pad.cursor) ['_'])

end PinPad

end Keyfob
