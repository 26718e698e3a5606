import Keyfob.Text.Basic

/-!
# Numbers in text

Numbers are written in decimal, and read two ways: as the leading digits of a text, where
whatever cannot be read counts as zero (`leadingInteger`), and as a run of digits with nothing
else (`digits?`).
-/
namespace Keyfob.Text

/-- The decimal digits of a natural number. -/
def ofNat (n : Nat) : Text := Nat.toDigits 10 n

/-- The decimal digits of an integer, after a minus sign if it is negative. -/
def ofInt : Int → Text
  | .ofNat n => ofNat n
  | .negSucc n => '-' :: ofNat (n + 1)

/-- The decimal digits of an integer after its sign, which is a plus for zero. -/
def ofSigned : Int → Text
  | .ofNat n => '+' :: ofNat n
  | .negSucc n => '-' :: ofNat (n + 1)

/-- The value of a run of decimal digits. -/
def digitsValue (digits : Text) : Nat :=
  digits.foldl (fun value c => 10 * value + digitValue c) 0

/-- The largest magnitude that a leading integer takes, the largest signed 64-bit number. -/
def integerBound : Nat := Int64.maxValue.toInt.toNat

/-- The integer at the front of a text, after blanks and one sign. Anything after its digits is
ignored, no digit at all reads as zero, and a magnitude above `integerBound` reads as that
bound. -/
def leadingInteger (t : Text) : Int :=
  let magnitude (digits : Text) : Int :=
    (min (digitsValue (digits.takeWhile isDigit)) integerBound : Nat)
  match trim t with
  | '-' :: digits => -magnitude digits
  | '+' :: digits => magnitude digits
  | digits => magnitude digits

/-- The nearest integer between two bounds. -/
def clamp (low high value : Int) : Int := max low (min high value)

/-- Lower-case hexadecimal digits of a natural number, with no leading zero. -/
def ofHex (n : Nat) : Text := Nat.toDigits 16 n

end Keyfob.Text
