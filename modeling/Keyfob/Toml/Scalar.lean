import Keyfob.Toml.Reader

/-!
# Strings, numbers and dates of TOML

Strings stand on one line or, between threefold quotes, on several; between double quotes a
backslash escapes, between single quotes nothing does. Of floating-point numbers and dates only
the spelling is checked, and that the number is finite and the day exists.
-/
namespace Keyfob

namespace TomlReader

/-- Whether a character is a hexadecimal digit. -/
def isHexDigit (c : Char) : Bool :=
  Text.isDigit c || ('a' ≤ c && c ≤ 'f') || ('A' ≤ c && c ≤ 'F')

/-- The value of a digit of any base up to sixteen. -/
def digitValue (c : Char) : Nat := if Text.isDigit c then c.toNat - 48 else c.toLower.toNat - 87

/-- The value of digits in a base. -/
def valueIn (base : Nat) (digits : Text) : Nat :=
  digits.foldl (fun value c => base * value + digitValue c) 0

/-- Take the character that so many hexadecimal digits give the number of. -/
def scalar (count : Nat) : TomlReader Char := do
  let code := valueIn 16 (← exactly count isHexDigit)
  require (code < 0xd800 || (0xe000 ≤ code && code < 0x110000))
  return Char.ofNat code

/-- Take the rest of an escape after its backslash. -/
def escape : TomlReader Char := do
  match ← next with
  | 'b' => return '\x08'
  | 't' => return '\t'
  | 'n' => return '\n'
  | 'f' => return '\x0c'
  | 'r' => return '\r'
  | '"' => return '"'
  | '\\' => return '\\'
  | 'u' => scalar 4
  | 'U' => scalar 8
  | _ => failure

/-- Take the rest of a string on one line between double quotes. -/
def basicString : TomlReader Text :=
  collect do
    match ← next with
    | '"' => return none
    | '\\' => return some (← escape)
    | c => require (isCommentChar c); return some c

/-- Take the rest of a string on one line between single quotes. -/
def literalString : TomlReader Text := do
  let t ← run fun c => isCommentChar c && c != '\''
  mark '\''
  return t

/-- Take a run of quotes inside a string on several lines: the quotes that belong to its text,
unless the string ends here. Up to two quotes may stand before the three that end it. -/
def quotes (quote : Char) : TomlReader (Option Text) := do
  let count := (← run (· == quote)).length
  require (count ≤ 5)
  if count = 3 then return none
  else if count ≤ 2 then return some (List.replicate count quote)
  else fun rest => some (some (List.replicate (count - 3) quote), List.replicate 3 quote ++ rest)

/-- Take the rest of a line break that a backslash takes out of a string, with all blanks and
line ends after it. -/
def gap : TomlReader Unit := do
  blanks
  newline
  discard (collect (optional? ((do discard (someRun isBlank)) <|> newline)))

/-- Take the rest of a string on several lines. -/
def longString (quote : Char) : TomlReader Text := do
  discard (optional? newline)
  let pieces ← collect do
    match ← peek? with
    | some '\n' | some '\r' => newline; return some ['\n']
    | some '\\' =>
      discard next
      if quote == '"' then
        if (← optional? gap).isSome then return some [] else return some [← escape]
      else return some ['\\']
    | some c =>
      if c == quote then quotes quote
      else
        require (isCommentChar c)
        discard next
        return some [c]
    | none => failure
  return pieces.flatten

/-- Take a string. -/
def string : TomlReader Text := do
  if ← piece? "\"\"\"" then longString '"'
  else if ← piece? "'''" then longString '\''
  else if ← piece? "\"" then basicString
  else do mark '\''; literalString

/-- Take digits of a kind, of which neighbours may have an underscore between them. -/
def digits (kind : Char → Bool) : TomlReader Text := do
  let first ← next
  require (kind first)
  let more ← collect (optional? do
    discard (piece? "_")
    let c ← next
    require (kind c)
    return c)
  return first :: more

/-- Take a sign if one stands there: whether it is a minus. -/
def sign : TomlReader Bool := do
  if ← piece? "-" then return true
  discard (piece? "+")
  return false

/-- Take the digits of a decimal whole number: a single zero, or digits that begin with
another. -/
def whole : TomlReader Text := do if ← piece? "0" then return ['0'] else digits Text.isDigit

/-- The number of 64 bits that an integer is, if it is one. -/
def word (n : Int) : TomlReader Int64 := do
  require (Int64.minValue.toInt ≤ n && n ≤ Int64.maxValue.toInt)
  return Int64.ofInt n

/-- Take an integer. -/
def integer : TomlReader Int64 := do
  if ← piece? "0x" then word (valueIn 16 (← digits isHexDigit))
  else if ← piece? "0o" then word (valueIn 8 (← digits fun c => '0' ≤ c && c ≤ '7'))
  else if ← piece? "0b" then word (valueIn 2 (← digits fun c => c == '0' || c == '1'))
  else
    let negative ← sign
    let magnitude : Int := valueIn 10 (← whole)
    word (if negative then -magnitude else magnitude)

/-- Take the exponent of a floating-point number. -/
def exponent : TomlReader Int := do
  let mark ← next
  require (mark == 'e' || mark == 'E')
  let negative ← sign
  let magnitude : Int := valueIn 10 (← digits Text.isDigit)
  return if negative then -magnitude else magnitude

/-- Whether a decimal number is so large that the nearest floating-point number of 64 bits is
infinite. -/
def overflows (mantissa : Nat) (exponent : Int) : Bool :=
  let magnitude := (Nat.toDigits 10 mantissa).length + exponent
  if mantissa = 0 || magnitude < 300 then false
  else if magnitude > 320 then true
  else
    let limit : Nat := Nat.pow 2 1024 - Nat.pow 2 970
    if 0 ≤ exponent then limit ≤ mantissa * Nat.pow 10 exponent.toNat
    else limit * Nat.pow 10 (-exponent).toNat ≤ mantissa

/-- Take a floating-point number. -/
def float : TomlReader Unit := do
  let negative ← sign
  if ← piece? "inf" then return
  if ← piece? "nan" then return
  let front ← whole
  let fraction ← optional? (do mark '.'; digits Text.isDigit)
  let power ← optional? exponent
  require (fraction.isSome || power.isSome)
  let places := fraction.getD []
  require (negative || !overflows (valueIn 10 (front ++ places)) (power.getD 0 - places.length))

/-- Take a number of two digits within bounds. -/
def twoDigits (low high : Nat) : TomlReader Nat := do
  let n := valueIn 10 (← exactly 2 Text.isDigit)
  require (low ≤ n && n ≤ high)
  return n

/-- The days of a month. -/
def daysIn (year month : Nat) : Nat :=
  if month = 2 then
    if year % 4 = 0 ∧ (year % 100 ≠ 0 ∨ year % 400 = 0) then 29 else 28
  else if month = 4 ∨ month = 6 ∨ month = 9 ∨ month = 11 then 30
  else 31

/-- Take a date. -/
def date : TomlReader Unit := do
  let year := valueIn 10 (← exactly 4 Text.isDigit)
  mark '-'
  let month ← twoDigits 1 12
  mark '-'
  discard (twoDigits 1 (daysIn year month))

/-- Take a time of day. -/
def time : TomlReader Unit := do
  discard (twoDigits 0 23)
  mark ':'
  discard (twoDigits 0 59)
  mark ':'
  discard (twoDigits 0 60)
  discard (optional? do
    mark '.'
    discard (someRun Text.isDigit))

/-- Take the offset of a time from universal time. -/
def offset : TomlReader Unit := do
  match ← next with
  | 'Z' | 'z' => pure ()
  | '+' | '-' =>
    discard (twoDigits 0 23)
    mark ':'
    discard (twoDigits 0 59)
  | _ => failure

/-- Take a date, a time, or both. -/
def dateTime : TomlReader Unit :=
  (do
    date
    discard (optional? do
      let between ← next
      require (between == 'T' || between == 't' || between == ' ')
      time
      discard (optional? offset))) <|> time

end TomlReader

end Keyfob
