import Keyfob.Text.Number

/-!
# Tokens of JSON

A scanner takes the characters of a JSON text one by one and keeps what it has of the token it
is in. A string may escape halves of a surrogate pair; its text is put together when the string
ends, and a string whose halves do not pair spells no text. Numbers and words are the longest
runs of characters that neither separate tokens nor begin one.
-/
namespace Keyfob

/-- A unit of a string: a character, or the number in a Unicode escape. -/
inductive JsonUnit where
  /-- A character. -/
  | char (c : Char)
  /-- A number of four hexadecimal digits. -/
  | escaped (code : Nat)
deriving DecidableEq

namespace JsonUnit

/-- Whether a number is the first half of a surrogate pair. -/
def isHigh (code : Nat) : Bool := 0xd800 ≤ code && code < 0xdc00

/-- Whether a number is the second half of a surrogate pair. -/
def isLow (code : Nat) : Bool := 0xdc00 ≤ code && code < 0xe000

/-- The text that units spell, if every half of a surrogate pair has the other half. -/
def text? : List JsonUnit → Option Text
  | [] => some []
  | char c :: rest => (text? rest).map (c :: ·)
  | escaped code :: rest =>
    if isHigh code then
      match rest with
      | escaped low :: rest =>
        if isLow low then
          (text? rest).map (Char.ofNat (0x10000 + (code - 0xd800) * 1024 + (low - 0xdc00)) :: ·)
        else none
      | _ => none
    else if isLow code then none
    else (text? rest).map (Char.ofNat code :: ·)

end JsonUnit

/-- A token of JSON. -/
inductive JsonToken where
  /-- The beginning of an object. -/
  | openObject
  /-- The end of an object. -/
  | closeObject
  /-- The beginning of an array. -/
  | openArray
  /-- The end of an array. -/
  | closeArray
  /-- What stands between a key and its value. -/
  | colon
  /-- What stands between neighbours. -/
  | comma
  /-- A string, with the text that it spells if it spells one. -/
  | string (t : Option Text)
  /-- A number or a word. -/
  | bare (t : Text)
deriving DecidableEq

/-- What a scanner has of the token it is in. -/
inductive JsonScanner where
  /-- Nothing. -/
  | between
  /-- The characters of a number or word, the latest first. -/
  | bare (latest : Text)
  /-- The units of a string, the latest first. -/
  | string (latest : List JsonUnit)
  /-- The units of a string and the beginning of an escape. -/
  | escape (latest : List JsonUnit)
  /-- The units of a string, and how many digits of a Unicode escape are missing and the value
  of those that are not. -/
  | digits (latest : List JsonUnit) (missing value : Nat)
deriving DecidableEq

namespace JsonScanner

/-- Whether a character separates tokens. -/
def isBlank (c : Char) : Bool := c == ' ' || c == '\t' || c == '\n' || c == '\r'

/-- The token that a character is on its own. -/
def mark? (c : Char) : Option JsonToken :=
  if c = '{' then some .openObject
  else if c = '}' then some .closeObject
  else if c = '[' then some .openArray
  else if c = ']' then some .closeArray
  else if c = ':' then some .colon
  else if c = ',' then some .comma
  else none

/-- The character that a one-letter escape means. -/
def escaped? (c : Char) : Option Char :=
  if c = '"' ∨ c = '\\' ∨ c = '/' then some c
  else if c = 'b' then some '\x08'
  else if c = 'f' then some '\x0c'
  else if c = 'n' then some '\n'
  else if c = 'r' then some '\r'
  else if c = 't' then some '\t'
  else none

/-- The value of a hexadecimal digit. -/
def hexValue? (c : Char) : Option Nat :=
  if Text.isDigit c then some (c.toNat - 48)
  else if 'a' ≤ c ∧ c ≤ 'f' then some (c.toNat - 87)
  else if 'A' ≤ c ∧ c ≤ 'F' then some (c.toNat - 55)
  else none

/-- Begin a token with a character: what the scanner has then, and the token if it is whole. -/
def start (c : Char) : JsonScanner × List JsonToken :=
  if isBlank c then (between, [])
  else if c = '"' then (string [], [])
  else
    match mark? c with
    | some token => (between, [token])
    | none => (bare [c], [])

/-- Take a character: what the scanner has then, and the tokens that end. -/
def feed : JsonScanner → Char → Option (JsonScanner × List JsonToken)
  | between, c => some (start c)
  | bare latest, c =>
    match start c with
    | (bare _, _) => some (bare (c :: latest), [])
    | (next, tokens) => some (next, .bare latest.reverse :: tokens)
  | string latest, c =>
    if c = '"' then some (between, [.string (JsonUnit.text? latest.reverse)])
    else if c = '\\' then some (escape latest, [])
    else if c.toNat < 0x20 then none
    else some (string (.char c :: latest), [])
  | escape latest, c =>
    if c = 'u' then some (digits latest 4 0, [])
    else (escaped? c).map fun c => (string (.char c :: latest), [])
  | digits latest missing value, c =>
    (hexValue? c).map fun digit =>
      if missing ≤ 1 then (string (.escaped (16 * value + digit) :: latest), [])
      else (digits latest (missing - 1) (16 * value + digit), [])

/-- The tokens that end with the text. -/
def finish : JsonScanner → Option (List JsonToken)
  | between => some []
  | bare latest => some [.bare latest.reverse]
  | _ => none

/-- The tokens of the rest of a text. -/
def scanFrom : JsonScanner → Text → Option (List JsonToken)
  | scanner, [] => scanner.finish
  | scanner, c :: cs => do
    let (scanner, tokens) ← scanner.feed c
    let later ← scanFrom scanner cs
    return tokens ++ later

end JsonScanner

/-- The tokens of a text, if it is made of tokens. -/
def JsonToken.scan? (t : Text) : Option (List JsonToken) := JsonScanner.between.scanFrom t

end Keyfob
