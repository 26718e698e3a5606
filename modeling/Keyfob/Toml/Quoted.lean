import Keyfob.Text.Basic

/-!
# Written strings of TOML

Four spellings can hold a text: with and without escapes, on one line or on several. A text gets
the first of them in which it needs no escape, and where there is none, escapes.
-/
namespace Keyfob.TomlString

/-- Whether a character can only be written as an escape. -/
def mustEscape (c : Char) : Bool :=
  (c.toNat < 0x20 && c != '\t' && c != '\n') || c == '\x7f'

/-- The length of the longest run of a character, given the length of the run directly before
the text. -/
def longestRun (mark : Char) (before : Nat) : Text → Nat
  | [] => before
  | c :: cs =>
    if c = mark then longestRun mark (before + 1) cs else max before (longestRun mark 0 cs)

/-- A digit of a number below sixteen, letters being capitals. -/
def hexDigit (n : Nat) : Char := (Nat.digitChar n).toUpper

/-- A character other than a double quote inside a string with escapes. -/
def character (long : Bool) (c : Char) : Text :=
  if c = '\\' then "\\\\"
  else if c = '\t' then "\\t"
  else if c = '\n' then if long then "\n" else "\\n"
  else if c = '\x08' then "\\b"
  else if c = '\x0c' then "\\f"
  else if c = '\r' then "\\r"
  else if mustEscape c then "\\u00".toList ++ [hexDigit (c.toNat / 16), hexDigit (c.toNat % 16)]
  else [c]

/-- A text inside a string with escapes, given how many double quotes stand directly before it.
On several lines two of them may stand together without an escape. -/
def escaped (long : Bool) (before : Nat) : Text → Text
  | [] => []
  | c :: cs =>
    if c = '"' then
      if long ∧ before < 2 then c :: escaped long (before + 1) cs
      else "\\\"" ++ escaped long 0 cs
    else character long c ++ escaped long 0 cs

/-- A text as a string. -/
def write (t : Text) : Text :=
  let controls := t.any mustEscape
  let several := t.contains '\n'
  let slashes := t.contains '\\'
  let double := longestRun '"' 0 t
  let single := longestRun '\'' 0 t
  let lead : Text := if several then "\n" else ""
  let short : Text := "\"" ++ escaped false 0 t ++ "\""
  let long : Text := "\"\"\"" ++ lead ++ escaped true 0 t ++ "\"\"\""
  if !controls ∧ !several ∧ !slashes ∧ double = 0 then short
  else if !controls ∧ !several ∧ single = 0 then "'" ++ t ++ "'"
  else if !controls ∧ !slashes ∧ double ≤ 2 then long
  else if !controls ∧ single ≤ 2 then "'''" ++ lead ++ t ++ "'''"
  else if several then long
  else short

end Keyfob.TomlString
