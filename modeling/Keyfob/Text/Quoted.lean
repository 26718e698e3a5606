import Keyfob.Text.Graphic
import Keyfob.Text.Number

/-!
# Quoted text

The form in which a report shows a text or a character: between quotes, with an escape for
whatever would not be seen as itself.
-/
namespace Keyfob.Text

/-- The escape of a character, where one is needed between the given quotes: the quote, the
backslash, the null, tab and line characters by a backslash and a letter, whatever is not
printable or combines with its neighbour by its code point. -/
def escaped (quote c : Char) : Text :=
  if c = '\x00' then "\\0"
  else if c = '\t' then "\\t"
  else if c = '\r' then "\\r"
  else if c = '\n' then "\\n"
  else if c = '\\' then "\\\\"
  else if c = quote then ['\\', c]
  else if 0x20 ≤ c.toNat && c.toNat < 0x7f then [c]
  else if isPrintable c && !isExtender c then [c]
  else "\\u\x7b" ++ ofHex c.toNat ++ "\x7d"

/-- A text between double quotes. -/
def quoted (t : Text) : Text := '\x22' :: t.flatMap (escaped '\x22') ++ ['\x22']

/-- A character between single quotes. -/
def quotedChar (c : Char) : Text := '\x27' :: escaped '\x27' c ++ ['\x27']

end Keyfob.Text
