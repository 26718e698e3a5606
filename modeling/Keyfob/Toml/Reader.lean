import Keyfob.Text.Number

/-!
# Reading TOML from the front of a text

A reader takes something off the front of a text or refuses it. `collect` repeats a reader
until it says that it has come to an end; as each round takes at least one character, the
length of the text bounds the rounds.
-/
namespace Keyfob

/-- What takes something off the front of a text, or refuses it. -/
abbrev TomlReader : Type → Type := StateT Text Option

namespace TomlReader

/-- Refuse unless something holds. -/
def require (holds : Bool) : TomlReader Unit := if holds then pure () else failure

/-- The next character, which stays. -/
def peek? : TomlReader (Option Char) := fun t => some (t.head?, t)

/-- Take one character. -/
def next : TomlReader Char
  | [] => none
  | c :: cs => some (c, cs)

/-- Take a given character. -/
def mark (c : Char) : TomlReader Unit := do require ((← next) == c)

/-- Take a given piece. -/
def piece (t : Text) : TomlReader Unit :=
  fun rest => (Text.after? t rest).map fun rest => ((), rest)

/-- Take a given piece if it stands there: whether it did. -/
def piece? (t : Text) : TomlReader Bool := (do piece t; pure true) <|> pure false

/-- Take the longest run of characters of a kind. -/
def run (kind : Char → Bool) : TomlReader Text := fun t => some (t.takeWhile kind, t.dropWhile kind)

/-- Take the longest run of characters of a kind, which has at least one. -/
def someRun (kind : Char → Bool) : TomlReader Text := do
  let taken ← run kind
  require !taken.isEmpty
  return taken

/-- Take just so many characters of a kind. -/
def exactly : Nat → (Char → Bool) → TomlReader Text
  | 0, _ => pure []
  | count + 1, kind => do
    let c ← next
    require (kind c)
    return c :: (← exactly count kind)

/-- Take something if it stands there. -/
def optional? {α : Type} (reader : TomlReader α) : TomlReader (Option α) :=
  (some <$> reader) <|> pure none

/-- Repeat a reader a bounded number of times, up to where it says that it has come to an
end. -/
def collectWithin {α : Type} (reader : TomlReader (Option α)) : Nat → TomlReader (List α)
  | 0 => failure
  | rounds + 1 => do
    match ← reader with
    | none => return []
    | some a => return a :: (← collectWithin reader rounds)

/-- Repeat a reader up to where it says that it has come to an end. -/
def collect {α : Type} (reader : TomlReader (Option α)) : TomlReader (List α) := fun t =>
  collectWithin reader (t.length + 1) t

/-- Whether a character is a blank within a line. -/
def isBlank (c : Char) : Bool := c == ' ' || c == '\t'

/-- Whether a character may stand in a comment: no control character but the tab. -/
def isCommentChar (c : Char) : Bool := c == '\t' || (0x20 ≤ c.toNat && c.toNat != 0x7f)

/-- Pass over blanks. -/
def blanks : TomlReader Unit := do discard (run isBlank)

/-- Take the end of a line. -/
def newline : TomlReader Unit := piece "\n" <|> piece "\r\n"

/-- Take a comment, up to the end of its line. -/
def comment : TomlReader Unit := do
  mark '#'
  discard (run isCommentChar)

/-- Take what may follow on a line, and the end of the line or of the text. -/
def lineEnd : TomlReader Unit := do
  blanks
  discard (optional? comment)
  match ← peek? with
  | none => pure ()
  | some _ => newline

/-- Pass over blanks, line ends and comments. -/
def filler : TomlReader Unit :=
  discard (collect do
    match ← peek? with
    | some ' ' | some '\t' => blanks; return some ()
    | some '#' => comment; newline; return some ()
    | some '\n' | some '\r' => newline; return some ()
    | _ => return none)

end TomlReader

end Keyfob
