/-!
# Text

Text is a list of Unicode characters. This module holds the operations on text that every
notation of the library is read with: trimming, cutting at a character, lines, words, letter
case. Each is a recursion on the list, so that a law about a reader is an induction on what it
reads.
-/
namespace Keyfob

/-- A list of Unicode characters. -/
abbrev Text := List Char

/-- A string literal stands for its characters where text is expected. -/
instance : Coe String Text := ⟨String.toList⟩

namespace Text

/-- The characters of the Unicode property `White_Space`. -/
def isBlank (c : Char) : Bool :=
  let code := c.toNat
  (0x09 ≤ code && code ≤ 0x0d) || code == 0x20 || code == 0x85 || code == 0xa0 ||
    code == 0x1680 || (0x2000 ≤ code && code ≤ 0x200a) || code == 0x2028 || code == 0x2029 ||
    code == 0x202f || code == 0x205f || code == 0x3000

/-- Text without the blanks at its front. -/
def trimStart (t : Text) : Text := t.dropWhile isBlank

/-- Text without the blanks at its end. -/
def trimEnd (t : Text) : Text := (t.reverse.dropWhile isBlank).reverse

/-- Text without the blanks at both ends. -/
def trim (t : Text) : Text := trimEnd (trimStart t)

/-- The ASCII letters of a text in capitals, all other characters kept. -/
def upper (t : Text) : Text := t.map Char.toUpper

/-- The ASCII letters of a text in small letters, all other characters kept. -/
def lower (t : Text) : Text := t.map Char.toLower

/-- Equality up to the case of ASCII letters. -/
def sameLetters (s t : Text) : Bool := lower s == lower t

/-- The rest of a text after a given beginning, if it begins so. -/
def after? : Text → Text → Option Text
  | [], t => some t
  | _ :: _, [] => none
  | p :: ps, c :: cs => if p = c then after? ps cs else none

/-- The front of a text before a given ending, if it ends so. -/
def before? (ending t : Text) : Option Text :=
  (after? ending.reverse t.reverse).map List.reverse

/-- Whether a text begins with another. -/
def beginsWith (t start : Text) : Bool := (after? start t).isSome

/-- Whether a text ends with another. -/
def endsWith (t ending : Text) : Bool := (before? ending t).isSome

/-- The parts of a text before and after the first place where a piece stands in it. -/
def cutAt? (piece : Text) : Text → Option (Text × Text)
  | [] => if piece.isEmpty then some ([], []) else none
  | c :: cs =>
    match after? piece (c :: cs) with
    | some rest => some ([], rest)
    | none => (cutAt? piece cs).map fun (front, rest) => (c :: front, rest)

/-- Whether a piece stands anywhere in a text. -/
def has (t piece : Text) : Bool := (cutAt? piece t).isSome

/-- The parts of a text before and after the first of a character. -/
def cutFirst? (sep : Char) : Text → Option (Text × Text)
  | [] => none
  | c :: cs =>
    if c = sep then some ([], cs)
    else (cutFirst? sep cs).map fun (front, rest) => (c :: front, rest)

/-- The parts of a text before and after the last of a character. -/
def cutLast? (sep : Char) (t : Text) : Option (Text × Text) :=
  (cutFirst? sep t.reverse).map fun (back, front) => (front.reverse, back.reverse)

/-- The parts of a text between the occurrences of a character, one more than there are of
those. -/
def splitAll (sep : Char) : Text → List Text
  | [] => [[]]
  | c :: cs =>
    if c = sep then [] :: splitAll sep cs
    else
      match splitAll sep cs with
      | [] => [[c]]
      | part :: parts => (c :: part) :: parts

/-- The lines of a text: each ends at a line feed, with the carriage return directly before
it, and the last may lack its end. -/
def lines : Text → List Text
  | [] => []
  | '\n' :: cs => [] :: lines cs
  | '\r' :: '\n' :: cs => [] :: lines cs
  | c :: cs =>
    match lines cs with
    | [] => [[c]]
    | line :: rest => (c :: line) :: rest

/-- The maximal runs of characters that are not blank. -/
def words : Text → List Text
  | [] => []
  | c :: cs =>
    if isBlank c then words cs
    else
      match cs with
      | [] => [[c]]
      | d :: _ =>
        if isBlank d then [c] :: words cs
        else
          match words cs with
          | [] => [[c]]
          | word :: rest => (c :: word) :: rest

/-- Texts one after another with a piece between neighbours. -/
def join (piece : Text) : List Text → Text
  | [] => []
  | [t] => t
  | t :: ts => t ++ piece ++ join piece ts

/-- Whether a character is an ASCII digit. -/
def isDigit (c : Char) : Bool := '0' ≤ c && c ≤ '9'

/-- The value of an ASCII digit, and of other characters something else. -/
def digitValue (c : Char) : Nat := c.toNat - 48

/-- Whether a character is an ASCII letter. -/
def isLetter (c : Char) : Bool := ('a' ≤ c && c ≤ 'z') || ('A' ≤ c && c ≤ 'Z')

/-- Whether a character may begin a variable name. -/
def startsName (c : Char) : Bool := isLetter c || c == '_'

/-- Whether a character may stand inside a variable name. -/
def continuesName (c : Char) : Bool := isLetter c || isDigit c || c == '_'

/-- Whether a text is a variable name: an ASCII letter or underscore, then letters, digits and
underscores. -/
def isName : Text → Bool
  | [] => false
  | c :: cs => startsName c && cs.all continuesName

/-- Whether a character is a control character of ASCII or of the block after it. -/
def isControl (c : Char) : Bool := c.toNat < 0x20 || (0x7f ≤ c.toNat && c.toNat ≤ 0x9f)

/-- The order of texts by the code points at the first place where they differ, a beginning
of a text coming before it. -/
def compare : Text → Text → Ordering
  | [], [] => .eq
  | [], _ :: _ => .lt
  | _ :: _, [] => .gt
  | c :: cs, d :: ds =>
    if c.toNat < d.toNat then .lt else if d.toNat < c.toNat then .gt else compare cs ds

/-- Dropping a run of characters leaves no more than there were. -/
theorem length_dropWhile_le (p : Char → Bool) (t : Text) :
    (t.dropWhile p).length ≤ t.length := by
  induction t with
  | nil => simp
  | cons c cs ih =>
    rw [List.dropWhile_cons]
    split
    · exact Nat.le_succ_of_le ih
    · exact Nat.le_refl _

/-- Trimming leaves no more than there was. -/
theorem length_trim_le (t : Text) : (trim t).length ≤ t.length := by
  have start := length_dropWhile_le isBlank t
  have finish := length_dropWhile_le isBlank (t.dropWhile isBlank).reverse
  simp only [List.length_reverse] at finish
  simp only [trim, trimEnd, trimStart, List.length_reverse]
  omega

/-- Taking a piece off the front of a text leaves the rest. -/
theorem length_of_after? {lead t rest : Text} (found : after? lead t = some rest) :
    t.length = lead.length + rest.length := by
  induction lead generalizing t with
  | nil =>
    simp only [after?, Option.some.injEq] at found
    simp [found]
  | cons p ps ih =>
    cases t with
    | nil => simp [after?] at found
    | cons c cs =>
      by_cases same : p = c
      · simp only [after?, same, ↓reduceIte] at found
        have := ih found
        simp only [List.length_cons]
        omega
      · simp [after?, same] at found

end Text

end Keyfob
