import Keyfob.Text.Basic

/-!
# Dialects

A macro file is macro text, DuckyScript or a script, and says nowhere which. `Dialect.detect`
guesses from words that stand in it. Scripts are recognised in any letter case, and for this a
letter counts as the capitals that it is written with, which for some letters outside ASCII are
ASCII letters (`capitals`).
-/
namespace Keyfob

/-- What a macro file is written in. -/
inductive Dialect where
  /-- A script. -/
  | script
  /-- DuckyScript. -/
  | ducky
  /-- Macro text. -/
  | tokens
deriving DecidableEq

namespace Dialect

/-- The name under which a dialect is shown. -/
def name : Dialect → Text
  | script => "advanced script"
  | ducky => "DuckyScript"
  | tokens => "token macro"

/-- The letters outside ASCII that have ASCII letters among their capitals, with those. -/
def specialCapitals : List (Char × String) :=
  [('\u00df', "SS"), ('\u0131', "I"), ('\u0149', "\u02bcN"), ('\u017f', "S"),
   ('\u01f0', "J\u030c"), ('\u1e96', "H\u0331"), ('\u1e97', "T\u0308"), ('\u1e98', "W\u030a"),
   ('\u1e99', "Y\u030a"), ('\u1e9a', "A\u02be"), ('\ufb00', "FF"), ('\ufb01', "FI"),
   ('\ufb02', "FL"), ('\ufb03', "FFI"), ('\ufb04', "FFL"), ('\ufb05', "ST"), ('\ufb06', "ST")]

/-- The capitals of a text, as far as they are ASCII letters. -/
def capitals (t : Text) : Text :=
  t.flatMap fun c =>
    if c.toNat < 0x80 then [c.toUpper]
    else
      match specialCapitals.lookup c with
      | some capital => capital.toList
      | none => [c]

/-- The words by which a script is known wherever they stand. -/
def scriptMarks : List Text := ["VAR ", "LOOP ", "FOR ", "WAIT(", "SET_VAL("]

/-- Whether a text may be a script: it holds one of the marks, a line of it begins with a
condition, or an equals sign stands in it after its first character. -/
def isScript (content : Text) : Bool :=
  let marked := capitals content
  scriptMarks.any marked.has ||
    marked.lines.any (fun line => line.trimStart.beginsWith "IF ") ||
    match Text.cutFirst? '=' content with
    | some (front, _) => !front.isEmpty
    | none => false

/-- The words by which DuckyScript is known. -/
def duckyMarks : List Text := ["REM ", "DELAY ", "STRING ", "GUI ", "CTRL ", "ALT ", "ENTER"]

/-- Whether a text may be DuckyScript. -/
def isDucky (content : Text) : Bool := duckyMarks.any content.has

/-- What a text is written in: a script if it may be one, else DuckyScript if it may be that and
holds no directive, else macro text. -/
def detect (content : Text) : Dialect :=
  if isScript content then script
  else if !content.has "\x7b\x7b" && isDucky content then ducky
  else tokens

end Dialect

end Keyfob
