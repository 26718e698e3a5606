import Keyfob.Text.Number

/-!
# Colours on a terminal

Text is coloured by a sequence before it that chooses a colour of the palette, and one after it
that takes the choice back.
-/
namespace Keyfob.Console

/-- A colour of the palette. -/
inductive Paint where
  /-- Dark grey. -/
  | grey
  /-- Bright red. -/
  | red
  /-- Bright green. -/
  | green
  /-- Bright yellow. -/
  | yellow
  /-- Bright magenta. -/
  | magenta
  /-- Bright cyan. -/
  | cyan
  /-- Bright white. -/
  | white
deriving DecidableEq

namespace Paint

/-- The number of a colour in the palette. -/
def index : Paint → Nat
  | grey => 8
  | red => 9
  | green => 10
  | yellow => 11
  | magenta => 13
  | cyan => 14
  | white => 15

/-- The sequence that chooses a colour. -/
def opening (paint : Paint) : Text := "\x1b[38;5;" ++ Text.ofNat paint.index ++ "m"

/-- A text in a colour. -/
def apply (paint : Paint) (t : Text) : Text := paint.opening ++ t ++ "\x1b[39m"

end Paint

/-- A text in bold type. -/
def bold (t : Text) : Text := "\x1b[1m" ++ t ++ "\x1b[0m"

/-- A text in bold type and a colour. -/
def boldIn (paint : Paint) (t : Text) : Text := paint.opening ++ bold t

/-- A text with blanks before it, up to a width. -/
def padLeft (width : Nat) (t : Text) : Text := List.replicate (width - t.length) ' ' ++ t

/-- A text with blanks after it, up to a width. -/
def padRight (width : Nat) (t : Text) : Text := t ++ List.replicate (width - t.length) ' '

end Keyfob.Console
