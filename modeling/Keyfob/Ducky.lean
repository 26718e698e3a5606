import Keyfob.Hid.Device

/-!
# DuckyScript

DuckyScript is a language of one command a line, with no variables: comments, pauses, texts to
type, and key lines such as CTRL ALT DELETE. Two commands do less than their names say: the
default delay is noted and not applied, and a repeat waits for the time that the repeated lines
would leave between them.
-/
namespace Keyfob

/-- A command of DuckyScript. -/
inductive DuckyCommand where
  /-- A comment. -/
  | rem
  /-- Wait for some milliseconds. -/
  | delay (ms : UInt32)
  /-- Note a delay between commands. -/
  | defaultDelay (ms : UInt32)
  /-- Type a text. -/
  | string (text : Text)
  /-- Type a text and Enter. -/
  | stringLine (text : Text)
  /-- Wait as long as some commands leave between them. -/
  | again (count : UInt32)
  /-- Tap a chord, or nothing if its key is unknown. -/
  | keys (chord : Option Chord)
deriving DecidableEq

namespace DuckyCommand

/-- The pause after each text and key line, in milliseconds. -/
def gap : UInt32 := 10

/-- The number at the front of a text, cut down to an unsigned 32-bit word. -/
def number (t : Text) : UInt32 :=
  UInt32.ofNat (Text.clamp 0 4294967295 (Text.leadingInteger t)).toNat

/-- The key that a word names; a letter alone is taken without Shift in either case. -/
def keyNamed? (word : Text) : Option Chord :=
  match word with
  | [c] => Chord.ofKeyName? (if Text.isLetter c then [c.toLower] else word)
  | _ => Chord.ofKeyName? word

/-- The chord of a key line: its last word names the key, and the known words before it hold
modifiers. -/
def chordOf? (words : List Text) : Option Chord :=
  match words.getLast? with
  | none => none
  | some key =>
    (keyNamed? key).map fun chord =>
      words.dropLast.foldl (fun chord word => chord.holding ((Chord.modifier? word).getD 0)) chord

/-- The command of a line that is not blank. -/
def ofLine (line : Text) : DuckyCommand :=
  let (word, rest) := (Text.cutFirst? ' ' line).getD (line, [])
  match String.ofList word with
  | "REM" => rem
  | "DELAY" => delay (number rest)
  | "DEFAULT_DELAY" => defaultDelay (number rest)
  | "DEFAULTDELAY" => defaultDelay (number rest)
  | "STRING" => string rest
  | "STRINGLN" => stringLine rest
  | "REPEAT" => again (number rest)
  | _ => keys (chordOf? ((Text.splitAll ' ' line).filter fun word => !word.isEmpty))

/-- The command of a line, if it is not blank. -/
def parse? (line : Text) : Option DuckyCommand :=
  if line.trim.isEmpty then none else some (ofLine line.trim)

/-- A command as it is shown. -/
def text : DuckyCommand → Text
  | rem => "REM"
  | delay ms => "DELAY " ++ Text.ofNat ms.toNat
  | defaultDelay ms => "DEFAULT_DELAY " ++ Text.ofNat ms.toNat
  | string t => "STRING " ++ t
  | stringLine t => "STRINGLN " ++ t
  | again count => "REPEAT " ++ Text.ofNat count.toNat
  | keys (some chord) => chord.text
  | keys none => "(unknown key)"

/-- The time that repeated lines would leave between them, at most the longest pause there
is. -/
def repeatTime (count : UInt32) : UInt32 := UInt32.ofNat (min (count.toNat * 10) 4294967295)

/-- The actions of a command. -/
def actions : DuckyCommand → List Action
  | rem => []
  | delay ms => Action.pause ms
  | defaultDelay _ => []
  | string t => Action.typeText 0 t ++ [.delay gap]
  | stringLine t => Action.typeText 0 t ++ [.type '\n', .delay gap]
  | again count => Action.pause (repeatTime count)
  | keys (some chord) => Action.tap chord ++ [.delay gap]
  | keys none => []

end DuckyCommand

/-- An interpreter of DuckyScript. -/
structure Ducky where
  /-- The default delay that was noted last, in milliseconds. -/
  defaultDelay : UInt32 := 0
deriving DecidableEq

namespace Ducky

/-- The interpreter after a command. -/
def noting (ducky : Ducky) : DuckyCommand → Ducky
  | .defaultDelay ms => ⟨ms⟩
  | _ => ducky

/-- What one line does. -/
def next : Interpreter Ducky Text := fun ducky line =>
  match DuckyCommand.parse? line with
  | none => (ducky, .none)
  | some command => (ducky.noting command, .once command.actions)

/-- Run a script on a device. -/
def run {δ : Type} [Device δ] (ducky : Ducky) (script : Text) (device : δ) :
    Except HidError Unit × Ducky × δ :=
  drive next ducky script.lines device

end Ducky

end Keyfob
