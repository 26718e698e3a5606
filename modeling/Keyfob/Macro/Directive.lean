import Keyfob.Hid.Action
import Keyfob.Macro.Scanner

/-!
# Directives

What a directive of macro text says: pauses, typing speed, chords, text, and commands for the
mouse, the gamepad and the media keys. Reading never fails. Numbers are read leniently and cut
down to their range, a command that makes no sense is kept as it was written and does nothing,
and a directive of no known kind is typed back. `Directive.text` writes a directive in its
canonical form.
-/
namespace Keyfob

/-- What is done with a mouse button. -/
inductive ButtonUse where
  | down
  | up
  | click
deriving DecidableEq

namespace ButtonUse

/-- The word that asks for a use. -/
def word : ButtonUse → Text
  | down => "DOWN"
  | up => "UP"
  | click => "CLICK"

end ButtonUse

/-- A command for the mouse. -/
inductive MouseCommand where
  /-- Sweep into the corner. -/
  | reset
  /-- Move to a place. -/
  | moveTo (target : Vector2)
  /-- Move by a displacement. -/
  | moveBy (displacement : Vector2)
  /-- Use a button. -/
  | button (use : ButtonUse) (button : MouseButton)
  /-- Turn the wheel by some clicks. -/
  | scroll (clicks : Int)
  /-- Turn the wheel sideways by some clicks. -/
  | panning (clicks : Int)
  /-- Anything else, which does nothing. -/
  | invalid (args : Text)
deriving DecidableEq

/-- A command for the gamepad. -/
inductive PadCommand where
  /-- Hold a button. -/
  | press (button : PadButton)
  /-- Let a button go. -/
  | release (button : PadButton)
  /-- Set the directional pad. -/
  | hat (hat : Hat)
  /-- Set the left or the right stick. -/
  | stick (left : Bool) (x y : Int8)
  /-- Set the left or the right trigger. -/
  | trigger (left : Bool) (value : Int8)
  /-- Anything else, which does nothing. -/
  | invalid (args : Text)
deriving DecidableEq

/-- A command for the media keys. -/
inductive AudioCommand where
  /-- Tap a key a number of times. -/
  | tap (key : MediaKey) (times : Nat)
  /-- Anything else, which does nothing. -/
  | invalid (args : Text)
deriving DecidableEq

/-- What a directive of macro text says. -/
inductive Directive where
  /-- Wait for some milliseconds. -/
  | delay (ms : UInt32)
  /-- Pause after each character from here on. -/
  | speed (ms : UInt32)
  /-- Tap the chord that is written. -/
  | key (spec : Text)
  /-- Type a text. -/
  | text (text : Text)
  /-- Use the mouse. -/
  | mouse (command : MouseCommand)
  /-- Use the gamepad. -/
  | gamepad (command : PadCommand)
  /-- Use the media keys. -/
  | audio (command : AudioCommand)
  /-- No directive, typed back with its braces. -/
  | unknown (body : Text)
deriving DecidableEq

/-- The longest pause of one directive, in milliseconds. -/
def longestDelay : Nat := 5000

/-- The slowest typing, in milliseconds for each character. -/
def slowestSpeed : Nat := 200

/-- The most taps of one directive. -/
def mostTaps : Nat := 10

/-- The number at the front of a text, cut down to between zero and a bound. -/
def boundedNumber (bound : Nat) (t : Text) : Nat :=
  (Text.clamp 0 bound (Text.leadingInteger t)).toNat

/-- The number at the front of a text, cut down to the range of a signed 32-bit word. -/
def coordinate (t : Text) : Int :=
  Text.clamp (-2147483648) 2147483647 (Text.leadingInteger t)

/-- The number at the front of a text, cut down to what an axis reports. -/
def deflection (t : Text) : Int8 := Int8.ofInt (Text.clamp (-127) 127 (Text.leadingInteger t))

namespace MouseCommand

/-- Two coordinates with a comma between them. -/
def pair? (args : Text) : Option Vector2 :=
  (Text.cutFirst? ',' args).map fun (x, y) => ⟨coordinate x, coordinate y⟩

/-- The button that a text names, the left one if it names none. -/
def buttonNamed? (name : Text) : Option MouseButton :=
  if name.trim.isEmpty then some .left else MouseButton.parse? name

/-- The command of a verb and what follows it, if there is one. -/
def ofVerb? (verb rest : Text) : Option MouseCommand :=
  match String.ofList verb with
  | "RESET" => some reset
  | "MOVE" => (pair? rest).map moveTo
  | "MOVE_REL" => (pair? rest).map moveBy
  | "DOWN" => (buttonNamed? rest).map (button .down)
  | "UP" => (buttonNamed? rest).map (button .up)
  | "CLICK" => (buttonNamed? rest).map (button .click)
  | "SCROLL" => some (scroll (coordinate rest))
  | "HSCROLL" => some (panning (coordinate rest))
  | _ => none

/-- Read a command: a verb in any letter case, and what follows its colon. -/
def parse (args : Text) : MouseCommand :=
  let (verb, rest) := (Text.cutFirst? ':' args).getD (args, [])
  (ofVerb? verb.trim.upper rest).getD (invalid args)

/-- Two coordinates as they are written. -/
def pairText (vector : Vector2) : Text := Text.ofInt vector.x ++ "," ++ Text.ofInt vector.y

/-- A command as it is written. -/
def text : MouseCommand → Text
  | reset => "RESET"
  | moveTo target => "MOVE:" ++ pairText target
  | moveBy displacement => "MOVE_REL:" ++ pairText displacement
  | button use held => use.word ++ ":" ++ held.name.upper
  | scroll clicks => "SCROLL:" ++ Text.ofInt clicks
  | panning clicks => "HSCROLL:" ++ Text.ofInt clicks
  | invalid args => args

end MouseCommand

namespace PadCommand

/-- The words of a command, which blanks, colons and commas divide. -/
def words (args : Text) : List Text :=
  Text.words (args.map fun c => if c = ':' ∨ c = ',' then ' ' else c)

/-- The command of a verb and the words after it, if there is one. Numbers that are missing
are zero. -/
def ofVerb? (verb : Text) (args : List Text) : Option PadCommand :=
  let number (place : Nat) : Int8 := deflection (args[place]?.getD "0")
  match String.ofList verb with
  | "PRESS" => (args.head?.bind PadButton.parse?).map press
  | "RELEASE" => (args.head?.bind PadButton.parse?).map release
  | "DPAD" => (args.head?.bind Hat.parse?).map hat
  | "HAT" => (args.head?.bind Hat.parse?).map hat
  | "LS" => some (stick true (number 0) (number 1))
  | "RS" => some (stick false (number 0) (number 1))
  | "LT" => some (trigger true (number 0))
  | "RT" => some (trigger false (number 0))
  | _ => none

/-- Read a command: a verb in any letter case and its arguments. -/
def parse (args : Text) : PadCommand :=
  match words args with
  | [] => invalid args
  | verb :: rest => (ofVerb? verb.upper rest).getD (invalid args)

/-- A command as it is written. -/
def text : PadCommand → Text
  | press button => "PRESS " ++ button.name
  | release button => "RELEASE " ++ button.name
  | hat position => "DPAD " ++ position.name.upper
  | stick left x y =>
    (if left then "LS " else "RS ") ++ Text.ofInt x.toInt ++ " " ++ Text.ofInt y.toInt
  | trigger left value => (if left then "LT " else "RT ") ++ Text.ofInt value.toInt
  | invalid args => args

end PadCommand

namespace AudioCommand

/-- How often a key is tapped: as often as is asked for, within bounds, where repeating the tap
goes on changing the volume, and else once. -/
def times (key : MediaKey) (count : Option Text) : Nat :=
  match count with
  | some t =>
    if key.repeats then (Text.clamp 1 mostTaps (Text.leadingInteger t)).toNat else 1
  | none => 1

/-- Read a command: a media key and, after a colon, how often it is tapped. -/
def parse (args : Text) : AudioCommand :=
  let (verb, count) := match Text.cutFirst? ':' args with
    | some (verb, count) => (verb, some count)
    | none => (args, none)
  match MediaKey.parse? verb with
  | some key => tap key (times key count)
  | none => invalid args

/-- A command as it is written. -/
def text : AudioCommand → Text
  | tap key times => if times > 1 then key.word ++ ":" ++ Text.ofNat times else key.word
  | invalid args => args

end AudioCommand

namespace Directive

/-- The directive of a kind and what follows its colon, if the kind is known. -/
def ofKind? (kind args : Text) : Option Directive :=
  match String.ofList kind with
  | "DELAY" => some (delay (UInt32.ofNat (boundedNumber longestDelay args)))
  | "SPEED" => some (speed (UInt32.ofNat (boundedNumber slowestSpeed args)))
  | "KEY" => some (key args)
  | "TEXT" => some (text args)
  | "MOUSE" => some (mouse (.parse args))
  | "GAMEPAD" => some (gamepad (.parse args))
  | "AUDIO" => some (audio (.parse args))
  | _ => none

/-- Read what stands between the braces of a directive: its kind in capitals, a colon, and its
arguments. -/
def parse (body : Text) : Directive :=
  match Text.cutFirst? ':' body with
  | none => unknown body
  | some (kind, args) => (ofKind? kind args).getD (unknown body)

/-- What stands between the braces of a directive. -/
def body : Directive → Text
  | delay ms => "DELAY:" ++ Text.ofNat ms.toNat
  | speed ms => "SPEED:" ++ Text.ofNat ms.toNat
  | key spec => "KEY:" ++ spec
  | text t => "TEXT:" ++ t
  | mouse command => "MOUSE:" ++ command.text
  | gamepad command => "GAMEPAD:" ++ command.text
  | audio command => "AUDIO:" ++ command.text
  | unknown body => body

/-- A directive as it is written. -/
def written (directive : Directive) : Text := (Segment.directive directive.body).written

end Directive

end Keyfob
