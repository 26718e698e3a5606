import Keyfob.Hid.Chord
import Keyfob.Hid.Gamepad
import Keyfob.Hid.Media
import Keyfob.Hid.Mouse
import Keyfob.Text.Quoted

/-!
# Actions

Whatever is done to the host is a list of actions: key presses, typed characters, motion,
gamepad changes, media keys, and the pauses between them. This module holds the actions, their
display text, and the short sequences that more than one interpreter uses: tapping a chord
(`Action.tap`), tapping a media key, typing a text. What is to be done many times over is a
burst, which is never written out as a list.
-/
namespace Keyfob

/-- One thing done to the host, or a pause. -/
inductive Action where
  /-- Press a key and hold it. -/
  | press (code : Usage)
  /-- Let a key go. -/
  | release (code : Usage)
  /-- Let go of every key and mouse button. -/
  | releaseAll
  /-- Type one character, with Shift where its key takes it. -/
  | type (c : Char)
  /-- Move the pointer. -/
  | move (step : MotionStep)
  /-- Press a mouse button or let it go. -/
  | mouseButton (button : MouseButton) (down : Bool)
  /-- Turn the wheel upwards and sideways. -/
  | scroll (vertical horizontal : Int8)
  /-- Press a gamepad button or let it go. -/
  | padButton (button : PadButton) (down : Bool)
  /-- Set an axis of the gamepad. -/
  | padAxis (axis : PadAxis) (value : Int8)
  /-- Set the directional pad. -/
  | padHat (hat : Hat)
  /-- Press a media key or let it go. -/
  | media (key : MediaKey) (down : Bool)
  /-- Wait for some milliseconds. -/
  | delay (ms : UInt32)
deriving DecidableEq

namespace Action

/-- How long a tapped key is held down, in milliseconds. -/
def holdTime : UInt32 := 50

/-- The pause after each click of the mouse wheel, in milliseconds. -/
def wheelPause : UInt32 := 10

/-- The arrow that shows whether something goes down or up. -/
def arrow (down : Bool) : Text := if down then "↓" else "↑"

/-- The text that shows an action. -/
def text : Action → Text
  | press code => "↓" ++ Usage.keyName code
  | release code => "↑" ++ Usage.keyName code
  | releaseAll => "↑*"
  | type c => "type " ++ Text.quotedChar c
  | move step => "mouse " ++ Text.ofSigned step.dx.toInt ++ " " ++ Text.ofSigned step.dy.toInt
  | mouseButton button down => arrow down ++ "mouse " ++ button.name
  | scroll vertical horizontal =>
    "scroll " ++ Text.ofSigned vertical.toInt ++ " " ++ Text.ofSigned horizontal.toInt
  | padButton button down => arrow down ++ "pad " ++ button.name
  | padAxis axis value => "pad " ++ axis.name ++ "=" ++ Text.ofInt value.toInt
  | padHat hat => "dpad " ++ hat.name
  | media key down => arrow down ++ key.name
  | delay ms => Text.ofNat ms.toNat ++ "ms"

/-- A pause, and nothing at all for no time. -/
def pause (ms : UInt32) : List Action := if ms = 0 then [] else [delay ms]

/-- Press the modifiers of a chord and then its key, hold, and let go in the opposite order. -/
def tap (chord : Chord) : List Action :=
  (Usage.modifierUsages chord.modifiers).map press ++ [press chord.key, delay holdTime,
    release chord.key] ++ (Usage.modifierUsages chord.modifiers).reverse.map release

/-- Press a media key, hold, and let go. -/
def tapMedia (key : MediaKey) : List Action := [media key true, delay holdTime, media key false]

/-- Type one character and pause. -/
def typePaced (pace : UInt32) (c : Char) : List Action := type c :: pause pace

/-- Type a text with a pause after each character. -/
def typeText (pace : UInt32) (t : Text) : List Action := t.flatMap (typePaced pace)

/-- The characters that some actions type. -/
def typed (actions : List Action) : Text :=
  actions.filterMap fun
    | type c => some c
    | _ => none

/-- The milliseconds that some actions wait. -/
def waited (actions : List Action) : Nat :=
  actions.foldl (fun total action => match action with
    | delay ms => total + ms.toNat
    | _ => total) 0

/-- The actions that are not pauses. -/
def withoutDelays (actions : List Action) : List Action :=
  actions.filter fun
    | delay _ => false
    | _ => true

/-- The displacement that some actions move the pointer by. -/
def motion (actions : List Action) : Vector2 :=
  actions.foldl (fun sum action => match action with
    | move step => ⟨sum.x + step.dx.toInt, sum.y + step.dy.toInt⟩
    | _ => sum) ⟨0, 0⟩

end Action

/-- Actions that are to be carried out a number of times over. -/
structure Burst where
  /-- How many times. -/
  times : Nat
  /-- The actions of each time. -/
  actions : List Action
deriving DecidableEq

namespace Burst

/-- Actions that are to be carried out just once. -/
def once (actions : List Action) : Burst := ⟨1, actions⟩

/-- Nothing to do. -/
def none : Burst := once []

/-- All actions of a burst, in order. -/
def all (burst : Burst) : List Action := (List.replicate burst.times burst.actions).flatten

/-- What is to be done once is the actions themselves. -/
theorem all_once (actions : List Action) : (once actions).all = actions := by
  simp [once, all]

end Burst

end Keyfob
