import Keyfob.Allowance
import Keyfob.Hid.Device
import Keyfob.Hid.Report

/-!
# Report-writing devices

A gadget keeps the state of its keyboard, mouse and gamepad and writes a whole report to the
endpoint concerned on every change. Only the keyboard endpoint is required. An endpoint is
lost when the host goes away, and then every write to it fails; single writes can fail before.
-/
namespace Keyfob

/-- The far end of one kind of report. -/
structure Endpoint where
  /-- The reports written so far, the latest first. -/
  latest : List (List UInt8) := []
  /-- How many more writes are accepted before the endpoint is lost. -/
  allowance : Allowance := none
  /-- Which of the next writes fail on their own. -/
  lapses : Lapses := []
deriving DecidableEq

namespace Endpoint

/-- The bytes written so far. -/
def written (endpoint : Endpoint) : List UInt8 := endpoint.latest.reverse.flatten

/-- The cause given when the host is gone. -/
def lost : HidError := .write "host gone"

/-- Write one report. -/
def write (endpoint : Endpoint) (report : List UInt8) : Except HidError Unit × Endpoint :=
  let later : Endpoint := { endpoint with lapses := endpoint.lapses.tail }
  if endpoint.lapses.fails then (.error lost, later)
  else
    match endpoint.allowance.spend? with
    | none => (.error lost, later)
    | some allowance =>
      (.ok (), { later with latest := report :: endpoint.latest, allowance := allowance })

/-- Forget what was written. -/
def drained (endpoint : Endpoint) : Endpoint := { endpoint with latest := [] }

end Endpoint

/-- A device that writes reports. -/
structure Gadget where
  /-- The keyboard endpoint. -/
  keyboard : Endpoint := {}
  /-- The mouse endpoint, if there is one. -/
  mouse : Option Endpoint := none
  /-- The endpoint for media keys, if there is one. -/
  consumer : Option Endpoint := none
  /-- The gamepad endpoint, if there is one. -/
  gamepad : Option Endpoint := none
  /-- The keys that the device reports as held. -/
  keys : KeyboardReport := {}
  /-- The bits of the mouse buttons that the device reports as held. -/
  mouseButtons : UInt8 := 0
  /-- The gamepad state that the device reports. -/
  pad : GamepadReport := {}
deriving DecidableEq

namespace Gadget

/-- A gadget with a keyboard and the given other endpoints. -/
def having (mouse consumer gamepad : Bool) : Gadget :=
  let endpoint (present : Bool) : Option Endpoint := if present then some {} else none
  { mouse := endpoint mouse, consumer := endpoint consumer, gamepad := endpoint gamepad }

/-- Write the keyboard report. -/
def writeKeyboard (gadget : Gadget) : Except HidError Unit × Gadget :=
  let (result, endpoint) := gadget.keyboard.write gadget.keys.bytes
  (result, { gadget with keyboard := endpoint })

/-- Write a report to an endpoint that may be absent, in which case it is dropped. -/
def writeOptional (endpoint : Option Endpoint) (report : List UInt8) :
    Except HidError Unit × Option Endpoint :=
  match endpoint with
  | none => (.ok (), none)
  | some endpoint =>
    let (result, endpoint) := endpoint.write report
    (result, some endpoint)

/-- Write a mouse report with the held buttons and some motion. -/
def writeMouse (gadget : Gadget) (dx dy wheel pan : Int8) : Except HidError Unit × Gadget :=
  let (result, endpoint) :=
    writeOptional gadget.mouse (mouseBytes gadget.mouseButtons dx dy wheel pan)
  (result, { gadget with mouse := endpoint })

/-- Write the gamepad report. -/
def writePad (gadget : Gadget) : Except HidError Unit × Gadget :=
  let (result, endpoint) := writeOptional gadget.gamepad gadget.pad.bytes
  (result, { gadget with gamepad := endpoint })

/-- Hold a key; one that finds no slot is dropped without a report. -/
def press (gadget : Gadget) (code : Usage) : Except HidError Unit × Gadget :=
  match gadget.keys.press code with
  | (false, _) => (.ok (), gadget)
  | (true, keys) => writeKeyboard { gadget with keys := keys }

/-- Let go of every key and then, if any is held, of every mouse button. -/
def releaseAll (gadget : Gadget) : Except HidError Unit × Gadget :=
  match writeKeyboard { gadget with keys := .empty } with
  | (.error e, gadget) => (.error e, gadget)
  | (.ok (), gadget) =>
    if gadget.mouseButtons = 0 then (.ok (), gadget)
    else writeMouse { gadget with mouseButtons := 0 } 0 0 0 0

/-- Type a character over the keys that are held: a report with its key added and a report
with the held keys as before. A character that no key types is passed over. -/
def typeChar (gadget : Gadget) (c : Char) : Except HidError Unit × Gadget :=
  match Usage.ofChar? c with
  | none => (.ok (), gadget)
  | some (code, shift) =>
    let shifted := if shift then (gadget.keys.press Usage.leftShift).2 else gadget.keys
    match writeKeyboard { gadget with keys := (shifted.press code).2 } with
    | (.error e, gadget) => (.error e, gadget)
    | (.ok (), pressed) => writeKeyboard { pressed with keys := gadget.keys }

/-- Hold a mouse button or let it go. -/
def setMouseButton (gadget : Gadget) (button : MouseButton) (down : Bool) :
    Except HidError Unit × Gadget :=
  let buttons :=
    if down then gadget.mouseButtons ||| button.mask
    else gadget.mouseButtons &&& ~~~button.mask
  writeMouse { gadget with mouseButtons := buttons } 0 0 0 0

/-- Report a media key as held, or none. -/
def setMedia (gadget : Gadget) (key : MediaKey) (down : Bool) :
    Except HidError Unit × Gadget :=
  let (result, endpoint) :=
    writeOptional gadget.consumer (consumerBytes (if down then key.usage else 0))
  (result, { gadget with consumer := endpoint })

/-- What the endpoints allow. -/
def abilities (gadget : Gadget) : Capabilities where
  mouse := gadget.mouse.isSome
  gamepad := gadget.gamepad.isSome
  media := if gadget.consumer.isSome then MediaKey.all else []

/-- Carry out one action. Pauses take no time here; waiting is for whoever runs the device. -/
def act (gadget : Gadget) : Action → Except HidError Unit × Gadget
  | .press code => gadget.press code
  | .release code => writeKeyboard { gadget with keys := gadget.keys.release code }
  | .releaseAll => gadget.releaseAll
  | .type c => gadget.typeChar c
  | .move step => gadget.writeMouse step.dx step.dy 0 0
  | .mouseButton button down => gadget.setMouseButton button down
  | .scroll vertical horizontal => gadget.writeMouse 0 0 vertical horizontal
  | .padButton button down => writePad { gadget with pad := gadget.pad.setButton button down }
  | .padAxis axis value => writePad { gadget with pad := gadget.pad.setAxis axis value }
  | .padHat hat => writePad { gadget with pad := { gadget.pad with hat := hat } }
  | .media key down => gadget.setMedia key down
  | .delay _ => (.ok (), gadget)

instance : Device Gadget where
  capabilities := abilities
  perform action gadget := gadget.act action

/-- The gadget with a new allowance for each endpoint. -/
def allowing (gadget : Gadget) (allowance : Allowance) : Gadget :=
  let limit (endpoint : Endpoint) : Endpoint := { endpoint with allowance := allowance }
  { gadget with
    keyboard := limit gadget.keyboard
    mouse := gadget.mouse.map limit
    consumer := gadget.consumer.map limit
    gamepad := gadget.gamepad.map limit }

/-- The gadget with what was written forgotten. -/
def drained (gadget : Gadget) : Gadget :=
  { gadget with
    keyboard := gadget.keyboard.drained
    mouse := gadget.mouse.map Endpoint.drained
    consumer := gadget.consumer.map Endpoint.drained
    gamepad := gadget.gamepad.map Endpoint.drained }

end Gadget

end Keyfob
