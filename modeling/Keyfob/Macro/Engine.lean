import Keyfob.Hid.Device
import Keyfob.Macro.Directive

/-!
# Running macro text

The macro engine keeps the default typing speed and the estimate of the pointer's place. One
pass over macro text has a typing speed of its own, and remembers whether a directive came last:
the line break directly after a directive separates lines of the macro and is not typed. A pass
is an interpreter of pieces (`Pass.next`), so what it does is known without a device.
-/
namespace Keyfob

/-- What one pass over macro text keeps. -/
structure Pass where
  /-- The pause after each character, in milliseconds. -/
  speed : UInt32
  /-- Whether a directive came last. -/
  afterDirective : Bool := false
  /-- Where the pointer is thought to be. -/
  mouse : MouseTracker
deriving DecidableEq

/-- Turn the wheel by some clicks of one direction, pausing after each. -/
def wheelClicks (clicks : Int) (click : Int8 → Action) : Burst :=
  ⟨clicks.natAbs, [click (if clicks < 0 then -1 else 1), .delay Action.wheelPause]⟩

namespace MouseCommand

/-- What a command does with the mouse: the estimate of its place from then on, and the
actions. -/
def effect (tracker : MouseTracker) : MouseCommand → MouseTracker × Burst
  | reset => let (tracker, steps) := tracker.reset; (tracker, .once (steps.map .move))
  | moveTo target =>
    let (tracker, steps) := tracker.moveTo target
    (tracker, .once (steps.map .move))
  | moveBy displacement =>
    let (tracker, steps) := tracker.moveBy displacement
    (tracker, .once (steps.map .move))
  | button .down held => (tracker, .once [.mouseButton held true])
  | button .up held => (tracker, .once [.mouseButton held false])
  | button .click held => (tracker, .once [.mouseButton held true, .mouseButton held false])
  | scroll clicks => (tracker, wheelClicks clicks fun click => .scroll click 0)
  | panning clicks => (tracker, wheelClicks clicks fun click => .scroll 0 click)
  | invalid _ => (tracker, .none)

end MouseCommand

namespace PadCommand

/-- The actions of a command. -/
def actions : PadCommand → List Action
  | press button => [.padButton button true]
  | release button => [.padButton button false]
  | hat position => [.padHat position]
  | stick true x y => [.padAxis .leftX x, .padAxis .leftY y]
  | stick false x y => [.padAxis .rightX x, .padAxis .rightY y]
  | trigger true value => [.padAxis .leftTrigger value]
  | trigger false value => [.padAxis .rightTrigger value]
  | invalid _ => []

end PadCommand

namespace AudioCommand

/-- The actions of a command on a device with the given media keys. -/
def actions (capabilities : Capabilities) : AudioCommand → Burst
  | tap key times =>
    if capabilities.supports key then ⟨times, Action.tapMedia key⟩ else .none
  | invalid _ => .none

end AudioCommand

namespace Directive

/-- What a directive does in a pass. Commands for what the device does not have do nothing. -/
def effect (capabilities : Capabilities) (pass : Pass) : Directive → Pass × Burst
  | delay ms => (pass, .once (Action.pause ms))
  | speed ms => ({ pass with speed := ms }, .none)
  | key spec => (pass, .once ((Chord.parse? spec).elim [] Action.tap))
  | text t => (pass, .once (Action.typeText pass.speed t))
  | mouse command =>
    if capabilities.mouse then
      let (tracker, burst) := command.effect pass.mouse
      ({ pass with mouse := tracker }, burst)
    else (pass, .none)
  | gamepad command => (pass, .once (if capabilities.gamepad then command.actions else []))
  | audio command => (pass, command.actions capabilities)
  | unknown body =>
    (pass, .once (Action.typeText pass.speed (Segment.directive body).written))

end Directive

namespace Pass

/-- What one piece of macro text does. Directly after a directive, carriage returns and then
one line feed are dropped. -/
def next (capabilities : Capabilities) : Interpreter Pass Piece
  | pass, .directive body =>
    (Directive.parse body).effect capabilities { pass with afterDirective := true }
  | pass, .literal c =>
    if pass.afterDirective && c == '\r' then (pass, .none)
    else if pass.afterDirective && c == '\n' then ({ pass with afterDirective := false }, .none)
    else ({ pass with afterDirective := false }, .once (Action.typePaced pass.speed c))

end Pass

/-- What runs of macro text share. -/
structure MacroEngine where
  /-- The typing speed at the start of each pass, in milliseconds for each character. -/
  defaultSpeed : UInt32
  /-- Where the pointer is thought to be. -/
  mouse : MouseTracker := {}
deriving DecidableEq

namespace MacroEngine

/-- An engine with a default speed, which is cut down to the slowest there is. -/
def ofSpeed (speed : UInt32) : MacroEngine := ⟨min speed (UInt32.ofNat slowestSpeed), {}⟩

/-- A new pass. -/
def newPass (engine : MacroEngine) : Pass := { speed := engine.defaultSpeed, mouse := engine.mouse }

/-- Work through pieces of macro text in one pass on a device. -/
def perform {δ : Type} [Device δ] (engine : MacroEngine) (pieces : List Piece) (device : δ) :
    Except HidError Unit × MacroEngine × δ :=
  let (result, pass, device) := drive (Pass.next (capabilities device)) engine.newPass pieces device
  (result, { engine with mouse := pass.mouse }, device)

/-- Run macro text on a device. -/
def run {δ : Type} [Device δ] (engine : MacroEngine) (t : Text) (device : δ) :
    Except HidError Unit × MacroEngine × δ :=
  engine.perform (Piece.ofText t) device

/-- Carry out one directive at the default speed on a device. -/
def runDirective {δ : Type} [Device δ] (engine : MacroEngine) (directive : Directive)
    (device : δ) : Except HidError Unit × MacroEngine × δ :=
  let (pass, burst) := directive.effect (capabilities device) engine.newPass
  let (result, device) := burst.perform device
  (result, { engine with mouse := pass.mouse }, device)

end MacroEngine

end Keyfob
