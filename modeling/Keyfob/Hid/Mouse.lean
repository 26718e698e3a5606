import Keyfob.Text.Number

/-!
# Mouse motion

A mouse reports motion only, in steps of a few pixels. This module holds the mouse buttons, the
division of a displacement into steps, and the tracker, an estimate of where the host's pointer
is that turns absolute targets into displacements.
-/
namespace Keyfob

/-- A button of the mouse. -/
inductive MouseButton where
  | left
  | right
  | middle
  | back
  | forward
deriving DecidableEq

namespace MouseButton

/-- The bit of a button in the mouse report. -/
def mask : MouseButton → UInt8
  | left => 0x01
  | right => 0x02
  | middle => 0x04
  | back => 0x08
  | forward => 0x10

/-- The name under which a button is shown. -/
def name : MouseButton → Text
  | left => "left"
  | right => "right"
  | middle => "middle"
  | back => "back"
  | forward => "forward"

/-- The words that are read as buttons. -/
def aliases : List (String × MouseButton) :=
  [("left", left), ("l", left), ("1", left), ("right", right), ("r", right), ("2", right),
   ("middle", middle), ("m", middle), ("3", middle), ("back", back), ("4", back),
   ("forward", forward), ("5", forward)]

/-- The button that a word names, in any letter case and between any blanks. -/
def parse? (t : Text) : Option MouseButton := aliases.lookup (String.ofList t.trim.lower)

end MouseButton

/-- A displacement or a place, to the right and downwards. -/
structure Vector2 where
  /-- Pixels to the right. -/
  x : Int
  /-- Pixels downwards. -/
  y : Int
deriving DecidableEq

/-- One relative report's worth of motion. -/
structure MotionStep where
  /-- Pixels to the right. -/
  dx : Int8
  /-- Pixels downwards. -/
  dy : Int8
deriving DecidableEq

namespace Motion

/-- The largest displacement of one step, on each axis. -/
def stepBound : Int := 127

/-- The side of the tracked area, and the length of the sweep that finds its corner. -/
def extent : Int := 4096

/-- The largest displacement of one move, on each axis. -/
def travelBound : Int := 8192

/-- A displacement cut down to what one move may travel. -/
def capped (travel : Vector2) : Vector2 :=
  ⟨Text.clamp (-travelBound) travelBound travel.x, Text.clamp (-travelBound) travelBound travel.y⟩

/-- The number of steps that a displacement takes. -/
def stepCount (travel : Vector2) : Nat := (max travel.x.natAbs travel.y.natAbs + 126) / 127

/-- Walk a displacement for a number of steps, each axis as far as a step goes until it is
used up. -/
def walk : Nat → Vector2 → List MotionStep
  | 0, _ => []
  | count + 1, travel =>
    let sx := Text.clamp (-stepBound) stepBound travel.x
    let sy := Text.clamp (-stepBound) stepBound travel.y
    ⟨Int8.ofInt sx, Int8.ofInt sy⟩ :: walk count ⟨travel.x - sx, travel.y - sy⟩

/-- The steps of one move: the displacement, cut down to what a move may travel, in as few
steps as it takes. -/
def steps (travel : Vector2) : List MotionStep := walk (stepCount (capped travel)) (capped travel)

end Motion

/-- An estimate of where the host's pointer is. It drifts when the host accelerates motion, and
is found again by a sweep into the corner. -/
structure MouseTracker where
  /-- The estimated place. -/
  position : Vector2 := ⟨0, 0⟩
deriving DecidableEq

namespace MouseTracker

/-- Sweep into the corner, which is the origin. -/
def reset (_ : MouseTracker) : MouseTracker × List MotionStep :=
  (⟨⟨0, 0⟩⟩, Motion.steps ⟨-Motion.extent, -Motion.extent⟩)

/-- Move to a target, taken to the nearest place in the tracked area. -/
def moveTo (tracker : MouseTracker) (target : Vector2) : MouseTracker × List MotionStep :=
  let x := Text.clamp 0 Motion.extent target.x
  let y := Text.clamp 0 Motion.extent target.y
  (⟨⟨x, y⟩⟩, Motion.steps ⟨x - tracker.position.x, y - tracker.position.y⟩)

/-- Move by a displacement. The estimate may leave the tracked area by one extent on either
side, since the host stops the real pointer at its edges. -/
def moveBy (tracker : MouseTracker) (displacement : Vector2) :
    MouseTracker × List MotionStep :=
  let travel := Motion.capped displacement
  (⟨⟨Text.clamp (-Motion.extent) (2 * Motion.extent) (tracker.position.x + travel.x),
     Text.clamp (-Motion.extent) (2 * Motion.extent) (tracker.position.y + travel.y)⟩⟩,
   Motion.steps travel)

end MouseTracker

end Keyfob
