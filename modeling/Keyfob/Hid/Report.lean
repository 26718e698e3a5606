import Keyfob.Hid.Gamepad
import Keyfob.Hid.Usage

/-!
# Reports

The bytes that a device sends to the host: the boot keyboard report, and the mouse, consumer
and gamepad reports. A keyboard report has one bit for each modifier and six slots for other
keys; a key that finds no free slot is refused.
-/
namespace Keyfob

/-- The byte that stands for a signed value. -/
def signedByte (value : Int8) : UInt8 := value.toUInt8

/-- The state of the keyboard: the held modifiers and the six slots for held keys, zero where
a slot is free. -/
structure KeyboardReport where
  /-- The bits of the held modifiers. -/
  modifiers : UInt8 := 0
  /-- The slots for held keys. -/
  slots : Vector Usage 6 := Vector.replicate 6 0
deriving DecidableEq

namespace KeyboardReport

/-- Put a key into the first free slot of a list, if there is one. -/
def fill? (code : Usage) : List Usage → Option (List Usage)
  | [] => none
  | slot :: slots =>
    if slot = 0 then some (code :: slots) else (fill? code slots).map (slot :: ·)

/-- Filling a slot keeps the number of slots. -/
theorem length_of_fill? {code : Usage} {slots filled : List Usage}
    (found : fill? code slots = some filled) : filled.length = slots.length := by
  induction slots generalizing filled with
  | nil => simp [fill?] at found
  | cons slot slots ih =>
    by_cases free : slot = 0
    · simp only [fill?, free, ↓reduceIte, Option.some.injEq] at found
      subst found
      rfl
    · simp only [fill?, free, ↓reduceIte, Option.map_eq_some_iff] at found
      obtain ⟨rest, inner, rfl⟩ := found
      simp [ih inner]

/-- Hold a key. The answer says whether it is held: a key other than a modifier needs a slot
that is free, unless one holds it already. -/
def press (report : KeyboardReport) (code : Usage) : Bool × KeyboardReport :=
  if Usage.isModifier code then
    (true, { report with modifiers := report.modifiers ||| Usage.modifierBit code })
  else if report.slots.toList.contains code then (true, report)
  else
    match found : fill? code report.slots.toList with
    | some filled =>
      (true, { report with slots := ⟨filled.toArray, by simp [length_of_fill? found]⟩ })
    | none => (false, report)

/-- Let a key go. -/
def release (report : KeyboardReport) (code : Usage) : KeyboardReport :=
  if Usage.isModifier code then
    { report with modifiers := report.modifiers &&& ~~~Usage.modifierBit code }
  else { report with slots := report.slots.map fun slot => if slot = code then 0 else slot }

/-- No key held. -/
def empty : KeyboardReport := {}

/-- Whether no key is held. -/
def isEmpty (report : KeyboardReport) : Bool :=
  report.modifiers == 0 && report.slots.toList.all (· == 0)

/-- The bytes of the report: the modifiers, a reserved zero, the slots. -/
def bytes (report : KeyboardReport) : List UInt8 :=
  report.modifiers :: 0 :: report.slots.toList

end KeyboardReport

/-- The bytes of a mouse report: the held buttons, the motion, the wheel, the sideways
wheel. -/
def mouseBytes (buttons : UInt8) (dx dy wheel pan : Int8) : List UInt8 :=
  [buttons, signedByte dx, signedByte dy, signedByte wheel, signedByte pan]

/-- The bytes of a consumer report: the usage of the held media key, low byte first, zero for
none. -/
def consumerBytes (usage : UInt16) : List UInt8 :=
  [(usage % 256).toUInt8, (usage / 256).toUInt8]

/-- The state of the gamepad. -/
structure GamepadReport where
  /-- The bits of the held buttons. -/
  buttons : UInt16 := 0
  /-- The position of the directional pad. -/
  hat : Hat := .centered
  /-- The left stick, sideways. -/
  leftX : Int8 := 0
  /-- The left stick, upright. -/
  leftY : Int8 := 0
  /-- The right stick, sideways. -/
  rightX : Int8 := 0
  /-- The right stick, upright. -/
  rightY : Int8 := 0
  /-- The left trigger. -/
  leftTrigger : Int8 := 0
  /-- The right trigger. -/
  rightTrigger : Int8 := 0
deriving DecidableEq

namespace GamepadReport

/-- Hold a button or let it go. -/
def setButton (report : GamepadReport) (button : PadButton) (down : Bool) : GamepadReport :=
  let bit : UInt16 := 1 <<< UInt16.ofNat button.index
  { report with
    buttons := if down then report.buttons ||| bit else report.buttons &&& ~~~bit }

/-- Set an axis. -/
def setAxis (report : GamepadReport) (axis : PadAxis) (value : Int8) : GamepadReport :=
  match axis with
  | .leftX => { report with leftX := value }
  | .leftY => { report with leftY := value }
  | .rightX => { report with rightX := value }
  | .rightY => { report with rightY := value }
  | .leftTrigger => { report with leftTrigger := value }
  | .rightTrigger => { report with rightTrigger := value }

/-- The values of the axes in report order. -/
def axes (report : GamepadReport) : List Int8 :=
  [report.leftX, report.leftY, report.rightX, report.rightY, report.leftTrigger,
   report.rightTrigger]

/-- The bytes of the report: the buttons, low byte first, the directional pad, the axes. -/
def bytes (report : GamepadReport) : List UInt8 :=
  [(report.buttons % 256).toUInt8, (report.buttons / 256).toUInt8, report.hat.value] ++
    report.axes.map signedByte

end GamepadReport

end Keyfob
