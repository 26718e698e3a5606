import Keyfob.Hid.Gadget
import Keyfob.Hid.Recording

/-!
# Devices whose abilities stay

A device is steady (`Device.Steady`) when no action changes what it can do, whether it carries the
action out or refuses it. Unlike a device that can be depended on it may refuse anything at any
time.
A recording is steady, and so is a gadget, with or without its host (`Gadget.steady`).
-/
namespace Keyfob

/-- A device goes on being able to do the same things. -/
structure Device.Steady (δ : Type) [Device δ] : Prop where
  /-- No action changes what the device can do. -/
  keeps : ∀ (action : Action) (device : δ),
    capabilities (Device.perform action device).2 = capabilities device

/-- No list of actions changes what a steady device can do. -/
theorem capabilities_performAll {δ : Type} [Device δ] (steady : Device.Steady δ)
    (actions : List Action) (device : δ) :
    capabilities (performAll actions device).2 = capabilities device := by
  induction actions generalizing device with
  | nil => rfl
  | cons action actions ih =>
    have first := steady.keeps action device
    rw [performAll]
    cases outcome : Device.perform action device with
    | mk result after =>
      rw [outcome] at first
      cases result with
      | ok _ => exact (ih after).trans first
      | error e => exact first

/-- A recording is steady. -/
theorem Recording.steady : Device.Steady Recording where
  keeps _ _ := rfl

namespace Gadget

/-- A report leaves an endpoint there or absent. -/
theorem isSome_writeOptional (endpoint : Option Endpoint) (report : List UInt8) :
    (writeOptional endpoint report).2.isSome = endpoint.isSome := by
  cases endpoint with
  | none => rfl
  | some there => rfl

/-- A mouse report changes nothing about what a gadget can do. -/
theorem abilities_writeMouse (gadget : Gadget) (dx dy wheel pan : Int8) :
    (gadget.writeMouse dx dy wheel pan).2.abilities = gadget.abilities := by
  unfold abilities writeMouse
  simp only [isSome_writeOptional]

/-- Nor does a gamepad report. -/
theorem abilities_writePad (gadget : Gadget) : gadget.writePad.2.abilities = gadget.abilities := by
  unfold abilities writePad
  simp only [isSome_writeOptional]

/-- Nor does the report of a media key. -/
theorem abilities_setMedia (gadget : Gadget) (key : MediaKey) (down : Bool) :
    (gadget.setMedia key down).2.abilities = gadget.abilities := by
  unfold abilities setMedia
  simp only [isSome_writeOptional]

/-- Nor does letting go of everything. -/
theorem abilities_releaseAll (gadget : Gadget) :
    gadget.releaseAll.2.abilities = gadget.abilities := by
  unfold releaseAll
  have kept : (writeKeyboard { gadget with keys := .empty }).2.abilities = gadget.abilities := rfl
  cases outcome : writeKeyboard { gadget with keys := .empty } with
  | mk result after =>
    rw [outcome] at kept
    cases result with
    | error e => exact kept
    | ok _ =>
      dsimp only
      split
      · exact kept
      · exact (abilities_writeMouse _ 0 0 0 0).trans kept

/-- Nor does a character that is typed. -/
theorem abilities_typeChar (gadget : Gadget) (c : Char) :
    (gadget.typeChar c).2.abilities = gadget.abilities := by
  unfold typeChar
  cases Usage.ofChar? c with
  | none => rfl
  | some key =>
    dsimp only
    generalize (KeyboardReport.press _ key.1).2 = keys
    have kept : (writeKeyboard { gadget with keys := keys }).2.abilities = gadget.abilities := rfl
    cases outcome : writeKeyboard { gadget with keys := keys } with
    | mk result after =>
      rw [outcome] at kept
      cases result with
      | error e => exact kept
      | ok _ => exact kept

/-- A gadget is steady: it loses no endpoint even where the host is gone. -/
theorem steady : Device.Steady Gadget where
  keeps action gadget := by
    change (gadget.act action).2.abilities = gadget.abilities
    cases action with
    | press code =>
      unfold act press
      dsimp only
      split
      · rfl
      · rfl
    | release code => rfl
    | releaseAll => exact abilities_releaseAll gadget
    | type c => exact abilities_typeChar gadget c
    | move step => exact abilities_writeMouse gadget step.dx step.dy 0 0
    | mouseButton button down => exact abilities_writeMouse _ 0 0 0 0
    | scroll vertical horizontal => exact abilities_writeMouse gadget 0 0 vertical horizontal
    | padButton button down => exact abilities_writePad _
    | padAxis axis value => exact abilities_writePad _
    | padHat hat => exact abilities_writePad _
    | media key down => exact abilities_setMedia gadget key down
    | delay ms => rfl

end Gadget

end Keyfob
