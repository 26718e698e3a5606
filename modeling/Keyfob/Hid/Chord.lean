import Keyfob.Hid.Usage

/-!
# Chords

A chord is a key with the modifiers held around it. It is written as modifier names and a key
name with plus signs between them, as in ctrl+alt+delete; the plus key may be written directly
at the end. Names are read in any letter case.
-/
namespace Keyfob

/-- A key and the modifiers held around it. -/
structure Chord where
  /-- The report bits of the held modifiers. -/
  modifiers : UInt8
  /-- The usage of the key. -/
  key : Usage
deriving DecidableEq

namespace Chord

/-- The names of modifiers, with the bit that each stands for. -/
def modifierNames : List (String × UInt8) :=
  [("ctrl", Usage.ctrlBit), ("control", Usage.ctrlBit), ("lctrl", Usage.ctrlBit),
   ("lcontrol", Usage.ctrlBit),
   ("shift", Usage.shiftBit), ("lshift", Usage.shiftBit),
   ("alt", Usage.altBit), ("lalt", Usage.altBit), ("option", Usage.altBit),
   ("loption", Usage.altBit),
   ("gui", Usage.guiBit), ("win", Usage.guiBit), ("windows", Usage.guiBit),
   ("super", Usage.guiBit), ("cmd", Usage.guiBit), ("command", Usage.guiBit),
   ("meta", Usage.guiBit), ("lgui", Usage.guiBit), ("lwin", Usage.guiBit),
   ("rctrl", Usage.rightCtrlBit), ("rcontrol", Usage.rightCtrlBit),
   ("rshift", Usage.rightShiftBit),
   ("ralt", Usage.rightAltBit), ("roption", Usage.rightAltBit), ("altgr", Usage.rightAltBit),
   ("rgui", Usage.rightGuiBit), ("rwin", Usage.rightGuiBit), ("rsuper", Usage.rightGuiBit),
   ("rcmd", Usage.rightGuiBit)]

/-- The names of keys longer than one character, with their usages. -/
def keyWords : List (String × Usage) :=
  [("enter", 0x28), ("return", 0x28), ("esc", 0x29), ("escape", 0x29),
   ("backspace", 0x2a), ("bksp", 0x2a), ("tab", 0x2b), ("space", 0x2c),
   ("capslock", 0x39), ("caps", 0x39), ("printscreen", 0x46), ("prtsc", 0x46),
   ("scrolllock", 0x47), ("pause", 0x48), ("break", 0x48), ("insert", 0x49), ("ins", 0x49),
   ("home", 0x4a), ("end", 0x4d), ("pageup", 0x4b), ("pgup", 0x4b), ("pagedown", 0x4e),
   ("pgdn", 0x4e), ("delete", 0x4c), ("del", 0x4c), ("right", 0x4f), ("rightarrow", 0x4f),
   ("left", 0x50), ("leftarrow", 0x50), ("down", 0x51), ("downarrow", 0x51), ("up", 0x52),
   ("uparrow", 0x52), ("numlock", 0x53), ("menu", 0x65), ("app", 0x65),
   ("ctrl", 0xe0), ("control", 0xe0), ("shift", 0xe1), ("alt", 0xe2), ("option", 0xe2),
   ("gui", 0xe3), ("win", 0xe3), ("windows", 0xe3), ("cmd", 0xe3), ("command", 0xe3),
   ("meta", 0xe3), ("super", 0xe3), ("rctrl", 0xe4), ("rshift", 0xe5), ("ralt", 0xe6),
   ("altgr", 0xe6), ("rgui", 0xe7),
   ("f1", 0x3a), ("f2", 0x3b), ("f3", 0x3c), ("f4", 0x3d), ("f5", 0x3e), ("f6", 0x3f),
   ("f7", 0x40), ("f8", 0x41), ("f9", 0x42), ("f10", 0x43), ("f11", 0x44), ("f12", 0x45),
   ("f13", 0x68), ("f14", 0x69), ("f15", 0x6a), ("f16", 0x6b), ("f17", 0x6c), ("f18", 0x6d),
   ("f19", 0x6e), ("f20", 0x6f), ("f21", 0x70), ("f22", 0x71), ("f23", 0x72), ("f24", 0x73)]

/-- The bit of the modifier that a name stands for. -/
def modifier? (name : Text) : Option UInt8 :=
  modifierNames.lookup (String.ofList name.trim.lower)

/-- The key that a name stands for: a single character is the key that types it, with Shift
where that key takes it, and a longer name is one of the key words. -/
def ofKeyName? (name : Text) : Option Chord :=
  match name.trim with
  | [c] => (Usage.ofChar? c).map fun (code, shift) =>
      ⟨if shift then Usage.shiftBit else 0, code⟩
  | word => (keyWords.lookup (String.ofList (Text.lower word))).map fun code => ⟨0, code⟩

/-- A chord with further modifiers held. -/
def holding (chord : Chord) (bits : UInt8) : Chord :=
  { chord with modifiers := chord.modifiers ||| bits }

/-- A chord with the modifiers that some names stand for, if all of them stand for one. -/
def holdingAll? (chord : Chord) : List Text → Option Chord
  | [] => some chord
  | name :: names =>
    match modifier? name with
    | none => none
    | some bits => (chord.holding bits).holdingAll? names

/-- The modifier part and the key part of a written chord. The last plus sign divides them,
unless it is itself the key: alone, or directly after the plus sign that divides. -/
def divide (spec : Text) : Text × Text :=
  if spec = "+".toList then ([], "+")
  else
    match Text.before? "++" spec with
    | some modifiers => (modifiers, "+")
    | none => (Text.cutLast? '+' spec).getD ([], spec)

/-- Read a chord; parts of the modifiers that are blank are passed over, and any part that is
unknown makes the whole unknown. -/
def parse? (spec : Text) : Option Chord :=
  if spec.trim.isEmpty then none
  else
    let (modifiers, key) := divide spec.trim
    match ofKeyName? key with
    | none => none
    | some chord =>
      chord.holdingAll? ((Text.splitAll '+' modifiers).filter fun name => !name.trim.isEmpty)

/-- The names under which the modifiers of a chord are shown, by bit. -/
def shownModifiers : List (UInt8 × String) :=
  [(Usage.ctrlBit, "ctrl"), (Usage.shiftBit, "shift"), (Usage.altBit, "alt"),
   (Usage.guiBit, "gui"), (Usage.rightCtrlBit, "rctrl"), (Usage.rightShiftBit, "rshift"),
   (Usage.rightAltBit, "ralt"), (Usage.rightGuiBit, "rgui")]

/-- A chord as it is shown: its modifiers and its key in small letters. -/
def text (chord : Chord) : Text :=
  (shownModifiers.flatMap fun (bit, name) =>
    if chord.modifiers &&& bit ≠ 0 then name.toList ++ ['+'] else []) ++
    Text.lower (Usage.keyName chord.key)

end Chord

end Keyfob
