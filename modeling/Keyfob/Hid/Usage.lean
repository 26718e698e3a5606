import Keyfob.Text.Basic

/-!
# Keyboard usages

Keys are named by their usage on the keyboard page. The eight modifier keys have usages of
their own and one bit each in the first byte of a keyboard report. The keyboard is laid out as
a list of keycaps (`keycaps`), which says what each key types alone and with Shift.
-/
namespace Keyfob

/-- The number of a key on the keyboard usage page. -/
abbrev Usage := UInt8

namespace Usage

/-- The usage of the Enter key. -/
def enter : Usage := 0x28

/-- The usage of the first modifier key, left Control. -/
def leftCtrl : Usage := 0xe0

/-- The usage of the left Shift key. -/
def leftShift : Usage := 0xe1

/-- Whether a usage is one of the eight modifier keys. -/
def isModifier (code : Usage) : Bool := 0xe0 ≤ code && code ≤ 0xe7

/-- The report bit of a modifier key, and no bit for other keys. -/
def modifierBit (code : Usage) : UInt8 :=
  if isModifier code then 1 <<< (code - leftCtrl) else 0

/-- The bit of left Control. -/
def ctrlBit : UInt8 := 0x01

/-- The bit of left Shift. -/
def shiftBit : UInt8 := 0x02

/-- The bit of left Alt. -/
def altBit : UInt8 := 0x04

/-- The bit of the left GUI key. -/
def guiBit : UInt8 := 0x08

/-- The bit of right Control. -/
def rightCtrlBit : UInt8 := 0x10

/-- The bit of right Shift. -/
def rightShiftBit : UInt8 := 0x20

/-- The bit of right Alt. -/
def rightAltBit : UInt8 := 0x40

/-- The bit of the right GUI key. -/
def rightGuiBit : UInt8 := 0x80

/-- The modifier keys whose bits are set in a mask, lowest bit first. -/
def modifierUsages (mask : UInt8) : List Usage :=
  [0xe0, 0xe1, 0xe2, 0xe3, 0xe4, 0xe5, 0xe6, 0xe7].filter fun code =>
    mask &&& modifierBit code ≠ 0

/-- One key of the typing area: what it types alone and, where it has a second character, with
Shift. -/
structure Keycap where
  /-- The key's usage. -/
  code : Usage
  /-- The character typed without Shift. -/
  plain : Char
  /-- The character typed with Shift. -/
  shifted : Option Char

/-- The keys that type a character, on the US layout. -/
def keycaps : List Keycap :=
  [⟨0x04, 'a', 'A'⟩, ⟨0x05, 'b', 'B'⟩, ⟨0x06, 'c', 'C'⟩, ⟨0x07, 'd', 'D'⟩, ⟨0x08, 'e', 'E'⟩,
   ⟨0x09, 'f', 'F'⟩, ⟨0x0a, 'g', 'G'⟩, ⟨0x0b, 'h', 'H'⟩, ⟨0x0c, 'i', 'I'⟩, ⟨0x0d, 'j', 'J'⟩,
   ⟨0x0e, 'k', 'K'⟩, ⟨0x0f, 'l', 'L'⟩, ⟨0x10, 'm', 'M'⟩, ⟨0x11, 'n', 'N'⟩, ⟨0x12, 'o', 'O'⟩,
   ⟨0x13, 'p', 'P'⟩, ⟨0x14, 'q', 'Q'⟩, ⟨0x15, 'r', 'R'⟩, ⟨0x16, 's', 'S'⟩, ⟨0x17, 't', 'T'⟩,
   ⟨0x18, 'u', 'U'⟩, ⟨0x19, 'v', 'V'⟩, ⟨0x1a, 'w', 'W'⟩, ⟨0x1b, 'x', 'X'⟩, ⟨0x1c, 'y', 'Y'⟩,
   ⟨0x1d, 'z', 'Z'⟩, ⟨0x1e, '1', '!'⟩, ⟨0x1f, '2', '@'⟩, ⟨0x20, '3', '#'⟩, ⟨0x21, '4', '$'⟩,
   ⟨0x22, '5', '%'⟩, ⟨0x23, '6', '^'⟩, ⟨0x24, '7', '&'⟩, ⟨0x25, '8', '*'⟩, ⟨0x26, '9', '('⟩,
   ⟨0x27, '0', ')'⟩, ⟨0x28, '\n', none⟩, ⟨0x29, '\x1b', none⟩, ⟨0x2a, '\x08', none⟩,
   ⟨0x2b, '\t', none⟩, ⟨0x2c, ' ', none⟩, ⟨0x2d, '-', '_'⟩, ⟨0x2e, '=', '+'⟩,
   ⟨0x2f, '[', '\x7b'⟩, ⟨0x30, ']', '\x7d'⟩, ⟨0x31, '\\', '|'⟩, ⟨0x33, ';', ':'⟩,
   ⟨0x34, '\x27', '\x22'⟩, ⟨0x35, '\x60', '~'⟩, ⟨0x36, ',', '<'⟩, ⟨0x37, '.', '>'⟩,
   ⟨0x38, '/', '?'⟩]

/-- The key that types a character, and whether it takes Shift; none for a character that no
key types. A carriage return is among these, so that a line ended by both line characters
presses Enter once. -/
def ofChar? (c : Char) : Option (Usage × Bool) :=
  match keycaps.find? (·.plain == c) with
  | some cap => some (cap.code, false)
  | none => (keycaps.find? (·.shifted == some c)).map fun cap => (cap.code, true)

/-- The names of the keys that have one, by usage. -/
def keyNames : List (Usage × String) :=
  [(0x00, "None"),
   (0x04, "A"), (0x05, "B"), (0x06, "C"), (0x07, "D"), (0x08, "E"), (0x09, "F"), (0x0a, "G"),
   (0x0b, "H"), (0x0c, "I"), (0x0d, "J"), (0x0e, "K"), (0x0f, "L"), (0x10, "M"), (0x11, "N"),
   (0x12, "O"), (0x13, "P"), (0x14, "Q"), (0x15, "R"), (0x16, "S"), (0x17, "T"), (0x18, "U"),
   (0x19, "V"), (0x1a, "W"), (0x1b, "X"), (0x1c, "Y"), (0x1d, "Z"),
   (0x1e, "1"), (0x1f, "2"), (0x20, "3"), (0x21, "4"), (0x22, "5"), (0x23, "6"), (0x24, "7"),
   (0x25, "8"), (0x26, "9"), (0x27, "0"),
   (0x28, "Enter"), (0x29, "Escape"), (0x2a, "Backspace"), (0x2b, "Tab"), (0x2c, "Space"),
   (0x2d, "-"), (0x2e, "="), (0x2f, "["), (0x30, "]"), (0x31, "\\"), (0x33, ";"), (0x34, "'"),
   (0x35, "`"), (0x36, ","), (0x37, "."), (0x38, "/"), (0x39, "CapsLock"),
   (0x3a, "F1"), (0x3b, "F2"), (0x3c, "F3"), (0x3d, "F4"), (0x3e, "F5"), (0x3f, "F6"),
   (0x40, "F7"), (0x41, "F8"), (0x42, "F9"), (0x43, "F10"), (0x44, "F11"), (0x45, "F12"),
   (0x46, "PrintScr"), (0x47, "ScrollLock"), (0x48, "Pause"), (0x49, "Insert"), (0x4a, "Home"),
   (0x4b, "PageUp"), (0x4c, "Delete"), (0x4d, "End"), (0x4e, "PageDown"), (0x4f, "Right"),
   (0x50, "Left"), (0x51, "Down"), (0x52, "Up"), (0x53, "NumLock"), (0x65, "App"),
   (0x68, "F13"), (0x69, "F14"), (0x6a, "F15"), (0x6b, "F16"), (0x6c, "F17"), (0x6d, "F18"),
   (0x6e, "F19"), (0x6f, "F20"), (0x70, "F21"), (0x71, "F22"), (0x72, "F23"), (0x73, "F24"),
   (0xe0, "LCtrl"), (0xe1, "LShift"), (0xe2, "LAlt"), (0xe3, "LGUI"),
   (0xe4, "RCtrl"), (0xe5, "RShift"), (0xe6, "RAlt"), (0xe7, "RGUI")]

/-- The name of a key, a question mark where it has none. -/
def keyName (code : Usage) : Text := (keyNames.lookup code).getD "?"

end Usage

end Keyfob
