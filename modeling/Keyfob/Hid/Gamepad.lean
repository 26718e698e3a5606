import Keyfob.Text.Basic

/-!
# Gamepad controls

The buttons, axes and directional pad of a gamepad, with the names they are read and shown by.
-/
namespace Keyfob

/-- A button of the gamepad. -/
inductive PadButton where
  | a
  | b
  | x
  | y
  | leftShoulder
  | rightShoulder
  | back
  | start
  | guide
  | leftStick
  | rightStick
deriving DecidableEq

namespace PadButton

/-- The bit of a button in the gamepad report. -/
def index : PadButton → Nat
  | a => 0
  | b => 1
  | x => 2
  | y => 3
  | leftShoulder => 4
  | rightShoulder => 5
  | back => 6
  | start => 7
  | guide => 8
  | leftStick => 9
  | rightStick => 10

/-- The name under which a button is shown. -/
def name : PadButton → Text
  | a => "A"
  | b => "B"
  | x => "X"
  | y => "Y"
  | leftShoulder => "LB"
  | rightShoulder => "RB"
  | back => "Back"
  | start => "Start"
  | guide => "Guide"
  | leftStick => "L3"
  | rightStick => "R3"

/-- The words that are read as buttons. -/
def aliases : List (String × PadButton) :=
  [("A", a), ("CROSS", a), ("SOUTH", a),
   ("B", b), ("CIRCLE", b), ("EAST", b),
   ("X", x), ("SQUARE", x), ("WEST", x),
   ("Y", y), ("TRIANGLE", y), ("NORTH", y),
   ("LB", leftShoulder), ("L1", leftShoulder),
   ("RB", rightShoulder), ("R1", rightShoulder),
   ("BACK", back), ("SELECT", back), ("SHARE", back), ("VIEW", back),
   ("START", start), ("OPTIONS", start), ("MENU", start),
   ("GUIDE", guide), ("HOME", guide), ("PS", guide), ("MODE", guide), ("XBOX", guide),
   ("L3", leftStick), ("LS", leftStick), ("LSB", leftStick),
   ("R3", rightStick), ("RS", rightStick), ("RSB", rightStick)]

/-- The button that a word names, in any letter case and between any blanks. -/
def parse? (t : Text) : Option PadButton := aliases.lookup (String.ofList t.trim.upper)

end PadButton

/-- An axis of the gamepad. -/
inductive PadAxis where
  | leftX
  | leftY
  | rightX
  | rightY
  | leftTrigger
  | rightTrigger
deriving DecidableEq

namespace PadAxis

/-- Every axis. -/
def all : List PadAxis := [leftX, leftY, rightX, rightY, leftTrigger, rightTrigger]

/-- The name under which an axis is shown. -/
def name : PadAxis → Text
  | leftX => "LX"
  | leftY => "LY"
  | rightX => "RX"
  | rightY => "RY"
  | leftTrigger => "LT"
  | rightTrigger => "RT"

end PadAxis

/-- A position of the directional pad. -/
inductive Hat where
  | centered
  | up
  | upRight
  | right
  | downRight
  | down
  | downLeft
  | left
  | upLeft
deriving DecidableEq

namespace Hat

/-- The value of a position in the report: the eight directions clockwise from up, then the
centre. -/
def value : Hat → UInt8
  | up => 0
  | upRight => 1
  | right => 2
  | downRight => 3
  | down => 4
  | downLeft => 5
  | left => 6
  | upLeft => 7
  | centered => 8

/-- A position as a unit vector, to the right and downwards. -/
def vector : Hat → Int × Int
  | centered => (0, 0)
  | up => (0, -1)
  | upRight => (1, -1)
  | right => (1, 0)
  | downRight => (1, 1)
  | down => (0, 1)
  | downLeft => (-1, 1)
  | left => (-1, 0)
  | upLeft => (-1, -1)

/-- The name under which a position is shown. -/
def name : Hat → Text
  | centered => "center"
  | up => "up"
  | upRight => "up-right"
  | right => "right"
  | downRight => "down-right"
  | down => "down"
  | downLeft => "down-left"
  | left => "left"
  | upLeft => "up-left"

/-- The words that are read as positions. -/
def aliases : List (String × Hat) :=
  [("UP", up), ("N", up), ("UPRIGHT", upRight), ("NE", upRight), ("RIGHT", right), ("E", right),
   ("DOWNRIGHT", downRight), ("SE", downRight), ("DOWN", down), ("S", down),
   ("DOWNLEFT", downLeft), ("SW", downLeft), ("LEFT", left), ("W", left),
   ("UPLEFT", upLeft), ("NW", upLeft),
   ("CENTER", centered), ("CENTRE", centered), ("NONE", centered), ("RELEASE", centered),
   ("OFF", centered)]

/-- The position that a word names, in any letter case; spaces, hyphens and underscores inside
it are passed over. -/
def parse? (t : Text) : Option Hat :=
  aliases.lookup (String.ofList (Text.upper (t.trim.filter fun c =>
    !(c == '_' || c == '-' || c == ' '))))

end Hat

end Keyfob
