import Keyfob.Access.Pin

/-!
# The screen

The screen shows a line of status and a menu. What it has shown is kept, so that statements
can speak of it.
-/
namespace Keyfob

/-- A menu with the place of its selected entry. -/
structure Menu where
  /-- The entries. -/
  entries : List Text
  /-- The place of the selected entry. -/
  selected : Nat
deriving DecidableEq

/-- A screen and what it has shown. -/
structure Screen where
  /-- The lines of status so far, the latest first. -/
  latest : List Text := []
  /-- The menu drawn last. -/
  menu : Option Menu := none
deriving DecidableEq

namespace Screen

/-- Show a line of status. -/
def status (t : Text) (screen : Screen) : Screen := { screen with latest := t :: screen.latest }

/-- Draw a menu. -/
def draw (menu : Menu) (screen : Screen) : Screen := { screen with menu := some menu }

/-- The lines of status so far, in order. -/
def statuses (screen : Screen) : List Text := screen.latest.reverse

end Screen

end Keyfob
