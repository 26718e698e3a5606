import Keyfob.Sorting.Basic
import Keyfob.Text.Number
import Keyfob.Text.Utf8

/-!
# File names

Macro files have names of one component that end in .txt. A user may leave the ending out
(`FileName.ofUser?`). Two names that are numbers are compared by their value, before ties are
broken by the name itself, and other pairs of names by their characters (`FileName.compare`).
Three names can so stand in a circle, each before the next: what a listing makes of them is
settled by the way in which it is sorted, and there may be none (`FileName.listing?`).
-/
namespace Keyfob

namespace FileName

/-- The ending of a macro file. -/
def ending : Text := ".txt"

/-- Whether a name ends like a macro file's, in any letter case. -/
def isText (name : Text) : Bool := name.lower.endsWith ending

/-- Whether a name would lead out of its directory: it is empty, divides into components, or
holds two dots in a row. -/
def leadsAway (name : Text) : Bool :=
  name.isEmpty || name.contains '/' || name.contains '\\' || name.has ".."

/-- The file that a user's name means: the name without blanks around it, with the ending added
where it lacks it. A name that leads away or holds control characters means none. -/
def ofUser? (name : Text) : Option Text :=
  if leadsAway name.trim || name.trim.any Text.isControl then none
  else if isText name.trim then some name.trim
  else some (name.trim ++ ending)

/-- The rest of a reversed text after its first bytes, if a character ends there. -/
def dropBytes? : Nat → Text → Option Text
  | 0, t => some t
  | _ + 1, [] => none
  | count + 1, c :: cs =>
    if c.utf8Size ≤ count + 1 then dropBytes? (count + 1 - c.utf8Size) cs else none

/-- A name without its last four bytes, where those are whole characters. -/
def stem (name : Text) : Text := ((dropBytes? 4 name.reverse).map List.reverse).getD name

/-- Whether a stem is a number. -/
def isNumeric (stem : Text) : Bool := !stem.isEmpty && stem.all Text.isDigit

/-- A number without its leading zeros. -/
def significant (digits : Text) : Text := digits.dropWhile (· == '0')

/-- The order in which files are listed: two numbers by their value, then, and for all other
names, by the code points of the whole name. -/
def compare (a b : Text) : Ordering :=
  let x := significant (stem a)
  let y := significant (stem b)
  if isNumeric (stem a) && isNumeric (stem b) then
    (Ord.compare x.length y.length).then ((Text.compare x y).then (Text.compare a b))
  else Text.compare a b

/-- The files of a list that are macro files, in the order of listings, at most fifteen; none
if their names are found to be in no order. -/
def listing? (names : List Text) : Option (List Text) :=
  (Sorting.sort? (fun a b => compare a b = .lt) (names.filter isText)).map (·.take 15)

end FileName

end Keyfob
