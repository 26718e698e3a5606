import Keyfob.Text.Basic

/-!
# Directives in macro text

Macro text is typed as it stands, except for directives between double braces. The scanner is
fed one character at a time and says at once what is known to be literal, so that text can be
typed while it arrives. A single opening brace before anything else is literal, a single closing
brace inside a directive belongs to it, and whatever is still open at the end is literal.
-/
namespace Keyfob

/-- What the scanner has seen of a directive. -/
inductive Scanner where
  /-- No directive. -/
  | outside
  /-- One opening brace. -/
  | opened
  /-- The inside of a directive, the latest character first. -/
  | inside (latest : Text)
  /-- The inside of a directive, the latest character first, and then one closing brace. -/
  | closing (latest : Text)
deriving DecidableEq

/-- A piece of macro text: a literal character or the inside of a directive. -/
inductive Piece where
  /-- A character to be typed. -/
  | literal (c : Char)
  /-- What stands between the double braces of a directive. -/
  | directive (body : Text)
deriving DecidableEq

/-- A stretch of macro text: a run of literal characters or the inside of a directive. -/
inductive Segment where
  /-- Characters to be typed. -/
  | literal (text : Text)
  /-- What stands between the double braces of a directive. -/
  | directive (body : Text)
deriving DecidableEq

namespace Scanner

/-- Whether a directive, or what may become one, is open. -/
def isOpen : Scanner → Bool
  | outside => false
  | _ => true

/-- Feed one character: the pieces that it completes, none as long as a directive may be
open. -/
def feed : Scanner → Char → Scanner × List Piece
  | outside, c => if c = '\x7b' then (opened, []) else (outside, [.literal c])
  | opened, c =>
    if c = '\x7b' then (inside [], []) else (outside, [.literal '\x7b', .literal c])
  | inside latest, c => if c = '\x7d' then (closing latest, []) else (inside (c :: latest), [])
  | closing latest, c =>
    if c = '\x7d' then (outside, [.directive latest.reverse])
    else (inside (c :: '\x7d' :: latest), [])

/-- The text of a directive that is still open. -/
def pending : Scanner → Option Text
  | outside => none
  | opened => some ['\x7b']
  | inside latest => some ('\x7b' :: '\x7b' :: latest.reverse)
  | closing latest => some ('\x7b' :: '\x7b' :: latest.reverse ++ ['\x7d'])

/-- The pieces left at the end of the text: what is still open is literal. -/
def finish (scanner : Scanner) : List Piece := (scanner.pending.getD []).map .literal

/-- Feed a text: the pieces that it completes. -/
def feedAll : Scanner → Text → Scanner × List Piece
  | scanner, [] => (scanner, [])
  | scanner, c :: cs =>
    let (next, pieces) := scanner.feed c
    let (last, more) := next.feedAll cs
    (last, pieces ++ more)

end Scanner

namespace Piece

/-- The pieces of a whole text. -/
def ofText (t : Text) : List Piece :=
  let (scanner, pieces) := Scanner.outside.feedAll t
  pieces ++ scanner.finish

end Piece

namespace Segment

/-- Runs of pieces: neighbouring literal characters together, each directive alone. -/
def ofPieces : List Piece → List Segment
  | [] => []
  | .literal c :: pieces =>
    match ofPieces pieces with
    | literal t :: segments => literal (c :: t) :: segments
    | segments => literal [c] :: segments
  | .directive body :: pieces => directive body :: ofPieces pieces

/-- The segments of a whole text. -/
def ofText (t : Text) : List Segment := ofPieces (Piece.ofText t)

/-- A segment as it is written. -/
def written : Segment → Text
  | literal t => t
  | directive body => '\x7b' :: '\x7b' :: body ++ ['\x7d', '\x7d']

end Segment

end Keyfob
