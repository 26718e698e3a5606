import Keyfob.Text.Utf8

/-!
# Lines

A link carries lines of UTF-8 text. A line feed ends a line, and a carriage return directly
before it is taken off and noted. A line that has grown to `Framer.longest` bytes is ended by
the next byte, which begins another. Framing is a step on one byte (`Framer.feed`), so that how
the bytes were cut on their way does not matter (`Framer.feedAll_append`).
-/
namespace Keyfob

/-- A received line without its end. -/
structure Line where
  /-- The text of the line. -/
  text : Text
  /-- Whether a carriage return stood before the end. -/
  crlf : Bool := false
deriving DecidableEq

namespace Line

/-- The byte that ends a line. -/
def feedByte : UInt8 := 10

/-- The byte that is taken off before the end of a line. -/
def returnByte : UInt8 := 13

/-- The line that some bytes make, given with the latest first. -/
def ofLatest : List UInt8 → Line
  | [] => { text := [] }
  | b :: earlier =>
    if b = returnByte then { text := Text.decode earlier.reverse, crlf := true }
    else { text := Text.decode (b :: earlier).reverse }

end Line

/-- The bytes of a line whose end has not come. -/
structure Framer where
  /-- The bytes so far, the latest first. -/
  latest : List UInt8 := []
  /-- How many bytes there are. -/
  pending : Nat := latest.length
  /-- The count is right. -/
  pending_eq : pending = latest.length := by rfl
deriving DecidableEq

namespace Framer

/-- The most bytes that a line holds. -/
def longest : Nat := 4096

/-- Nothing received yet. -/
def empty : Framer := {}

/-- Take one byte: the lines that it completes. -/
def feed (framer : Framer) (b : UInt8) : Framer × List Line :=
  if b = Line.feedByte then (empty, [Line.ofLatest framer.latest])
  else if framer.pending ≥ longest then ({ latest := [b] }, [Line.ofLatest framer.latest])
  else
    ({ latest := b :: framer.latest, pending := framer.pending + 1,
       pending_eq := congrArg (· + 1) framer.pending_eq }, [])

/-- Take bytes in order: the lines that they complete. -/
def feedAll : Framer → List UInt8 → Framer × List Line
  | framer, [] => (framer, [])
  | framer, b :: bytes =>
    let (framer, completed) := framer.feed b
    let (framer, later) := feedAll framer bytes
    (framer, completed ++ later)

/-- Taking bytes in two parts is taking them at once. -/
theorem feedAll_append (framer : Framer) (first second : List UInt8) :
    framer.feedAll (first ++ second) =
      (((framer.feedAll first).1.feedAll second).1,
        (framer.feedAll first).2 ++ ((framer.feedAll first).1.feedAll second).2) := by
  induction first generalizing framer with
  | nil => rfl
  | cons b bytes ih => simp [feedAll, ih]

end Framer

end Keyfob
