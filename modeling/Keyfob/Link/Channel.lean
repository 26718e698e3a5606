import Keyfob.Allowance
import Keyfob.Text.Basic
import Keyfob.Text.Utf8

/-!
# Channels

A channel is the device's end of a connection: bytes that have arrived and wait to be read, and
what has been written to the other side. Reads and writes can fail; a read that fails takes
nothing.
-/
namespace Keyfob

/-- The two kinds of link. -/
inductive LinkKind where
  /-- A serial line to the host. -/
  | serial
  /-- A wireless link to a phone. -/
  | ble
deriving DecidableEq

namespace LinkKind

/-- The name under which a kind is shown. -/
def name : LinkKind → Text
  | serial => "Serial"
  | ble => "BLE"

/-- Whether a link needs no wire. -/
def isWireless : LinkKind → Bool
  | serial => false
  | ble => true

/-- What is sent at the end of each line. -/
def ending : LinkKind → Text
  | serial => "\r\n"
  | ble => "\n"

end LinkKind

/-- Why a link failed. -/
inductive LinkError where
  /-- It could not be read or written, for the given cause. -/
  | io (cause : Text)
  /-- The other side is gone. -/
  | closed
deriving DecidableEq

/-- The text that reports an error of a link. -/
def LinkError.message : LinkError → Text
  | io cause => "I/O error: " ++ cause
  | closed => "Channel closed"

/-- The device's end of a connection. -/
structure Channel where
  /-- The kind of link. -/
  kind : LinkKind
  /-- The bytes that wait to be read. -/
  incoming : List UInt8 := []
  /-- How many more reads succeed. -/
  reads : Allowance := none
  /-- Whether the other side is there. -/
  connected : Bool := true
  /-- Which of the next writes fail on their own. -/
  lapses : Lapses := []
  /-- What was written, one list of bytes for each write, the latest first. -/
  latest : List (List UInt8) := []
deriving DecidableEq

namespace Channel

/-- The most bytes that one read takes. -/
def readSize : Nat := 256

/-- Why reads fail that are not allowed, and writes that fail on their own. -/
def fault : LinkError := .io "injected fault"

/-- Read some of the bytes that wait, none if there are none. -/
def read (channel : Channel) : Except LinkError (List UInt8) × Channel :=
  match channel.reads.spend? with
  | none => (.error fault, channel)
  | some reads =>
    (.ok (channel.incoming.take readSize),
      { channel with incoming := channel.incoming.drop readSize, reads := reads })

/-- A read that takes something leaves less to be read. -/
theorem length_incoming_of_read {channel after : Channel} {b : UInt8} {bytes : List UInt8}
    (outcome : channel.read = (.ok (b :: bytes), after)) :
    after.incoming.length < channel.incoming.length := by
  simp only [read] at outcome
  split at outcome
  · simp at outcome
  · obtain ⟨taken, rfl⟩ := Prod.mk.inj outcome
    simp only [Except.ok.injEq] at taken
    have waiting : channel.incoming ≠ [] := by
      intro none
      simp [none] at taken
    have := List.length_pos_iff.mpr waiting
    simp only [readSize, List.length_drop]
    omega

/-- Write some bytes at once. -/
def write (channel : Channel) (bytes : List UInt8) : Except LinkError Unit × Channel :=
  let later : Channel := { channel with lapses := channel.lapses.tail }
  if channel.lapses.fails then (.error fault, later)
  else if channel.connected then (.ok (), { later with latest := bytes :: channel.latest })
  else (.error .closed, later)

/-- The channel with more bytes waiting. -/
def arriving (channel : Channel) (bytes : List UInt8) : Channel :=
  { channel with incoming := channel.incoming ++ bytes }

/-- The channel with reads that fail or succeed from now on. -/
def failing (channel : Channel) (on : Bool) : Channel :=
  { channel with reads := if on then some 0 else none }

/-- The channel with its other side gone. -/
def closed (channel : Channel) : Channel := { channel with connected := false }

/-- What was written, one list of bytes for each write. -/
def sent (channel : Channel) : List (List UInt8) := channel.latest.reverse

/-- The channel with what was written forgotten. -/
def drained (channel : Channel) : Channel := { channel with latest := [] }

/-- The lines that the other side makes of what was written. -/
def sentLines (channel : Channel) : List Text :=
  (Text.decode channel.sent.flatten).lines.map fun line =>
    (line.reverse.dropWhile (· == '\r')).reverse

end Channel

end Keyfob
