import Keyfob.Link.Channel
import Keyfob.Link.Line

/-!
# Links that carry lines

A line link frames what its channel delivers into lines that wait in a queue, and sends lines
in writes of a limited size. A poll reads until nothing is left; where a read fails, the lines
from the reads before it stay in the queue.
-/
namespace Keyfob

/-- A limit on the bytes of one write. -/
structure ChunkSize where
  /-- The most bytes of one write. -/
  bytes : Nat
  /-- Some bytes can be written. -/
  positive : 0 < bytes := by decide
deriving DecidableEq

namespace ChunkSize

/-- The limit of a given number of bytes; zero is none. -/
def ofNat? (n : Nat) : Option ChunkSize :=
  if positive : 0 < n then some { bytes := n, positive } else none

/-- Bytes in parts of a limited size, of which only the last may be smaller. -/
def cut (size : ChunkSize) (bytes : List UInt8) : List (List UInt8) :=
  match bytes with
  | [] => []
  | b :: rest =>
    (b :: rest).take size.bytes :: size.cut ((b :: rest).drop size.bytes)
termination_by bytes.length
decreasing_by
  have := size.positive
  simp only [List.length_drop, List.length_cons]
  omega

end ChunkSize

/-- The limit on writes that a kind of link has from the start. -/
def LinkKind.chunkSize : LinkKind → Option ChunkSize
  | serial => none
  | ble => some { bytes := 20 }

/-- A channel with framing on the way in and limited writes on the way out. -/
structure LineLink where
  /-- The channel. -/
  channel : Channel
  /-- The line that is incomplete. -/
  framer : Framer := .empty
  /-- The lines that wait to be taken. -/
  queue : List Line := []
  /-- The limit on the bytes of one write. -/
  chunkSize : Option ChunkSize := channel.kind.chunkSize
deriving DecidableEq

namespace LineLink

/-- The kind of link. -/
def kind (link : LineLink) : LinkKind := link.channel.kind

/-- The link with some bytes of a read framed. -/
def framing (link : LineLink) (bytes : List UInt8) : LineLink :=
  let (framer, lines) := link.framer.feedAll bytes
  { link with framer := framer, queue := link.queue ++ lines }

/-- Read and frame everything that waits. -/
def poll (link : LineLink) : Except LinkError Unit × LineLink :=
  match outcome : link.channel.read with
  | (.error e, channel) => (.error e, { link with channel := channel })
  | (.ok [], channel) => (.ok (), { link with channel := channel })
  | (.ok (b :: bytes), channel) =>
    have := Channel.length_incoming_of_read outcome
    poll ({ link with channel := channel }.framing (b :: bytes))
termination_by link.channel.incoming.length

/-- Take the first line of the queue, after a poll if there is none. -/
def nextLine (link : LineLink) : Except LinkError (Option Line) × LineLink :=
  let take (link : LineLink) : Option Line × LineLink :=
    (link.queue.head?, { link with queue := link.queue.tail })
  if link.queue.isEmpty then
    match link.poll with
    | (.error e, link) => (.error e, link)
    | (.ok (), link) => let (line, link) := take link; (.ok line, link)
  else let (line, link) := take link; (.ok line, link)

/-- Take lines of the queue after a poll, all of them or no more than a cap. -/
def drain (link : LineLink) (cap : Option Nat) : Except LinkError (List Line) × LineLink :=
  match link.poll with
  | (.error e, link) => (.error e, link)
  | (.ok (), link) =>
    let count := cap.getD link.queue.length
    (.ok (link.queue.take count), { link with queue := link.queue.drop count })

/-- Write parts one by one, up to the first that fails. -/
def sendParts : List (List UInt8) → LineLink → Except LinkError Unit × LineLink
  | [], link => (.ok (), link)
  | part :: parts, link =>
    match link.channel.write part with
    | (.ok (), channel) => sendParts parts { link with channel := channel }
    | (.error e, channel) => (.error e, { link with channel := channel })

/-- The writes that some bytes are sent in. -/
def parts (link : LineLink) (bytes : List UInt8) : List (List UInt8) :=
  match link.chunkSize with
  | some size => size.cut bytes
  | none => [bytes]

/-- Send some bytes. -/
def send (link : LineLink) (bytes : List UInt8) : Except LinkError Unit × LineLink :=
  sendParts (link.parts bytes) link

/-- Send a line with the ending of the link's kind. -/
def sendLine (link : LineLink) (t : Text) : Except LinkError Unit × LineLink :=
  link.send (t ++ link.kind.ending).utf8

/-- The link with what was written forgotten. -/
def drained (link : LineLink) : LineLink := { link with channel := link.channel.drained }

end LineLink

end Keyfob
